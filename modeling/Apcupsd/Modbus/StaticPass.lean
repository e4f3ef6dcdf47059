import Apcupsd.Foundations.RepeatedWrites
import Apcupsd.Modbus.VolatilePass

/-!
# The passes over the static data

What {lit}`ModbusUpsDriver::read_static_data` leaves in the record when some of its reads
fail.  The passes are repeated in any case, and the map id is appended to what the field of
the firmware version holds.

Main results:

- Theorem {lit}`staticShows_storeItems`: every other field keeps its value or takes the one of
  its own register.
- Theorem {lit}`firmrev_storeItems`: the version read last, or what the field held before,
  has behind it one map id for each later read of it.
- Theorem {lit}`readStaticData_kept_iff`: when that is harmless.
-/

namespace Apcupsd

open BitFlags Apcupsd.Core RepeatedWrites
open BufferedDriver (ReadsFrom)
open ModbusUpsDriver (Registers registerBytes covered storeItems)

/-! ## What the record shows of a static item -/

/-- The value of a field. -/
inductive StaticView where
  | text (text : List Char)
  | number (value : Int)
  | absent
deriving DecidableEq

/-- The field that a static item is decoded into, unless it is that of the firmware version. -/
def staticShows (ci : Ci) (ups : UpsInfo) : StaticView :=
  match ci with
  | .upsmodel => .text ups.upsmodel
  | .serno => .text ups.serial
  | .iden => .text ups.upsname
  | .mandat => .text ups.birth
  | .battdat => .text ups.battdat
  | .nomoutv => .number ups.nomOutputVoltage
  | .nompower => .number ups.nomPower
  | .nomApparent => .number ups.nomApparentPower
  | .dshutd => .number ups.dshutd
  | .dwake => .number ups.dwake
  | _ => .absent

/-- What the value of a register stands for, cut to the array of the field. -/
def staticDecoded (ci : Ci) (value : CiValue) : StaticView :=
  match ci with
  | .upsmodel => .text (strlcpy value.str 256)
  | .serno => .text (strlcpy value.str 32)
  | .iden => .text (strlcpy value.str 100)
  | .mandat | .battdat => .text (dateString value.uint.toNat)
  | .nomoutv => .number (nomOutputVoltageOf value.uint)
  | .nompower | .nomApparent => .number value.uint.toNat
  | .dshutd | .dwake => .number value.sint
  | _ => .absent

theorem staticShows_applyCi_self (ci : Ci) (value : CiValue) (ups : UpsInfo) :
    staticShows ci (applyCi ci value ups) = staticDecoded ci value := by
  cases ci <;> rfl

theorem staticShows_status (ci : Ci) (word : StatusWord) (ups : UpsInfo) :
    staticShows ci { ups with status := word } = staticShows ci ups := by
  cases ci <;> rfl

/-- A static item leaves alone what the record shows of the others, and so do all dynamic
items. -/
theorem staticShows_applyCi_of_ne {ci other : Ci} (hne : other ≠ ci) (value : CiValue)
    (ups : UpsInfo) : staticShows ci (applyCi other value ups) = staticShows ci ups := by
  by_cases hbits : ciBits other = 0
  · cases ci with
    | upsmodel | serno | iden | mandat | battdat | nomoutv | nompower | nomApparent | dshutd
    | dwake =>
        cases other with
        | whyBatt =>
            unfold applyCi
            dsimp only
            split <;> rfl
        | status | lowBattery | calibration | overload | needReplacement | batteryPresent
        | boost | trim => exact absurd hbits (by decide)
        | _ => first | exact absurd rfl hne | rfl
    | _ => rfl
  · rcases applyCi_of_ciBits hbits value ups with ⟨word, hword⟩
    rw [hword]
    exact staticShows_status ci word ups

/-- After a pass the record shows of an item what it showed before or what one of the items
stored for it. -/
theorem staticShows_storeItems (items : List (Ci × CiValue)) (ci : Ci) (ups : UpsInfo) :
    staticShows ci (applyUpdates (storeItems items) ups) = staticShows ci ups ∨
      ∃ value, (ci, value) ∈ items ∧
        staticShows ci (applyUpdates (storeItems items) ups) = staticDecoded ci value := by
  induction items generalizing ups with
  | nil => exact .inl rfl
  | cons item items ih =>
      rcases item with ⟨other, value⟩
      rcases ih (applyCi other value ups) with hsame | ⟨later, hmem, hlater⟩
      · by_cases hci : other = ci
        · subst hci
          exact .inr ⟨value, List.mem_cons_self,
            hsame.trans (staticShows_applyCi_self other value ups)⟩
        · exact .inl (hsame.trans (staticShows_applyCi_of_ne hci value ups))
      · exact .inr ⟨later, List.mem_cons_of_mem _ hmem, hlater⟩

/-! ## The field of the firmware version -/

/-- What an item does to the field of the firmware version. -/
theorem firmrev_applyCi (ci : Ci) (value : CiValue) (ups : UpsInfo) :
    (applyCi ci value ups).firmrev =
      if ci = .revno then strlcpy value.str 20
      else if ci = .bupSelfTest then strlcpy (ups.firmrev ++ " / ".toList ++ value.str) 20
      else ups.firmrev := by
  by_cases hbits : ciBits ci = 0
  · cases ci with
    | whyBatt =>
        unfold applyCi
        dsimp only
        split <;> rfl
    | status | lowBattery | calibration | overload | needReplacement | batteryPresent
    | boost | trim => exact absurd hbits (by decide)
    | _ => rfl
  · rcases applyCi_of_ciBits hbits value ups with ⟨word, hword⟩
    have hother : ci ≠ .revno ∧ ci ≠ .bupSelfTest := by
      constructor <;> rintro rfl <;> exact hbits rfl
    rw [hword, if_neg hother.1, if_neg hother.2]

/-- The item that sets the field, and the one that appends to it. -/
def isVersion (ci : Ci) : Bool :=
  ci == .revno

def isMapId (ci : Ci) : Bool :=
  ci == .bupSelfTest

/-- The map ids read since the version was read last. -/
def idsSince (answered : List Ci) : ℕ :=
  addsSince isVersion isMapId answered

theorem firmrev_applyCi_write {ci : Ci} {value : CiValue} {version id : List Char}
    (hversion : ci = .revno → value.str = version) (hid : ci = .bupSelfTest → value.str = id)
    (ups : UpsInfo) :
    (applyCi ci value ups).firmrev =
      write isVersion isMapId (strlcpy version 20) (appendWithin 19 (" / ".toList ++ id))
        ups.firmrev ci := by
  rw [firmrev_applyCi]
  unfold write isVersion isMapId
  by_cases hrevno : ci = .revno
  · simp [hrevno, hversion hrevno]
  · by_cases hmapid : ci = .bupSelfTest
    · simp [hmapid, hid hmapid, appendWithin, strlcpy]
    · simp [hrevno, hmapid]

/-- The version read last, or what was there, has behind it the map ids read since. -/
theorem firmrev_storeItems {items : List (Ci × CiValue)} {version id : List Char}
    (hversion : ∀ value, (Ci.revno, value) ∈ items → value.str = version)
    (hid : ∀ value, (Ci.bupSelfTest, value) ∈ items → value.str = id) (ups : UpsInfo) :
    (applyUpdates (storeItems items) ups).firmrev =
      (appendWithin 19 (" / ".toList ++ id))^[idsSince (items.map Prod.fst)]
        (if .revno ∈ items.map Prod.fst then strlcpy version 20 else ups.firmrev) := by
  have hfold : (applyUpdates (storeItems items) ups).firmrev =
      (items.map Prod.fst).foldl (write isVersion isMapId (strlcpy version 20)
        (appendWithin 19 (" / ".toList ++ id))) ups.firmrev := by
    induction items generalizing ups with
    | nil => rfl
    | cons item items ih =>
        rcases item with ⟨ci, value⟩
        have hrest := ih (fun later hmem => hversion later (List.mem_cons_of_mem _ hmem))
          (fun later hmem => hid later (List.mem_cons_of_mem _ hmem)) (applyCi ci value ups)
        refine hrest.trans ?_
        rw [List.map_cons, List.foldl_cons, firmrev_applyCi_write
          (fun hci => hversion value (hci ▸ List.mem_cons_self))
          (fun hci => hid value (hci ▸ List.mem_cons_self))]
  have hany : (items.map Prod.fst).any isVersion = true ↔ .revno ∈ items.map Prod.fst := by
    simp only [List.any_eq_true, isVersion, beq_iff_eq, exists_eq_right]
  rw [hfold, foldl_write]
  exact congrArg _ (if_congr hany rfl rfl)

/-! ## The reads -/

section Reads

variable {port : RegisterPort} {image : Registers}

/-- The entries of the table that a static pass reads. -/
def staticEntries (cap : Ci → Bool) : List CiInfo :=
  ciTable.filter fun info => cap info.ci && info.dynamic == false

/-- The items whose registers are answered, one call for each. -/
def answeredCis (port : RegisterPort) : List CiInfo → ℕ → List Ci
  | [], _ => []
  | info :: entries, call =>
      (if (port call info.reg.addr info.reg.nregs).isSome then [info.ci] else []) ++
        answeredCis port entries (call + 1)

/-- Those of all passes. -/
def answeredStatic (port : RegisterPort) (cap : Ci → Bool) : ℕ → ℕ → List Ci
  | 0, _ => []
  | attempts + 1, call =>
      answeredCis port (staticEntries cap) call ++
        answeredStatic port cap attempts (call + (staticEntries cap).length)

/-- What a register of the UPS stands for. -/
def registerValue (image : Registers) (info : CiInfo) : CiValue :=
  decode info.reg (registerBytes image info.reg.addr info.reg.nregs)

theorem uncovered_of_static :
    ∀ info ∈ ciTable, info.dynamic = false → covered info.reg = false := by
  decide

/-- A static item costs one call, and is decoded from its own register. -/
theorem updateCi_static (himage : ReadsFrom port image) {info : CiInfo}
    (huncovered : covered info.reg = false) (driver : ModbusUpsDriver) (call : ℕ) :
    driver.updateCi port info false call =
      (if (port call info.reg.addr info.reg.nregs).isSome then
        some (info.ci, registerValue image info) else none, call + 1) := by
  unfold ModbusUpsDriver.updateCi ModbusUpsDriver.getRegisterData
  rw [huncovered]
  cases hanswer : port call info.reg.addr info.reg.nregs with
  | none => simp
  | some data =>
      have hdata := himage _ _ _ _ hanswer
      have hlength := ModbusUpsDriver.length_registerBytes image info.reg.addr info.reg.nregs
      simp [hdata, registerValue, ← hlength]

/-- One pass over the static entries of a table. -/
theorem updateCis_static (himage : ReadsFrom port image) (driver : ModbusUpsDriver)
    (cap : Ci → Bool) {table : List CiInfo}
    (htable : ∀ info ∈ table, info.dynamic = false → covered info.reg = false) (call : ℕ) :
    let entries := table.filter fun info => cap info.ci && info.dynamic == false
    (∀ item ∈ (driver.updateCis port cap false table call).1,
        ∃ info ∈ table, info.dynamic = false ∧ item = (info.ci, registerValue image info)) ∧
      (driver.updateCis port cap false table call).1.map Prod.fst =
        answeredCis port entries call ∧
      (driver.updateCis port cap false table call).2 = call + entries.length := by
  induction table generalizing call with
  | nil => exact ⟨fun item hitem => absurd hitem List.not_mem_nil, rfl, rfl⟩
  | cons info table ih =>
      have hrest := ih fun later hlater => htable later (List.mem_cons_of_mem _ hlater)
      dsimp only at hrest ⊢
      have hmore : ∀ item, (∃ found ∈ table, found.dynamic = false ∧
            item = (found.ci, registerValue image found)) →
          ∃ found ∈ info :: table, found.dynamic = false ∧
            item = (found.ci, registerValue image found) := by
        rintro item ⟨found, hfound, hstatic⟩
        exact ⟨found, List.mem_cons_of_mem _ hfound, hstatic⟩
      unfold ModbusUpsDriver.updateCis
      cases hquery : cap info.ci && info.dynamic == false with
      | false =>
          rw [if_neg Bool.false_ne_true, List.filter_cons_of_neg
            (p := fun info : CiInfo => cap info.ci && info.dynamic == false)
            (ne_true_of_eq_false hquery)]
          rcases hrest call with ⟨hitems, hanswered, hcalls⟩
          exact ⟨fun item hitem => hmore item (hitems item hitem), hanswered, hcalls⟩
      | true =>
          have hstatic : info.dynamic = false := by
            simpa using (Bool.and_eq_true_iff.mp hquery).2
          rw [if_pos rfl, List.filter_cons_of_pos
              (p := fun info : CiInfo => cap info.ci && info.dynamic == false) hquery,
            updateCi_static himage (htable info List.mem_cons_self hstatic)]
          rcases hrest (call + 1) with ⟨hitems, hanswered, hcalls⟩
          dsimp only
          refine ⟨?_, ?_, ?_⟩
          · intro item hitem
            rcases List.mem_append.mp hitem with hfirst | hlater
            · split_ifs at hfirst
              · rw [Option.toList_some, List.mem_singleton] at hfirst
                exact ⟨info, List.mem_cons_self, hstatic, hfirst⟩
              · cases hfirst
            · exact hmore item (hitems item hlater)
          · rw [List.map_append, hanswered, answeredCis]
            split_ifs <;> rfl
          · rw [hcalls, List.length_cons]
            omega

/-- The items of all passes. -/
theorem readStaticData_items (himage : ReadsFrom port image) (driver : ModbusUpsDriver)
    (cap : Ci → Bool) (attempts call : ℕ) :
    (∀ item ∈ driver.readStaticData port cap attempts call,
        ∃ info ∈ ciTable, info.dynamic = false ∧ item = (info.ci, registerValue image info)) ∧
      (driver.readStaticData port cap attempts call).map Prod.fst =
        answeredStatic port cap attempts call := by
  induction attempts generalizing call with
  | zero => exact ⟨fun item hitem => absurd hitem List.not_mem_nil, rfl⟩
  | succ attempts ih =>
      rcases updateCis_static himage driver cap uncovered_of_static call with
        ⟨hitems, hanswered, hcalls⟩
      unfold ModbusUpsDriver.readStaticData answeredStatic
      generalize driver.updateCis port cap false ciTable call = pass
        at hitems hanswered hcalls ⊢
      rcases pass with ⟨items, next⟩
      dsimp only at hitems hanswered hcalls ⊢
      rcases ih next with ⟨hlater, hrest⟩
      refine ⟨?_, ?_⟩
      · intro item hitem
        rcases List.mem_append.mp hitem with hfirst | hmem
        · exact hitems item hfirst
        · exact hlater item hmem
      · rw [List.map_append, hanswered, hrest, hcalls]
        rfl

end Reads

/-! ## What is kept -/

/-- The firmware version as its field holds it. -/
def firmwareVersion (image : Registers) : List Char :=
  strlcpy (decode regFwVersion (registerBytes image regFwVersion.addr regFwVersion.nregs)).str 20

/-- What is appended for a map id. -/
def mapIdText (image : Registers) : List Char :=
  " / ".toList ++
    (decode regModbusMapId (registerBytes image regModbusMapId.addr regModbusMapId.nregs)).str

/-- A text with so many map ids behind it, cut to the field of the version. -/
def withIds (image : Registers) (text : List Char) (ids : ℕ) : List Char :=
  strlcpy (text ++ (List.replicate ids (mapIdText image)).flatten) 20

/-- Each static field has its value from before or the one of its register; that of the
firmware version may have the map id behind it, once. -/
structure StaticKept (image : Registers) (before after : UpsInfo) : Prop where
  fields : ∀ info ∈ ciTable, info.dynamic = false →
    staticShows info.ci after = staticShows info.ci before ∨
      staticShows info.ci after = staticDecoded info.ci (registerValue image info)
  firmrev : after.firmrev = before.firmrev ∨ after.firmrev = firmwareVersion image ∨
    after.firmrev = withIds image (firmwareVersion image) 1

/-- The map id does not pile up behind the version: it is read at most once after the version
was read last, and not at all if the version never was; or the field is full before; or what
piles up happens to be a text that may be there. -/
def FirmrevSafe (image : Registers) (old : List Char) (answered : List Ci) : Prop :=
  if .revno ∈ answered then
    idsSince answered ≤ 1 ∨ 19 ≤ (firmwareVersion image ++ mapIdText image).length ∨
      old = withIds image (firmwareVersion image) (idsSince answered)
  else
    idsSince answered = 0 ∨ old.length = 19 ∨
      withIds image old (idsSince answered) = firmwareVersion image ∨
      withIds image old (idsSince answered) = withIds image (firmwareVersion image) 1

/-- The field of the version, from the reads that are answered. -/
theorem firmrev_readStaticData {port : RegisterPort} {image : Registers}
    (himage : ReadsFrom port image) (driver : ModbusUpsDriver) (cap : Ci → Bool)
    (attempts call : ℕ) (ups : UpsInfo) :
    let answered := answeredStatic port cap attempts call
    (applyUpdates (storeItems (driver.readStaticData port cap attempts call)) ups).firmrev =
      (appendWithin 19 (mapIdText image))^[idsSince answered]
        (if .revno ∈ answered then firmwareVersion image else ups.firmrev) := by
  rcases readStaticData_items himage driver cap attempts call with ⟨hitems, hanswered⟩
  have hvalue : ∀ {ci : Ci} (reg : RegInfo), (∀ info ∈ ciTable, info.ci = ci → info.reg = reg) →
      ∀ value, (ci, value) ∈ driver.readStaticData port cap attempts call →
        value = decode reg (registerBytes image reg.addr reg.nregs) := by
    intro ci reg honly value hmem
    rcases hitems _ hmem with ⟨info, hinfo, -, heq⟩
    rcases Prod.mk.inj heq with ⟨hci, rfl⟩
    rw [registerValue, honly info hinfo hci.symm]
  have hstored := firmrev_storeItems
    (fun value hmem => congrArg CiValue.str (hvalue regFwVersion (by decide) value hmem))
    (fun value hmem => congrArg CiValue.str (hvalue regModbusMapId (by decide) value hmem)) ups
  rw [hanswered] at hstored
  exact hstored

/-- After a version that fits its field, several map ids leave one of the texts that may be
there only if one map id fills the field, or by chance. -/
theorem firmrevSafe_iff (image : Registers) (old : List Char) (answered : List Ci) :
    FirmrevSafe image old answered ↔
      let text := (appendWithin 19 (mapIdText image))^[idsSince answered]
        (if .revno ∈ answered then firmwareVersion image else old)
      text = old ∨ text = firmwareVersion image ∨
        text = withIds image (firmwareVersion image) 1 := by
  have hid : mapIdText image ≠ [] := by simp [mapIdText]
  have hmany : ∀ text n, (appendWithin 19 (mapIdText image))^[n + 1] text =
      withIds image text (n + 1) :=
    fun text n => iterate_appendWithin n
  have hone : ∀ text, withIds image text 1 = appendWithin 19 (mapIdText image) text :=
    fun text => (hmany text 0).symm
  unfold FirmrevSafe
  dsimp only
  by_cases hversion : .revno ∈ answered
  · simp only [if_pos hversion]
    rcases idsSince answered with - | - | n
    · simp
    · simp [hone]
    · have hself := @appendWithin_eq_self_iff _ 19 _ (firmwareVersion image) hid (n + 1)
      have honce := @appendWithin_eq_once_iff _ 19 _ (firmwareVersion image) hid n
      have hpos : 0 < (mapIdText image).length := List.length_pos_iff.mpr hid
      rw [hone, hself, honce, hmany, List.length_append, eq_comm (a := old)]
      constructor
      · rintro (hfew | hfull | hchance)
        · omega
        · exact .inr (.inr hfull)
        · exact .inl hchance
      · rintro (hchance | hfull | hfull)
        · exact .inr (.inr hchance)
        · exact .inr (.inl (by omega))
        · exact .inr (.inl hfull)
  · simp only [if_neg hversion]
    rcases idsSince answered with - | n
    · simp
    · rw [appendWithin_eq_self_iff hid, hmany]
      simp

/-- The passes over the static data of a UPS whose registers do not change leave each field
as it was or as its register says, exactly if the map ids do not pile up behind the version
of the firmware. -/
theorem readStaticData_kept_iff {port : RegisterPort} {image : Registers}
    (himage : ReadsFrom port image) (driver : ModbusUpsDriver) (cap : Ci → Bool)
    (attempts call : ℕ) (ups : UpsInfo) :
    StaticKept image ups
        (applyUpdates (storeItems (driver.readStaticData port cap attempts call)) ups) ↔
      FirmrevSafe image ups.firmrev (answeredStatic port cap attempts call) := by
  have hfirmrev := firmrev_readStaticData himage driver cap attempts call ups
  rw [firmrevSafe_iff]
  dsimp only at hfirmrev ⊢
  rw [← hfirmrev]
  refine ⟨fun hkept => hkept.firmrev, fun hsafe => ⟨?_, hsafe⟩⟩
  intro info hinfo hstatic
  have honly : ∀ first ∈ ciTable, ∀ second ∈ ciTable, first.ci = second.ci → first = second := by
    decide
  rcases staticShows_storeItems (driver.readStaticData port cap attempts call) info.ci ups with
    hsame | ⟨value, hmem, hstored⟩
  · exact .inl hsame
  · rcases (readStaticData_items himage driver cap attempts call).1 _ hmem with
      ⟨found, hfound, -, heq⟩
    rcases Prod.mk.inj heq with ⟨hci, rfl⟩
    rw [honly info hinfo found hfound hci] at hstored ⊢
    exact .inr hstored

/-! ## Examples of runs -/

/-- A UPS with the version {lit}`UPS 09.3` of its firmware, the map id {lit}`00D`, and nothing
in its other registers. -/
def versionImage : Registers := fun addr =>
  if addr = 516 then 0x5550
  else if addr = 517 then 0x5320
  else if addr = 518 then 0x3039
  else if addr = 519 then 0x2E33
  else if addr = 2048 then 0x3030
  else if addr = 2049 then 0x4420
  else 0x2020

/-- All calls are answered but one. -/
def failingOnce (missing : ℕ) : RegisterPort := fun call addr nregs =>
  if call = missing then none else some (registerBytes versionImage addr nregs)

theorem failingOnce_readsFrom (missing : ℕ) : ReadsFrom (failingOnce missing) versionImage := by
  intro call addr nregs data hdata
  unfold failingOnce at hdata
  split_ifs at hdata
  exact (Option.some.inj hdata).symm

/-- The version and the map id are the only static items that the UPS has. -/
def firmwareCap (ci : Ci) : Bool :=
  ci == .revno || ci == .bupSelfTest

/-- The second read of the map id fails. -/
theorem readStaticData_kept_missingId :
    StaticKept versionImage (newUps (defaultConfig 0))
      (applyUpdates (storeItems ((newModbusUpsDriver 0).readStaticData (failingOnce 3)
        firmwareCap 3 0)) (newUps (defaultConfig 0))) := by
  refine (readStaticData_kept_iff (failingOnce_readsFrom 3) _ _ _ _ _).mpr ?_
  exact .inl (by decide +kernel)

/-- The third read of the version fails: the map id is there twice. -/
theorem readStaticData_twoIds :
    ReadsFrom (failingOnce 4) versionImage ∧
      (applyUpdates (storeItems ((newModbusUpsDriver 0).readStaticData (failingOnce 4)
        firmwareCap 3 0)) (newUps (defaultConfig 0))).firmrev =
          "UPS 09.3 / 00D / 00".toList ∧
      ¬ StaticKept versionImage (newUps (defaultConfig 0))
        (applyUpdates (storeItems ((newModbusUpsDriver 0).readStaticData (failingOnce 4)
          firmwareCap 3 0)) (newUps (defaultConfig 0))) := by
  have htext : (applyUpdates (storeItems ((newModbusUpsDriver 0).readStaticData (failingOnce 4)
      firmwareCap 3 0)) (newUps (defaultConfig 0))).firmrev = "UPS 09.3 / 00D / 00".toList := by
    decide +kernel
  refine ⟨failingOnce_readsFrom 4, htext, fun hkept => ?_⟩
  have hfirmrev := hkept.firmrev
  rw [htext] at hfirmrev
  revert hfirmrev
  decide +kernel

end Apcupsd
