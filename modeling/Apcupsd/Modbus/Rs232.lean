import Mathlib.Data.List.TakeWhile
import Apcupsd.Modbus.PromptLink

/-!
# MODBUS on a serial port

{lit}`ModbusRs232Comm` waits for silence before it writes a frame, and takes a pause
between two characters for the end of a received frame.

The port is given by its system calls.  A healthy line connects them to a slave that
answers each request it can parse; the clock moves only while the program waits.

Main results:

- Theorem {lit}`SerialLine.modbusRx_timed`: a frame whose characters flow is received
  whole.
- Theorem {lit}`SerialLine.promptLink`: a serial port with a prompt slave is a prompt
  link.
-/

namespace Apcupsd

/-! ## The system calls -/

/-- {lit}`MODBUS_RESPONSE_TIMEOUT_MS`. -/
def modbusResponseTimeoutMs : ℕ := 1000

/-- {lit}`MODBUS_INTERCHAR_TIMEOUT_MS`. -/
def modbusIntercharTimeoutMs : ℕ := 25

/-- {lit}`MODBUS_INTERFRAME_TIMEOUT_MS`. -/
def modbusInterframeTimeoutMs : ℕ := 500

/-- {lit}`MODBUS_IDLE_WAIT_TIMEOUT_MS`. -/
def modbusIdleWaitTimeoutMs : ℕ := 2000

/-- {lit}`MODBUS_MAX_FRAME_SZ`. -/
def modbusMaxFrameSz : ℕ := 256

/-- What {lit}`select` reports: a character, the timeout, an interruption
({lit}`EINTR` or {lit}`EAGAIN`), or a fatal error. -/
inductive Selected where
  | ready
  | timeout
  | interrupted
  | failed
  deriving DecidableEq, Repr

/-- The system calls on the port; {lit}`none` is a result of −1. -/
structure SerialPort (W : Type) where
  select : ℕ → W → Selected × W
  read : ℕ → W → Option (List UInt8) × W
  write : List UInt8 → W → Option ℕ × W
  gettimeofday : W → ℕ

namespace ModbusRs232Comm

variable {W : Type} (port : SerialPort W)

/-- {lit}`ModbusWaitIdle`, with the time at which it gives up. -/
def waitIdleLoop (exittime : ℕ) : ℕ → W → Option (Bool × W)
  | 0, _ => none
  | fuel + 1, w =>
      match port.select modbusInterframeTimeoutMs w with
      | (.timeout, w) => some (true, w)
      | (.failed, w) => some (false, w)
      | (.ready, w) =>
          let w := (port.read 1 w).2
          if exittime ≤ port.gettimeofday w then some (false, w)
          else waitIdleLoop exittime fuel w
      | (.interrupted, w) =>
          if exittime ≤ port.gettimeofday w then some (false, w)
          else waitIdleLoop exittime fuel w

def modbusWaitIdle (fuel : ℕ) (w : W) : Option (Bool × W) :=
  waitIdleLoop port (port.gettimeofday w + modbusIdleWaitTimeoutMs * 1000) fuel w

/-- {lit}`ModbusTx`. -/
def modbusTx (fuel : ℕ) (frm : List UInt8) (w : W) : Option (Bool × W) :=
  match modbusWaitIdle port fuel w with
  | none => none
  | some (false, w) => some (false, w)
  | some (true, w) =>
      match port.write frm w with
      | (none, w) => some (false, w)
      | (some written, w) => some (written == frm.length, w)

/-- The loop of {lit}`ModbusRx`, with the timeout in force and the characters received so
far. -/
def rxLoop : ℕ → ℕ → List UInt8 → W → Option (Option (List UInt8) × W)
  | 0, _, _, _ => none
  | fuel + 1, timeout, frm, w =>
      match port.select timeout w with
      | (.interrupted, w) => rxLoop fuel timeout frm w
      | (.failed, w) => some (none, w)
      | (.timeout, w) => some (if frm = [] then none else some frm, w)
      | (.ready, w) =>
          match port.read (modbusMaxFrameSz - frm.length) w with
          | (none, w) => some (none, w)
          | (some characters, w) =>
              if (frm ++ characters).length = modbusMaxFrameSz then
                some (some (frm ++ characters), w)
              else rxLoop fuel modbusIntercharTimeoutMs (frm ++ characters) w

/-- {lit}`ModbusRx`. -/
def modbusRx (fuel : ℕ) (w : W) : Option (Option (List UInt8) × W) :=
  rxLoop port fuel modbusResponseTimeoutMs [] w

/-- The serial port as a transport. -/
def transport (fuel : ℕ) : Transport W where
  modbusTx := modbusTx port fuel
  modbusRx := modbusRx port fuel
  gettimeofday := port.gettimeofday

end ModbusRs232Comm

/-! ## The healthy line -/

/-- A line between the program and a slave: the time, what is on its way to the program
with the time of its arrival, and what the slave has done. -/
structure Line (α : Type) where
  clock : ℕ
  arriving : List (ℕ × α)
  state : SlaveState

/-- A slave on a serial line: {lit}`offset k i` microseconds after the {lit}`k`-th request
the {lit}`i`-th character of its answer arrives. -/
structure SerialSlave extends Slave where
  offset : ℕ → ℕ → ℕ

/-- The answer starts within 100 ms, its characters follow each other before the
inter-character timeout, and it is complete within two seconds. -/
structure SerialSlave.Prompt (slave : SerialSlave) : Prop where
  first : ∀ k, slave.offset k 0 ≤ 100000
  mono : ∀ k i, slave.offset k i ≤ slave.offset k (i + 1)
  flow : ∀ k i, slave.offset k (i + 1) < slave.offset k i + 25000
  whole : ∀ k i, i < 256 → slave.offset k i ≤ 2000000

namespace SerialLine

/-- {lit}`select` waits for the next character. -/
def select (timeoutMs : ℕ) (line : Line UInt8) : Selected × Line UInt8 :=
  match line.arriving with
  | [] => (.timeout, { line with clock := line.clock + timeoutMs * 1000 })
  | (arrival, _) :: _ =>
      if arrival ≤ line.clock + timeoutMs * 1000 then
        (.ready, { line with clock := max line.clock arrival })
      else (.timeout, { line with clock := line.clock + timeoutMs * 1000 })

/-- {lit}`read` takes characters that have arrived. -/
def read (limit : ℕ) (line : Line UInt8) : Option (List UInt8) × Line UInt8 :=
  let taken := (line.arriving.takeWhile fun c => c.1 ≤ line.clock).take limit
  (some (taken.map Prod.snd), { line with arriving := line.arriving.drop taken.length })

/-- The characters of an answer to a request of the given time, from the {lit}`i`-th
on. -/
def timed (offset : ℕ → ℕ) (start : ℕ) : ℕ → List UInt8 → List (ℕ × UInt8)
  | _, [] => []
  | i, character :: rest => (start + offset i, character) :: timed offset start (i + 1) rest

/-- The slave answers a frame that is addressed to it and that it can parse. -/
def receiveFrame (slave : SerialSlave) (frm : List UInt8) : Option Request :=
  if 4 ≤ frm.length ∧ crcOk frm = true ∧ frm.getD 0 0 = slave.address then
    match Request.parse ((frm.take (frm.length - 2)).drop 1) with
    | some (request, []) => some request
    | _ => none
  else none

/-- {lit}`write` puts the frame on the line. -/
def write (slave : SerialSlave) (frm : List UInt8) (line : Line UInt8) :
    Option ℕ × Line UInt8 :=
  match receiveFrame slave frm with
  | none => (some frm.length, line)
  | some request =>
      let k := line.state.received
      let answer := sealFrame (slave.reply k request)
      (some frm.length,
        { line with
          arriving := line.arriving ++ timed (slave.offset k) line.clock 0 answer
          state := line.state.execute request })

/-- The system calls on a healthy line. -/
def port (slave : SerialSlave) : SerialPort (Line UInt8) where
  select := select
  read := read
  write := write slave
  gettimeofday := Line.clock

/-- A port whose reads come from the line, whatever its writes do. -/
structure ReadsLine (p : SerialPort (Line UInt8)) : Prop where
  select : p.select = select
  read : p.read = read
  gettimeofday : p.gettimeofday = Line.clock

theorem readsLine_port (slave : SerialSlave) : ReadsLine (port slave) := ⟨rfl, rfl, rfl⟩

/-! ## Characters that flow -/

/-- The first character arrives by the deadline and every other one within the
inter-character timeout after its predecessor. -/
def Flows : ℕ → List (ℕ × UInt8) → Prop
  | _, [] => True
  | deadline, (arrival, _) :: rest =>
      arrival ≤ deadline ∧ Flows (arrival + modbusIntercharTimeoutMs * 1000) rest

/-- What is left after taking the characters that have arrived still flows. -/
theorem flows_dropWhile {now deadline : ℕ} {characters : List (ℕ × UInt8)}
    (hflows : Flows deadline characters)
    (hdeadline : deadline ≤ now + modbusIntercharTimeoutMs * 1000) :
    Flows (now + modbusIntercharTimeoutMs * 1000)
      (characters.dropWhile fun c => c.1 ≤ now) := by
  induction characters generalizing deadline with
  | nil => trivial
  | cons head rest ih =>
      obtain ⟨arrival, character⟩ := head
      obtain ⟨harrival, hrest⟩ : arrival ≤ deadline ∧
        Flows (arrival + modbusIntercharTimeoutMs * 1000) rest := hflows
      by_cases hhere : arrival ≤ now
      · rw [List.dropWhile_cons_of_pos (by simpa using hhere)]
        exact ih hrest (Nat.add_le_add_right hhere _)
      · rw [List.dropWhile_cons_of_neg (by simpa using hhere)]
        exact ⟨Nat.le_trans harrival hdeadline, hrest⟩

theorem map_snd_timed (offset : ℕ → ℕ) (start i : ℕ) (answer : List UInt8) :
    (timed offset start i answer).map Prod.snd = answer := by
  induction answer generalizing i with
  | nil => rfl
  | cons character rest ih => simp [timed, ih]

theorem length_timed (offset : ℕ → ℕ) (start i : ℕ) (answer : List UInt8) :
    (timed offset start i answer).length = answer.length := by
  rw [← List.length_map, map_snd_timed]

theorem flows_timed {offset : ℕ → ℕ}
    (hflow : ∀ i, offset (i + 1) ≤ offset i + modbusIntercharTimeoutMs * 1000)
    {start i deadline : ℕ} (hdeadline : start + offset i ≤ deadline) (answer : List UInt8) :
    Flows deadline (timed offset start i answer) := by
  induction answer generalizing i deadline with
  | nil => trivial
  | cons character rest ih =>
      refine ⟨hdeadline, ih ?_⟩
      have hnext := hflow i
      omega

theorem timed_le {offset : ℕ → ℕ} (hwhole : ∀ i < modbusMaxFrameSz, offset i ≤ 2000000)
    {start i : ℕ} {answer : List UInt8} (hlength : i + answer.length ≤ modbusMaxFrameSz) :
    ∀ c ∈ timed offset start i answer, c.1 ≤ start + 2000000 := by
  induction answer generalizing i with
  | nil => exact nofun
  | cons character rest ih =>
      intro c hc
      simp only [List.length_cons] at hlength
      rcases List.mem_cons.mp hc with rfl | hrest
      · have hhere := hwhole i (by omega)
        dsimp only
        omega
      · exact ih (by omega) c hrest

/-! ## Receiving -/

theorem drop_length_takeWhile {α : Type*} (test : α → Bool) (l : List α) :
    l.drop (l.takeWhile test).length = l.dropWhile test := by
  induction l with
  | nil => rfl
  | cons head rest ih =>
      by_cases hhead : test head = true
      · simpa [hhead] using ih
      · simp [hhead]

theorem read_eq (limit : ℕ) (line : Line UInt8) (hlimit : line.arriving.length ≤ limit) :
    read limit line =
      (some ((line.arriving.takeWhile fun c => c.1 ≤ line.clock).map Prod.snd),
        { line with arriving := line.arriving.dropWhile fun c => c.1 ≤ line.clock }) := by
  have htake : (line.arriving.takeWhile fun c => c.1 ≤ line.clock).take limit =
      line.arriving.takeWhile fun c => c.1 ≤ line.clock := by
    apply List.take_of_length_le
    exact le_trans (List.takeWhile_sublist _).length_le hlimit
  simp only [read, htake, drop_length_takeWhile]

/-- A frame whose characters flow is received whole, and the loop ends one
inter-character timeout after the last of them. -/
theorem rxLoop_flows {p : SerialPort (Line UInt8)} (hp : ReadsLine p) {last : ℕ}
    {fuel timeoutMs : ℕ} {frm : List UInt8} {line : Line UInt8}
    (hflows : Flows (line.clock + timeoutMs * 1000) line.arriving)
    (hlast : ∀ c ∈ line.arriving, c.1 ≤ last) (hclock : line.clock ≤ last)
    (hlength : frm.length + line.arriving.length < modbusMaxFrameSz)
    (hfuel : line.arriving.length < fuel)
    (hfrm : frm = [] → line.arriving ≠ [])
    (htimeout : frm ≠ [] → timeoutMs = modbusIntercharTimeoutMs) :
    ∃ clock, ModbusRs232Comm.rxLoop p fuel timeoutMs frm line =
        some (some (frm ++ line.arriving.map Prod.snd),
          { line with clock := clock, arriving := [] }) ∧
      line.clock ≤ clock ∧ clock ≤ last + modbusIntercharTimeoutMs * 1000 := by
  induction fuel generalizing timeoutMs frm line with
  | zero => omega
  | succ fuel ih =>
      cases harriving : line.arriving with
      | nil =>
          have hframe : frm ≠ [] := fun hempty => hfrm hempty harriving
          obtain rfl := htimeout hframe
          refine ⟨line.clock + modbusIntercharTimeoutMs * 1000, ?_, Nat.le_add_right _ _,
            Nat.add_le_add_right hclock _⟩
          simp [ModbusRs232Comm.rxLoop, hp.select, select, harriving, hframe]
      | cons head rest =>
          obtain ⟨arrival, character⟩ := head
          obtain ⟨harrival, hrest⟩ : arrival ≤ line.clock + timeoutMs * 1000 ∧
              Flows (arrival + modbusIntercharTimeoutMs * 1000) rest := by
            rw [harriving] at hflows
            exact hflows
          -- the state of the line when select returns
          let ready : Line UInt8 := { line with clock := max line.clock arrival }
          have hselect : select timeoutMs line = (.ready, ready) := by
            simp [select, harriving, harrival, ready]
          have hroom : ready.arriving.length ≤ modbusMaxFrameSz - frm.length := by
            have hsame : ready.arriving = line.arriving := rfl
            rw [hsame]
            exact Nat.le_sub_of_add_le' (Nat.le_of_lt hlength)
          have hread := read_eq (modbusMaxFrameSz - frm.length) ready hroom
          -- what has arrived, and what is still on its way
          let here := ready.arriving.takeWhile fun c => c.1 ≤ ready.clock
          let later := ready.arriving.dropWhile fun c => c.1 ≤ ready.clock
          have hsplit : here ++ later = line.arriving := List.takeWhile_append_dropWhile
          have hhere : here ≠ [] := by
            simp [here, ready, harriving]
          have hpieces : here.length + later.length = line.arriving.length := by
            rw [← hsplit, List.length_append]
          have hpositive : 0 < here.length := List.length_pos_iff.mpr hhere
          have hnotfull : (frm ++ here.map Prod.snd).length ≠ modbusMaxFrameSz := by
            rw [List.length_append, List.length_map]
            omega
          have hready : line.clock ≤ ready.clock := le_max_left _ _
          have hreadyLast : ready.clock ≤ last :=
            max_le hclock (hlast (arrival, character) (by simp [harriving]))
          have hlater : Flows (ready.clock + modbusIntercharTimeoutMs * 1000) later := by
            have hrest' : later = rest.dropWhile fun c => c.1 ≤ ready.clock := by
              simp [later, ready, harriving]
            rw [hrest']
            exact flows_dropWhile hrest (Nat.add_le_add_right (le_max_right _ _) _)
          have hlaterLast : ∀ c ∈ later, c.1 ≤ last := by
            intro c hc
            exact hlast c (hsplit ▸ List.mem_append_right here hc)
          have hlaterLength : (frm ++ here.map Prod.snd).length + later.length <
              modbusMaxFrameSz := by
            rw [List.length_append, List.length_map]
            omega
          obtain ⟨clock, hloop, hafter, hbound⟩ :=
            @ih modbusIntercharTimeoutMs (frm ++ here.map Prod.snd)
              { ready with arriving := later } hlater hlaterLast hreadyLast hlaterLength
              (by dsimp only; omega) (by simp [hhere]) (fun _ => rfl)
          refine ⟨clock, ?_, le_trans hready hafter, hbound⟩
          have hstep : ModbusRs232Comm.rxLoop p (fuel + 1) timeoutMs frm line =
              ModbusRs232Comm.rxLoop p fuel modbusIntercharTimeoutMs
                (frm ++ here.map Prod.snd) { ready with arriving := later } := by
            rw [ModbusRs232Comm.rxLoop, hp.select, hp.read, hselect]
            dsimp only
            rw [hread]
            dsimp only
            rw [if_neg hnotfull]
          rw [hstep, hloop, ← harriving, ← hsplit, List.map_append, List.append_assoc]

/-! ## A prompt link -/

/-- Nothing is on its way to the program. -/
def Quiet (line : Line UInt8) (state : SlaveState) : Prop :=
  line.arriving = [] ∧ line.state = state

theorem receiveFrame_sealFrame (slave : SerialSlave) {request : Request}
    (hwell : request.WellFormed) (hsize : request.size ≤ 254) :
    receiveFrame slave (sealFrame (slave.address :: request.encode)) = some request := by
  have hparse := Request.parse_encode hwell hsize []
  rw [List.append_nil] at hparse
  have hlength : 4 ≤ (sealFrame (slave.address :: request.encode)).length := by
    simp [Request.encode]
  have hhead : (sealFrame (slave.address :: request.encode)).getD 0 0 = slave.address := rfl
  unfold receiveFrame
  rw [if_pos ⟨hlength, crcOk_sealFrame _, hhead⟩, take_sealFrame]
  simp [hparse]

/-- On a quiet line {lit}`ModbusWaitIdle` waits for the silence between two frames. -/
theorem modbusWaitIdle_quiet {p : SerialPort (Line UInt8)} (hp : ReadsLine p)
    {line : Line UInt8} (harriving : line.arriving = []) {fuel : ℕ} (hfuel : 1 ≤ fuel) :
    ModbusRs232Comm.modbusWaitIdle p fuel line =
      some (true, { line with clock := line.clock + modbusInterframeTimeoutMs * 1000 }) := by
  obtain ⟨fuel, rfl⟩ : ∃ m, fuel = m + 1 := ⟨fuel - 1, by omega⟩
  simp [ModbusRs232Comm.modbusWaitIdle, ModbusRs232Comm.waitIdleLoop, hp.select, select,
    harriving]

/-- On a quiet line {lit}`ModbusTx` sends after that silence. -/
theorem modbusTx_quiet (slave : SerialSlave) {request : Request} {line : Line UInt8}
    {state : SlaveState} (hquiet : Quiet line state) (hwell : request.WellFormed)
    (hsize : request.size ≤ 254) {fuel : ℕ} (hfuel : 1 ≤ fuel) :
    ModbusRs232Comm.modbusTx (port slave) fuel
        (sealFrame (slave.address :: request.encode)) line =
      some (true,
        { clock := line.clock + modbusInterframeTimeoutMs * 1000
          arriving := timed (slave.offset state.received)
            (line.clock + modbusInterframeTimeoutMs * 1000) 0
            (sealFrame (slave.reply state.received request))
          state := state.execute request }) := by
  rcases hquiet with ⟨harriving, rfl⟩
  have hwrite := receiveFrame_sealFrame slave hwell hsize
  unfold ModbusRs232Comm.modbusTx
  rw [modbusWaitIdle_quiet (readsLine_port slave) harriving hfuel]
  simp [port, write, hwrite, harriving]

/-- A frame that arrives in time is received whole. -/
theorem modbusRx_timed {p : SerialPort (Line UInt8)} (hp : ReadsLine p) {offset : ℕ → ℕ}
    (hfirst : offset 0 ≤ modbusResponseTimeoutMs * 1000)
    (hflow : ∀ i, offset (i + 1) ≤ offset i + modbusIntercharTimeoutMs * 1000)
    (hwhole : ∀ i < modbusMaxFrameSz, offset i ≤ 2000000) {line : Line UInt8} {start : ℕ}
    {frame : List UInt8} (hframe : frame ≠ []) (hlength : frame.length < modbusMaxFrameSz)
    (harriving : line.arriving = timed offset start 0 frame) (hclock : line.clock = start)
    {fuel : ℕ} (hfuel : modbusMaxFrameSz ≤ fuel) :
    ∃ clock, ModbusRs232Comm.modbusRx p fuel line =
        some (some frame, { line with clock := clock, arriving := [] }) ∧
      clock ≤ start + 2025 * 1000 := by
  have hcount : line.arriving.length = frame.length := by rw [harriving, length_timed]
  have hflows : Flows (line.clock + modbusResponseTimeoutMs * 1000) line.arriving := by
    rw [harriving]
    exact flows_timed hflow (by omega) frame
  have hlast : ∀ c ∈ line.arriving, c.1 ≤ start + 2000000 := by
    rw [harriving]
    exact timed_le hwhole (by omega)
  have hroom : ([] : List UInt8).length + line.arriving.length < modbusMaxFrameSz := by
    simpa [hcount] using hlength
  have hnonempty : line.arriving ≠ [] := by
    intro hempty
    rw [hempty] at hcount
    exact hframe (List.length_eq_zero_iff.mp hcount.symm)
  have henough : line.arriving.length < fuel := by omega
  obtain ⟨clock, hloop, _, hbound⟩ := rxLoop_flows hp hflows hlast (by omega) hroom henough
    (fun _ => hnonempty) (fun hne => absurd rfl hne)
  refine ⟨clock, ?_, by simpa [modbusIntercharTimeoutMs, Nat.add_assoc] using hbound⟩
  unfold ModbusRs232Comm.modbusRx
  rw [hloop, harriving, map_snd_timed, List.nil_append]

/-- On a quiet line {lit}`ModbusRx` times out. -/
theorem modbusRx_quiet {p : SerialPort (Line UInt8)} (hp : ReadsLine p) {line : Line UInt8}
    (harriving : line.arriving = []) {fuel : ℕ} (hfuel : 1 ≤ fuel) :
    ModbusRs232Comm.modbusRx p fuel line =
      some (none, { line with clock := line.clock + modbusResponseTimeoutMs * 1000 }) := by
  obtain ⟨fuel, rfl⟩ : ∃ m, fuel = m + 1 := ⟨fuel - 1, by omega⟩
  simp [ModbusRs232Comm.modbusRx, ModbusRs232Comm.rxLoop, hp.select, select, harriving]

/-- A serial port with a prompt slave at the other end is a prompt link. -/
theorem promptLink {slave : SerialSlave} (hprompt : slave.Prompt) {fuel : ℕ}
    (hfuel : modbusMaxFrameSz ≤ fuel) :
    PromptLink (ModbusRs232Comm.transport (port slave) fuel) slave.toSlave 254 Quiet := by
  have hone : 1 ≤ fuel := le_trans (by decide) hfuel
  refine ⟨?_, ?_⟩
  · intro line state request hquiet hwell hsize
    have htx := modbusTx_quiet slave hquiet hwell hsize hone
    have hlength : (sealFrame (slave.reply state.received request)).length <
        modbusMaxFrameSz := by
      rw [length_sealFrame, slave.length_reply]
      cases request with
      | read reg nregs =>
          simp only [Request.size, Request.rxsz, modbusMaxFrameSz] at hsize ⊢
          omega
      | write reg nregs data => simp [Request.rxsz, modbusMaxFrameSz]
    let sent : Line UInt8 :=
      { clock := line.clock + modbusInterframeTimeoutMs * 1000
        arriving := timed (slave.offset state.received)
          (line.clock + modbusInterframeTimeoutMs * 1000) 0
          (sealFrame (slave.reply state.received request))
        state := state.execute request }
    have hfirst : slave.offset state.received 0 ≤ modbusResponseTimeoutMs * 1000 :=
      (hprompt.first state.received).trans (by decide)
    obtain ⟨clock, hrx, hbound⟩ := @modbusRx_timed _ (readsLine_port slave) _ hfirst
      (fun i => (hprompt.flow state.received i).le) (hprompt.whole state.received) sent
      sent.clock _ (by simp [Slave.reply, sealFrame]) hlength rfl rfl fuel hfuel
    refine ⟨sent, _, htx, hrx, ?_, rfl, rfl⟩
    exact le_trans (tvDiffMs_le hbound) (by decide)
  · intro line state hquiet
    exact ⟨_, modbusRx_quiet (readsLine_port slave) hquiet.1 hone, hquiet.1, hquiet.2⟩

end SerialLine

end Apcupsd
