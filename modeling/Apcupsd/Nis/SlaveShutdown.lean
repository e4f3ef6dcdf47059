import Apcupsd.Core.TextNumbers
import Apcupsd.Core.CoreRun
import Apcupsd.Foundations.Execution
import Apcupsd.Nis.GetUpsVar

/-!
# A slave that has lost its master

{lit}`NetUpsDriver::get_ups_status_flag` from {lit}`drivers/net/net.c`, with
{lit}`fill_status_buffer` and {lit}`read_volatile_data` around it.  While the slave runs on
battery, calls that fail are counted, and at some count the slave shuts down.

Main results:

- Theorem {lit}`countLoss_spec`: the flag is raised by the fifth call that fails.
- Theorem {lit}`Inv.step`: the count is the number of failing calls in a row, and the state
  that a call uses is the one that the last successful poll has told.
- Theorem {lit}`slaveShutdown_right`: a run in which no fourth call fails, no broken reply
  leaves a status behind, and the first call has a status to take is right throughout.
-/

namespace Apcupsd
namespace NetSlave

open BitFlags CStrings

/-! ## What a poll tells -/

/-- {lit}`strtol(text, NULL, 0)`. -/
def strtol (text : List Char) : Int :=
  let (negative, body) := splitSign (skipSpace text)
  let n : ℕ :=
    if dropHexPrefix body ≠ body then ofDigits 16 ((dropHexPrefix body).takeWhile isxdigit)
    else if body.head? = some '0' then
      ofDigits 8 (body.takeWhile fun c => '0' ≤ c && c ≤ '7')
    else ofDigits 10 (body.takeWhile Char.isDigit)
  max (-2 ^ 63) (min (2 ^ 63 - 1) (if negative then -n else n))

example : strtol "0x05000010".toList = 0x05000010 := by decide +kernel

/-- {lit}`getupsvar("status")`, as an {lit}`int32_t`; a single field is read from the text
alone. -/
def statusFlag (text : List Char) : Option StatusWord :=
  let (found, answer) := getupsvar ⟨text, []⟩ "status" [] 200
  if found then some (BitVec.ofInt 32 (strtol answer)) else none

/-- What {lit}`poll_ups` meets: the results of {lit}`net_open` and {lit}`net_send`, the
messages, and the last result of {lit}`net_recv`. -/
structure Poll where
  connected : Bool
  sent : Int
  messages : List (List UInt8)
  n : Int
deriving DecidableEq

namespace Poll

def ok (poll : Poll) : Bool :=
  poll.connected && poll.sent == 6 && 0 ≤ poll.n

/-- What is in the buffer after the poll. -/
def text (poll : Poll) : List Char :=
  if poll.connected && poll.sent == 6 then collectStatus poll.messages else []

/-- The status that a successful poll tells. -/
def told (poll : Poll) : Option StatusWord :=
  if poll.ok then statusFlag poll.text else none

/-- A poll that fails leaves no status behind. -/
def Clean (poll : Poll) : Prop :=
  poll.ok = false → statusFlag poll.text = none

instance (poll : Poll) : Decidable poll.Clean :=
  inferInstanceAs (Decidable (_ → _))

end Poll

/-! ## The driver -/

/-- The fields of the driver that decide about a status, and every poll so far, the newest
one first. -/
structure NetUpsDriver extends NetUps where
  gotCaps : Bool
  gotStaticData : Bool
  lastFillTime : Int
  commErr : Bool
  commLoss : ℕ
  polled : List Poll

/-- What the polls of {lit}`fill_status_buffer` meet, in the order of the code. -/
structure FillPolls where
  status : Poll
  caps : Poll
  staticData : Poll

/-- What the polls of {lit}`get_ups_status_flag` meet. -/
structure CallPolls where
  caps : Poll
  staticData : Poll
  fill : FillPolls

namespace NetUpsDriver

/-- {lit}`poll_ups`. -/
def poll (poll : Poll) (net : NetUpsDriver) : Bool × NetUpsDriver :=
  let (ok, after) := pollUps poll.connected poll.sent poll.messages poll.n net.toNetUps
  (ok, { net with toNetUps := after, polled := poll :: net.polled })

/-- {lit}`get_capabilities`. -/
def getCapabilities (caps : Poll) (net : NetUpsDriver) : NetUpsDriver :=
  let (ok, net) := net.poll caps
  { net with gotCaps := ok }

/-- {lit}`read_static_data`. -/
def readStaticData (staticData : Poll) (net : NetUpsDriver) : NetUpsDriver :=
  let (ok, net) := net.poll staticData
  { net with gotStaticData := ok }

/-- What {lit}`fill_status_buffer` reads behind a successful poll. -/
def readMissing (caps staticData : Poll) (net : NetUpsDriver) : NetUpsDriver :=
  let net := if net.gotCaps then net else net.getCapabilities caps
  if net.gotCaps && !net.gotStaticData then net.readStaticData staticData else net

/-- {lit}`fill_status_buffer`. -/
def fillStatusBuffer (now : Int) (polls : FillPolls) (net : NetUpsDriver) :
    Bool × NetUpsDriver :=
  if now - net.lastFillTime < 2 then (true, net)
  else
    match net.poll polls.status with
    | (false, net) => (false, { net with commErr := true })
    | (true, net) =>
        let net := { net with commErr := false, lastFillTime := now }
        let net := net.readMissing polls.caps polls.staticData
        (!net.commErr, net)

/-- {lit}`get_ups_status_flag` before it takes the lock: {lit}`stat`, if it gets so far. -/
def prepare (fill : Bool) (now : Int) (polls : CallPolls) (net : NetUpsDriver) :
    Option Bool × NetUpsDriver :=
  let net := if net.gotCaps then net else net.getCapabilities polls.caps
  if !net.gotCaps then (none, net)
  else
    let net := if net.gotStaticData then net else net.readStaticData polls.staticData
    if !net.gotStaticData then (none, net)
    else if fill then
      let (stat, net) := net.fillStatusBuffer now polls.fill
      (some stat, net)
    else (some true, net)

/-- The status of the master replaces all bits that are not local; {lit}`commlost` and
{lit}`fastpoll` are only set. -/
def takeStatus (stat : Bool) (net : NetUpsDriver) : Bool × NetUpsDriver :=
  match statusFlag net.statbuf with
  | none => (false, net)
  | some master =>
      let status := ((net.ups.status &&& upsLocalBits) ||| (master &&& ~~~upsLocalBits)) |||
        (master &&& (upsCommlost ||| upsFastpoll))
      let ups : UpsInfo := { net.ups with status := status }
      -- if the master is shutting down, so does the slave
      let ups :=
        if master &&& upsShutdown ≠ 0 ∧ ¬ ups.isShutRemote then ups.set upsShutRemote else ups
      (stat, { net with ups := ups })

/-- The count of the calls that fail on battery, and the shutdown. -/
def countLoss (stat : Bool) (net : NetUpsDriver) : NetUpsDriver :=
  if !stat && net.ups.isOnbatt then
    { net with
      ups :=
        if net.commLoss = 4 ∧ ¬ net.ups.isShutRemote then net.ups.set upsShutRemote else net.ups
      commLoss := net.commLoss + 1 }
  else { net with commLoss := 0 }

/-- {lit}`get_ups_status_flag`. -/
def getUpsStatusFlag (fill : Bool) (now : Int) (polls : CallPolls) (net : NetUpsDriver) :
    Bool × NetUpsDriver :=
  match net.prepare fill now polls with
  | (none, net) => (false, net)
  | (some stat, net) =>
      let (stat, net) := net.takeStatus stat
      (stat, net.countLoss stat)

/-- The flag when the count is looked at, or at an early return. -/
def remoteBefore (fill : Bool) (now : Int) (polls : CallPolls) (net : NetUpsDriver) : Bool :=
  match net.prepare fill now polls with
  | (none, net) => net.ups.isShutRemote
  | (some stat, net) => (net.takeStatus stat).2.ups.isShutRemote

end NetUpsDriver

/-! ## Runs -/

/-- A call of {lit}`get_ups_status_flag`, as it is seen from outside: its result, whether it
gets past the capabilities and the static data, the state that it uses, the state that the
last successful poll has told, and the flag before and after the count. -/
structure StatusCall where
  stat : Bool
  reached : Bool
  onbatt : Bool
  told : Bool
  remote : Bool
  remoteAfter : Bool
deriving DecidableEq

/-- The on-battery state of the last successful poll. -/
def lastTold (polled : List Poll) : Bool :=
  ((polled.findSome? Poll.told).map fun master => testMask master upsOnbatt).getD false

def StatusCall.failsOnBattery (call : StatusCall) : Bool :=
  !call.stat && call.onbatt

/-- The number of calls in a row, up to the newest one, that have failed on battery. -/
def failingCalls (calls : List StatusCall) : ℕ :=
  (calls.takeWhile StatusCall.failsOnBattery).length

/-- The slave, and the calls so far, the newest one first. -/
structure Slave where
  net : NetUpsDriver
  calls : List StatusCall

inductive SlaveLabel where
  | getUpsStatusFlag (fill : Bool) (now : Int) (polls : CallPolls)
  | readVolatileData (now : Int) (fill : FillPolls) (polls : CallPolls)
  | core (ups : UpsInfo)

namespace Slave

def call (fill : Bool) (now : Int) (polls : CallPolls) (slave : Slave) : Slave :=
  let (stat, net) := slave.net.getUpsStatusFlag fill now polls
  { net := net
    calls :=
      { stat := stat
        reached := (slave.net.prepare fill now polls).1.isSome
        onbatt := net.ups.isOnbatt
        told := lastTold net.polled
        remote := slave.net.remoteBefore fill now polls
        remoteAfter := net.ups.isShutRemote } :: slave.calls }

/-- {lit}`fill_status_buffer` at the beginning of {lit}`read_volatile_data`, which marks the
slave as one if it goes on. -/
def filled (now : Int) (fill : FillPolls) (slave : Slave) : Bool × Slave :=
  match slave.net.fillStatusBuffer now fill with
  | (false, net) => (false, { slave with net := net })
  | (true, net) => (true, { slave with net := { net with ups := net.ups.set upsSlave } })

/-- The core writes the record between two calls, but neither the on-battery state nor the
flag. -/
def step (slave : Slave) : SlaveLabel → Option Slave
  | .getUpsStatusFlag fill now polls => some (slave.call fill now polls)
  | .readVolatileData now fill polls =>
      match slave.filled now fill with
      | (false, after) => some after
      | (true, after) => some (after.call false now polls)
  | .core ups =>
      if ups.isOnbatt = slave.net.ups.isOnbatt ∧
          ups.isShutRemote = slave.net.ups.isShutRemote then
        some { slave with net := { slave.net with ups := ups } }
      else none

/-- A new record and the driver when the device has been opened: the constructor, then
{lit}`get_capabilities` and {lit}`read_static_data`. -/
def start (config : UpsConfig) (caps staticData : Poll) : Slave where
  net :=
    (NetUpsDriver.getCapabilities caps
      { ups := newUps config, statbuf := [], statlen := 0, gotCaps := false, gotStaticData := false,
        lastFillTime := 0, commErr := false, commLoss := 0, polled := [] }).readStaticData
      staticData
  calls := []

end Slave

/-- The flag is raised at the fourth failing call in a row, at no other one, and the state
that a call uses is that of the last successful poll. -/
def CallRight (call : StatusCall) (earlier : List StatusCall) : Prop :=
  call.remoteAfter = (call.remote || decide (failingCalls (call :: earlier) = 4)) ∧
    (call.reached = true → call.onbatt = call.told)

def CallsRight : List StatusCall → Prop
  | [] => True
  | call :: earlier => CallRight call earlier ∧ CallsRight earlier

/-! ## What polls leave alone -/

/-- What only a call that gets to the status writes. -/
structure Frame (net after : NetUpsDriver) : Prop where
  onbatt : after.ups.isOnbatt = net.ups.isOnbatt
  remote : after.ups.isShutRemote = net.ups.isShutRemote
  commLoss : after.commLoss = net.commLoss

namespace Frame

variable {net middle after : NetUpsDriver}

theorem refl (net : NetUpsDriver) : Frame net net :=
  ⟨rfl, rfl, rfl⟩

theorem trans (hfirst : Frame net middle) (hsecond : Frame middle after) : Frame net after :=
  ⟨hsecond.onbatt.trans hfirst.onbatt, hsecond.remote.trans hfirst.remote,
    hsecond.commLoss.trans hfirst.commLoss⟩

end Frame

namespace NetUpsDriver

variable (net : NetUpsDriver)

@[simp]
theorem poll_ok (poll : Poll) : (net.poll poll).1 = poll.ok := by
  rcases poll with ⟨_ | _, sent, messages, n⟩
  · rfl
  · by_cases hsent : sent = 6 <;> simp [NetUpsDriver.poll, pollUps, Poll.ok, hsent]

@[simp]
theorem poll_statbuf (poll : Poll) : (net.poll poll).2.statbuf = poll.text := by
  rcases poll with ⟨_ | _, sent, messages, n⟩
  · by_cases hlost : net.ups.isCommlost <;>
      simp [NetUpsDriver.poll, pollUps, Poll.text, hlost]
  · by_cases hsent : sent = 6 <;> simp [NetUpsDriver.poll, pollUps, Poll.text, hsent]

/-- A poll writes only {lit}`commlost`. -/
theorem poll_ups (poll : Poll) :
    (net.poll poll).2.ups = net.ups ∨ (net.poll poll).2.ups = net.ups.setCommlost ∨
      (net.poll poll).2.ups = net.ups.clearCommlost := by
  rcases poll with ⟨_ | _, sent, messages, n⟩
  · by_cases hlost : net.ups.isCommlost <;> simp [NetUpsDriver.poll, pollUps, hlost]
  · by_cases hsent : sent = 6
    · by_cases hn : n < 0 <;> simp [NetUpsDriver.poll, pollUps, hsent, hn]
    · simp [NetUpsDriver.poll, pollUps, hsent]

theorem frame_poll (poll : Poll) : Frame net (net.poll poll).2 := by
  have hcommLoss : (net.poll poll).2.commLoss = net.commLoss := rfl
  rcases net.poll_ups poll with heq | heq | heq
  · exact ⟨by rw [heq], by rw [heq], hcommLoss⟩
  · refine ⟨?_, ?_, hcommLoss⟩
    · rw [heq]
      exact testMask_raiseMask_of_disjoint (by decide) _
    · rw [heq]
      exact testMask_raiseMask_of_disjoint (by decide) _
  · refine ⟨?_, ?_, hcommLoss⟩
    · rw [heq]
      exact testMask_dropMask_of_disjoint (by decide) _
    · rw [heq]
      exact testMask_dropMask_of_disjoint (by decide) _

theorem frame_getCapabilities (caps : Poll) : Frame net (net.getCapabilities caps) :=
  ⟨(net.frame_poll caps).onbatt, (net.frame_poll caps).remote, (net.frame_poll caps).commLoss⟩

theorem frame_readStaticData (staticData : Poll) :
    Frame net (net.readStaticData staticData) :=
  ⟨(net.frame_poll staticData).onbatt, (net.frame_poll staticData).remote,
    (net.frame_poll staticData).commLoss⟩

@[simp]
theorem getCapabilities_gotCaps (caps : Poll) : (net.getCapabilities caps).gotCaps = caps.ok :=
  net.poll_ok caps

@[simp]
theorem getCapabilities_gotStaticData (caps : Poll) :
    (net.getCapabilities caps).gotStaticData = net.gotStaticData := rfl

@[simp]
theorem readStaticData_gotCaps (staticData : Poll) :
    (net.readStaticData staticData).gotCaps = net.gotCaps := rfl

@[simp]
theorem readStaticData_gotStaticData (staticData : Poll) :
    (net.readStaticData staticData).gotStaticData = staticData.ok :=
  net.poll_ok staticData

/-- A status in the buffer is that of the last successful poll. -/
def Told : Prop :=
  ∀ master, statusFlag net.statbuf = some master → net.polled.findSome? Poll.told = some master

end NetUpsDriver

/-- The last poll was successful, and its reply is still in the buffer. -/
theorem told_of_ok {net : NetUpsDriver} {poll : Poll} {earlier : List Poll} (hok : poll.ok = true)
    (htext : net.statbuf = poll.text) (hpolled : net.polled = poll :: earlier) : net.Told := by
  intro master hmaster
  rw [htext] at hmaster
  rw [hpolled, List.findSome?_cons, Poll.told, if_pos hok, hmaster]

/-- A poll that tells no status does not count. -/
theorem lastTold_cons {poll : Poll} (htold : poll.told = none) (earlier : List Poll) :
    lastTold (poll :: earlier) = lastTold earlier := by
  rw [lastTold, List.findSome?_cons, htold, lastTold]

/-! ## Before the lock -/

section Before

variable {net : NetUpsDriver}

/-- What is read behind a successful poll leaves the reply of a successful poll, if nothing is
missing then. -/
theorem readMissing_spec (htold : net.Told) (caps staticData : Poll) :
    Frame net (net.readMissing caps staticData) ∧
      (net.readMissing caps staticData).commErr = net.commErr ∧
      ((net.readMissing caps staticData).gotCaps = true →
        (net.readMissing caps staticData).gotStaticData = true →
          (net.readMissing caps staticData).Told) ∧
      (net.gotCaps = true → net.gotStaticData = true → net.readMissing caps staticData = net) := by
  have hlast (before : NetUpsDriver)
      (hgot : (before.readStaticData staticData).gotStaticData = true) :
      (before.readStaticData staticData).Told :=
    told_of_ok ((before.readStaticData_gotStaticData staticData).symm.trans hgot)
      (before.poll_statbuf staticData) rfl
  unfold NetUpsDriver.readMissing
  by_cases hcaps : net.gotCaps = true
  · by_cases hstatic : net.gotStaticData = true
    · simp [hcaps, hstatic, Frame.refl, htold]
    · simp only [hcaps, hstatic, if_true, Bool.not_false, Bool.and_true]
      exact ⟨net.frame_readStaticData staticData, rfl, fun _ => hlast net,
        fun _ h => absurd h (by simp)⟩
  · have hframe := net.frame_getCapabilities caps
    simp only [hcaps, if_false, Bool.false_eq_true, false_implies, and_true,
      net.getCapabilities_gotCaps, net.getCapabilities_gotStaticData]
    by_cases hmore : (caps.ok && !net.gotStaticData) = true
    · rw [if_pos hmore]
      exact ⟨hframe.trans (NetUpsDriver.frame_readStaticData _ staticData), rfl,
        fun _ => hlast (net.getCapabilities caps)⟩
    · rw [if_neg hmore]
      refine ⟨hframe, rfl, fun hok _ => ?_⟩
      rw [net.getCapabilities_gotCaps] at hok
      exact told_of_ok hok (net.poll_statbuf caps) rfl

/-- The polls behind a successful one read what is still missing. -/
structure Filled (net after : NetUpsDriver) (poll : Poll) : Prop where
  frame : Frame net after
  told : after.gotCaps = true → after.gotStaticData = true → after.Told
  same : net.gotCaps = true → net.gotStaticData = true →
    after.gotCaps = true ∧ after.gotStaticData = true ∧ after.statbuf = poll.text ∧
      after.polled = poll :: net.polled

theorem fillStatusBuffer_cases (now : Int) (polls : FillPolls) (net : NetUpsDriver) :
    net.fillStatusBuffer now polls = (true, net) ∨
      (polls.status.ok = false ∧ net.fillStatusBuffer now polls =
        (false, { (net.poll polls.status).2 with commErr := true })) ∨
      (polls.status.ok = true ∧ ∃ after, net.fillStatusBuffer now polls = (true, after) ∧
        Filled net after polls.status) := by
  unfold NetUpsDriver.fillStatusBuffer
  by_cases hrecent : now - net.lastFillTime < 2
  · left
    rw [if_pos hrecent]
  · right
    rw [if_neg hrecent]
    have hpoll := net.poll_ok polls.status
    have hframe := net.frame_poll polls.status
    have htext := net.poll_statbuf polls.status
    have hpolled : (net.poll polls.status).2.polled = polls.status :: net.polled := rfl
    have hcaps : (net.poll polls.status).2.gotCaps = net.gotCaps := rfl
    have hstatic : (net.poll polls.status).2.gotStaticData = net.gotStaticData := rfl
    rcases hrun : net.poll polls.status with ⟨_ | _, polled⟩
    · left
      rw [hrun] at hpoll
      exact ⟨hpoll.symm, rfl⟩
    · right
      rw [hrun] at hpoll hframe htext hpolled hcaps hstatic
      refine ⟨hpoll.symm, ?_⟩
      dsimp only at htext hpolled hcaps hstatic hframe ⊢
      have htold : NetUpsDriver.Told { polled with commErr := false, lastFillTime := now } :=
        told_of_ok hpoll.symm htext hpolled
      rcases readMissing_spec htold polls.caps polls.staticData with
        ⟨hmissing, herr, hlast, hsame⟩
      rw [herr]
      refine ⟨_, rfl, ⟨?_, hlast, fun hgot hgot' => ?_⟩⟩
      · exact hframe.trans ⟨hmissing.onbatt, hmissing.remote, hmissing.commLoss⟩
      · rw [hsame (hcaps.trans hgot) (hstatic.trans hgot')]
        exact ⟨hcaps.trans hgot, hstatic.trans hgot', htext, hpolled⟩

/-- What a call that gets to the status has found. -/
structure Ready (net after : NetUpsDriver) (stat : Bool) : Prop where
  frame : Frame net after
  gotCaps : after.gotCaps = true
  gotStaticData : after.gotStaticData = true
  told : after.Told
  failed : stat = false → statusFlag after.statbuf = none
  same : net.gotCaps = true → net.gotStaticData = true → statusFlag after.statbuf = none →
    lastTold after.polled = lastTold net.polled

/-- The buffer is filled when nothing is missing. -/
theorem fillStatusBuffer_ready {now : Int} {polls : FillPolls} (hclean : polls.status.Clean)
    (hcaps : net.gotCaps = true) (hstatic : net.gotStaticData = true) (htold : net.Told) :
    Ready net (net.fillStatusBuffer now polls).2 (net.fillStatusBuffer now polls).1 := by
  rcases fillStatusBuffer_cases now polls net with
    hrun | ⟨hok, hrun⟩ | ⟨hok, after, hrun, hfilled⟩
  · rw [hrun]
    exact ⟨.refl net, hcaps, hstatic, htold, fun h => absurd h (by simp), fun _ _ _ => rfl⟩
  · rw [hrun]
    have hframe := net.frame_poll polls.status
    have hnone : statusFlag (net.poll polls.status).2.statbuf = none := by
      rw [net.poll_statbuf]
      exact hclean hok
    refine ⟨⟨hframe.onbatt, hframe.remote, hframe.commLoss⟩, hcaps, hstatic, ?_, fun _ => hnone,
      fun _ _ _ => ?_⟩
    · intro master hmaster
      rw [hnone] at hmaster
      cases hmaster
    · exact lastTold_cons (by rw [Poll.told, hok, if_neg Bool.false_ne_true]) net.polled
  · rw [hrun]
    rcases hfilled.same hcaps hstatic with ⟨hcaps', hstatic', htext, hpolled⟩
    refine ⟨hfilled.frame, hcaps', hstatic', hfilled.told hcaps' hstatic',
      fun h => absurd h (by simp), fun _ _ hnone => ?_⟩
    dsimp only at hnone ⊢
    rw [hpolled]
    refine lastTold_cons ?_ net.polled
    rw [Poll.told, if_pos hok, ← htext, hnone]

theorem Ready.of_frame {middle after : NetUpsDriver} {stat : Bool} (hframe : Frame net middle)
    (hsame : net.gotCaps = true → net.gotStaticData = true → middle = net)
    (hready : Ready middle after stat) : Ready net after stat := by
  refine ⟨hframe.trans hready.frame, hready.gotCaps, hready.gotStaticData, hready.told,
    hready.failed, fun hcaps hstatic hnone => ?_⟩
  obtain rfl := hsame hcaps hstatic
  exact hready.same hcaps hstatic hnone

section Prepare

variable {fill : Bool} {now : Int} {polls : CallPolls}

theorem prepare_of_got (hcaps : net.gotCaps = true) (hstatic : net.gotStaticData = true) :
    net.prepare fill now polls =
      if fill then
        (some (net.fillStatusBuffer now polls.fill).1, (net.fillStatusBuffer now polls.fill).2)
      else (some true, net) := by
  simp [NetUpsDriver.prepare, hcaps, hstatic]

/-- A call that still needs the static data goes on with them. -/
theorem prepare_of_no_staticData (hcaps : net.gotCaps = true)
    (hstatic : net.gotStaticData = false) :
    net.prepare fill now polls =
      if polls.staticData.ok then (net.readStaticData polls.staticData).prepare fill now polls
      else (none, net.readStaticData polls.staticData) := by
  by_cases hok : polls.staticData.ok = true <;> simp [NetUpsDriver.prepare, hcaps, hstatic, hok]

/-- A call that still needs the capabilities goes on with them. -/
theorem prepare_of_no_caps (hcaps : net.gotCaps = false) :
    net.prepare fill now polls =
      if polls.caps.ok then (net.getCapabilities polls.caps).prepare fill now polls
      else (none, net.getCapabilities polls.caps) := by
  by_cases hok : polls.caps.ok = true <;> simp [NetUpsDriver.prepare, hcaps, hok]

/-- What a call has done when it gets to the status, or when it returns before. -/
def Prepared (net : NetUpsDriver) (result : Option Bool × NetUpsDriver) : Prop :=
  (result.1 = none ∧ Frame net result.2 ∧
      (net.gotCaps = true → net.gotStaticData ≠ true) ∧
      (result.2.gotCaps = true → result.2.gotStaticData ≠ true)) ∨
    ∃ stat, result.1 = some stat ∧ Ready net result.2 stat

/-- A call with the capabilities and the static data gets to the status. -/
theorem prepared_of_got (hclean : fill = true → polls.fill.status.Clean)
    (hcaps : net.gotCaps = true) (hstatic : net.gotStaticData = true) (htold : net.Told) :
    ∃ stat, (net.prepare fill now polls).1 = some stat ∧
      Ready net (net.prepare fill now polls).2 stat := by
  rw [prepare_of_got hcaps hstatic]
  cases fill with
  | true => exact ⟨_, rfl, fillStatusBuffer_ready (hclean rfl) hcaps hstatic htold⟩
  | false =>
      exact ⟨true, rfl, .refl net, hcaps, hstatic, htold, fun h => absurd h (by simp),
        fun _ _ _ => rfl⟩

theorem prepared_of_caps (hclean : fill = true → polls.fill.status.Clean)
    (hcaps : net.gotCaps = true) (htold : net.gotStaticData = true → net.Told) :
    Prepared net (net.prepare fill now polls) := by
  have hframe := net.frame_readStaticData polls.staticData
  by_cases hstatic : net.gotStaticData = true
  · exact Or.inr (prepared_of_got hclean hcaps hstatic (htold hstatic))
  · have hmissing : net.gotCaps = true → net.gotStaticData ≠ true := fun _ => hstatic
    rw [prepare_of_no_staticData hcaps (Bool.eq_false_iff.mpr hstatic)]
    by_cases hok : polls.staticData.ok = true
    · rw [if_pos hok]
      right
      have hgot := (net.readStaticData_gotStaticData polls.staticData).trans hok
      have hcaps' : (net.readStaticData polls.staticData).gotCaps = true := hcaps
      rcases prepared_of_got hclean hcaps' hgot
        (told_of_ok hok (net.poll_statbuf polls.staticData) rfl) with ⟨stat, hstat, hready⟩
      exact ⟨stat, hstat, hready.of_frame hframe fun hcaps h => absurd h (hmissing hcaps)⟩
    · rw [if_neg hok]
      left
      refine ⟨rfl, hframe, hmissing, fun _ => ?_⟩
      dsimp only
      rwa [net.readStaticData_gotStaticData]

/-- A call returns early, or it gets to the status. -/
theorem prepared (hclean : fill = true → polls.fill.status.Clean)
    (htold : net.gotCaps = true → net.gotStaticData = true → net.Told) :
    Prepared net (net.prepare fill now polls) := by
  have hframe := net.frame_getCapabilities polls.caps
  by_cases hcaps : net.gotCaps = true
  · exact prepared_of_caps hclean hcaps (htold hcaps)
  · have hmissing : net.gotCaps = true → net.gotStaticData ≠ true := fun h => absurd h hcaps
    rw [prepare_of_no_caps (Bool.eq_false_iff.mpr hcaps)]
    by_cases hok : polls.caps.ok = true
    · rw [if_pos hok]
      have hgot := (net.getCapabilities_gotCaps polls.caps).trans hok
      rcases prepared_of_caps hclean hgot
        (fun _ => told_of_ok hok (net.poll_statbuf polls.caps) rfl) with
        ⟨hnone, hframe', -, hlast⟩ | ⟨stat, hstat, hready⟩
      · exact Or.inl ⟨hnone, hframe.trans hframe', hmissing, hlast⟩
      · exact Or.inr ⟨stat, hstat, hready.of_frame hframe fun h => absurd h hcaps⟩
    · rw [if_neg hok]
      left
      refine ⟨rfl, hframe, hmissing, fun h => ?_⟩
      dsimp only at h
      rw [net.getCapabilities_gotCaps] at h
      exact absurd h hok

end Prepare

end Before

/-! ## Behind the lock -/

section Behind

variable {net : NetUpsDriver}

/-- The status is taken, and the failing calls are counted, behind what the polls have read. -/
structure SameReply (net after : NetUpsDriver) : Prop where
  gotCaps : after.gotCaps = net.gotCaps
  gotStaticData : after.gotStaticData = net.gotStaticData
  statbuf : after.statbuf = net.statbuf
  polled : after.polled = net.polled

theorem SameReply.told {after : NetUpsDriver} (hsame : SameReply net after) (htold : net.Told) :
    after.Told := by
  unfold NetUpsDriver.Told
  rw [hsame.statbuf, hsame.polled]
  exact htold

theorem sameReply_takeStatus (stat : Bool) : SameReply net (net.takeStatus stat).2 := by
  unfold NetUpsDriver.takeStatus
  split <;> exact ⟨rfl, rfl, rfl, rfl⟩

theorem sameReply_countLoss (stat : Bool) : SameReply net (net.countLoss stat) := by
  unfold NetUpsDriver.countLoss
  split_ifs <;> exact ⟨rfl, rfl, rfl, rfl⟩

theorem takeStatus_of_none (hnone : statusFlag net.statbuf = none) (stat : Bool) :
    net.takeStatus stat = (false, net) := by
  simp [NetUpsDriver.takeStatus, hnone]

/-- The on-battery state is one of the bits that the master decides. -/
theorem takeStatus_of_some {master : StatusWord} (hmaster : statusFlag net.statbuf = some master)
    (stat : Bool) :
    (net.takeStatus stat).1 = stat ∧
      (net.takeStatus stat).2.ups.isOnbatt = testMask master upsOnbatt := by
  unfold NetUpsDriver.takeStatus
  rw [hmaster]
  refine ⟨rfl, ?_⟩
  have hstatus : testMask (((net.ups.status &&& upsLocalBits) ||| (master &&& ~~~upsLocalBits)) |||
      (master &&& (upsCommlost ||| upsFastpoll))) upsOnbatt = testMask master upsOnbatt := by
    have hdisjoint : (master &&& (upsCommlost ||| upsFastpoll)) &&& upsOnbatt = 0 := by
      rw [BitVec.and_assoc]
      have hmask : (upsCommlost ||| upsFastpoll) &&& upsOnbatt = 0 := by decide
      rw [hmask]
      simp
    exact (testMask_raiseMask_of_disjoint hdisjoint _).trans
      (testMask_replace_of_disjoint (by decide) _ _)
  dsimp only
  split_ifs
  · exact (UpsInfo.test_set_of_disjoint (by decide) _).trans hstatus
  · exact hstatus

/-- What the count does: the flag is raised by the fifth failing call. -/
theorem countLoss_spec (stat : Bool) :
    (net.countLoss stat).ups.isOnbatt = net.ups.isOnbatt ∧
      (net.countLoss stat).ups.isShutRemote =
        (net.ups.isShutRemote || ((!stat && net.ups.isOnbatt) && decide (net.commLoss = 4))) ∧
      (net.countLoss stat).commLoss =
        (if !stat && net.ups.isOnbatt then net.commLoss + 1 else 0) := by
  have hkept (ups : UpsInfo) : (ups.set upsShutRemote).isOnbatt = ups.isOnbatt :=
    UpsInfo.test_set_of_disjoint (by decide) ups
  have hraised (ups : UpsInfo) : (ups.set upsShutRemote).isShutRemote = true :=
    UpsInfo.test_set_self ups upsShutRemote
  unfold NetUpsDriver.countLoss
  by_cases hfails : (!stat && net.ups.isOnbatt) = true
  · rw [if_pos hfails, if_pos hfails, hfails, Bool.true_and]
    by_cases hfires : net.commLoss = 4 ∧ ¬ net.ups.isShutRemote
    · rw [if_pos hfires]
      exact ⟨hkept _, by simp [hraised, hfires.1], rfl⟩
    · rw [if_neg hfires]
      refine ⟨rfl, ?_, rfl⟩
      by_cases hcount : net.commLoss = 4
      · have hremote : net.ups.isShutRemote = true := by simpa [hcount] using hfires
        simp [hremote]
      · simp [hcount]
  · rw [if_neg hfails, if_neg hfails, Bool.eq_false_iff.mpr hfails, Bool.false_and, Bool.or_false]
    exact ⟨rfl, rfl, rfl⟩

end Behind

/-! ## The condition on a run -/

namespace Slave

variable (slave : Slave)

/-- Some call has got past the capabilities and the static data. -/
def begun : Bool :=
  slave.calls.any StatusCall.reached

/-- A poll of the call that fails leaves no status behind, and the call has a status to take
if it would be the fourth to fail, or if it is the first one and the master has already told
that it is on battery. -/
def CallRegular (fill : Bool) (now : Int) (polls : CallPolls) : Prop :=
  (fill = true → polls.fill.status.Clean) ∧
    ((slave.net.prepare fill now polls).1.isSome = true →
      (slave.begun = false ∧ lastTold (slave.net.prepare fill now polls).2.polled = true ∨
        failingCalls slave.calls = 3 ∧ slave.net.ups.isShutRemote = false) →
      (statusFlag (slave.net.prepare fill now polls).2.statbuf).isSome = true)

instance (fill : Bool) (now : Int) (polls : CallPolls) :
    Decidable (slave.CallRegular fill now polls) :=
  inferInstanceAs (Decidable (_ ∧ _))

def Regular : SlaveLabel → Prop
  | .getUpsStatusFlag fill now polls => slave.CallRegular fill now polls
  | .readVolatileData now fill polls =>
      fill.status.Clean ∧ ((slave.filled now fill).1 = true →
        (slave.filled now fill).2.CallRegular false now polls)
  | .core _ => True

instance (label : SlaveLabel) : Decidable (slave.Regular label) :=
  match label with
  | .getUpsStatusFlag fill now polls =>
      inferInstanceAs (Decidable (slave.CallRegular fill now polls))
  | .readVolatileData _ _ _ => inferInstanceAs (Decidable (_ ∧ _))
  | .core _ => inferInstanceAs (Decidable True)

end Slave

/-! ## The invariant -/

theorem failingCalls_cons (call : StatusCall) (earlier : List StatusCall) :
    failingCalls (call :: earlier) =
      if call.failsOnBattery then failingCalls earlier + 1 else 0 := by
  unfold failingCalls
  by_cases hfails : call.failsOnBattery = true
  · simp [hfails]
  · simp [hfails]

/-- What holds before a call: the count is the number of failing calls in a row. -/
structure Waiting (slave : Slave) : Prop where
  count : slave.net.commLoss = failingCalls slave.calls
  quiet : slave.begun = false → slave.net.ups.isOnbatt = false
  got : slave.begun = true → slave.net.gotCaps = true ∧ slave.net.gotStaticData = true
  told : slave.net.gotCaps = true → slave.net.gotStaticData = true → slave.net.Told
  held : 0 < failingCalls slave.calls → slave.net.ups.isOnbatt = true
  armed : 4 ≤ failingCalls slave.calls → slave.net.ups.isShutRemote = true
  right : CallsRight slave.calls

/-- What holds between the steps of a run: the state is the one that the last successful poll
has told. -/
structure Inv (slave : Slave) : Prop extends Waiting slave where
  taken : slave.begun = true → slave.net.ups.isOnbatt = lastTold slave.net.polled

section Steps

variable {slave : Slave} {fill : Bool} {now : Int} {polls : CallPolls}

/-- A call that returns early. -/
theorem call_of_none {after : NetUpsDriver}
    (hrun : slave.net.prepare fill now polls = (none, after)) :
    slave.call fill now polls =
      ⟨after, ⟨false, false, after.ups.isOnbatt, lastTold after.polled, after.ups.isShutRemote,
        after.ups.isShutRemote⟩ :: slave.calls⟩ := by
  simp [Slave.call, NetUpsDriver.getUpsStatusFlag, NetUpsDriver.remoteBefore, hrun]

/-- A call that finds no status counts as failed, whatever its poll was. -/
theorem call_of_no_status {stat : Bool} {after : NetUpsDriver}
    (hrun : slave.net.prepare fill now polls = (some stat, after))
    (hstatus : statusFlag after.statbuf = none) :
    slave.call fill now polls =
      ⟨after.countLoss false, ⟨false, true, (after.countLoss false).ups.isOnbatt,
        lastTold (after.countLoss false).polled, after.ups.isShutRemote,
        (after.countLoss false).ups.isShutRemote⟩ :: slave.calls⟩ := by
  simp [Slave.call, NetUpsDriver.getUpsStatusFlag, NetUpsDriver.remoteBefore, hrun,
    takeStatus_of_none hstatus]

/-- A call that takes a status with a poll that has not failed. -/
theorem call_of_status {after : NetUpsDriver}
    (hrun : slave.net.prepare fill now polls = (some true, after))
    (hstat : (after.takeStatus true).1 = true) :
    slave.call fill now polls =
      ⟨{ (after.takeStatus true).2 with commLoss := 0 },
        ⟨true, true, (after.takeStatus true).2.ups.isOnbatt,
          lastTold (after.takeStatus true).2.polled, (after.takeStatus true).2.ups.isShutRemote,
          (after.takeStatus true).2.ups.isShutRemote⟩ :: slave.calls⟩ := by
  simp [Slave.call, NetUpsDriver.getUpsStatusFlag, NetUpsDriver.remoteBefore, hrun, hstat,
    NetUpsDriver.countLoss]

theorem begun_call (call : StatusCall) (net : NetUpsDriver) :
    Slave.begun ⟨net, call :: slave.calls⟩ = (call.reached || slave.begun) := rfl

/-- A call that has not failed ends the row of failing calls. -/
theorem inv_of_no_failure {net : NetUpsDriver} {call : StatusCall}
    (hwaiting : Waiting slave) (hfails : call.failsOnBattery = false)
    (hremote : call.remoteAfter = call.remote) (hcount : net.commLoss = 0)
    (hquiet : Slave.begun ⟨net, call :: slave.calls⟩ = false → net.ups.isOnbatt = false)
    (hgot : Slave.begun ⟨net, call :: slave.calls⟩ = true →
      net.gotCaps = true ∧ net.gotStaticData = true)
    (htold : net.gotCaps = true → net.gotStaticData = true → net.Told)
    (hreached : call.reached = true → call.onbatt = call.told)
    (htaken : Slave.begun ⟨net, call :: slave.calls⟩ = true →
      net.ups.isOnbatt = lastTold net.polled) :
    Inv ⟨net, call :: slave.calls⟩ := by
  have hzero : failingCalls (call :: slave.calls) = 0 := by
    rw [failingCalls_cons, hfails, if_neg Bool.false_ne_true]
  refine ⟨⟨hcount.trans hzero.symm, hquiet, hgot, htold, fun hpos => ?_, fun hfour => ?_,
    ⟨⟨?_, hreached⟩, hwaiting.right⟩⟩, htaken⟩
  · rw [hzero] at hpos
    cases hpos
  · rw [hzero] at hfour
    cases hfour
  · rw [hzero, hremote]
    simp

/-- Nothing has been taken before the capabilities and the static data are there. -/
theorem Waiting.early (hwaiting : Waiting slave) {after : NetUpsDriver}
    (hrun : slave.net.prepare fill now polls = (none, after)) (hframe : Frame slave.net after)
    (hmissing : slave.net.gotCaps = true → slave.net.gotStaticData ≠ true)
    (hlast : after.gotCaps = true → after.gotStaticData ≠ true) :
    Inv (slave.call fill now polls) := by
  have hbegun : slave.begun = false := by
    by_contra htrue
    rcases hwaiting.got (by simpa using htrue) with ⟨hcaps, hstatic⟩
    exact hmissing hcaps hstatic
  have honbatt : after.ups.isOnbatt = false := hframe.onbatt.trans (hwaiting.quiet hbegun)
  have hzero : failingCalls slave.calls = 0 := by
    by_contra hpos
    have hheld := hwaiting.held (Nat.pos_of_ne_zero hpos)
    rw [hwaiting.quiet hbegun] at hheld
    cases hheld
  have hcount : after.commLoss = 0 := (hframe.commLoss.trans hwaiting.count).trans hzero
  have hstill {net : NetUpsDriver} {call : StatusCall} (hreached : call.reached = false) :
      Slave.begun ⟨net, call :: slave.calls⟩ = false := by
    rw [begun_call, hreached, hbegun, Bool.or_false]
  rw [call_of_none hrun]
  refine inv_of_no_failure hwaiting ?_ rfl hcount (fun _ => honbatt) (fun hnow => ?_)
    (fun hcaps hstatic => absurd hstatic (hlast hcaps)) (fun hreached => ?_) (fun hnow => ?_)
  · rw [StatusCall.failsOnBattery, honbatt, Bool.and_false]
  · rw [hstill rfl] at hnow
    cases hnow
  · cases hreached
  · rw [hstill rfl] at hnow
    cases hnow

/-- The flag is up before a fourth call fails, so that counting raises nothing. -/
theorem Waiting.raised (hwaiting : Waiting slave) {after : NetUpsDriver}
    (hframe : Frame slave.net after)
    (hthree : failingCalls slave.calls = 3 → slave.net.ups.isShutRemote = true) :
    (3 ≤ failingCalls slave.calls → after.ups.isShutRemote = true) ∧
      (after.countLoss false).ups.isShutRemote = after.ups.isShutRemote := by
  have hflag : 3 ≤ failingCalls slave.calls → after.ups.isShutRemote = true := by
    intro hmany
    rw [hframe.remote]
    rcases Nat.eq_or_lt_of_le hmany with heq | hlt
    · exact hthree heq.symm
    · exact hwaiting.armed hlt
  refine ⟨hflag, ?_⟩
  rw [(countLoss_spec false).2.1, hframe.commLoss.trans hwaiting.count]
  by_cases hfour : failingCalls slave.calls = 4
  · simp [hflag (by omega)]
  · simp [hfour]

/-- A call without a status. -/
theorem Waiting.no_status (hwaiting : Waiting slave) {stat : Bool} {after : NetUpsDriver}
    (hrun : slave.net.prepare fill now polls = (some stat, after))
    (hready : Ready slave.net after stat) (hstatus : statusFlag after.statbuf = none)
    (hknown : after.ups.isOnbatt = lastTold after.polled)
    (hthree : failingCalls slave.calls = 3 → slave.net.ups.isShutRemote = true) :
    Inv (slave.call fill now polls) := by
  have hreply := @sameReply_countLoss after false
  have hgot : (after.countLoss false).gotCaps = true ∧
      (after.countLoss false).gotStaticData = true :=
    ⟨hreply.gotCaps.trans hready.gotCaps, hreply.gotStaticData.trans hready.gotStaticData⟩
  have htold := hreply.told hready.told
  rcases @countLoss_spec after false with ⟨honbatt, -, hcount⟩
  rcases hwaiting.raised hready.frame hthree with ⟨hflag, hraised⟩
  have htaken : (after.countLoss false).ups.isOnbatt =
      lastTold (after.countLoss false).polled := by
    rw [honbatt, hreply.polled]
    exact hknown
  rw [call_of_no_status hrun hstatus]
  by_cases hon : after.ups.isOnbatt = true
  · -- one more call has failed
    rw [if_pos (by simpa using hon), hready.frame.commLoss.trans hwaiting.count] at hcount
    have hnew : failingCalls (⟨false, true, (after.countLoss false).ups.isOnbatt,
        lastTold (after.countLoss false).polled, after.ups.isShutRemote,
        (after.countLoss false).ups.isShutRemote⟩ :: slave.calls) =
        failingCalls slave.calls + 1 := by
      rw [failingCalls_cons, StatusCall.failsOnBattery, honbatt, hon]
      rfl
    refine ⟨⟨hcount.trans hnew.symm, fun hnow => ?_, fun _ => hgot, fun _ _ => htold,
      fun _ => honbatt.trans hon, fun hfour => ?_, ⟨⟨?_, fun _ => htaken⟩, hwaiting.right⟩⟩,
      fun _ => htaken⟩
    · cases hnow
    · rw [hnew] at hfour
      exact hraised.trans (hflag (by omega))
    · rw [hnew, hraised]
      by_cases hfour : failingCalls slave.calls + 1 = 4
      · simp [hflag (by omega)]
      · simp [hfour]
  · -- the row of failing calls ends
    have hoff := Bool.eq_false_iff.mpr hon
    rw [hoff, Bool.and_false, if_neg Bool.false_ne_true] at hcount
    refine inv_of_no_failure hwaiting ?_ hraised hcount (fun _ => honbatt.trans hoff)
      (fun _ => hgot) (fun _ _ => htold) (fun _ => htaken) (fun _ => htaken)
    rw [StatusCall.failsOnBattery, honbatt, hoff, Bool.and_false]

/-- A call that takes a status: its poll has not failed. -/
theorem Waiting.takes (hwaiting : Waiting slave) {stat : Bool} {after : NetUpsDriver}
    (hrun : slave.net.prepare fill now polls = (some stat, after))
    (hready : Ready slave.net after stat) {master : StatusWord}
    (hmaster : statusFlag after.statbuf = some master) :
    Inv (slave.call fill now polls) := by
  have hstat : stat = true := by
    by_contra hfailed
    have hnone := hready.failed (by simpa using hfailed)
    rw [hmaster] at hnone
    cases hnone
  obtain rfl := hstat
  have hreply := @sameReply_takeStatus after true
  have hgot : (after.takeStatus true).2.gotCaps = true ∧
      (after.takeStatus true).2.gotStaticData = true :=
    ⟨hreply.gotCaps.trans hready.gotCaps, hreply.gotStaticData.trans hready.gotStaticData⟩
  have htold := hreply.told hready.told
  rcases takeStatus_of_some hmaster true with ⟨hresult, honbatt⟩
  have hknown : (after.takeStatus true).2.ups.isOnbatt =
      lastTold (after.takeStatus true).2.polled := by
    rw [honbatt, hreply.polled, lastTold, hready.told master hmaster]
    rfl
  rw [call_of_status hrun hresult]
  refine inv_of_no_failure hwaiting rfl rfl rfl (fun hnow => ?_) (fun _ => hgot)
    (fun _ _ => htold) (fun _ => hknown) (fun _ => hknown)
  cases hnow

/-- A call, if it finds the state of the last successful poll where it finds no status. -/
theorem Waiting.call (hwaiting : Waiting slave) (hregular : slave.CallRegular fill now polls)
    (hsame : slave.begun = true → ∀ stat after,
      slave.net.prepare fill now polls = (some stat, after) → Ready slave.net after stat →
        statusFlag after.statbuf = none → after.ups.isOnbatt = lastTold after.polled) :
    Inv (slave.call fill now polls) := by
  rcases hregular with ⟨hclean, hneeds⟩
  have hprepared := @prepared slave.net fill now polls hclean hwaiting.told
  rcases hrun : slave.net.prepare fill now polls with ⟨result, after⟩
  rw [hrun] at hprepared hneeds
  rcases hprepared with ⟨hnone, hframe, hmissing, hlast⟩ | ⟨stat, hstat, hready⟩
  · dsimp only at hnone
    subst hnone
    exact hwaiting.early hrun hframe hmissing hlast
  · dsimp only at hstat
    subst hstat
    rcases hmaster : statusFlag after.statbuf with _ | master
    · have hfree := mt (hneeds rfl) (by simp [hmaster])
      rw [not_or] at hfree
      refine hwaiting.no_status hrun hready hmaster ?_ fun hthree => ?_
      · by_cases hbegun : slave.begun = true
        · exact hsame hbegun stat after hrun hready hmaster
        · have hnew := Bool.eq_false_iff.mpr hbegun
          have hoff : lastTold after.polled = false := by
            by_contra hon
            exact hfree.1 ⟨hnew, by simpa using hon⟩
          rw [hready.frame.onbatt, hwaiting.quiet hnew, hoff]
      · by_contra hclear
        exact hfree.2 ⟨hthree, by simpa using hclear⟩
    · exact hwaiting.takes hrun hready hmaster

/-- Polls between the calls. -/
theorem Waiting.of_frame (hwaiting : Waiting slave) {net : NetUpsDriver}
    (hframe : Frame slave.net net)
    (hgot : slave.begun = true → net.gotCaps = true ∧ net.gotStaticData = true)
    (htold : net.gotCaps = true → net.gotStaticData = true → net.Told) :
    Waiting { slave with net := net } := by
  refine ⟨hframe.commLoss.trans hwaiting.count, fun hbegun => ?_, hgot, htold, fun hpos => ?_,
    fun hfour => ?_, hwaiting.right⟩
  · exact hframe.onbatt.trans (hwaiting.quiet hbegun)
  · exact hframe.onbatt.trans (hwaiting.held hpos)
  · exact hframe.remote.trans (hwaiting.armed hfour)

/-- Marking the slave as one does not touch what is counted. -/
theorem frame_setSlave (net : NetUpsDriver) :
    Frame net { net with ups := net.ups.set upsSlave } := by
  refine ⟨?_, ?_, rfl⟩
  · exact UpsInfo.test_set_of_disjoint (by decide) net.ups
  · exact UpsInfo.test_set_of_disjoint (by decide) net.ups

/-- The call of {lit}`read_volatile_data` looks at the reply that has just been read. -/
theorem Waiting.volatile (hwaiting : Waiting slave)
    (hregular : slave.CallRegular false now polls)
    (hknown : slave.begun = true → statusFlag slave.net.statbuf = none →
      slave.net.ups.isOnbatt = lastTold slave.net.polled) :
    Inv (slave.call false now polls) := by
  refine hwaiting.call hregular fun hbegun stat after hrun _ hstatus => ?_
  rcases hwaiting.got hbegun with ⟨hcaps, hstatic⟩
  rw [prepare_of_got hcaps hstatic, if_neg Bool.false_ne_true] at hrun
  obtain rfl := (Prod.mk.inj hrun).2
  exact hknown hbegun hstatus

/-- Every step of a run whose steps are regular. -/
theorem Inv.step {label : SlaveLabel} {next : Slave} (hinv : Inv slave)
    (hregular : slave.Regular label) (hstep : slave.step label = some next) : Inv next := by
  cases label with
  | getUpsStatusFlag fill now polls =>
      obtain rfl := Option.some.inj hstep
      refine hinv.toWaiting.call hregular fun hbegun stat after _ hready hstatus => ?_
      rcases hinv.got hbegun with ⟨hcaps, hstatic⟩
      rw [hready.frame.onbatt, hinv.taken hbegun, hready.same hcaps hstatic hstatus]
  | readVolatileData now fill polls =>
      rcases hregular with ⟨hclean, hcall⟩
      simp only [Slave.step] at hstep
      simp only [Slave.filled] at hstep hcall
      rcases fillStatusBuffer_cases now fill slave.net with
        hrun | ⟨hok, hrun⟩ | ⟨hok, after, hrun, hfilled⟩
      · rw [hrun] at hstep hcall
        obtain rfl := Option.some.inj hstep
        have hframe := frame_setSlave slave.net
        have hwaiting := hinv.toWaiting.of_frame hframe hinv.got hinv.told
        refine hwaiting.volatile (hcall rfl) fun hbegun _ => ?_
        exact hframe.onbatt.trans (hinv.taken hbegun)
      · rw [hrun] at hstep
        obtain rfl := Option.some.inj hstep
        have hframe := slave.net.frame_poll fill.status
        refine ⟨hinv.toWaiting.of_frame ⟨hframe.onbatt, hframe.remote, hframe.commLoss⟩ hinv.got
          fun _ _ master hmaster => ?_, fun hbegun => ?_⟩
        · have htext := slave.net.poll_statbuf fill.status
          rw [show NetUps.statbuf _ = fill.status.text from htext, hclean hok] at hmaster
          cases hmaster
        · have htold : fill.status.told = none := by
            rw [Poll.told, hok, if_neg Bool.false_ne_true]
          exact (hframe.onbatt.trans (hinv.taken hbegun)).trans
            (lastTold_cons htold slave.net.polled).symm
      · rw [hrun] at hstep hcall
        obtain rfl := Option.some.inj hstep
        have hslave := frame_setSlave after
        have hwaiting := hinv.toWaiting.of_frame (hfilled.frame.trans hslave)
          (fun hbegun => ?_) hfilled.told
        · refine hwaiting.volatile (hcall rfl) fun hbegun hstatus => ?_
          rcases hinv.got hbegun with ⟨hcaps, hstatic⟩
          rcases hfilled.same hcaps hstatic with ⟨-, -, htext, hpolled⟩
          have htold : fill.status.told = none := by
            rw [Poll.told, if_pos hok, ← htext]
            exact hstatus
          dsimp only
          rw [hpolled, lastTold_cons htold, ← hinv.taken hbegun]
          exact hslave.onbatt.trans hfilled.frame.onbatt
        · rcases hinv.got hbegun with ⟨hcaps, hstatic⟩
          rcases hfilled.same hcaps hstatic with ⟨hcaps', hstatic', -⟩
          exact ⟨hcaps', hstatic'⟩
  | core ups =>
      simp only [Slave.step] at hstep
      split_ifs at hstep with hkept
      obtain rfl := Option.some.inj hstep
      exact ⟨hinv.toWaiting.of_frame ⟨hkept.1, hkept.2, rfl⟩ hinv.got hinv.told,
        fun hbegun => hkept.1.trans (hinv.taken hbegun)⟩

end Steps

/-! ## Runs of a slave -/

/-- A new record is not on battery. -/
theorem inv_start (config : UpsConfig) (caps staticData : Poll) :
    Inv (Slave.start config caps staticData) := by
  have hframe (net : NetUpsDriver) :
      Frame net ((net.getCapabilities caps).readStaticData staticData) :=
    (net.frame_getCapabilities caps).trans (NetUpsDriver.frame_readStaticData _ staticData)
  have hnew : (newUps config).isOnbatt = false := by
    change testMask (upsPlugged ||| upsBattpresent) upsOnbatt = false
    decide
  refine ⟨⟨(hframe _).commLoss, fun _ => (hframe _).onbatt.trans hnew, fun hnow => ?_,
    fun _ hstatic => ?_, fun hpos => ?_, fun hfour => ?_, trivial⟩, fun hnow => ?_⟩
  · cases hnow
  · refine told_of_ok ?_ (NetUpsDriver.poll_statbuf _ staticData) rfl
    exact (NetUpsDriver.readStaticData_gotStaticData _ staticData).symm.trans hstatic
  · cases hpos
  · cases hfour
  · cases hnow

/-- In a run whose steps are regular every call is right. -/
theorem slaveShutdown_right {config : UpsConfig} {caps staticData : Poll} {slave : Slave}
    (hrun : Reaches Slave.step Slave.Regular (Slave.start config caps staticData) slave) :
    CallsRight slave.calls :=
  (hrun.invariant (fun hgood hstep hinv => hinv.step hgood hstep)
    (inv_start config caps staticData)).right

/-! ## Four failing calls -/

/-- A master that is on battery. -/
def onBatteryPoll : Poll where
  connected := true
  sent := 6
  messages := ["STATFLAG : 0x10\n".toList.map fun c => UInt8.ofNat c.toNat]
  n := 0

/-- A master that does not answer. -/
def lostPoll : Poll where
  connected := false
  sent := 0
  messages := []
  n := 0

/-- The polls for what is not missing are not made. -/
def fillOf (poll : Poll) : FillPolls := ⟨poll, lostPoll, lostPoll⟩

def callOf (poll : Poll) : CallPolls := ⟨lostPoll, lostPoll, fillOf poll⟩

/-- The slave has learnt that the master is on battery. -/
def learnsOnBattery : SlaveLabel :=
  .readVolatileData 100 (fillOf onBatteryPoll) (callOf lostPoll)

def statusPass (now : Int) (poll : Poll) : SlaveLabel :=
  .getUpsStatusFlag true now (callOf poll)

/-- A slave shuts down at the fourth failing call on battery: every call of every run is right. -/
def ShutsDownAtFourth : Prop :=
  ∀ (config : UpsConfig) (caps staticData : Poll) (slave : Slave),
    Reaches Slave.step (fun _ _ => True) (Slave.start config caps staticData) slave →
      CallsRight slave.calls

/-- The fourth failing call on battery does not raise the flag. -/
theorem fourth_call_not_right : ¬ ShutsDownAtFourth := by
  intro hright
  have hexec : ((execute Slave.step (fun _ _ => True)
      (Slave.start (defaultConfig 0) onBatteryPoll onBatteryPoll)
      [learnsOnBattery, statusPass 102 lostPoll, statusPass 103 lostPoll, statusPass 104 lostPoll,
        statusPass 105 lostPoll]).map
        fun slave => slave.calls.head?.map fun call =>
          (call.remote, call.remoteAfter, failingCalls slave.calls)) =
      some (some (false, false, 4)) := by
    decide +kernel
  rcases Option.map_eq_some_iff.mp hexec with ⟨slave, hslave, hhead⟩
  have hcalls := hright _ _ _ slave (reaches_of_execute hslave)
  rcases hlist : slave.calls with _ | ⟨call, earlier⟩
  · rw [hlist] at hhead
    cases hhead
  · rw [hlist] at hhead hcalls
    simp only [List.head?_cons, Option.map_some, Option.some.injEq, Prod.mk.injEq] at hhead
    rcases hhead with ⟨hbefore, hafter, hfour⟩
    have hraised := hcalls.1.1
    rw [hbefore, hafter, hfour] at hraised
    cases hraised

/-- The theorem at work: the fourth call finds the master again. -/
theorem slaveShutdown_right_threeCalls :
    ∃ slave : Slave, slave.calls.length = 5 ∧ CallsRight slave.calls := by
  have hexec : ((execute Slave.step Slave.Regular
      (Slave.start (defaultConfig 0) onBatteryPoll onBatteryPoll)
      [learnsOnBattery, statusPass 102 lostPoll, statusPass 103 lostPoll, statusPass 104 lostPoll,
        statusPass 105 onBatteryPoll]).map
        fun slave => slave.calls.length) = some 5 := by
    decide +kernel
  rcases Option.map_eq_some_iff.mp hexec with ⟨slave, hslave, hlength⟩
  exact ⟨slave, hlength, slaveShutdown_right (reaches_of_execute hslave)⟩

end NetSlave
end Apcupsd
