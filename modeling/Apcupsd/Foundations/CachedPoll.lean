import Mathlib.Algebra.BigOperators.Intervals

/-!
# Polling through a cache

A program learns a value in rounds.  A round begins with a pass, then fetches the
value into a cache, makes a second pass, and polls the value until it changes or
the round is over.  A pass compares one bit of the value with the copy that the
pass before it kept, and answers a rising edge by decoding the cache once more.

Main results:

- Theorem {lit}`Settled.step`: between the passes and the readings of a round the copy,
  the value and the cache agree.
- Theorem {lit}`Run.answers_of_fetched`: a rise that a fetch shows is answered once, and
  the answer keeps the value.
- Theorem {lit}`Run.answers_of_polled`: a rise that a poll shows is answered twice.
-/

namespace Apcupsd
namespace CachedPoll

/-- Where the program stands in its round. -/
inductive Point where
  | setup | roundStart | fetching | fetched | polling | stopped
deriving DecidableEq, Repr

/-- What the program does next: read a value, make a pass, or neither. -/
inductive Move (σ : Type*) where
  | read (value : σ)
  | pass
  | idle

/-- The value that a move reads. -/
def Move.reading {σ : Type*} : Move σ → Option σ
  | .read value => some value
  | _ => none

def Move.isPass {σ : Type*} : Move σ → Bool
  | .pass => true
  | _ => false

theorem Move.eq_of_reading {σ : Type*} {move : Move σ} {value : σ}
    (hreading : move.reading = some value) : move = .read value := by
  cases move with
  | read other => rw [Option.some_inj.mp hreading]
  | _ => cases hreading

/-- The value, the cache, and the copy of the bit that the last pass kept. -/
structure State (σ : Type*) where
  point : Point
  value : σ
  cached : σ
  copy : Bool

section Steps

variable {σ : Type*} (up : σ → Bool)

/-- A pass in this state finds a rising edge. -/
def rising (s : State σ) : Bool :=
  up s.value && !s.copy

/-- A pass: a rising edge is answered from the cache, and the bit is copied. -/
def answer (s : State σ) : State σ :=
  let value := if rising up s then s.cached else s.value
  { s with value := value, copy := up value }

/-- One step of the program. -/
inductive Step : State σ → Move σ → State σ → Prop where
  | wait {s : State σ} (hpoint : s.point = .setup) : Step s .idle s
  | begin {s : State σ} (hpoint : s.point = .setup) (value : σ) :
      Step s (.read value) { s with point := .roundStart, value := value, cached := value }
  | fetch {s : State σ} (hpoint : s.point = .fetching) (value : σ) :
      Step s (.read value) { s with point := .fetched, value := value, cached := value }
  | same {s : State σ} (hpoint : s.point = .polling) : Step s (.read s.value) s
  | change {s : State σ} (hpoint : s.point = .polling) {value : σ} (hne : value ≠ s.value) :
      Step s (.read value) { s with point := .roundStart, value := value }
  | expire {s : State σ} (hpoint : s.point = .polling) :
      Step s .idle { s with point := .roundStart }
  | first {s : State σ} (hpoint : s.point = .roundStart) :
      Step s .pass { answer up s with point := .fetching }
  | second {s : State σ} (hpoint : s.point = .fetched) :
      Step s .pass { answer up s with point := .polling }
  | exit {s : State σ} (hpoint : s.point = .roundStart ∨ s.point = .fetched) :
      Step s .pass { answer up s with point := .stopped }
  | stop {s : State σ} (hpoint : s.point = .roundStart) :
      Step s .idle { s with point := .stopped, copy := up s.value }
  | rest {s : State σ} (hpoint : s.point = .stopped) : Step s .idle s

/-- After a pass the copy is the bit of the value, and after the second pass of a
round the value is the cached one. -/
structure Settled (s : State σ) : Prop where
  copied : s.point = .fetching ∨ s.point = .polling → s.copy = up s.value
  fresh : s.point = .fetched ∨ s.point = .polling → s.value = s.cached

/-- The bit is up and the last pass has seen it. -/
structure Held (s : State σ) : Prop where
  value : up s.value = true
  copy : s.copy = true

variable {up}

theorem answer_of_not_rising {s : State σ} (hrising : rising up s = false) :
    answer up s = { s with copy := up s.value } := by
  unfold answer
  rw [hrising, if_neg Bool.false_ne_true]

theorem answer_of_rising {s : State σ} (hrising : rising up s = true) :
    answer up s = { s with value := s.cached, copy := up s.cached } := by
  unfold answer
  rw [hrising, if_pos rfl]

theorem answer_copy (s : State σ) : (answer up s).copy = up (answer up s).value :=
  rfl

theorem answer_of_fresh {s : State σ} (hfresh : s.value = s.cached) :
    (answer up s).value = (answer up s).cached := by
  cases hrising : rising up s with
  | true => rw [answer_of_rising hrising]
  | false =>
      rw [answer_of_not_rising hrising]
      exact hfresh

/-- Every step keeps the program settled. -/
theorem Settled.step {s t : State σ} {move : Move σ} (hsettled : Settled up s)
    (hstep : Step up s move t) : Settled up t := by
  cases hstep with
  | wait _ => exact hsettled
  | begin _ value => exact ⟨by simp, by simp⟩
  | fetch _ value => exact ⟨by simp, fun _ => rfl⟩
  | same _ => exact hsettled
  | change _ _ => exact ⟨by simp, by simp⟩
  | expire _ => exact ⟨by simp, by simp⟩
  | first _ => exact ⟨fun _ => answer_copy s, by simp⟩
  | second hpoint =>
      exact ⟨fun _ => answer_copy s, fun _ => answer_of_fresh (hsettled.fresh (.inl hpoint))⟩
  | exit _ => exact ⟨by simp, by simp⟩
  | stop _ => exact ⟨by simp, by simp⟩
  | rest _ => exact hsettled

/-- While every value read is up, the bit stays up and seen. -/
theorem Held.step {s t : State σ} {move : Move σ} (hheld : Held up s)
    (hread : ∀ value, move = .read value → up value = true) (hstep : Step up s move t) :
    Held up t := by
  have hrising : rising up s = false := by
    unfold rising
    rw [hheld.copy]
    simp
  cases hstep with
  | wait _ => exact hheld
  | begin _ value => exact ⟨hread value rfl, hheld.copy⟩
  | fetch _ value => exact ⟨hread value rfl, hheld.copy⟩
  | same _ => exact hheld
  | change _ _ => exact ⟨hread _ rfl, hheld.copy⟩
  | expire _ => exact ⟨hheld.value, hheld.copy⟩
  | first _ | second _ | exit _ =>
      rw [answer_of_not_rising hrising]
      exact ⟨hheld.value, hheld.value⟩
  | stop _ => exact ⟨hheld.value, hheld.value⟩
  | rest _ => exact hheld

/-- A step that reads nothing keeps a bit that is down. -/
theorem Step.down {s t : State σ} {move : Move σ} (hdown : up s.value = false)
    (hread : ∀ value, move ≠ .read value) (hstep : Step up s move t) :
    up t.value = false := by
  have hrising : rising up s = false := by
    unfold rising
    rw [hdown]
    rfl
  cases hstep with
  | begin _ value | fetch _ value => exact absurd rfl (hread value)
  | same _ => exact absurd rfl (hread s.value)
  | change _ _ => exact absurd rfl (hread _)
  | first _ | second _ | exit _ =>
      rw [answer_of_not_rising hrising]
      exact hdown
  | _ => exact hdown

theorem Step.value_of_read {s t : State σ} {value : σ} (hstep : Step up s (.read value) t) :
    t.value = value := by
  cases hstep <;> rfl

theorem Step.value_of_pass {s t : State σ} (hstep : Step up s .pass t) :
    t.value = (answer up s).value := by
  cases hstep <;> rfl

/-- Set-up ends with the first reading. -/
theorem Step.point_ne_setup {s t : State σ} {move : Move σ} (hstep : Step up s move t)
    (hbefore : s.point ≠ .setup ∨ ∃ value, move = .read value) : t.point ≠ .setup := by
  cases hstep with
  | wait hpoint =>
      rcases hbefore with hne | ⟨value, hmove⟩
      · exact absurd hpoint hne
      · cases hmove
  | same hpoint | rest hpoint => simp [hpoint]
  | _ => simp

/-! ## What can happen at each point -/

theorem Step.of_fetching {s t : State σ} {move : Move σ} (hstep : Step up s move t)
    (hpoint : s.point = .fetching) :
    ∃ value, move = .read value ∧
      t = { s with point := .fetched, value := value, cached := value } := by
  cases hstep with
  | fetch _ value => exact ⟨value, rfl, rfl⟩
  | _ => simp_all

theorem Step.of_fetched {s t : State σ} {move : Move σ} (hstep : Step up s move t)
    (hpoint : s.point = .fetched) :
    move = .pass ∧ t = { answer up s with point := t.point } := by
  cases hstep with
  | second _ | exit _ => exact ⟨rfl, rfl⟩
  | _ => simp_all

theorem Step.of_roundStart {s t : State σ} {move : Move σ} (hstep : Step up s move t)
    (hpoint : s.point = .roundStart) :
    (move = .pass ∧ t = { answer up s with point := .fetching }) ∨ t.point = .stopped := by
  cases hstep with
  | first _ => exact .inl ⟨rfl, rfl⟩
  | exit _ | stop _ => exact .inr rfl
  | _ => simp_all

theorem Step.of_polling {s t : State σ} {value : σ} (hstep : Step up s (.read value) t)
    (hpoint : s.point = .polling) (hne : value ≠ s.value) :
    t = { s with point := .roundStart, value := value } := by
  cases hstep with
  | change _ _ => rfl
  | same _ => exact absurd rfl hne
  | begin hother _ | fetch hother _ => simp_all

theorem Step.of_stopped {s t : State σ} {move : Move σ} (hstep : Step up s move t)
    (hpoint : s.point = .stopped) : t.point = .stopped := by
  cases hstep with
  | rest _ => exact hpoint
  | exit _ | stop _ => rfl
  | _ => simp_all

/-- Readings happen in set-up, at the fetch and while polling. -/
theorem Step.point_of_read {s t : State σ} {value : σ} (hstep : Step up s (.read value) t) :
    s.point = .setup ∨ s.point = .fetching ∨ s.point = .polling := by
  cases hstep with
  | begin hpoint _ => exact .inl hpoint
  | fetch hpoint _ => exact .inr (.inl hpoint)
  | same hpoint | change hpoint _ => exact .inr (.inr hpoint)

end Steps

/-! ## Runs -/

/-- A run of the program from a settled state. -/
structure Run (σ : Type*) (up : σ → Bool) where
  state : ℕ → State σ
  move : ℕ → Move σ
  step : ∀ n, Step up (state n) (move n) (state (n + 1))
  start : Settled up (state 0)

namespace Run

variable {σ : Type*} {up : σ → Bool} (run : Run σ up)

/-- The value that step {lit}`n` reads. -/
def reading (n : ℕ) : Option σ :=
  (run.move n).reading

/-- Step {lit}`n` is a pass that answers a rising edge. -/
def answers (n : ℕ) : Bool :=
  (run.move n).isPass && rising up (run.state n)

/-- The number of answers in a stretch of the run. -/
def answerCount (first back : ℕ) : ℕ :=
  ∑ n ∈ Finset.Ico first back, (run.answers n).toNat

/-- The bit is down, is read up at step {lit}`first`, is up at every reading before step
{lit}`back`, with at least two passes in between, and is read again at step
{lit}`back`. -/
structure Stretch (last first back : ℕ) : Prop where
  last_lt : last < first
  first_lt : first < back
  down : ∃ value, run.reading last = some value ∧ up value = false
  silent : ∀ n, last < n → n < first → run.reading n = none
  rises : ∃ value, run.reading first = some value ∧ up value = true
  stays : ∀ n, first ≤ n → n < back → ∀ value, run.reading n = some value → up value = true
  passes : ∃ i j, first < i ∧ i < j ∧ j < back ∧ run.move i = .pass ∧ run.move j = .pass
  ends : run.reading back ≠ none

variable {run} {last first back n : ℕ}

theorem settled (n : ℕ) : Settled up (run.state n) := by
  induction n with
  | zero => exact run.start
  | succ n ih => exact ih.step (run.step n)

theorem move_of_reading {value : σ} (hreading : run.reading n = some value) :
    run.move n = .read value :=
  Move.eq_of_reading hreading

theorem not_read_of_reading (hreading : run.reading n = none) (value : σ) :
    run.move n ≠ .read value := by
  intro hmove
  unfold reading at hreading
  rw [hmove] at hreading
  cases hreading

theorem up_of_read (hstays : ∀ value, run.reading n = some value → up value = true)
    (value : σ) (hmove : run.move n = .read value) : up value = true := by
  refine hstays value ?_
  unfold reading
  rw [hmove]
  rfl

theorem point_of_reading (hreading : run.reading n ≠ none) :
    (run.state n).point = .setup ∨ (run.state n).point = .fetching ∨
      (run.state n).point = .polling := by
  obtain ⟨value, hvalue⟩ := Option.ne_none_iff_exists'.mp hreading
  have hstep := run.step n
  rw [move_of_reading hvalue] at hstep
  exact hstep.point_of_read

/-- A program that has stopped does not read again. -/
theorem not_stopped_of_reading {i : ℕ} (hin : i ≤ n) (hreading : run.reading n ≠ none) :
    (run.state i).point ≠ .stopped := by
  intro hstop
  have hrest : (run.state n).point = .stopped := by
    clear hreading
    induction n, hin using Nat.le_induction with
    | base => exact hstop
    | succ k hik ih => exact (run.step k).of_stopped ih
  rcases point_of_reading hreading with hpoint | hpoint | hpoint
  all_goals
    rw [hrest] at hpoint
    cases hpoint

theorem answers_false_of_read {value : σ} (hmove : run.move n = .read value) :
    run.answers n = false := by
  unfold answers
  rw [hmove]
  rfl

theorem answers_of_pass (hmove : run.move n = .pass) :
    run.answers n = rising up (run.state n) := by
  unfold answers
  rw [hmove]
  rfl

/-- A pass that answers no rise keeps the value. -/
theorem value_of_not_answers (hmove : run.move n = .pass) (hanswers : run.answers n = false) :
    (run.state (n + 1)).value = (run.state n).value := by
  rw [answers_of_pass hmove] at hanswers
  have hstep := run.step n
  rw [hmove] at hstep
  rw [hstep.value_of_pass, answer_of_not_rising hanswers]

/-- A bit that has been seen is not answered. -/
theorem answers_of_held (hheld : Held up (run.state n)) : run.answers n = false := by
  unfold answers rising
  rw [hheld.copy]
  simp

/-- While every value read is up, a bit that has been seen stays so. -/
theorem held_of_held {i : ℕ} (hheld : Held up (run.state i))
    (hstays : ∀ n, i ≤ n → n < back → ∀ value, run.reading n = some value → up value = true) :
    ∀ n, i ≤ n → n ≤ back → Held up (run.state n) := by
  intro n hin
  induction n, hin using Nat.le_induction with
  | base => exact fun _ => hheld
  | succ n hin ih =>
      intro hback
      exact (ih (Nat.le_of_succ_le hback)).step (up_of_read (hstays n hin hback)) (run.step n)

/-- Two steps of a stretch, and the rest of it. -/
theorem answerCount_eq_add {i : ℕ} (hi : i + 1 < back) :
    run.answerCount i back =
      (run.answers i).toNat + (run.answers (i + 1)).toNat + run.answerCount (i + 2) back := by
  unfold answerCount
  rw [Finset.sum_eq_sum_Ico_succ_bot (Nat.lt_of_succ_lt hi),
    Finset.sum_eq_sum_Ico_succ_bot hi, ← add_assoc]

/-! ## A rise that a fetch shows -/

/-- Between the last reading and the rise the bit stays down, after set-up. -/
theorem down_of_silent (hdown : ∃ value, run.reading last = some value ∧ up value = false)
    (hsilent : ∀ n, last < n → n < first → run.reading n = none) :
    ∀ n, last + 1 ≤ n → n ≤ first →
      up (run.state n).value = false ∧ (run.state n).point ≠ .setup := by
  rcases hdown with ⟨value, hvalue, hlow⟩
  intro n hn
  induction n, hn using Nat.le_induction with
  | base =>
      intro _
      have hstep := run.step last
      rw [move_of_reading hvalue] at hstep
      refine ⟨?_, hstep.point_ne_setup (.inr ⟨value, rfl⟩)⟩
      rw [hstep.value_of_read]
      exact hlow
  | succ n hn ih =>
      intro hfirst
      rcases ih (Nat.le_of_succ_le hfirst) with ⟨hlow', hpoint⟩
      have hread := not_read_of_reading (hsilent n hn hfirst)
      exact ⟨(run.step n).down hlow' hread, (run.step n).point_ne_setup (.inl hpoint)⟩

/-- A fetch that finds the bit risen, and what follows it until the next stretch. -/
theorem answerCount_of_fetch {i : ℕ} (hpoint : (run.state i).point = .fetching)
    (hcopy : (run.state i).copy = false) (hback : i < back)
    (hstays : ∀ n, i ≤ n → n < back → ∀ value, run.reading n = some value → up value = true)
    (hends : run.reading back ≠ none) :
    run.answerCount i back = 1 ∧
      ∀ n, i ≤ n → n < back → run.answers n = true →
        (run.state (n + 1)).value = (run.state n).value := by
  rcases (run.step i).of_fetching hpoint with ⟨value, hmove, hfetched⟩
  have hup : up value = true := up_of_read (hstays i le_rfl hback) value hmove
  have hlater : i + 1 < back := by
    refine lt_of_le_of_ne hback ?_
    rintro rfl
    have hother := point_of_reading hends
    rw [hfetched] at hother
    simp at hother
  have hrising : rising up (run.state (i + 1)) = true := by
    unfold rising
    rw [hfetched]
    simp [hup, hcopy]
  rcases (run.step (i + 1)).of_fetched (by rw [hfetched]) with ⟨hpass, hanswered⟩
  rw [answer_of_rising hrising, hfetched] at hanswered
  have hvalue : (run.state (i + 2)).value = value := by rw [hanswered]
  have hseen : (run.state (i + 2)).copy = true := by
    rw [hanswered]
    exact hup
  have hheld : ∀ n, i + 2 ≤ n → n ≤ back → Held up (run.state n) :=
    held_of_held ⟨by rw [hvalue]; exact hup, hseen⟩
      (fun n hn => hstays n (Nat.le_of_succ_le (Nat.le_of_succ_le hn)))
  have hquiet : ∀ n, i + 2 ≤ n → n < back → run.answers n = false :=
    fun n hn hlt => answers_of_held (hheld n hn hlt.le)
  have hfirst : run.answers i = false := answers_false_of_read hmove
  constructor
  · have hrest : run.answerCount (i + 2) back = 0 := by
      refine Finset.sum_eq_zero fun n hn => ?_
      rcases Finset.mem_Ico.mp hn with ⟨hle, hlt⟩
      rw [hquiet n hle hlt]
      rfl
    rw [answerCount_eq_add hlater, hrest, hfirst, answers_of_pass hpass, hrising]
    rfl
  · intro n hin hnback hanswers
    rcases Nat.lt_trichotomy n (i + 1) with hlt | rfl | hgt
    · obtain rfl : n = i := Nat.le_antisymm (Nat.le_of_lt_succ hlt) hin
      rw [hfirst] at hanswers
      cases hanswers
    · rw [hvalue, hfetched]
    · rw [hquiet n hgt hnback] at hanswers
      cases hanswers

theorem Stretch.down_first (hstretch : run.Stretch last first back) :
    up (run.state first).value = false ∧ (run.state first).point ≠ .setup :=
  down_of_silent hstretch.down hstretch.silent first hstretch.last_lt le_rfl

theorem Stretch.not_setup (hstretch : run.Stretch last first back) (hn : first ≤ n) :
    (run.state n).point ≠ .setup := by
  induction n, hn using Nat.le_induction with
  | base => exact hstretch.down_first.2
  | succ n _ ih => exact (run.step n).point_ne_setup (.inl ih)

/-- A stretch begins with a fetch or with a poll. -/
theorem Stretch.point_first (hstretch : run.Stretch last first back) :
    (run.state first).point = .fetching ∨ (run.state first).point = .polling := by
  rcases hstretch.rises with ⟨value, hvalue, _⟩
  rcases point_of_reading (n := first) (by rw [hvalue]; simp) with hsetup | hpoint
  · exact absurd hsetup hstretch.down_first.2
  · exact hpoint

/-- Before the rise the last pass has seen the bit down. -/
theorem Stretch.copy_first (hstretch : run.Stretch last first back) :
    (run.state first).copy = false :=
  ((settled first).copied hstretch.point_first).trans hstretch.down_first.1

/-- A rise that a fetch shows is answered once, and the answer keeps the value. -/
theorem answers_of_fetched (hstretch : run.Stretch last first back)
    (hpoint : (run.state first).point = .fetching) :
    run.answerCount first back = 1 ∧
      ∀ n, first ≤ n → n < back → run.answers n = true →
        (run.state (n + 1)).value = (run.state n).value :=
  answerCount_of_fetch hpoint hstretch.copy_first hstretch.first_lt hstretch.stays hstretch.ends

/-! ## A rise that a poll shows -/

/-- A poll that finds the bit risen is followed by a pass, which answers from the
cache that the fetch before it has filled, and by a fetch. -/
theorem Stretch.poll_steps (hstretch : run.Stretch last first back)
    (hpoint : (run.state first).point = .polling) :
    run.answers first = false ∧ run.answers (first + 1) = true ∧
      (run.state (first + 2)).point = .fetching ∧ (run.state (first + 2)).copy = false ∧
      first + 2 < back := by
  have hcached : up (run.state first).cached = false := by
    rw [← (settled first).fresh (.inr hpoint)]
    exact hstretch.down_first.1
  rcases hstretch.rises with ⟨value, hvalue, hup⟩
  have hmove := move_of_reading hvalue
  have hne : value ≠ (run.state first).value := by
    rintro rfl
    rw [hstretch.down_first.1] at hup
    cases hup
  have hpolled : run.state (first + 1) =
      { run.state first with point := .roundStart, value := value } := by
    have hstep := run.step first
    rw [hmove] at hstep
    exact hstep.of_polling hpoint hne
  have hrising : rising up (run.state (first + 1)) = true := by
    unfold rising
    rw [hpolled]
    simp [hup, hstretch.copy_first]
  have hback : first + 2 < back := by
    rcases hstretch.passes with ⟨i, j, hi, hj, hback, _⟩
    omega
  rcases (run.step (first + 1)).of_roundStart (by rw [hpolled]) with ⟨hpass, hanswer⟩ | hstop
  · rw [answer_of_rising hrising, hpolled] at hanswer
    refine ⟨answers_false_of_read hmove, (answers_of_pass hpass).trans hrising, ?_, ?_, hback⟩
    · rw [hanswer]
    · rw [hanswer]
      exact hcached
  · exact absurd hstop (not_stopped_of_reading hback.le hstretch.ends)

/-- A rise that a poll shows is answered twice. -/
theorem answers_of_polled (hstretch : run.Stretch last first back)
    (hpoint : (run.state first).point = .polling) : run.answerCount first back = 2 := by
  rcases hstretch.poll_steps hpoint with ⟨hpolled, hanswered, hfetching, hcopy, hback⟩
  have hrest := answerCount_of_fetch hfetching hcopy hback
    (fun n hn => hstretch.stays n (Nat.le_of_succ_le (Nat.le_of_succ_le hn))) hstretch.ends
  rw [answerCount_eq_add (Nat.lt_of_succ_lt hback), hrest.1, hpolled, hanswered]
  rfl

end Run
end CachedPoll
end Apcupsd
