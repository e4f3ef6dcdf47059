import Mathlib.Data.List.GetD
import Mathlib.Data.List.TakeDrop

/-!
# Cyclic checksums

A register is shifted by one place for each bit of a message, and a polynomial is added to it
if the bit that falls out differs from the bit of the message.  The polynomial is given with
its coefficients in reverse order, so that its constant term is the top bit.

Main results:

- Theorem {lit}`run_xor`: the register is linear in the message.
- Theorem {lit}`run_eq_run_zeros`: up to its width, a message is told from the register.
- Theorem {lit}`run_burst_ne`: a burst that is no wider than the register leaves a trace in it,
  wherever it stands.
-/

namespace Apcupsd
namespace ShiftRegister

variable {w : ℕ} (poly : BitVec w)

/-- One bit of the message. -/
def step (r : BitVec w) (b : Bool) : BitVec w :=
  if r.getLsbD 0 ^^ b then (r >>> 1) ^^^ poly else r >>> 1

/-- All bits of a message. -/
def run (r : BitVec w) (bits : List Bool) : BitVec w :=
  bits.foldl (step poly) r

@[simp]
theorem run_nil (r : BitVec w) : run poly r [] = r := rfl

@[simp]
theorem run_cons (r : BitVec w) (b : Bool) (bits : List Bool) :
    run poly r (b :: bits) = run poly (step poly r b) bits := rfl

theorem run_append (r : BitVec w) (front back : List Bool) :
    run poly r (front ++ back) = run poly (run poly r front) back :=
  List.foldl_append

/-! ## Linearity -/

theorem xor_xor_cancel (a b c : BitVec w) : (a ^^^ c) ^^^ (b ^^^ c) = a ^^^ b := by
  rw [BitVec.xor_comm b c, BitVec.xor_assoc, ← BitVec.xor_assoc c c b, BitVec.xor_self,
    BitVec.zero_xor]

/-- A step is linear in the register and the bit. -/
theorem step_xor (r s : BitVec w) (b c : Bool) :
    step poly (r ^^^ s) (b ^^ c) = step poly r b ^^^ step poly s c := by
  have hbit : ((r ^^^ s).getLsbD 0 ^^ (b ^^ c)) = ((r.getLsbD 0 ^^ b) ^^ (s.getLsbD 0 ^^ c)) := by
    rw [BitVec.getLsbD_xor, Bool.xor_assoc, Bool.xor_assoc, Bool.xor_left_comm b]
  unfold step
  rw [hbit, BitVec.ushiftRight_xor_distrib]
  cases r.getLsbD 0 ^^ b with
  | false =>
      cases s.getLsbD 0 ^^ c with
      | false => rfl
      | true => simp [BitVec.xor_assoc]
  | true =>
      cases s.getLsbD 0 ^^ c with
      | false =>
          simp only [Bool.true_xor, Bool.not_false, if_true, Bool.false_eq_true, if_false]
          ac_rfl
      | true => simp [xor_xor_cancel]

/-- The register is linear in the message. -/
theorem run_xor (r s : BitVec w) {bits flips : List Bool} (hlength : bits.length = flips.length) :
    run poly (r ^^^ s) (List.zipWith (· ^^ ·) bits flips) =
      run poly r bits ^^^ run poly s flips := by
  induction bits generalizing r s flips with
  | nil =>
      cases flips with
      | nil => rfl
      | cons c flips => cases hlength
  | cons b bits ih =>
      cases flips with
      | nil => cases hlength
      | cons c flips =>
          rw [List.zipWith_cons_cons, run_cons, step_xor, ih _ _ (Nat.succ.inj hlength), run_cons,
            run_cons]

/-! ## Zeros -/

theorem step_zero : step poly 0#w false = 0#w := by
  simp [step]

theorem run_zero (n : ℕ) : run poly 0#w (List.replicate n false) = 0#w := by
  induction n with
  | zero => rfl
  | succ n ih => rw [List.replicate_succ, run_cons, step_zero, ih]

variable {poly}

/-- With a constant term no bit of the register is lost. -/
theorem eq_zero_of_step {r : BitVec w} (hmsb : poly.msb = true) (hstep : step poly r false = 0#w) :
    r = 0#w := by
  unfold step at hstep
  rw [Bool.xor_false] at hstep
  cases hlow : r.getLsbD 0 with
  | true =>
      rw [hlow, if_pos rfl] at hstep
      have htop := congrArg BitVec.msb hstep
      rw [BitVec.msb_xor, hmsb] at htop
      simp [BitVec.msb_ushiftRight] at htop
  | false =>
      rw [hlow, if_neg Bool.false_ne_true] at hstep
      apply BitVec.eq_of_getLsbD_eq
      intro i _
      cases i with
      | zero => simpa using hlow
      | succ i =>
          have hbit := congrArg (fun word => word.getLsbD i) hstep
          simpa [BitVec.getLsbD_ushiftRight, Nat.add_comm 1 i] using hbit

theorem eq_zero_of_run {r : BitVec w} (hmsb : poly.msb = true) {n : ℕ}
    (hrun : run poly r (List.replicate n false) = 0#w) : r = 0#w := by
  induction n generalizing r with
  | zero => exact hrun
  | succ n ih =>
      rw [List.replicate_succ, run_cons] at hrun
      exact eq_zero_of_step hmsb (ih hrun)

/-! ## Short messages -/

/-- The bits as a word, the first one lowest. -/
def wordOfBits (w : ℕ) (bits : List Bool) : BitVec w :=
  (BitVec.ofBoolListLE bits).setWidth w

theorem getLsbD_wordOfBits (bits : List Bool) (i : ℕ) :
    (wordOfBits w bits).getLsbD i = (decide (i < w) && bits.getD i false) := by
  rw [wordOfBits, BitVec.getLsbD_setWidth, BitVec.getLsbD_ofBoolListLE]

theorem wordOfBits_cons_ushiftRight (b : Bool) {bits : List Bool} (hlength : bits.length < w) :
    wordOfBits w (b :: bits) >>> 1 = wordOfBits w bits := by
  apply BitVec.eq_of_getLsbD_eq
  intro i hi
  rw [BitVec.getLsbD_ushiftRight, getLsbD_wordOfBits, getLsbD_wordOfBits, Nat.add_comm 1 i,
    List.getD_cons_succ]
  by_cases hnext : i + 1 < w
  · simp [hnext, hi]
  · have hnone : bits.getD i false = false := List.getD_eq_default bits false (by omega)
    rw [hnone, Bool.and_false, Bool.and_false]

/-- The first bit of a short message may as well be added to the register. -/
theorem step_xor_wordOfBits (r : BitVec w) (b : Bool) {bits : List Bool}
    (hlength : bits.length < w) :
    step poly (r ^^^ wordOfBits w (b :: bits)) false = step poly r b ^^^ wordOfBits w bits := by
  have hlow : (r ^^^ wordOfBits w (b :: bits)).getLsbD 0 = (r.getLsbD 0 ^^ b) := by
    rw [BitVec.getLsbD_xor, getLsbD_wordOfBits]
    simp [Nat.zero_lt_of_lt hlength]
  unfold step
  rw [Bool.xor_false, hlow, BitVec.ushiftRight_xor_distrib,
    wordOfBits_cons_ushiftRight b hlength]
  cases r.getLsbD 0 ^^ b with
  | false => rfl
  | true =>
      rw [if_pos rfl, if_pos rfl, BitVec.xor_assoc, BitVec.xor_assoc,
        BitVec.xor_comm (wordOfBits w bits)]

/-- A message that is no longer than the register may as well be added to it. -/
theorem run_eq_run_zeros (r : BitVec w) {bits : List Bool} (hlength : bits.length ≤ w) :
    run poly r bits =
      run poly (r ^^^ wordOfBits w bits) (List.replicate bits.length false) := by
  induction bits generalizing r with
  | nil =>
      have hempty : wordOfBits w [] = 0#w := by
        apply BitVec.eq_of_getLsbD_eq
        intro i _
        simp [getLsbD_wordOfBits]
      simp [hempty]
  | cons b bits ih =>
      have hless : bits.length < w := hlength
      rw [run_cons, List.length_cons, List.replicate_succ, run_cons,
        step_xor_wordOfBits r b hless]
      exact ih _ (Nat.le_of_lt hless)

/-- A word behind a message empties the register exactly if it is what the register holds. -/
theorem run_eq_zero_iff {r : BitVec w} (hmsb : poly.msb = true) {bits : List Bool}
    (hlength : bits.length ≤ w) : run poly r bits = 0#w ↔ wordOfBits w bits = r := by
  rw [run_eq_run_zeros r hlength]
  constructor
  · intro hrun
    exact (BitVec.xor_eq_zero_iff.mp (eq_zero_of_run hmsb hrun)).symm
  · rintro rfl
    rw [BitVec.xor_self]
    exact run_zero poly _

/-! ## Bursts -/

/-- Some bits are set, and all of them lie within the width of the register. -/
def IsBurst (w : ℕ) (flips : List Bool) : Prop :=
  true ∈ flips ∧ ∃ start, ∀ p, flips[p]? = some true → start ≤ p ∧ p < start + w

/-- A list of clear bits. -/
theorem eq_replicate_of_clear {bits : List Bool} (hclear : true ∉ bits) :
    bits = List.replicate bits.length false := by
  rw [List.eq_replicate_iff]
  refine ⟨rfl, fun b hb => ?_⟩
  cases b with
  | false => rfl
  | true => exact absurd hb hclear

/-- A burst leaves a trace in an empty register. -/
theorem run_burst_ne {flips : List Bool} (hmsb : poly.msb = true) (hburst : IsBurst w flips) :
    run poly 0#w flips ≠ 0#w := by
  obtain ⟨hset, start, hwithin⟩ := hburst
  have hfront : flips.take start = List.replicate (flips.take start).length false := by
    apply eq_replicate_of_clear
    intro hmem
    obtain ⟨p, hp⟩ := List.mem_iff_getElem?.mp hmem
    rw [List.getElem?_take] at hp
    split_ifs at hp with hlt
    have hstart := (hwithin p hp).1
    omega
  have hback : (flips.drop start).drop w =
      List.replicate ((flips.drop start).drop w).length false := by
    apply eq_replicate_of_clear
    intro hmem
    obtain ⟨p, hp⟩ := List.mem_iff_getElem?.mp hmem
    rw [List.getElem?_drop, List.getElem?_drop] at hp
    have hend := (hwithin _ hp).2
    omega
  have hsplit : flips = flips.take start ++ ((flips.drop start).take w ++
      (flips.drop start).drop w) := by
    rw [List.take_append_drop, List.take_append_drop]
  intro hrun
  rw [hsplit, run_append, run_append, hfront, run_zero, hback] at hrun
  have hmiddle := (run_eq_zero_iff hmsb (List.length_take_le w _)).mp (eq_zero_of_run hmsb hrun)
  rw [hsplit, hfront, hback] at hset
  rcases List.mem_append.mp hset with hzero | hrest
  · exact Bool.noConfusion (List.eq_of_mem_replicate hzero)
  · rcases List.mem_append.mp hrest with hmem | hzero
    · obtain ⟨i, hi⟩ := List.mem_iff_getElem?.mp hmem
      have hlt : i < w := by
        rw [List.getElem?_take] at hi
        split_ifs at hi with hlt
        exact hlt
      have hbit := congrArg (fun word => word.getLsbD i) hmiddle
      rw [getLsbD_wordOfBits, List.getD_eq_getElem?_getD, hi] at hbit
      simp [hlt] at hbit
    · exact Bool.noConfusion (List.eq_of_mem_replicate hzero)

/-- What empties the register does so no more after a burst. -/
theorem run_xor_burst_ne {r : BitVec w} {bits flips : List Bool} (hmsb : poly.msb = true)
    (hlength : bits.length = flips.length) (hrun : run poly r bits = 0#w)
    (hburst : IsBurst w flips) : run poly r (List.zipWith (· ^^ ·) bits flips) ≠ 0#w := by
  have hlinear := run_xor poly r 0#w hlength
  rw [BitVec.xor_zero, hrun, BitVec.zero_xor] at hlinear
  rw [hlinear]
  exact run_burst_ne hmsb hburst

end ShiftRegister
end Apcupsd
