import Apcupsd.Core.TextNumbers
import Apcupsd.Foundations.Radix
import Apcupsd.Nis.StatusText
import Mathlib.Algebra.Order.Field.Basic
import Mathlib.Tactic.FieldSimp
import Mathlib.Tactic.IntervalCases
import Mathlib.Tactic.Linarith

/-!
# Numbers that are printed and read back

The report prints its numbers with {lit}`%d`, {lit}`%.nf` and {lit}`0x%08X`, and its readers
convert them with {lit}`atof` and {lit}`strtol`.

Main results:

- Theorem {lit}`atof_decimal`: an integer comes back.
- Theorem {lit}`atof_fixedPoint`: a measurement comes back as the double nearest to a decimal
  with an error of half a unit in the last place.
- Theorem {lit}`ofDigits_hexadecimal`: a number comes back from its digits.
-/

namespace Apcupsd

open CStrings

/-! ## Digits -/

theorem ofDigits_eq_value (base : ℕ) (digits : List Char) :
    ofDigits base digits = Radix.value base (digits.map digitValue) := by
  rw [ofDigits, Radix.value, List.foldl_map]
  simp only [Nat.mul_comm base]

theorem ofDigits_append (base : ℕ) (front rest : List Char) :
    ofDigits base (front ++ rest) =
      ofDigits base front * base ^ rest.length + ofDigits base rest := by
  rw [ofDigits_eq_value, List.map_append, Radix.value, List.foldl_append, Radix.foldl_digit,
    List.length_map, ofDigits_eq_value, ofDigits_eq_value, ← Radix.value]

/-- Leading zeros do not count. -/
theorem ofDigits_padLeft (base width : ℕ) (digits : List Char) :
    ofDigits base (padLeft '0' width digits) = ofDigits base digits := by
  have hzeros (k : ℕ) : ofDigits base (List.replicate k '0') = 0 := by
    induction k with
    | zero => rfl
    | succ k ih =>
        rw [List.replicate_succ', ofDigits_append, ih, Nat.zero_mul, Nat.zero_add]
        rfl
  rw [padLeft, ofDigits_append, hzeros, Nat.zero_mul, Nat.zero_add]

/-- The digits of a number denote it, in whatever case they are. -/
theorem ofDigits_map_toDigits {base : ℕ} (hbase : 1 < base) {write : Char → Char}
    (hwrite : ∀ d < base, digitValue (write d.digitChar) = d) (n : ℕ) :
    ofDigits base ((Nat.toDigits base n).map write) = n := by
  have hsingle (d : ℕ) (hd : d < base) : ofDigits base [write d.digitChar] = d := by
    rw [ofDigits_eq_value, List.map_singleton, Radix.value_cons, hwrite d hd]
    simp [Radix.value]
  induction n using Nat.strong_induction_on with
  | h n ih =>
      rw [Nat.toDigits_eq_if hbase]
      split_ifs with hlt
      · exact hsingle n hlt
      · rw [List.map_append, List.map_singleton, ofDigits_append,
          ih (n / base) (Nat.div_lt_self (by omega) hbase),
          hsingle _ (Nat.mod_lt n (by omega)), List.length_singleton, Nat.pow_one]
        exact Nat.div_add_mod' n base

theorem ofDigits_toDigits (n : ℕ) : ofDigits 10 (Nat.toDigits 10 n) = n := by
  have hwrite : ∀ d < 10, digitValue (id d.digitChar) = d := by decide
  have hread := ofDigits_map_toDigits (by decide) hwrite n
  rwa [List.map_id] at hread

theorem ofDigits_hexadecimal (n : ℕ) : ofDigits 16 (hexadecimal n) = n :=
  ofDigits_map_toDigits (by decide) (by decide) n

theorem isxdigit_of_mem_hexadecimal {n : ℕ} {c : Char} (hc : c ∈ hexadecimal n) :
    isxdigit c = true := by
  have hsmall : ∀ d < 16, isxdigit d.digitChar.toUpper = true := by decide
  rcases List.mem_map.mp hc with ⟨digit, hdigit, rfl⟩
  clear hc
  induction n using Nat.strong_induction_on with
  | h n ih =>
      rw [Nat.toDigits_eq_if (by decide)] at hdigit
      split_ifs at hdigit with hlt
      · obtain rfl := List.mem_singleton.mp hdigit
        exact hsmall n hlt
      · rcases List.mem_append.mp hdigit with hfront | hlast
        · exact ih (n / 16) (Nat.div_lt_self (by omega) (by decide)) hfront
        · obtain rfl := List.mem_singleton.mp hlast
          exact hsmall _ (Nat.mod_lt n (by decide))

theorem isDigit_of_mem_padLeft {width n : ℕ} {c : Char}
    (hc : c ∈ padLeft '0' width (Nat.toDigits 10 n)) : c.isDigit = true := by
  rw [padLeft, List.mem_append] at hc
  rcases hc with hzero | hdigit
  · rw [(List.mem_replicate.mp hzero).2]
    rfl
  · exact Nat.isDigit_of_mem_toDigits (by decide) (by decide) hdigit

theorem length_padLeft_toDigits {places n : ℕ} (hplaces : 0 < places) (hn : n < 10 ^ places) :
    (padLeft '0' places (Nat.toDigits 10 n)).length = places := by
  have hle := (Nat.length_toDigits_le_iff (by decide) hplaces).mpr hn
  rw [padLeft, List.length_append, List.length_replicate]
  omega

/-! ## Reading a decimal -/

theorem mem_digits {c : Char} (hc : c.isDigit = true) : c ∈ "0123456789".toList := by
  have hbounds : 48 ≤ c.toNat ∧ c.toNat ≤ 57 := by
    simpa [Char.isDigit, UInt32.le_iff_toNat_le] using hc
  rw [← Char.ofNat_toNat c]
  rcases hbounds with ⟨hlow, hhigh⟩
  interval_cases c.toNat <;> decide

section Reading

variable {whole fraction tail : List Char}

/-- The digits in front of a point, and what is behind it. -/
theorem mantissa_digits (hne : whole ≠ []) (hwhole : ∀ c ∈ whole, c.isDigit = true)
    (hfraction : ∀ c ∈ fraction, c.isDigit = true)
    (htail : tail = [] ∧ fraction = [] ∨ tail = '.' :: fraction) :
    mantissa 10 (whole ++ tail) =
      ((ofDigits 10 (whole ++ fraction) : ℚ) / 10 ^ fraction.length, true, []) := by
  have hfront : (whole ++ tail).takeWhile (isDigitOf 10) = whole ∧
      (whole ++ tail).dropWhile (isDigitOf 10) = tail := by
    have hall : ∀ c ∈ whole, isDigitOf 10 c = true := hwhole
    rcases htail with ⟨rfl, -⟩ | rfl
    · rw [List.append_nil, List.takeWhile_eq_self_iff, List.dropWhile_eq_nil_iff]
      exact ⟨hall, hall⟩
    · rw [takeWhile_append_cons rfl, dropWhile_append_cons rfl,
        List.takeWhile_eq_self_iff.mpr hall, List.dropWhile_eq_nil_iff.mpr hall]
      exact ⟨rfl, rfl⟩
  have hbehind : (if tail.head? = some '.' then tail.drop 1 else []) = fraction ∧
      fraction.takeWhile (isDigitOf 10) = fraction ∧
      (if tail.head? = some '.' then fraction.dropWhile (isDigitOf 10) else tail) = [] := by
    have hall : ∀ c ∈ fraction, isDigitOf 10 c = true := hfraction
    rcases htail with ⟨rfl, rfl⟩ | rfl
    · exact ⟨rfl, rfl, rfl⟩
    · exact ⟨rfl, List.takeWhile_eq_self_iff.mpr hall, List.dropWhile_eq_nil_iff.mpr hall⟩
  have hsome : (whole ++ fraction).isEmpty = false := by
    rw [List.isEmpty_eq_false_iff]
    exact List.append_ne_nil_of_left_ne_nil hne fraction
  unfold mantissa
  rw [hfront.1, hfront.2]
  dsimp only
  rw [hbehind.1, hbehind.2.1, hbehind.2.2, hsome]
  rfl

/-- No special value begins with a digit, and a decimal number does not begin with {lit}`0x`. -/
theorem not_special (hne : whole ≠ []) (hwhole : ∀ c ∈ whole, c.isDigit = true)
    (htail : tail = [] ∨ tail.head? = some '.') :
    ¬ "nan".toList <+: (whole ++ tail).map Char.toLower ∧
      ¬ "inf".toList <+: (whole ++ tail).map Char.toLower ∧
      ¬ "0x".toList <+: (whole ++ tail).map Char.toLower := by
  have hdigit : ∀ c ∈ "0123456789".toList, 'n' ≠ c.toLower ∧ 'i' ≠ c.toLower ∧ 'x' ≠ c.toLower := by
    decide
  cases whole with
  | nil => exact absurd rfl hne
  | cons c whole =>
      rcases hdigit c (mem_digits (hwhole c List.mem_cons_self)) with ⟨hn, hi, -⟩
      refine ⟨fun hstarts => hn ?_, fun hstarts => hi ?_, fun hstarts => ?_⟩
      · exact (List.cons_prefix_cons.mp hstarts).1
      · exact (List.cons_prefix_cons.mp hstarts).1
      · have hsecond : ['x'] <+: (whole ++ tail).map Char.toLower :=
          (List.cons_prefix_cons.mp hstarts).2
        cases whole with
        | nil =>
            rcases htail with rfl | hpoint
            · cases List.prefix_nil.mp hsecond
            · cases tail with
              | nil => cases hpoint
              | cons d tail =>
                  obtain rfl := Option.some.inj hpoint
                  exact absurd (List.cons_prefix_cons.mp hsecond).1 (by decide)
        | cons d whole =>
            have hd := mem_digits (hwhole d (List.mem_cons_of_mem c List.mem_cons_self))
            exact (hdigit d hd).2.2 (List.cons_prefix_cons.mp hsecond).1

/-- A number without sign that begins with digits. -/
theorem unsignedDouble_digits (hne : whole ≠ []) (hwhole : ∀ c ∈ whole, c.isDigit = true)
    (hfraction : ∀ c ∈ fraction, c.isDigit = true)
    (htail : tail = [] ∧ fraction = [] ∨ tail = '.' :: fraction) :
    unsignedDouble (whole ++ tail) =
      .finite (ofDigits 10 (whole ++ fraction) / 10 ^ fraction.length) := by
  have hpoint : tail = [] ∨ tail.head? = some '.' :=
    htail.imp And.left fun hcons => by rw [hcons]; rfl
  rcases not_special hne hwhole hpoint with ⟨hnan, hinf, hhex⟩
  unfold unsignedDouble
  rw [if_neg hnan, if_neg hinf, if_neg (fun hboth => hhex hboth.1),
    mantissa_digits hne hwhole hfraction htail]
  simp [exponent, scale]

/-- A number with a sign. -/
theorem frontNumber_digits (negative : Bool) (hne : whole ≠ [])
    (hwhole : ∀ c ∈ whole, c.isDigit = true) (hfraction : ∀ c ∈ fraction, c.isDigit = true)
    (htail : tail = [] ∧ fraction = [] ∨ tail = '.' :: fraction) :
    frontNumber ((if negative then ['-'] else []) ++ (whole ++ tail)) =
      .finite ((if negative then -1 else 1) *
        (ofDigits 10 (whole ++ fraction) / 10 ^ fraction.length)) := by
  have hread := unsignedDouble_digits hne hwhole hfraction htail
  cases negative with
  | true =>
      have hsign : splitSign (skipSpace ('-' :: (whole ++ tail))) = (true, whole ++ tail) := rfl
      simp only [if_true, List.singleton_append, frontNumber, hsign, hread, negateDouble,
        neg_one_mul]
  | false =>
      have hsign : splitSign (skipSpace (whole ++ tail)) = (false, whole ++ tail) := by
        cases whole with
        | nil => exact absurd rfl hne
        | cons c whole =>
            have hplain : ∀ c ∈ "0123456789".toList, isspace c = false ∧ c ≠ '-' ∧ c ≠ '+' := by
              decide
            rcases hplain c (mem_digits (hwhole c List.mem_cons_self)) with ⟨hspace, hminus, hplus⟩
            rw [List.cons_append, skipSpace_cons_of_not_isspace hspace]
            unfold splitSign
            split
            · next heq => exact absurd (List.cons.inj heq).1 hminus
            · next heq => exact absurd (List.cons.inj heq).1 hplus
            · rfl
      simp only [Bool.false_eq_true, if_false, List.nil_append, frontNumber, hsign, hread,
        one_mul]

end Reading

/-! ## Reading what is printed -/

theorem isDigit_of_mem_toDigits {n : ℕ} {c : Char} (hc : c ∈ Nat.toDigits 10 n) :
    c.isDigit = true :=
  Nat.isDigit_of_mem_toDigits (by decide) (by decide) hc

theorem decimal_eq (n : Int) :
    decimal n = (if decide (n < 0) then ['-'] else []) ++ Nat.toDigits 10 n.natAbs := by
  unfold decimal
  by_cases hneg : n < 0 <;> simp [hneg]

theorem sign_mul_natAbs (n : Int) :
    (if decide (n < 0) then (-1 : ℚ) else 1) * (n.natAbs : ℚ) = n := by
  by_cases hneg : n < 0
  · rw [decide_eq_true hneg, if_pos rfl, neg_one_mul, Nat.cast_natAbs, abs_of_neg hneg,
      Int.cast_neg, neg_neg]
  · rw [decide_eq_false hneg, if_neg Bool.false_ne_true, one_mul, Nat.cast_natAbs,
      abs_of_nonneg (not_lt.mp hneg)]

/-- An integer comes back. -/
theorem atof_decimal {n : Int} (hn : |n| ≤ 2 ^ 53) : atof (decimal n) = .finite n := by
  have hread := @frontNumber_digits (Nat.toDigits 10 n.natAbs) [] [] (decide (n < 0))
    Nat.toDigits_ne_nil (fun c hc => isDigit_of_mem_toDigits hc)
    (fun c hc => absurd hc List.not_mem_nil) (.inl ⟨rfl, rfl⟩)
  rw [List.append_nil, ← decimal_eq, ofDigits_toDigits, List.length_nil, pow_zero, div_one,
    sign_mul_natAbs] at hread
  rw [atof, hread]
  exact CDouble.nearest_intCast hn

/-- An integer comes back if a fraction of zero is printed behind it. -/
theorem atof_decimal_point {n : Int} (hn : |n| ≤ 2 ^ 53) :
    atof (decimal n ++ ".0".toList) = .finite n := by
  have hread := @frontNumber_digits (Nat.toDigits 10 n.natAbs) ['0'] ['.', '0'] (decide (n < 0))
    Nat.toDigits_ne_nil (fun c hc => isDigit_of_mem_toDigits hc) (by decide) (.inr rfl)
  have hvalue : ofDigits 10 (Nat.toDigits 10 n.natAbs ++ ['0']) = n.natAbs * 10 := by
    rw [ofDigits_append, ofDigits_toDigits]
    rfl
  have hcast : ((n.natAbs * 10 : ℕ) : ℚ) / 10 ^ 1 = n.natAbs := by
    push_cast
    ring
  rw [← List.append_assoc, ← decimal_eq, hvalue, List.length_singleton, hcast,
    sign_mul_natAbs] at hread
  exact (congrArg (CDouble.map id) hread).trans (CDouble.nearest_intCast hn)

/-- The value is the double that is nearest to a decimal of so many places, which is right up to
half a unit in the last of them. -/
def CDouble.Near (places : ℕ) : CDouble → CDouble → Prop
  | .finite q, d =>
      ∃ n : ℤ, |n / 10 ^ places - q| * (2 * 10 ^ places) ≤ 1 ∧ d = .nearest (n / 10 ^ places)
  | special, d => d = special

/-- The decimal that {lit}`%.nf` prints for a number without sign. -/
def nearestDecimal (places : ℕ) (q : ℚ) : ℕ :=
  let scaled := q.num.natAbs * 10 ^ places
  let n := scaled / q.den
  let r := scaled % q.den
  if 2 * r < q.den then n else if q.den < 2 * r then n + 1 else n + n % 2

/-- It is the nearest one. -/
theorem nearestDecimal_near (places : ℕ) (q : ℚ) :
    2 * |(nearestDecimal places q : ℤ) * q.den - q.num.natAbs * 10 ^ places| ≤ q.den := by
  have hdiv := Nat.div_add_mod (q.num.natAbs * 10 ^ places) q.den
  have hmod := Nat.mod_lt (q.num.natAbs * 10 ^ places) q.pos
  unfold nearestDecimal
  dsimp only
  generalize hn : q.num.natAbs * 10 ^ places / q.den = n at hdiv
  generalize hr : q.num.natAbs * 10 ^ places % q.den = r at hdiv hmod
  have hscaled : (q.num.natAbs : ℤ) * 10 ^ places = q.den * n + r := by
    exact_mod_cast hdiv.symm
  rw [hscaled]
  split_ifs with hbelow habove
  · rw [show (n : ℤ) * q.den - (q.den * n + r) = -r by ring, abs_neg, Nat.abs_cast]
    omega
  · rw [show ((n + 1 : ℕ) : ℤ) * q.den - (q.den * n + r) = q.den - r by push_cast; ring]
    rw [abs_of_nonneg (by omega)]
    omega
  · rcases Nat.mod_two_eq_zero_or_one n with heven | hodd
    · rw [heven, show ((n + 0 : ℕ) : ℤ) * q.den - (q.den * n + r) = -r by push_cast; ring,
        abs_neg, Nat.abs_cast]
      omega
    · rw [hodd, show ((n + 1 : ℕ) : ℤ) * q.den - (q.den * n + r) = q.den - r by push_cast; ring,
        abs_of_nonneg (by omega)]
      omega

/-- What is printed for a finite number is the nearest decimal. -/
theorem frontNumber_fixedPoint {places : ℕ} (hplaces : 0 < places) (q : ℚ) :
    frontNumber (fixedPoint places (.finite q)) =
      .finite ((if decide (q < 0) then -1 else 1) * (nearestDecimal places q / 10 ^ places)) := by
  have hlast : nearestDecimal places q % 10 ^ places < 10 ^ places :=
    Nat.mod_lt _ (Nat.pow_pos (by decide))
  have hlength := length_padLeft_toDigits hplaces hlast
  have hread := @frontNumber_digits (Nat.toDigits 10 (nearestDecimal places q / 10 ^ places))
    (padLeft '0' places (Nat.toDigits 10 (nearestDecimal places q % 10 ^ places))) _
    (decide (q < 0)) Nat.toDigits_ne_nil (fun c hc => isDigit_of_mem_toDigits hc)
    (fun c hc => isDigit_of_mem_padLeft hc) (.inr rfl)
  have hvalue : nearestDecimal places q / 10 ^ places * 10 ^ places +
      nearestDecimal places q % 10 ^ places = nearestDecimal places q :=
    Nat.div_add_mod' _ _
  rw [ofDigits_append, ofDigits_toDigits, ofDigits_padLeft, ofDigits_toDigits, hlength, hvalue]
    at hread
  rw [← hread]
  unfold fixedPoint nearestDecimal
  simp

/-- The error, as a fraction of the unit in the last place. -/
theorem nearestDecimal_error (places : ℕ) (q : ℚ) :
    |(if decide (q < 0) then -1 else 1) * ((nearestDecimal places q : ℚ) / 10 ^ places) - q| *
      (2 * 10 ^ places) ≤ 1 := by
  let sign : ℚ := if decide (q < 0) then -1 else 1
  have habs : |sign| = 1 := by
    change |(if decide (q < 0) then (-1 : ℚ) else 1)| = 1
    split_ifs <;> simp
  have hq : q = sign * (q.num.natAbs / q.den) := by
    have hsign : sign = if decide (q.num < 0) then (-1 : ℚ) else 1 := by
      simp only [sign, Rat.num_neg]
    rw [← mul_div_assoc, hsign, sign_mul_natAbs, Rat.num_div_den]
  have hden : (0 : ℚ) < q.den := by exact_mod_cast q.pos
  have hpow : (0 : ℚ) < 10 ^ places := by positivity
  have hdifference : sign * ((nearestDecimal places q : ℚ) / 10 ^ places) - q =
      sign * ((nearestDecimal places q * q.den - q.num.natAbs * 10 ^ places) /
        (10 ^ places * q.den)) := by
    calc sign * ((nearestDecimal places q : ℚ) / 10 ^ places) - q
        = sign * ((nearestDecimal places q : ℚ) / 10 ^ places) -
            sign * (q.num.natAbs / q.den) := by rw [← hq]
      _ = _ := by field_simp
  have hnear : (2 : ℚ) *
      |(nearestDecimal places q : ℚ) * q.den - q.num.natAbs * 10 ^ places| ≤ q.den := by
    exact_mod_cast nearestDecimal_near places q
  change |sign * ((nearestDecimal places q : ℚ) / 10 ^ places) - q| * (2 * 10 ^ places) ≤ 1
  rw [hdifference, abs_mul, habs, one_mul, abs_div, abs_of_pos (mul_pos hpow hden),
    div_mul_eq_mul_div, div_le_one (mul_pos hpow hden), mul_left_comm, ← mul_assoc,
    mul_comm _ ((10 : ℚ) ^ places)]
  exact mul_le_mul_of_nonneg_left hnear hpow.le

/-- A measurement comes back as the double nearest to a decimal that is right up to half a unit
in the last place. -/
theorem atof_fixedPoint {places : ℕ} (hplaces : 0 < places) (d : CDouble) :
    d.Near places (atof (fixedPoint places d)) := by
  cases d with
  | finite q =>
      let n : ℤ := (if decide (q < 0) then -1 else 1) * nearestDecimal places q
      have hn : (n : ℚ) / 10 ^ places =
          (if decide (q < 0) then -1 else 1) * ((nearestDecimal places q : ℚ) / 10 ^ places) := by
        rw [← mul_div_assoc]
        simp only [n, Int.cast_mul, Int.cast_ite, Int.cast_neg, Int.cast_one, Int.cast_natCast]
      refine ⟨n, ?_, ?_⟩
      · rw [hn]
        exact nearestDecimal_error places q
      · rw [atof, frontNumber_fixedPoint hplaces, hn]
        rfl
  | posInf =>
      have hread : atof "inf".toList = .posInf := by decide +kernel
      exact hread
  | negInf =>
      have hread : atof "-inf".toList = .negInf := by decide +kernel
      exact hread
  | nan =>
      have hread : atof "nan".toList = .nan := by decide +kernel
      exact hread

end Apcupsd
