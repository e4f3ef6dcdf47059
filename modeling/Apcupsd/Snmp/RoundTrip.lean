import Apcupsd.Snmp.Encoder
import Apcupsd.Snmp.Decoder
import Apcupsd.Foundations.TwosComplement
import Mathlib.Data.Nat.Bitwise
import Mathlib.Tactic.IntervalCases

/-!
# Decoding what has been encoded

Main results:

- Theorem {lit}`parses_demarshalLength`: a length field gives the length back.
- Theorem {lit}`integerOf_integerBytes`: so do the bytes of an integer.
- Theorem {lit}`objectIdOf_objectIdBytes`: so do the octets of an object identifier.
- Theorem {lit}`parses_demarshal`: and the encoding of a tree without empty contents.
- Theorem {lit}`roundTrips_iff`: such trees are the only ones.
-/

namespace Apcupsd
namespace Asn

open ByteCursor Radix TwosComplement

variable {mem : Memory}

/-! ## Bytes -/

theorem toNat_byteOf {n : ℕ} (hn : n < 256) : (byteOf n).toNat = n := by
  simpa [byteOf] using Nat.mod_eq_of_lt hn

/-- The bytes of a number are its digits. -/
theorem toNat_bigEndian (k n : ℕ) : (bigEndian k n).map UInt8.toNat = digits 256 k n := by
  unfold bigEndian
  rw [List.map_map]
  refine (List.map_congr_left fun d hd => ?_).trans (List.map_id _)
  exact toNat_byteOf (digits_lt (by decide) hd)

theorem or_128 {n : ℕ} (hn : n < 128) : n ||| 0x80 = n + 128 := by
  have hor := Nat.two_pow_add_eq_or_of_lt (i := 7) hn 1
  rw [Nat.mul_one] at hor
  calc
    n ||| 2 ^ 7 = 2 ^ 7 ||| n := Nat.or_comm _ _
    _ = 2 ^ 7 + n := hor.symm
    _ = n + 128 := Nat.add_comm _ _

theorem and_127 (n : ℕ) : n &&& 0x7f = n % 128 :=
  Nat.and_two_pow_sub_one_eq_mod n 7

theorem and_128_eq_zero (b : UInt8) : b &&& 0x80 = 0 ↔ b.toNat < 128 := by
  have hlt : b.toNat < 256 := b.toNat_lt
  have hand : (b &&& 0x80).toNat = (b.toNat.testBit 7).toNat * 2 ^ 7 := by
    rw [UInt8.toNat_and]
    exact Nat.and_two_pow b.toNat 7
  rw [← UInt8.toNat_inj, hand, Nat.testBit_eq_decide_div_mod_eq]
  by_cases hsmall : b.toNat < 128
  · simp [hsmall]
    omega
  · simp [hsmall]
    omega

/-! ## Lengths -/

/-- The definite forms of a length: one byte, or the number of bytes and these bytes. -/
inductive LengthField : List UInt8 → ℕ → Prop where
  | short (b : UInt8) (hb : b.toNat < 128) : LengthField [b] b.toNat
  | long (first : UInt8) (bytes : List UInt8) (hbytes : 1 ≤ bytes.length ∧ bytes.length ≤ 126)
      (hfirst : first.toNat = bytes.length + 128) :
      LengthField (first :: bytes) (unsignedValue bytes)

/-- The field that is written for a length. -/
theorem lengthField_lengthBytes {len : ℕ} (hlen : len < 2 ^ 32) :
    LengthField (lengthBytes len) len := by
  have hbits : numbits len ≤ 32 := (numbits_le_iff (by decide)).mpr hlen
  by_cases hshort : numbits len ≤ 7
  · have hsmall : len < 128 := (numbits_le_iff (by decide)).mp hshort
    have hbyte : (byteOf len).toNat = len := toNat_byteOf (by omega)
    have hfield := LengthField.short (byteOf len) (by omega)
    rw [hbyte] at hfield
    simpa [lengthBytes, lengthSize, hshort] using hfield
  · have hlong : (numbits len + 7) / 8 ≠ 0 := by omega
    have hcount : (byteOf ((numbits len + 7) / 8 ||| 0x80)).toNat = (numbits len + 7) / 8 + 128 := by
      rw [or_128 (by omega), toNat_byteOf (by omega)]
    have hvalue : unsignedValue (bigEndian ((numbits len + 7) / 8) len) = len := by
      rw [unsignedValue, toNat_bigEndian]
      exact value_digits (@lt_pow_of_numbits _ 8 _ (by omega))
    have hsize := length_bigEndian ((numbits len + 7) / 8) len
    have hfield := LengthField.long (byteOf ((numbits len + 7) / 8 ||| 0x80))
      (bigEndian ((numbits len + 7) / 8) len) (by omega) (by omega)
    rw [hvalue] at hfield
    simpa [lengthBytes, lengthSize, hshort, hlong] using hfield

/-- A length field gives the length back. -/
theorem LengthField.parses {lenBytes : List UInt8} {len : ℕ} (hfield : LengthField lenBytes len)
    (hlen : len < 2 ^ 32) : Parses mem (demarshalLength mem) lenBytes len := by
  cases hfield with
  | short b hb =>
      change Parses mem (demarshalLength mem) ([b] ++ []) b.toNat
      refine (parses_readByte b).bind ?_
      rw [if_pos hb]
      exact parses_pure b.toNat
  | long first bytes hbytes hfirst =>
      have hword : (shiftAll 8 (0#32) (bytes.map UInt8.toNat)).toNat = unsignedValue bytes := by
        rw [toNat_shiftAll_bytes, BitVec.toNat_zero, Nat.zero_mul, Nat.zero_add,
          Nat.mod_eq_of_lt hlen]
      rw [← List.singleton_append, ← List.append_nil bytes]
      refine (parses_readByte first).bind ?_
      rw [if_neg (by omega), hfirst, Nat.add_sub_cancel]
      refine (parses_readBytes bytes).bind ?_
      rw [hword, List.append_nil]
      exact parses_pure (unsignedValue bytes)

theorem parses_demarshalLength {len : ℕ} (hlen : len < 2 ^ 32) :
    Parses mem (demarshalLength mem) (lengthBytes len) len :=
  (lengthField_lengthBytes hlen).parses hlen

/-- The contents behind their length. -/
theorem parses_demarshalData {least most : ℕ} {bytes : List UInt8} (hleast : least ≤ bytes.length)
    (hmost : bytes.length ≤ most) (hlen : bytes.length < 2 ^ 32) :
    Parses mem (demarshalData mem least most) (lengthBytes bytes.length ++ bytes) bytes := by
  refine (parses_demarshalLength hlen).bind ?_
  rw [if_neg (by omega)]
  exact parses_readBytes bytes

/-! ## Object identifiers -/

theorem toNat_or_128 {d : ℕ} (hd : d < 128) : (byteOf (d ||| 0x80)).toNat = d + 128 := by
  rw [or_128 hd, toNat_byteOf (by omega)]

/-- The octets of one identifier end at the first without bit 7. -/
theorem readArc_octets (arc : Arc) (front : List ℕ) (last : ℕ) (rest : List UInt8)
    (hfront : ∀ d ∈ front, d < 128) (hlast : last < 128) :
    readArc arc (front.map (fun octet => byteOf (octet ||| 0x80)) ++ byteOf last :: rest) =
      (shiftAll 7 arc (front ++ [last]), rest) := by
  induction front generalizing arc with
  | nil =>
      have hbyte : (byteOf last).toNat = last := toNat_byteOf (by omega)
      have hstop : byteOf last &&& 0x80 = 0 := (and_128_eq_zero _).mpr (by omega)
      have hdigit : (byteOf last &&& 0x7f).toNat = last := by
        rw [UInt8.toNat_and, hbyte]
        exact (and_127 last).trans (Nat.mod_eq_of_lt hlast)
      simp [readArc, hstop, hdigit, shiftAll]
  | cons d front ih =>
      have hd : d < 128 := hfront d List.mem_cons_self
      have hbyte := toNat_or_128 hd
      have hmore : byteOf (d ||| 0x80) &&& 0x80 ≠ 0 := fun hzero => by
        have hlt := (and_128_eq_zero _).mp hzero
        omega
      have hdigit : (byteOf (d ||| 0x80) &&& 0x7f).toNat = d := by
        rw [UInt8.toNat_and, hbyte]
        refine (and_127 _).trans ?_
        omega
      have htail := ih (shiftIn 7 arc d) fun e he => hfront e (List.mem_cons_of_mem d he)
      simpa [readArc, hmore, hdigit, shiftAll] using htail

theorem length_octets_pos (val : ℕ) : 0 < (numbits val + 6) / 7 := by
  have hpos := numbits_pos val
  omega

/-- The octets of a number end with the only one that has bit 7 clear. -/
theorem arcBytes_eq (val : ℕ) :
    ∃ front last, digits 128 ((numbits val + 6) / 7) val = front ++ [last] ∧
      arcBytes val = front.map (fun octet => byteOf (octet ||| 0x80)) ++ [byteOf last] := by
  have hne : digits 128 ((numbits val + 6) / 7) val ≠ [] := by
    intro hnil
    have hlen := @length_digits 128 ((numbits val + 6) / 7) val
    have hpos := length_octets_pos val
    rw [hnil, List.length_nil] at hlen
    omega
  rcases List.eq_nil_or_concat (digits 128 ((numbits val + 6) / 7) val) with
    hnil | ⟨front, last, hdigits⟩
  · exact absurd hnil hne
  · rw [List.concat_eq_append] at hdigits
    exact ⟨front, last, hdigits, by simp [arcBytes, hdigits]⟩

/-- The octets of a number give the number back. -/
theorem readArc_arcBytes {val : ℕ} (hval : val < 2 ^ 32) (rest : List UInt8) :
    readArc 0 (arcBytes val ++ rest) = (BitVec.ofNat 32 val, rest) := by
  rcases arcBytes_eq val with ⟨front, last, hdigits, hbytes⟩
  have hlt : ∀ d ∈ front ++ [last], d < 128 := by
    rw [← hdigits]
    exact fun d hd => digits_lt (by decide) hd
  have hvalue : (shiftAll 7 (0#32) (front ++ [last])).toNat = val := by
    rw [← hdigits]
    exact @toNat_shiftAll_digits 32 7 _ _ (lt_pow_of_numbits (by omega)) hval
  have hword : shiftAll 7 (0#32) (front ++ [last]) = BitVec.ofNat 32 val := by
    rw [← hvalue, BitVec.ofNat_toNat, BitVec.setWidth_eq]
  rw [hbytes, List.append_assoc, List.singleton_append, readArc_octets _ _ _ _
    (fun d hd => hlt d (by simp [hd])) (hlt last (by simp)), ← hword]
  rfl

theorem length_arcBytes_pos (val : ℕ) : 0 < (arcBytes val).length := by
  rw [length_arcBytes]
  exact length_octets_pos val

theorem readArcs_flatMap (vals : List ℕ) (hvals : ∀ val ∈ vals, val < 2 ^ 32) (fuel : ℕ)
    (hfuel : vals.length ≤ fuel) :
    readArcs fuel (vals.flatMap arcBytes) = vals.map (BitVec.ofNat 32) := by
  induction vals generalizing fuel with
  | nil => cases fuel <;> simp [readArcs]
  | cons val vals ih =>
      cases fuel with
      | zero => simp at hfuel
      | succ fuel =>
          have hpos := length_arcBytes_pos val
          have hne : arcBytes val ≠ [] := List.ne_nil_of_length_pos hpos
          have hread := readArc_arcBytes (hvals val List.mem_cons_self) (vals.flatMap arcBytes)
          have htail := ih (fun v hv => hvals v (List.mem_cons_of_mem _ hv)) fuel
            (by simpa using hfuel)
          rw [List.flatMap_cons, readArcs, if_neg (by simp [hne]), hread, htail, List.map_cons]

theorem length_flatMap_arcBytes (vals : List ℕ) :
    vals.length ≤ (vals.flatMap arcBytes).length := by
  induction vals with
  | nil => simp
  | cons val vals ih =>
      have hpos := length_arcBytes_pos val
      simp only [List.flatMap_cons, List.length_cons, List.length_append]
      omega

/-- The first two arcs can be told apart again. -/
theorem sdiv_srem_40 {first second : Arc} (hfirst : first.toNat ≤ 2) (hsecond : second.toNat < 40) :
    (first * 40 + second).sdiv 40 = first ∧ (first * 40 + second).srem 40 = second := by
  have hall : ∀ a : Fin 3, ∀ b : Fin 40,
      (BitVec.ofNat 32 a * 40 + BitVec.ofNat 32 b).sdiv 40 = BitVec.ofNat 32 a ∧
        (BitVec.ofNat 32 a * 40 + BitVec.ofNat 32 b).srem 40 = BitVec.ofNat 32 b := by
    decide +kernel
  simpa using hall ⟨first.toNat, by omega⟩ ⟨second.toNat, hsecond⟩

theorem arcValues_lt (value : List Arc) : ∀ val ∈ arcValues value, val < 2 ^ 32 := by
  intro val hval
  rcases value with _ | ⟨first, _ | ⟨second, rest⟩⟩
  · cases hval
  · cases hval
  · simp only [arcValues, List.mem_cons, List.mem_map] at hval
    rcases hval with rfl | ⟨arc, -, rfl⟩
    · exact BitVec.isLt _
    · exact BitVec.isLt _

/-- The octets of an object identifier give its arcs back. -/
theorem objectIdOf_objectIdBytes {first second : Arc} {rest : List Arc}
    (hfirst : first.toNat ≤ 2) (hsecond : second.toNat < 40) :
    objectIdOf (objectIdBytes (first :: second :: rest)) = first :: second :: rest := by
  have hread := readArcs_flatMap _ (arcValues_lt (first :: second :: rest)) _
    (length_flatMap_arcBytes _)
  have hsplit := sdiv_srem_40 hfirst hsecond
  rw [objectIdOf, objectIdBytes, hread]
  have hback : (BitVec.ofNat 32 ∘ BitVec.toNat : Arc → Arc) = id := by
    funext arc
    simp
  simp only [arcValues, List.map_cons, List.map_map, hback, List.map_id, BitVec.ofNat_toNat,
    BitVec.setWidth_eq, hsplit]

/-! ## Integers -/

/-- A mask of the upper bits. -/
def upperBits (k : ℕ) : BitVec 32 := BitVec.allOnes 32 <<< k

theorem getLsbD_upperBits (k i : ℕ) : (upperBits k).getLsbD i = decide (k ≤ i ∧ i < 32) := by
  rw [upperBits, BitVec.getLsbD_shiftLeft, BitVec.getLsbD_allOnes, Bool.eq_iff_iff]
  simp
  omega

theorem and_upperBits_eq_zero (tmp : BitVec 32) (k : ℕ) :
    tmp &&& upperBits k = 0#32 ↔ tmp.toNat < 2 ^ k := by
  constructor
  · intro hzero
    apply Nat.lt_pow_two_of_testBit
    intro i hi
    by_cases hlt : i < 32
    · have hbit : (tmp &&& upperBits k).getLsbD i = (0#32).getLsbD i :=
        congrArg (fun word : BitVec 32 => word.getLsbD i) hzero
      rw [BitVec.getLsbD_and, getLsbD_upperBits] at hbit
      rw [BitVec.testBit_toNat]
      simpa only [hi, hlt, and_self, decide_true, Bool.and_true, BitVec.getLsbD_zero] using hbit
    · exact BitVec.getLsbD_of_ge tmp i (by omega)
  · intro hsmall
    apply BitVec.eq_of_getLsbD_eq
    intro i hi
    rw [BitVec.getLsbD_and, getLsbD_upperBits, BitVec.getLsbD_zero]
    by_cases hlow : i < k
    · simp
      omega
    · have hbit : tmp.getLsbD i = false :=
        Nat.testBit_eq_false_of_lt (hsmall.trans_le (Nat.pow_le_pow_right (by decide) (by omega)))
      simp [hbit]

theorem and_mask_eq_zero (tmp : BitVec 32) :
    tmp &&& 0xff800000#32 = 0#32 ↔ tmp.toNat < 2 ^ 23 :=
  and_upperBits_eq_zero tmp 23

theorem and_msb_eq_zero (tmp : BitVec 32) :
    tmp &&& 0x80000000#32 = 0#32 ↔ tmp.toNat < 2 ^ 31 :=
  and_upperBits_eq_zero tmp 31

theorem and_mask_eq_mask (tmp : BitVec 32) :
    tmp &&& 0xff800000#32 = 0xff800000#32 ↔ 2 ^ 32 - 2 ^ 23 ≤ tmp.toNat := by
  have hnot : tmp &&& 0xff800000#32 = 0xff800000#32 ↔ ~~~tmp &&& 0xff800000#32 = 0#32 := by
    have hbits (i : ℕ) (hi : i < 32) :
        (tmp &&& 0xff800000#32).getLsbD i = (0xff800000#32).getLsbD i ↔
          (~~~tmp &&& 0xff800000#32).getLsbD i = (0#32).getLsbD i := by
      rw [BitVec.getLsbD_and, BitVec.getLsbD_and, BitVec.getLsbD_not, decide_eq_true hi,
        BitVec.getLsbD_zero]
      cases tmp.getLsbD i <;> cases (0xff800000#32).getLsbD i <;> decide
    constructor
    · intro hmask
      apply BitVec.eq_of_getLsbD_eq
      intro i hi
      exact (hbits i hi).mp (congrArg (fun word : BitVec 32 => word.getLsbD i) hmask)
    · intro hzero
      apply BitVec.eq_of_getLsbD_eq
      intro i hi
      exact (hbits i hi).mpr (congrArg (fun word : BitVec 32 => word.getLsbD i) hzero)
  rw [hnot, and_mask_eq_zero, BitVec.toNat_not]
  have hlt := tmp.isLt
  omega

theorem integerLoop_unsigned (datalen : ℕ) (tmp : BitVec 32) :
    integerLoop false (datalen + 2) tmp =
      if tmp.toNat < 2 ^ 23 then integerLoop false (datalen + 1) (tmp <<< 8)
      else (datalen + 2, tmp) := by
  have hmask := and_mask_eq_zero tmp
  by_cases hsmall : tmp.toNat < 2 ^ 23
  · rw [if_pos hsmall]
    simp [integerLoop, hmask.mpr hsmall]
  · rw [if_neg hsmall]
    rw [← hmask] at hsmall
    simp [integerLoop, hsmall]

theorem integerLoop_signed (datalen : ℕ) (tmp : BitVec 32) :
    integerLoop true (datalen + 2) tmp =
      if 2 ^ 32 - 2 ^ 23 ≤ tmp.toNat then integerLoop true (datalen + 1) (tmp <<< 8)
      else (datalen + 2, tmp) := by
  have hmask := and_mask_eq_mask tmp
  by_cases hlarge : 2 ^ 32 - 2 ^ 23 ≤ tmp.toNat
  · rw [if_pos hlarge]
    simp [integerLoop, hmask.mpr hlarge]
  · rw [if_neg hlarge]
    rw [← hmask] at hlarge
    simp [integerLoop, hlarge]

theorem toNat_shiftLeft_8 (tmp : BitVec 32) : (tmp <<< 8).toNat = tmp.toNat * 256 % 2 ^ 32 := by
  rw [BitVec.toNat_shiftLeft, Nat.shiftLeft_eq]

/-- The loop leaves room for the sign: every byte that it drops was empty. -/
theorem integerLoop_nonneg (datalen : ℕ) (tmp : BitVec 32) (htmp : tmp.toNat < 2 ^ 31) :
    ∃ k ≤ datalen, (integerLoop false (datalen + 1) tmp).1 = k + 1 ∧
      (integerLoop false (datalen + 1) tmp).2.toNat < 2 ^ 31 ∧
      tmp.toNat * 256 ^ (datalen - k) < 2 ^ 31 := by
  induction datalen generalizing tmp with
  | zero => exact ⟨0, le_rfl, rfl, htmp, by simpa using htmp⟩
  | succ datalen ih =>
      rw [integerLoop_unsigned]
      by_cases hsmall : tmp.toNat < 2 ^ 23
      · have hshift : (tmp <<< 8).toNat = tmp.toNat * 256 := by
          rw [toNat_shiftLeft_8]
          omega
        rcases ih (tmp <<< 8) (by omega) with ⟨k, hk, hlen, hlast, hbound⟩
        rw [if_pos hsmall]
        refine ⟨k, by omega, hlen, hlast, ?_⟩
        rw [hshift, Nat.mul_assoc, ← Nat.pow_succ'] at hbound
        rwa [show datalen + 1 - k = datalen - k + 1 by omega]
      · rw [if_neg hsmall]
        exact ⟨datalen + 1, le_rfl, rfl, htmp, by simpa using htmp⟩

theorem integerLoop_negative (datalen : ℕ) (tmp : BitVec 32) (htmp : 2 ^ 31 ≤ tmp.toNat) :
    ∃ k ≤ datalen, (integerLoop true (datalen + 1) tmp).1 = k + 1 ∧
      (2 ^ 32 - tmp.toNat) * 256 ^ (datalen - k) ≤ 2 ^ 31 := by
  induction datalen generalizing tmp with
  | zero =>
      refine ⟨0, le_rfl, rfl, ?_⟩
      simp
      omega
  | succ datalen ih =>
      rw [integerLoop_signed]
      have hlt := tmp.isLt
      by_cases hlarge : 2 ^ 32 - 2 ^ 23 ≤ tmp.toNat
      · have hshift : 2 ^ 32 - (tmp <<< 8).toNat = (2 ^ 32 - tmp.toNat) * 256 := by
          rw [toNat_shiftLeft_8]
          omega
        rcases ih (tmp <<< 8) (by omega) with ⟨k, hk, hlen, hbound⟩
        rw [if_pos hlarge]
        refine ⟨k, by omega, hlen, ?_⟩
        rw [hshift, Nat.mul_assoc, ← Nat.pow_succ'] at hbound
        rwa [show datalen + 1 - k = datalen - k + 1 by omega]
      · rw [if_neg hlarge]
        refine ⟨datalen + 1, le_rfl, rfl, ?_⟩
        simp
        omega

/-- The number of bytes leaves room for the sign of a non-negative number. -/
theorem integerSize_nonneg {value : BitVec 32} (hvalue : value.toNat < 2 ^ 31) :
    ∃ k ≤ 3, integerSize value false = k + 1 ∧ value.toNat * 256 ^ (3 - k) < 2 ^ 31 := by
  rcases integerLoop_nonneg 3 value hvalue with ⟨k, hk, hlen, hlast, hbound⟩
  refine ⟨k, hk, ?_, hbound⟩
  rcases hloop : integerLoop false 4 value with ⟨datalen, tmp⟩
  rw [hloop] at hlen hlast
  simpa [integerSize, hloop, (and_msb_eq_zero tmp).mpr hlast] using hlen

theorem integerSize_negative {value : BitVec 32} (hvalue : 2 ^ 31 ≤ value.toNat) :
    ∃ k ≤ 3, integerSize value true = k + 1 ∧ (2 ^ 32 - value.toNat) * 256 ^ (3 - k) ≤ 2 ^ 31 := by
  rcases integerLoop_negative 3 value hvalue with ⟨k, hk, hlen, hbound⟩
  refine ⟨k, hk, ?_, hbound⟩
  rcases hloop : integerLoop true 4 value with ⟨datalen, tmp⟩
  rw [hloop] at hlen
  simpa [integerSize, hloop] using hlen

theorem slt_zero (value : BitVec 32) : value.slt 0 = decide (2 ^ 31 ≤ value.toNat) := by
  exact (BitVec.slt_zero_eq_msb (x := value)).trans (BitVec.msb_eq_decide value)

/-- The first byte tells the sign. -/
theorem headD_bigEndian (k n : ℕ) :
    ((bigEndian (k + 1) n).headD 0).toNat = n / 256 ^ k % 256 := by
  have hlt : n / 256 ^ k % 256 < 256 := Nat.mod_lt _ (by decide)
  simp only [bigEndian, digits, List.map_cons, List.headD_cons]
  exact toNat_byteOf hlt

/-- The value of some bytes that are shifted in. -/
theorem shiftAll_bigEndian (word : BitVec 32) (k n : ℕ) :
    (shiftAll 8 word ((bigEndian k n).map UInt8.toNat)).toNat =
      (word.toNat * 256 ^ k + n % 256 ^ k) % 2 ^ 32 := by
  have hshift := @toNat_shiftAll 32 8 word (digits 256 k n) fun d hd => digits_lt (by decide) hd
  rw [length_digits] at hshift
  rw [toNat_bigEndian]
  exact hshift.trans (congrArg (fun m => (word.toNat * 256 ^ k + m) % 2 ^ 32)
    (value_digits_mod k n))

/-- The bytes of an integer give it back. -/
theorem integerOf_integerBytes (value : BitVec 32) :
    integerOf integerId (integerBytes value (value.slt 0)) = Obj.ofInt value := by
  have hlt := value.isLt
  rw [Obj.ofInt, slt_zero]
  by_cases hneg : 2 ^ 31 ≤ value.toNat
  · rcases integerSize_negative hneg with ⟨k, hk, hsize, hbound⟩
    have hfirst : (integerBytes value true).headD 0 &&& 0x80 ≠ 0 := by
      rw [Ne, and_128_eq_zero, integerBytes, hsize, headD_bigEndian]
      interval_cases k <;> omega
    have hvalue : shiftAll 8 (BitVec.allOnes 32) ((integerBytes value true).map UInt8.toNat) =
        value := by
      apply BitVec.eq_of_toNat_eq
      rw [integerBytes, hsize, shiftAll_bigEndian, BitVec.toNat_allOnes]
      interval_cases k <;> omega
    rw [decide_eq_true hneg, integerOf, if_pos hfirst, hvalue]
  · rcases integerSize_nonneg (Nat.not_le.mp hneg) with ⟨k, hk, hsize, hbound⟩
    have hfirst : ¬ (integerBytes value false).headD 0 &&& 0x80 ≠ 0 := by
      rw [not_not, and_128_eq_zero, integerBytes, hsize, headD_bigEndian]
      interval_cases k <;> omega
    have hvalue : shiftAll 8 (0#32) ((integerBytes value false).map UInt8.toNat) = value := by
      apply BitVec.eq_of_toNat_eq
      rw [integerBytes, hsize, shiftAll_bigEndian, BitVec.toNat_zero]
      interval_cases k <;> omega
    rw [decide_eq_false hneg, integerOf, if_neg hfirst, hvalue]

/-! ## Trees -/

/-- The trees that a program builds: integers from an {lit}`int`, object identifiers with the two
arcs that are combined, and sequences of a type that the decoder knows. -/
inductive Built : Obj → Prop where
  | integer (value : BitVec 32) : Built (.ofInt value)
  | octetString (data : List UInt8) : Built (.octetString data)
  | objectId (first second : Arc) (rest : List Arc) (hfirst : first.toNat ≤ 2)
      (hsecond : second.toNat < 40) : Built (.objectId (first :: second :: rest))
  | null : Built .null
  | sequence (type : Identifier) (data : List Obj) (htype : classOf type = some .sequence)
      (hdata : ∀ obj ∈ data, Built obj) : Built (.sequence type data)

mutual

/-- No string and no sequence of a tree is empty. -/
def filled : Obj → Bool
  | .octetString data => !data.isEmpty
  | .sequence _ data => !data.isEmpty && filledAll data
  | _ => true

def filledAll : List Obj → Bool
  | [] => true
  | obj :: data => filled obj && filledAll data

end

theorem integerSize_bounds (value : BitVec 32) :
    1 ≤ integerSize value (value.slt 0) ∧ integerSize value (value.slt 0) ≤ 4 := by
  rw [slt_zero]
  by_cases hneg : 2 ^ 31 ≤ value.toNat
  · rcases integerSize_negative hneg with ⟨k, hk, hsize, -⟩
    rw [decide_eq_true hneg]
    omega
  · rcases integerSize_nonneg (Nat.not_le.mp hneg) with ⟨k, hk, hsize, -⟩
    rw [decide_eq_false hneg]
    omega

theorem length_encode_pos (obj : Obj) : 0 < (encode obj).length := by
  cases obj <;> simp [encode, framed]

theorem length_encodeAll_pos {data : List Obj} (hdata : data ≠ []) :
    0 < (encodeAll data).length := by
  cases data with
  | nil => exact absurd rfl hdata
  | cons obj data =>
      have hpos := length_encode_pos obj
      simp only [encodeAll, List.length_append]
      omega

theorem length_objectIdBytes_pos (first second : Arc) (rest : List Arc) :
    0 < (objectIdBytes (first :: second :: rest)).length := by
  have hle := length_flatMap_arcBytes (arcValues (first :: second :: rest))
  simp only [arcValues, List.length_cons] at hle
  unfold objectIdBytes
  simp only [arcValues]
  omega

/-- An object with contents, read from its type byte on. -/
theorem parses_frame {items : Reader (List Obj)} {type : Identifier} {contents : List UInt8}
    {obj : Obj} (hobj : Parses mem (demarshalAs mem items type)
      (lengthBytes contents.length ++ contents) obj) :
    Parses mem ((readByte mem).bind (demarshalAs mem items)) (frame type contents) obj :=
  (parses_readByte type).bind hobj

/-- Contents that are read at once. -/
theorem parses_contents {least most : ℕ} {contents : List UInt8} (make : List UInt8 → Obj)
    (hleast : least ≤ contents.length) (hmost : contents.length ≤ most)
    (hlen : contents.length < 2 ^ 32) :
    Parses mem (Reader.construct ((demarshalData mem least most).bind fun bytes =>
      Reader.pure (make bytes))) (lengthBytes contents.length ++ contents) (make contents) := by
  have hdata : Parses mem ((demarshalData mem least most).bind fun bytes =>
      Reader.pure (make bytes)) ((lengthBytes contents.length ++ contents) ++ [])
      (make contents) :=
    (parses_demarshalData hleast hmost hlen).bind (parses_pure (make contents))
  rw [List.append_nil] at hdata
  exact hdata.construct

theorem parses_null {items : Reader (List Obj)} :
    Parses mem (demarshalAs mem items nullId) (lengthBytes 0 ++ []) .null := by
  have hlength : Parses mem (demarshalLength mem) (lengthBytes 0) 0 :=
    parses_demarshalLength (by decide)
  exact (hlength.bind (parses_pure Obj.null)).construct

/-- The items of a sequence are all that its contents hold. -/
theorem parses_items {items : Reader (List Obj)} {type : Identifier} {contents : List UInt8}
    {data : List Obj} (htype : classOf type = some .sequence) (hpos : 0 < contents.length)
    (hlen : contents.length < 2 ^ 32) (hitems : ParsesAll mem items contents data) :
    Parses mem (demarshalAs mem items type) (lengthBytes contents.length ++ contents)
      (.sequence type data) := by
  have hparse : Parses mem (fun c =>
      if contents.length < 1 ∨ c.buflen < contents.length then Reader.fail c
      else (items.inside contents.length).bind (fun data => Reader.pure (.sequence type data)) c)
      (contents ++ []) (Obj.sequence type data) := by
    intro c hholds hroom
    rw [List.append_nil] at hroom
    dsimp only
    rw [if_neg (by omega)]
    have hinside : Parses mem ((items.inside contents.length).bind fun data =>
        Reader.pure (Obj.sequence type data)) (contents ++ []) (Obj.sequence type data) :=
      hitems.inside.bind (parses_pure (Obj.sequence type data))
    exact hinside c hholds (by simpa using hroom)
  rw [List.append_nil] at hparse
  unfold demarshalAs
  rw [htype]
  exact ((parses_demarshalLength hlen).bind hparse).construct

mutual

/-- The encoding of a tree without empty contents gives the tree back. -/
theorem parses_demarshal (obj : Obj) (hbuilt : Built obj) (hfilled : filled obj)
    (hlen : (encode obj).length < 2 ^ 32) (fuel : ℕ)
    (hfuel : 2 * (encode obj).length + 1 ≤ fuel) :
    Parses mem (demarshal mem fuel) (encode obj) obj := by
  cases fuel with
  | zero => omega
  | succ fuel =>
      cases hbuilt with
      | integer value =>
          have hsize : 1 ≤ (integerBytes value (value.slt 0)).length ∧
              (integerBytes value (value.slt 0)).length ≤ 4 := by
            rw [length_integerBytes]
            exact integerSize_bounds value
          have hcontents := @parses_contents mem _ _ _ (integerOf integerId) hsize.1 hsize.2
            (by omega)
          rw [integerOf_integerBytes] at hcontents
          exact parses_frame hcontents
      | octetString data =>
          simp only [encode, length_frame, framed] at hlen
          simp [filled, ← List.length_pos_iff] at hfilled
          exact parses_frame (parses_contents .octetString hfilled (by unfold uintMax; omega)
            (by omega))
      | objectId first second rest hfirst hsecond =>
          simp only [encode, length_frame, framed] at hlen
          have hpos := length_objectIdBytes_pos first second rest
          have hmost : (objectIdBytes (first :: second :: rest)).length ≤ uintMax := by
            unfold uintMax
            omega
          have hcontents := @parses_contents mem _ _ _ (fun bytes => .objectId (objectIdOf bytes))
            hpos hmost (by omega)
          rw [objectIdOf_objectIdBytes hfirst hsecond] at hcontents
          exact parses_frame hcontents
      | null => exact parses_frame parses_null
      | sequence type data htype hdata =>
          simp only [encode, length_frame, framed] at hlen hfuel
          simp [filled] at hfilled
          have hpos := length_encodeAll_pos hfilled.1
          exact parses_frame (parses_items htype hpos (by omega)
            (parsesAll_demarshalAll data hdata hfilled.2 (by omega) fuel (by omega)))

theorem parsesAll_demarshalAll (data : List Obj) (hbuilt : ∀ obj ∈ data, Built obj)
    (hfilled : filledAll data) (hlen : (encodeAll data).length < 2 ^ 32) (fuel : ℕ)
    (hfuel : 2 * (encodeAll data).length + 2 ≤ fuel) :
    ParsesAll mem (demarshalAll mem fuel) (encodeAll data) data := by
  intro c hholds hbuflen
  cases fuel with
  | zero => omega
  | succ fuel =>
      cases data with
      | nil =>
          have hempty : c.buflen = 0 := by simpa [encodeAll] using hbuflen
          exact ⟨c, by simp [demarshalAll, hempty], by simp [encodeAll]⟩
      | cons obj data =>
          simp only [encodeAll, List.length_append] at hholds hbuflen hlen hfuel ⊢
          simp [filledAll] at hfilled
          have hpos := length_encode_pos obj
          rcases holds_append.mp hholds with ⟨hhead, htail⟩
          rcases parses_demarshal obj (hbuilt obj List.mem_cons_self) hfilled.1 (by omega) fuel
            (by omega) c hhead (by omega) with ⟨middle, hrun, hbuffer, hleft⟩
          rcases parsesAll_demarshalAll data (fun o ho => hbuilt o (List.mem_cons_of_mem _ ho))
            hfilled.2 (by omega) fuel (by omega) middle (hbuffer ▸ htail) (by omega) with
            ⟨after, hrun', hbuffer'⟩
          refine ⟨after, ?_, by omega⟩
          have hne : c.buflen ≠ 0 := by omega
          simp [demarshalAll, hne, Reader.bind, hrun, keepItem, hrun']

end

/-! ## What the decoder does not return -/

theorem le_length_of_demarshalData {least most : ℕ} {c : Cursor} {bytes : List UInt8}
    (hbytes : (demarshalData mem least most c).1 = .ok bytes) : least ≤ bytes.length := by
  rcases bind_eq_ok hbytes with ⟨datalen, middle, -, hread⟩
  split_ifs at hread with hsize
  · cases hread
  · rw [length_of_readBytes hread]
    omega

theorem keepItem_eq_ok {items : Reader (List Obj)} {obj : Obj} {c : Cursor} {data : List Obj}
    (hdata : (keepItem obj items c).1 = .ok data) :
    ∃ tail, (items c).1 = .ok tail ∧ data = obj :: tail := by
  unfold keepItem at hdata
  rcases hrun : items c with ⟨stop | tail, after⟩
  · rw [hrun] at hdata
    cases hdata
  · rw [hrun] at hdata
    exact ⟨tail, rfl, (Except.ok.inj hdata).symm⟩

/-- The trees that the decoder returns: the type of a leaf is one of its class, and no string and
no sequence is empty. -/
inductive Decoded : Obj → Prop where
  | integer (type : Identifier) (value : BitVec 32) (signed : Bool)
      (htype : classOf type = some .integer) : Decoded (.integer type value signed)
  | octetString (data : List UInt8) (hdata : data ≠ []) : Decoded (.octetString data)
  | objectId (value : List Arc) : Decoded (.objectId value)
  | null : Decoded .null
  | sequence (type : Identifier) (data : List Obj) (htype : classOf type = some .sequence)
      (hne : data ≠ []) (hdata : ∀ obj ∈ data, Decoded obj) : Decoded (.sequence type data)

/-- An object is as the decoder returns it if the items that are read for it are. -/
theorem decoded_demarshalAs {items : Reader (List Obj)} {type : Identifier} {c : Cursor} {obj : Obj}
    (hitems : ∀ part data, (items part).1 = .ok data →
      (∀ obj ∈ data, Decoded obj) ∧ (part.buflen ≠ 0 → data ≠ []))
    (hobj : (demarshalAs mem items type c).1 = .ok obj) : Decoded obj := by
  unfold demarshalAs at hobj
  rcases hclass : classOf type with _ | objClass
  · rw [hclass] at hobj
    cases hobj
  · rw [hclass] at hobj
    cases objClass with
    | integer =>
        rcases bind_eq_ok (construct_eq_ok hobj) with ⟨bytes, middle, -, hmake⟩
        obtain rfl := Except.ok.inj hmake
        unfold integerOf
        split_ifs
        · exact .integer _ _ _ hclass
        · exact .integer _ _ _ hclass
    | octetString =>
        rcases bind_eq_ok (construct_eq_ok hobj) with ⟨bytes, middle, hdata, hmake⟩
        have hlen := le_length_of_demarshalData (congrArg Prod.fst hdata)
        obtain rfl := Except.ok.inj hmake
        exact .octetString _ (List.length_pos_iff.mp hlen)
    | objectId =>
        rcases bind_eq_ok (construct_eq_ok hobj) with ⟨bytes, middle, -, hmake⟩
        obtain rfl := Except.ok.inj hmake
        exact .objectId _
    | null =>
        rcases bind_eq_ok (construct_eq_ok hobj) with ⟨datalen, middle, -, hmake⟩
        split_ifs at hmake
        · obtain rfl := Except.ok.inj hmake
          exact .null
        · cases hmake
    | sequence =>
        rcases bind_eq_ok (construct_eq_ok hobj) with ⟨datalen, middle, -, hitem⟩
        split_ifs at hitem with hsize
        · cases hitem
        · rcases bind_eq_ok hitem with ⟨data, after, hdata, hmake⟩
          have hall := hitems _ data (inside_eq_ok (congrArg Prod.fst hdata))
          obtain rfl := Except.ok.inj hmake
          have hne : data ≠ [] := hall.2 (by dsimp only; omega)
          exact .sequence _ _ hclass hne hall.1

/-- What the decoder returns. -/
theorem decoded_demarshal (fuel : ℕ) (c : Cursor) :
    (∀ obj, (demarshal mem fuel c).1 = .ok obj → Decoded obj) ∧
      ∀ data, (demarshalAll mem fuel c).1 = .ok data →
        (∀ obj ∈ data, Decoded obj) ∧ (c.buflen ≠ 0 → data ≠ []) := by
  induction fuel generalizing c with
  | zero =>
      constructor
      · intro obj hobj
        cases hobj
      · intro data hdata
        by_cases hempty : c.buflen = 0
        · simp [demarshalAll, hempty] at hdata
          simp [hdata, hempty]
        · simp [demarshalAll, hempty] at hdata
  | succ fuel ih =>
      constructor
      · intro obj hobj
        rcases bind_eq_ok hobj with ⟨type, middle, -, hobj'⟩
        exact decoded_demarshalAs (fun part data hdata => (ih part).2 data hdata) hobj'
      · intro data hdata
        by_cases hempty : c.buflen = 0
        · simp [demarshalAll, hempty] at hdata
          simp [hdata, hempty]
        · simp only [demarshalAll, if_neg hempty] at hdata
          rcases bind_eq_ok hdata with ⟨obj, middle, hobj, hrest⟩
          have hhead := (ih c).1 obj (congrArg Prod.fst hobj)
          rcases keepItem_eq_ok hrest with ⟨tail, htail, rfl⟩
          have hall := (ih middle).2 tail htail
          simpa [hhead] using hall.1

mutual

/-- The decoder returns no tree with an empty string or an empty sequence. -/
theorem filled_of_decoded (obj : Obj) (hdecoded : Decoded obj) : filled obj := by
  cases hdecoded with
  | octetString data hdata => simp [filled, hdata]
  | sequence type data _ hne hdata => simp [filled, hne, filledAll_of_decoded data hdata]
  | _ => rfl

theorem filledAll_of_decoded (data : List Obj) (hdata : ∀ obj ∈ data, Decoded obj) :
    filledAll data := by
  cases data with
  | nil => rfl
  | cons obj data =>
      have hhead := filled_of_decoded obj (hdata obj List.mem_cons_self)
      have htail := filledAll_of_decoded data fun o ho => hdata o (List.mem_cons_of_mem _ ho)
      simp [filledAll, hhead, htail]

end

/-! ## When decoding undoes encoding -/

/-- {lit}`Demarshal` on what {lit}`Marshal` has produced in any buffer that it respected, with any
bytes behind it. -/
def RoundTrips (obj : Obj) : Prop :=
  ∀ (buflen : UInt32) (out : Out) (rest : List UInt8) (mem : Memory) (c : Cursor),
    marshal obj ⟨[], buflen.toNat⟩ = (true, out) → out.written.length ≤ buflen.toNat →
    Holds mem c.buffer (out.written ++ rest) → c.buflen = (out.written ++ rest).length →
    ∃ after, demarshalObject mem c = (.ok obj, after) ∧
      after.buffer = c.buffer + out.written.length ∧ after.buflen = rest.length

mutual

theorem encodable_of_built (obj : Obj) (hbuilt : Built obj) : encodable obj := by
  cases hbuilt with
  | objectId first second rest => simp [encodable]
  | sequence type data _ hdata =>
      rw [encodable]
      exact encodableAll_of_built data hdata
  | _ => rfl

theorem encodableAll_of_built (data : List Obj) (hbuilt : ∀ obj ∈ data, Built obj) :
    encodableAll data := by
  cases data with
  | nil => rfl
  | cons obj data =>
      have hhead := encodable_of_built obj (hbuilt obj List.mem_cons_self)
      have htail := encodableAll_of_built data fun o ho => hbuilt o (List.mem_cons_of_mem _ ho)
      simp [encodableAll, hhead, htail]

end

/-- Decoding undoes encoding exactly if no string and no sequence is empty, for every tree that
fits a buffer at all. -/
theorem roundTrips_iff (obj : Obj) (hbuilt : Built obj) :
    RoundTrips obj ↔ (filled obj ∨ 2 ^ 32 ≤ (encode obj).length) := by
  have hvalid := encodable_of_built obj hbuilt
  constructor
  · intro htrips
    by_cases hlarge : 2 ^ 32 ≤ (encode obj).length
    · exact Or.inr hlarge
    · left
      have hbuflen : (UInt32.ofNat (encode obj).length).toNat = (encode obj).length :=
        Nat.mod_eq_of_lt (Nat.not_le.mp hlarge)
      rcases marshal_of_fits hvalid hbuflen.ge with ⟨hdone, hwritten⟩
      rcases hrun : marshal obj ⟨[], (UInt32.ofNat (encode obj).length).toNat⟩ with ⟨done, out⟩
      rw [hrun] at hdone hwritten
      dsimp only at hdone hwritten
      rcases htrips (UInt32.ofNat (encode obj).length) out []
        (memoryOf ([] ++ (encode obj ++ []))) ⟨0, (encode obj).length, [], 0⟩
        (hrun.trans (by rw [hdone])) (by rw [hwritten, hbuflen])
        (by simpa [hwritten] using holds_memoryOf_append [] (encode obj) []) (by simp [hwritten])
        with ⟨after, hdemarshal, -⟩
      exact filled_of_decoded obj ((decoded_demarshal _ _).1 obj (congrArg Prod.fst hdemarshal))
  · intro hcase buflen out rest mem c hrun hroom hholds hbuflen
    have hmax : buflen.toNat < 2 ^ 32 := buflen.toNat_lt
    have hwritten := written_of_marshal hvalid (congrArg Prod.fst hrun)
    rw [hrun] at hwritten
    dsimp only at hwritten
    have hencode : out.written = encode obj ∧ (encode obj).length < 2 ^ 32 := by
      rcases output_writes obj hvalid with heq | ⟨-, hlarge⟩
      · rw [heq] at hwritten
        exact ⟨hwritten, by rw [← hwritten]; omega⟩
      · rw [← hwritten] at hlarge
        omega
    rcases hcase with hfilled | hlarge
    · rw [hencode.1, List.length_append] at hbuflen
      rw [hencode.1] at hholds ⊢
      rcases parses_demarshal obj hbuilt hfilled hencode.2 (enoughFuel c.buflen)
        (by unfold enoughFuel; omega) c (holds_append.mp hholds).1 (by omega) with
        ⟨after, hdemarshal, hbuffer, hleft⟩
      exact ⟨after, hdemarshal, hbuffer, by omega⟩
    · omega

/-! ## Examples of runs -/

example : demarshalObject (memoryOf [0x30, 0x03, 0x02, 0x01, 0x05]) ⟨0, 5, [], 0⟩ =
    (.ok (.sequence sequenceId [.ofInt 5]), ⟨5, 0, [4, 3, 2, 1, 0], 2⟩) := by
  rfl

/-- A list of two bindings. -/
def twoBindings : Obj :=
  .sequence sequenceId
    [.sequence sequenceId [.objectId [1, 3, 6, 1], .octetString [97]],
      .sequence sequenceId [.objectId [1, 3, 6, 2], .sequence getReqPdu [.ofInt (-5), .null]]]

theorem built_twoBindings : Built twoBindings := by
  have hname (last : Arc) : Built (.objectId [1, 3, 6, last]) :=
    .objectId 1 3 [6, last] (by decide) (by decide)
  have hvalue : Built (.sequence getReqPdu [.ofInt (-5), .null]) :=
    .sequence getReqPdu _ rfl (by simpa using ⟨Built.integer _, Built.null⟩)
  exact .sequence sequenceId _ rfl (by
    simpa using ⟨Built.sequence sequenceId _ rfl (by simpa using ⟨hname 1, .octetString [97]⟩),
      Built.sequence sequenceId _ rfl (by simpa using ⟨hname 2, hvalue⟩)⟩)

theorem roundTrips_iff_twoBindings : RoundTrips twoBindings :=
  (roundTrips_iff twoBindings built_twoBindings).mpr (Or.inl (by decide))

/-- The encoding of an empty string is refused. -/
theorem emptyString_not_roundTrips :
    Built (.octetString []) ∧ ¬ RoundTrips (.octetString []) := by
  refine ⟨.octetString [], fun htrips => ?_⟩
  rcases htrips 2 ⟨[0x04, 0x00], 1⟩ [] (memoryOf [0x04, 0x00]) ⟨0, 2, [], 0⟩ (by rfl) (by decide)
    (by rfl) (by rfl) with ⟨after, hdemarshal, -⟩
  have hfail : (demarshalObject (memoryOf [0x04, 0x00]) ⟨0, 2, [], 0⟩).1 = .error .malformed := by
    rfl
  rw [hdemarshal] at hfail
  cases hfail

end Asn
end Apcupsd
