import Apcupsd.Snmp.RoundTrip

/-!
# Integers on the wire

{lit}`Integer::Marshal` and {lit}`Integer::demarshal` against the rules for an integer in BER:
two's complement in the fewest bytes, behind a length field.

Main results:

- Theorem {lit}`shortest_contents`: what is written is the shortest form of the value.
- Theorem {lit}`integerOf_eq`: what is read is a word filled up with the sign of the bytes.
- Theorem {lit}`exact_iff`: the decoder refuses the unsigned values with the top bit set, and
  recovers every other one.
-/

namespace Apcupsd
namespace Asn

open ByteCursor Radix TwosComplement

variable {mem : Memory}

/-! ## Integers in BER -/

/-- The types of an integer. -/
inductive IntTag where
  | integer | counter | gauge | timeTicks
deriving DecidableEq

def IntTag.id : IntTag → Identifier
  | .integer => integerId
  | .counter => counterId
  | .gauge => gaugeId
  | .timeTicks => timeTicksId

/-- {lit}`IntValue()` for the signed type, {lit}`UintValue()` for the others. -/
def IntTag.read (tag : IntTag) (value : BitVec 32) : ℤ :=
  if tag = .integer then value.toInt else value.toNat

/-- The object that holds a value: {lit}`Integer(int)`, or an unsigned assignment. -/
def IntTag.obj (tag : IntTag) (value : BitVec 32) : Obj :=
  if tag = .integer then Obj.ofInt value else .integer tag.id value false

/-- Some bytes are the encoding of a number: a type, a length field, and its shortest
form. -/
def Ber (type : Identifier) (bytes : List UInt8) (n : ℤ) : Prop :=
  ∃ lenBytes contents, bytes = type :: (lenBytes ++ contents) ∧
    LengthField lenBytes contents.length ∧ Shortest contents ∧ signedValue contents = n

/-- {lit}`Marshal` writes the encoding of a value, into every buffer with room for it. -/
def Emits (tag : IntTag) (value : BitVec 32) : Prop :=
  ∃ bytes, Ber tag.id bytes (tag.read value) ∧
    ∀ buflen : UInt32,
      (bytes.length ≤ buflen.toNat → (marshal (tag.obj value) ⟨[], buflen.toNat⟩).1 = true) ∧
      ((marshal (tag.obj value) ⟨[], buflen.toNat⟩).1 = true →
        (marshal (tag.obj value) ⟨[], buflen.toNat⟩).2.written = bytes)

/-- {lit}`demarshal` recovers a value from every encoding of it, with any bytes behind it. -/
def Recovers (tag : IntTag) (value : BitVec 32) : Prop :=
  ∀ (mem : Memory) (c : Cursor) (bytes : List UInt8), Ber tag.id bytes (tag.read value) →
    Holds mem c.buffer bytes → bytes.length ≤ c.buflen →
    ∃ word signed after, demarshalObject mem c = (.ok (.integer tag.id word signed), after) ∧
      tag.read word = tag.read value ∧ after.buffer = c.buffer + bytes.length ∧
      after.buflen = c.buflen - bytes.length

/-! ## What is written -/

/-- The loop stops at the first byte that does not only repeat the sign. -/
theorem integerLoop_nonneg_stops (datalen : ℕ) (tmp : BitVec 32) (htmp : tmp.toNat < 2 ^ 31)
    {k : ℕ} (hk : (integerLoop false (datalen + 1) tmp).1 = k + 2) :
    2 ^ 23 ≤ tmp.toNat * 256 ^ (datalen - (k + 1)) := by
  induction datalen generalizing tmp with
  | zero => simp [integerLoop] at hk
  | succ datalen ih =>
      rw [integerLoop_unsigned] at hk
      split_ifs at hk with hsmall
      · have hshift : (tmp <<< 8).toNat = tmp.toNat * 256 := by
          rw [toNat_shiftLeft_8]
          omega
        rcases integerLoop_nonneg datalen (tmp <<< 8) (by omega) with ⟨j, hj, hlen, -⟩
        have hbound := ih (tmp <<< 8) (by omega) hk
        rw [hshift, Nat.mul_assoc, ← Nat.pow_succ'] at hbound
        rwa [show datalen + 1 - (k + 1) = datalen - (k + 1) + 1 by omega]
      · dsimp only at hk
        rw [show datalen + 1 - (k + 1) = 0 by omega, Nat.pow_zero, Nat.mul_one]
        exact Nat.not_lt.mp hsmall

theorem integerLoop_negative_stops (datalen : ℕ) (tmp : BitVec 32) (htmp : 2 ^ 31 ≤ tmp.toNat)
    {k : ℕ} (hk : (integerLoop true (datalen + 1) tmp).1 = k + 2) :
    2 ^ 23 < (2 ^ 32 - tmp.toNat) * 256 ^ (datalen - (k + 1)) := by
  induction datalen generalizing tmp with
  | zero => simp [integerLoop] at hk
  | succ datalen ih =>
      have hlt := tmp.isLt
      rw [integerLoop_signed] at hk
      split_ifs at hk with hlarge
      · have hshift : 2 ^ 32 - (tmp <<< 8).toNat = (2 ^ 32 - tmp.toNat) * 256 := by
          rw [toNat_shiftLeft_8]
          omega
        rcases integerLoop_negative datalen (tmp <<< 8) (by omega) with ⟨j, hj, hlen, -⟩
        have hbound := ih (tmp <<< 8) (by omega) hk
        rw [hshift, Nat.mul_assoc, ← Nat.pow_succ'] at hbound
        rwa [show datalen + 1 - (k + 1) = datalen - (k + 1) + 1 by omega]
      · dsimp only at hk
        rw [show datalen + 1 - (k + 1) = 0 by omega, Nat.pow_zero, Nat.mul_one]
        omega

theorem unsignedValue_bigEndian (k n : ℕ) : unsignedValue (bigEndian k n) = n % 256 ^ k := by
  rw [unsignedValue, toNat_bigEndian, value_digits_mod]

theorem negative_bigEndian (k n : ℕ) :
    Negative (bigEndian (k + 1) n) ↔ 128 ≤ n / 256 ^ k % 256 := by
  rw [Negative, headD_bigEndian]

theorem signedValue_bigEndian (k n : ℕ) :
    signedValue (bigEndian (k + 1) n) =
      if 128 ≤ n / 256 ^ k % 256 then ((n % 256 ^ (k + 1) : ℕ) : ℤ) - 256 ^ (k + 1)
      else ((n % 256 ^ (k + 1) : ℕ) : ℤ) := by
  simp only [signedValue, negative_bigEndian, unsignedValue_bigEndian, length_bigEndian]

theorem shortest_bigEndian (k n : ℕ) :
    Shortest (bigEndian (k + 2) n) ↔
      ¬ (n / 256 ^ (k + 1) % 256 = 0 ∧ n / 256 ^ k % 256 < 128) ∧
        ¬ (n / 256 ^ (k + 1) % 256 = 255 ∧ 128 ≤ n / 256 ^ k % 256) := by
  have hfirst : n / 256 ^ (k + 1) % 256 < 256 := Nat.mod_lt _ (by decide)
  have hsecond : n / 256 ^ k % 256 < 256 := Nat.mod_lt _ (by decide)
  simp only [bigEndian, digits, List.map_cons, Shortest, toNat_byteOf hfirst, toNat_byteOf hsecond]

/-- The bytes of a non-negative value are its shortest form. -/
theorem shortest_nonneg {value : BitVec 32} (hvalue : value.toNat < 2 ^ 31) :
    Shortest (integerBytes value false) ∧
      signedValue (integerBytes value false) = value.toNat := by
  rcases integerLoop_nonneg 3 value hvalue with ⟨k, hk, hlen, hlast, hbound⟩
  have hsize : integerSize value false = k + 1 := by
    simpa [integerSize, (and_msb_eq_zero _).mpr hlast] using hlen
  rw [integerBytes, hsize]
  constructor
  · rcases k with _ | k
    · trivial
    · have hstops := integerLoop_nonneg_stops 3 value hvalue hlen
      have hmost : k ≤ 2 := by omega
      rw [shortest_bigEndian]
      interval_cases k <;> omega
  · rw [signedValue_bigEndian, if_neg (by interval_cases k <;> omega)]
    interval_cases k <;> omega

/-- So are those of a negative one. -/
theorem shortest_negative {value : BitVec 32} (hvalue : 2 ^ 31 ≤ value.toNat) :
    Shortest (integerBytes value true) ∧
      signedValue (integerBytes value true) = (value.toNat : ℤ) - 2 ^ 32 := by
  have hlt := value.isLt
  rcases integerLoop_negative 3 value hvalue with ⟨k, hk, hlen, hbound⟩
  have hsize : integerSize value true = k + 1 := by
    simpa [integerSize] using hlen
  rw [integerBytes, hsize]
  constructor
  · rcases k with _ | k
    · trivial
    · have hstops := integerLoop_negative_stops 3 value hvalue hlen
      have hmost : k ≤ 2 := by omega
      rw [shortest_bigEndian]
      interval_cases k <;> omega
  · rw [signedValue_bigEndian, if_pos (by interval_cases k <;> omega)]
    interval_cases k <;> omega

/-- An unsigned value with the top bit set takes a byte more. -/
theorem shortest_large {value : BitVec 32} (hvalue : 2 ^ 31 ≤ value.toNat) :
    (integerBytes value false).length = 5 ∧ Shortest (integerBytes value false) ∧
      signedValue (integerBytes value false) = value.toNat := by
  have hlt := value.isLt
  have hloop : integerLoop false 4 value = (4, value) := by
    rw [integerLoop_unsigned, if_neg (by omega)]
  have htop : value &&& 0x80000000#32 ≠ 0#32 := by
    rw [Ne, and_msb_eq_zero]
    omega
  have hsize : integerSize value false = 5 := by
    simp [integerSize, hloop, htop]
  refine ⟨by rw [length_integerBytes, hsize], ?_, ?_⟩
  · rw [integerBytes, hsize, shortest_bigEndian]
    omega
  · rw [integerBytes, hsize, signedValue_bigEndian, if_neg (by omega)]
    omega

theorem obj_eq (tag : IntTag) (value : BitVec 32) :
    tag.obj value = .integer tag.id value (decide (tag = .integer ∧ 2 ^ 31 ≤ value.toNat)) := by
  cases tag with
  | integer =>
      have hsign := slt_zero value
      simpa [IntTag.obj, IntTag.id, Obj.ofInt] using hsign
  | _ => simp [IntTag.obj]

theorem toInt_of_large {value : BitVec 32} (hvalue : 2 ^ 31 ≤ value.toNat) :
    value.toInt = (value.toNat : ℤ) - 2 ^ 32 := by
  rw [BitVec.toInt_eq_toNat_cond, if_neg (by omega)]
  rfl

theorem read_of_small {value : BitVec 32} (hvalue : value.toNat < 2 ^ 31) (tag : IntTag) :
    tag.read value = value.toNat := by
  unfold IntTag.read
  split_ifs
  · rw [BitVec.toInt_eq_toNat_cond, if_pos (by omega)]
  · rfl

/-- What is written is the shortest form of the value. -/
theorem shortest_contents (tag : IntTag) (value : BitVec 32) :
    ∃ contents, encode (tag.obj value) = frame tag.id contents ∧ contents.length ≤ 5 ∧
      Shortest contents ∧ signedValue contents = tag.read value := by
  rw [obj_eq]
  refine ⟨_, rfl, ?_⟩
  by_cases hlarge : 2 ^ 31 ≤ value.toNat
  · by_cases htag : tag = .integer
    · rw [decide_eq_true ⟨htag, hlarge⟩, length_integerBytes]
      rcases integerSize_negative hlarge with ⟨k, hk, hsize, -⟩
      rcases shortest_negative hlarge with ⟨hshortest, hvalue⟩
      refine ⟨by omega, hshortest, ?_⟩
      rw [hvalue, IntTag.read, if_pos htag, toInt_of_large hlarge]
    · rw [decide_eq_false fun hboth => htag hboth.1]
      rcases shortest_large hlarge with ⟨hsize, hshortest, hvalue⟩
      refine ⟨hsize.le, hshortest, ?_⟩
      rw [hvalue, IntTag.read, if_neg htag]
  · rw [decide_eq_false fun hboth => hlarge hboth.2, length_integerBytes]
    rcases integerSize_nonneg (not_le.mp hlarge) with ⟨k, hk, hsize, -⟩
    rcases shortest_nonneg (not_le.mp hlarge) with ⟨hshortest, hvalue⟩
    refine ⟨by omega, hshortest, ?_⟩
    rw [hvalue, read_of_small (not_le.mp hlarge)]

/-- {lit}`Marshal` is right for every value of every type. -/
theorem emits (tag : IntTag) (value : BitVec 32) : Emits tag value := by
  rcases shortest_contents tag value with ⟨contents, hencode, hsize, hshortest, hvalue⟩
  have hvalid : encodable (tag.obj value) := by
    rw [obj_eq]
    rfl
  refine ⟨frame tag.id contents, ⟨_, contents, rfl, lengthField_lengthBytes (by omega), hshortest,
    hvalue⟩, fun buflen => ⟨fun hroom => ?_, fun hdone => ?_⟩⟩
  · rw [← hencode] at hroom
    exact (marshal_of_fits hvalid hroom).1
  · rw [written_of_marshal hvalid hdone, ← hencode]
    rw [obj_eq]
    simp [writes, encode, frame, Write.bytes]

/-! ## What is read -/

/-- What is read is a word filled up with the sign of the bytes. -/
theorem integerOf_eq (type : Identifier) (bytes : List UInt8) :
    integerOf type bytes = .integer type (wordOf 32 bytes) (decide (Negative bytes)) := by
  have hsign : bytes.headD 0 &&& 0x80 ≠ 0 ↔ Negative bytes := by
    rw [Ne, and_128_eq_zero, not_lt, Negative]
  unfold integerOf wordOf signWord
  by_cases hneg : Negative bytes
  · rw [if_pos (hsign.mpr hneg), if_pos hneg, decide_eq_true hneg]
  · rw [if_neg (mt hsign.mp hneg), if_neg hneg, decide_eq_false hneg]

theorem classOf_id (tag : IntTag) : classOf tag.id = some .integer := by
  cases tag <;> rfl

theorem demarshalObject_eq (mem : Memory) (c : Cursor) :
    demarshalObject mem c =
      ((readByte mem).bind (demarshalAs mem (demarshalAll mem (2 * c.buflen)))) c := rfl

/-- Contents of up to four bytes are read, behind any length field for them. -/
theorem parses_integer (tag : IntTag) {lenBytes contents : List UInt8}
    (hfield : LengthField lenBytes contents.length) (hsize : 1 ≤ contents.length)
    (hfour : contents.length ≤ 4) :
    Parses mem (demarshalObject mem) (tag.id :: (lenBytes ++ contents))
      (integerOf tag.id contents) := by
  intro c hholds hroom
  have hdata : Parses mem (demarshalData mem 1 4) (lenBytes ++ contents) contents := by
    refine (hfield.parses (by omega)).bind ?_
    rw [if_neg (by omega)]
    exact parses_readBytes contents
  have hobj : Parses mem (demarshalAs mem (demarshalAll mem (2 * c.buflen)) tag.id)
      ((lenBytes ++ contents) ++ []) (integerOf tag.id contents) := by
    unfold demarshalAs
    rw [classOf_id]
    exact (hdata.bind (parses_pure (integerOf tag.id contents))).construct
  rw [List.append_nil] at hobj
  exact (parses_readByte tag.id).bind hobj c hholds hroom

/-- Longer contents are refused. -/
theorem refuses_integer (tag : IntTag) {lenBytes contents : List UInt8} {c : Cursor}
    (hfield : LengthField lenBytes contents.length) (hlong : 4 < contents.length)
    (hmax : contents.length < 2 ^ 32) (hholds : Holds mem c.buffer (tag.id :: (lenBytes ++ contents)))
    (hroom : (tag.id :: (lenBytes ++ contents)).length ≤ c.buflen) (obj : Obj) :
    (demarshalObject mem c).1 ≠ .ok obj := by
  intro hobj
  rcases holds_cons.mp hholds with ⟨htype, hdata⟩
  rw [List.length_cons, List.length_append] at hroom
  rw [demarshalObject_eq] at hobj
  rcases bind_eq_ok hobj with ⟨type, middle, hread, hobj⟩
  rcases readByte_eq_ok hread with ⟨rfl, hbuffer, -⟩
  have hleft : middle.buflen = c.buflen - 1 := by
    unfold readByte at hread
    split_ifs at hread with hempty
    · cases hread
    · rw [← (Prod.mk.inj hread).2]
  unfold demarshalAs at hobj
  rw [htype, classOf_id] at hobj
  rcases bind_eq_ok (construct_eq_ok hobj) with ⟨bytes, after, hbytes, -⟩
  rcases bind_eq_ok (congrArg Prod.fst hbytes) with ⟨datalen, before, hlength, hcontents⟩
  rcases (hfield.parses hmax) { middle with live := middle.live + 1 }
    (hbuffer ▸ (holds_append.mp hdata).1) (by dsimp only; omega) with ⟨stop, hstop, -⟩
  obtain rfl : contents.length = datalen := by
    rw [hstop] at hlength
    exact Except.ok.inj (congrArg Prod.fst hlength)
  rw [if_pos (by omega)] at hcontents
  cases hcontents

/-! ## When the codec is exact -/

/-- What is written is an integer in BER, and every integer in BER with the value is read. -/
def Exact (tag : IntTag) (value : BitVec 32) : Prop :=
  Emits tag value ∧ Recovers tag value

/-- A value that the decoder can hold lies in the range of four bytes. -/
theorem read_range {tag : IntTag} {value : BitVec 32}
    (hfits : tag = .integer ∨ value.toNat < 2 ^ 31) :
    -256 ^ 4 ≤ 2 * tag.read value ∧ 2 * tag.read value < 256 ^ 4 := by
  have hlt := value.isLt
  by_cases hlarge : 2 ^ 31 ≤ value.toNat
  · have htag : tag = .integer := hfits.resolve_right (not_lt.mpr hlarge)
    rw [IntTag.read, if_pos htag, toInt_of_large hlarge]
    omega
  · rw [read_of_small (not_le.mp hlarge)]
    omega

/-- The word that is read has the number that the bytes denote. -/
theorem read_wordOf {tag : IntTag} {contents : List UInt8} (hne : contents ≠ [])
    (hfour : contents.length ≤ 4) (hsign : tag = .integer ∨ 0 ≤ signedValue contents) :
    tag.read (wordOf 32 contents) = signedValue contents := by
  have hsize : 256 ^ contents.length ≤ 2 ^ 32 := by
    calc
      256 ^ contents.length ≤ 256 ^ 4 := Nat.pow_le_pow_right (by decide) hfour
      _ = 2 ^ 32 := by decide
  unfold IntTag.read
  split_ifs with htag
  · exact toInt_wordOf hne hsize
  · have hneg : ¬ Negative contents := by
      rw [← signedValue_neg_iff, not_lt]
      exact hsign.resolve_left htag
    exact toNat_wordOf_of_nonneg hneg hsize

theorem recovers_of_fits {tag : IntTag} {value : BitVec 32}
    (hfits : tag = .integer ∨ value.toNat < 2 ^ 31) : Recovers tag value := by
  rintro mem c bytes ⟨lenBytes, contents, rfl, hfield, hshortest, hvalue⟩ hholds hroom
  have hrange := read_range hfits
  rw [← hvalue] at hrange
  have hfour := hshortest.length_le (by decide) hrange.1 hrange.2
  have hne : contents ≠ [] := by
    rintro rfl
    exact hshortest
  have hsign : tag = .integer ∨ 0 ≤ signedValue contents := by
    rcases hfits with htag | hsmall
    · exact Or.inl htag
    · right
      rw [hvalue, read_of_small hsmall]
      exact Int.natCast_nonneg _
  rcases parses_integer tag hfield (List.length_pos_iff.mpr hne) hfour c hholds hroom with
    ⟨after, hrun, hbuffer, hbuflen⟩
  rw [integerOf_eq] at hrun
  exact ⟨_, _, after, hrun, (read_wordOf hne hfour hsign).trans hvalue, hbuffer, hbuflen⟩

/-- The codec is exact for every signed value, and for the unsigned values below 2^31; for the
others the five bytes that {lit}`Marshal` writes are refused by {lit}`demarshal`. -/
theorem exact_iff (tag : IntTag) (value : BitVec 32) :
    Exact tag value ↔ (tag = .integer ∨ value.toNat < 2 ^ 31) := by
  constructor
  · rintro ⟨-, hrecovers⟩
    by_contra hlarge
    rw [not_or, not_lt] at hlarge
    rcases shortest_contents tag value with ⟨contents, -, hsize, hshortest, hvalue⟩
    have hlong : 4 < contents.length := by
      apply lt_length
      rw [hvalue, IntTag.read, if_neg hlarge.1]
      omega
    have hfield := @lengthField_lengthBytes contents.length (by omega)
    have hholds := holds_memoryOf_append [] (frame tag.id contents) []
    rcases hrecovers _ ⟨0, (frame tag.id contents).length, [], 0⟩ _
      ⟨_, contents, rfl, hfield, hshortest, hvalue⟩ hholds le_rfl with ⟨word, signed, after, hrun, -⟩
    exact refuses_integer tag hfield hlong (by omega) hholds le_rfl _ (congrArg Prod.fst hrun)
  · exact fun hfits => ⟨emits tag value, recovers_of_fits hfits⟩

/-- The five bytes of the counter 2^31 are refused. -/
theorem counter_not_exact : ¬ Exact .counter 0x80000000 := by
  rintro ⟨-, hrecovers⟩
  have hber : Ber counterId [0x41, 0x05, 0x00, 0x80, 0x00, 0x00, 0x00]
      (IntTag.read .counter 0x80000000) :=
    ⟨[0x05], [0x00, 0x80, 0x00, 0x00, 0x00], rfl, .short 0x05 (by decide),
      ⟨by decide, by decide⟩, by decide⟩
  rcases hrecovers (memoryOf [0x41, 0x05, 0x00, 0x80, 0x00, 0x00, 0x00]) ⟨0, 7, [], 0⟩ _ hber rfl
    le_rfl with ⟨word, signed, after, hrun, -⟩
  have hfail : (demarshalObject (memoryOf [0x41, 0x05, 0x00, 0x80, 0x00, 0x00, 0x00])
      ⟨0, 7, [], 0⟩).1 = .error .malformed := by
    rfl
  rw [hrun] at hfail
  cases hfail

end Asn
end Apcupsd
