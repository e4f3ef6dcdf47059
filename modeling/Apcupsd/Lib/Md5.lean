import Apcupsd.Foundations.BlockAbsorption
import Mathlib.Algebra.Group.Nat.Defs
import Mathlib.Data.UInt

/-!
# The digest of a message

{lit}`md5.c` takes in a message in pieces of any length, keeps what does not fill a block in a
buffer of 64 bytes, counts the bits in two words, and pads the message at its end.

Main results:

- Theorem {lit}`Absorbed.append`: the buffer, the count and the registers stand for the message so
  far.
- Theorem {lit}`md5Finish_eq`: the digest is that of the padded message, however it was cut.
-/

namespace Apcupsd

open BlockAbsorption

/-! ## One block -/

/-- {lit}`T_MASK`. -/
def tMask : UInt32 := 0xffffffff

/-- {lit}`abcd`. -/
structure Md5Registers where
  a : UInt32
  b : UInt32
  c : UInt32
  d : UInt32
deriving DecidableEq, Repr

/-- {lit}`ROTATE_LEFT`. -/
def rotateLeft (x n : UInt32) : UInt32 :=
  (x <<< n) ||| (x >>> (32 - n))

/-- {lit}`F`. -/
def md5F (x y z : UInt32) : UInt32 := (x &&& y) ||| (~~~x &&& z)

/-- {lit}`G`. -/
def md5G (x y z : UInt32) : UInt32 := (x &&& z) ||| (y &&& ~~~z)

/-- {lit}`H`. -/
def md5H (x y z : UInt32) : UInt32 := x ^^^ y ^^^ z

/-- {lit}`I`. -/
def md5I (x y z : UInt32) : UInt32 := y ^^^ (x ||| ~~~z)

/-- {lit}`SET`; the registers are turned, so that the next one is the first. -/
def setRegister (f : UInt32 → UInt32 → UInt32 → UInt32) (x : ℕ → UInt32) (r : Md5Registers)
    (step : ℕ × UInt32 × UInt32) : Md5Registers :=
  let t := r.a + f r.b r.c r.d + x step.1 + step.2.2
  ⟨r.d, rotateLeft t step.2.1 + r.b, r.b, r.c⟩

/-- Round 1. -/
def round1 : List (ℕ × UInt32 × UInt32) :=
  [(0, 7, tMask ^^^ 0x28955b87), (1, 12, tMask ^^^ 0x173848a9), (2, 17, 0x242070db),
    (3, 22, tMask ^^^ 0x3e423111), (4, 7, tMask ^^^ 0x0a83f050), (5, 12, 0x4787c62a),
    (6, 17, tMask ^^^ 0x57cfb9ec), (7, 22, tMask ^^^ 0x02b96afe), (8, 7, 0x698098d8),
    (9, 12, tMask ^^^ 0x74bb0850), (10, 17, tMask ^^^ 0x0000a44e), (11, 22, tMask ^^^ 0x76a32841),
    (12, 7, 0x6b901122), (13, 12, tMask ^^^ 0x02678e6c), (14, 17, tMask ^^^ 0x5986bc71),
    (15, 22, 0x49b40821)]

/-- Round 2. -/
def round2 : List (ℕ × UInt32 × UInt32) :=
  [(1, 5, tMask ^^^ 0x09e1da9d), (6, 9, tMask ^^^ 0x3fbf4cbf), (11, 14, 0x265e5a51),
    (0, 20, tMask ^^^ 0x16493855), (5, 5, tMask ^^^ 0x29d0efa2), (10, 9, 0x02441453),
    (15, 14, tMask ^^^ 0x275e197e), (4, 20, tMask ^^^ 0x182c0437), (9, 5, 0x21e1cde6),
    (14, 9, tMask ^^^ 0x3cc8f829), (3, 14, tMask ^^^ 0x0b2af278), (8, 20, 0x455a14ed),
    (13, 5, tMask ^^^ 0x561c16fa), (2, 9, tMask ^^^ 0x03105c07), (7, 14, 0x676f02d9),
    (12, 20, tMask ^^^ 0x72d5b375)]

/-- Round 3. -/
def round3 : List (ℕ × UInt32 × UInt32) :=
  [(5, 4, tMask ^^^ 0x0005c6bd), (8, 11, tMask ^^^ 0x788e097e), (11, 16, 0x6d9d6122),
    (14, 23, tMask ^^^ 0x021ac7f3), (1, 4, tMask ^^^ 0x5b4115bb), (4, 11, 0x4bdecfa9),
    (7, 16, tMask ^^^ 0x0944b49f), (10, 23, tMask ^^^ 0x4140438f), (13, 4, 0x289b7ec6),
    (0, 11, tMask ^^^ 0x155ed805), (3, 16, tMask ^^^ 0x2b10cf7a), (6, 23, 0x04881d05),
    (9, 4, tMask ^^^ 0x262b2fc6), (12, 11, tMask ^^^ 0x1924661a), (15, 16, 0x1fa27cf8),
    (2, 23, tMask ^^^ 0x3b53a99a)]

/-- Round 4. -/
def round4 : List (ℕ × UInt32 × UInt32) :=
  [(0, 6, tMask ^^^ 0x0bd6ddbb), (7, 10, 0x432aff97), (14, 15, tMask ^^^ 0x546bdc58),
    (5, 21, tMask ^^^ 0x036c5fc6), (12, 6, 0x655b59c3), (3, 10, tMask ^^^ 0x70f3336d),
    (10, 15, tMask ^^^ 0x00100b82), (1, 21, tMask ^^^ 0x7a7ba22e), (8, 6, 0x6fa87e4f),
    (15, 10, tMask ^^^ 0x01d3191f), (6, 15, tMask ^^^ 0x5cfebceb), (13, 21, 0x4e0811a1),
    (4, 6, tMask ^^^ 0x08ac817d), (11, 10, tMask ^^^ 0x42c50dca), (2, 15, 0x2ad7d2bb),
    (9, 21, tMask ^^^ 0x14792c6e)]

/-- {lit}`X`: a word of a block, the lowest byte first. -/
def blockWord (data : List UInt8) (k : ℕ) : UInt32 :=
  (data.getD (4 * k) 0).toUInt32 + ((data.getD (4 * k + 1) 0).toUInt32 <<< 8) +
    ((data.getD (4 * k + 2) 0).toUInt32 <<< 16) + ((data.getD (4 * k + 3) 0).toUInt32 <<< 24)

/-- {lit}`md5_process`. -/
def md5Process (abcd : Md5Registers) (data : List UInt8) : Md5Registers :=
  let x := blockWord data
  let r := round1.foldl (setRegister md5F x) abcd
  let r := round2.foldl (setRegister md5G x) r
  let r := round3.foldl (setRegister md5H x) r
  let r := round4.foldl (setRegister md5I x) r
  ⟨abcd.a + r.a, abcd.b + r.b, abcd.c + r.c, abcd.d + r.d⟩

/-! ## The message -/

/-- {lit}`md5_state_t`. -/
structure Md5State where
  count0 : UInt32
  count1 : UInt32
  abcd : Md5Registers
  buf : List UInt8
deriving DecidableEq, Repr

/-- The registers that {lit}`md5_init` sets. -/
def md5Registers : Md5Registers :=
  ⟨0x67452301, tMask ^^^ 0x10325476, tMask ^^^ 0x67452301, 0x10325476⟩

/-- {lit}`md5_init`, in a state whose buffer holds anything. -/
def md5Init (buf : List UInt8) : Md5State :=
  ⟨0, 0, md5Registers, buf⟩

/-- {lit}`memcpy` into the buffer. -/
def Md5State.copyIn (ms : Md5State) (offset : ℕ) (data : List UInt8) : Md5State :=
  { ms with buf := ms.buf.take offset ++ data ++ ms.buf.drop (offset + data.length) }

/-- The message length. -/
def Md5State.addLength (ms : Md5State) (nbytes : ℕ) : Md5State :=
  let nbits := UInt32.ofNat (nbytes <<< 3)
  let count1 := ms.count1 + UInt32.ofNat (nbytes >>> 29)
  let count0 := ms.count0 + nbits
  { ms with count0 := count0, count1 := if count0 < nbits then count1 + 1 else count1 }

/-- The full blocks, and the final partial block. -/
def Md5State.addBlocks (ms : Md5State) (p : List UInt8) : Md5State :=
  let (abcd, left) := absorb md5Process 64 ms.abcd p
  { ms with abcd := abcd }.copyIn 0 left

/-- {lit}`md5_append`. -/
def md5Append (ms : Md5State) (data : List UInt8) : Md5State :=
  let offset := ((ms.count0 >>> 3) &&& 63).toNat
  if data = [] then ms
  else
    let ms := ms.addLength data.length
    if offset = 0 then ms.addBlocks data
    else
      let copy := if offset + data.length > 64 then 64 - offset else data.length
      let ms := ms.copyIn offset (data.take copy)
      if offset + copy < 64 then ms
      else { ms with abcd := md5Process ms.abcd ms.buf }.addBlocks (data.drop copy)

/-- {lit}`pad`. -/
def md5Pad : List UInt8 :=
  0x80 :: List.replicate 63 0

/-- The bytes of words, the lowest first. -/
def littleEndian (w : UInt32) : List UInt8 :=
  [w.toUInt8, (w >>> 8).toUInt8, (w >>> 16).toUInt8, (w >>> 24).toUInt8]

/-- The bytes of the registers. -/
def Md5Registers.digest (r : Md5Registers) : List UInt8 :=
  littleEndian r.a ++ littleEndian r.b ++ littleEndian r.c ++ littleEndian r.d

/-- {lit}`md5_finish`. -/
def md5Finish (ms : Md5State) : List UInt8 :=
  let data := littleEndian ms.count0 ++ littleEndian ms.count1
  let padding := md5Pad.take ((((55 : UInt32) - (ms.count0 >>> 3)) &&& 63).toNat + 1)
  (md5Append (md5Append ms padding) data).abcd.digest

/-! ## What the digest is -/

/-- The message with its padding: a one, zeros up to eight bytes below a block, and the length in
bits. -/
def paddedMessage (msg : List UInt8) : List UInt8 :=
  msg ++ 0x80 :: List.replicate ((119 - msg.length % 64) % 64) 0 ++
    (List.range 8).map fun i => UInt8.ofNat (8 * msg.length / 256 ^ i)

/-- The digest of a message. -/
def md5 (msg : List UInt8) : List UInt8 :=
  (absorb md5Process 64 md5Registers (paddedMessage msg)).1.digest

/-! ## The state stands for the message so far -/

/-- The state after a message. -/
structure Absorbed (msg : List UInt8) (ms : Md5State) : Prop where
  length_buf : ms.buf.length = 64
  abcd : ms.abcd = (absorb md5Process 64 md5Registers msg).1
  buf : ms.buf.take (msg.length % 64) = (absorb md5Process 64 md5Registers msg).2
  count : ms.count0.toNat + 2 ^ 32 * ms.count1.toNat = 8 * msg.length % 2 ^ 64

section

variable {msg data p : List UInt8} {ms : Md5State}

/-- The place in the buffer. -/
theorem offset_eq (habsorbed : Absorbed msg ms) :
    ((ms.count0 >>> 3) &&& 63).toNat = msg.length % 64 := by
  have hcount := habsorbed.count
  have hand : ((ms.count0 >>> 3) &&& 63).toNat = ms.count0.toNat / 8 % 64 := by
    rw [UInt32.toNat_and, UInt32.toNat_shiftRight]
    exact (Nat.and_two_pow_sub_one_eq_mod _ 6).trans (by rw [Nat.shiftRight_eq_div_pow]; rfl)
  have hlt := ms.count0.toNat_lt
  have hlt1 := ms.count1.toNat_lt
  omega

theorem addLength_count (hlength : data.length < 2 ^ 31)
    (hcount : ms.count0.toNat + 2 ^ 32 * ms.count1.toNat = 8 * msg.length % 2 ^ 64) :
    (ms.addLength data.length).count0.toNat + 2 ^ 32 * (ms.addLength data.length).count1.toNat =
      8 * (msg ++ data).length % 2 ^ 64 := by
  have hbits : (UInt32.ofNat (data.length <<< 3)).toNat = 8 * data.length % 2 ^ 32 := by
    rw [UInt32.toNat_ofNat', Nat.shiftLeft_eq]
    omega
  have hhigh : (UInt32.ofNat (data.length >>> 29)).toNat = 8 * data.length / 2 ^ 32 := by
    rw [UInt32.toNat_ofNat', Nat.shiftRight_eq_div_pow]
    omega
  have hlt := ms.count0.toNat_lt
  have hlt1 := ms.count1.toNat_lt
  simp only [Md5State.addLength, List.length_append]
  by_cases hcarry : ms.count0 + UInt32.ofNat (data.length <<< 3) <
      UInt32.ofNat (data.length <<< 3)
  · rw [if_pos hcarry]
    rw [UInt32.lt_iff_toNat_lt, UInt32.toNat_add, hbits] at hcarry
    rw [UInt32.toNat_add, UInt32.toNat_add, UInt32.toNat_add, hbits, hhigh,
      show (1 : UInt32).toNat = 1 from rfl]
    omega
  · rw [if_neg hcarry]
    rw [UInt32.lt_iff_toNat_lt, UInt32.toNat_add, hbits] at hcarry
    rw [UInt32.toNat_add, UInt32.toNat_add, hbits, hhigh]
    omega

theorem length_copyIn (ms : Md5State) {offset : ℕ} (hbuf : ms.buf.length = 64)
    (hroom : offset + data.length ≤ 64) : (ms.copyIn offset data).buf.length = 64 := by
  simp only [Md5State.copyIn, List.length_append, List.length_take, List.length_drop, hbuf]
  omega

theorem take_copyIn (ms : Md5State) {offset : ℕ} (hbuf : ms.buf.length = 64)
    (hroom : offset + data.length ≤ 64) :
    (ms.copyIn offset data).buf.take (offset + data.length) = ms.buf.take offset ++ data := by
  have hlength : (ms.buf.take offset ++ data).length = offset + data.length := by
    rw [List.length_append, List.length_take, hbuf]
    omega
  rw [Md5State.copyIn, ← hlength, List.take_left]

/-- What stands in front of the pieces that are left is a message of whole blocks. -/
theorem addBlocks_absorbed (hbuf : ms.buf.length = 64)
    (habsorb : absorb md5Process 64 ms.abcd p = absorb md5Process 64 md5Registers msg)
    (hcount : ms.count0.toNat + 2 ^ 32 * ms.count1.toNat = 8 * msg.length % 2 ^ 64) :
    Absorbed msg (ms.addBlocks p) := by
  have hleft : (absorb md5Process 64 md5Registers msg).2.length = msg.length % 64 :=
    length_absorb_snd (by decide) md5Registers msg
  have hroom : 0 + (absorb md5Process 64 md5Registers msg).2.length ≤ 64 := by omega
  rw [Md5State.addBlocks, habsorb]
  refine ⟨length_copyIn _ hbuf hroom, rfl, ?_, hcount⟩
  rw [← hleft, ← Nat.zero_add (absorb md5Process 64 md5Registers msg).2.length]
  exact take_copyIn _ hbuf hroom

theorem Absorbed.append (habsorbed : Absorbed msg ms) (data : List UInt8)
    (hlength : data.length < 2 ^ 31) :
    Absorbed (msg ++ data) (md5Append ms data) := by
  have hcount := addLength_count hlength habsorbed.count
  have hsplit : absorb md5Process 64 md5Registers (msg ++ data) = _ :=
    absorb_append (by decide) md5Registers msg data
  have hbuf := habsorbed.buf
  rw [← habsorbed.abcd, ← hbuf] at hsplit
  unfold md5Append
  rw [offset_eq habsorbed]
  split
  · next hnil =>
      rw [hnil, List.append_nil]
      exact habsorbed
  dsimp only
  split
  · next hzero =>
      -- nothing is in the buffer
      rw [hzero, List.take_zero, List.nil_append] at hsplit
      exact addBlocks_absorbed habsorbed.length_buf hsplit.symm hcount
  next hoffset =>
    have hlt : msg.length % 64 < 64 := Nat.mod_lt _ (by decide)
    generalize hcopy : (if msg.length % 64 + data.length > 64 then 64 - msg.length % 64
      else data.length) = copy
    have hle : copy ≤ data.length := by split at hcopy <;> omega
    have htake : (data.take copy).length = copy := by rw [List.length_take]; omega
    have hroom : msg.length % 64 + (data.take copy).length ≤ 64 := by
      rw [htake]
      split at hcopy <;> omega
    have hfront := take_copyIn (ms.addLength data.length) habsorbed.length_buf hroom
    rw [htake] at hfront
    have hkept : (ms.addLength data.length).buf = ms.buf := rfl
    split
    · next hshort =>
        -- all of the data goes into the buffer
        have hall : copy = data.length := by split at hcopy <;> omega
        have hmod : (msg ++ data).length % 64 = msg.length % 64 + copy := by
          rw [List.length_append, hall]
          omega
        have hpartial : (ms.buf.take (msg.length % 64) ++ data).length < 64 := by
          rw [List.length_append, List.length_take, habsorbed.length_buf]
          omega
        rw [absorb_of_lt hpartial] at hsplit
        refine ⟨length_copyIn _ habsorbed.length_buf hroom, ?_, ?_, hcount⟩
        · rw [hsplit]
          rfl
        · rw [hmod, hfront, hsplit, hkept, hall, List.take_length]
    · next hfull =>
        -- the buffer is filled and processed
        have hfill : msg.length % 64 + copy = 64 := by split at hcopy <;> omega
        have hsize := length_copyIn (ms.addLength data.length) habsorbed.length_buf hroom
        have hblock : ((ms.addLength data.length).copyIn (msg.length % 64)
            (data.take copy)).buf = ms.buf.take (msg.length % 64) ++ data.take copy := by
          rw [hfill, List.take_of_length_le hsize.le] at hfront
          exact hfront
        have hlen : (ms.buf.take (msg.length % 64) ++ data.take copy).length = 64 := by
          rw [← hblock, hsize]
        have hcut : ms.buf.take (msg.length % 64) ++ data =
            (ms.buf.take (msg.length % 64) ++ data.take copy) ++ data.drop copy := by
          rw [List.append_assoc, List.take_append_drop]
        apply addBlocks_absorbed
        · exact hsize
        · rw [hsplit, hblock, hcut, absorb_block (by decide) hlen]
          rfl
        · exact hcount

theorem absorbed_init {buf : List UInt8} (hbuf : buf.length = 64) : Absorbed [] (md5Init buf) := by
  have hnil : absorb md5Process 64 md5Registers [] = (md5Registers, []) :=
    absorb_of_lt (by decide)
  refine ⟨hbuf, ?_, ?_, rfl⟩
  · rw [hnil]
    rfl
  · rw [hnil]
    rfl

/-- The pieces of a message. -/
theorem Absorbed.foldl {chunks : List (List UInt8)} (habsorbed : Absorbed msg ms)
    (hchunks : ∀ chunk ∈ chunks, chunk.length < 2 ^ 31) :
    Absorbed (msg ++ chunks.flatten) (chunks.foldl md5Append ms) := by
  induction chunks generalizing msg ms with
  | nil => rwa [List.flatten_nil, List.append_nil]
  | cons chunk chunks ih =>
      rw [List.flatten_cons, ← List.append_assoc]
      exact ih (habsorbed.append chunk (hchunks chunk List.mem_cons_self))
        fun other hother => hchunks other (List.mem_cons_of_mem _ hother)

/-! ## The padding -/

theorem length_padding (habsorbed : Absorbed msg ms) :
    (((55 : UInt32) - (ms.count0 >>> 3)) &&& 63).toNat = (119 - msg.length % 64) % 64 := by
  have hoffset := offset_eq habsorbed
  have hand (x : UInt32) : (x &&& 63).toNat = x.toNat % 64 :=
    (UInt32.toNat_and x 63).trans (Nat.and_two_pow_sub_one_eq_mod _ 6)
  rw [hand] at hoffset ⊢
  rw [UInt32.toNat_sub, show (55 : UInt32).toNat = 55 from rfl]
  have hlt := (ms.count0 >>> 3).toNat_lt
  omega

theorem take_md5Pad {k : ℕ} (hk : k < 64) : md5Pad.take (k + 1) = 0x80 :: List.replicate k 0 := by
  rw [md5Pad, List.take_succ_cons, List.take_replicate, Nat.min_eq_left (by omega)]

/-- The words of the count are the bytes of the length. -/
theorem littleEndian_count {n : ℕ} {low high : UInt32}
    (hcount : low.toNat + 2 ^ 32 * high.toNat = n % 2 ^ 64) :
    littleEndian low ++ littleEndian high =
      (List.range 8).map fun i => UInt8.ofNat (n / 256 ^ i) := by
  have hlow := low.toNat_lt
  have hhigh := high.toNat_lt
  have hfirst (w : UInt32) (d : ℕ) (hm : w.toNat % 256 = n / d % 256) :
      w.toUInt8 = UInt8.ofNat (n / d) := by
    apply UInt8.toNat_inj.mp
    rwa [UInt32.toNat_toUInt8, UInt8.toNat_ofNat']
  have hshifted (w s : UInt32) (e d : ℕ) (hs : 2 ^ (s.toNat % 32) = e)
      (hm : w.toNat / e % 256 = n / d % 256) : (w >>> s).toUInt8 = UInt8.ofNat (n / d) := by
    apply hfirst
    rw [UInt32.toNat_shiftRight, Nat.shiftRight_eq_div_pow, hs, hm]
  rw [littleEndian, littleEndian, hfirst low (256 ^ 0) (by omega),
    hshifted low 8 256 (256 ^ 1) rfl (by omega), hshifted low 16 65536 (256 ^ 2) rfl (by omega),
    hshifted low 24 16777216 (256 ^ 3) rfl (by omega), hfirst high (256 ^ 4) (by omega),
    hshifted high 8 256 (256 ^ 5) rfl (by omega), hshifted high 16 65536 (256 ^ 6) rfl (by omega),
    hshifted high 24 16777216 (256 ^ 7) rfl (by omega)]
  rfl

theorem md5Finish_of_absorbed (habsorbed : Absorbed msg ms) : md5Finish ms = md5 msg := by
  have hzeros : (119 - msg.length % 64) % 64 < 64 := Nat.mod_lt _ (by decide)
  rw [md5Finish, length_padding habsorbed, take_md5Pad hzeros, littleEndian_count habsorbed.count]
  have hpadded := (habsorbed.append (0x80 :: List.replicate ((119 - msg.length % 64) % 64) 0)
    (by simp; omega)).append
    ((List.range 8).map fun i => UInt8.ofNat (8 * msg.length / 256 ^ i)) (by simp)
  rw [hpadded.abcd]
  rfl

end

/-- However a message is cut into pieces, taking them in one after another and finishing gives
the digest of the padded message.  For a longer piece {lit}`offset + nbytes` is no {lit}`int`. -/
theorem md5Finish_eq (buf : List UInt8) (hbuf : buf.length = 64) (chunks : List (List UInt8))
    (hchunks : ∀ chunk ∈ chunks, chunk.length ≤ 2 ^ 31 - 64) :
    md5Finish (chunks.foldl md5Append (md5Init buf)) = md5 chunks.flatten := by
  have hshort : ∀ chunk ∈ chunks, chunk.length < 2 ^ 31 := fun chunk hchunk =>
    lt_of_le_of_lt (hchunks chunk hchunk) (by decide)
  exact md5Finish_of_absorbed ((absorbed_init hbuf).foldl hshort)

/-- Three letters in two pieces. -/
theorem md5Finish_eq_twoPieces :
    md5Finish (md5Append (md5Append (md5Init (List.replicate 64 0)) [97]) [98, 99]) =
      md5 [97, 98, 99] :=
  md5Finish_eq (List.replicate 64 0) (by decide) [[97], [98, 99]] (by decide)

example : md5 [97, 98, 99] = [0x90, 0x01, 0x50, 0x98, 0x3c, 0xd2, 0x4f, 0xb0, 0xd6, 0x96, 0x3f,
    0x7d, 0x28, 0xe1, 0x7f, 0x72] := by
  decide +kernel

end Apcupsd
