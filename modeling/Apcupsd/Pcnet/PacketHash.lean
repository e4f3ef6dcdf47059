import Apcupsd.Lib.Md5
import Apcupsd.Pcnet.Packet

/-!
# The hash of a packet

The driver takes the digest over three pieces, the packet in front of {lit}`MD=`, the user and the
pass phrase, and compares its hexadecimal digits with the field of the packet.

Main results:

- Theorem {lit}`digest2ascii_injective`: the digits of two digests are the same only if the digests
  are.
- Theorem {lit}`packet_hash_accepted`: an accepted packet carries the digits of the three pieces.
-/

namespace Apcupsd

open CStrings

/-- What {lit}`%02x` prints for a byte. -/
def hexByte (b : UInt8) : List Char :=
  [Nat.digitChar (b.toNat / 16), Nat.digitChar (b.toNat % 16)]

/-- {lit}`digest2ascii`: the digits of each byte are appended to an array of 33 characters. -/
def digest2ascii (digest : List UInt8) : List Char :=
  (digest.take 16).foldl (fun ascii b => (ascii ++ hexByte b).take 32) []

/-- The bytes of a text. -/
def textBytes (text : List Char) : List UInt8 :=
  text.map fun c => UInt8.ofNat c.toNat

/-- The digits of the digest of a text. -/
def md5Hex (text : List Char) : List Char :=
  digest2ascii (md5 (textBytes text))

/-- The hash that {lit}`auth_and_map_packet` takes over what is in front of {lit}`MD=`, with
anything in the buffer of the digest. -/
def packetHash (scratch : List UInt8) (drv : PcnetDriver) (front : List Char) : List Char :=
  digest2ascii (md5Finish (md5Append (md5Append (md5Append (md5Init scratch) (textBytes front))
    (textBytes drv.user)) (textBytes drv.pass)))

/-! ## The digits -/

theorem length_flatMap_hexByte (digest : List UInt8) :
    (digest.flatMap hexByte).length = 2 * digest.length := by
  induction digest with
  | nil => rfl
  | cons b digest ih =>
      rw [List.flatMap_cons, List.length_append, ih, List.length_cons]
      show 2 + _ = _
      omega

/-- The array is long enough. -/
theorem digest2ascii_eq {digest : List UInt8} (hlength : digest.length ≤ 16) :
    digest2ascii digest = digest.flatMap hexByte := by
  have hfold (done rest : List UInt8) (hroom : done.length + rest.length ≤ 16) :
      rest.foldl (fun ascii b => (ascii ++ hexByte b).take 32) (done.flatMap hexByte) =
        (done ++ rest).flatMap hexByte := by
    induction rest generalizing done with
    | nil => rw [List.foldl_nil, List.append_nil]
    | cons b rest ih =>
        rw [List.length_cons] at hroom
        have hshort : (done.flatMap hexByte ++ hexByte b).length ≤ 32 := by
          rw [List.length_append, length_flatMap_hexByte]
          show _ + 2 ≤ 32
          omega
        have hstep : done.flatMap hexByte ++ hexByte b = (done ++ [b]).flatMap hexByte := by
          rw [List.flatMap_append, List.flatMap_cons, List.flatMap_nil, List.append_nil]
        have hdone : (done ++ [b]).length + rest.length ≤ 16 := by
          rw [List.length_append, List.length_singleton]
          omega
        rw [List.foldl_cons, List.take_of_length_le hshort, hstep, ih _ hdone,
          List.append_assoc, List.singleton_append]
  rw [digest2ascii, List.take_of_length_le hlength]
  exact hfold [] digest (by simpa using hlength)

theorem hexByte_injective : Function.Injective hexByte := by
  have hdigit : ∀ m < 16, ∀ n < 16, Nat.digitChar m = Nat.digitChar n → m = n := by decide
  intro b c hbc
  obtain ⟨hhigh, hlow⟩ := List.cons.inj hbc
  have hb := b.toNat_lt
  have hc := c.toNat_lt
  have hfirst := hdigit _ (by omega) _ (by omega) hhigh
  have hsecond := hdigit _ (by omega) _ (by omega) (List.cons.inj hlow).1
  apply UInt8.toNat_inj.mp
  omega

/-- Two digests with the same digits. -/
theorem digest2ascii_injective {first second : List UInt8} (hfirst : first.length = 16)
    (hsecond : second.length = 16) (hsame : digest2ascii first = digest2ascii second) :
    first = second := by
  rw [digest2ascii_eq hfirst.le, digest2ascii_eq hsecond.le] at hsame
  have hlength : first.length = second.length := hfirst.trans hsecond.symm
  clear hfirst hsecond
  induction first generalizing second with
  | nil => exact (List.eq_nil_of_length_eq_zero hlength.symm).symm
  | cons b first ih =>
      cases second with
      | nil => cases hlength
      | cons c second =>
          rw [List.flatMap_cons, List.flatMap_cons] at hsame
          obtain ⟨hbyte, hrest⟩ := List.append_inj hsame rfl
          rw [hexByte_injective hbyte, ih hrest (Nat.succ.inj hlength)]

theorem length_digest (r : Md5Registers) : r.digest.length = 16 :=
  rfl

/-! ## The hash -/

theorem packetHash_eq {scratch : List UInt8} {drv : PcnetDriver} {front : List Char}
    (hscratch : scratch.length = 64) (hfront : front.length < 2 ^ 31)
    (huser : drv.user.length < 2 ^ 31) (hpass : drv.pass.length < 2 ^ 31) :
    packetHash scratch drv front = md5Hex (front ++ drv.user ++ drv.pass) := by
  have hlength (text : List Char) (htext : text.length < 2 ^ 31) :
      (textBytes text).length < 2 ^ 31 := by
    rwa [textBytes, List.length_map]
  have habsorbed := (((absorbed_init hscratch).append (textBytes front)
    (hlength front hfront)).append (textBytes drv.user) (hlength drv.user huser)).append
    (textBytes drv.pass) (hlength drv.pass hpass)
  rw [packetHash, md5Finish_of_absorbed habsorbed, md5Hex]
  simp only [textBytes, List.nil_append, List.map_append]

/-- With authentication on, a packet that is accepted carries the digits of the digest of its three
pieces.  If a driver with another user and pass phrase accepts it too, the two texts have one
digest. -/
theorem packet_hash_accepted (scratch : List UInt8) (hscratch : scratch.length = 64)
    (drv other : PcnetDriver) (buf : List Char) (hbuf : buf.length < 2 ^ 31)
    (huser : drv.user.length < 2 ^ 31) (hpass : drv.pass.length < 2 ^ 31)
    (hauth : drv.auth = true) (hother : other.auth = true) (table otherTable : List Pair)
    (haccepted : (authAndMapPacket md5Hex drv buf).1 = some table)
    (haccepts : (authAndMapPacket md5Hex other buf).1 = some otherTable) :
    ∃ ptr, strstr mdMark buf = some ptr ∧
      lookupKey mdKey table =
        some (packetHash scratch drv (buf.take (buf.length - ptr.length))) ∧
      md5 (textBytes (buf.take (buf.length - ptr.length) ++ drv.user ++ drv.pass)) =
        md5 (textBytes (buf.take (buf.length - ptr.length) ++ other.user ++ other.pass)) := by
  obtain ⟨rfl, counters, hadmits⟩ := authAndMapPacket_eq_some_iff.mp haccepted
  obtain ⟨rfl, others, hadmitsOther⟩ := authAndMapPacket_eq_some_iff.mp haccepts
  obtain ⟨ptr, hptr, -, hfield⟩ := hadmits.digest
  obtain ⟨ptr', hptr', -, hfield'⟩ := hadmitsOther.digest
  rw [hptr, Option.some.injEq] at hptr'
  subst hptr'
  have hfront : (buf.take (buf.length - ptr.length)).length < 2 ^ 31 :=
    lt_of_le_of_lt (by rw [List.length_take]; exact Nat.min_le_right _ _) hbuf
  refine ⟨ptr, hptr, ?_, ?_⟩
  · rw [packetHash_eq hscratch hfront huser hpass]
    exact hfield hauth
  · have hsame := (hfield hauth).symm.trans (hfield' hother)
    exact digest2ascii_injective (length_digest _) (length_digest _) (Option.some.inj hsame)

/-- A packet for the user {lit}`u` with the pass phrase {lit}`pq`, or {lit}`up` with {lit}`q`. -/
theorem packet_hash_accepted_upq :
    ∃ ptr,
      strstr mdMark "SR=1\nSU=1\nPC=9\nMD=5330a19a40ece317dd94db07de2fb873".toList = some ptr ∧
      lookupKey mdKey (pairs "SR=1\nSU=1\nPC=9\nMD=5330a19a40ece317dd94db07de2fb873".toList) =
        some (packetHash (List.replicate 64 0) ⟨['9'], ['u'], ['p', 'q'], true, 0, 0, false⟩
          ("SR=1\nSU=1\nPC=9\nMD=5330a19a40ece317dd94db07de2fb873".toList.take (50 - ptr.length))) :=
  have haccepted := packet_hash_accepted (List.replicate 64 0) (by decide)
    ⟨['9'], ['u'], ['p', 'q'], true, 0, 0, false⟩ ⟨['9'], ['u', 'p'], ['q'], true, 0, 0, false⟩
    "SR=1\nSU=1\nPC=9\nMD=5330a19a40ece317dd94db07de2fb873".toList (by decide) (by decide)
    (by decide) rfl rfl (pairs "SR=1\nSU=1\nPC=9\nMD=5330a19a40ece317dd94db07de2fb873".toList)
    (pairs "SR=1\nSU=1\nPC=9\nMD=5330a19a40ece317dd94db07de2fb873".toList)
    (by decide +kernel) (by decide +kernel)
  let ⟨ptr, hptr, hfield, _⟩ := haccepted
  ⟨ptr, hptr, hfield⟩

end Apcupsd
