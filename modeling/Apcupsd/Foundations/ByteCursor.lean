import Mathlib.Data.List.Range
import Mathlib.Tactic.Common

/-!
# Reading objects from a buffer

A reader walks a pointer over the memory, with a count of the bytes that are left.  Every
position that it reads is recorded, and so is the number of objects that it has allocated
and not deleted.

Main results:

- Theorem {lit}`Bounded.bind`: readers in a row stay inside the buffer if each of them does.
- Theorem {lit}`Bounded.inside`: so does a reader on a part of the buffer.
- Theorem {lit}`readBytes_of_holds`: bytes that stand in the memory are read.
- Theorem {lit}`Parses.bind`: readers in a row take their bytes in a row.
-/

namespace Apcupsd
namespace ByteCursor

/-! ## Readers -/

/-- The memory, position by position. -/
abbrev Memory := ℕ → UInt8

structure Cursor where
  buffer : ℕ
  buflen : ℕ
  reads : List ℕ
  live : ℕ
deriving DecidableEq

/-- Why a reader stops without a result; running out of fuel models a loop that goes on. -/
inductive Stop where
  | malformed | outOfFuel
deriving DecidableEq

abbrev Reader (α : Type) := Cursor → Except Stop α × Cursor

namespace Reader

variable {α β : Type}

def pure (a : α) : Reader α := fun c => (.ok a, c)

def fail : Reader α := fun c => (.error .malformed, c)

/-- One reader after the other. -/
def bind (first : Reader α) (next : α → Reader β) : Reader β := fun c =>
  match first c with
  | (.error stop, after) => (.error stop, after)
  | (.ok a, after) => next a after

/-- A reader that sees only a part of the buffer; the rest is left behind it. -/
def inside (size : ℕ) (reader : Reader α) : Reader α := fun c =>
  match reader { c with buflen := size } with
  | (.error stop, after) => (.error stop, { after with buflen := c.buflen })
  | (.ok a, after) => (.ok a, { after with buflen := c.buflen - (after.buffer - c.buffer) })

/-- A new object that reads itself; it is deleted if that fails. -/
def construct (reader : Reader α) : Reader α := fun c =>
  match reader { c with live := c.live + 1 } with
  | (.error stop, after) => (.error stop, { after with live := after.live - 1 })
  | (.ok a, after) => (.ok a, after)

end Reader

/-- One byte, if there is one left. -/
def readByte (mem : Memory) : Reader UInt8 := fun c =>
  if c.buflen < 1 then (.error .malformed, c)
  else
    (.ok (mem c.buffer),
      { c with buffer := c.buffer + 1, buflen := c.buflen - 1, reads := c.buffer :: c.reads })

/-- Some bytes in a row, if so many are left. -/
def readBytes (mem : Memory) (n : ℕ) : Reader (List UInt8) := fun c =>
  if c.buflen < n then (.error .malformed, c)
  else
    (.ok ((List.range' c.buffer n).map mem),
      { c with
        buffer := c.buffer + n
        buflen := c.buflen - n
        reads := (List.range' c.buffer n).reverse ++ c.reads })

/-! ## What a result comes from -/

section Results

variable {α β : Type}

theorem bind_eq_ok {first : Reader α} {next : α → Reader β} {c : Cursor} {b : β}
    (hb : (first.bind next c).1 = .ok b) :
    ∃ a middle, first c = (.ok a, middle) ∧ (next a middle).1 = .ok b := by
  unfold Reader.bind at hb
  rcases hfirst : first c with ⟨stop | a, middle⟩
  · rw [hfirst] at hb
    cases hb
  · rw [hfirst] at hb
    exact ⟨a, middle, rfl, hb⟩

theorem construct_eq_ok {reader : Reader α} {c : Cursor} {a : α}
    (ha : (reader.construct c).1 = .ok a) : (reader { c with live := c.live + 1 }).1 = .ok a := by
  unfold Reader.construct at ha
  rcases hrun : reader { c with live := c.live + 1 } with ⟨stop | a', after⟩
  · rw [hrun] at ha
    cases ha
  · rw [hrun] at ha
    exact ha

theorem inside_eq_ok {reader : Reader α} {size : ℕ} {c : Cursor} {a : α}
    (ha : (reader.inside size c).1 = .ok a) : (reader { c with buflen := size }).1 = .ok a := by
  unfold Reader.inside at ha
  rcases hrun : reader { c with buflen := size } with ⟨stop | a', after⟩
  · rw [hrun] at ha
    cases ha
  · rw [hrun] at ha
    exact ha

theorem length_of_readBytes {mem : Memory} {n : ℕ} {c : Cursor} {bytes : List UInt8}
    (hbytes : (readBytes mem n c).1 = .ok bytes) : bytes.length = n := by
  by_cases hlen : c.buflen < n
  · simp [readBytes, hlen] at hbytes
  · simp [readBytes, hlen] at hbytes
    simp [← hbytes]

end Results

/-! ## Staying inside -/

/-- All that is read between two states lies in the buffer of the first. -/
def Within (before after : Cursor) : Prop :=
  ∀ i ∈ after.reads, i ∈ before.reads ∨ before.buffer ≤ i ∧ i < before.buffer + before.buflen

/-- The pointer has moved by as much as the number of bytes left has decreased. -/
structure Advanced (before after : Cursor) : Prop where
  le : before.buffer ≤ after.buffer
  stop : after.buffer + after.buflen = before.buffer + before.buflen

theorem Within.refl (c : Cursor) : Within c c :=
  fun _ hi => Or.inl hi

theorem Advanced.refl (c : Cursor) : Advanced c c :=
  ⟨le_rfl, rfl⟩

theorem Advanced.trans {a b c : Cursor} (hab : Advanced a b) (hbc : Advanced b c) :
    Advanced a c :=
  ⟨hab.le.trans hbc.le, hbc.stop.trans hab.stop⟩

theorem Within.trans {a b c : Cursor} (hab : Within a b) (hadvanced : Advanced a b)
    (hbc : Within b c) : Within a c := by
  intro i hi
  rcases hbc i hi with hearlier | ⟨hlow, hhigh⟩
  · exact hab i hearlier
  · have hle := hadvanced.le
    have hstop := hadvanced.stop
    exact Or.inr ⟨by omega, by omega⟩

/-- A reader that reads only bytes of its buffer, and that has consumed what it read if it
succeeds. -/
def Bounded {α : Type} (reader : Reader α) : Prop :=
  ∀ c, Within c (reader c).2 ∧ ∀ a, (reader c).1 = .ok a → Advanced c (reader c).2

section Bounded

variable {α β : Type} {mem : Memory}

theorem bounded_pure (a : α) : Bounded (Reader.pure a) :=
  fun c => ⟨Within.refl c, fun _ _ => Advanced.refl c⟩

theorem bounded_fail : Bounded (Reader.fail (α := α)) := by
  intro c
  refine ⟨Within.refl c, fun a ha => ?_⟩
  cases ha

theorem bounded_readByte : Bounded (readByte mem) := by
  intro c
  unfold readByte
  split_ifs with hlen
  · exact ⟨Within.refl c, fun _ ha => ha.elim⟩
  · refine ⟨fun i hi => ?_, fun a _ => ⟨Nat.le_succ _, ?_⟩⟩
    · rcases List.mem_cons.mp hi with rfl | hearlier
      · exact Or.inr ⟨le_rfl, by omega⟩
      · exact Or.inl hearlier
    · dsimp only
      omega

theorem bounded_readBytes (n : ℕ) : Bounded (readBytes mem n) := by
  intro c
  unfold readBytes
  split_ifs with hlen
  · exact ⟨Within.refl c, fun _ ha => ha.elim⟩
  · refine ⟨fun i hi => ?_, fun a _ => ⟨Nat.le_add_right _ _, ?_⟩⟩
    · rcases List.mem_append.mp hi with hnew | hearlier
      · have hrange := List.mem_range'_1.mp (List.mem_reverse.mp hnew)
        exact Or.inr ⟨hrange.1, by omega⟩
      · exact Or.inl hearlier
    · dsimp only
      omega

/-- Readers in a row stay inside the buffer if each of them does. -/
theorem Bounded.bind {first : Reader α} {next : α → Reader β} (hfirst : Bounded first)
    (hnext : ∀ a, Bounded (next a)) : Bounded (first.bind next) := by
  intro c
  rcases hfirst c with ⟨hwithin, hadvanced⟩
  unfold Reader.bind
  rcases hrun : first c with ⟨result, after⟩
  rw [hrun] at hwithin hadvanced
  cases result with
  | error stop =>
      refine ⟨hwithin, fun b hb => ?_⟩
      cases hb
  | ok a =>
      have hmoved := hadvanced a rfl
      rcases hnext a after with ⟨hwithin', hadvanced'⟩
      exact ⟨hwithin.trans hmoved hwithin', fun b hb => hmoved.trans (hadvanced' b hb)⟩

/-- A reader on a part of the buffer stays inside the buffer. -/
theorem Bounded.inside {reader : Reader α} (hreader : Bounded reader) {size : ℕ} {c : Cursor}
    (hsize : size ≤ c.buflen) :
    Within c (reader.inside size c).2 ∧
      ∀ a, (reader.inside size c).1 = .ok a → Advanced c (reader.inside size c).2 := by
  rcases hreader { c with buflen := size } with ⟨hwithin, hadvanced⟩
  unfold Reader.inside
  rcases hrun : reader { c with buflen := size } with ⟨result, after⟩
  rw [hrun] at hwithin hadvanced
  have hpart {stop : Cursor} (hreads : stop.reads = after.reads) : Within c stop := by
    intro i hi
    rcases hwithin i (hreads ▸ hi) with hearlier | ⟨hlow, hhigh⟩
    · exact Or.inl hearlier
    · exact Or.inr ⟨hlow, lt_of_lt_of_le hhigh (Nat.add_le_add_left hsize _)⟩
  cases result with
  | error stop =>
      refine ⟨hpart rfl, fun a ha => ?_⟩
      cases ha
  | ok a =>
      have hmoved := hadvanced a rfl
      refine ⟨hpart rfl, fun _ _ => ⟨hmoved.le, ?_⟩⟩
      have hle := hmoved.le
      have hstop := hmoved.stop
      dsimp only at hle hstop ⊢
      omega

theorem Bounded.construct {reader : Reader α} (hreader : Bounded reader) :
    Bounded reader.construct := by
  intro c
  rcases hreader { c with live := c.live + 1 } with ⟨hwithin, hadvanced⟩
  unfold Reader.construct
  rcases hrun : reader { c with live := c.live + 1 } with ⟨result, after⟩
  rw [hrun] at hwithin hadvanced
  cases result with
  | error stop =>
      refine ⟨hwithin, fun a ha => ?_⟩
      cases ha
  | ok a =>
      have hmoved := hadvanced a rfl
      exact ⟨hwithin, fun _ _ => ⟨hmoved.le, hmoved.stop⟩⟩

end Bounded

/-! ## What stands in the memory -/

/-- Bytes that stand in the memory from a position on. -/
def Holds (mem : Memory) (start : ℕ) (bytes : List UInt8) : Prop :=
  (List.range' start bytes.length).map mem = bytes

section Holds

variable {mem : Memory} {start : ℕ}

theorem holds_nil : Holds mem start [] :=
  rfl

theorem holds_cons {b : UInt8} {bytes : List UInt8} :
    Holds mem start (b :: bytes) ↔ mem start = b ∧ Holds mem (start + 1) bytes := by
  rw [Holds, List.length_cons, List.range'_succ, List.map_cons, List.cons.injEq, Holds]

theorem holds_append {front back : List UInt8} :
    Holds mem start (front ++ back) ↔
      Holds mem start front ∧ Holds mem (start + front.length) back := by
  induction front generalizing start with
  | nil => simp [holds_nil]
  | cons b front ih =>
      rw [List.cons_append, holds_cons, holds_cons, ih, List.length_cons, and_assoc,
        Nat.add_assoc, Nat.add_comm 1]

/-- The memory that holds a text from the beginning on. -/
def memoryOf (bytes : List UInt8) : Memory := fun i => bytes.getD i 0

theorem holds_memoryOf_append (before bytes after : List UInt8) :
    Holds (memoryOf (before ++ (bytes ++ after))) before.length bytes := by
  induction bytes generalizing before with
  | nil => exact holds_nil
  | cons b bytes ih =>
      rw [holds_cons]
      constructor
      · simp [memoryOf]
      · have htail := ih (before ++ [b])
        simpa using htail

/-- A byte that stands in the memory is read. -/
theorem readByte_of_holds {c : Cursor} {b : UInt8} {bytes : List UInt8}
    (hholds : Holds mem c.buffer (b :: bytes)) (hlen : 1 ≤ c.buflen) :
    ∃ reads, readByte mem c =
      (.ok b, { c with buffer := c.buffer + 1, buflen := c.buflen - 1, reads := reads }) := by
  refine ⟨c.buffer :: c.reads, ?_⟩
  rw [readByte, if_neg (by omega), (holds_cons.mp hholds).1]

/-- Bytes that stand in the memory are read. -/
theorem readBytes_of_holds {c : Cursor} {bytes : List UInt8}
    (hholds : Holds mem c.buffer bytes) (hlen : bytes.length ≤ c.buflen) :
    ∃ reads, readBytes mem bytes.length c =
      (.ok bytes, { c with
        buffer := c.buffer + bytes.length
        buflen := c.buflen - bytes.length
        reads := reads }) := by
  refine ⟨(List.range' c.buffer bytes.length).reverse ++ c.reads, ?_⟩
  rw [readBytes, if_neg (by omega), hholds]

end Holds

/-! ## Readers that take exactly some bytes -/

/-- A reader that takes exactly some bytes, whatever lies behind them. -/
def Parses {α : Type} (mem : Memory) (reader : Reader α) (bytes : List UInt8) (a : α) : Prop :=
  ∀ c, Holds mem c.buffer bytes → bytes.length ≤ c.buflen →
    ∃ after, reader c = (.ok a, after) ∧ after.buffer = c.buffer + bytes.length ∧
      after.buflen = c.buflen - bytes.length

/-- A reader that takes exactly some bytes if nothing is left behind them. -/
def ParsesAll {α : Type} (mem : Memory) (reader : Reader α) (bytes : List UInt8) (a : α) :
    Prop :=
  ∀ c, Holds mem c.buffer bytes → c.buflen = bytes.length →
    ∃ after, reader c = (.ok a, after) ∧ after.buffer = c.buffer + bytes.length

section Parses

variable {α β : Type} {mem : Memory} {bytes bytes' : List UInt8}

theorem parses_pure (a : α) : Parses mem (Reader.pure a) [] a :=
  fun c _ _ => ⟨c, rfl, rfl, rfl⟩

theorem parses_readByte (b : UInt8) : Parses mem (readByte mem) [b] b := by
  intro c hholds hlen
  rcases readByte_of_holds hholds hlen with ⟨reads, hread⟩
  exact ⟨_, hread, rfl, rfl⟩

theorem parses_readBytes (bytes : List UInt8) :
    Parses mem (readBytes mem bytes.length) bytes bytes := by
  intro c hholds hlen
  rcases readBytes_of_holds hholds hlen with ⟨reads, hread⟩
  exact ⟨_, hread, rfl, rfl⟩

/-- Readers in a row take their bytes in a row. -/
theorem Parses.bind {first : Reader α} {next : α → Reader β} {a : α} {b : β}
    (hfirst : Parses mem first bytes a) (hnext : Parses mem (next a) bytes' b) :
    Parses mem (first.bind next) (bytes ++ bytes') b := by
  intro c hholds hlen
  rw [List.length_append] at hlen
  rcases holds_append.mp hholds with ⟨hfront, hback⟩
  rcases hfirst c hfront (by omega) with ⟨middle, hrun, hbuffer, hbuflen⟩
  rcases hnext middle (hbuffer ▸ hback) (by omega) with ⟨after, hrun', hbuffer', hbuflen'⟩
  refine ⟨after, ?_, ?_, ?_⟩
  · simp [Reader.bind, hrun, hrun']
  · rw [List.length_append]
    omega
  · rw [List.length_append]
    omega

theorem Parses.construct {reader : Reader α} {a : α} (hreader : Parses mem reader bytes a) :
    Parses mem reader.construct bytes a := by
  intro c hholds hlen
  rcases hreader { c with live := c.live + 1 } hholds hlen with ⟨after, hrun, hbuffer, hbuflen⟩
  refine ⟨after, ?_, hbuffer, hbuflen⟩
  rw [Reader.construct, hrun]

/-- On a part of the buffer, nothing is left behind the part. -/
theorem ParsesAll.inside {reader : Reader α} {a : α} (hreader : ParsesAll mem reader bytes a) :
    Parses mem (reader.inside bytes.length) bytes a := by
  intro c hholds _
  rcases hreader { c with buflen := bytes.length } hholds rfl with ⟨after, hrun, hbuffer⟩
  dsimp only at hbuffer
  refine ⟨{ after with buflen := c.buflen - (after.buffer - c.buffer) }, ?_, hbuffer, ?_⟩
  · simp [Reader.inside, hrun]
  · simp [hbuffer]

end Parses

end ByteCursor
end Apcupsd
