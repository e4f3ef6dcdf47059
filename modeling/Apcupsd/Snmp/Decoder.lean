import Apcupsd.Snmp.Asn

/-!
# The decoder stays inside its input

What {lit}`Object::Demarshal` does on any memory, with any claimed length.

Main results:

- Theorem {lit}`bounded_demarshal`: only bytes of the buffer are read.
- Theorem {lit}`demarshal_terminates`: the buffer bounds the number of turns.
- Theorem {lit}`builds_demarshal`: an object that has been decoded lies in the extent that
  its length field declares, its items tile that extent, and a decoder that fails has deleted
  what it had built.
-/

namespace Apcupsd
namespace Asn

open ByteCursor Radix

variable {mem : Memory}

/-! ## Reading inside the buffer -/

theorem bounded_demarshalLength : Bounded (demarshalLength mem) := by
  refine bounded_readByte.bind fun first => ?_
  split_ifs
  · exact bounded_pure _
  · exact (bounded_readBytes _).bind fun bytes => bounded_pure _

theorem bounded_demarshalData (least most : ℕ) : Bounded (demarshalData mem least most) := by
  refine bounded_demarshalLength.bind fun datalen => ?_
  split_ifs
  · exact bounded_fail
  · exact bounded_readBytes datalen

theorem bounded_keepItem {items : Reader (List Obj)} (hitems : Bounded items) (obj : Obj) :
    Bounded (keepItem obj items) := by
  intro c
  rcases hitems c with ⟨hwithin, hadvanced⟩
  unfold keepItem
  rcases hrun : items c with ⟨result, after⟩
  rw [hrun] at hwithin hadvanced
  cases result with
  | error stop =>
      refine ⟨hwithin, fun a ha => ?_⟩
      cases ha
  | ok data => exact ⟨hwithin, fun _ _ => hadvanced data rfl⟩

/-- The items of a sequence are read from the part of the buffer that the sequence declares. -/
theorem bounded_sequence {items : Reader (List Obj)} (hitems : Bounded items)
    (type : Identifier) (datalen : ℕ) :
    Bounded fun c =>
      if datalen < 1 ∨ c.buflen < datalen then Reader.fail c
      else (items.inside datalen).bind (fun data => Reader.pure (Obj.sequence type data)) c := by
  intro c
  dsimp only
  split_ifs with hsize
  · exact bounded_fail c
  · have hinside := hitems.inside (c := c) (Nat.le_of_not_lt (not_or.mp hsize).2)
    unfold Reader.bind
    rcases hrun : items.inside datalen c with ⟨result, after⟩
    rw [hrun] at hinside
    cases result with
    | error stop =>
        refine ⟨hinside.1, fun a ha => ?_⟩
        cases ha
    | ok data => exact ⟨hinside.1, fun _ _ => hinside.2 data rfl⟩

theorem bounded_demarshalAs {items : Reader (List Obj)} (hitems : Bounded items)
    (type : Identifier) : Bounded (demarshalAs mem items type) := by
  unfold demarshalAs
  split
  · exact bounded_fail
  · exact ((bounded_demarshalData 1 4).bind fun bytes => bounded_pure _).construct
  · exact ((bounded_demarshalData 1 uintMax).bind fun bytes => bounded_pure _).construct
  · exact ((bounded_demarshalData 1 uintMax).bind fun bytes => bounded_pure _).construct
  · refine (bounded_demarshalLength.bind fun datalen => ?_).construct
    split_ifs
    · exact bounded_pure _
    · exact bounded_fail
  · exact (bounded_demarshalLength.bind (bounded_sequence hitems type)).construct

/-- Only bytes of the buffer are read. -/
theorem bounded_demarshal (fuel : ℕ) :
    Bounded (demarshal mem fuel) ∧ Bounded (demarshalAll mem fuel) := by
  induction fuel with
  | zero =>
      refine ⟨fun c => ⟨Within.refl c, fun a ha => ?_⟩, fun c => ?_⟩
      · cases ha
      · unfold demarshalAll
        split_ifs
        · exact bounded_pure [] c
        · refine ⟨Within.refl c, fun a ha => ?_⟩
          cases ha
  | succ fuel ih =>
      constructor
      · exact bounded_readByte.bind (bounded_demarshalAs ih.2)
      · unfold demarshalAll
        intro c
        dsimp only
        split_ifs
        · exact bounded_pure [] c
        · exact (ih.1.bind fun obj => bounded_keepItem ih.2 obj) c

/-! ## Termination -/

/-- A reader without a loop that could go on. -/
def Ends {α : Type} (reader : Reader α) : Prop :=
  ∀ c, (reader c).1 ≠ .error .outOfFuel

section Ends

variable {α β : Type}

theorem ends_pure (a : α) : Ends (Reader.pure a) := by
  intro c hstop
  cases hstop

theorem ends_fail : Ends (Reader.fail (α := α)) := by
  intro c hstop
  cases hstop

theorem ends_readByte : Ends (readByte mem) := by
  intro c
  unfold readByte
  split_ifs <;> simp

theorem ends_readBytes (n : ℕ) : Ends (readBytes mem n) := by
  intro c
  unfold readBytes
  split_ifs <;> simp

/-- What a reader hands on decides whether two readers in a row end. -/
theorem bind_ends {first : Reader α} {next : α → Reader β} {c : Cursor}
    (hfirst : (first c).1 ≠ .error .outOfFuel)
    (hnext : ∀ a, (first c).1 = .ok a → (next a (first c).2).1 ≠ .error .outOfFuel) :
    (first.bind next c).1 ≠ .error .outOfFuel := by
  unfold Reader.bind
  rcases hrun : first c with ⟨result, after⟩
  rw [hrun] at hfirst hnext
  cases result with
  | error stop => exact fun hstop => hfirst (by simpa using hstop)
  | ok a => exact hnext a rfl

theorem Ends.bind {first : Reader α} {next : α → Reader β} (hfirst : Ends first)
    (hnext : ∀ a, Ends (next a)) : Ends (first.bind next) :=
  fun c => bind_ends (hfirst c) fun a _ => hnext a _

theorem construct_ends {reader : Reader α} {c : Cursor}
    (hreader : (reader { c with live := c.live + 1 }).1 ≠ .error .outOfFuel) :
    (reader.construct c).1 ≠ .error .outOfFuel := by
  unfold Reader.construct
  rcases hrun : reader { c with live := c.live + 1 } with ⟨result, after⟩
  rw [hrun] at hreader
  cases result with
  | error stop => exact fun hstop => hreader (by simpa using hstop)
  | ok a => simp

theorem ends_demarshalLength : Ends (demarshalLength mem) := by
  refine ends_readByte.bind fun first => ?_
  split_ifs
  · exact ends_pure _
  · exact (ends_readBytes _).bind fun bytes => ends_pure _

theorem ends_demarshalData (least most : ℕ) : Ends (demarshalData mem least most) := by
  refine ends_demarshalLength.bind fun datalen => ?_
  split_ifs
  · exact ends_fail
  · exact ends_readBytes datalen

theorem inside_ends {reader : Reader α} {size : ℕ} {c : Cursor}
    (hreader : (reader { c with buflen := size }).1 ≠ .error .outOfFuel) :
    (reader.inside size c).1 ≠ .error .outOfFuel := by
  unfold Reader.inside
  rcases hrun : reader { c with buflen := size } with ⟨result, after⟩
  rw [hrun] at hreader
  cases result with
  | error stop => exact fun hstop => hreader (by simpa using hstop)
  | ok a => simp

theorem keepItem_ends {items : Reader (List Obj)} {c : Cursor} (obj : Obj)
    (hitems : (items c).1 ≠ .error .outOfFuel) :
    (keepItem obj items c).1 ≠ .error .outOfFuel := by
  unfold keepItem
  rcases hrun : items c with ⟨result, after⟩
  rw [hrun] at hitems
  cases result with
  | error stop => exact fun hstop => hitems (by simpa using hstop)
  | ok data => simp

end Ends

/-- A byte that has been read is gone. -/
theorem readByte_bind_advances {α : Type} {next : UInt8 → Reader α} {c : Cursor} {a : α}
    (hnext : ∀ b, Bounded (next b)) (ha : ((readByte mem).bind next c).1 = .ok a) :
    c.buffer < ((readByte mem).bind next c).2.buffer := by
  by_cases hlen : c.buflen < 1
  · simp [Reader.bind, readByte, hlen] at ha
  · simp only [Reader.bind, readByte, if_neg hlen] at ha ⊢
    exact ((hnext _ _).2 a ha).le

theorem demarshal_advances {fuel : ℕ} {c : Cursor} {obj : Obj}
    (hobj : (demarshal mem fuel c).1 = .ok obj) :
    c.buffer < (demarshal mem fuel c).2.buffer := by
  cases fuel with
  | zero => cases hobj
  | succ fuel =>
      exact readByte_bind_advances (bounded_demarshalAs (bounded_demarshal fuel).2) hobj

theorem demarshalLength_advances {c : Cursor} {datalen : ℕ}
    (hlen : (demarshalLength mem c).1 = .ok datalen) :
    c.buffer < (demarshalLength mem c).2.buffer := by
  refine readByte_bind_advances (fun first => ?_) hlen
  split_ifs
  · exact bounded_pure _
  · exact (bounded_readBytes _).bind fun bytes => bounded_pure _

/-- An object ends if the loop over the items of any part of the buffer does. -/
theorem demarshalAs_ends {items : Reader (List Obj)} {c : Cursor} (type : Identifier)
    (hitems : ∀ part : Cursor, part.buflen < c.buflen → (items part).1 ≠ .error .outOfFuel) :
    (demarshalAs mem items type c).1 ≠ .error .outOfFuel := by
  unfold demarshalAs
  rcases classOf type with _ | objClass
  · exact ends_fail c
  · cases objClass with
    | integer => exact construct_ends (((ends_demarshalData 1 4).bind fun _ => ends_pure _) _)
    | octetString =>
        exact construct_ends (((ends_demarshalData 1 uintMax).bind fun _ => ends_pure _) _)
    | objectId =>
        exact construct_ends (((ends_demarshalData 1 uintMax).bind fun _ => ends_pure _) _)
    | null =>
        refine construct_ends ((ends_demarshalLength.bind fun datalen => ?_) _)
        split_ifs
        · exact ends_pure _
        · exact ends_fail
    | sequence =>
        refine construct_ends (bind_ends (ends_demarshalLength _) fun datalen hlen => ?_)
        have hmoved := (@bounded_demarshalLength mem _).2 datalen hlen
        have hadvances := demarshalLength_advances hlen
        have hstop := hmoved.stop
        dsimp only at hadvances hstop ⊢
        split_ifs with hsize
        · exact ends_fail _
        · refine bind_ends (inside_ends (hitems _ ?_)) fun data _ => ends_pure _ _
          dsimp only
          omega

/-- The buffer bounds the number of turns. -/
theorem demarshal_ends (fuel : ℕ) (c : Cursor) :
    (2 * c.buflen + 1 ≤ fuel → (demarshal mem fuel c).1 ≠ .error .outOfFuel) ∧
      (2 * c.buflen + 2 ≤ fuel → (demarshalAll mem fuel c).1 ≠ .error .outOfFuel) := by
  induction fuel generalizing c with
  | zero =>
      constructor
      · intro hfuel
        omega
      · intro hfuel
        omega
  | succ fuel ih =>
      constructor
      · intro hfuel
        refine bind_ends (ends_readByte c) fun type htype => ?_
        have hmoved := (@bounded_readByte mem c).2 type htype
        refine demarshalAs_ends type fun part hpart => (ih part).2 ?_
        have hle := hmoved.le
        have hstop := hmoved.stop
        omega
      · intro hfuel
        unfold demarshalAll
        split_ifs with hempty
        · simp
        · refine bind_ends ((ih c).1 (by omega)) fun obj hobj => keepItem_ends obj ((ih _).2 ?_)
          have hmoved := ((@bounded_demarshal mem fuel).1 c).2 obj hobj
          have hadvances := demarshal_advances hobj
          have hstop := hmoved.stop
          omega

theorem demarshal_terminates (c : Cursor) :
    (demarshalObject mem c).1 ≠ .error .outOfFuel :=
  (demarshal_ends (enoughFuel c.buflen) c).1 le_rfl

/-! ## Where the objects lie -/

/-- A length field stands at a position; behind it the contents begin. -/
def HeaderAt (mem : Memory) (start first datalen : ℕ) : Prop :=
  ∃ c after, c.buffer = start ∧ demarshalLength mem c = (.ok datalen, after) ∧
    after.buffer = first

/-- An object has an extent: a type byte, a length field, and contents of that length. -/
def Extent (mem : Memory) (start first stop : ℕ) : Prop :=
  (classOf (mem start)).isSome ∧ start < first ∧ first ≤ stop ∧
    HeaderAt mem (start + 1) first (stop - first)

mutual

/-- An object lies in its extent, and the items of a sequence tile its contents. -/
def Laid (mem : Memory) : Obj → ℕ → ℕ → Prop
  | .sequence type data, start, stop =>
      mem start = type ∧ ∃ first, Extent mem start first stop ∧ LaidAll mem data first stop
  | _, start, stop => ∃ first, Extent mem start first stop

def LaidAll (mem : Memory) : List Obj → ℕ → ℕ → Prop
  | [], start, stop => start = stop
  | obj :: data, start, stop => ∃ middle, Laid mem obj start middle ∧ LaidAll mem data middle stop

end

/-! ## Objects that exist -/

/-- A reader that builds no object. -/
def Keeps {α : Type} (reader : Reader α) : Prop :=
  ∀ c, (reader c).2.live = c.live

section Keeps

variable {α β : Type}

theorem keeps_pure (a : α) : Keeps (Reader.pure a) :=
  fun _ => rfl

theorem keeps_readByte : Keeps (readByte mem) := by
  intro c
  unfold readByte
  split_ifs <;> rfl

theorem keeps_readBytes (n : ℕ) : Keeps (readBytes mem n) := by
  intro c
  unfold readBytes
  split_ifs <;> rfl

theorem Keeps.bind {first : Reader α} {next : α → Reader β} (hfirst : Keeps first)
    (hnext : ∀ a, Keeps (next a)) : Keeps (first.bind next) := by
  intro c
  have hkept := hfirst c
  unfold Reader.bind
  rcases hrun : first c with ⟨result, after⟩
  rw [hrun] at hkept
  cases result with
  | error stop => exact hkept
  | ok a => exact (hnext a after).trans hkept

theorem keeps_demarshalLength : Keeps (demarshalLength mem) := by
  refine keeps_readByte.bind fun first => ?_
  split_ifs
  · exact keeps_pure _
  · exact (keeps_readBytes _).bind fun bytes => keeps_pure _

theorem keeps_demarshalData (least most : ℕ) : Keeps (demarshalData mem least most) := by
  refine keeps_demarshalLength.bind fun datalen => ?_
  split_ifs
  · exact fun _ => rfl
  · exact keeps_readBytes datalen

end Keeps

/-! ## What a decoder leaves -/

/-- A decoder that fails has deleted what it had built; one that succeeds has built an
object with its items, from the contents that begin at the present position. -/
structure Builds {α : Type} (run : Except Stop α × Cursor) (c : Cursor) (nodes : α → ℕ)
    (laid : α → ℕ → Prop) : Prop where
  deleted : ∀ stop, run.1 = .error stop → run.2.live = c.live
  built : ∀ a, run.1 = .ok a → run.2.live = c.live + nodes a ∧ laid a run.2.buffer

theorem Builds.of_construct {α : Type} {reader : Reader α} {c : Cursor} {nodes : α → ℕ}
    {laid : α → ℕ → Prop}
    (hreader : Builds (reader { c with live := c.live + 1 }) { c with live := c.live + 1 } nodes
      laid) :
    Builds (reader.construct c) c (fun a => 1 + nodes a) laid := by
  rcases hreader with ⟨hdeleted, hbuilt⟩
  unfold Reader.construct
  rcases hrun : reader { c with live := c.live + 1 } with ⟨result, after⟩
  rw [hrun] at hdeleted hbuilt
  cases result with
  | error stop =>
      constructor
      · intro _ _
        have hlive := hdeleted stop rfl
        dsimp only at hlive ⊢
        omega
      · intro a ha
        cases ha
  | ok a =>
      constructor
      · intro stop hstop
        cases hstop
      · intro b hb
        rcases hbuilt b hb with ⟨hlive, hlaid⟩
        refine ⟨?_, hlaid⟩
        dsimp only at hlive ⊢
        omega

/-- What the length field says about the contents. -/
theorem demarshalData_extent {least most : ℕ} {c after : Cursor} {bytes : List UInt8}
    (hrun : demarshalData mem least most c = (.ok bytes, after)) :
    ∃ first, c.buffer < first ∧ first ≤ after.buffer ∧
      HeaderAt mem c.buffer first (after.buffer - first) := by
  unfold demarshalData Reader.bind at hrun
  rcases hlen : demarshalLength mem c with ⟨result, middle⟩
  rw [hlen] at hrun
  cases result with
  | error stop => cases hrun
  | ok datalen =>
      have hadvances : c.buffer < middle.buffer := by
        have hlt := @demarshalLength_advances mem c datalen
          (by rw [hlen])
        rwa [hlen] at hlt
      dsimp only at hrun
      split_ifs at hrun with hsize
      · cases hrun
      · unfold readBytes at hrun
        split_ifs at hrun with hroom
        · cases hrun
        · rcases Prod.mk.inj hrun with ⟨-, rfl⟩
          refine ⟨middle.buffer, hadvances, Nat.le_add_right _ _, c, middle, rfl, ?_, rfl⟩
          rw [hlen, Nat.add_sub_cancel_left]

/-- A reader that builds nothing by itself, and a value that is made from what it read. -/
theorem Keeps.builds {α β : Type} {reader : Reader α} (hreader : Keeps reader) {c : Cursor}
    (make : α → β) {laid : β → ℕ → Prop}
    (hlaid : ∀ a after, reader c = (.ok a, after) → laid (make a) after.buffer) :
    Builds ((reader.bind fun a => Reader.pure (make a)) c) c (fun _ => 0) laid := by
  have hkept := hreader c
  unfold Reader.bind
  rcases hrun : reader c with ⟨result, after⟩
  rw [hrun] at hkept
  cases result with
  | error stop =>
      refine ⟨fun _ _ => hkept, fun b hb => ?_⟩
      cases hb
  | ok a =>
      constructor
      · intro stop hstop
        cases hstop
      · intro b hb
        obtain rfl := Except.ok.inj hb
        exact ⟨hkept, hlaid a after hrun⟩

theorem builds_fail {α : Type} (c : Cursor) (nodes : α → ℕ) (laid : α → ℕ → Prop) :
    Builds (Reader.fail c) c nodes laid := by
  refine ⟨fun _ _ => rfl, fun a ha => ?_⟩
  cases ha

theorem Builds.imp {α : Type} {run : Except Stop α × Cursor} {c : Cursor} {nodes size : α → ℕ}
    {laid placed : α → ℕ → Prop} (hrun : Builds run c nodes laid)
    (himp : ∀ a stop, laid a stop → nodes a = size a ∧ placed a stop) :
    Builds run c size placed := by
  refine ⟨hrun.deleted, fun a ha => ?_⟩
  rcases hrun.built a ha with ⟨hlive, hlaid⟩
  rcases himp a _ hlaid with ⟨hnodes, hplaced⟩
  exact ⟨hnodes ▸ hlive, hplaced⟩

/-- An object without items lies in its extent. -/
theorem builds_leaf {start least most : ℕ} {c : Cursor} (make : List UInt8 → Obj)
    (hmake : ∀ bytes, (make bytes).nodes = 1 ∧
      ∀ first stop, Extent mem start first stop → Laid mem (make bytes) start stop)
    (hclass : (classOf (mem start)).isSome) (hc : c.buffer = start + 1) :
    Builds (Reader.construct ((demarshalData mem least most).bind fun bytes =>
      Reader.pure (make bytes)) c) c Obj.nodes fun obj stop => Laid mem obj start stop := by
  have hbuilds := Builds.of_construct (c := c)
    (@Keeps.builds _ _ _ (@keeps_demarshalData mem least most) { c with live := c.live + 1 } make
      (fun obj stop => obj.nodes = 1 ∧ Laid mem obj start stop) (by
        intro bytes after hrun
        rcases demarshalData_extent hrun with ⟨first, hfirst, hstop, hheader⟩
        dsimp only at hfirst hheader
        rw [hc] at hfirst hheader
        rcases hmake bytes with ⟨hnodes, hlaid⟩
        exact ⟨hnodes, hlaid first _ ⟨hclass, by omega, hstop, hheader⟩⟩))
  refine hbuilds.imp ?_
  rintro obj stop ⟨hnodes, hlaid⟩
  exact ⟨hnodes.symm, hlaid⟩

/-- The loop over the items ends where its part of the buffer does. -/
theorem demarshalAll_buflen {fuel : ℕ} {c : Cursor} {data : List Obj}
    (hdata : (demarshalAll mem fuel c).1 = .ok data) : (demarshalAll mem fuel c).2.buflen = 0 := by
  induction fuel generalizing c data with
  | zero =>
      unfold demarshalAll at hdata ⊢
      split_ifs at hdata ⊢ with hempty
      exact hempty
  | succ fuel ih =>
      unfold demarshalAll at hdata ⊢
      split_ifs at hdata ⊢ with hempty
      · exact hempty
      · unfold Reader.bind at hdata ⊢
        rcases hrun : demarshal mem fuel c with ⟨result, after⟩
        rw [hrun] at hdata
        cases result with
        | error stop => cases hdata
        | ok obj =>
            dsimp only at hdata ⊢
            unfold keepItem at hdata ⊢
            rcases hitems : demarshalAll mem fuel after with ⟨items, last⟩
            rw [hitems] at hdata
            cases items with
            | error stop => cases hdata
            | ok tail =>
                have hend := @ih after tail (by rw [hitems])
                rwa [hitems] at hend

/-- A sequence lies in its extent, and its items tile it. -/
theorem builds_sequence {items : Reader (List Obj)} {start : ℕ} {c : Cursor}
    (hitems : ∀ part : Cursor, Builds (items part) part nodesAll
      fun data stop => LaidAll mem data part.buffer stop)
    (hend : ∀ (part : Cursor) data, (items part).1 = .ok data →
      (items part).2.buffer = part.buffer + part.buflen)
    (hclass : (classOf (mem start)).isSome) (hc : c.buffer = start + 1) :
    Builds (Reader.construct ((demarshalLength mem).bind fun datalen c =>
      if datalen < 1 ∨ c.buflen < datalen then Reader.fail c
      else (items.inside datalen).bind (fun data => Reader.pure (.sequence (mem start) data)) c) c)
      c Obj.nodes fun obj stop => Laid mem obj start stop := by
  have hkept := @keeps_demarshalLength mem { c with live := c.live + 1 }
  have hbuilds : Builds (((demarshalLength mem).bind fun datalen c =>
      if datalen < 1 ∨ c.buflen < datalen then Reader.fail c
      else (items.inside datalen).bind (fun data => Reader.pure (.sequence (mem start) data)) c)
        { c with live := c.live + 1 }) { c with live := c.live + 1 } (fun obj => obj.nodes - 1)
      fun obj stop => 1 ≤ obj.nodes ∧ Laid mem obj start stop := by
    unfold Reader.bind
    rcases hlen : demarshalLength mem { c with live := c.live + 1 } with ⟨result, middle⟩
    rw [hlen] at hkept
    cases result with
    | error stop =>
        refine ⟨fun _ _ => hkept, fun obj hobj => ?_⟩
        cases hobj
    | ok datalen =>
        have hfirst := @demarshalLength_advances mem { c with live := c.live + 1 } datalen
          (by rw [hlen])
        rw [hlen] at hfirst
        dsimp only at hfirst hkept ⊢
        split_ifs with hsize
        · refine ⟨fun _ _ => hkept, fun obj hobj => ?_⟩
          cases hobj
        · have hpart := hitems { middle with buflen := datalen }
          have hlast := hend { middle with buflen := datalen }
          unfold Reader.inside
          rcases hrun : items { middle with buflen := datalen } with ⟨itemsResult, after⟩
          rw [hrun] at hpart hlast
          cases itemsResult with
          | error stop =>
              refine ⟨fun _ _ => ?_, fun obj hobj => ?_⟩
              · exact (hpart.deleted stop rfl).trans hkept
              · cases hobj
          | ok data =>
              constructor
              · intro stop hstop
                cases hstop
              · intro obj hobj
                obtain rfl := Except.ok.inj hobj
                rcases hpart.built data rfl with ⟨hlive, hlaid⟩
                have hstop := hlast data rfl
                dsimp only [Reader.pure] at hlive hlaid hstop ⊢
                refine ⟨?_, ?_, rfl, middle.buffer, ?_, hlaid⟩
                · rw [hlive, hkept, Obj.nodes]
                  omega
                · rw [Obj.nodes]
                  omega
                · refine ⟨hclass, by omega, by omega, { c with live := c.live + 1 }, middle, hc, ?_,
                    rfl⟩
                  rw [hlen, hstop, Nat.add_sub_cancel_left]
  refine (Builds.of_construct hbuilds).imp ?_
  rintro obj stop ⟨hnodes, hlaid⟩
  exact ⟨by omega, hlaid⟩

theorem readByte_eq_ok {c after : Cursor} {b : UInt8} (hread : readByte mem c = (.ok b, after)) :
    b = mem c.buffer ∧ after.buffer = c.buffer + 1 ∧ after.live = c.live := by
  unfold readByte at hread
  split_ifs at hread with hlen
  · cases hread
  · rcases Prod.mk.inj hread with ⟨hb, rfl⟩
    exact ⟨(Except.ok.inj hb).symm, rfl, rfl⟩

/-- The object of a type byte, if the loop over the items does what it should. -/
theorem builds_demarshalAs {items : Reader (List Obj)} {start : ℕ} {c : Cursor}
    (hitems : ∀ part : Cursor, Builds (items part) part nodesAll
      fun data stop => LaidAll mem data part.buffer stop)
    (hend : ∀ (part : Cursor) data, (items part).1 = .ok data →
      (items part).2.buffer = part.buffer + part.buflen)
    (hc : c.buffer = start + 1) :
    Builds (demarshalAs mem items (mem start) c) c Obj.nodes
      fun obj stop => Laid mem obj start stop := by
  unfold demarshalAs
  rcases hclass : classOf (mem start) with _ | objClass
  · exact builds_fail c _ _
  · have hsome : (classOf (mem start)).isSome := by simp [hclass]
    cases objClass with
    | integer =>
        refine builds_leaf _ (fun bytes => ?_) hsome hc
        unfold integerOf
        split_ifs
        · exact ⟨rfl, fun first stop hextent => ⟨first, hextent⟩⟩
        · exact ⟨rfl, fun first stop hextent => ⟨first, hextent⟩⟩
    | octetString =>
        exact builds_leaf _ (fun bytes => ⟨rfl, fun first stop hextent => ⟨first, hextent⟩⟩)
          hsome hc
    | objectId =>
        exact builds_leaf _ (fun bytes => ⟨rfl, fun first stop hextent => ⟨first, hextent⟩⟩)
          hsome hc
    | null =>
        have hbody : Builds ((demarshalLength mem).bind (fun datalen =>
            if datalen = 0 then Reader.pure Obj.null else Reader.fail)
              { c with live := c.live + 1 }) { c with live := c.live + 1 } (fun _ => 0)
            fun obj stop => obj.nodes = 1 ∧ Laid mem obj start stop := by
          have hkept := @keeps_demarshalLength mem { c with live := c.live + 1 }
          unfold Reader.bind
          rcases hlen : demarshalLength mem { c with live := c.live + 1 } with ⟨result, middle⟩
          rw [hlen] at hkept
          cases result with
          | error stop =>
              refine ⟨fun _ _ => hkept, fun obj hobj => ?_⟩
              cases hobj
          | ok datalen =>
              have hfirst := @demarshalLength_advances mem { c with live := c.live + 1 } datalen
                (by rw [hlen])
              rw [hlen] at hfirst
              dsimp only at hfirst ⊢
              split_ifs with hzero
              · refine ⟨fun stop hstop => ?_, fun obj hobj => ?_⟩
                · cases hstop
                · obtain rfl := Except.ok.inj hobj
                  refine ⟨hkept, rfl, middle.buffer, hsome, ?_, le_rfl,
                    { c with live := c.live + 1 }, middle, hc, ?_, rfl⟩
                  · omega
                  · dsimp only [Reader.pure]
                    rw [hlen, hzero, Nat.sub_self]
              · refine ⟨fun _ _ => hkept, fun obj hobj => ?_⟩
                cases hobj
        refine (Builds.of_construct hbody).imp ?_
        rintro obj stop ⟨hnodes, hlaid⟩
        exact ⟨hnodes.symm, hlaid⟩
    | sequence => exact builds_sequence hitems hend hsome hc

/-- An object that has been decoded lies in the extent that its length field declares, its
items tile that extent, and a decoder that fails has deleted what it had built. -/
theorem builds_demarshal (fuel : ℕ) (c : Cursor) :
    Builds (demarshal mem fuel c) c Obj.nodes (fun obj stop => Laid mem obj c.buffer stop) ∧
      Builds (demarshalAll mem fuel c) c nodesAll
        (fun data stop => LaidAll mem data c.buffer stop) := by
  have hempty (c : Cursor) (hlen : c.buflen = 0) : Builds (.ok [], c) c nodesAll
      fun data stop => LaidAll mem data c.buffer stop := by
    refine ⟨fun stop hstop => ?_, fun data hdata => ?_⟩
    · cases hstop
    · obtain rfl := Except.ok.inj hdata
      exact ⟨rfl, rfl⟩
  induction fuel generalizing c with
  | zero =>
      refine ⟨⟨fun _ _ => rfl, fun obj hobj => ?_⟩, ?_⟩
      · cases hobj
      · unfold demarshalAll
        split_ifs with hlen
        · exact hempty c hlen
        · refine ⟨fun _ _ => rfl, fun data hdata => ?_⟩
          cases hdata
  | succ fuel ih =>
      constructor
      · unfold demarshal Reader.bind
        rcases hread : readByte mem c with ⟨result, after⟩
        cases result with
        | error stop =>
            have hkept := @keeps_readByte mem c
            rw [hread] at hkept
            refine ⟨fun _ _ => hkept, fun obj hobj => ?_⟩
            cases hobj
        | ok type =>
            rcases readByte_eq_ok hread with ⟨rfl, hbuffer, hlive⟩
            have hitems := @builds_demarshalAs mem _ c.buffer after
              (fun part => (ih part).2) (fun part data hdata => ?_) hbuffer
            · exact ⟨fun stop hstop => (hitems.deleted stop hstop).trans hlive,
                fun obj hobj => hlive ▸ hitems.built obj hobj⟩
            · have hstop := (((bounded_demarshal fuel).2 part).2 data hdata).stop
              rwa [demarshalAll_buflen hdata, Nat.add_zero] at hstop
      · unfold demarshalAll
        split_ifs with hlen
        · exact hempty c hlen
        · rcases ih c with ⟨⟨hdeleted, hbuilt⟩, -⟩
          unfold Reader.bind keepItem
          rcases hrun : demarshal mem fuel c with ⟨result, after⟩
          rw [hrun] at hdeleted hbuilt
          cases result with
          | error stop =>
              refine ⟨fun _ _ => hdeleted stop rfl, fun data hdata => ?_⟩
              cases hdata
          | ok obj =>
              rcases hbuilt obj rfl with ⟨hlive, hlaid⟩
              rcases ih after with ⟨-, ⟨hdeleted', hbuilt'⟩⟩
              dsimp only
              rcases hitems : demarshalAll mem fuel after with ⟨items, last⟩
              rw [hitems] at hdeleted' hbuilt'
              cases items with
              | error stop =>
                  refine ⟨fun _ _ => ?_, fun data hdata => ?_⟩
                  · have hlast := hdeleted' stop rfl
                    dsimp only at hlive hlast ⊢
                    omega
                  · cases hdata
              | ok tail =>
                  refine ⟨fun stop hstop => ?_, fun data hdata => ?_⟩
                  · cases hstop
                  · obtain rfl := Except.ok.inj hdata
                    rcases hbuilt' tail rfl with ⟨hlast, htail⟩
                    dsimp only at hlive hlaid hlast htail ⊢
                    refine ⟨?_, after.buffer, hlaid, htail⟩
                    rw [nodesAll]
                    omega

/-! ## The decoder on any input -/

/-- For every memory and every claimed length the decoder ends and reads only inside; when it
succeeds it has consumed what it read, and every object lies inside its parent's extent; when
it fails no object is left. -/
theorem demarshalObject_inside (mem : Memory) (c : Cursor) :
    (demarshalObject mem c).1 ≠ .error .outOfFuel ∧
    Within c (demarshalObject mem c).2 ∧
    (∀ obj, (demarshalObject mem c).1 = .ok obj →
      c.buffer ≤ (demarshalObject mem c).2.buffer ∧
      (demarshalObject mem c).2.buflen ≤ c.buflen ∧
      (demarshalObject mem c).2.buffer - c.buffer =
        c.buflen - (demarshalObject mem c).2.buflen ∧
      (demarshalObject mem c).2.live = c.live + obj.nodes ∧
      Laid mem obj c.buffer (demarshalObject mem c).2.buffer) ∧
    ∀ stop, (demarshalObject mem c).1 = .error stop → (demarshalObject mem c).2.live = c.live := by
  rcases (@bounded_demarshal mem (enoughFuel c.buflen)).1 c with ⟨hwithin, hadvanced⟩
  rcases (@builds_demarshal mem (enoughFuel c.buflen) c).1 with ⟨hdeleted, hbuilt⟩
  refine ⟨demarshal_terminates c, hwithin, fun obj hobj => ?_, hdeleted⟩
  rcases hbuilt obj hobj with ⟨hlive, hlaid⟩
  have hle := (hadvanced obj hobj).le
  have hstop := (hadvanced obj hobj).stop
  refine ⟨hle, ?_, ?_, hlive, hlaid⟩
  · unfold demarshalObject
    omega
  · unfold demarshalObject
    omega

end Asn
end Apcupsd
