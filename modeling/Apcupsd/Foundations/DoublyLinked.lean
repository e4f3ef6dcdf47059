import Mathlib.Data.List.Induction
import Mathlib.Data.List.Nodup
import Mathlib.Logic.Function.Basic

/-!
# Doubly linked nodes

A memory maps addresses to nodes with a link in each direction.  A segment is a list of addresses
and elements that the links follow both ways; what stands before and behind it are the links at
its ends.

Main results:

- Theorem {lit}`linked_append`: a segment is two segments that are linked with each other.
- Theorems {lit}`Linked.insert` and {lit}`Linked.erase`: a node is linked in or out.
- Theorems {lit}`Linked.walk_next` and {lit}`Linked.walk_prev`: what a walk reads.
- Theorem {lit}`Updates.trans`: changes of one segment compose, and leave all others alone.
-/

namespace DoublyLinked

/-- A node with its links. -/
structure Node (ι α : Type*) where
  next : Option ι
  prev : Option ι
  elem : α

/-- A memory of nodes. -/
abbrev Cells (ι α : Type*) := ι → Option (Node ι α)

variable {ι α : Type*}

/-! ## Segments -/

/-- The addresses of a list of nodes. -/
abbrev addresses (nodes : List (ι × α)) : List ι := nodes.map Prod.fst

/-- The elements of a list of nodes. -/
abbrev elems (nodes : List (ι × α)) : List α := nodes.map Prod.snd

/-- The link to a list of nodes. -/
def first : List (ι × α) → Option ι → Option ι
  | [], after => after
  | (a, _) :: _, _ => some a

/-- The link back to a list of nodes. -/
def last : Option ι → List (ι × α) → Option ι
  | before, [] => before
  | _, (a, _) :: nodes => last (some a) nodes

/-- The nodes are linked with each other, and at the ends with what is given. -/
def Linked (cells : Cells ι α) : Option ι → List (ι × α) → Option ι → Prop
  | _, [], _ => True
  | before, (a, x) :: nodes, after =>
      cells a = some { next := first nodes after, prev := before, elem := x } ∧
        Linked cells (some a) nodes after

variable {cells other : Cells ι α} {before after link : Option ι} {nodes : List (ι × α)}

theorem first_append (left right : List (ι × α)) (after : Option ι) :
    first (left ++ right) after = first left (first right after) := by
  cases left <;> rfl

theorem last_append (before : Option ι) (left right : List (ι × α)) :
    last before (left ++ right) = last (last before left) right := by
  induction left generalizing before with
  | nil => rfl
  | cons node left ih => exact ih (some node.1)

theorem mem_of_first {a : ι} (hfirst : first nodes none = some a) : a ∈ addresses nodes := by
  cases nodes with
  | nil => cases hfirst
  | cons node nodes =>
      cases hfirst
      exact List.mem_cons_self

theorem mem_of_last {a : ι} (hlast : last none nodes = some a) : a ∈ addresses nodes := by
  induction nodes using List.reverseRecOn with
  | nil => cases hlast
  | append_singleton nodes node _ =>
      rw [last_append] at hlast
      cases hlast
      simp

/-- The nodes in front of the last one. -/
theorem exists_of_last {a : ι} (hlast : last none nodes = some a) :
    ∃ front x, nodes = front ++ [(a, x)] := by
  induction nodes using List.reverseRecOn with
  | nil => cases hlast
  | append_singleton nodes node _ =>
      rw [last_append] at hlast
      cases hlast
      exact ⟨nodes, node.2, rfl⟩

theorem exists_of_first {a : ι} (hfirst : first nodes none = some a) :
    ∃ x rest, nodes = (a, x) :: rest := by
  cases nodes with
  | nil => cases hfirst
  | cons node nodes =>
      cases hfirst
      exact ⟨node.2, nodes, rfl⟩

theorem eq_nil_of_last (hlast : last none nodes = none) : nodes = [] := by
  induction nodes using List.reverseRecOn with
  | nil => rfl
  | append_singleton nodes node _ =>
      rw [last_append] at hlast
      cases hlast

theorem eq_nil_of_first (hfirst : first nodes none = none) : nodes = [] := by
  cases nodes with
  | nil => rfl
  | cons node nodes => cases hfirst

/-- A segment is two segments that are linked with each other. -/
theorem linked_append {left right : List (ι × α)} :
    Linked cells before (left ++ right) after ↔
      Linked cells before left (first right after) ∧
        Linked cells (last before left) right after := by
  induction left generalizing before with
  | nil => exact (iff_of_eq (true_and _)).symm
  | cons node left ih =>
      have hcons : Linked cells before (node :: (left ++ right)) after ↔
          cells node.1 = some
              { next := first (left ++ right) after, prev := before, elem := node.2 } ∧
            Linked cells (some node.1) (left ++ right) after := Iff.rfl
      rw [List.cons_append, hcons, ih, first_append, ← and_assoc]
      rfl

/-- A segment depends on its own nodes only. -/
theorem Linked.congr (hlinked : Linked cells before nodes after)
    (hsame : ∀ a ∈ addresses nodes, other a = cells a) : Linked other before nodes after := by
  induction nodes generalizing before with
  | nil => trivial
  | cons node nodes ih =>
      refine ⟨(hsame _ List.mem_cons_self).trans hlinked.1, ih hlinked.2 fun a ha => ?_⟩
      exact hsame a (List.mem_cons_of_mem _ ha)

/-- The nodes of a segment are in the memory. -/
theorem Linked.ne_none (hlinked : Linked cells before nodes after) {a : ι}
    (ha : a ∈ addresses nodes) : cells a ≠ none := by
  induction nodes generalizing before with
  | nil => cases ha
  | cons node nodes ih =>
      rcases List.mem_cons.mp ha with rfl | hrest
      · rw [hlinked.1]
        exact Option.some_ne_none _
      · exact ih hlinked.2 hrest

/-- A node inside a segment, with its links. -/
theorem Linked.node {left right : List (ι × α)} {a : ι} {x : α}
    (hlinked : Linked cells before (left ++ (a, x) :: right) after) :
    cells a = some { next := first right after, prev := last before left, elem := x } :=
  (linked_append.mp hlinked).2.1

/-! ## Links -/

section Edits

variable [DecidableEq ι]

/-- The node, if there is one, gets another link forwards. -/
def setNext (cells : Cells ι α) (this link : Option ι) : Cells ι α :=
  match this with
  | none => cells
  | some a => Function.update cells a ((cells a).map fun node => { node with next := link })

/-- The node, if there is one, gets another link backwards. -/
def setPrev (cells : Cells ι α) (this link : Option ι) : Cells ι α :=
  match this with
  | none => cells
  | some a => Function.update cells a ((cells a).map fun node => { node with prev := link })

theorem setNext_of_ne {this : Option ι} {a : ι} (hne : this ≠ some a) :
    setNext cells this link a = cells a := by
  cases this with
  | none => rfl
  | some b => exact Function.update_of_ne (fun heq => hne (congrArg some heq.symm)) _ _

theorem setPrev_of_ne {this : Option ι} {a : ι} (hne : this ≠ some a) :
    setPrev cells this link a = cells a := by
  cases this with
  | none => rfl
  | some b => exact Function.update_of_ne (fun heq => hne (congrArg some heq.symm)) _ _

/-- The last node of a segment gets another link. -/
theorem Linked.relinkLast (hlinked : Linked cells before nodes after)
    (hnodup : (addresses nodes).Nodup) (link : Option ι) :
    Linked (setNext cells (last none nodes) link) before nodes link := by
  induction nodes using List.reverseRecOn with
  | nil => trivial
  | append_singleton nodes node _ =>
      have hparts := linked_append.mp hlinked
      have hnot : node.1 ∉ addresses nodes := by
        intro hmem
        rw [addresses, List.map_append] at hnodup
        exact List.disjoint_of_nodup_append hnodup hmem List.mem_cons_self
      rw [last_append, linked_append]
      refine ⟨hparts.1.congr fun a ha => setNext_of_ne ?_, ?_, trivial⟩
      · rintro ⟨⟩
        exact hnot ha
      · change Function.update cells node.1 _ node.1 = _
        rw [Function.update_self, hparts.2.1]
        rfl

/-- The first node of a segment gets another link. -/
theorem Linked.relinkFirst (hlinked : Linked cells before nodes after)
    (hnodup : (addresses nodes).Nodup) (link : Option ι) :
    Linked (setPrev cells (first nodes none) link) link nodes after := by
  cases nodes with
  | nil => trivial
  | cons node nodes =>
      have hnot : node.1 ∉ addresses nodes := (List.nodup_cons.mp hnodup).1
      refine ⟨?_, hlinked.2.congr fun a ha => setPrev_of_ne ?_⟩
      · change Function.update cells node.1 _ node.1 = _
        rw [Function.update_self, hlinked.1]
        rfl
      · rintro ⟨⟩
        exact hnot ha

/-- Two segments get links at the ends that face each other. -/
theorem Linked.join {left right : List (ι × α)} {behind ahead : Option ι}
    (hleft : Linked cells before left behind) (hright : Linked cells ahead right after)
    (hnodup : (addresses (left ++ right)).Nodup) (link back : Option ι) :
    let joined := setPrev (setNext cells (last none left) link) (first right none) back
    Linked joined before left link ∧ Linked joined back right after := by
  rw [addresses, List.map_append] at hnodup
  have hdisjoint := List.disjoint_of_nodup_append hnodup
  have hleftOnly : Linked (setNext cells (last none left) link) ahead right after :=
    hright.congr fun a ha => setNext_of_ne fun hlast => hdisjoint (mem_of_last hlast) ha
  constructor
  · refine (hleft.relinkLast hnodup.of_append_left link).congr fun a ha => ?_
    exact setPrev_of_ne fun hfirst => hdisjoint ha (mem_of_first hfirst)
  · exact hleftOnly.relinkFirst hnodup.of_append_right back

/-- What {lit}`join` leaves alone. -/
theorem join_of_notMem {left right : List (ι × α)} {a : ι} (hleft : a ∉ addresses left)
    (hright : a ∉ addresses right) (link back : Option ι) :
    setPrev (setNext cells (last none left) link) (first right none) back a = cells a := by
  rw [setPrev_of_ne fun hfirst => hright (mem_of_first hfirst),
    setNext_of_ne fun hlast => hleft (mem_of_last hlast)]

/-- The memory when a new node has been linked in between the nodes of a list. -/
def insertNode (cells : Cells ι α) (left right : List (ι × α)) (b : ι) (x : α) : Cells ι α :=
  setPrev
    (setNext
      (Function.update cells b
        (some { next := first right none, prev := last none left, elem := x }))
      (last none left) (some b))
    (first right none) (some b)

/-- The memory when a node has been linked out and freed. -/
def eraseNode (cells : Cells ι α) (left right : List (ι × α)) (a : ι) : Cells ι α :=
  Function.update
    (setPrev (setNext cells (last none left) (first right none)) (first right none)
      (last none left))
    a none

/-- A new node is linked in. -/
theorem Linked.insert {left right : List (ι × α)} {b : ι} (x : α)
    (hlinked : Linked cells none (left ++ right) none)
    (hnodup : (addresses (left ++ right)).Nodup) (hnew : b ∉ addresses (left ++ right)) :
    Linked (insertNode cells left right b x) none (left ++ (b, x) :: right) none := by
  have hparts := linked_append.mp (hlinked.congr fun a ha =>
    Function.update_of_ne (show a ≠ b by rintro rfl; exact hnew ha)
      (some { next := first right none, prev := last none left, elem := x }) cells)
  rw [addresses, List.map_append, List.mem_append, not_or] at hnew
  have hjoined := hparts.1.join hparts.2 hnodup (some b) (some b)
  refine linked_append.mpr ⟨hjoined.1, ?_, hjoined.2⟩
  rw [insertNode, join_of_notMem hnew.1 hnew.2, Function.update_self]

/-- A node is linked out and freed. -/
theorem Linked.erase {left right : List (ι × α)} {a : ι} {x : α}
    (hlinked : Linked cells none (left ++ (a, x) :: right) none)
    (hnodup : (addresses (left ++ (a, x) :: right)).Nodup) :
    Linked (eraseNode cells left right a) none (left ++ right) none := by
  have hparts := linked_append.mp hlinked
  rw [addresses, List.map_append, List.map_cons] at hnodup
  have hnot := List.nodup_cons.mp (List.nodup_middle.mp hnodup)
  rw [← List.map_append] at hnot
  have hjoined := hparts.1.join hparts.2.2 hnot.2 (first right none) (last none left)
  refine (linked_append.mpr ⟨hjoined.1, hjoined.2⟩).congr fun b hb => ?_
  refine Function.update_of_ne ?_ _ _
  rintro rfl
  exact hnot.1 hb

/-- The link to a list that loses a node: only if it was the first one, another is. -/
theorem first_erase {left right : List (ι × α)} {a : ι} {x : α}
    (hnodup : (addresses (left ++ (a, x) :: right)).Nodup) :
    (if some a = first (left ++ (a, x) :: right) none then first right none
      else first (left ++ (a, x) :: right) none) = first (left ++ right) none := by
  cases left with
  | nil => exact if_pos rfl
  | cons node left =>
      refine if_neg fun heq => (List.nodup_cons.mp hnodup).1 ?_
      rw [← Option.some.inj heq]
      simp

/-- The link back, in the same way. -/
theorem last_erase {left right : List (ι × α)} {a : ι} {x : α}
    (hnodup : (addresses (left ++ (a, x) :: right)).Nodup) :
    (if some a = last none (left ++ (a, x) :: right) then last none left
      else last none (left ++ (a, x) :: right)) = last none (left ++ right) := by
  rw [last_append, last_append]
  induction right using List.reverseRecOn with
  | nil => exact if_pos rfl
  | append_singleton right node _ =>
      have hend : last (last none left) ((a, x) :: (right ++ [node])) = some node.1 :=
        last_append (some a) right [node]
      have hkept : last (last none left) (right ++ [node]) = some node.1 := last_append _ _ _
      rw [hend, hkept]
      refine if_neg fun heq => ?_
      rw [addresses, List.map_append, List.map_cons] at hnodup
      refine (List.nodup_cons.mp (List.nodup_middle.mp hnodup)).1 ?_
      rw [Option.some.inj heq]
      simp

end Edits

/-! ## Walks -/

/-- The elements that are met on the way along a link, with at most so many nodes. -/
def walk (link : Node ι α → Option ι) (cells : Cells ι α) : ℕ → Option ι → Option (List α)
  | _, none => some []
  | 0, some _ => none
  | fuel + 1, some a =>
      (cells a).bind fun node => (walk link cells fuel (link node)).map (node.elem :: ·)

/-- The link after so many steps forwards. -/
def advance (cells : Cells ι α) : ℕ → Option ι → Option (Option ι)
  | 0, place => some place
  | k + 1, place => (place.bind cells).bind fun node => advance cells k node.next

/-- A walk forwards reads the elements. -/
theorem Linked.walk_next (hlinked : Linked cells before nodes none) {fuel : ℕ}
    (hfuel : nodes.length ≤ fuel) :
    walk Node.next cells fuel (first nodes none) = some (elems nodes) := by
  induction nodes generalizing before fuel with
  | nil => cases fuel <;> rfl
  | cons node nodes ih =>
      cases fuel with
      | zero => cases hfuel
      | succ fuel =>
          unfold first walk
          rw [hlinked.1, Option.bind_some, ih hlinked.2 (Nat.le_of_succ_le_succ hfuel)]
          rfl

/-- A walk backwards reads them in reverse. -/
theorem Linked.walk_prev (hlinked : Linked cells none nodes after) {fuel : ℕ}
    (hfuel : nodes.length ≤ fuel) :
    walk Node.prev cells fuel (last none nodes) = some (elems nodes).reverse := by
  induction nodes using List.reverseRecOn generalizing after fuel with
  | nil => cases fuel <;> rfl
  | append_singleton nodes node ih =>
      rw [List.length_append, List.length_singleton] at hfuel
      have hparts := linked_append.mp hlinked
      cases fuel with
      | zero => cases hfuel
      | succ fuel =>
          have hrest := ih hparts.1 (Nat.le_of_succ_le_succ hfuel)
          have hlast : last none (nodes ++ [node]) = some node.1 := last_append _ _ _
          rw [hlast, walk, hparts.2.1, Option.bind_some, hrest]
          simp

/-- The link to what follows a number of nodes. -/
theorem Linked.advance_first {left right : List (ι × α)}
    (hlinked : Linked cells before (left ++ right) none) :
    advance cells left.length (first (left ++ right) none) = some (first right none) := by
  induction left generalizing before with
  | nil => rfl
  | cons node left ih =>
      change ((some node.1).bind cells).bind _ = _
      rw [Option.bind_some, hlinked.1]
      exact ih hlinked.2

/-! ## Changes of one segment -/

/-- A change of the memory that turns a segment into another: other nodes stay as they are, and
the new nodes of the segment were free. -/
structure Updates (cells other : Cells ι α) (old new : List (ι × α)) : Prop where
  frame : ∀ a, cells a ≠ none → a ∉ addresses old → other a = cells a
  fresh : ∀ a ∈ addresses new, a ∈ addresses old ∨ cells a = none

namespace Updates

variable {third : Cells ι α} {old mid new : List (ι × α)}

theorem refl (cells : Cells ι α) (nodes : List (ι × α)) : Updates cells cells nodes nodes where
  frame := fun _ _ _ => rfl
  fresh := fun _ ha => Or.inl ha

theorem trans (hfirst : Updates cells other old mid) (hsecond : Updates other third mid new) :
    Updates cells third old new where
  frame := by
    intro a hused hold
    have hsame := hfirst.frame a hused hold
    have hmid : a ∉ addresses mid := fun hmem =>
      (hfirst.fresh a hmem).elim hold hused
    rw [hsecond.frame a (hsame ▸ hused) hmid, hsame]
  fresh := by
    intro a hnew
    rcases hsecond.fresh a hnew with hmid | hfree
    · exact hfirst.fresh a hmid
    · by_contra hnot
      rw [not_or] at hnot
      exact hnot.2 ((hfirst.frame a hnot.2 hnot.1).symm.trans hfree)

/-- Other segments stay linked. -/
theorem linked (hupdates : Updates cells other old new) (hlinked : Linked cells before nodes after)
    (hdisjoint : List.Disjoint (addresses nodes) (addresses old)) :
    Linked other before nodes after :=
  hlinked.congr fun a ha => hupdates.frame a (hlinked.ne_none ha) (hdisjoint ha)

/-- Other segments stay apart. -/
theorem disjoint (hupdates : Updates cells other old new)
    (hlinked : Linked cells before nodes after)
    (hdisjoint : List.Disjoint (addresses nodes) (addresses old)) :
    List.Disjoint (addresses nodes) (addresses new) := by
  intro a ha hnew
  rcases hupdates.fresh a hnew with hold | hfree
  · exact hdisjoint ha hold
  · exact hlinked.ne_none ha hfree

end Updates

section Edits

variable [DecidableEq ι] {left right : List (ι × α)}

theorem updates_insertNode {b : ι} (x : α) (hfree : cells b = none) :
    Updates cells (insertNode cells left right b x) (left ++ right)
      (left ++ (b, x) :: right) where
  frame := by
    intro a hused hother
    rw [addresses, List.map_append, List.mem_append, not_or] at hother
    rw [insertNode, join_of_notMem hother.1 hother.2]
    exact Function.update_of_ne (by rintro rfl; exact hused hfree) _ _
  fresh := by
    intro a ha
    by_cases hab : a = b
    · exact Or.inr (hab ▸ hfree)
    · left
      rw [addresses, List.map_append, List.map_cons, List.mem_append, List.mem_cons] at ha
      rw [addresses, List.map_append, List.mem_append]
      exact ha.imp_right (Or.resolve_left · hab)

theorem updates_eraseNode {a : ι} (x : α) :
    Updates cells (eraseNode cells left right a) (left ++ (a, x) :: right)
      (left ++ right) where
  frame := by
    intro b _ hother
    rw [addresses, List.map_append, List.map_cons, List.mem_append, List.mem_cons, not_or,
      not_or] at hother
    rw [eraseNode, Function.update_of_ne hother.2.1, join_of_notMem hother.1 hother.2.2]
  fresh := by
    intro b hb
    left
    rw [addresses, List.map_append, List.mem_append] at hb
    rw [addresses, List.map_append, List.map_cons, List.mem_append, List.mem_cons]
    exact hb.imp_right Or.inr

end Edits

end DoublyLinked
