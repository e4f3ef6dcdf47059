import Mathlib.Algebra.Group.Nat.Defs
import Mathlib.Data.List.Perm.Subperm
import Apcupsd.Foundations.DoublyLinked

/-!
# The linked list

{lit}`alist` from {lit}`include/alist.h`: nodes that are linked both ways, with the head, the
tail and the number of elements kept in the list.  Several lists share the memory that
{lit}`new` takes their nodes from; which free address it takes is left open.  The references that
{lit}`append` and {lit}`prepend` return are left out.

Main results:

- Definition {lit}`Holds`: the list consists of these nodes.
- Theorem {lit}`Sound.exec`: an operation does to the nodes what it does to the sequence.
- Theorem {lit}`runMeets_of_fits`: the lists are the sequences that the operations define, as
  long as the number of elements is an {lit}`unsigned int`.
-/

namespace Apcupsd
namespace Lib

open DoublyLinked

variable {α : Type}

/-! ## Nodes -/

/-- The memory of the nodes.  From {lit}`top` on nothing is in use. -/
structure Heap (α : Type) where
  cells : Cells ℕ α
  top : ℕ
  free : ∀ a, top ≤ a → cells a = none

namespace Heap

/-- Stores a node, or frees its address. -/
def store (heap : Heap α) (a : ℕ) (node : Option (Node ℕ α)) : Heap α where
  cells := Function.update heap.cells a node
  top := max heap.top (a + 1)
  free := by
    intro b hb
    rw [Function.update_of_ne (by omega)]
    exact heap.free b (by omega)

/-- {lit}`this->_next = link`; without a node at the address that is undefined. -/
def setNext (heap : Heap α) (this : ℕ) (link : Option ℕ) : Option (Heap α) :=
  (heap.cells this).map fun node => heap.store this (some { node with next := link })

/-- {lit}`this->_prev = link`. -/
def setPrev (heap : Heap α) (this : ℕ) (link : Option ℕ) : Option (Heap α) :=
  (heap.cells this).map fun node => heap.store this (some { node with prev := link })

/-- {lit}`if (p) p->_next = link`. -/
def setNextIf (heap : Heap α) (p link : Option ℕ) : Option (Heap α) :=
  match p with
  | none => some heap
  | some this => heap.setNext this link

/-- {lit}`if (p) p->_prev = link`. -/
def setPrevIf (heap : Heap α) (p link : Option ℕ) : Option (Heap α) :=
  match p with
  | none => some heap
  | some this => heap.setPrev this link

/-- {lit}`this->next(link)`. -/
def linkNext (heap : Heap α) (this link : ℕ) : Option (Heap α) := do
  let node ← heap.cells this
  let heap ← heap.setNext link node.next
  let heap ← heap.setPrev link (some this)
  let heap ← heap.setPrevIf node.next (some link)
  heap.setNext this (some link)

/-- {lit}`this->prev(link)`. -/
def linkPrev (heap : Heap α) (this link : ℕ) : Option (Heap α) := do
  let node ← heap.cells this
  let heap ← heap.setNext link (some this)
  let heap ← heap.setPrev link node.prev
  let heap ← heap.setNextIf node.prev (some link)
  heap.setPrev this (some link)

/-- {lit}`delete`, with the destructor of the node. -/
def delete (heap : Heap α) (this : ℕ) : Option (Heap α) := do
  let node ← heap.cells this
  let heap ← heap.setNextIf node.prev node.next
  let heap ← heap.setPrevIf node.next node.prev
  some (heap.store this none)

end Heap

/-- {lit}`operator new` takes an address that is free. -/
structure Allocator (α : Type) where
  address : Heap α → ℕ
  fresh : ∀ heap : Heap α, heap.cells (address heap) = none

/-! ## The class -/

/-- {lit}`alist`. -/
structure Alist where
  head : Option ℕ
  tail : Option ℕ
  size : UInt32

namespace Alist

/-- {lit}`empty()`. -/
def empty (l : Alist) : Bool :=
  l.size = 0

/-- {lit}`append(const T &)`. -/
def append (new : Allocator α) (heap : Heap α) (l : Alist) (elem : α) :
    Option (Heap α × Alist) := do
  let nd := new.address heap
  let heap := heap.store nd (some { next := none, prev := none, elem := elem })
  match l.tail with
  | some tail =>
      let heap ← heap.linkNext tail nd
      some (heap, { l with tail := some nd, size := l.size + 1 })
  | none => some (heap, { head := some nd, tail := some nd, size := l.size + 1 })

/-- {lit}`prepend`. -/
def prepend (new : Allocator α) (heap : Heap α) (l : Alist) (elem : α) :
    Option (Heap α × Alist) := do
  let nd := new.address heap
  let heap := heap.store nd (some { next := none, prev := none, elem := elem })
  match l.head with
  | some head =>
      let heap ← heap.linkPrev head nd
      some (heap, { l with head := some nd, size := l.size + 1 })
  | none => some (heap, { head := some nd, tail := some nd, size := l.size + 1 })

/-- The loop of {lit}`append(const alist<T> &)`, with at most so many elements. -/
def appendLoop (new : Allocator α) : ℕ → Heap α → Alist → Option ℕ → Option (Heap α × Alist)
  | _, heap, l, none => some (heap, l)
  | 0, _, _, some _ => none
  | fuel + 1, heap, l, some iter => do
      let node ← heap.cells iter
      let (heap, l) ← append new heap l node.elem
      let node ← heap.cells iter
      appendLoop new fuel heap l node.next

/-- {lit}`append(const alist<T> &)` of another list. -/
def appendList (new : Allocator α) (heap : Heap α) (l rhs : Alist) : Option (Heap α × Alist) :=
  appendLoop new heap.top heap l rhs.head

/-- {lit}`remove`, with the iterator that it returns. -/
def remove (heap : Heap α) (l : Alist) (iter : Option ℕ) :
    Option (Heap α × Alist × Option ℕ) := do
  let this ← iter
  let node ← heap.cells this
  let head := if iter = l.head then node.next else l.head
  let tail := if iter = l.tail then node.prev else l.tail
  let heap ← heap.delete this
  some (heap, { head := head, tail := tail, size := l.size - 1 }, node.next)

/-- {lit}`remove_first`. -/
def removeFirst (heap : Heap α) (l : Alist) : Option (Heap α × Alist) :=
  if l.empty then some (heap, l)
  else (remove heap l l.head).map fun removed => (removed.1, removed.2.1)

/-- {lit}`remove_last`. -/
def removeLast (heap : Heap α) (l : Alist) : Option (Heap α × Alist) :=
  if l.empty then some (heap, l)
  else (remove heap l l.tail).map fun removed => (removed.1, removed.2.1)

/-- The loop of {lit}`clear`, with at most so many elements. -/
def clearLoop : ℕ → Heap α → Alist → Option (Heap α × Alist)
  | fuel, heap, l =>
      if l.empty then some (heap, l)
      else
        match fuel with
        | 0 => none
        | fuel + 1 => do
            let removed ← remove heap l l.head
            clearLoop fuel removed.1 removed.2.1

/-- {lit}`clear`. -/
def clear (heap : Heap α) (l : Alist) : Option (Heap α × Alist) :=
  clearLoop l.size.toNat heap l

end Alist

/-! ## Operations -/

/-- The lists and the memory of their nodes. -/
structure Lists (α : Type) where
  heap : Heap α
  lists : ℕ → Alist

/-- An operation on numbered lists. -/
inductive ListOp (α : Type) where
  | append (l : ℕ) (elem : α)
  | prepend (l : ℕ) (elem : α)
  | appendList (l rhs : ℕ)
  | assign (l rhs : ℕ)
  /-- With the iterator that is so many steps from {lit}`begin()`. -/
  | remove (l : ℕ) (k : ℕ)
  | removeFirst (l : ℕ)
  | removeLast (l : ℕ)
  | clear (l : ℕ)

namespace Lists

/-- A list and the memory are replaced; no iterator is returned. -/
def put (st : Lists α) (l : ℕ) (result : Option (Heap α × Alist)) :
    Option (Lists α × Option (Option ℕ)) :=
  result.map fun after =>
    ({ heap := after.1, lists := Function.update st.lists l after.2 }, none)

/-- The iterator after so many steps from {lit}`begin()`. -/
def iterator (st : Lists α) (l k : ℕ) : Option (Option ℕ) :=
  advance st.heap.cells k (st.lists l).head

/-- The operations, with the iterator that they return, unless they are undefined. -/
def exec (new : Allocator α) (st : Lists α) : ListOp α → Option (Lists α × Option (Option ℕ))
  | .append l elem => st.put l ((st.lists l).append new st.heap elem)
  | .prepend l elem => st.put l ((st.lists l).prepend new st.heap elem)
  | .appendList l rhs =>
      if rhs = l then some (st, none)
      else st.put l ((st.lists l).appendList new st.heap (st.lists rhs))
  | .assign l rhs =>
      if rhs = l then some (st, none)
      else
        st.put l do
          let cleared ← (st.lists l).clear st.heap
          cleared.2.appendList new cleared.1 (st.lists rhs)
  | .remove l k => do
      let iter ← st.iterator l k
      let removed ← (st.lists l).remove st.heap iter
      some ({ heap := removed.1, lists := Function.update st.lists l removed.2.1 },
        some removed.2.2)
  | .removeFirst l => st.put l ((st.lists l).removeFirst st.heap)
  | .removeLast l => st.put l ((st.lists l).removeLast st.heap)
  | .clear l => st.put l ((st.lists l).clear st.heap)

end Lists

/-! ## The sequences -/

/-- The sequences after an operation, and the list and position of the iterator that it returns,
unless it is not given a valid iterator.  A list is not appended to itself. -/
def ListOp.spec (seqs : ℕ → List α) : ListOp α → Option ((ℕ → List α) × Option (ℕ × ℕ))
  | .append l elem => some (Function.update seqs l (seqs l ++ [elem]), none)
  | .prepend l elem => some (Function.update seqs l (elem :: seqs l), none)
  | .appendList l rhs =>
      if rhs = l then some (seqs, none)
      else some (Function.update seqs l (seqs l ++ seqs rhs), none)
  | .assign l rhs => some (Function.update seqs l (seqs rhs), none)
  | .remove l k =>
      if k < (seqs l).length then
        -- the successor comes to stand where the element stood
        some (Function.update seqs l ((seqs l).eraseIdx k), some (l, k))
      else none
  | .removeFirst l => some (Function.update seqs l (seqs l).tail, none)
  | .removeLast l => some (Function.update seqs l (seqs l).dropLast, none)
  | .clear l => some (Function.update seqs l [], none)

namespace Lists

/-- No list has an element. -/
def start : Lists α where
  heap := { cells := fun _ => none, top := 0, free := fun _ _ => rfl }
  lists := fun _ => { head := none, tail := none, size := 0 }

/-- What a traversal from the head reads. -/
def forward (st : Lists α) (l : ℕ) : Option (List α) :=
  walk Node.next st.heap.cells st.heap.top (st.lists l).head

/-- What a traversal from the tail reads. -/
def backward (st : Lists α) (l : ℕ) : Option (List α) :=
  walk Node.prev st.heap.cells st.heap.top (st.lists l).tail

/-- The lists are these sequences, in both directions and by their sizes. -/
structure Represents (st : Lists α) (seqs : ℕ → List α) : Prop where
  forward : ∀ l, st.forward l = some (seqs l)
  backward : ∀ l, st.backward l = some (seqs l).reverse
  size : ∀ l, (st.lists l).size.toNat = (seqs l).length

end Lists

/-- Along the operations, each with what {lit}`new` does in it, the lists are the sequences, and
iterators that are returned denote their positions; up to an invalid iterator. -/
def ListRunMeets : Lists α → (ℕ → List α) → List (ListOp α × Allocator α) → Prop
  | st, seqs, [] => st.Represents seqs
  | st, seqs, (op, new) :: ops =>
      st.Represents seqs ∧
        ∀ seqs' place, op.spec seqs = some (seqs', place) →
          ∃ after iter, st.exec new op = some (after, iter) ∧
            iter = place.bind (fun place => after.iterator place.1 place.2) ∧
            ListRunMeets after seqs' ops

/-- Along the operations all lengths are those of an {lit}`unsigned int`. -/
def RunFits : (ℕ → List α) → List (ListOp α × Allocator α) → Prop
  | _, [] => True
  | seqs, (op, _) :: ops =>
      ∀ seqs' place, op.spec seqs = some (seqs', place) →
        (∀ l, (seqs' l).length < 2 ^ 32) ∧ RunFits seqs' ops

/-! ## Nodes of the memory -/

namespace Heap

@[simp]
theorem store_cells (heap : Heap α) (a : ℕ) (node : Option (Node ℕ α)) :
    (heap.store a node).cells = Function.update heap.cells a node :=
  rfl

variable {heap : Heap α}

theorem setNextIf_eq {p : Option ℕ} (hp : ∀ a, p = some a → heap.cells a ≠ none)
    (link : Option ℕ) :
    ∃ after, heap.setNextIf p link = some after ∧
      after.cells = DoublyLinked.setNext heap.cells p link := by
  cases p with
  | none => exact ⟨heap, rfl, rfl⟩
  | some a =>
      rcases Option.ne_none_iff_exists'.mp (hp a rfl) with ⟨node, hnode⟩
      refine ⟨heap.store a (some { node with next := link }), ?_, ?_⟩
      · simp [setNextIf, Heap.setNext, hnode]
      · simp [DoublyLinked.setNext, hnode]

theorem setPrevIf_eq {p : Option ℕ} (hp : ∀ a, p = some a → heap.cells a ≠ none)
    (link : Option ℕ) :
    ∃ after, heap.setPrevIf p link = some after ∧
      after.cells = DoublyLinked.setPrev heap.cells p link := by
  cases p with
  | none => exact ⟨heap, rfl, rfl⟩
  | some a =>
      rcases Option.ne_none_iff_exists'.mp (hp a rfl) with ⟨node, hnode⟩
      refine ⟨heap.store a (some { node with prev := link }), ?_, ?_⟩
      · simp [setPrevIf, Heap.setPrev, hnode]
      · simp [DoublyLinked.setPrev, hnode]

/-- A node is linked behind the last one. -/
theorem linkNext_eq {this b : ℕ} {node new : Node ℕ α} (hthis : heap.cells this = some node)
    (hlast : node.next = none) (hnew : heap.cells b = some new) (hne : this ≠ b) :
    ∃ after, heap.linkNext this b = some after ∧
      after.cells = DoublyLinked.setNext
        (Function.update heap.cells b (some { new with next := none, prev := some this }))
        (some this) (some b) := by
  simp [linkNext, Heap.setNext, Heap.setPrev, setPrevIf, DoublyLinked.setNext, hthis, hlast, hnew,
    hne]

/-- A node is linked before the first one. -/
theorem linkPrev_eq {this b : ℕ} {node new : Node ℕ α} (hthis : heap.cells this = some node)
    (hfirst : node.prev = none) (hnew : heap.cells b = some new) (hne : this ≠ b) :
    ∃ after, heap.linkPrev this b = some after ∧
      after.cells = DoublyLinked.setPrev
        (Function.update heap.cells b (some { new with next := some this, prev := none }))
        (some this) (some b) := by
  simp [linkPrev, Heap.setNext, Heap.setPrev, setNextIf, DoublyLinked.setPrev, hthis, hfirst,
    hnew, hne]

/-- A node is linked out and freed. -/
theorem delete_eq {left right : List (ℕ × α)} {a : ℕ} {x : α}
    (hlinked : Linked heap.cells none (left ++ (a, x) :: right) none) :
    ∃ after, heap.delete a = some after ∧ after.cells = eraseNode heap.cells left right a := by
  have hnode := hlinked.node
  have hparts := linked_append.mp hlinked
  have hleft : ∀ b, last none left = some b → heap.cells b ≠ none :=
    fun b hb => hparts.1.ne_none (mem_of_last hb)
  rcases setNextIf_eq hleft (first right none) with ⟨mid, hmid, hcells⟩
  have hright : ∀ b, first right none = some b → mid.cells b ≠ none := by
    intro b hb
    have hused : heap.cells b ≠ none := hparts.2.2.ne_none (mem_of_first hb)
    rw [hcells]
    by_cases hsame : last none left = some b
    · rcases Option.ne_none_iff_exists'.mp hused with ⟨node, hnode⟩
      rw [hsame, DoublyLinked.setNext, Function.update_self, hnode]
      exact Option.some_ne_none _
    · rw [setNext_of_ne hsame]
      exact hused
  rcases setPrevIf_eq hright (last none left) with ⟨joined, hjoined, hjoinedCells⟩
  refine ⟨joined.store a none, ?_, ?_⟩
  · simp [delete, hnode, hmid, hjoined]
  · rw [store_cells, hjoinedCells, hcells]
    rfl

end Heap

/-! ## Operations on one list -/

/-- The list consists of these nodes. -/
structure Holds (heap : Heap α) (l : Alist) (nodes : List (ℕ × α)) : Prop where
  linked : Linked heap.cells none nodes none
  nodup : (addresses nodes).Nodup
  head : l.head = first nodes none
  tail : l.tail = last none nodes
  size : l.size.toNat = nodes.length

/-- What an operation leaves: the list with its new nodes, and all other nodes as they were. -/
structure Gives (heap : Heap α) (nodes : List (ℕ × α)) (after : Heap α) (l : Alist)
    (new : List (ℕ × α)) : Prop where
  holds : Holds after l new
  updates : Updates heap.cells after.cells nodes new

namespace Holds

variable {heap : Heap α} {l : Alist} {nodes : List (ℕ × α)} (hl : Holds heap l nodes)
  (new : Allocator α)

include hl

theorem fresh_notMem : new.address heap ∉ addresses nodes :=
  fun hmem => hl.linked.ne_none hmem (new.fresh heap)

/-- One more element. -/
theorem size_add (hfits : nodes.length + 1 < 2 ^ 32) : (l.size + 1).toNat = nodes.length + 1 := by
  have hsize := hl.size
  rw [UInt32.toNat_add, hsize]
  exact Nat.mod_eq_of_lt hfits

/-- One element less. -/
theorem size_sub {rest : ℕ} (hlength : nodes.length = rest + 1) : (l.size - 1).toNat = rest := by
  have hsize := hl.size
  have hle : (1 : UInt32) ≤ l.size := by
    rw [UInt32.le_iff_toNat_le, hsize, hlength]
    exact Nat.le_add_left 1 rest
  rw [UInt32.toNat_sub_of_le _ _ hle, hsize, hlength]
  rfl

theorem empty_iff : l.empty = true ↔ nodes = [] := by
  unfold Alist.empty
  rw [decide_eq_true_iff, ← List.length_eq_zero_iff, ← hl.size, ← UInt32.toNat_inj]
  rfl

omit hl in
/-- A node has been linked in. -/
theorem gives_insert {left right : List (ℕ × α)} (hl : Holds heap l (left ++ right)) {b : ℕ}
    (hfree : heap.cells b = none) {x : α} {after : Heap α}
    (hcells : after.cells = insertNode heap.cells left right b x) {l' : Alist}
    (hhead : l'.head = first (left ++ (b, x) :: right) none)
    (htail : l'.tail = last none (left ++ (b, x) :: right))
    (hsize : l'.size.toNat = (left ++ right).length + 1) :
    Gives heap (left ++ right) after l' (left ++ (b, x) :: right) where
  holds := by
    have hnew : b ∉ addresses (left ++ right) := fun hmem => hl.linked.ne_none hmem hfree
    refine ⟨hcells ▸ hl.linked.insert x hl.nodup hnew, ?_, hhead, htail, ?_⟩
    · have hnodup := List.nodup_cons.mpr ⟨hnew, hl.nodup⟩
      rw [addresses, List.map_append] at hnodup
      rw [addresses, List.map_append, List.map_cons]
      exact List.nodup_middle.mpr hnodup
    · rw [hsize]
      simp [Nat.add_assoc]
  updates := hcells ▸ updates_insertNode x hfree

/-- {lit}`append` of an element. -/
theorem append (elem : α) (hfits : nodes.length + 1 < 2 ^ 32) :
    ∃ after l', l.append new heap elem = some (after, l') ∧
      Gives heap nodes after l' (nodes ++ [(new.address heap, elem)]) := by
  have hfree := new.fresh heap
  have hnew := hl.fresh_notMem new
  have hlast : ∀ b, some b = last none (nodes ++ [(b, elem)]) :=
    fun b => (last_append none nodes [(b, elem)]).symm
  have hwhole : Holds heap l (nodes ++ []) := by rwa [List.append_nil]
  have hsize := hwhole.size_add (by rwa [List.append_nil])
  unfold Alist.append
  generalize new.address heap = b at *
  cases htail : l.tail with
  | none =>
      have hnil : nodes = [] := eq_nil_of_last (hl.tail.symm.trans htail)
      subst hnil
      exact ⟨_, _, rfl, hwhole.gives_insert hfree rfl rfl rfl hsize⟩
  | some tail =>
      have hend : last none nodes = some tail := hl.tail.symm.trans htail
      rcases exists_of_last hend with ⟨front, x, rfl⟩
      have hnode := hl.linked.node
      have hne : tail ≠ b := by
        rintro rfl
        exact hnew (by simp)
      have hstored : (heap.store b (some { next := none, prev := none, elem := elem })).cells tail =
          some { next := none, prev := last none front, elem := x } := by
        rw [Heap.store_cells, Function.update_of_ne hne]
        exact hnode
      rcases Heap.linkNext_eq hstored rfl (Function.update_self _ _ _) hne with
        ⟨after, hlinked, hcells⟩
      dsimp only
      rw [hlinked]
      have hinserted : after.cells = insertNode heap.cells (front ++ [(tail, x)]) [] b elem := by
        rw [hcells, Heap.store_cells, Function.update_idem, insertNode, hend]
        rfl
      have hhead : l.head = first (front ++ [(tail, x)] ++ [(b, elem)]) none := by
        rw [hl.head]
        cases front <;> rfl
      have hgives : Gives heap (front ++ [(tail, x)] ++ []) after
          { l with tail := some b, size := l.size + 1 } (front ++ [(tail, x)] ++ [(b, elem)]) :=
        hwhole.gives_insert hfree hinserted hhead (hlast b) hsize
      rw [List.append_nil] at hgives
      exact ⟨after, _, rfl, hgives⟩

/-- {lit}`prepend`. -/
theorem prepend (elem : α) (hfits : nodes.length + 1 < 2 ^ 32) :
    ∃ after l', l.prepend new heap elem = some (after, l') ∧
      Gives heap nodes after l' ((new.address heap, elem) :: nodes) := by
  have hfree := new.fresh heap
  have hnew := hl.fresh_notMem new
  have hwhole : Holds heap l ([] ++ nodes) := hl
  have hsize := hl.size_add hfits
  unfold Alist.prepend
  generalize new.address heap = b at *
  cases hhead : l.head with
  | none =>
      have hnil : nodes = [] := eq_nil_of_first (hl.head.symm.trans hhead)
      subst hnil
      exact ⟨_, _, rfl, hwhole.gives_insert hfree rfl rfl rfl hsize⟩
  | some head =>
      have hstart : first nodes none = some head := hl.head.symm.trans hhead
      rcases exists_of_first hstart with ⟨x, rest, rfl⟩
      have hnode := hl.linked.1
      have hne : head ≠ b := by
        rintro rfl
        exact hnew List.mem_cons_self
      have hstored : (heap.store b (some { next := none, prev := none, elem := elem })).cells head =
          some { next := first rest none, prev := none, elem := x } := by
        rw [Heap.store_cells, Function.update_of_ne hne]
        exact hnode
      rcases Heap.linkPrev_eq hstored rfl (Function.update_self _ _ _) hne with
        ⟨after, hlinked, hcells⟩
      dsimp only
      rw [hlinked]
      refine ⟨after, _, rfl, hwhole.gives_insert hfree ?_ rfl hl.tail hsize⟩
      rw [hcells, Heap.store_cells, Function.update_idem]
      rfl

/-- {lit}`remove` of a node. -/
theorem remove {left right : List (ℕ × α)} {a : ℕ} {x : α}
    (hnodes : nodes = left ++ (a, x) :: right) :
    ∃ after l', l.remove heap (some a) = some (after, l', first right none) ∧
      Gives heap nodes after l' (left ++ right) := by
  subst hnodes
  have hnode := hl.linked.node
  have hlength : (left ++ (a, x) :: right).length = (left ++ right).length + 1 := by
    simp [Nat.add_assoc]
  have hnodup : (addresses (left ++ right)).Nodup := by
    have hall := hl.nodup
    rw [addresses, List.map_append, List.map_cons] at hall
    rw [addresses, List.map_append]
    exact (List.nodup_cons.mp (List.nodup_middle.mp hall)).2
  rcases Heap.delete_eq hl.linked with ⟨after, hdeleted, hcells⟩
  refine ⟨after,
    { head := first (left ++ right) none
      tail := last none (left ++ right)
      size := l.size - 1 }, ?_, ?_, ?_⟩
  · rw [← first_erase hl.nodup, ← last_erase hl.nodup, ← hl.head, ← hl.tail]
    simp [Alist.remove, hnode, hdeleted]
  · exact ⟨hcells ▸ hl.linked.erase hl.nodup, hnodup, rfl, rfl, hl.size_sub hlength⟩
  · rw [hcells]
    exact updates_eraseNode x

/-- {lit}`remove_first`. -/
theorem removeFirst :
    ∃ after l', l.removeFirst heap = some (after, l') ∧
      Gives heap nodes after l' nodes.tail := by
  unfold Alist.removeFirst
  cases nodes with
  | nil =>
      rw [if_pos (hl.empty_iff.mpr rfl)]
      exact ⟨heap, l, rfl, hl, Updates.refl _ _⟩
  | cons node rest =>
      have hfull : ¬ l.empty = true := fun hempty => by cases hl.empty_iff.mp hempty
      have hhead : l.head = some node.1 := hl.head
      rcases hl.remove (show node :: rest = [] ++ (node.1, node.2) :: rest from rfl) with
        ⟨after, l', hremoved, hgives⟩
      rw [if_neg hfull, hhead, hremoved]
      exact ⟨after, l', rfl, hgives⟩

/-- {lit}`remove_last`. -/
theorem removeLast :
    ∃ after l', l.removeLast heap = some (after, l') ∧
      Gives heap nodes after l' nodes.dropLast := by
  unfold Alist.removeLast
  cases htail : l.tail with
  | none =>
      have hnil : nodes = [] := eq_nil_of_last (hl.tail.symm.trans htail)
      subst hnil
      rw [if_pos (hl.empty_iff.mpr rfl)]
      exact ⟨heap, l, rfl, hl, Updates.refl _ _⟩
  | some tail =>
      rcases exists_of_last (hl.tail.symm.trans htail) with ⟨front, x, hnodes⟩
      have hfull : ¬ l.empty = true := fun hempty => by
        rw [hl.empty_iff.mp hempty] at hnodes
        simp at hnodes
      rcases hl.remove hnodes with ⟨after, l', hremoved, hgives⟩
      rw [if_neg hfull, hremoved]
      rw [List.append_nil] at hgives
      refine ⟨after, l', rfl, ?_⟩
      rw [hnodes] at hgives ⊢
      rw [List.dropLast_concat]
      exact hgives

omit hl in
/-- The loop of {lit}`clear` takes the nodes from the front. -/
theorem clearLoop (hl : Holds heap l nodes) {fuel : ℕ} (hfuel : nodes.length ≤ fuel) :
    ∃ after l', Alist.clearLoop fuel heap l = some (after, l') ∧
      Gives heap nodes after l' [] := by
  induction nodes generalizing heap l fuel with
  | nil =>
      unfold Alist.clearLoop
      rw [if_pos (hl.empty_iff.mpr rfl)]
      exact ⟨heap, l, rfl, hl, Updates.refl _ _⟩
  | cons node rest ih =>
      have hfull : ¬ l.empty = true := fun hempty => by cases hl.empty_iff.mp hempty
      cases fuel with
      | zero => cases hfuel
      | succ fuel =>
          rcases hl.remove (show node :: rest = [] ++ (node.1, node.2) :: rest from rfl) with
            ⟨mid, l', hremoved, hmid⟩
          rcases ih hmid.holds (Nat.le_of_succ_le_succ hfuel) with ⟨after, l'', hcleared, hgives⟩
          unfold Alist.clearLoop
          rw [if_neg hfull, hl.head]
          refine ⟨after, l'', ?_, hgives.holds, hmid.updates.trans hgives.updates⟩
          change (Alist.remove heap l (some node.1)).bind _ = _
          rw [hremoved]
          exact hcleared

/-- {lit}`clear`. -/
theorem clear : ∃ after l', l.clear heap = some (after, l') ∧ Gives heap nodes after l' [] :=
  hl.clearLoop (Nat.le_of_eq hl.size.symm)

omit hl in
/-- The loop of {lit}`append(const alist<T> &)` copies the elements of the other list. -/
theorem appendLoop (hl : Holds heap l nodes) {before : Option ℕ} {rest : List (ℕ × α)}
    (hrest : Linked heap.cells before rest none)
    (hdisjoint : List.Disjoint (addresses rest) (addresses nodes))
    (hfits : nodes.length + rest.length < 2 ^ 32) {fuel : ℕ} (hfuel : rest.length ≤ fuel) :
    ∃ after l' copies, Alist.appendLoop new fuel heap l (first rest none) = some (after, l') ∧
      elems copies = elems rest ∧ Gives heap nodes after l' (nodes ++ copies) := by
  induction rest generalizing heap l nodes before fuel with
  | nil =>
      refine ⟨heap, l, [], ?_, rfl, ?_⟩
      · cases fuel <;> rfl
      · rw [List.append_nil]
        exact ⟨hl, Updates.refl _ _⟩
  | cons node rest ih =>
      rw [List.length_cons] at hfits hfuel
      rcases hl.append new node.2 (by omega) with ⟨mid, l', happended, hmid⟩
      have hkept := hmid.updates.linked hrest hdisjoint
      have hapart := hmid.updates.disjoint hrest hdisjoint
      cases fuel with
      | zero => omega
      | succ fuel =>
          have hlength : (nodes ++ [(new.address heap, node.2)]).length + rest.length < 2 ^ 32 := by
            rw [List.length_append, List.length_singleton]
            omega
          have hapartRest : List.Disjoint (addresses rest)
              (addresses (nodes ++ [(new.address heap, node.2)])) :=
            fun _ hmem => hapart (List.mem_cons_of_mem _ hmem)
          rcases ih hmid.holds hkept.2 hapartRest hlength (Nat.le_of_succ_le_succ hfuel) with
            ⟨after, l'', copies, hloop, helems, hgives⟩
          refine ⟨after, l'', (new.address heap, node.2) :: copies, ?_, ?_, ?_⟩
          · unfold first Alist.appendLoop
            rw [hrest.1]
            change (Alist.append new heap l node.2).bind _ = _
            rw [happended]
            change (mid.cells node.1).bind _ = _
            rw [hkept.1]
            exact hloop
          · simp [helems]
          · rw [List.append_assoc] at hgives
            exact ⟨hgives.holds, hmid.updates.trans hgives.updates⟩

/-- No more nodes than addresses in use. -/
theorem length_le_top : nodes.length ≤ heap.top := by
  have hused : ∀ a ∈ addresses nodes, a ∈ List.range heap.top := by
    intro a ha
    rw [List.mem_range]
    by_contra hfree
    exact hl.linked.ne_none ha (heap.free a (Nat.not_lt.mp hfree))
  have hlength := (List.subperm_of_subset hl.nodup hused).length_le
  rw [List.length_map, List.length_range] at hlength
  exact hlength

/-- {lit}`append` of another list. -/
theorem appendList {rhs : Alist} {other : List (ℕ × α)} (hrhs : Holds heap rhs other)
    (hdisjoint : List.Disjoint (addresses other) (addresses nodes))
    (hfits : nodes.length + other.length < 2 ^ 32) :
    ∃ after l' copies, l.appendList new heap rhs = some (after, l') ∧
      elems copies = elems other ∧ Gives heap nodes after l' (nodes ++ copies) := by
  unfold Alist.appendList
  rw [hrhs.head]
  exact hl.appendLoop new hrhs.linked hdisjoint hfits hrhs.length_le_top

end Holds

/-! ## Several lists -/

/-- Every list consists of its nodes, and no two share one. -/
structure Sound (st : Lists α) (nodes : ℕ → List (ℕ × α)) : Prop where
  holds : ∀ l, Holds st.heap (st.lists l) (nodes l)
  disjoint : ∀ l m, l ≠ m → List.Disjoint (addresses (nodes l)) (addresses (nodes m))

namespace Sound

variable {st : Lists α} {nodes : ℕ → List (ℕ × α)} (hst : Sound st nodes)

include hst

/-- What is done to one list leaves the others alone. -/
theorem update {l : ℕ} {after : Heap α} {l' : Alist} {new : List (ℕ × α)}
    (hgives : Gives st.heap (nodes l) after l' new) :
    Sound { heap := after, lists := Function.update st.lists l l' }
      (Function.update nodes l new) where
  holds := by
    intro m
    change Holds after (Function.update st.lists l l' m) (Function.update nodes l new m)
    by_cases hm : m = l
    · rw [hm, Function.update_self, Function.update_self]
      exact hgives.holds
    · rw [Function.update_of_ne hm, Function.update_of_ne hm]
      have hother := hst.holds m
      exact ⟨hgives.updates.linked hother.linked (hst.disjoint m l hm), hother.nodup, hother.head,
        hother.tail, hother.size⟩
  disjoint := by
    have hnew : ∀ m, m ≠ l → List.Disjoint (addresses (nodes m)) (addresses new) :=
      fun m hm => hgives.updates.disjoint (hst.holds m).linked (hst.disjoint m l hm)
    intro m k hmk
    by_cases hm : m = l
    · have hk : k ≠ l := fun hk => hmk (hm.trans hk.symm)
      rw [hm, Function.update_self, Function.update_of_ne hk]
      exact fun _ hmem hother => hnew k hk hother hmem
    · rw [Function.update_of_ne hm]
      by_cases hk : k = l
      · rw [hk, Function.update_self]
        exact hnew m hm
      · rw [Function.update_of_ne hk]
        exact hst.disjoint m k hmk

/-- The lists are the sequences of the elements of their nodes. -/
theorem represents : st.Represents fun l => elems (nodes l) where
  forward := by
    intro l
    have hl := hst.holds l
    unfold Lists.forward
    rw [hl.head]
    exact hl.linked.walk_next hl.length_le_top
  backward := by
    intro l
    have hl := hst.holds l
    unfold Lists.backward
    rw [hl.tail]
    exact hl.linked.walk_prev hl.length_le_top
  size := by
    intro l
    rw [(hst.holds l).size, List.length_map]

omit hst in
/-- The elements of the nodes, after those of one list have changed. -/
theorem elems_update (nodes : ℕ → List (ℕ × α)) (l : ℕ) (new : List (ℕ × α)) :
    (fun m => elems (Function.update nodes l new m)) =
      Function.update (fun m => elems (nodes m)) l (elems new) := by
  funext m
  by_cases hm : m = l
  · rw [hm, Function.update_self, Function.update_self]
  · rw [Function.update_of_ne hm, Function.update_of_ne hm]

/-- An operation that replaces one list and returns no iterator. -/
theorem put {l : ℕ} {result : Option (Heap α × Alist)} (seq : List α)
    (hresult : ∃ after l' new, result = some (after, l') ∧ elems new = seq ∧
      Gives st.heap (nodes l) after l' new) :
    ∃ after iter nodes', st.put l result = some (after, iter) ∧
      iter = (none : Option (ℕ × ℕ)).bind (fun place => after.iterator place.1 place.2) ∧
      Sound after nodes' ∧
      (fun m => elems (nodes' m)) = Function.update (fun m => elems (nodes m)) l seq := by
  rcases hresult with ⟨after, l', new, rfl, rfl, hgives⟩
  exact ⟨_, none, Function.update nodes l new, rfl, rfl, hst.update hgives,
    elems_update nodes l new⟩

/-- {lit}`remove` returns the iterator that then stands where the removed element stood. -/
theorem remove (new : Allocator α) {l k : ℕ} (hk : k < (nodes l).length) :
    ∃ after iter nodes', st.exec new (.remove l k) = some (after, iter) ∧
      iter = after.iterator l k ∧ Sound after nodes' ∧
      (fun m => elems (nodes' m)) =
        Function.update (fun m => elems (nodes m)) l ((elems (nodes l)).eraseIdx k) := by
  have hl := hst.holds l
  have hlength : ((nodes l).take k).length = k := List.length_take_of_le (Nat.le_of_lt hk)
  have hsplit : nodes l = (nodes l).take k ++ (nodes l)[k] :: (nodes l).drop (k + 1) := by
    rw [List.getElem_cons_drop, List.take_append_drop]
  generalize (nodes l).take k = left, (nodes l)[k] = node, (nodes l).drop (k + 1) = right
    at hlength hsplit
  rcases node with ⟨a, x⟩
  rcases hl.remove hsplit with ⟨after, l', hremoved, hgives⟩
  have hiterator : st.iterator l k = some (some a) := by
    have hwalked := hl.linked
    rw [hsplit] at hwalked
    rw [Lists.iterator, hl.head, hsplit, ← hlength]
    exact hwalked.advance_first
  have hsound := hst.update hgives
  refine ⟨{ heap := after, lists := Function.update st.lists l l' }, some (first right none),
    Function.update nodes l (left ++ right), ?_, ?_, hsound, ?_⟩
  · unfold Lists.exec
    dsimp only
    rw [hiterator]
    change (Alist.remove st.heap (st.lists l) (some a)).bind _ = _
    rw [hremoved]
    rfl
  · change _ = advance after.cells k (Function.update st.lists l l' l).head
    rw [Function.update_self, hgives.holds.head, ← hlength]
    exact hgives.holds.linked.advance_first.symm
  · rw [elems_update, hsplit]
    have helems : elems (left ++ (a, x) :: right) = elems left ++ x :: elems right := by simp
    have hfront : (elems left).length = k := by rw [List.length_map, hlength]
    rw [helems, List.eraseIdx_append_of_length_le (Nat.le_of_eq hfront), hfront, Nat.sub_self,
      List.eraseIdx_cons_zero, elems, List.map_append]

/-- An operation does to the nodes what it does to the sequences. -/
theorem exec (new : Allocator α) {op : ListOp α} {seqs' : ℕ → List α} {place : Option (ℕ × ℕ)}
    (hspec : op.spec (fun l => elems (nodes l)) = some (seqs', place))
    (hfits : ∀ l, (seqs' l).length < 2 ^ 32) :
    ∃ after iter nodes', st.exec new op = some (after, iter) ∧
      iter = place.bind (fun place => after.iterator place.1 place.2) ∧ Sound after nodes' ∧
      (fun l => elems (nodes' l)) = seqs' := by
  have hmap : ∀ l, (elems (nodes l)).length = (nodes l).length := fun l => List.length_map _
  cases op with
  | append l elem =>
      cases hspec
      have hlength := hfits l
      rw [Function.update_self, List.length_append, hmap, List.length_singleton] at hlength
      rcases (hst.holds l).append new elem hlength with ⟨after, l', happended, hgives⟩
      exact hst.put _ ⟨after, l', _, happended, List.map_append, hgives⟩
  | prepend l elem =>
      cases hspec
      have hlength := hfits l
      rw [Function.update_self, List.length_cons, hmap] at hlength
      rcases (hst.holds l).prepend new elem hlength with ⟨after, l', hprepended, hgives⟩
      exact hst.put _ ⟨after, l', _, hprepended, rfl, hgives⟩
  | appendList l rhs =>
      by_cases hrhs : rhs = l
      · rw [ListOp.spec, if_pos hrhs] at hspec
        cases hspec
        refine ⟨st, none, nodes, ?_, rfl, hst, rfl⟩
        rw [Lists.exec, if_pos hrhs]
      · rw [ListOp.spec, if_neg hrhs] at hspec
        cases hspec
        have hlength := hfits l
        rw [Function.update_self, List.length_append, hmap, hmap] at hlength
        rcases (hst.holds l).appendList new (hst.holds rhs) (hst.disjoint rhs l hrhs) hlength with
          ⟨after, l', copies, happended, helems, hgives⟩
        rw [Lists.exec, if_neg hrhs]
        exact hst.put _ ⟨after, l', _, happended,
          List.map_append.trans (congrArg (elems (nodes l) ++ ·) helems), hgives⟩
  | assign l rhs =>
      cases hspec
      by_cases hrhs : rhs = l
      · refine ⟨st, none, nodes, ?_, rfl, hst, ?_⟩
        · rw [Lists.exec, if_pos hrhs]
        · rw [hrhs, Function.update_eq_self]
      · have hlength := hfits l
        rw [Function.update_self, hmap] at hlength
        rcases (hst.holds l).clear with ⟨mid, l', hcleared, hmid⟩
        have hother := (hst.update hmid).holds rhs
        rw [Function.update_of_ne hrhs] at hother
        have hrest : Holds mid (st.lists rhs) (nodes rhs) := by
          have hkept : Function.update st.lists l l' rhs = st.lists rhs :=
            Function.update_of_ne hrhs _ _
          rw [← hkept]
          exact hother
        have hroom : ([] : List (ℕ × α)).length + (nodes rhs).length < 2 ^ 32 := by
          rw [List.length_nil, Nat.zero_add]
          exact hlength
        rcases hmid.holds.appendList new hrest (fun _ _ hmem => by cases hmem) hroom with
          ⟨after, l'', copies, happended, helems, hgives⟩
        rw [Lists.exec, if_neg hrhs]
        refine hst.put _ ⟨after, l'', copies, ?_, helems, hgives.holds,
          hmid.updates.trans hgives.updates⟩
        rw [hcleared]
        exact happended
  | remove l k =>
      by_cases hk : k < (elems (nodes l)).length
      · rw [ListOp.spec, if_pos hk] at hspec
        cases hspec
        exact hst.remove new (by rwa [hmap] at hk)
      · rw [ListOp.spec, if_neg hk] at hspec
        cases hspec
  | removeFirst l =>
      cases hspec
      rcases (hst.holds l).removeFirst with ⟨after, l', hremoved, hgives⟩
      exact hst.put _ ⟨after, l', _, hremoved, List.map_tail, hgives⟩
  | removeLast l =>
      cases hspec
      rcases (hst.holds l).removeLast with ⟨after, l', hremoved, hgives⟩
      exact hst.put _ ⟨after, l', _, hremoved, List.map_dropLast, hgives⟩
  | clear l =>
      cases hspec
      rcases (hst.holds l).clear with ⟨after, l', hcleared, hgives⟩
      exact hst.put _ ⟨after, l', _, hcleared, rfl, hgives⟩

end Sound

/-! ## Sequences of operations -/

theorem sound_start : Sound (Lists.start : Lists α) fun _ => [] where
  holds := fun _ => ⟨trivial, List.nodup_nil, rfl, rfl, rfl⟩
  disjoint := fun _ _ _ _ hmem => by cases hmem

theorem runMeets_of_sound {st : Lists α} {nodes : ℕ → List (ℕ × α)} (hst : Sound st nodes)
    {ops : List (ListOp α × Allocator α)} (hfits : RunFits (fun l => elems (nodes l)) ops) :
    ListRunMeets st (fun l => elems (nodes l)) ops := by
  induction ops generalizing st nodes with
  | nil => exact hst.represents
  | cons step ops ih =>
      refine ⟨hst.represents, fun seqs' place hspec => ?_⟩
      rcases hfits seqs' place hspec with ⟨hlengths, hrest⟩
      rcases hst.exec step.2 hspec hlengths with
        ⟨after, iter, nodes', hexec, hiter, hsound, helems⟩
      refine ⟨after, iter, hexec, hiter, ?_⟩
      rw [← helems] at hrest ⊢
      exact ih hsound hrest

theorem represents_of_runMeets {st : Lists α} {seqs : ℕ → List α}
    {ops : List (ListOp α × Allocator α)} (hrun : ListRunMeets st seqs ops) :
    st.Represents seqs := by
  cases ops with
  | nil => exact hrun
  | cons step ops => exact hrun.1

/-- A sequence that a list represents is no longer than its size can be. -/
theorem Lists.Represents.length_lt {st : Lists α} {seqs : ℕ → List α}
    (hst : st.Represents seqs) (l : ℕ) : (seqs l).length < 2 ^ 32 := by
  rw [← hst.size l]
  exact UInt32.toNat_lt _

theorem fits_of_runMeets {st : Lists α} {seqs : ℕ → List α}
    {ops : List (ListOp α × Allocator α)} (hrun : ListRunMeets st seqs ops) :
    RunFits seqs ops := by
  induction ops generalizing st seqs with
  | nil => trivial
  | cons step ops ih =>
      intro seqs' place hspec
      rcases hrun.2 seqs' place hspec with ⟨after, iter, -, -, hrest⟩
      exact ⟨(represents_of_runMeets hrest).length_lt, ih hrest⟩

/-- The lists are the sequences that the operations define, and iterators that are returned denote
the successors of removed elements, exactly if no list ever gets more elements than an
{lit}`unsigned int` can count. -/
theorem listRunMeets_iff (ops : List (ListOp α × Allocator α)) :
    ListRunMeets Lists.start (fun _ => []) ops ↔ RunFits (fun _ => []) ops :=
  ⟨fits_of_runMeets, runMeets_of_sound sound_start⟩

/-- The addresses are taken one after the other. -/
def Allocator.bump : Allocator α where
  address := Heap.top
  fresh := fun heap => heap.free heap.top (Nat.le_refl _)

/-- A list to which so many elements are appended has to count them. -/
theorem length_of_appends {st : Lists α} {seqs : ℕ → List α} {n : ℕ} {elem : α}
    (hrun : ListRunMeets st seqs (List.replicate n (.append 0 elem, .bump))) :
    (seqs 0).length + n < 2 ^ 32 := by
  induction n generalizing st seqs with
  | zero => exact (represents_of_runMeets hrun).length_lt 0
  | succ n ih =>
      rcases hrun.2 _ _ rfl with ⟨after, iter, -, -, hrest⟩
      have hlength := ih hrest
      rw [Function.update_self, List.length_append, List.length_singleton] at hlength
      omega

/-- After so many appends the size is zero again. -/
theorem not_listRunMeets_appends :
    ¬ ListRunMeets (Lists.start : Lists Unit) (fun _ => [])
      (List.replicate (2 ^ 32) (.append 0 (), .bump)) := by
  intro hrun
  have hlength := length_of_appends hrun
  simp at hlength

end Lib
end Apcupsd
