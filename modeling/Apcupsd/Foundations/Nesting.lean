import Mathlib.Data.List.Basic
import Mathlib.Data.List.TakeDrop
import Mathlib.Tactic.Cases

/-!
# Nested groups

A stream that opens and closes groups of several types.  The groups that are open at a mark
form a stack; a reader that keeps only a stack of limited height for one type of group knows
the innermost group of that type as long as no more of them than that are open.

Main results:

- Theorem {lit}`BoundedStack.tracks_enter`: a stack that is high enough tracks what is open.
- Theorem {lit}`BoundedStack.tracks_leave`: closing a group of a well nested stream does too.
- Theorem {lit}`BoundedStack.enter_of_deeper`: an opening beyond the height is lost.
-/

namespace Nesting

variable {ι β : Type*}

/-- What an element of a stream does to the groups. -/
inductive Mark (ι β : Type*) where
  | opens (type : ι) (label : β)
  | closes (type : ι)
  | plain

/-- The same mark with another label. -/
def Mark.relabel {γ : Type*} (f : β → γ) : Mark ι β → Mark ι γ
  | .opens type label => .opens type (f label)
  | .closes type => .closes type
  | .plain => .plain

/-- The open groups, the innermost first. -/
abbrev Open (ι β : Type*) := List (ι × β)

namespace Open

/-- What is open at a mark: an opening mark stands in its own group. -/
def enter (groups : Open ι β) : Mark ι β → Open ι β
  | .opens type label => (type, label) :: groups
  | .closes _ => groups
  | .plain => groups

/-- What is open behind a mark: a closing mark stands in the group it closes. -/
def leave (groups : Open ι β) : Mark ι β → Open ι β
  | .opens _ _ => groups
  | .closes _ => groups.tail
  | .plain => groups

/-- What is open behind a mark, from what is open before it. -/
def step (groups : Open ι β) (mark : Mark ι β) : Open ι β :=
  (groups.enter mark).leave mark

/-- What is open at each mark of a stream. -/
def atMark : Open ι β → List (Mark ι β) → ℕ → Open ι β
  | groups, [], _ => groups
  | groups, mark :: _, 0 => groups.enter mark
  | groups, mark :: rest, i + 1 => atMark (groups.step mark) rest i

/-- The same groups with other labels. -/
def relabel {γ : Type*} (f : β → γ) (groups : Open ι β) : Open ι γ :=
  groups.map fun group => (group.1, f group.2)

/-- Every mark that closes a group closes the innermost one, and all are closed at the end. -/
def WellNested : Open ι β → List (Mark ι β) → Prop
  | groups, [] => groups = []
  | groups, .closes type :: rest =>
      groups.head?.map Prod.fst = some type ∧ WellNested groups.tail rest
  | groups, .opens type label :: rest => WellNested ((type, label) :: groups) rest
  | groups, .plain :: rest => WellNested groups rest

/-- A closing mark finds its group innermost. -/
theorem WellNested.closes_head {groups : Open ι β} {mark : Mark ι β} {rest : List (Mark ι β)}
    (hnested : WellNested groups (mark :: rest)) {type : ι} (hcloses : mark = .closes type) :
    groups.head?.map Prod.fst = some type := by
  subst hcloses
  rw [WellNested] at hnested
  exact hnested.1

/-- The rest of a well nested stream is well nested. -/
theorem WellNested.step {groups : Open ι β} {mark : Mark ι β} {rest : List (Mark ι β)}
    (hnested : WellNested groups (mark :: rest)) : WellNested (groups.step mark) rest := by
  cases mark with
  | opens type label => exact hnested
  | closes type =>
      rw [WellNested] at hnested
      exact hnested.2
  | plain => exact hnested

instance decidableWellNested [DecidableEq ι] :
    ∀ (groups : Open ι β) (marks : List (Mark ι β)), Decidable (WellNested groups marks)
  | groups, [] => decidable_of_iff (groups.isEmpty = true) List.isEmpty_iff
  | groups, .closes type :: rest =>
      have := decidableWellNested groups.tail rest
      inferInstanceAs (Decidable (groups.head?.map Prod.fst = some type ∧
        WellNested groups.tail rest))
  | groups, .opens type label :: rest => decidableWellNested ((type, label) :: groups) rest
  | groups, .plain :: rest => decidableWellNested groups rest

theorem enter_relabel {γ : Type*} (f : β → γ) (groups : Open ι β) (mark : Mark ι β) :
    (groups.relabel f).enter (mark.relabel f) = (groups.enter mark).relabel f := by
  cases mark <;> rfl

theorem step_relabel {γ : Type*} (f : β → γ) (groups : Open ι β) (mark : Mark ι β) :
    (groups.relabel f).step (mark.relabel f) = (groups.step mark).relabel f := by
  cases mark with
  | opens type label => rfl
  | closes type => exact List.map_tail.symm
  | plain => rfl

theorem atMark_relabel {γ : Type*} (f : β → γ) (groups : Open ι β) (marks : List (Mark ι β))
    (i : ℕ) : atMark (groups.relabel f) (marks.map (Mark.relabel f)) i =
      (atMark groups marks i).relabel f := by
  induction marks generalizing groups i with
  | nil => rfl
  | cons mark rest ih =>
      cases i with
      | zero => exact enter_relabel f groups mark
      | succ i =>
          rw [List.map_cons, atMark, step_relabel, ih]
          rfl

/-- The labels do not matter for the nesting. -/
theorem wellNested_relabel {γ : Type*} (f : β → γ) (groups : Open ι β)
    (marks : List (Mark ι β)) :
    WellNested (groups.relabel f) (marks.map (Mark.relabel f)) ↔ WellNested groups marks := by
  induction marks generalizing groups with
  | nil => exact List.map_eq_nil_iff
  | cons mark rest ih =>
      have hrest := ih (groups.step mark)
      rw [← step_relabel] at hrest
      cases mark with
      | opens type label => exact hrest
      | closes type =>
          have hhead : (groups.relabel f).head?.map Prod.fst = groups.head?.map Prod.fst := by
            cases groups <;> rfl
          rw [List.map_cons, Mark.relabel, WellNested, WellNested, hhead]
          exact and_congr_right fun _ => hrest
      | plain => exact hrest

variable [DecidableEq ι]

/-- The labels of the open groups of a type, the innermost first. -/
def ofType (groups : Open ι β) (type : ι) : List β :=
  (groups.filter fun group => group.1 = type).map Prod.snd

@[simp]
theorem ofType_nil (type : ι) : ofType ([] : Open ι β) type = [] := rfl

@[simp]
theorem ofType_cons_self (groups : Open ι β) (type : ι) (label : β) :
    ofType ((type, label) :: groups) type = label :: groups.ofType type := by
  simp [ofType]

theorem ofType_cons_of_ne {type other : ι} (hne : other ≠ type) (groups : Open ι β) (label : β) :
    ofType ((other, label) :: groups) type = groups.ofType type := by
  simp [ofType, hne]

theorem length_ofType_relabel {γ : Type*} (f : β → γ) (groups : Open ι β) (type : ι) :
    ((groups.relabel f).ofType type).length = (groups.ofType type).length := by
  rw [ofType, ofType, relabel, List.filter_map, List.length_map, List.length_map,
    List.length_map]
  rfl

end Open

/-! ## Stacks of limited height -/

/-- A stack of at most {lit}`height` values, the topmost first. -/
structure BoundedStack (β : Type*) (height : ℕ) where
  values : List β
  bound : values.length ≤ height

namespace BoundedStack

variable {height : ℕ}

/-- The empty stack. -/
def empty : BoundedStack β height :=
  ⟨[], Nat.zero_le _⟩

/-- A value that does not fit is lost. -/
def push (stack : BoundedStack β height) (value : β) : BoundedStack β height :=
  if hroom : stack.values.length < height then ⟨value :: stack.values, hroom⟩ else stack

/-- An empty stack stays empty. -/
def pop (stack : BoundedStack β height) : BoundedStack β height :=
  ⟨stack.values.tail, by
    rw [List.length_tail]
    exact Nat.le_trans (Nat.sub_le _ _) stack.bound⟩

@[simp]
theorem values_empty : (empty : BoundedStack β height).values = [] := rfl

@[simp]
theorem values_pop (stack : BoundedStack β height) : stack.pop.values = stack.values.tail := rfl

theorem values_push {stack : BoundedStack β height} (hroom : stack.values.length < height)
    (value : β) : (stack.push value).values = value :: stack.values := by
  rw [push, dif_pos hroom]

theorem push_of_full {stack : BoundedStack β height} (hfull : height ≤ stack.values.length)
    (value : β) : stack.push value = stack := by
  rw [push, dif_neg (Nat.not_lt.mpr hfull)]

/-- Whatever is on the stack has been pushed. -/
theorem mem_push {stack : BoundedStack β height} {value other : β}
    (hmem : other ∈ (stack.push value).values) : other = value ∨ other ∈ stack.values := by
  by_cases hroom : stack.values.length < height
  · rw [values_push hroom] at hmem
    exact List.mem_cons.mp hmem
  · rw [push_of_full (Nat.not_lt.mp hroom)] at hmem
    exact Or.inr hmem

variable [DecidableEq ι]

/-- The labels of the groups of a type are pushed. -/
def enter (type : ι) (stack : BoundedStack β height) : Mark ι β → BoundedStack β height
  | .opens opened label => if opened = type then stack.push label else stack
  | .closes _ => stack
  | .plain => stack

/-- Closing a group of the type pops the stack. -/
def leave (type : ι) (stack : BoundedStack β height) : Mark ι β → BoundedStack β height
  | .opens _ _ => stack
  | .closes closed => if closed = type then stack.pop else stack
  | .plain => stack

/-- The stack holds the open groups of the type. -/
def Tracks (type : ι) (stack : BoundedStack β height) (groups : Open ι β) : Prop :=
  stack.values = groups.ofType type

theorem tracks_empty (type : ι) : Tracks type (empty : BoundedStack β height) [] := rfl

variable {type : ι} {stack : BoundedStack β height} {groups : Open ι β}

/-- A stack that is high enough tracks what is open. -/
theorem tracks_enter (htracks : Tracks type stack groups) (mark : Mark ι β)
    (hheight : ((groups.enter mark).ofType type).length ≤ height) :
    Tracks type (stack.enter type mark) (groups.enter mark) := by
  cases mark with
  | opens opened label =>
      by_cases htype : opened = type
      · subst htype
        rw [Open.enter, Open.ofType_cons_self, List.length_cons] at hheight
        have hroom : stack.values.length < height := by
          rw [htracks]
          exact hheight
        rw [Tracks, enter, if_pos rfl, values_push hroom, Open.enter, Open.ofType_cons_self,
          htracks]
      · rw [Tracks, enter, if_neg htype, Open.enter, Open.ofType_cons_of_ne htype, htracks]
  | closes closed => exact htracks
  | plain => exact htracks

/-- Closing the innermost group keeps track of what is open. -/
theorem tracks_leave (htracks : Tracks type stack groups) {mark : Mark ι β}
    (hcloses : ∀ closed, mark = .closes closed → groups.head?.map Prod.fst = some closed) :
    Tracks type (stack.leave type mark) (groups.leave mark) := by
  cases mark with
  | opens opened label => exact htracks
  | closes _ =>
      obtain ⟨⟨closed, label⟩, hhead, rfl⟩ := Option.map_eq_some_iff.mp (hcloses _ rfl)
      obtain ⟨rest, rfl⟩ := List.head?_eq_some_iff.mp hhead
      by_cases htype : closed = type
      · subst htype
        rw [Tracks, Open.ofType_cons_self] at htracks
        rw [Tracks, leave, if_pos rfl, values_pop, htracks]
        rfl
      · rw [Tracks, Open.ofType_cons_of_ne htype] at htracks
        rw [Tracks, leave, if_neg htype]
        exact htracks
  | plain => exact htracks

/-- An opening beyond the height of the stack is lost. -/
theorem enter_of_deeper (htracks : Tracks type stack groups) {mark : Mark ι β}
    (hdeeper : height < ((groups.enter mark).ofType type).length) :
    stack.enter type mark = stack ∧ ∃ label, mark = .opens type label := by
  have hbound : (groups.ofType type).length ≤ height := htracks ▸ stack.bound
  cases mark with
  | opens opened label =>
      by_cases htype : opened = type
      · subst htype
        rw [Open.enter, Open.ofType_cons_self, List.length_cons, ← htracks] at hdeeper
        rw [enter, if_pos rfl, push_of_full (Nat.le_of_lt_succ hdeeper)]
        exact ⟨rfl, label, rfl⟩
      · rw [Open.enter, Open.ofType_cons_of_ne htype] at hdeeper
        exact absurd hbound (Nat.not_le.mpr hdeeper)
  | closes closed => exact absurd hbound (Nat.not_le.mpr hdeeper)
  | plain => exact absurd hbound (Nat.not_le.mpr hdeeper)

end BoundedStack

end Nesting
