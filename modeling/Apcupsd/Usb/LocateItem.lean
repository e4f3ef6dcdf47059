import Apcupsd.Foundations.Nesting
import Mathlib.Data.List.Forall2
import Mathlib.Data.Nat.Find
import Mathlib.Logic.Function.Basic

/-!
# Locating an item of a report descriptor

{lit}`HidUps::LocateItem` walks the items of a report descriptor with three stacks of ten
collections.  The items are what {lit}`hid_get_item` delivers.

Main results:

- Theorem {lit}`locateItem_honoured`: the item is the right one if up to it no collections of one
  type are nested deeper than the stacks are high.
- Theorem {lit}`locateItem_honours_iff`: with a deeper nesting some request goes wrong.
-/

namespace Apcupsd

open Nesting

/-! ## Items -/

/-- {lit}`hid_kind_t`. -/
inductive HidKind where
  | input
  | output
  | feature
  | collection
  | endcollection
deriving DecidableEq, Repr

/-- The number of a kind. -/
def HidKind.code : HidKind → Int32
  | .input => 0
  | .output => 1
  | .feature => 2
  | .collection => 3
  | .endcollection => 4

/-- {lit}`hid_item_t`: what {lit}`LocateItem` looks at, and the fields it only copies. -/
structure HidItem (ρ : Type*) where
  kind : HidKind
  usage : UInt32
  collection : Int32
  other : ρ
deriving DecidableEq

/-- The types of collections that {lit}`LocateItem` keeps stacks for. -/
inductive HidCol where
  | physical
  | application
  | logical
deriving DecidableEq, Repr

/-- {lit}`HIDCOL_PHYSICAL`, {lit}`HIDCOL_APPLICATION` and {lit}`HIDCOL_LOGICAL`. -/
def HidCol.code : HidCol → Int32
  | .physical => 0
  | .application => 1
  | .logical => 2

/-- {lit}`MAX_COLLECTION_NESTING`. -/
def maxCollectionNesting : ℕ := 10

/-- {lit}`phys_stack`, {lit}`app_stack` or {lit}`logical_stack` with its index, which is one less
than the number of values. -/
abbrev CollectionStack := BoundedStack Int32 maxCollectionNesting

/-- {lit}`TOP_COLLECTION`. -/
def topCollection (stack : CollectionStack) : Int32 :=
  stack.values.head?.getD (-1)

/-- The three stacks. -/
abbrev CollectionStacks := HidCol → CollectionStack

/-- All indices are -1. -/
def CollectionStacks.empty : CollectionStacks :=
  fun _ => BoundedStack.empty

/-- {lit}`PUSH_COLLECTION`, for the type of collection that an item opens. -/
def pushCollection {ρ : Type*} (levels : CollectionStacks) (item : HidItem ρ) :
    CollectionStacks :=
  if item.kind = .collection then
    if item.collection = HidCol.physical.code then
      Function.update levels .physical ((levels .physical).push item.usage.toInt32)
    else if item.collection = HidCol.logical.code then
      Function.update levels .logical ((levels .logical).push item.usage.toInt32)
    else if item.collection = HidCol.application.code then
      Function.update levels .application ((levels .application).push item.usage.toInt32)
    else levels
  else levels

/-- {lit}`POP_COLLECTION`, for the type of collection that an item closes. -/
def popCollection {ρ : Type*} (levels : CollectionStacks) (item : HidItem ρ) : CollectionStacks :=
  if item.kind = .endcollection then
    if item.collection = HidCol.physical.code then
      Function.update levels .physical (levels .physical).pop
    else if item.collection = HidCol.logical.code then
      Function.update levels .logical (levels .logical).pop
    else if item.collection = HidCol.application.code then
      Function.update levels .application (levels .application).pop
    else levels
  else levels

/-! ## The search -/

/-- The arguments of {lit}`LocateItem`: -1 for whatever does not matter. -/
structure ItemRequest where
  usage : Int32
  app : Int32
  phys : Int32
  logical : Int32
  kind : Int32
deriving DecidableEq

/-- None of the jumps to {lit}`next` is taken. -/
def ItemRequest.matchesItem {ρ : Type*} (request : ItemRequest) (levels : CollectionStacks)
    (item : HidItem ρ) : Bool :=
  !(request.usage != -1 && request.usage.toUInt32 != item.usage) &&
  !(request.app != -1 && request.app != topCollection (levels .application)) &&
  !(request.phys != -1 && request.phys != topCollection (levels .physical)) &&
  !(request.logical != -1 && request.logical != topCollection (levels .logical)) &&
  !(request.kind != -1 && (1 <<< item.kind.code) &&& request.kind == 0)

/-- The loop. -/
def locateItemFrom {ρ : Type*} (request : ItemRequest) :
    CollectionStacks → List (HidItem ρ) → Option (HidItem ρ)
  | _, [] => none
  | levels, item :: rest =>
      if request.matchesItem (pushCollection levels item) item then some item
      else locateItemFrom request (popCollection (pushCollection levels item) item) rest

/-- {lit}`HidUps::LocateItem`, from what {lit}`hid_start_parse` makes of the descriptor. -/
def locateItem {ρ : Type*} (request : ItemRequest) (cookie : Option (List (HidItem ρ))) :
    Option (HidItem ρ) :=
  match cookie with
  | none => none
  | some items => locateItemFrom request .empty items

/-! ## What it is for -/

/-- What an item does to the nesting of the collections. -/
def HidItem.mark {ρ : Type*} (item : HidItem ρ) : Mark Int32 Int32 :=
  match item.kind with
  | .collection => .opens item.collection item.usage.toInt32
  | .endcollection => .closes item.collection
  | _ => .plain

/-- The collections that are open at the items of a descriptor. -/
def openAt {ρ : Type*} (groups : Open Int32 Int32) (items : List (HidItem ρ)) (i : ℕ) :
    Open Int32 Int32 :=
  groups.atMark (items.map HidItem.mark) i

/-- The requested usage of a type of collection. -/
def ItemRequest.collection (request : ItemRequest) : HidCol → Int32
  | .physical => request.phys
  | .application => request.app
  | .logical => request.logical

/-- An item that matches the request, in the collections that are open at it. -/
structure ItemRequest.Wants {ρ : Type*} (request : ItemRequest) (groups : Open Int32 Int32)
    (item : HidItem ρ) : Prop where
  usage : request.usage = -1 ∨ request.usage.toUInt32 = item.usage
  kind : request.kind = -1 ∨ (1 <<< item.kind.code) &&& request.kind ≠ 0
  collection : ∀ type : HidCol, request.collection type = -1 ∨
    (groups.ofType type.code).head? = some (request.collection type)

/-- The item at a position is one that matches. -/
def ItemRequest.WantsAt {ρ : Type*} (request : ItemRequest) (groups : Open Int32 Int32)
    (items : List (HidItem ρ)) (i : ℕ) : Prop :=
  ∃ item, items[i]? = some item ∧ request.Wants (openAt groups items i) item

/-- The first item that matches, or failure if there is none. -/
def ItemRequest.Honoured {ρ : Type*} (request : ItemRequest) (groups : Open Int32 Int32)
    (items : List (HidItem ρ)) : Option (HidItem ρ) → Prop
  | some item => ∃ i, items[i]? = some item ∧ request.WantsAt groups items i ∧
      ∀ j < i, ¬ request.WantsAt groups items j
  | none => ∀ i, ¬ request.WantsAt groups items i

/-- Not more than ten collections of each type are open at an item. -/
def FitsAt {ρ : Type*} (groups : Open Int32 Int32) (items : List (HidItem ρ)) (i : ℕ) : Prop :=
  ∀ type : HidCol, ((openAt groups items i).ofType type.code).length ≤ maxCollectionNesting

/-- The collections of a descriptor are well nested. -/
abbrev WellNestedItems {ρ : Type*} (items : List (HidItem ρ)) : Prop :=
  Open.WellNested [] (items.map HidItem.mark)

/-- Two descriptors with the same items and types of collections, up to the usages. -/
abbrev SameShape {ρ : Type*} : List (HidItem ρ) → List (HidItem ρ) → Prop :=
  List.Forall₂ fun item other => item.kind = other.kind ∧ item.collection = other.collection

/-! ## The stacks follow the nesting -/

section

variable {ρ : Type*} {levels : CollectionStacks} {groups : Open Int32 Int32} {item : HidItem ρ}
  {items rest : List (HidItem ρ)} {request : ItemRequest}

theorem pushCollection_apply (levels : CollectionStacks) (item : HidItem ρ) (type : HidCol) :
    pushCollection levels item type = (levels type).enter type.code item.mark := by
  unfold pushCollection HidItem.mark
  cases hkind : item.kind with
  | collection =>
      by_cases hp : item.collection = 0
      · cases type <;> simp [BoundedStack.enter, HidCol.code, hp]
      by_cases hl : item.collection = 2
      · cases type <;> simp [BoundedStack.enter, HidCol.code, hl]
      by_cases ha : item.collection = 1
      · cases type <;> simp [BoundedStack.enter, HidCol.code, ha]
      cases type <;> simp [BoundedStack.enter, HidCol.code, hp, hl, ha]
  | input => rfl
  | output => rfl
  | feature => rfl
  | endcollection => rfl

theorem popCollection_apply (levels : CollectionStacks) (item : HidItem ρ) (type : HidCol) :
    popCollection levels item type = (levels type).leave type.code item.mark := by
  unfold popCollection HidItem.mark
  cases hkind : item.kind with
  | endcollection =>
      by_cases hp : item.collection = 0
      · cases type <;> simp [BoundedStack.leave, HidCol.code, hp]
      by_cases hl : item.collection = 2
      · cases type <;> simp [BoundedStack.leave, HidCol.code, hl]
      by_cases ha : item.collection = 1
      · cases type <;> simp [BoundedStack.leave, HidCol.code, ha]
      cases type <;> simp [BoundedStack.leave, HidCol.code, hp, hl, ha]
  | input => rfl
  | output => rfl
  | feature => rfl
  | collection => rfl

/-- The stacks hold the usages of the open collections of their types. -/
def Follow (levels : CollectionStacks) (groups : Open Int32 Int32) : Prop :=
  ∀ type : HidCol, BoundedStack.Tracks type.code (levels type) groups

theorem follow_empty : Follow .empty [] :=
  fun type => BoundedStack.tracks_empty type.code

theorem Follow.push (hfollow : Follow levels groups) (hfits : FitsAt groups (item :: rest) 0) :
    Follow (pushCollection levels item) (groups.enter item.mark) := by
  intro type
  rw [pushCollection_apply]
  exact BoundedStack.tracks_enter (hfollow type) item.mark (hfits type)

theorem Follow.pop (hfollow : Follow levels (groups.enter item.mark))
    (hnested : groups.WellNested ((item :: rest).map HidItem.mark)) :
    Follow (popCollection levels item) (groups.step item.mark) := by
  intro type
  rw [popCollection_apply]
  apply BoundedStack.tracks_leave (hfollow type)
  intro closed hcloses
  have hhead := Open.WellNested.closes_head hnested hcloses
  rwa [hcloses]

/-- The test of the loop is the one on the open collections. -/
theorem matchesItem_iff (hfollow : Follow levels groups) (item : HidItem ρ) :
    request.matchesItem levels item = true ↔ request.Wants groups item := by
  have htop (type : HidCol) (r : Int32) : (r = -1 ∨ r = topCollection (levels type)) ↔
      (r = -1 ∨ (groups.ofType type.code).head? = some r) := by
    rw [topCollection, hfollow type]
    cases (groups.ofType type.code).head? with
    | none => simp
    | some value => simp [eq_comm]
  constructor
  · intro hmatches
    simp only [ItemRequest.matchesItem, Bool.and_eq_true, Bool.not_eq_true', Bool.and_eq_false_iff,
      bne_eq_false_iff_eq, beq_eq_false_iff_ne] at hmatches
    obtain ⟨⟨⟨⟨husage, happ⟩, hphys⟩, hlogical⟩, hkind⟩ := hmatches
    refine ⟨husage, hkind, fun type => ?_⟩
    cases type with
    | physical => exact (htop _ _).mp hphys
    | application => exact (htop _ _).mp happ
    | logical => exact (htop _ _).mp hlogical
  · rintro ⟨husage, hkind, hcollection⟩
    simp only [ItemRequest.matchesItem, Bool.and_eq_true, Bool.not_eq_true', Bool.and_eq_false_iff,
      bne_eq_false_iff_eq, beq_eq_false_iff_ne]
    exact ⟨⟨⟨⟨husage, (htop _ _).mpr (hcollection .application)⟩,
      (htop _ _).mpr (hcollection .physical)⟩, (htop _ _).mpr (hcollection .logical)⟩, hkind⟩

/-! ## The search finds the right item -/

theorem wantsAt_zero : request.WantsAt groups (item :: rest) 0 ↔
    request.Wants (groups.enter item.mark) item := by
  simp [ItemRequest.WantsAt, openAt, Open.atMark]

theorem wantsAt_succ {i : ℕ} : request.WantsAt groups (item :: rest) (i + 1) ↔
    request.WantsAt (groups.step item.mark) rest i :=
  Iff.rfl

/-- An item that does not match is passed over. -/
theorem ItemRequest.Honoured.cons {result : Option (HidItem ρ)}
    (hnot : ¬ request.WantsAt groups (item :: rest) 0)
    (hrest : request.Honoured (groups.step item.mark) rest result) :
    request.Honoured groups (item :: rest) result := by
  cases result with
  | none =>
      intro i
      cases i with
      | zero => exact hnot
      | succ i => exact hrest i
  | some found =>
      obtain ⟨i, hfound, hwants, hfirst⟩ := hrest
      refine ⟨i + 1, hfound, hwants, fun j hj => ?_⟩
      cases j with
      | zero => exact hnot
      | succ j => exact hfirst j (Nat.lt_of_succ_lt_succ hj)

/-- The loop, from stacks that follow the nesting. -/
theorem locateItemFrom_honoured (hfollow : Follow levels groups)
    (hnested : groups.WellNested (items.map HidItem.mark))
    (hfits : ∀ i < items.length, (∀ j < i, ¬ request.WantsAt groups items j) →
      FitsAt groups items i) :
    request.Honoured groups items (locateItemFrom request levels items) := by
  induction items generalizing levels groups with
  | nil =>
      intro i hwants
      obtain ⟨item, hitem, -⟩ := hwants
      cases hitem
  | cons item rest ih =>
      have hentered := hfollow.push (hfits 0 (Nat.succ_pos _) (fun j hj => absurd hj (by omega)))
      rw [locateItemFrom]
      by_cases hmatches : request.matchesItem (pushCollection levels item) item = true
      · rw [if_pos hmatches]
        exact ⟨0, rfl, wantsAt_zero.mpr ((matchesItem_iff hentered item).mp hmatches),
          fun j hj => absurd hj (by omega)⟩
      · have hnot : ¬ request.WantsAt groups (item :: rest) 0 := by
          rwa [wantsAt_zero, ← matchesItem_iff hentered]
        rw [if_neg hmatches]
        apply ItemRequest.Honoured.cons hnot
        apply ih (hentered.pop hnested) hnested.step
        intro i hi hearlier
        apply hfits (i + 1) (Nat.succ_lt_succ hi)
        intro j hj
        cases j with
        | zero => exact hnot
        | succ j => exact hearlier j (Nat.lt_of_succ_lt_succ hj)

/-- {lit}`LocateItem` returns the right item if up to it no more than ten collections of each
type are open. -/
theorem locateItem_honoured (hnested : WellNestedItems items)
    (hfits : ∀ i < items.length, (∀ j < i, ¬ request.WantsAt [] items j) → FitsAt [] items i) :
    request.Honoured [] items (locateItem request (some items)) :=
  locateItemFrom_honoured follow_empty hnested hfits

/-! ## Deeper nesting -/

/-- The request for what stands in a collection of one type with the usage 1. -/
def requestFor (type : HidCol) : ItemRequest where
  usage := -1
  app := if type = .application then 1 else -1
  phys := if type = .physical then 1 else -1
  logical := if type = .logical then 1 else -1
  kind := -1

theorem wants_requestFor {type : HidCol} :
    (requestFor type).Wants groups item ↔ (groups.ofType type.code).head? = some 1 := by
  constructor
  · rintro ⟨-, -, hcollection⟩
    have htype := hcollection type
    cases type <;> simpa [requestFor, ItemRequest.collection] using htype
  · intro hhead
    refine ⟨Or.inl rfl, Or.inl rfl, fun other => ?_⟩
    cases type <;> cases other <;> simp [requestFor, ItemRequest.collection, hhead]

theorem matchesItem_requestFor {type : HidCol}
    (hmatches : (requestFor type).matchesItem levels item = true) :
    (1 : Int32) ∈ (levels type).values := by
  have htop : topCollection (levels type) = 1 := by
    cases type <;> simp [ItemRequest.matchesItem, requestFor] at hmatches <;> exact hmatches.symm
  cases hvalues : (levels type).values with
  | nil =>
      rw [topCollection, hvalues] at htop
      exact absurd htop (by decide)
  | cons value values =>
      rw [topCollection, hvalues] at htop
      exact htop ▸ List.mem_cons_self

/-- All values on the stack of a type are 0. -/
def Zeros (type : HidCol) (levels : CollectionStacks) : Prop :=
  ∀ value ∈ (levels type).values, value = 0

theorem Zeros.push {type : HidCol} (hzeros : Zeros type levels) (husage : item.usage = 0) :
    Zeros type (pushCollection levels item) := by
  intro value hmem
  rw [pushCollection_apply] at hmem
  unfold HidItem.mark at hmem
  cases hkind : item.kind with
  | collection =>
      rw [hkind] at hmem
      dsimp only [BoundedStack.enter] at hmem
      split at hmem
      · rcases BoundedStack.mem_push hmem with hvalue | hvalue
        · rw [hvalue, husage]
          decide
        · exact hzeros value hvalue
      · exact hzeros value hmem
  | input => exact hzeros value (by simpa [hkind, BoundedStack.enter] using hmem)
  | output => exact hzeros value (by simpa [hkind, BoundedStack.enter] using hmem)
  | feature => exact hzeros value (by simpa [hkind, BoundedStack.enter] using hmem)
  | endcollection => exact hzeros value (by simpa [hkind, BoundedStack.enter] using hmem)

theorem Zeros.pop {type : HidCol} (hzeros : Zeros type levels) (item : HidItem ρ) :
    Zeros type (popCollection levels item) := by
  intro value hmem
  rw [popCollection_apply] at hmem
  cases hmark : item.mark with
  | opens opened label => exact hzeros value (by simpa [hmark, BoundedStack.leave] using hmem)
  | closes closed =>
      rw [hmark] at hmem
      dsimp only [BoundedStack.leave] at hmem
      split at hmem
      · exact hzeros value (List.mem_of_mem_tail hmem)
      · exact hzeros value hmem
  | plain => exact hzeros value (by simpa [hmark, BoundedStack.leave] using hmem)

theorem Zeros.passes {type : HidCol} (hzeros : Zeros type levels) (item : HidItem ρ) :
    ¬ (requestFor type).matchesItem levels item = true :=
  fun hmatches => absurd (hzeros 1 (matchesItem_requestFor hmatches)) (by decide)

theorem locateItemFrom_of_zeros {type : HidCol} (hzeros : Zeros type levels)
    (husages : ∀ item ∈ items, item.usage = 0) :
    locateItemFrom (requestFor type) levels items = none := by
  induction items generalizing levels with
  | nil => rfl
  | cons item rest ih =>
      have hpushed := hzeros.push (husages item List.mem_cons_self)
      rw [locateItemFrom, if_neg (hpushed.passes item)]
      exact ih (hpushed.pop item) fun other hmem => husages other (List.mem_cons_of_mem _ hmem)

/-- The label of a collection is its usage. -/
theorem label_of_mark {type label : Int32} (hopens : item.mark = .opens type label) :
    label = item.usage.toInt32 := by
  unfold HidItem.mark at hopens
  cases hkind : item.kind with
  | collection =>
      rw [hkind] at hopens
      exact (Mark.opens.inj hopens).2.symm
  | input => simp [hkind] at hopens
  | output => simp [hkind] at hopens
  | feature => simp [hkind] at hopens
  | endcollection => simp [hkind] at hopens

/-- The eleventh collection of a type is lost, and the search for its usage with it. -/
theorem deeper_goes_wrong {type : HidCol} {before : List (HidItem ρ)}
    (hfollow : Follow levels groups)
    (hnested : groups.WellNested ((before ++ item :: rest).map HidItem.mark))
    (hfits : ∀ i < before.length, FitsAt groups (before ++ item :: rest) i)
    (hdeeper : maxCollectionNesting <
      ((openAt groups (before ++ item :: rest) before.length).ofType type.code).length)
    (hzeros : Zeros type levels) (husage : item.usage = 1)
    (hbefore : ∀ other ∈ before, other.usage = 0) (hrest : ∀ other ∈ rest, other.usage = 0) :
    locateItemFrom (requestFor type) levels (before ++ item :: rest) = none ∧
      (requestFor type).WantsAt groups (before ++ item :: rest) before.length := by
  induction before generalizing levels groups with
  | nil =>
      obtain ⟨hlost, label, hopens⟩ := BoundedStack.enter_of_deeper (hfollow type) hdeeper
      have hlabel : label = 1 := by
        rw [label_of_mark hopens, husage]
        decide
      have hpushed : Zeros type (pushCollection levels item) := by
        intro value hmem
        rw [pushCollection_apply, hlost] at hmem
        exact hzeros value hmem
      constructor
      · rw [List.nil_append, locateItemFrom, if_neg (hpushed.passes item)]
        exact locateItemFrom_of_zeros (hpushed.pop item) hrest
      · rw [List.nil_append, List.length_nil, wantsAt_zero, wants_requestFor, hopens, Open.enter,
          Open.ofType_cons_self, hlabel]
        rfl
  | cons other before ih =>
      have hentered := hfollow.push (hfits 0 (Nat.succ_pos _))
      have hpushed := hzeros.push (hbefore other List.mem_cons_self)
      rw [List.cons_append, locateItemFrom, if_neg (hpushed.passes other), List.length_cons,
        wantsAt_succ]
      exact ih (hentered.pop hnested) (Open.WellNested.step hnested)
        (fun i hi => hfits (i + 1) (Nat.succ_lt_succ hi)) hdeeper (hpushed.pop other)
        fun item hmem => hbefore item (List.mem_cons_of_mem _ hmem)

/-! ## The same shape -/

/-- A descriptor of the same shape has the same marks up to their labels. -/
theorem marks_of_sameShape {others : List (HidItem ρ)} (hshape : SameShape items others) :
    (items.map HidItem.mark).map (Mark.relabel fun _ => ()) =
      (others.map HidItem.mark).map (Mark.relabel fun _ => ()) := by
  induction hshape with
  | nil => rfl
  | cons hsame _ ih =>
      simp only [List.map_cons]
      rw [ih]
      simp only [HidItem.mark, hsame.1, hsame.2]
      congr 1
      split <;> rfl

theorem wellNestedItems_of_sameShape {others : List (HidItem ρ)} (hshape : SameShape items others)
    (hnested : WellNestedItems items) : WellNestedItems others := by
  have hmarks := (Open.wellNested_relabel (fun _ => ()) [] _).mpr hnested
  rw [marks_of_sameShape hshape] at hmarks
  exact (Open.wellNested_relabel (fun _ => ()) [] _).mp hmarks

theorem depth_of_sameShape {others : List (HidItem ρ)} (hshape : SameShape items others) (i : ℕ)
    (type : Int32) : ((openAt [] items i).ofType type).length =
      ((openAt [] others i).ofType type).length := by
  have hmarks := Open.atMark_relabel (fun _ => ()) [] (items.map HidItem.mark) i
  rw [marks_of_sameShape hshape, Open.atMark_relabel] at hmarks
  rw [← Open.length_ofType_relabel (fun _ => ()), openAt, ← hmarks,
    Open.length_ofType_relabel, openAt]

theorem fitsAt_of_sameShape {others : List (HidItem ρ)} (hshape : SameShape items others) {i : ℕ} :
    FitsAt [] items i ↔ FitsAt [] others i := by
  unfold FitsAt
  simp only [depth_of_sameShape hshape]

/-- The same item with another usage. -/
def HidItem.withUsage (usage : UInt32) (item : HidItem ρ) : HidItem ρ :=
  { item with usage := usage }

theorem sameShape_withUsage (usage : UInt32) (items : List (HidItem ρ)) :
    SameShape items (items.map (HidItem.withUsage usage)) := by
  rw [SameShape, List.forall₂_map_right_iff]
  exact List.forall₂_same.mpr fun _ _ => ⟨rfl, rfl⟩

theorem usage_of_mem_withUsage {usage : UInt32} {part : List (HidItem ρ)} :
    ∀ other ∈ part.map (HidItem.withUsage usage), other.usage = usage := by
  intro other hmem
  obtain ⟨item, -, rfl⟩ := List.mem_map.mp hmem
  rfl

/-- A descriptor has the shape of one in which a given item alone has a usage. -/
theorem exists_single_usage {i : ℕ} (hi : i < items.length) :
    ∃ before item rest, SameShape items (before ++ item :: rest) ∧ before.length = i ∧
      item.usage = 1 ∧ (∀ other ∈ before, other.usage = 0) ∧
        ∀ other ∈ rest, other.usage = 0 := by
  refine ⟨(items.take i).map (HidItem.withUsage 0), items[i].withUsage 1,
    (items.drop (i + 1)).map (HidItem.withUsage 0), ?_, ?_, rfl, usage_of_mem_withUsage,
    usage_of_mem_withUsage⟩
  · have hsplit : items = items.take i ++ items[i] :: items.drop (i + 1) := by
      rw [← List.drop_eq_getElem_cons hi, List.take_append_drop]
    rw [SameShape]
    conv_lhs => rw [hsplit]
    exact List.rel_append (sameShape_withUsage 0 _)
      (List.Forall₂.cons ⟨rfl, rfl⟩ (sameShape_withUsage 0 _))
  · rw [List.length_map, List.length_take]
    omega

/-- If somewhere an eleventh collection of a type is open, some request for some usages goes
wrong. -/
theorem fitsAt_of_honoured (hnested : WellNestedItems items)
    (hhonours : ∀ others, SameShape items others → ∀ request : ItemRequest,
      request.Honoured [] others (locateItem request (some others))) :
    ∀ i < items.length, FitsAt [] items i := by
  -- the first item at which this is so
  classical
  by_contra hdeep
  simp only [not_forall] at hdeep
  obtain ⟨i, ⟨hi, hdeeper⟩, hfirst⟩ : ∃ i, (∃ _ : i < items.length, ¬ FitsAt [] items i) ∧
      ∀ j < i, ¬ ∃ _ : j < items.length, ¬ FitsAt [] items j :=
    ⟨Nat.find hdeep, Nat.find_spec hdeep, fun j hj => Nat.find_min hdeep hj⟩
  obtain ⟨before, item, rest, hshape, hlength, husage, hbefore, hrest⟩ := exists_single_usage hi
  rw [fitsAt_of_sameShape hshape, FitsAt, not_forall] at hdeeper
  obtain ⟨type, hdeeper⟩ := hdeeper
  have hfits : ∀ j < before.length, FitsAt [] (before ++ item :: rest) j := by
    intro j hj
    by_contra hnot
    refine hfirst j (hlength ▸ hj) ⟨by omega, fun hfit => ?_⟩
    exact hnot ((fitsAt_of_sameShape hshape).mp hfit)
  obtain ⟨hnone, hwants⟩ := deeper_goes_wrong follow_empty
    (wellNestedItems_of_sameShape hshape hnested) hfits (hlength.symm ▸ Nat.not_le.mp hdeeper)
    (fun value hmem => by cases hmem) husage hbefore hrest
  have hhonoured := hhonours _ hshape (requestFor type)
  rw [locateItem, hnone] at hhonoured
  exact hhonoured _ hwants

end

/-- The items and types of collections of a well nested descriptor are such that every request is
honoured for all usages, exactly if nowhere more than ten collections of one type are open.  And
up to the item that is found nothing else matters. -/
theorem locateItem_honours_iff {ρ : Type*} {items : List (HidItem ρ)}
    (hnested : WellNestedItems items) :
    ((∀ others, SameShape items others → ∀ request : ItemRequest,
        request.Honoured [] others (locateItem request (some others))) ↔
      ∀ i < items.length, FitsAt [] items i) ∧
    ∀ request : ItemRequest,
      (∀ i < items.length, (∀ j < i, ¬ request.WantsAt [] items j) → FitsAt [] items i) →
        request.Honoured [] items (locateItem request (some items)) := by
  refine ⟨⟨fitsAt_of_honoured hnested, fun hfits others hshape request => ?_⟩,
    fun request => locateItem_honoured hnested⟩
  apply locateItem_honoured (wellNestedItems_of_sameShape hshape hnested)
  intro i hi _
  exact (fitsAt_of_sameShape hshape).mp (hfits i (hshape.length_eq ▸ hi))

/-- An application collection. -/
def applicationItem (usage : UInt32) : HidItem Unit :=
  ⟨.collection, usage, HidCol.application.code, ()⟩

/-- The end of an application collection. -/
def applicationEnd : HidItem Unit :=
  ⟨.endcollection, 0, HidCol.application.code, ()⟩

/-- An input item. -/
def inputItem (usage : UInt32) : HidItem Unit :=
  ⟨.input, usage, 0, ()⟩

/-- One application collection with one input item. -/
def oneCollection : List (HidItem Unit) :=
  [applicationItem 4, inputItem 5, applicationEnd]

/-- The input item of a flat descriptor is found. -/
theorem locateItem_honours_flat :
    locateItem ⟨5, 4, -1, -1, 1⟩ (some oneCollection) = some (inputItem 5) ∧
      ItemRequest.Honoured ⟨5, 4, -1, -1, 1⟩ [] oneCollection
        (locateItem ⟨5, 4, -1, -1, 1⟩ (some oneCollection)) := by
  refine ⟨by decide, (locateItem_honours_iff (by decide)).2 _ fun i hi hearlier type => ?_⟩
  clear hearlier
  revert i
  cases type <;> decide

end Apcupsd
