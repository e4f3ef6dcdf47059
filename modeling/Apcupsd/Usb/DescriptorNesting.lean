import Apcupsd.Usb.ParseDescriptor

/-!
# The nesting that the parser delivers

A collection is kept back until its report is known, and an item that ends one has the type of the
collection that was opened last.

Main results:

- Theorem {lit}`Parses.shapes_eq`: what is delivered, from what the descriptor holds.
- Theorem {lit}`parses_faithful_iff`: the collections are delivered as they are nested if and only
  if none ends while it is kept back, no array stands in one that is kept back, and a collection
  that ends has the type of the one opened last.
-/

namespace Apcupsd

open Nesting

/-! ## What a descriptor declares -/

/-- What an item is to the nesting. -/
inductive Role where
  | opens (type : Int32)
  | closes
  | field (isVariable : Bool)
  | counts (count : Int32)
  | other
deriving DecidableEq

/-- The role of an item. -/
def ShortItem.role (i : ShortItem) : Role :=
  match i.type, i.tag.val with
  | .main, 8 => .field (i.data.value &&& 2 ≠ 0)
  | .main, 9 => .field (i.data.value &&& 2 ≠ 0)
  | .main, 10 => .opens i.data.value.toInt32
  | .main, 11 => .field (i.data.value &&& 2 ≠ 0)
  | .main, 12 => .closes
  | .global, 9 => .counts i.data.value.toInt32
  | _, _ => .other

/-- A mark of a stream of items, without the usages. -/
abbrev Shape := Mark Int32 Unit

/-- The mark of an item that is delivered. -/
def HidItem.shape {ρ : Type*} (h : HidItem ρ) : Shape :=
  h.mark.relabel fun _ => ()

/-- The fields of a data item: as many as are counted if it is variable. -/
def fieldShapes (isVariable : Bool) (count : Int32) : List Shape :=
  if isVariable then List.replicate count.toInt.toNat .plain else [.plain]

/-- The nesting that a descriptor has, with the types of the open collections. -/
def declared : List Int32 → Int32 → List Role → List Shape
  | _, _, [] => []
  | groups, count, .opens type :: roles => .opens type () :: declared (type :: groups) count roles
  | [], count, .closes :: roles => declared [] count roles
  | type :: outer, count, .closes :: roles => .closes type :: declared outer count roles
  | groups, count, .field isVariable :: roles =>
      fieldShapes isVariable count ++ declared groups count roles
  | groups, _, .counts count :: roles => declared groups count roles
  | groups, count, .other :: roles => declared groups count roles

/-- Every collection that is opened is closed. -/
def Balanced : ℕ → List Role → Prop
  | depth, [] => depth = 0
  | depth, .opens _ :: roles => Balanced (depth + 1) roles
  | depth, .closes :: roles => 0 < depth ∧ Balanced (depth - 1) roles
  | depth, .field _ :: roles => Balanced depth roles
  | depth, .counts _ :: roles => Balanced depth roles
  | depth, .other :: roles => Balanced depth roles

/-- Variable items have fields. -/
def FieldsCounted : Int32 → List Role → Prop
  | _, [] => True
  | count, .opens _ :: roles => FieldsCounted count roles
  | count, .closes :: roles => FieldsCounted count roles
  | count, .field isVariable :: roles => (isVariable = true → 0 < count) ∧ FieldsCounted count roles
  | _, .counts count :: roles => FieldsCounted count roles
  | count, .other :: roles => FieldsCounted count roles

/-- No collection ends, and no array stands, where the collection is still kept back; a collection
that ends has the type of the one opened last. -/
def Regular : Bool → Int32 → List Int32 → List Role → Prop
  | kept, _, _, [] => kept = false
  | _, _, groups, .opens type :: roles => Regular true type (type :: groups) roles
  | kept, last, groups, .closes :: roles =>
      kept = false ∧ groups.head? = some last ∧ Regular false last groups.tail roles
  | kept, last, groups, .field isVariable :: roles =>
      (isVariable = false → kept = false) ∧ Regular false last groups roles
  | kept, last, groups, .counts _ :: roles => Regular kept last groups roles
  | kept, last, groups, .other :: roles => Regular kept last groups roles

/-! ## What is delivered -/

/-- The collection that is kept back. -/
def keptShapes (kept : Option Int32) : List Shape :=
  (kept.map fun type => Mark.opens type ()).toList

/-- The stream that the parser makes of a descriptor, with the collection that it keeps back, the
type that was opened last and the count. -/
def streamed : Option Int32 → Int32 → Int32 → List Role → List Shape
  | _, _, _, [] => []
  | kept, _, count, .opens type :: roles =>
      keptShapes kept ++ streamed (some type) type count roles
  | some type, last, count, .closes :: roles => .opens type () :: streamed none last count roles
  | none, last, count, .closes :: roles => .closes last :: streamed none last count roles
  | kept, last, count, .field true :: roles =>
      keptShapes kept ++ fieldShapes true count ++ streamed none last count roles
  | kept, last, count, .field false :: roles => .plain :: streamed kept last count roles
  | kept, last, _, .counts count :: roles => streamed kept last count roles
  | kept, last, count, .other :: roles => streamed kept last count roles

@[simp] theorem keptShapes_none : keptShapes none = [] :=
  rfl

@[simp] theorem keptShapes_some (type : Int32) : keptShapes (some type) = [.opens type ()] :=
  rfl

@[simp] theorem fieldShapes_false (count : Int32) : fieldShapes false count = [.plain] :=
  rfl

/-- Nothing is delivered that is not declared. -/
theorem length_streamed_le (kept : Option Int32) (last count : Int32) (groups : List Int32)
    (roles : List Role) (hbalanced : Balanced groups.length roles) :
    (streamed kept last count roles).length ≤
      (keptShapes kept).length + (declared groups count roles).length := by
  induction roles generalizing kept last count groups with
  | nil => exact Nat.zero_le _
  | cons role roles ih =>
      cases role with
      | opens type =>
          have hrest := ih (some type) type count (type :: groups) hbalanced
          simp only [streamed, declared, keptShapes_some, List.length_append, List.length_cons,
            List.length_nil] at hrest ⊢
          omega
      | closes =>
          cases groups with
          | nil => exact absurd hbalanced.1 (Nat.lt_irrefl 0)
          | cons type outer =>
              have hrest := ih none last count outer hbalanced.2
              cases kept <;> simp [streamed, declared] at hrest ⊢ <;> omega
      | field isVariable =>
          cases isVariable with
          | true =>
              have hrest := ih none last count groups hbalanced
              simp only [streamed, declared, keptShapes_none, List.length_append,
                List.length_nil] at hrest ⊢
              omega
          | false =>
              have hrest := ih kept last count groups hbalanced
              simp only [streamed, declared, fieldShapes_false, List.length_append,
                List.length_cons, List.length_nil] at hrest ⊢
              omega
      | counts count => exact ih kept last count groups hbalanced
      | other => exact ih kept last count groups hbalanced

/-- The stream is the one that is declared just if the descriptor is regular. -/
theorem streamed_eq_declared_iff (kept : Option Int32) (last count : Int32) (groups : List Int32)
    (roles : List Role) (hbalanced : Balanced groups.length roles) :
    streamed kept last count roles = keptShapes kept ++ declared groups count roles ↔
      Regular kept.isSome last groups roles := by
  induction roles generalizing kept last count groups with
  | nil => cases kept <;> simp [streamed, declared, Regular]
  | cons role roles ih =>
      cases role with
      | opens type =>
          have hrest := ih (some type) type count (type :: groups) hbalanced
          rw [streamed, declared, Regular, List.append_cancel_left_eq]
          exact hrest
      | closes =>
          cases groups with
          | nil => exact absurd hbalanced.1 (Nat.lt_irrefl 0)
          | cons type outer =>
              cases kept with
              | some lost =>
                  -- the end is lost, and the stream is too short
                  have hlength := length_streamed_le none last count outer roles hbalanced.2
                  constructor
                  · intro heq
                    have hlengths := congrArg List.length heq
                    simp [streamed, declared] at hlengths hlength
                    omega
                  · rintro ⟨hnone, -⟩
                    cases hnone
              | none =>
                  have hrest := ih none last count outer hbalanced.2
                  simp only [streamed, declared, Regular, keptShapes_none, List.nil_append,
                    List.cons.injEq, Mark.closes.injEq, Option.isSome_none, List.head?_cons,
                    Option.some.injEq, List.tail_cons, true_and] at hrest ⊢
                  rw [hrest, eq_comm]
      | field isVariable =>
          cases isVariable with
          | true =>
              have hrest := ih none last count groups hbalanced
              rw [streamed, declared, Regular, List.append_assoc, List.append_cancel_left_eq,
                List.append_cancel_left_eq]
              simpa using hrest
          | false =>
              cases kept with
              | some type => simp [streamed, Regular]
              | none =>
                  have hrest := ih none last count groups hbalanced
                  simpa [streamed, declared, Regular] using hrest
      | counts count => exact ih kept last count groups hbalanced
      | other => exact ih kept last count groups hbalanced

/-- What a balanced descriptor declares is well nested. -/
theorem wellNested_declared (groups : List Int32) (count : Int32) (roles : List Role)
    (hbalanced : Balanced groups.length roles) :
    Open.WellNested (groups.map fun type => (type, ())) (declared groups count roles) := by
  induction roles generalizing groups count with
  | nil =>
      have hnil : groups = [] := List.length_eq_zero_iff.mp hbalanced
      rw [hnil]
      rfl
  | cons role roles ih =>
      cases role with
      | opens type => exact ih (type :: groups) count hbalanced
      | closes =>
          cases groups with
          | nil => exact absurd hbalanced.1 (Nat.lt_irrefl 0)
          | cons type outer => exact ⟨rfl, ih outer count hbalanced.2⟩
      | field isVariable =>
          have hrest := ih groups count hbalanced
          have hplain (n : ℕ) (marks : List Shape)
              (hmarks : Open.WellNested (groups.map fun type => (type, ())) marks) :
              Open.WellNested (groups.map fun type => (type, ()))
                (List.replicate n .plain ++ marks) := by
            induction n with
            | zero => exact hmarks
            | succ n ihn => exact ihn
          rw [declared]
          cases isVariable with
          | true => exact hplain _ _ hrest
          | false => exact hplain 1 _ hrest
      | counts count => exact ih groups count hbalanced
      | other => exact ih groups count hbalanced

/-! ## The parser makes this stream -/

/-- The roles of the items of a descriptor. -/
def ShortItem.roles (items : List ShortItem) : List Role :=
  items.map ShortItem.role

/-- The calls deliver these items, and then the descriptor is at its end. -/
inductive Parses (front : ParseState → UInt32) (kindset : Int32) :
    ParseState → List ReportItem → Prop where
  | done {s after : ParseState} (hcall : hidGetItemRaw front kindset s = .done after) :
      Parses front kindset s []
  | item {s after : ParseState} {h : ReportItem} {l : List ReportItem}
      (hcall : hidGetItemRaw front kindset s = .item h after)
      (hrest : Parses front kindset after l) : Parses front kindset s (h :: l)

/-- All items, if there are fewer than a number of them and the descriptor is read to its end. -/
def parseAll (front : ParseState → UInt32) (kindset : Int32) :
    ℕ → ParseState → Option (List ReportItem)
  | 0, _ => none
  | n + 1, s => match hidGetItemRaw front kindset s with
      | .item h after => (parseAll front kindset n after).map (h :: ·)
      | .done _ => some []
      | _ => none

theorem parses_of_parseAll {front : ParseState → UInt32} {kindset : Int32} {n : ℕ}
    {s : ParseState} {l : List ReportItem} (hall : parseAll front kindset n s = some l) :
    Parses front kindset s l := by
  induction n generalizing s l with
  | zero => cases hall
  | succ n ih =>
      unfold parseAll at hall
      split at hall
      · next h after hcall =>
          obtain ⟨rest, hrest, rfl⟩ := Option.map_eq_some_iff.mp hall
          exact .item hcall (ih hrest)
      · next after hcall =>
          obtain rfl := Option.some.inj hall
          exact .done hcall
      · cases hall

/-- What is still to be delivered, from a state in which nothing is left of a variable item. -/
def streamInside (items : List ShortItem) (s : ParseState) : List Shape :=
  streamed (s.savedcoll.map HidItem.collection) s.cur.collection s.cur.other.reportCount
    (ShortItem.roles items)

/-- What is still to be delivered, with some fields of a variable item left. -/
def streamFields (items : List ShortItem) (s : ParseState) : List Shape :=
  keptShapes (s.savedcoll.map HidItem.collection) ++
    (List.replicate (s.multimax.toInt - s.multi.toInt).toNat .plain ++
      streamed none s.cur.collection s.multimax (ShortItem.roles items))

/-- What the states have in common. -/
structure Tracked (items : List ShortItem) (s : ParseState) : Prop where
  saves : ∀ c, s.savedcoll = some c → c.kind = .collection
  unpopped : ∀ i ∈ items, ¬ i.IsPop

/-- In the loop of a call. -/
structure StreamsInside (target : List Shape) (items : List ShortItem) (s : ParseState) :
    Prop where
  tracked : Tracked items s
  idle : s.multimax = 0
  counted : FieldsCounted s.cur.other.reportCount (ShortItem.roles items)
  streams : streamInside items s = target

/-- Within a variable item. -/
structure StreamsFields (target : List Shape) (items : List ShortItem) (s : ParseState) :
    Prop where
  tracked : Tracked items s
  fields : s.multimax ≠ 0
  kind : s.cur.kind = .input ∨ s.cur.kind = .output ∨ s.cur.kind = .feature
  le : s.multi ≤ s.multimax
  counted : FieldsCounted s.multimax (ShortItem.roles items)
  streams : streamFields items s = target

/-- Between calls. -/
def Streams (target : List Shape) (items : List ShortItem) (s : ParseState) : Prop :=
  StreamsInside target items s ∨ StreamsFields target items s

/-- The item that is delivered is the next one of the stream. -/
def StreamsItem (target : List Shape) (items : List ShortItem) (h : ReportItem) (s : ParseState) :
    Prop :=
  ∃ rest, target = h.shape :: rest ∧ Streams rest items s

section

variable {front : ParseState → UInt32} {target : List Shape} {items : List ShortItem}
  {i : ShortItem} {s after : ParseState}

theorem shape_of_data {h : ReportItem}
    (hkind : h.kind = .input ∨ h.kind = .output ∨ h.kind = .feature) : h.shape = .plain := by
  rcases hkind with hkind | hkind | hkind <;>
    simp [HidItem.shape, HidItem.mark, hkind, Mark.relabel]

theorem shape_of_collection {h : ReportItem} (hkind : h.kind = .collection) :
    h.shape = .opens h.collection () := by
  simp [HidItem.shape, HidItem.mark, hkind, Mark.relabel]

theorem shape_of_endcollection {h : ReportItem} (hkind : h.kind = .endcollection) :
    h.shape = .closes h.collection := by
  simp [HidItem.shape, HidItem.mark, hkind, Mark.relabel]

/-- One more, below a number. -/
theorem toInt_add_one_of_lt {a b : Int32} (hlt : a < b) : (a + 1).toInt = a.toInt + 1 := by
  rw [Int32.lt_iff_toInt_lt] at hlt
  have hb := b.toInt_lt
  have ha := a.le_toInt
  rw [Int32.toInt_add, show (1 : Int32).toInt = 1 from rfl]
  apply Int.bmod_eq_of_le <;> omega

/-- The next field of a variable item, or what follows it. -/
theorem top_streamsFields (hstreams : StreamsFields target items s) :
    (top front s).Meets (StreamsInside target items) (StreamsItem target items) := by
  obtain ⟨htracked, hfields, hkind, hle, hcounted, rfl⟩ := hstreams
  unfold top
  rw [if_neg hfields]
  cases hsaved : s.savedcoll with
  | some c =>
      have hshape : (withReport s.cur.other.reportId c).shape = .opens c.collection () :=
        shape_of_collection (htracked.saves c hsaved)
      refine ⟨streamFields items { s with savedcoll := none }, ?_, Or.inr
        ⟨⟨fun _ h => (by cases h), htracked.unpopped⟩, hfields, hkind, hle, hcounted, rfl⟩⟩
      rw [hshape]
      simp [streamFields, hsaved]
  | none =>
      obtain ⟨m, hm⟩ := signMinimum_eq s
      dsimp only
      rw [hm]
      split
      · next hlt =>
          have hnext := toInt_add_one_of_lt (show s.multi < s.multimax from hlt)
          have hlt' := Int32.lt_iff_toInt_lt.mp (show s.multi < s.multimax from hlt)
          have hcount : (s.multimax.toInt - s.multi.toInt).toNat =
              (s.multimax.toInt - (s.multi + 1).toInt).toNat + 1 := by omega
          refine ⟨_, ?_, Or.inr ⟨⟨fun c hc => htracked.saves c hc, htracked.unpopped⟩, hfields,
            hkind, ?_, hcounted, rfl⟩⟩
          · have hshape : (placed (takeField front
                (s.edit fun d => { d with logicalMinimum := m }))).shape = .plain :=
              shape_of_data hkind
            rw [hshape, streamFields, hsaved, Option.map_none, keptShapes_none, List.nil_append,
              hcount, List.replicate_succ]
            simp [streamFields, advance, takeField, hsaved, ParseState.edit]
          · rw [Int32.le_iff_toInt_le]
            show (s.multi + 1).toInt ≤ s.multimax.toInt
            omega
      · next hge =>
          have hge' : ¬ s.multi.toInt < s.multimax.toInt :=
            fun hlt => hge (Int32.lt_iff_toInt_lt.mpr hlt)
          have hzero : (s.multimax.toInt - s.multi.toInt).toNat = 0 := by omega
          refine ⟨⟨fun c hc => htracked.saves c hc, htracked.unpopped⟩, rfl, hcounted, ?_⟩
          rw [streamFields, hzero, hsaved]
          simp [streamInside, endFields, hidClearLocal, ParseState.edit, hsaved]

theorem top_streams (hstreams : Streams target items s) :
    (top front s).Meets (StreamsInside target items) (StreamsItem target items) := by
  rcases hstreams with hinside | hfields
  · unfold top
    rw [if_pos hinside.idle]
    exact hinside
  · exact top_streamsFields hfields

/-- An item that only changes other fields. -/
theorem StreamsInside.congr (hinside : StreamsInside target (i :: items) s)
    (hrole : i.role = .other) (hsaved : after.savedcoll = s.savedcoll)
    (hmax : after.multimax = s.multimax) (hcoll : after.cur.collection = s.cur.collection)
    (hcount : after.cur.other.reportCount = s.cur.other.reportCount) :
    StreamsInside target items after := by
  obtain ⟨htracked, hidle, hcounted, rfl⟩ := hinside
  rw [ShortItem.roles, List.map_cons, hrole] at hcounted
  refine ⟨⟨fun c hc => htracked.saves c (hsaved ▸ hc),
    fun j hj => htracked.unpopped j (List.mem_cons_of_mem _ hj)⟩, hmax.trans hidle,
    hcount ▸ hcounted, ?_⟩
  rw [streamInside, streamInside, hsaved, hcoll, hcount, ShortItem.roles, ShortItem.roles,
    List.map_cons, hrole]
  cases s.savedcoll <;> rfl

/-- The state behind a role. -/
theorem StreamsInside.of_role {role : Role} (hinside : StreamsInside target (i :: items) s)
    (hrole : i.role = role) : Tracked items s ∧ s.multimax = 0 ∧
      FieldsCounted s.cur.other.reportCount (role :: ShortItem.roles items) ∧
      streamed (s.savedcoll.map HidItem.collection) s.cur.collection s.cur.other.reportCount
        (role :: ShortItem.roles items) = target := by
  obtain ⟨htracked, hidle, hcounted, hstreams⟩ := hinside
  subst hrole
  exact ⟨⟨htracked.saves, fun j hj => htracked.unpopped j (List.mem_cons_of_mem _ hj)⟩, hidle,
    hcounted, hstreams⟩

theorem dataItem_streams {retkind : HidKind}
    (hkind : retkind = .input ∨ retkind = .output ∨ retkind = .feature)
    (hrole : i.role = .field (i.data.value &&& 2 ≠ 0))
    (hinside : StreamsInside target (i :: items) s) :
    (dataItem front hidKindAll retkind i.data.value s).Meets (StreamsInside target items)
      (StreamsItem target items) := by
  obtain ⟨htracked, hidle, hcounted, hstreams⟩ := hinside.of_role hrole
  have hall : ¬ hidKindAll &&& (1 <<< retkind.code) = 0 := by
    rcases hkind with rfl | rfl | rfl <;> decide
  unfold dataItem
  rw [if_neg hall]
  by_cases hvariable : i.data.value &&& 2 ≠ 0
  · -- its fields are counted
    rw [if_pos hvariable]
    rw [decide_eq_true hvariable] at hcounted hstreams
    have hpositive : 0 < s.cur.other.reportCount := hcounted.1 rfl
    have hnonneg := Int32.lt_iff_toInt_lt.mp hpositive
    rw [Int32.toInt_zero] at hnonneg
    cases hlist : listUsages (startFields (markItem retkind i.data.value s)) with
    | returns r => exact listUsages_meets hlist
    | next next =>
        have halike := listUsages_alike hlist
        have hmax : next.multimax = s.cur.other.reportCount := halike.multimax
        have hmulti : next.multi = 0 := halike.multi
        have hsaved : next.savedcoll = s.savedcoll := halike.savedcoll
        have hcoll : next.cur.collection = s.cur.collection := halike.collection
        apply top_streamsFields
        refine ⟨⟨fun c hc => htracked.saves c (hsaved ▸ hc), htracked.unpopped⟩, ?_,
          halike.kind ▸ hkind, ?_, hmax ▸ hcounted.2, ?_⟩
        · rw [hmax]
          intro hzero
          rw [hzero] at hpositive
          exact absurd hpositive (by decide)
        · rw [hmax, hmulti, Int32.le_iff_toInt_le, Int32.toInt_zero]
          omega
        · rw [streamFields, hsaved, hmax, hmulti, hcoll, Int32.toInt_zero, Int.sub_zero, ← hstreams,
            streamed, List.append_assoc]
          rfl
  · -- it is delivered at once
    rw [if_neg hvariable]
    rw [decide_eq_false hvariable] at hcounted hstreams
    have halike := takeMinimum_alike (markItem retkind i.data.value s)
    have hsaved : (takeMinimum (markItem retkind i.data.value s)).savedcoll = s.savedcoll :=
      halike.savedcoll
    have hcoll : (takeMinimum (markItem retkind i.data.value s)).cur.collection =
        s.cur.collection := halike.collection
    have hcount : (takeMinimum (markItem retkind i.data.value s)).cur.other.reportCount =
        s.cur.other.reportCount := halike.reportCount
    have hplaced : (placed (takeMinimum (markItem retkind i.data.value s))).kind = retkind :=
      halike.kind
    have hshape : (placed (takeMinimum (markItem retkind i.data.value s))).shape = .plain :=
      shape_of_data (hplaced.symm ▸ hkind)
    refine ⟨_, ?_, Or.inl ⟨⟨fun c hc => htracked.saves c (hsaved ▸ hc), htracked.unpopped⟩,
      halike.multimax.trans hidle, ?_, rfl⟩⟩
    · rw [hshape, ← hstreams, ← hsaved, ← hcoll, ← hcount, streamed]
      rfl
    · exact hcount ▸ hcounted.2

theorem collectionItem_streams (hrole : i.role = .opens i.data.value.toInt32)
    (hinside : StreamsInside target (i :: items) s) :
    (collectionItem i.data.value s).Meets (StreamsInside target items)
      (StreamsItem target items) := by
  obtain ⟨htracked, hidle, hcounted, hstreams⟩ := hinside.of_role hrole
  have hafter : Tracked items (saveCollection (openCollection i.data.value s) s) := by
    refine ⟨fun c hc => ?_, htracked.unpopped⟩
    cases hc
    rfl
  unfold collectionItem
  cases hsaved : s.savedcoll with
  | some c =>
      have hshape : (withReport s.cur.other.reportId c).shape = .opens c.collection () :=
        shape_of_collection (htracked.saves c hsaved)
      refine ⟨_, ?_, Or.inl ⟨hafter, hidle, hcounted, rfl⟩⟩
      rw [hshape, ← hstreams, hsaved]
      rfl
  | none =>
      refine ⟨hafter, hidle, hcounted, ?_⟩
      rw [← hstreams, hsaved]
      rfl

theorem endCollectionItem_streams (hrole : i.role = .closes)
    (hinside : StreamsInside target (i :: items) s) :
    (endCollectionItem s).Meets (StreamsInside target items) (StreamsItem target items) := by
  obtain ⟨htracked, hidle, hcounted, hstreams⟩ := hinside.of_role hrole
  unfold endCollectionItem
  cases hsaved : s.savedcoll with
  | some c =>
      have hshape : (withReport s.cur.other.reportId c).shape = .opens c.collection () :=
        shape_of_collection (htracked.saves c hsaved)
      refine ⟨_, ?_, Or.inl ⟨⟨fun _ h => (by cases h), htracked.unpopped⟩, hidle, hcounted, rfl⟩⟩
      rw [hshape, ← hstreams, hsaved]
      rfl
  | none =>
      have hshape : (closeCollection s).shape = .closes s.cur.collection :=
        shape_of_endcollection rfl
      refine ⟨_, ?_, Or.inl ⟨⟨fun _ h => (by cases h), htracked.unpopped⟩, hidle, hcounted, rfl⟩⟩
      rw [hshape, ← hstreams, hsaved]
      rfl

theorem globalItem_streams (hi : i.type = .global) (hinside : StreamsInside target (i :: items) s) :
    (globalItem (UInt8.ofNat i.tag.val) i.data.size i.data.value s).Meets
      (StreamsInside target items) (StreamsItem target items) := by
  have hother (n : ℕ) (htag : i.tag.val = n) (hne : n ≠ 9) : i.role = .other := by
    unfold ShortItem.role
    rw [hi]
    split <;> simp_all
  unfold globalItem
  rw [i.toNat_tag]
  split
  case h_10 hcounts =>
    have hrole : i.role = .counts i.data.value.toInt32 := by
      simp [ShortItem.role, hi, hcounts]
    obtain ⟨htracked, hidle, hcounted, hstreams⟩ := hinside.of_role hrole
    refine ⟨⟨fun c hc => htracked.saves c hc, htracked.unpopped⟩, hidle, hcounted, ?_⟩
    rw [← hstreams, streamInside]
    cases hsaved : s.savedcoll <;> simp [streamed, hsaved]
  case h_12 hpop =>
    exact absurd ⟨hi, Fin.ext hpop⟩ (hinside.tracked.unpopped i List.mem_cons_self)
  case h_13 => trivial
  all_goals
    next htag => apply hinside.congr (hother _ htag (by decide)) <;> simp

theorem process_streams (hinside : StreamsInside target (i :: items) s) :
    (i.process front hidKindAll s).Meets (StreamsInside target items)
      (StreamsItem target items) := by
  unfold ShortItem.process parseItem
  cases htype : i.type with
  | main =>
      show (mainItem _ _ _ _ _).Meets _ _
      unfold mainItem
      rw [i.toNat_tag]
      split
      · next htag =>
          exact dataItem_streams (by simp) (by simp [ShortItem.role, htype, htag]) hinside
      · next htag =>
          exact dataItem_streams (by simp) (by simp [ShortItem.role, htype, htag]) hinside
      · next htag =>
          exact collectionItem_streams (by simp [ShortItem.role, htype, htag]) hinside
      · next htag =>
          exact dataItem_streams (by simp) (by simp [ShortItem.role, htype, htag]) hinside
      · next htag =>
          exact endCollectionItem_streams (by simp [ShortItem.role, htype, htag]) hinside
      · trivial
  | global => exact globalItem_streams htype hinside
  | locals =>
      show (localItem _ _ _).Meets _ _
      have hrole : i.role = .other := by simp [ShortItem.role, htype]
      exact localItem_meets fun after halike =>
        hinside.congr hrole halike.savedcoll halike.multimax halike.collection
          halike.reportCount

variable (front) in
/-- One call. -/
theorem hidGetItemRaw_streams (hstreams : Streams target items s)
    (hrest : s.rest = ShortItem.encodeAll items) :
    (hidGetItemRaw front hidKindAll s).Meets items (StreamsInside target) (StreamsItem target) := by
  apply hidGetItemRaw_rule _ _ hstreams hrest
  · exact fun items s hs => top_streams hs
  · intro i items s hs
    exact process_streams ⟨⟨fun c hc => hs.tracked.saves c hc, hs.tracked.unpopped⟩, hs.idle,
      hs.counted, hs.streams⟩

/-- The calls deliver the stream. -/
theorem Parses.shapes_eq {l : List ReportItem} (hparses : Parses front hidKindAll s l)
    (hstreams : Streams target items s) (hrest : s.rest = ShortItem.encodeAll items) :
    l.map HidItem.shape = target := by
  induction hparses generalizing target items with
  | done hcall =>
      have hmeets := hidGetItemRaw_streams front hstreams hrest
      rw [hcall] at hmeets
      exact hmeets.streams
  | item hcall _ ih =>
      have hmeets := hidGetItemRaw_streams front hstreams hrest
      rw [hcall] at hmeets
      obtain ⟨left, -, hleft, rest, rfl, hnext⟩ := hmeets
      rw [List.map_cons, ih hnext hleft]

end

/-- For a descriptor with balanced collections, no variable item without fields and nothing
popped, the items that are delivered have the nesting of the descriptor if and only if it is
regular; {lit}`LocateItem` is then given a well nested stream. -/
theorem parses_faithful_iff (front : ParseState → UInt32) (items : List ShortItem)
    (hbalanced : Balanced 0 (ShortItem.roles items))
    (hcounted : FieldsCounted 0 (ShortItem.roles items)) (hpop : ∀ i ∈ items, ¬ i.IsPop)
    (l : List ReportItem)
    (hparses : Parses front hidKindAll (hidStartParse (ShortItem.encodeAll items)) l) :
    (l.map HidItem.shape = declared [] 0 (ShortItem.roles items) ↔
      Regular false 0 [] (ShortItem.roles items)) ∧
      (Regular false 0 [] (ShortItem.roles items) → WellNestedItems l) := by
  have hstart : Streams (streamed none 0 0 (ShortItem.roles items)) items
      (hidStartParse (ShortItem.encodeAll items)) :=
    Or.inl ⟨⟨fun _ h => (by cases h), hpop⟩, rfl, hcounted, rfl⟩
  have hiff := streamed_eq_declared_iff none 0 0 [] (ShortItem.roles items) hbalanced
  rw [hparses.shapes_eq hstart rfl]
  refine ⟨hiff, fun hregular => ?_⟩
  have hnested := wellNested_declared [] 0 (ShortItem.roles items) hbalanced
  have hshapes : (l.map HidItem.mark).map (Mark.relabel fun _ => ()) =
      declared [] 0 (ShortItem.roles items) := by
    rw [List.map_map]
    exact (hparses.shapes_eq hstart rfl).trans (hiff.mpr hregular)
  apply (Open.wellNested_relabel (fun _ => ()) [] (l.map HidItem.mark)).mp
  rw [hshapes]
  exact hnested

/-- One collection with one variable item. -/
theorem parses_faithful_iff_oneField :
    ∃ l, Parses (fun _ => 0) hidKindAll (hidStartParse (ShortItem.encodeAll
      [⟨.main, 10, .one 1⟩, ⟨.global, 9, .one 1⟩, ⟨.main, 11, .one 2⟩, ⟨.main, 12, .none⟩])) l ∧
      l.map HidItem.shape = [.opens 1 (), .plain, .closes 1] :=
  have hparses : Parses (fun _ => 0) hidKindAll (hidStartParse (ShortItem.encodeAll
      [⟨.main, 10, .one 1⟩, ⟨.global, 9, .one 1⟩, ⟨.main, 11, .one 2⟩, ⟨.main, 12, .none⟩])) _ :=
    .item rfl (.item rfl (.item rfl (.done rfl)))
  ⟨_, hparses, (parses_faithful_iff (fun _ => 0) [⟨.main, 10, .one 1⟩, ⟨.global, 9, .one 1⟩,
    ⟨.main, 11, .one 2⟩, ⟨.main, 12, .none⟩] ⟨by decide, rfl⟩ ⟨fun _ => by decide, trivial⟩
    (by decide) _ hparses).1.mpr ⟨fun h => (by cases h), rfl, rfl, rfl⟩⟩

/-! ## A deep descriptor -/

/-- The bytes of ten application collections with the usages 1 to 10.  In the tenth stand an
eleventh one, with an input item, and another input item. -/
def elevenDeep : List UInt8 :=
  (List.range 10).flatMap (fun i => [0x09, UInt8.ofNat (i + 1), 0xa1, 0x01]) ++
    [0x09, 11, 0xa1, 0x01] ++ [0x75, 8, 0x95, 1] ++
    [0x09, 6, 0x81, 0x02] ++ [0xc0] ++ [0x09, 5, 0x81, 0x02] ++ List.replicate 10 0xc0

/-- The items that are delivered for it. -/
def elevenDeepItems : List ReportItem :=
  delivered (fun _ => 0) hidKindAll 24 (hidStartParse elevenDeep)

/-- The end of the eleventh collection pops the tenth, and the second item in the tenth is
missed. -/
theorem tenth_collection_missed :
    Parses (fun _ => 0) hidKindAll (hidStartParse elevenDeep) elevenDeepItems ∧
      WellNestedItems elevenDeepItems ∧
      ¬ ItemRequest.Honoured ⟨5, 10, -1, -1, 1⟩ [] elevenDeepItems
        (locateItem ⟨5, 10, -1, -1, 1⟩ (some elevenDeepItems)) := by
  refine ⟨@parses_of_parseAll _ _ 25 _ _ (by decide +kernel), by decide +kernel, ?_⟩
  intro hhonoured
  have hmissed : locateItem ⟨5, 10, -1, -1, 1⟩ (some elevenDeepItems) = none := by
    decide +kernel
  rw [hmissed] at hhonoured
  refine hhonoured 13 ⟨elevenDeepItems.get ⟨13, by decide +kernel⟩, by decide +kernel,
    Or.inr (by decide +kernel), Or.inr (by decide +kernel), ?_⟩
  intro type
  cases type with
  | physical => exact Or.inl rfl
  | application => exact Or.inr (by decide +kernel)
  | logical => exact Or.inl rfl

end Apcupsd
