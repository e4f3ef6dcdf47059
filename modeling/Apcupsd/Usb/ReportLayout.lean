import Apcupsd.Usb.ParseDescriptor
import Mathlib.Algebra.GroupWithZero.Nat
import Mathlib.Data.List.Induction

/-!
# The layout of a report

The data items of a descriptor are laid out by their kinds, from the start of the report at
each Report ID item.

Main results:

- Theorem {lit}`delivered_allLaid`: a data item lies behind all earlier ones of its kind and
  report, without a gap, if no report is given twice and nothing is popped.
- Theorem {lit}`delivered_layout`: writing one of the items leaves the others.
-/

namespace Apcupsd

/-! ## Positions -/

/-- Input, output or feature. -/
def HidKind.isData : HidKind → Bool
  | .input => true
  | .output => true
  | .feature => true
  | .collection => false
  | .endcollection => false

/-- The bits that an item takes up in its report. -/
def ReportItem.span (h : ReportItem) : ℕ :=
  if h.kind.isData then (h.other.reportSize * h.other.reportCount).toUInt32.toNat else 0

/-- The item is one of a kind and a report. -/
def ReportItem.belongs (k : HidKind) (id : Int32) (h : ReportItem) : Bool :=
  h.kind = k && h.other.reportId = id

/-- The bits that the items of a kind take up in a report. -/
def usedBits (k : HidKind) (id : Int32) (items : List ReportItem) : ℕ :=
  ((items.filter (ReportItem.belongs k id)).map ReportItem.span).sum

/-- All bits. -/
def totalBits (items : List ReportItem) : ℕ :=
  (items.map ReportItem.span).sum

namespace ShortItem

/-- A Report ID item. -/
def reportId? (i : ShortItem) : Option Int32 :=
  if i.type = .global ∧ i.tag.val = 8 then some i.data.value.toInt32 else none

/-- The reports that are given, in their order. -/
def reportIds (items : List ShortItem) : List Int32 :=
  items.filterMap reportId?

end ShortItem

section

variable {k : HidKind} {id : Int32} {done : List ReportItem} {items : List ShortItem}
  {i : ShortItem} {h : ReportItem}

@[simp] theorem usedBits_nil : usedBits k id [] = 0 :=
  rfl

theorem usedBits_append (k : HidKind) (id : Int32) (done more : List ReportItem) :
    usedBits k id (done ++ more) = usedBits k id done + usedBits k id more := by
  simp [usedBits]

theorem usedBits_append_singleton (k : HidKind) (id : Int32) (done : List ReportItem)
    (h : ReportItem) : usedBits k id (done ++ [h]) =
      usedBits k id done + if h.belongs k id then h.span else 0 := by
  unfold usedBits
  cases hbelongs : h.belongs k id with
  | true => simp [List.filter_append, hbelongs]
  | false => simp [List.filter_append, hbelongs]

theorem totalBits_append_singleton (done : List ReportItem) (h : ReportItem) :
    totalBits (done ++ [h]) = totalBits done + h.span := by
  simp [totalBits]

theorem usedBits_le_totalBits (k : HidKind) (id : Int32) (done : List ReportItem) :
    usedBits k id done ≤ totalBits done := by
  induction done using List.reverseRecOn with
  | nil => exact le_rfl
  | append_singleton done h ih =>
      rw [usedBits_append_singleton, totalBits_append_singleton]
      split <;> omega

/-- No bits are used where there is no item of the report. -/
theorem usedBits_eq_zero (hnone : ∀ h ∈ done, h.kind.isData = true → h.other.reportId ≠ id) :
    usedBits k id done = 0 := by
  induction done using List.reverseRecOn with
  | nil => rfl
  | append_singleton done h ih =>
      rw [usedBits_append_singleton,
        ih fun other hother => hnone other (List.mem_append_left _ hother)]
      split
      · next hbelongs =>
          by_cases hdata : h.kind.isData = true
          · have hid : h.other.reportId = id := by
              simp only [ReportItem.belongs, Bool.and_eq_true, decide_eq_true_eq] at hbelongs
              exact hbelongs.2
            exact absurd hid (hnone h (List.mem_append_right _ (List.mem_singleton_self h)) hdata)
          · rw [ReportItem.span, if_neg hdata]
      · rfl

end

/-! ## The invariant -/

/-- The positions that the kinds have reached behind the items that have been delivered. -/
structure Laid (done : List ReportItem) (items : List ShortItem) (kindpos : HidKind → UInt32)
    (id : Int32) : Prop where
  reached : ∀ k, (kindpos k).toNat = usedBits k id done
  fresh : ∀ h ∈ done, h.kind.isData = true → h.other.reportId ∉ ShortItem.reportIds items
  current : id ∉ ShortItem.reportIds items
  once : (ShortItem.reportIds items).Nodup
  unpopped : ∀ i ∈ items, ¬ i.IsPop

/-- While fields of a variable item are left, it is a data item that is counted one by one. -/
def CountsFields (s : ParseState) : Prop :=
  s.multimax ≠ 0 → s.cur.kind.isData = true ∧ s.cur.other.reportCount = 1

/-- What is saved is a collection. -/
def SavesCollection (s : ParseState) : Prop :=
  ∀ c, s.savedcoll = some c → c.kind.isData = false

theorem savesCollection_none (s : ParseState) : SavesCollection { s with savedcoll := none } := by
  intro c hc
  cases hc

theorem savesCollection_saveCollection (dval : UInt32) (s : ParseState) :
    SavesCollection (saveCollection (openCollection dval s) s) := by
  intro c hc
  cases hc
  rfl

/-- Between calls. -/
structure LaidBetween (done : List ReportItem) (items : List ShortItem) (s : ParseState) :
    Prop where
  laid : Laid done items s.kindpos s.cur.other.reportId
  saves : SavesCollection s
  counts : CountsFields s

/-- In the loop of a call. -/
structure LaidInside (done : List ReportItem) (items : List ShortItem) (s : ParseState) :
    Prop where
  laid : Laid done items s.kindpos s.cur.other.reportId
  saves : SavesCollection s
  idle : s.multimax = 0

/-- An item that is delivered lies behind those of its kind and report, and is now one of them
if there is room for it. -/
def LaidItem (done : List ReportItem) (items : List ShortItem) (h : ReportItem) (s : ParseState) :
    Prop :=
  (h.kind.isData = true → h.other.pos.toNat = usedBits h.kind h.other.reportId done) ∧
    (totalBits (done ++ [h]) < 2 ^ 32 → LaidBetween (done ++ [h]) items s)

namespace Laid

variable {done : List ReportItem} {items : List ShortItem} {i : ShortItem} {h : ReportItem}
  {kindpos : HidKind → UInt32} {id value : Int32} {width : UInt32}

theorem reportIds_sublist (i : ShortItem) (items : List ShortItem) :
    (ShortItem.reportIds items).Sublist (ShortItem.reportIds (i :: items)) := by
  unfold ShortItem.reportIds
  exact (List.sublist_cons_self i items).filterMap _

/-- An item that is not a Report ID item is read. -/
theorem tail (hlaid : Laid done (i :: items) kindpos id) : Laid done items kindpos id where
  reached := hlaid.reached
  fresh := fun h hh hdata hmem =>
    hlaid.fresh h hh hdata ((reportIds_sublist i items).subset hmem)
  current := fun hmem => hlaid.current ((reportIds_sublist i items).subset hmem)
  once := hlaid.once.sublist (reportIds_sublist i items)
  unpopped := fun other hother => hlaid.unpopped other (List.mem_cons_of_mem _ hother)

/-- A report begins: no item of it has been delivered. -/
theorem report (hlaid : Laid done (i :: items) kindpos id) (hi : i.reportId? = some value) :
    Laid done items (fun _ => 0) value := by
  have hids : ShortItem.reportIds (i :: items) = value :: ShortItem.reportIds items := by
    rw [ShortItem.reportIds, List.filterMap_cons, hi]
    rfl
  have hfresh := hlaid.fresh
  have honce := hlaid.once
  rw [hids] at hfresh honce
  refine ⟨fun k => ?_, hlaid.tail.fresh, ?_, hlaid.tail.once, hlaid.tail.unpopped⟩
  · have hnone : usedBits k value done = 0 :=
      usedBits_eq_zero fun h hh hdata hid => hfresh h hh hdata (hid ▸ List.mem_cons_self)
    rw [hnone]
    rfl
  · exact (List.nodup_cons.mp honce).1

/-- A data item of the present report is delivered. -/
theorem item (hlaid : Laid done items kindpos id) (hid : h.other.reportId = id)
    (hwidth : h.span = width.toNat)
    (hroom : totalBits (done ++ [h]) < 2 ^ 32) :
    Laid (done ++ [h]) items
      (Function.update kindpos h.kind (kindpos h.kind + width)) id := by
  refine ⟨fun k => ?_, ?_, hlaid.current, hlaid.once, hlaid.unpopped⟩
  · rw [usedBits_append_singleton]
    by_cases hk : k = h.kind
    · subst hk
      have hbelongs : h.belongs h.kind id = true := by simp [ReportItem.belongs, hid]
      have hle := usedBits_le_totalBits h.kind id done
      rw [totalBits_append_singleton, hwidth] at hroom
      rw [Function.update_self, UInt32.toNat_add, hlaid.reached, if_pos hbelongs, hwidth,
        Nat.mod_eq_of_lt (by omega)]
    · have hbelongs : h.belongs k id = false := by simp [ReportItem.belongs, Ne.symm hk]
      rw [Function.update_of_ne hk, hlaid.reached, hbelongs]
      rfl
  · intro other hother hodata
    rcases List.mem_append.mp hother with hold | hnew
    · exact hlaid.fresh other hold hodata
    · rw [List.mem_singleton.mp hnew, hid]
      exact hlaid.current

/-- A collection or its end is delivered. -/
theorem other (hlaid : Laid done items kindpos id) (hdata : h.kind.isData = false) :
    Laid (done ++ [h]) items kindpos id := by
  refine ⟨fun k => ?_, ?_, hlaid.current, hlaid.once, hlaid.unpopped⟩
  · have hspan : h.span = 0 := by rw [ReportItem.span, hdata]; rfl
    rw [usedBits_append_singleton, hspan, ite_self, Nat.add_zero]
    exact hlaid.reached k
  · intro other hother hodata
    rcases List.mem_append.mp hother with hold | hnew
    · exact hlaid.fresh other hold hodata
    · rw [List.mem_singleton.mp hnew, hdata] at hodata
      cases hodata

end Laid

/-! ## The steps keep it -/

section

variable {front : ParseState → UInt32} {kindset : Int32} {done : List ReportItem}
  {items : List ShortItem} {i : ShortItem} {h : ReportItem} {s after : ParseState}

theorem LaidInside.between (hinside : LaidInside done items s) : LaidBetween done items s :=
  ⟨hinside.laid, hinside.saves, fun hcount => absurd hinside.idle hcount⟩

/-- A state with the same positions and nothing left of a variable item. -/
theorem LaidInside.congr (hinside : LaidInside done (i :: items) s)
    (hpos : after.kindpos = s.kindpos) (hid : after.cur.other.reportId = s.cur.other.reportId)
    (hsaved : after.savedcoll = s.savedcoll) (hmax : after.multimax = s.multimax) :
    LaidInside done items after :=
  ⟨hpos ▸ hid ▸ hinside.laid.tail, fun c hc => hinside.saves c (hsaved ▸ hc),
    hmax.trans hinside.idle⟩

/-- A collection or its end is delivered. -/
theorem laidItem_other (hlaid : Laid done items s.kindpos s.cur.other.reportId)
    (hh : h.kind.isData = false) (hpos : after.kindpos = s.kindpos)
    (hid : after.cur.other.reportId = s.cur.other.reportId) (hsaves : SavesCollection after)
    (hcounts : CountsFields after) : LaidItem done items h after := by
  constructor
  · intro hdata
    exact absurd hdata (by simp [hh])
  · intro _
    refine ⟨?_, hsaves, hcounts⟩
    rw [hpos, hid]
    exact hlaid.other hh

theorem top_laid (hlaid : LaidBetween done items s) :
    (top front s).Meets (LaidInside done items) (LaidItem done items) := by
  unfold top
  split
  · next hzero => exact ⟨hlaid.laid, hlaid.saves, hzero⟩
  next hfields =>
    split
    · next c hsaved =>
        exact laidItem_other (h := withReport _ c) hlaid.laid (hlaid.saves c hsaved) rfl rfl
          (savesCollection_none s) hlaid.counts
    · next hnone =>
        obtain ⟨m, hm⟩ := signMinimum_eq s
        rw [hm]
        obtain ⟨hdata, hcount⟩ := hlaid.counts hfields
        split
        · -- the next field
          constructor
          · exact fun _ => hlaid.laid.reached s.cur.kind
          · intro hroom
            have hone : s.cur.other.reportSize * s.cur.other.reportCount =
                s.cur.other.reportSize := by rw [hcount, Int32.mul_one]
            have hspan := congrArg (fun x : Int32 => x.toUInt32.toNat) hone
            exact ⟨hlaid.laid.item rfl ((if_pos hdata).trans hspan) hroom,
              fun c hc => hlaid.saves c hc, fun _ => ⟨hdata, hcount⟩⟩
        · exact ⟨hlaid.laid, hlaid.saves, rfl⟩

/-- A state with the same positions in which the fields of a variable item may begin. -/
theorem dataItem_laid {retkind : HidKind} (hkind : retkind.isData = true) (dval : UInt32)
    (hinside : LaidInside done (i :: items) s) :
    (dataItem front kindset retkind dval s).Meets (LaidInside done items)
      (LaidItem done items) := by
  unfold dataItem
  split
  · exact hinside.congr rfl rfl rfl rfl
  split
  · split
    · next r hr => exact listUsages_meets hr
    · next next hnext =>
        have halike := listUsages_alike hnext
        apply top_laid
        refine ⟨halike.kindpos ▸ halike.reportId ▸ hinside.laid.tail,
          fun c hc => hinside.saves c (halike.savedcoll ▸ hc), fun _ => ⟨?_, halike.reportCount⟩⟩
        rw [halike.kind]
        exact hkind
  · have halike := takeMinimum_alike (markItem retkind dval s)
    have hdata : (takeMinimum (markItem retkind dval s)).cur.kind.isData = true := by
      rw [halike.kind]
      exact hkind
    have hlaid : Laid done items (takeMinimum (markItem retkind dval s)).kindpos
        (takeMinimum (markItem retkind dval s)).cur.other.reportId :=
      halike.kindpos ▸ halike.reportId ▸ hinside.laid.tail
    constructor
    · exact fun _ => hlaid.reached _
    · intro hroom
      refine ⟨hlaid.item rfl ?_ hroom,
        fun c hc => hinside.saves c (halike.savedcoll ▸ hc), fun hcount => ?_⟩
      · exact if_pos hdata
      · exact absurd (halike.multimax.trans hinside.idle) hcount

theorem collectionItem_laid (dval : UInt32) (hinside : LaidInside done (i :: items) s) :
    (collectionItem dval s).Meets (LaidInside done items) (LaidItem done items) := by
  have hsaves := savesCollection_saveCollection dval s
  unfold collectionItem
  split
  · next c hsaved =>
      exact laidItem_other (h := withReport _ c) hinside.laid.tail (hinside.saves c hsaved) rfl rfl
        hsaves fun hcount => absurd hinside.idle hcount
  · exact ⟨hinside.laid.tail, hsaves, hinside.idle⟩

theorem endCollectionItem_laid (hinside : LaidInside done (i :: items) s) :
    (endCollectionItem s).Meets (LaidInside done items) (LaidItem done items) := by
  unfold endCollectionItem
  split
  · next c hsaved =>
      exact laidItem_other (h := withReport _ c) hinside.laid.tail (hinside.saves c hsaved) rfl rfl
        (savesCollection_none s) fun hcount => absurd hinside.idle hcount
  · exact laidItem_other (h := closeCollection s) hinside.laid.tail rfl rfl rfl hinside.saves
      fun hcount => absurd hinside.idle hcount

theorem globalItem_laid (hi : i.type = .global) (hinside : LaidInside done (i :: items) s) :
    (globalItem (UInt8.ofNat i.tag.val) i.data.size i.data.value s).Meets
      (LaidInside done items) (LaidItem done items) := by
  unfold globalItem
  rw [i.toNat_tag]
  split
  case h_9 hreport =>
    have hid : i.reportId? = some i.data.value.toInt32 := if_pos ⟨hi, hreport⟩
    exact ⟨hinside.laid.report hid, fun c hc => hinside.saves c hc, hinside.idle⟩
  case h_12 hpop =>
    exact absurd ⟨hi, Fin.ext hpop⟩ (hinside.laid.unpopped i List.mem_cons_self)
  case h_13 => trivial
  all_goals apply hinside.congr <;> simp

theorem process_laid (hinside : LaidInside done (i :: items) s) :
    (i.process front kindset s).Meets (LaidInside done items) (LaidItem done items) := by
  unfold ShortItem.process parseItem
  cases htype : i.type with
  | main =>
      show (mainItem _ _ _ _ _).Meets _ _
      unfold mainItem
      split
      · exact dataItem_laid rfl _ hinside
      · exact dataItem_laid rfl _ hinside
      · exact collectionItem_laid _ hinside
      · exact dataItem_laid rfl _ hinside
      · exact endCollectionItem_laid hinside
      · trivial
  | global => exact globalItem_laid htype hinside
  | locals =>
      show (localItem _ _ _).Meets _ _
      exact localItem_meets fun after halike =>
        hinside.congr halike.kindpos halike.reportId halike.savedcoll halike.multimax

/-- What {lit}`hid_start_parse` makes of a descriptor. -/
theorem laidBetween_start (hids : (0 :: ShortItem.reportIds items).Nodup)
    (hpop : ∀ i ∈ items, ¬ i.IsPop) :
    LaidBetween [] items (hidStartParse (ShortItem.encodeAll items)) := by
  obtain ⟨hzero, hnodup⟩ := List.nodup_cons.mp hids
  refine ⟨⟨fun k => rfl, ?_, hzero, hnodup, hpop⟩, ?_, fun hcount => absurd rfl hcount⟩
  · intro h hh
    cases hh
  · intro c hc
    cases hc

/-- One call. -/
theorem hidGetItemRaw_laid (hlaid : LaidBetween done items s)
    (hrest : s.rest = ShortItem.encodeAll items)
    (hitem : hidGetItemRaw front kindset s = .item h after) :
    ∃ left, after.rest = ShortItem.encodeAll left ∧ LaidItem done left h after := by
  have hmeets : (hidGetItemRaw front kindset s).Meets items (LaidInside done) (LaidItem done) :=
    hidGetItemRaw_rule (fun items s hs => top_laid hs)
      (fun i items s hs => process_laid ⟨hs.laid, hs.saves, hs.idle⟩) hlaid hrest
  rw [hitem] at hmeets
  obtain ⟨left, -, hleft, hpost⟩ := hmeets
  exact ⟨left, hleft, hpost⟩

/-- Every data item lies behind the earlier ones of its kind and report. -/
def AllLaid (done : List ReportItem) : Prop :=
  ∀ j h, done[j]? = some h → h.kind.isData = true →
    h.other.pos.toNat = usedBits h.kind h.other.reportId (done.take j)

theorem AllLaid.append_singleton (hall : AllLaid done)
    (hnew : h.kind.isData = true → h.other.pos.toNat = usedBits h.kind h.other.reportId done) :
    AllLaid (done ++ [h]) := by
  intro j other hj hdata
  by_cases hlt : j < done.length
  · rw [List.getElem?_append_left hlt] at hj
    rw [List.take_append_of_le_length hlt.le]
    exact hall j other hj hdata
  · rw [List.getElem?_append_right (by omega), List.getElem?_singleton] at hj
    split at hj
    · next hzero =>
        have hlength : j = done.length := by omega
        cases hj
        rw [hlength, List.take_left]
        exact hnew hdata
    · cases hj

variable (front kindset) in
/-- The calls, one after another. -/
theorem delivered_allLaid (n : ℕ) (hlaid : LaidBetween done items s) (hall : AllLaid done)
    (hrest : s.rest = ShortItem.encodeAll items)
    (hroom : totalBits (done ++ delivered front kindset n s) < 2 ^ 32) :
    AllLaid (done ++ delivered front kindset n s) := by
  induction n generalizing done items s with
  | zero => rwa [delivered, List.append_nil]
  | succ n ih =>
      rw [delivered] at hroom ⊢
      cases hresult : hidGetItemRaw front kindset s with
      | item h after =>
          rw [hresult] at hroom
          dsimp only at hroom ⊢
          obtain ⟨left, hleft, hpos, hnext⟩ := hidGetItemRaw_laid hlaid hrest hresult
          rw [List.append_cons] at hroom ⊢
          have hfits : totalBits (done ++ [h]) < 2 ^ 32 := by
            have happend : totalBits (done ++ [h] ++ delivered front kindset n after) =
                totalBits (done ++ [h]) + totalBits (delivered front kindset n after) := by
              simp only [totalBits, List.map_append, List.sum_append]
            omega
          exact ih (hnext hfits) (hall.append_singleton hpos) hleft hroom
      | done after => rwa [List.append_nil]
      | error code after => rwa [List.append_nil]
      | astray => rwa [List.append_nil]
      | endless => rwa [List.append_nil]

/-- The bits of one item of a report end in front of those of a later one. -/
theorem usedBits_take_lt {k : HidKind} {id : Int32} {i j : ℕ} (hi : done[i]? = some h)
    (hbelongs : h.belongs k id = true) (hlt : i < j) :
    usedBits k id (done.take i) + h.span ≤ usedBits k id (done.take j) := by
  have hone : usedBits k id (done.take (i + 1)) = usedBits k id (done.take i) + h.span := by
    rw [List.take_add_one, hi, Option.toList_some, usedBits_append_singleton, if_pos hbelongs]
  have hmore : done.take j = done.take (i + 1) ++ (done.take j).drop (i + 1) := by
    rw [← List.take_append_drop (i + 1) (done.take j), List.take_take, Nat.min_eq_left hlt,
      List.drop_left' (by
        rw [List.length_take]
        have := (List.getElem?_eq_some_iff.mp hi).1
        omega)]
  rw [hmore, usedBits_append, hone]
  exact Nat.le_add_right _ _

/-- The bits that are read of an item are bits that it takes up. -/
def ReportItem.Whole (h : ReportItem) : Prop :=
  h.hsize.toNat ≤ h.span

/-- Two items of one report have no bit in common. -/
theorem AllLaid.disjoint {a b : ReportItem} {i j : ℕ} (hall : AllLaid done)
    (ha : done[i]? = some a) (hb : done[j]? = some b) (hlt : i < j)
    (hdata : a.kind.isData = true) (hkind : a.kind = b.kind)
    (hid : a.other.reportId = b.other.reportId) :
    a.hpos.toNat + a.span ≤ b.hpos.toNat := by
  have hbelongs : a.belongs b.kind b.other.reportId = true := by
    simp [ReportItem.belongs, hkind, hid]
  have hpa := hall i a ha hdata
  rw [hkind, hid] at hpa
  rw [hpa, hall j b hb (hkind ▸ hdata)]
  exact usedBits_take_lt ha hbelongs hlt

/-- An item that is whole ends in front of the last position there is. -/
theorem AllLaid.inRange {a : ReportItem} {i : ℕ} (hall : AllLaid done)
    (hroom : totalBits done < 2 ^ 32) (ha : done[i]? = some a) (hdata : a.kind.isData = true)
    (hwhole : a.Whole) : a.InRange := by
  have hbelongs : a.belongs a.kind a.other.reportId = true := by simp [ReportItem.belongs]
  have hlt := (List.getElem?_eq_some_iff.mp ha).1
  have hend := usedBits_take_lt ha hbelongs hlt
  have hle := usedBits_le_totalBits a.kind a.other.reportId done
  rw [List.take_length] at hend
  rw [ReportItem.InRange, hall i a ha hdata]
  unfold ReportItem.Whole at hwhole
  omega

end

/-- If a descriptor gives no report twice and pops nothing, every data item that is delivered
lies right behind the earlier ones of its kind and report.  Writing one of the items of a
report leaves all others as they are. -/
theorem delivered_layout (front : ParseState → UInt32) (kindset : Int32) (items : List ShortItem)
    (hids : (0 :: ShortItem.reportIds items).Nodup) (hpop : ∀ i ∈ items, ¬ i.IsPop) (n : ℕ)
    (hroom : totalBits (delivered front kindset n (hidStartParse (ShortItem.encodeAll items))) <
      2 ^ 32) :
    AllLaid (delivered front kindset n (hidStartParse (ShortItem.encodeAll items))) ∧
      ∀ (i j : ℕ) (a b : ReportItem),
        (delivered front kindset n (hidStartParse (ShortItem.encodeAll items)))[i]? = some a →
        (delivered front kindset n (hidStartParse (ShortItem.encodeAll items)))[j]? = some b →
        i ≠ j → a.kind.isData = true → a.kind = b.kind →
        a.other.reportId = b.other.reportId → a.Whole → b.Whole →
        ∀ (buf after : List UInt8) (data : Int32), hidSetData buf a data = some after →
          hidGetData after b = hidGetData buf b := by
  have hall : AllLaid (delivered front kindset n (hidStartParse (ShortItem.encodeAll items))) := by
    have hrun := delivered_allLaid front kindset n
      (laidBetween_start hids hpop) (fun j h hj => by cases hj) rfl
    rw [List.nil_append] at hrun
    exact hrun hroom
  refine ⟨hall, fun i j a b ha hb hne hdata hkind hid hwa hwb buf after data hset => ?_⟩
  apply hidGetData_of_written (hall.inRange hroom ha hdata hwa)
    (hall.inRange hroom hb (hkind ▸ hdata) hwb) hset
  unfold ReportItem.Whole at hwa hwb
  rcases Nat.lt_or_gt_of_ne hne with hlt | hlt
  · have hends := hall.disjoint ha hb hlt hdata hkind hid
    exact Or.inl (by omega)
  · have hends := hall.disjoint hb ha hlt (hkind ▸ hdata) hkind.symm hid.symm
    exact Or.inr (by omega)

/-- Two bytes of a feature report. -/
theorem delivered_layout_twoBytes :
    AllLaid (delivered (fun _ => 0) hidKindAll 3 (hidStartParse (ShortItem.encodeAll
      [⟨.global, 8, .one 1⟩, ⟨.global, 7, .one 8⟩, ⟨.global, 9, .one 2⟩, ⟨.locals, 0, .one 32⟩,
        ⟨.main, 11, .one 2⟩]))) :=
  (delivered_layout (fun _ => 0) hidKindAll [⟨.global, 8, .one 1⟩, ⟨.global, 7, .one 8⟩,
    ⟨.global, 9, .one 2⟩, ⟨.locals, 0, .one 32⟩, ⟨.main, 11, .one 2⟩] (by decide) (by decide) 3
    (by decide)).1

end Apcupsd
