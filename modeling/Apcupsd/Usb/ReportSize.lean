import Apcupsd.Usb.DescriptorNesting
import Apcupsd.Usb.ReportLayout
import Mathlib.Data.Fintype.Basic
import Mathlib.Tactic.FinCases

/-!
# The size of a report

{lit}`hid_report_size` looks at the data items of one kind in one report and takes the position
behind the last one.  A driver asks the device for a report of this size.

Main results:

- Theorem {lit}`hidGetItemRaw_sized`: what has been delivered, what is left of a variable item and
  what the rest of the descriptor declares make up the same number of bits all the time.
- Theorem {lit}`hidReportSize_covers`: the size is that of the declared bits, and every item of
  the report lies within it.
-/

namespace Apcupsd

/-! ## The walk over the items -/

/-- The loop of {lit}`hid_report_size` with the one of {lit}`hid_get_item` in it, which skips the
items of other reports.  It goes on behind a call that fails, with the item that was there. -/
def sizeLoop (front : ParseState → UInt32) (k : HidKind) (id : Int32) :
    ℕ → ReportItem → UInt32 → ParseState → Option UInt32
  | 0, _, _, _ => none
  | calls + 1, h, size, s => match hidGetItemRaw front (1 <<< k.code) s with
      | .item h after =>
          if h.other.reportId = id ∨ id = -1 then
            sizeLoop front k id calls h
              (if h.other.reportId = id ∧ h.kind = k then after.kindpos k else size) after
          else sizeLoop front k id calls h size after
      | .error _ after =>
          sizeLoop front k id calls h
            (if h.other.reportId = id ∧ h.kind = k then after.kindpos k else size) after
      | .done _ => some size
      | .astray => none
      | .endless => none

/-- {lit}`hid_report_size`, with a bound on the calls. -/
def hidReportSize (front : ParseState → UInt32) (data : List UInt8) (k : HidKind) (id : Int32)
    (calls : ℕ) : Option Int32 :=
  (sizeLoop front k id calls ⟨.input, 0, 0, default⟩ 0 (hidStartParse data)).map
    fun size => (size.toInt32 + 7) / 8

/-! ## What a descriptor declares -/

/-- The global items that a data item is laid out by. -/
structure Layout where
  size : Int32
  count : Int32
  report : Int32
deriving DecidableEq

namespace ShortItem

/-- The kind of a data item. -/
def dataKind? (i : ShortItem) : Option HidKind :=
  match i.type, i.tag.val with
  | .main, 8 => some .input
  | .main, 9 => some .output
  | .main, 11 => some .feature
  | _, _ => none

end ShortItem

namespace Layout

/-- Before the first item. -/
def initial : Layout :=
  ⟨0, 0, 0⟩

/-- Behind an item. -/
def read (g : Layout) (i : ShortItem) : Layout :=
  match i.type, i.tag.val with
  | .global, 7 => { g with size := i.data.value.toInt32 }
  | .global, 8 => { g with report := i.data.value.toInt32 }
  | .global, 9 => { g with count := i.data.value.toInt32 }
  | _, _ => g

/-- The bits of a data item: those of all its fields if it is variable. -/
def width (g : Layout) (i : ShortItem) : ℕ :=
  if i.data.value &&& 2 ≠ 0 then g.count.toInt.toNat * g.size.toUInt32.toNat
  else (g.size * g.count).toUInt32.toNat

/-- The bits that an item declares in some reports. -/
def bits (p : HidKind → Int32 → Bool) (g : Layout) (i : ShortItem) : ℕ :=
  match i.dataKind? with
  | some k => if p k g.report then g.width i else 0
  | none => 0

end Layout

/-- The bits that a descriptor declares in some reports. -/
def declaredBits (p : HidKind → Int32 → Bool) : Layout → List ShortItem → ℕ
  | _, [] => 0
  | g, i :: items => g.bits p i + declaredBits p (g.read i) items

/-- The bits that the items take up in some reports. -/
def deliveredBits (p : HidKind → Int32 → Bool) (done : List ReportItem) : ℕ :=
  ((done.filter fun h => p h.kind h.other.reportId).map ReportItem.span).sum

/-- One kind in one report. -/
def only (k : HidKind) (id : Int32) (kind : HidKind) (report : Int32) : Bool :=
  decide (kind = k) && decide (report = id)

/-- The reports of the kinds that are walked over. -/
def within (kindset : Int32) (p : HidKind → Int32 → Bool) (kind : HidKind) (report : Int32) :
    Bool :=
  decide (kindset &&& (1 <<< kind.code) ≠ 0) && p kind report

section

variable {p q : HidKind → Int32 → Bool} {done : List ReportItem} {h : ReportItem}

theorem deliveredBits_append_singleton (p : HidKind → Int32 → Bool) (done : List ReportItem)
    (h : ReportItem) :
    deliveredBits p (done ++ [h]) =
      deliveredBits p done + if p h.kind h.other.reportId then h.span else 0 := by
  unfold deliveredBits
  cases hp : p h.kind h.other.reportId with
  | true => simp [List.filter_append, hp]
  | false => simp [List.filter_append, hp]

theorem deliveredBits_all (done : List ReportItem) :
    deliveredBits (fun _ _ => true) done = totalBits done := by
  simp [deliveredBits, totalBits]

theorem declaredBits_mono (hle : ∀ kind report, p kind report = true → q kind report = true)
    (g : Layout) (items : List ShortItem) : declaredBits p g items ≤ declaredBits q g items := by
  induction items generalizing g with
  | nil => exact le_rfl
  | cons i items ih =>
      have hbits : g.bits p i ≤ g.bits q i := by
        unfold Layout.bits
        split
        · next k _ =>
            by_cases hp : p k g.report = true
            · rw [if_pos hp, if_pos (hle k g.report hp)]
            · rw [if_neg hp]
              exact Nat.zero_le _
        · exact le_rfl
      exact Nat.add_le_add hbits (ih (g.read i))

/-- A walk over some kinds misses nothing of one of them. -/
theorem within_only {kindset : Int32} {k : HidKind} (hin : kindset &&& (1 <<< k.code) ≠ 0)
    (id : Int32) : within kindset (only k id) = only k id := by
  funext kind report
  unfold within only
  by_cases hkind : kind = k
  · subst hkind
    rw [decide_eq_true hin, Bool.true_and]
  · rw [decide_eq_false hkind, Bool.false_and, Bool.and_false]

end

/-! ## The bits that are left -/

/-- The layout that the next data item gets. -/
def layoutOf (s : ParseState) : Layout where
  size := s.cur.other.reportSize
  count := if s.multimax = 0 then s.cur.other.reportCount else s.multimax
  report := s.cur.other.reportId

/-- The bits of the fields that are left of a variable item. -/
def pendingBits (p : HidKind → Int32 → Bool) (s : ParseState) : ℕ :=
  if s.multimax ≠ 0 ∧ p s.cur.kind s.cur.other.reportId then
    (s.multimax.toInt - s.multi.toInt).toNat * s.cur.other.reportSize.toUInt32.toNat
  else 0

/-- Between calls: what is delivered, what is left of an item, and what is declared. -/
structure SizedBetween (kindset : Int32) (total : (HidKind → Int32 → Bool) → ℕ)
    (done : List ReportItem) (items : List ShortItem) (s : ParseState) : Prop where
  saves : SavesCollection s
  counts : CountsFields s
  unpopped : ∀ i ∈ items, ¬ i.IsPop
  counted : FieldsCounted (layoutOf s).count (ShortItem.roles items)
  bits : ∀ p, deliveredBits p done +
    (pendingBits p s + declaredBits (within kindset p) (layoutOf s) items) = total p

/-- In the loop of a call. -/
structure SizedInside (kindset : Int32) (total : (HidKind → Int32 → Bool) → ℕ)
    (done : List ReportItem) (items : List ShortItem) (s : ParseState) : Prop where
  saves : SavesCollection s
  idle : s.multimax = 0
  unpopped : ∀ i ∈ items, ¬ i.IsPop
  counted : FieldsCounted (layoutOf s).count (ShortItem.roles items)
  bits : ∀ p, deliveredBits p done + declaredBits (within kindset p) (layoutOf s) items = total p

/-- An item that is delivered is counted from now on. -/
def SizedItem (kindset : Int32) (total : (HidKind → Int32 → Bool) → ℕ) (done : List ReportItem)
    (items : List ShortItem) (h : ReportItem) (s : ParseState) : Prop :=
  SizedBetween kindset total (done ++ [h]) items s ∧
    (h.kind.isData = true → h.other.reportId = s.cur.other.reportId)

section

variable {i : ShortItem} {g : Layout} {k : HidKind} {items : List ShortItem}

/-- A main item leaves the layout. -/
theorem Layout.read_main (hi : i.type = .main) : g.read i = g := by
  unfold Layout.read
  rw [hi]

/-- So does a local item. -/
theorem Layout.read_locals (hi : i.type = .locals) : g.read i = g := by
  unfold Layout.read
  rw [hi]

theorem ShortItem.type_of_dataKind (hi : i.dataKind? = some k) : i.type = .main := by
  unfold ShortItem.dataKind? at hi
  split at hi
  · assumption
  · assumption
  · assumption
  · cases hi

theorem ShortItem.role_of_dataKind (hi : i.dataKind? = some k) :
    i.role = .field (i.data.value &&& 2 ≠ 0) := by
  unfold ShortItem.dataKind? at hi
  split at hi
  · next htype htag => simp [ShortItem.role, htype, htag]
  · next htype htag => simp [ShortItem.role, htype, htag]
  · next htype htag => simp [ShortItem.role, htype, htag]
  · cases hi

/-- What follows an item is counted as the layout behind it says. -/
theorem FieldsCounted.tail (hcounted : FieldsCounted g.count (ShortItem.roles (i :: items))) :
    FieldsCounted (g.read i).count (ShortItem.roles items) := by
  obtain ⟨type, tag, data⟩ := i
  cases type with
  | main => fin_cases tag <;> first | exact hcounted | exact hcounted.2
  | global => fin_cases tag <;> exact hcounted
  | locals => exact hcounted

end

section

variable {front : ParseState → UInt32} {kindset : Int32} {p : HidKind → Int32 → Bool}
  {total : (HidKind → Int32 → Bool) → ℕ} {done : List ReportItem} {items : List ShortItem}
  {i : ShortItem} {h : ReportItem} {s after : ParseState}

theorem pendingBits_of_idle (hidle : s.multimax = 0) : pendingBits p s = 0 :=
  if_neg fun hboth => hboth.1 hidle

theorem SizedInside.between (hinside : SizedInside kindset total done items s) :
    SizedBetween kindset total done items s := by
  refine ⟨hinside.saves, fun hfields => absurd hinside.idle hfields, hinside.unpopped,
    hinside.counted, fun p => ?_⟩
  rw [pendingBits_of_idle hinside.idle, Nat.zero_add]
  exact hinside.bits p

/-- An item that declares no data is read. -/
theorem SizedInside.step (hinside : SizedInside kindset total done (i :: items) s)
    (hdata : i.dataKind? = none) (hsaves : SavesCollection after)
    (hmax : after.multimax = s.multimax) (hlayout : layoutOf after = (layoutOf s).read i) :
    SizedInside kindset total done items after := by
  refine ⟨hsaves, hmax.trans hinside.idle,
    fun j hj => hinside.unpopped j (List.mem_cons_of_mem _ hj), ?_, fun p => ?_⟩
  · rw [hlayout]
    exact hinside.counted.tail
  · have hzero : (layoutOf s).bits (within kindset p) i = 0 := by rw [Layout.bits, hdata]
    have hbits := hinside.bits p
    rw [declaredBits, hzero, Nat.zero_add] at hbits
    rw [hlayout]
    exact hbits

/-- A collection or its end takes up nothing. -/
theorem sizedItem_other (hbetween : SizedBetween kindset total done items after)
    (hdata : h.kind.isData = false) : SizedItem kindset total done items h after := by
  have hspan : h.span = 0 := by rw [ReportItem.span, hdata]; rfl
  refine ⟨⟨hbetween.saves, hbetween.counts, hbetween.unpopped, hbetween.counted, fun p => ?_⟩, ?_⟩
  · rw [deliveredBits_append_singleton, hspan, ite_self, Nat.add_zero]
    exact hbetween.bits p
  · intro hdata'
    rw [hdata] at hdata'
    cases hdata'

variable (front) in
/-- The width of one field less is left. -/
theorem pendingBits_takeField (hfields : s.multimax ≠ 0) (hlt : s.multi < s.multimax) :
    pendingBits p s = (if p s.cur.kind s.cur.other.reportId then
      s.cur.other.reportSize.toUInt32.toNat else 0) + pendingBits p (takeField front s) := by
  have hnext : (takeField front s).multi.toInt = s.multi.toInt + 1 := toInt_add_one_of_lt hlt
  have hlt' := Int32.lt_iff_toInt_lt.mp hlt
  unfold pendingBits
  by_cases hp : p s.cur.kind s.cur.other.reportId = true
  · have hcount : (s.multimax.toInt - s.multi.toInt).toNat =
        1 + (s.multimax.toInt - (takeField front s).multi.toInt).toNat := by
      rw [hnext]
      omega
    rw [if_pos ⟨hfields, hp⟩, if_pos hp, if_pos ⟨hfields, hp⟩, hcount, Nat.add_mul, Nat.one_mul]
    rfl
  · rw [if_neg fun hboth => hp hboth.2, if_neg hp, if_neg fun hboth => hp hboth.2]

theorem top_sized (hbetween : SizedBetween kindset total done items s) :
    (top front s).Meets (SizedInside kindset total done items)
      (SizedItem kindset total done items) := by
  unfold top
  split
  · next hidle =>
      refine ⟨hbetween.saves, hidle, hbetween.unpopped, hbetween.counted, fun p => ?_⟩
      have hbits := hbetween.bits p
      rw [pendingBits_of_idle hidle, Nat.zero_add] at hbits
      exact hbits
  next hfields =>
    split
    · next c hsaved =>
        exact sizedItem_other (h := withReport _ c)
          ⟨savesCollection_none s, hbetween.counts, hbetween.unpopped, hbetween.counted,
            hbetween.bits⟩
          (hbetween.saves c hsaved)
    · next hnone =>
        obtain ⟨m, hm⟩ := signMinimum_eq s
        rw [hm]
        obtain ⟨hdata, hcount⟩ := hbetween.counts hfields
        split
        · next hlt =>
            -- the next field
            refine ⟨⟨fun c hc => hbetween.saves c hc, fun _ => ⟨hdata, hcount⟩, hbetween.unpopped,
              hbetween.counted, fun p => ?_⟩, fun _ => rfl⟩
            have hbits := hbetween.bits p
            have hone : s.cur.other.reportSize * s.cur.other.reportCount =
                s.cur.other.reportSize := by rw [hcount, Int32.mul_one]
            have hspan : (placed (takeField front (s.edit fun d =>
                { d with logicalMinimum := m }))).span = s.cur.other.reportSize.toUInt32.toNat :=
              (if_pos hdata).trans (congrArg (fun x : Int32 => x.toUInt32.toNat) hone)
            rw [pendingBits_takeField front hfields hlt, Nat.add_assoc,
              ← Nat.add_assoc] at hbits
            rw [deliveredBits_append_singleton, hspan]
            exact hbits
        · next hge =>
            have hge' : ¬ s.multi.toInt < s.multimax.toInt :=
              fun hlt => hge (Int32.lt_iff_toInt_lt.mpr hlt)
            have hzero : (s.multimax.toInt - s.multi.toInt).toNat = 0 := by omega
            have hlayout : layoutOf (endFields (s.edit fun d => { d with logicalMinimum := m })) =
                layoutOf s := by
              unfold layoutOf
              rw [if_neg hfields]
              rfl
            refine ⟨fun c hc => hbetween.saves c hc, rfl, hbetween.unpopped, ?_, fun p => ?_⟩
            · rw [hlayout]
              exact hbetween.counted
            · have hbits := hbetween.bits p
              rw [pendingBits, hzero, Nat.zero_mul, ite_self, Nat.zero_add] at hbits
              rw [hlayout]
              exact hbits

/-- The fields of a variable item begin, or another item is delivered. -/
theorem dataItem_sized {retkind : HidKind} (hkind : retkind.isData = true)
    (hi : i.dataKind? = some retkind) (hinside : SizedInside kindset total done (i :: items) s) :
    (dataItem front kindset retkind i.data.value s).Meets (SizedInside kindset total done items)
      (SizedItem kindset total done items) := by
  have hread : (layoutOf s).read i = layoutOf s := Layout.read_main (ShortItem.type_of_dataKind hi)
  have hunpopped : ∀ j ∈ items, ¬ j.IsPop :=
    fun j hj => hinside.unpopped j (List.mem_cons_of_mem _ hj)
  have hcounted := hinside.counted.tail
  rw [hread] at hcounted
  have hcount : (layoutOf s).count = s.cur.other.reportCount := if_pos hinside.idle
  have hbits (p : HidKind → Int32 → Bool) : deliveredBits p done +
      ((if within kindset p retkind s.cur.other.reportId then (layoutOf s).width i else 0) +
        declaredBits (within kindset p) (layoutOf s) items) = total p := by
    have hall := hinside.bits p
    rw [declaredBits, Layout.bits, hi, hread] at hall
    exact hall
  unfold dataItem
  split
  · next hout =>
      -- the kind is not one of those that are walked over
      refine ⟨hinside.saves, hinside.idle, hunpopped, hcounted, fun p => ?_⟩
      have hrest := hbits p
      rw [within, decide_eq_false (not_not_intro hout), Bool.false_and, if_neg Bool.false_ne_true,
        Nat.zero_add] at hrest
      exact hrest
  next hin =>
  have hwithin (p : HidKind → Int32 → Bool) (report : Int32) :
      within kindset p retkind report = p retkind report := by
    rw [within, decide_eq_true hin, Bool.true_and]
  split
  · next hvariable =>
      split
      · next r hr => exact listUsages_meets hr
      · next next hnext =>
          have halike := listUsages_alike hnext
          have hpositive : 0 < s.cur.other.reportCount := by
            have hfield := hinside.counted
            rw [ShortItem.roles, List.map_cons, ShortItem.role_of_dataKind hi, hcount] at hfield
            exact hfield.1 (decide_eq_true hvariable)
          have hmax : next.multimax = s.cur.other.reportCount := halike.multimax
          have hmulti : next.multi = 0 := halike.multi
          have hnextKind : next.cur.kind = retkind := halike.kind
          have hreport : next.cur.other.reportId = s.cur.other.reportId := halike.reportId
          have hsize : next.cur.other.reportSize = s.cur.other.reportSize := halike.reportSize
          have hfields : next.multimax ≠ 0 := by
            rw [hmax]
            intro hzero
            rw [hzero] at hpositive
            exact absurd hpositive (by decide)
          have hlayout : layoutOf next = layoutOf s := by
            unfold layoutOf
            rw [if_neg hfields, if_pos hinside.idle, hmax, hreport, hsize]
          apply top_sized
          refine ⟨fun c hc => hinside.saves c (halike.savedcoll ▸ hc),
            fun _ => ⟨hnextKind ▸ hkind, halike.reportCount⟩, hunpopped, hlayout ▸ hcounted,
            fun p => ?_⟩
          have hwidth : (layoutOf s).width i =
              s.cur.other.reportCount.toInt.toNat * s.cur.other.reportSize.toUInt32.toNat := by
            rw [Layout.width, if_pos hvariable, hcount]
            rfl
          have hrest := hbits p
          rw [hwithin, hwidth] at hrest
          have hne : s.cur.other.reportCount ≠ 0 := hmax ▸ hfields
          rw [pendingBits, hlayout, hnextKind, hreport, hmax, hmulti, hsize, Int32.toInt_zero,
            Int.sub_zero]
          simpa only [hne, ne_eq, not_false_eq_true, true_and] using hrest
  · next harray =>
      have halike := takeMinimum_alike (markItem retkind i.data.value s)
      generalize takeMinimum (markItem retkind i.data.value s) = next at halike ⊢
      have hnextKind : next.cur.kind = retkind := halike.kind
      have hreport : next.cur.other.reportId = s.cur.other.reportId := halike.reportId
      have hsize : next.cur.other.reportSize = s.cur.other.reportSize := halike.reportSize
      have hreportCount : next.cur.other.reportCount = s.cur.other.reportCount :=
        halike.reportCount
      have hmax : next.multimax = 0 := halike.multimax.trans hinside.idle
      have hlayout : layoutOf next = layoutOf s := by
        unfold layoutOf
        rw [if_pos hmax, if_pos hinside.idle, hsize, hreportCount, hreport]
      have hwidth : (layoutOf s).width i =
          (s.cur.other.reportSize * s.cur.other.reportCount).toUInt32.toNat := by
        rw [Layout.width, if_neg harray, hcount]
        rfl
      have hspan : (placed next).span = (layoutOf s).width i := by
        rw [hwidth, ← hsize, ← hreportCount]
        exact if_pos (hnextKind ▸ hkind)
      have hinsideNext : SizedInside kindset total (done ++ [placed next]) items next := by
        refine ⟨fun c hc => hinside.saves c (halike.savedcoll ▸ hc), hmax, hunpopped,
          hlayout ▸ hcounted, fun p => ?_⟩
        have hplacedKind : (placed next).kind = retkind := hnextKind
        have hplacedReport : (placed next).other.reportId = s.cur.other.reportId := hreport
        have hrest := hbits p
        rw [hwithin] at hrest
        rw [deliveredBits_append_singleton, hspan, hplacedKind, hplacedReport, hlayout,
          Nat.add_assoc]
        exact hrest
      exact ⟨SizedInside.between ⟨hinsideNext.saves, hinsideNext.idle, hinsideNext.unpopped,
        hinsideNext.counted, hinsideNext.bits⟩, fun _ => rfl⟩

theorem collectionItem_sized (dval : UInt32) (hi : i.type = .main) (hdata : i.dataKind? = none)
    (hinside : SizedInside kindset total done (i :: items) s) :
    (collectionItem dval s).Meets (SizedInside kindset total done items)
      (SizedItem kindset total done items) := by
  have hsaves := savesCollection_saveCollection dval s
  have hnext : SizedInside kindset total done items
      (saveCollection (openCollection dval s) s) :=
    hinside.step hdata hsaves rfl (Layout.read_main hi).symm
  unfold collectionItem
  split
  · next c hsaved =>
      exact sizedItem_other (h := withReport _ c) hnext.between (hinside.saves c hsaved)
  · exact hnext

theorem endCollectionItem_sized (hi : i.type = .main) (hdata : i.dataKind? = none)
    (hinside : SizedInside kindset total done (i :: items) s) :
    (endCollectionItem s).Meets (SizedInside kindset total done items)
      (SizedItem kindset total done items) := by
  unfold endCollectionItem
  split
  · next c hsaved =>
      have hnext : SizedInside kindset total done items { s with savedcoll := none } :=
        hinside.step hdata (savesCollection_none s) rfl (Layout.read_main hi).symm
      exact sizedItem_other (h := withReport _ c) hnext.between (hinside.saves c hsaved)
  · have hnext : SizedInside kindset total done items
        { s with cur := closeCollection s, nusage := 0 } :=
      hinside.step hdata (fun c hc => hinside.saves c hc) rfl (Layout.read_main hi).symm
    exact sizedItem_other (h := closeCollection s) hnext.between rfl

theorem globalItem_sized (hi : i.type = .global)
    (hinside : SizedInside kindset total done (i :: items) s) :
    (globalItem (UInt8.ofNat i.tag.val) i.data.size i.data.value s).Meets
      (SizedInside kindset total done items) (SizedItem kindset total done items) := by
  have hdata : i.dataKind? = none := by simp [ShortItem.dataKind?, hi]
  unfold globalItem
  rw [i.toNat_tag]
  split
  case h_12 hpop =>
    exact absurd ⟨hi, Fin.ext hpop⟩ (hinside.unpopped i List.mem_cons_self)
  case h_13 => trivial
  all_goals
    next htag =>
      refine hinside.step hdata ?_ ?_ ?_
      · intro c hc
        exact hinside.saves c hc
      · simp
      · simp [Layout.read, layoutOf, hi, htag, hinside.idle]

theorem process_sized (hinside : SizedInside kindset total done (i :: items) s) :
    (i.process front kindset s).Meets (SizedInside kindset total done items)
      (SizedItem kindset total done items) := by
  unfold ShortItem.process parseItem
  cases htype : i.type with
  | main =>
      show (mainItem _ _ _ _ _).Meets _ _
      unfold mainItem
      rw [i.toNat_tag]
      split
      · next htag =>
          exact dataItem_sized rfl (by simp [ShortItem.dataKind?, htype, htag]) hinside
      · next htag =>
          exact dataItem_sized rfl (by simp [ShortItem.dataKind?, htype, htag]) hinside
      · next htag =>
          exact collectionItem_sized _ htype (by simp [ShortItem.dataKind?, htag]) hinside
      · next htag =>
          exact dataItem_sized rfl (by simp [ShortItem.dataKind?, htype, htag]) hinside
      · next htag =>
          exact endCollectionItem_sized htype (by simp [ShortItem.dataKind?, htag]) hinside
      · trivial
  | global => exact globalItem_sized htype hinside
  | locals =>
      show (localItem _ _ _).Meets _ _
      have hdata : i.dataKind? = none := by simp [ShortItem.dataKind?, htype]
      refine localItem_meets fun after halike => ?_
      refine hinside.step hdata (fun c hc => hinside.saves c (halike.savedcoll ▸ hc))
        halike.multimax ?_
      rw [Layout.read_locals htype]
      unfold layoutOf
      rw [halike.multimax, halike.reportSize, halike.reportCount, halike.reportId]

theorem sizedBetween_start (hpop : ∀ i ∈ items, ¬ i.IsPop)
    (hcounted : FieldsCounted 0 (ShortItem.roles items)) :
    SizedBetween kindset (fun p => declaredBits (within kindset p) Layout.initial items) [] items
      (hidStartParse (ShortItem.encodeAll items)) := by
  refine ⟨fun c hc => ?_, fun hfields => absurd rfl hfields, hpop, hcounted, fun p => ?_⟩
  · cases hc
  · rw [pendingBits_of_idle rfl, Nat.zero_add]
    exact Nat.zero_add _

/-! ## The calls -/

variable (front) in
/-- One call lays out what it delivers, and takes its bits from those that are declared. -/
theorem hidGetItemRaw_sized (hlaid : LaidBetween done items s)
    (hsized : SizedBetween kindset total done items s)
    (hrest : s.rest = ShortItem.encodeAll items) :
    (hidGetItemRaw front kindset s).Meets items
      (fun left after => LaidInside done left after ∧ SizedInside kindset total done left after)
      (fun left h after => LaidItem done left h after ∧
        SizedItem kindset total done left h after) := by
  have htop (left : List ShortItem) (s : ParseState)
      (hs : LaidBetween done left s ∧ SizedBetween kindset total done left s) :
      (top front s).Meets
        (fun after => LaidInside done left after ∧ SizedInside kindset total done left after)
        (fun h after => LaidItem done left h after ∧
          SizedItem kindset total done left h after) :=
    (top_laid hs.1).and (top_sized hs.2)
  apply hidGetItemRaw_rule htop _ ⟨hlaid, hsized⟩ hrest
  intro i left s hs
  have hread : LaidInside done (i :: left) { s with rest := ShortItem.encodeAll left } :=
    ⟨hs.1.laid, hs.1.saves, hs.1.idle⟩
  have hreadSized :
      SizedInside kindset total done (i :: left) { s with rest := ShortItem.encodeAll left } :=
    ⟨hs.2.saves, hs.2.idle, hs.2.unpopped, hs.2.counted, hs.2.bits⟩
  exact (process_laid hread).and (process_sized hreadSized)

/-- The state behind a call that delivers an item. -/
structure Delivers (kindset : Int32) (total : (HidKind → Int32 → Bool) → ℕ)
    (done : List ReportItem) (left : List ShortItem) (h : ReportItem) (after : ParseState) :
    Prop where
  rest : after.rest = ShortItem.encodeAll left
  laid : LaidBetween (done ++ [h]) left after
  sized : SizedBetween kindset total (done ++ [h]) left after
  report : h.kind.isData = true → h.other.reportId = after.cur.other.reportId
  place : h.kind.isData = true → h.other.pos.toNat = usedBits h.kind h.other.reportId done

theorem delivers_of_item (hlaid : LaidBetween done items s)
    (hsized : SizedBetween kindset total done items s)
    (hrest : s.rest = ShortItem.encodeAll items) (hroom : total (fun _ _ => true) < 2 ^ 32)
    (hcall : hidGetItemRaw front kindset s = .item h after) :
    ∃ left, Delivers kindset total done left h after := by
  have hmeets := hidGetItemRaw_sized front hlaid hsized hrest
  rw [hcall] at hmeets
  obtain ⟨left, -, hleft, hnew, hcounted⟩ := hmeets
  have hfits : totalBits (done ++ [h]) < 2 ^ 32 := by
    have hbits := hcounted.1.bits fun _ _ => true
    rw [deliveredBits_all] at hbits
    omega
  exact ⟨left, hleft, hnew.2 hfits, hcounted.1, hcounted.2, hnew.1⟩

/-- A walk lays out its items, and delivers all bits that are declared. -/
theorem Parses.sized {l : List ReportItem} (hparses : Parses front kindset s l)
    (hlaid : LaidBetween done items s) (hsized : SizedBetween kindset total done items s)
    (hall : AllLaid done) (hrest : s.rest = ShortItem.encodeAll items)
    (hroom : total (fun _ _ => true) < 2 ^ 32) :
    AllLaid (done ++ l) ∧ ∀ p, deliveredBits p (done ++ l) = total p := by
  induction hparses generalizing done items with
  | done hcall =>
      have hmeets := hidGetItemRaw_sized front hlaid hsized hrest
      rw [hcall] at hmeets
      rw [List.append_nil]
      exact ⟨hall, hmeets.2.bits⟩
  | item hcall _ ih =>
      obtain ⟨left, hdelivers⟩ := delivers_of_item hlaid hsized hrest hroom hcall
      rw [List.append_cons]
      exact ih hdelivers.laid hdelivers.sized (hall.append_singleton hdelivers.place)
        hdelivers.rest

/-- The position that {lit}`hid_report_size` takes is the end of the items of the report. -/
theorem sizeLoop_of_parses {k : HidKind} (id : Int32) {l : List ReportItem}
    (hk : k.isData = true) (hparses : Parses front (1 <<< k.code) s l)
    (hlaid : LaidBetween done items s) (hsized : SizedBetween (1 <<< k.code) total done items s)
    (hrest : s.rest = ShortItem.encodeAll items) (hroom : total (fun _ _ => true) < 2 ^ 32)
    {calls : ℕ} (hcalls : l.length < calls) (h : ReportItem) (size : UInt32)
    (hsize : size.toNat = usedBits k id done) :
    ∃ n, sizeLoop front k id calls h size s = some n ∧ n.toNat = usedBits k id (done ++ l) := by
  induction hparses generalizing done items calls h size with
  | done hcall =>
      rw [List.append_nil]
      refine ⟨size, ?_, hsize⟩
      cases calls with
      | zero => exact absurd hcalls (Nat.not_lt_zero _)
      | succ calls => rw [sizeLoop, hcall]
  | @item s after new l hcall _ ih =>
      obtain ⟨left, hdelivers⟩ := delivers_of_item hlaid hsized hrest hroom hcall
      -- the body of the loop
      have hbody : (if new.other.reportId = id ∧ new.kind = k then after.kindpos k
          else size).toNat = usedBits k id (done ++ [new]) := by
        split
        · next hmatch =>
            have hreport : after.cur.other.reportId = id :=
              (hdelivers.report (hmatch.2 ▸ hk)).symm.trans hmatch.1
            rw [hdelivers.laid.laid.reached k, hreport]
        · next hmismatch =>
            have hother : ¬ new.belongs k id = true := by
              simp only [ReportItem.belongs, Bool.and_eq_true, decide_eq_true_eq]
              exact fun hboth => hmismatch hboth.symm
            rw [usedBits_append_singleton, if_neg hother, Nat.add_zero, hsize]
      rw [List.append_cons]
      cases calls with
      | zero => exact absurd hcalls (Nat.not_lt_zero _)
      | succ calls =>
          have hless : l.length < calls := Nat.lt_of_succ_lt_succ hcalls
          rw [sizeLoop, hcall]
          dsimp only
          split
          · exact ih hdelivers.laid hdelivers.sized hdelivers.rest hless new _ hbody
          · next hskipped =>
              -- it is an item of another report
              have hmismatch : ¬ (new.other.reportId = id ∧ new.kind = k) :=
                fun hmatch => hskipped (Or.inl hmatch.1)
              rw [if_neg hmismatch] at hbody
              exact ih hdelivers.laid hdelivers.sized hdelivers.rest hless new _ hbody

end

/-! ## The size -/

/-- The bytes that hold some bits, if they are not too many. -/
theorem toInt_bytes (bits : UInt32) (hbits : bits.toNat + 7 < 2 ^ 31) :
    ((bits.toInt32 + 7) / 8).toInt = ((bits.toNat + 7) / 8 : ℕ) := by
  have hvalue : bits.toInt32.toInt = bits.toNat := by
    show bits.toBitVec.toInt = _
    rw [BitVec.toInt_eq_toNat_of_lt (by show 2 * bits.toNat < 2 ^ 32; omega)]
    rfl
  have hsum : (bits.toInt32 + 7).toInt = (bits.toNat + 7 : ℕ) := by
    rw [Int32.toInt_add, hvalue, show (7 : Int32).toInt = 7 from rfl, Int.bmod_eq_of_le]
    all_goals omega
  have height : (8 : Int32).toInt = 8 := rfl
  rw [Int32.toInt_div, hsum, height, Int.tdiv_eq_ediv_of_nonneg (by omega), Int.bmod_eq_of_le]
  all_goals omega

/-- A descriptor whose declarations say where the data lies: no report is given twice, nothing is
popped, variable items have fields, and there are not too many bits. -/
structure LaidOut (items : List ShortItem) : Prop where
  once : (0 :: ShortItem.reportIds items).Nodup
  unpopped : ∀ i ∈ items, ¬ i.IsPop
  counted : FieldsCounted 0 (ShortItem.roles items)
  room : declaredBits (fun _ _ => true) Layout.initial items + 7 < 2 ^ 31

/-- The declared bits of one kind in one report. -/
def reportBits (items : List ShortItem) (k : HidKind) (id : Int32) : ℕ :=
  declaredBits (only k id) Layout.initial items

section

variable {items : List ShortItem} {front : ParseState → UInt32} {kindset : Int32} {k : HidKind}
  {l : List ReportItem} {h : ReportItem}

namespace LaidOut

theorem within_lt (hitems : LaidOut items) (kindset : Int32) :
    declaredBits (within kindset fun _ _ => true) Layout.initial items < 2 ^ 32 := by
  have hle := declaredBits_mono (p := within kindset fun _ _ => true) (q := fun _ _ => true)
    (fun _ _ _ => rfl) Layout.initial items
  have hroom := hitems.room
  omega

/-- A walk over some kinds lays out its items, and delivers the declared bits of each of them. -/
theorem sized (hitems : LaidOut items)
    (hparses : Parses front kindset (hidStartParse (ShortItem.encodeAll items)) l) :
    AllLaid l ∧ ∀ (k : HidKind) (id : Int32), kindset &&& (1 <<< k.code) ≠ 0 →
      usedBits k id l = reportBits items k id := by
  have hstart : AllLaid [] := fun j h hj => by cases hj
  obtain ⟨hall, hbits⟩ := hparses.sized (laidBetween_start hitems.once hitems.unpopped)
    (sizedBetween_start hitems.unpopped hitems.counted) hstart rfl (hitems.within_lt kindset)
  refine ⟨hall, fun k id hin => ?_⟩
  have hone := hbits (only k id)
  rw [within_only hin] at hone
  exact hone

/-- An item of a report ends in front of the end of its bits. -/
theorem end_le (hitems : LaidOut items)
    (hparses : Parses front kindset (hidStartParse (ShortItem.encodeAll items)) l)
    (hin : kindset &&& (1 <<< h.kind.code) ≠ 0) (hdata : h.kind.isData = true) (hmem : h ∈ l) :
    h.hpos.toNat + h.span ≤ reportBits items h.kind h.other.reportId := by
  obtain ⟨hall, hbits⟩ := hitems.sized hparses
  obtain ⟨j, hj⟩ := List.mem_iff_getElem?.mp hmem
  have hbelongs : h.belongs h.kind h.other.reportId = true := by simp [ReportItem.belongs]
  have hend := usedBits_take_lt hj hbelongs (List.getElem?_eq_some_iff.mp hj).1
  rw [List.take_length, hbits h.kind h.other.reportId hin] at hend
  rw [hall j h hj hdata]
  exact hend

end LaidOut

end

theorem and_shift_self (k : HidKind) : (1 <<< k.code : Int32) &&& (1 <<< k.code) ≠ 0 := by
  cases k <;> decide

section

variable {front : ParseState → UInt32} {items : List ShortItem} {k : HidKind}
  {l : List ReportItem} {calls : ℕ}

/-- What is computed from the end of the last item. -/
theorem LaidOut.hidReportSize_eq (hitems : LaidOut items) (id : Int32) (hk : k.isData = true)
    (hparses : Parses front (1 <<< k.code) (hidStartParse (ShortItem.encodeAll items)) l)
    (hcalls : l.length < calls) :
    ∃ size, hidReportSize front (ShortItem.encodeAll items) k id calls = some size ∧
      size.toInt = ((reportBits items k id + 7) / 8 : ℕ) := by
  obtain ⟨n, hloop, hn⟩ := sizeLoop_of_parses id hk hparses
    (laidBetween_start hitems.once hitems.unpopped)
    (sizedBetween_start hitems.unpopped hitems.counted) rfl (hitems.within_lt _) hcalls
    ⟨.input, 0, 0, default⟩ 0 rfl
  rw [List.nil_append, (hitems.sized hparses).2 k id (and_shift_self k)] at hn
  have hle : reportBits items k id ≤ declaredBits (fun _ _ => true) Layout.initial items :=
    declaredBits_mono (fun _ _ _ => rfl) _ _
  have hroom := hitems.room
  have hsize := toInt_bytes n (by omega)
  rw [hn] at hsize
  refine ⟨(n.toInt32 + 7) / 8, ?_, hsize⟩
  rw [hidReportSize, hloop]
  rfl

end

/-- If a descriptor is laid out by its declarations, {lit}`hid_report_size` is the number of bytes
that hold the declared bits of a report.  Every item of the report, in whatever walk over its
kind it is delivered, ends in front of the end of these bytes. -/
theorem hidReportSize_covers (front : ParseState → UInt32) (items : List ShortItem) (k : HidKind)
    (id : Int32) (l : List ReportItem) (hk : k.isData = true) (hitems : LaidOut items)
    (hparses : Parses front (1 <<< k.code) (hidStartParse (ShortItem.encodeAll items)) l)
    (calls : ℕ) (hcalls : l.length < calls) :
    ∃ size, hidReportSize front (ShortItem.encodeAll items) k id calls = some size ∧
      size.toInt = ((reportBits items k id + 7) / 8 : ℕ) ∧
      ∀ (front' : ParseState → UInt32) (kindset : Int32) (l' : List ReportItem),
        Parses front' kindset (hidStartParse (ShortItem.encodeAll items)) l' →
        kindset &&& (1 <<< k.code) ≠ 0 → ∀ h ∈ l', h.belongs k id = true →
          h.hpos.toNat + h.span ≤ 8 * size.toInt.toNat := by
  obtain ⟨size, hresult, hsize⟩ := hitems.hidReportSize_eq id hk hparses hcalls
  refine ⟨size, hresult, hsize, ?_⟩
  intro front' kindset l' hwalk hin h hmem hbelongs
  simp only [ReportItem.belongs, Bool.and_eq_true, decide_eq_true_eq] at hbelongs
  obtain ⟨rfl, rfl⟩ := hbelongs
  have hend := hitems.end_le hwalk hin hk hmem
  rw [hsize]
  omega

/-- Two bytes of a feature report, and one of another report. -/
theorem hidReportSize_covers_twoBytes :
    ∃ size, hidReportSize (fun _ => 0) (ShortItem.encodeAll
      [⟨.global, 8, .one 1⟩, ⟨.global, 7, .one 8⟩, ⟨.global, 9, .one 2⟩, ⟨.main, 11, .one 2⟩,
        ⟨.global, 8, .one 2⟩, ⟨.main, 11, .none⟩]) .feature 1 4 = some size ∧ size.toInt = 2 := by
  have hparses : Parses (fun _ => 0) (1 <<< HidKind.feature.code) (hidStartParse
      (ShortItem.encodeAll [⟨.global, 8, .one 1⟩, ⟨.global, 7, .one 8⟩, ⟨.global, 9, .one 2⟩,
        ⟨.main, 11, .one 2⟩, ⟨.global, 8, .one 2⟩, ⟨.main, 11, .none⟩])) _ :=
    .item rfl (.item rfl (.item rfl (.done rfl)))
  obtain ⟨size, hsize, hbytes, -⟩ := hidReportSize_covers (fun _ => 0)
    [⟨.global, 8, .one 1⟩, ⟨.global, 7, .one 8⟩, ⟨.global, 9, .one 2⟩, ⟨.main, 11, .one 2⟩,
      ⟨.global, 8, .one 2⟩, ⟨.main, 11, .none⟩] .feature 1 _ rfl
    ⟨by decide, by decide, ⟨fun _ => by decide, fun h => (by cases h), trivial⟩, by decide⟩
    hparses 4 (by decide)
  exact ⟨size, hsize, hbytes⟩

end Apcupsd
