import Apcupsd.Usb.HidData

/-!
# Parsing a report descriptor

{lit}`hid_get_item_raw` reads the items of a descriptor and delivers what they describe.  A
descriptor is the bytes from the position of the parser to the end; what stands in front of the
list of usages is a parameter, since an item without a usage reads it.

Main results:

- Theorem {lit}`readItem_encode`: a short item is read back from its bytes.
- Theorem {lit}`hidGetItemRaw_rule`: what holds between calls holds behind a call if every item
  that is read keeps it.
- Theorem {lit}`itemLoop_of_le`: the loop over the bytes comes to an end.
-/

namespace Apcupsd

/-! ## The state -/

/-- {lit}`MAXUSAGE`. -/
def maxUsage : ℕ := 100

/-- {lit}`struct hid_data`; {lit}`pushed` is what {lit}`cur.next` leads to. -/
structure ParseState where
  rest : List UInt8
  cur : ReportItem
  pushed : List ReportItem
  usages : List UInt32
  nusage : ℕ
  minset : Bool
  logminsize : ℕ
  multi : Int32
  multimax : Int32
  savedcoll : Option ReportItem
  kindpos : HidKind → UInt32

/-- What a call of {lit}`hid_get_item_raw` comes to.  It is astray where it reads or writes what
is not its own, and endless where a range of usages ends with the last number there is. -/
inductive RawResult where
  | item (h : ReportItem) (s : ParseState)
  | done (s : ParseState)
  | error (code : Int32) (s : ParseState)
  | astray
  | endless

/-- What an item of the descriptor leads to: the next one, or the end of the call. -/
inductive Turn where
  | next (s : ParseState)
  | returns (r : RawResult)

/-- {lit}`hid_start_parse`. -/
def hidStartParse (data : List UInt8) : ParseState where
  rest := data
  cur := ⟨.input, 0, 0, default⟩
  pushed := []
  usages := List.replicate maxUsage 0
  nusage := 0
  minset := false
  logminsize := 0
  multi := 0
  multimax := 0
  savedcoll := none
  kindpos := fun _ => 0

/-- {lit}`hid_clear_local`. -/
def hidClearLocal (c : ReportItem) : ReportItem :=
  { c with
    usage := 0
    other := { c.other with
      usageMinimum := 0
      usageMaximum := 0
      designatorIndex := 0
      designatorMinimum := 0
      designatorMaximum := 0
      stringIndex := 0
      stringMinimum := 0
      stringMaximum := 0
      setDelimiter := 0 } }

/-- Change a field of {lit}`cur`. -/
def ParseState.edit (s : ParseState) (f : ItemData → ItemData) : ParseState :=
  { s with cur := { s.cur with other := f s.cur.other } }

section

variable (s : ParseState) (f : ItemData → ItemData)

@[simp] theorem ParseState.edit_kindpos : (s.edit f).kindpos = s.kindpos :=
  rfl

@[simp] theorem ParseState.edit_multimax : (s.edit f).multimax = s.multimax :=
  rfl

@[simp] theorem ParseState.edit_savedcoll : (s.edit f).savedcoll = s.savedcoll :=
  rfl

@[simp] theorem ParseState.edit_collection : (s.edit f).cur.collection = s.cur.collection :=
  rfl

@[simp] theorem ParseState.edit_other : (s.edit f).cur.other = f s.cur.other :=
  rfl

end

/-! ## Reading an item -/

/-- An item of the descriptor.  A long item leaves the type of the item before; the value is
missing if there is no number of this size. -/
structure RawItem where
  tag : UInt8
  type : Option UInt8
  size : ℕ
  value : Option UInt32

/-- The value of an item, unless it goes past the end. -/
def readValue (size : ℕ) (data : List UInt8) : Option (Option UInt32) :=
  match size with
  | 0 => some (some 0)
  | 1 => match data with
      | a :: _ => some (some a.toUInt32)
      | _ => none
  | 2 => match data with
      | a :: b :: _ => some (some (a.toUInt32 ||| b.toUInt32 <<< 8))
      | _ => none
  | 4 => match data with
      | a :: b :: c :: d :: _ =>
          some (some (a.toUInt32 ||| b.toUInt32 <<< 8 ||| c.toUInt32 <<< 16 |||
            d.toUInt32 <<< 24))
      | _ => none
  | _ => some none

/-- Read the item that begins with a byte. -/
def readItem (b : UInt8) (rest : List UInt8) : Option (RawItem × List UInt8) :=
  if b = 0xfe then
    match rest with
    | lo :: hi :: tag :: data =>
        let size := lo.toNat + 256 * hi.toNat
        (readValue size data).map fun value => (⟨tag, none, size, value⟩, data.drop size)
    | _ => none
  else
    let size := if b &&& 3 = 3 then 4 else (b &&& 3).toNat
    (readValue size rest).map fun value =>
      (⟨b >>> 4, some ((b >>> 2) &&& 3), size, value⟩, rest.drop size)

/-! ## What the items do -/

/-- A saved collection, with the report that is now known. -/
def withReport (id : Int32) (saved : ReportItem) : ReportItem :=
  { saved with other := { saved.other with reportId := id } }

/-- {lit}`REPORT_SAVED_COLL`. -/
def reportSavedColl (s : ParseState) (saved : ReportItem) : Turn :=
  .returns (.item (withReport s.cur.other.reportId saved) { s with savedcoll := none })

/-- A minimum that is not below the maximum is taken as signed. -/
def signMinimum (s : ParseState) : ParseState :=
  if s.cur.other.logicalMaximum ≤ s.cur.other.logicalMinimum then
    if s.logminsize = 1 then
      s.edit fun d => { d with logicalMinimum := d.logicalMinimum.toInt8.toInt32 }
    else if s.logminsize = 2 then
      s.edit fun d => { d with logicalMinimum := d.logicalMinimum.toInt16.toInt32 }
    else s
  else s

/-- {lit}`usages[min(s->multi, s->nusage-1)]`; without usages this is the number in front. -/
def nextUsage (front : ParseState → UInt32) (s : ParseState) : UInt32 :=
  if s.nusage = 0 then front s
  else s.usages.getD (min s.multi.toInt.toNat (s.nusage - 1)) 0

/-- {lit}`cur`, at the position that its kind has reached. -/
def placed (s : ParseState) : ReportItem :=
  { s.cur with other := { s.cur.other with pos := s.kindpos s.cur.kind } }

/-- The position of the kind moves behind an item. -/
def advance (width : UInt32) (s : ParseState) : ParseState :=
  { s with kindpos := Function.update s.kindpos s.cur.kind (s.kindpos s.cur.kind + width) }

/-- The next field of a variable item. -/
def takeField (front : ParseState → UInt32) (s : ParseState) : ParseState :=
  { s with cur := { s.cur with usage := nextUsage front s }, multi := s.multi + 1 }

/-- Behind the last field of a variable item. -/
def endFields (s : ParseState) : ParseState :=
  { s with
    multimax := 0
    nusage := 0
    cur := hidClearLocal
      { s.cur with other := { s.cur.other with reportCount := s.multimax } } }

/-- What stands behind the label {lit}`top`: one of the fields of a variable item. -/
def top (front : ParseState → UInt32) (s : ParseState) : Turn :=
  if s.multimax = 0 then .next s
  else match s.savedcoll with
    | some saved => reportSavedColl s saved
    | none =>
        if (signMinimum s).multi < (signMinimum s).multimax then
          .returns (.item (placed (takeField front (signMinimum s)))
            (advance (signMinimum s).cur.other.reportSize.toUInt32
              (takeField front (signMinimum s))))
        else .next (endFields (signMinimum s))

/-- The loop that lists a range of usages, for a number of turns.  It fails where it writes
behind the list. -/
def fillUsages : ℕ → UInt32 → List UInt32 → ℕ → Option (List UInt32 × ℕ)
  | 0, _, usages, nusage => some (usages, nusage)
  | turns + 1, i, usages, nusage =>
      if nusage < maxUsage then
        fillUsages turns (i + 1) (usages.set nusage i)
          (if nusage < maxUsage - 1 then nusage + 1 else nusage)
      else none

/-- The usages from {lit}`usage_minimum` to {lit}`usage_maximum`. -/
def listUsages (s : ParseState) : Turn :=
  if s.minset then
    if s.cur.other.usageMinimum ≤ s.cur.other.usageMaximum ∧
        s.cur.other.usageMaximum = 0xffffffff then
      .returns (if s.nusage < maxUsage then .endless else .astray)
    else match fillUsages (s.cur.other.usageMaximum.toNat + 1 - s.cur.other.usageMinimum.toNat)
        s.cur.other.usageMinimum s.usages s.nusage with
      | none => .returns .astray
      | some (usages, nusage) =>
          .next { s.edit fun d => { d with usageMinimum := 0, usageMaximum := 0 } with
            usages := usages, nusage := nusage, minset := false }
  else .next s

/-- The item gets its kind and flags. -/
def markItem (retkind : HidKind) (dval : UInt32) (s : ParseState) : ParseState :=
  { s with cur := { s.cur with kind := retkind, other := { s.cur.other with flags := dval } } }

/-- The fields of a variable item are counted from here. -/
def startFields (s : ParseState) : ParseState :=
  { s.edit fun d => { d with reportCount := 1 } with
    multimax := s.cur.other.reportCount, multi := 0 }

/-- An item that is not variable takes the lowest usage of the range. -/
def takeMinimum (s : ParseState) : ParseState :=
  if s.minset then { s with cur := { s.cur with usage := s.cur.other.usageMinimum } } else s

/-- An item that is not variable is delivered at once. -/
def arrayItem (s : ParseState) : Turn :=
  .returns (.item (placed s)
    { advance (s.cur.other.reportSize * s.cur.other.reportCount).toUInt32 s with
      cur := hidClearLocal s.cur, minset := false })

/-- The label {lit}`ret`: an input, output or feature item. -/
def dataItem (front : ParseState → UInt32) (kindset : Int32) (retkind : HidKind) (dval : UInt32)
    (s : ParseState) : Turn :=
  if kindset &&& (1 <<< retkind.code) = 0 then .next { s with nusage := 0 }
  else if dval &&& 2 ≠ 0 then
    match listUsages (startFields (markItem retkind dval s)) with
    | .returns r => .returns r
    | .next after => top front after
  else arrayItem (takeMinimum (markItem retkind dval s))

/-- {lit}`cur` becomes the collection. -/
def openCollection (dval : UInt32) (s : ParseState) : ReportItem :=
  { s.cur with
    kind := .collection
    collection := dval.toInt32
    other := { s.cur.other with collevel := s.cur.other.collevel + 1 } }

/-- A collection is saved until its report is known. -/
def saveCollection (c : ReportItem) (s : ParseState) : ParseState :=
  { s with cur := hidClearLocal c, nusage := 0, savedcoll := some c }

/-- A collection item. -/
def collectionItem (dval : UInt32) (s : ParseState) : Turn :=
  match s.savedcoll with
  | some saved =>
      .returns (.item (withReport s.cur.other.reportId saved)
        (saveCollection (openCollection dval s) s))
  | none => .next (saveCollection (openCollection dval s) s)

/-- {lit}`cur` becomes the end of the collection. -/
def closeCollection (s : ParseState) : ReportItem :=
  { s.cur with
    kind := .endcollection
    other := { s.cur.other with collevel := s.cur.other.collevel - 1 } }

/-- An item that ends a collection. -/
def endCollectionItem (s : ParseState) : Turn :=
  match s.savedcoll with
  | some saved => reportSavedColl s saved
  | none => .returns (.item (closeCollection s) { s with cur := closeCollection s, nusage := 0 })

/-- The main items. -/
def mainItem (front : ParseState → UInt32) (kindset : Int32) (tag : UInt8) (dval : UInt32)
    (s : ParseState) : Turn :=
  match tag.toNat with
  | 8 => dataItem front kindset .input dval s
  | 9 => dataItem front kindset .output dval s
  | 10 => collectionItem dval s
  | 11 => dataItem front kindset .feature dval s
  | 12 => endCollectionItem s
  | _ => .returns (.error (-2) s)

/-- The global items. -/
def globalItem (tag : UInt8) (size : ℕ) (dval : UInt32) (s : ParseState) : Turn :=
  match tag.toNat with
  | 0 => .next (s.edit fun d => { d with usagePage := dval <<< 16 })
  | 1 => .next { s.edit fun d => { d with logicalMinimum := dval.toInt32 } with
      logminsize := size }
  | 2 => .next (s.edit fun d => { d with logicalMaximum := dval.toInt32 })
  | 3 => .next (s.edit fun d => { d with physicalMinimum := dval.toInt32 })
  | 4 => .next (s.edit fun d => { d with physicalMaximum := dval.toInt32 })
  | 5 => .next (s.edit fun d => { d with unitExponent := dval.toInt32 })
  | 6 => .next (s.edit fun d => { d with unit := dval.toInt32 })
  | 7 => .next (s.edit fun d => { d with reportSize := dval.toInt32 })
  | 8 => .next { s.edit fun d => { d with reportId := dval.toInt32 } with kindpos := fun _ => 0 }
  | 9 => .next (s.edit fun d => { d with reportCount := dval.toInt32 })
  | 10 => .next { s with pushed := s.cur :: s.pushed }
  | 11 => match s.pushed with
      | [] => .returns .astray
      | hi :: pushed => .next { s with cur := hi, pushed := pushed }
  | _ => .returns (.error (-3) s)

/-- A usage. -/
def usageItem (dval : UInt32) (s : ParseState) : ParseState :=
  let usage := s.cur.other.usagePage ||| dval
  let s := { s with cur := { s.cur with usage := usage } }
  if s.nusage < maxUsage then
    { s with usages := s.usages.set s.nusage usage, nusage := s.nusage + 1 }
  else s

/-- The local items. -/
def localItem (tag : UInt8) (dval : UInt32) (s : ParseState) : Turn :=
  match tag.toNat with
  | 0 => .next (usageItem dval s)
  | 1 => .next { s.edit fun d => { d with usageMinimum := d.usagePage ||| dval } with
      minset := true }
  | 2 => .next (s.edit fun d => { d with usageMaximum := d.usagePage ||| dval })
  | 3 => .next (s.edit fun d => { d with designatorIndex := dval.toInt32 })
  | 4 => .next (s.edit fun d => { d with designatorMinimum := dval.toInt32 })
  | 5 => .next (s.edit fun d => { d with designatorMaximum := dval.toInt32 })
  | 7 => .next (s.edit fun d => { d with stringIndex := dval.toInt32 })
  | 8 => .next (s.edit fun d => { d with stringMinimum := dval.toInt32 })
  | 9 => .next (s.edit fun d => { d with stringMaximum := dval.toInt32 })
  | 10 => .next (s.edit fun d => { d with setDelimiter := dval.toInt32 })
  | _ => .returns (.error (-4) s)

/-- The switch on the type of an item. -/
def parseItem (front : ParseState → UInt32) (kindset : Int32) (type tag : UInt8) (size : ℕ)
    (dval : UInt32) (s : ParseState) : Turn :=
  match type.toNat with
  | 0 => mainItem front kindset tag dval s
  | 1 => globalItem tag size dval s
  | 2 => localItem tag dval s
  | _ => .returns (.error (-5) s)

/-! ## The calls -/

/-- The loop of {lit}`hid_get_item_raw`, behind an item of type {lit}`bType`; the number bounds
the turns. -/
def itemLoop (front : ParseState → UInt32) (kindset : Int32) : ℕ → UInt8 → ParseState → RawResult
  | 0, _, _ => .endless
  | turns + 1, bType, s =>
      match s.rest with
      | [] => .done s
      | b :: rest => match readItem b rest with
          | none => .astray
          | some (item, rest) =>
              let s := { s with rest := rest }
              let type := item.type.getD bType
              match item.value with
              | none => .error (-1) s
              | some dval => match parseItem front kindset type item.tag item.size dval s with
                  | .returns r => r
                  | .next s => itemLoop front kindset turns type s

/-- {lit}`hid_get_item_raw`. -/
def hidGetItemRaw (front : ParseState → UInt32) (kindset : Int32) (s : ParseState) : RawResult :=
  match top front s with
  | .returns r => r
  | .next s => itemLoop front kindset (s.rest.length + 1) 0 s

/-- {lit}`HID_KIND_ALL`. -/
def hidKindAll : Int32 :=
  (1 <<< HidKind.input.code) ||| (1 <<< HidKind.output.code) ||| (1 <<< HidKind.feature.code) |||
    (1 <<< HidKind.collection.code) ||| (1 <<< HidKind.endcollection.code) |||
    (1 <<< HidKind.output.code)

/-- The first items that the calls of {lit}`LocateItem` are given; with report -1 each call of
{lit}`hid_get_item` is one of {lit}`hid_get_item_raw`. -/
def delivered (front : ParseState → UInt32) (kindset : Int32) : ℕ → ParseState → List ReportItem
  | 0, _ => []
  | n + 1, s => match hidGetItemRaw front kindset s with
      | .item h after => h :: delivered front kindset n after
      | _ => []

/-! ## Short items and their bytes -/

/-- The types of items. -/
inductive ItemType where
  | main
  | global
  | locals
deriving DecidableEq, Repr

/-- {lit}`bType`. -/
def ItemType.code : ItemType → UInt8
  | .main => 0
  | .global => 1
  | .locals => 2

/-- The data of a short item. -/
inductive ShortData where
  | none
  | one (a : UInt8)
  | two (a b : UInt8)
  | four (a b c d : UInt8)
deriving DecidableEq, Repr

namespace ShortData

/-- The number that stands for the size. -/
def code : ShortData → UInt8
  | .none => 0
  | .one _ => 1
  | .two _ _ => 2
  | .four _ _ _ _ => 3

/-- {lit}`bSize`. -/
def size : ShortData → ℕ
  | .none => 0
  | .one _ => 1
  | .two _ _ => 2
  | .four _ _ _ _ => 4

/-- The bytes, the lowest one first. -/
def bytes : ShortData → List UInt8
  | .none => []
  | .one a => [a]
  | .two a b => [a, b]
  | .four a b c d => [a, b, c, d]

/-- {lit}`dval`. -/
def value : ShortData → UInt32
  | .none => 0
  | .one a => a.toUInt32
  | .two a b => a.toUInt32 ||| b.toUInt32 <<< 8
  | .four a b c d => a.toUInt32 ||| b.toUInt32 <<< 8 ||| c.toUInt32 <<< 16 ||| d.toUInt32 <<< 24

end ShortData

/-- A short item of a type that there is. -/
structure ShortItem where
  type : ItemType
  tag : Fin 16
  data : ShortData
deriving DecidableEq, Repr

namespace ShortItem

/-- The first byte. -/
def head (i : ShortItem) : UInt8 :=
  UInt8.ofNat i.tag.val <<< 4 ||| i.type.code <<< 2 ||| i.data.code

/-- The bytes of an item. -/
def encode (i : ShortItem) : List UInt8 :=
  i.head :: i.data.bytes

/-- The bytes of a descriptor. -/
def encodeAll (items : List ShortItem) : List UInt8 :=
  items.flatMap encode

/-- A Pop item. -/
def IsPop (i : ShortItem) : Prop :=
  i.type = .global ∧ i.tag = 11

instance (i : ShortItem) : Decidable i.IsPop :=
  inferInstanceAs (Decidable (_ ∧ _))

/-- What an item does. -/
def process (front : ParseState → UInt32) (kindset : Int32) (i : ShortItem) (s : ParseState) :
    Turn :=
  parseItem front kindset i.type.code (UInt8.ofNat i.tag.val) i.data.size i.data.value s

theorem encodeAll_cons (i : ShortItem) (items : List ShortItem) :
    encodeAll (i :: items) = i.head :: (i.data.bytes ++ encodeAll items) :=
  rfl

/-- What is read from a first byte, for the numbers of the sizes. -/
theorem first_byte (tag : Fin 16) (type : ItemType) (code : Fin 4) :
    let b := UInt8.ofNat tag.val <<< 4 ||| type.code <<< 2 ||| UInt8.ofNat code.val
    b ≠ 0xfe ∧ b >>> 4 = UInt8.ofNat tag.val ∧ (b >>> 2) &&& 3 = type.code ∧
      b &&& 3 = UInt8.ofNat code.val := by
  revert code tag
  cases type <;> decide

theorem head_fields (i : ShortItem) :
    i.head ≠ 0xfe ∧ i.head >>> 4 = UInt8.ofNat i.tag.val ∧ (i.head >>> 2) &&& 3 = i.type.code ∧
      i.head &&& 3 = i.data.code := by
  rw [head]
  cases i.data with
  | none => exact first_byte i.tag i.type 0
  | one a => exact first_byte i.tag i.type 1
  | two a b => exact first_byte i.tag i.type 2
  | four a b c d => exact first_byte i.tag i.type 3

/-- A short item is read back from its bytes. -/
theorem readItem_encode (i : ShortItem) (rest : List UInt8) :
    readItem i.head (i.data.bytes ++ rest) =
      some (⟨UInt8.ofNat i.tag.val, some i.type.code, i.data.size, some i.data.value⟩, rest) := by
  obtain ⟨hlong, htag, htype, hsize⟩ := i.head_fields
  unfold readItem
  rw [if_neg hlong, htag, htype, hsize]
  cases i.data with
  | none => rfl
  | one a => rfl
  | two a b => rfl
  | four a b c d => rfl

@[simp] theorem toNat_tag (i : ShortItem) : (UInt8.ofNat i.tag.val).toNat = i.tag.val := by
  rw [UInt8.toNat_ofNat', Nat.mod_eq_of_lt (by have := i.tag.isLt; omega)]

end ShortItem

/-! ## What is left to be read -/

/-- What an item leads to leaves the bytes behind it as they are; only the end of the bytes ends
the descriptor. -/
def Turn.Keeps (rest : List UInt8) : Turn → Prop
  | .next s => s.rest = rest
  | .returns (.item _ s) => s.rest = rest
  | .returns (.done _) => False
  | .returns _ => True

section

variable {front : ParseState → UInt32} {kindset : Int32} {rest : List UInt8} {s after : ParseState}

theorem signMinimum_rest (s : ParseState) : (signMinimum s).rest = s.rest := by
  unfold signMinimum
  split
  · split
    · rfl
    · split <;> rfl
  · rfl

variable (front) in
theorem top_keeps (s : ParseState) : (top front s).Keeps s.rest := by
  unfold top
  split
  · rfl
  · split
    · rfl
    · split
      · exact signMinimum_rest s
      · exact signMinimum_rest s

theorem listUsages_keeps (s : ParseState) : (listUsages s).Keeps s.rest := by
  unfold listUsages
  split
  · split
    · split <;> trivial
    · split
      · trivial
      · rfl
  · rfl

theorem takeMinimum_rest (s : ParseState) : (takeMinimum s).rest = s.rest := by
  unfold takeMinimum
  split <;> rfl

theorem dataItem_keeps (retkind : HidKind) (dval : UInt32) (s : ParseState) :
    (dataItem front kindset retkind dval s).Keeps s.rest := by
  unfold dataItem
  split
  · rfl
  · split
    · have hlist := listUsages_keeps (startFields (markItem retkind dval s))
      split
      · next r hr =>
          rw [hr] at hlist
          exact hlist
      · next after hafter =>
          rw [hafter] at hlist
          have hrest : after.rest = s.rest := hlist
          exact hrest ▸ top_keeps front after
    · exact takeMinimum_rest _

variable (front kindset) in
theorem parseItem_keeps (type tag : UInt8) (size : ℕ) (dval : UInt32) (s : ParseState) :
    (parseItem front kindset type tag size dval s).Keeps s.rest := by
  unfold parseItem
  split
  · unfold mainItem
    split
    · exact dataItem_keeps _ _ _
    · exact dataItem_keeps _ _ _
    · unfold collectionItem
      split <;> rfl
    · exact dataItem_keeps _ _ _
    · unfold endCollectionItem
      split <;> rfl
    · trivial
  · unfold globalItem
    split
    case h_12 => split <;> trivial
    case h_13 => trivial
    all_goals rfl
  · unfold localItem
    split
    case h_1 =>
      unfold usageItem Turn.Keeps
      dsimp only
      split <;> rfl
    case h_11 => trivial
    all_goals rfl
  · trivial

theorem readItem_length {b : UInt8} {bytes left : List UInt8} {item : RawItem}
    (hread : readItem b bytes = some (item, left)) : left.length ≤ bytes.length := by
  unfold readItem at hread
  split at hread
  · split at hread
    · obtain ⟨value, -, hpair⟩ := Option.map_eq_some_iff.mp hread
      obtain ⟨-, rfl⟩ := Prod.mk.inj hpair
      simp only [List.length_drop, List.length_cons]
      omega
    · cases hread
  · obtain ⟨value, -, hpair⟩ := Option.map_eq_some_iff.mp hread
    obtain ⟨-, rfl⟩ := Prod.mk.inj hpair
    rw [List.length_drop]
    exact Nat.sub_le _ _

/-- Every turn reads a byte, so more turns than there are bytes make no difference. -/
theorem itemLoop_of_le (m n : ℕ) (bType : UInt8) (s : ParseState) (hm : s.rest.length < m)
    (hle : m ≤ n) : itemLoop front kindset n bType s = itemLoop front kindset m bType s := by
  induction m generalizing n bType s with
  | zero => exact absurd hm (Nat.not_lt_zero _)
  | succ m ih =>
      obtain ⟨n, rfl⟩ : ∃ k, n = k + 1 := ⟨n - 1, by omega⟩
      rw [itemLoop, itemLoop]
      cases hrest : s.rest with
      | nil => rfl
      | cons b bytes =>
          dsimp only
          cases hread : readItem b bytes with
          | none => rfl
          | some pair =>
              obtain ⟨item, left⟩ := pair
              dsimp only
              cases item.value with
              | none => rfl
              | some dval =>
                  dsimp only
                  have hkeeps := parseItem_keeps front kindset (item.type.getD bType) item.tag item.size
                    dval { s with rest := left }
                  cases hturn : parseItem front kindset (item.type.getD bType) item.tag item.size
                      dval { s with rest := left } with
                  | returns r => rfl
                  | next next =>
                      rw [hturn] at hkeeps
                      have hnext : next.rest = left := hkeeps
                      have hlength := readItem_length hread
                      rw [hrest, List.length_cons] at hm
                      exact ih n _ next (by rw [hnext]; omega) (by omega)

end

/-! ## Descriptors of short items -/

/-- A turn leaves a state or an item as they should be. -/
def Turn.Meets (inv : ParseState → Prop) (post : ReportItem → ParseState → Prop) : Turn → Prop
  | .next s => inv s
  | .returns (.item h s) => post h s
  | .returns _ => True

theorem Turn.Meets.and {t : Turn} {inv inv' : ParseState → Prop}
    {post post' : ReportItem → ParseState → Prop} (hmeets : t.Meets inv post)
    (hmeets' : t.Meets inv' post') :
    t.Meets (fun s => inv s ∧ inv' s) fun h s => post h s ∧ post' h s := by
  cases t with
  | next s => exact ⟨hmeets, hmeets'⟩
  | returns r =>
      cases r with
      | item h s => exact ⟨hmeets, hmeets'⟩
      | done s => trivial
      | error code s => trivial
      | astray => trivial
      | endless => trivial

/-- So does a call, with some of the items left to be read. -/
def RawResult.Meets (items : List ShortItem) (loop : List ShortItem → ParseState → Prop)
    (post : List ShortItem → ReportItem → ParseState → Prop) : RawResult → Prop
  | .item h s => ∃ left, left <:+ items ∧ s.rest = ShortItem.encodeAll left ∧ post left h s
  | .done s => loop [] s
  | _ => True

theorem RawResult.Meets.mono {items more : List ShortItem} {r : RawResult}
    {inv : List ShortItem → ParseState → Prop}
    {post : List ShortItem → ReportItem → ParseState → Prop}
    (hsuffix : items <:+ more) (hmeets : r.Meets items inv post) : r.Meets more inv post := by
  cases r with
  | item h s =>
      obtain ⟨left, hleft, hrest, hpost⟩ := hmeets
      exact ⟨left, hleft.trans hsuffix, hrest, hpost⟩
  | done s => exact hmeets
  | error code s => trivial
  | astray => trivial
  | endless => trivial

section

variable {front : ParseState → UInt32} {kindset : Int32} {items : List ShortItem} {s : ParseState}
  {inv loop : List ShortItem → ParseState → Prop}
  {post : List ShortItem → ReportItem → ParseState → Prop}

/-- The loop of a call, from a state in which nothing is left to be delivered. -/
theorem itemLoop_rule
    (hitem : ∀ i items s, loop (i :: items) s →
      (i.process front kindset { s with rest := ShortItem.encodeAll items }).Meets
        (loop items) (post items))
    (turns : ℕ) (bType : UInt8) (hloop : loop items s)
    (hrest : s.rest = ShortItem.encodeAll items) :
    (itemLoop front kindset turns bType s).Meets items loop post := by
  induction turns generalizing items s bType with
  | zero => trivial
  | succ turns ih =>
      cases items with
      | nil =>
          have hnil : s.rest = [] := hrest
          rw [itemLoop, hnil]
          exact hloop
      | cons i items =>
          have hturn := hitem i items s hloop
          have hkeeps := parseItem_keeps front kindset i.type.code (UInt8.ofNat i.tag.val)
            i.data.size i.data.value { s with rest := ShortItem.encodeAll items }
          rw [ShortItem.encodeAll_cons] at hrest
          rw [itemLoop, hrest]
          dsimp only
          rw [ShortItem.readItem_encode]
          dsimp only [Option.getD_some]
          unfold ShortItem.process at hturn
          cases hresult : parseItem front kindset i.type.code (UInt8.ofNat i.tag.val) i.data.size
              i.data.value { s with rest := ShortItem.encodeAll items } with
          | next next =>
              rw [hresult] at hturn hkeeps
              exact (ih i.type.code hturn hkeeps).mono (List.suffix_cons i items)
          | returns r =>
              rw [hresult] at hturn hkeeps
              cases r with
              | item h after => exact ⟨items, List.suffix_cons i items, hkeeps, hturn⟩
              | done after => exact hkeeps.elim
              | error code after => trivial
              | astray => trivial
              | endless => trivial

/-- A call first delivers what is left of a variable item, and then reads the descriptor.  If
both keep to what they should leave and deliver, then so does the call. -/
theorem hidGetItemRaw_rule
    (htop : ∀ items s, inv items s → (top front s).Meets (loop items) (post items))
    (hitem : ∀ i items s, loop (i :: items) s →
      (i.process front kindset { s with rest := ShortItem.encodeAll items }).Meets
        (loop items) (post items))
    (hinv : inv items s) (hrest : s.rest = ShortItem.encodeAll items) :
    (hidGetItemRaw front kindset s).Meets items loop post := by
  have hfirst := htop items s hinv
  have hkeeps := top_keeps front s
  rw [hidGetItemRaw]
  cases hturn : top front s with
  | next next =>
      rw [hturn] at hfirst hkeeps
      exact itemLoop_rule hitem _ _ hfirst (Eq.trans hkeeps hrest)
  | returns r =>
      rw [hturn] at hfirst hkeeps
      cases r with
      | item h after => exact ⟨items, List.suffix_refl items, Eq.trans hkeeps hrest, hfirst⟩
      | done after => exact hkeeps.elim
      | error code after => trivial
      | astray => trivial
      | endless => trivial

end

/-! ## What the smaller steps leave -/

/-- Two states that deliver the same fields of the same item. -/
structure Alike (s after : ParseState) : Prop where
  kindpos : after.kindpos = s.kindpos
  multi : after.multi = s.multi
  multimax : after.multimax = s.multimax
  savedcoll : after.savedcoll = s.savedcoll
  kind : after.cur.kind = s.cur.kind
  collection : after.cur.collection = s.cur.collection
  reportId : after.cur.other.reportId = s.cur.other.reportId
  reportCount : after.cur.other.reportCount = s.cur.other.reportCount
  reportSize : after.cur.other.reportSize = s.cur.other.reportSize

section

variable {s after : ParseState}

theorem Alike.refl (s : ParseState) : Alike s s :=
  ⟨rfl, rfl, rfl, rfl, rfl, rfl, rfl, rfl, rfl⟩

/-- Only the minimum is different. -/
theorem signMinimum_eq (s : ParseState) :
    ∃ m, signMinimum s = s.edit fun d => { d with logicalMinimum := m } := by
  unfold signMinimum
  split
  · split
    · exact ⟨s.cur.other.logicalMinimum.toInt8.toInt32, by simp only [ParseState.edit]⟩
    · split
      · exact ⟨s.cur.other.logicalMinimum.toInt16.toInt32, by simp only [ParseState.edit]⟩
      · exact ⟨s.cur.other.logicalMinimum, rfl⟩
  · exact ⟨s.cur.other.logicalMinimum, rfl⟩

theorem takeMinimum_alike (s : ParseState) : Alike s (takeMinimum s) := by
  unfold takeMinimum
  split <;> exact ⟨rfl, rfl, rfl, rfl, rfl, rfl, rfl, rfl, rfl⟩

theorem listUsages_alike (hnext : listUsages s = .next after) : Alike s after := by
  unfold listUsages at hnext
  split at hnext
  · split at hnext
    · cases hnext
    · split at hnext
      · cases hnext
      · cases hnext
        exact ⟨rfl, rfl, rfl, rfl, rfl, rfl, rfl, rfl, rfl⟩
  · cases hnext
    exact Alike.refl s

/-- Listing usages delivers nothing. -/
theorem listUsages_meets {r : RawResult} {inv : ParseState → Prop}
    {post : ReportItem → ParseState → Prop} (hreturns : listUsages s = .returns r) :
    (Turn.returns r).Meets inv post := by
  unfold listUsages at hreturns
  split at hreturns
  · split at hreturns
    · cases hreturns
      split <;> trivial
    · split at hreturns
      · cases hreturns
        trivial
      · cases hreturns
  · cases hreturns

/-- The local items deliver nothing. -/
theorem localItem_alike (tag : UInt8) (dval : UInt32) (s : ParseState) :
    (localItem tag dval s).Meets (Alike s) fun _ _ => False := by
  unfold localItem
  split
  case h_1 =>
    unfold usageItem Turn.Meets
    dsimp only
    split <;> exact ⟨rfl, rfl, rfl, rfl, rfl, rfl, rfl, rfl, rfl⟩
  case h_11 => trivial
  all_goals exact ⟨rfl, rfl, rfl, rfl, rfl, rfl, rfl, rfl, rfl⟩

theorem localItem_meets {tag : UInt8} {dval : UInt32} {inv : ParseState → Prop}
    {post : ReportItem → ParseState → Prop} (hinv : ∀ after, Alike s after → inv after) :
    (localItem tag dval s).Meets inv post := by
  have halike := localItem_alike tag dval s
  cases hturn : localItem tag dval s with
  | next after =>
      rw [hturn] at halike
      exact hinv after halike
  | returns r =>
      rw [hturn] at halike
      cases r with
      | item h after => exact halike.elim
      | done after => trivial
      | error code after => trivial
      | astray => trivial
      | endless => trivial

end

end Apcupsd
