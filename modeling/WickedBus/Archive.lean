import WickedBus.Foundation.CivilDate
import WickedBus.Schema

namespace WickedBus

open WickedBus.Filter (Text)

structure BucketMeta where
  createdAt : Option ℤ
  minEventId : Option ℤ
  maxEventId : Option ℤ
  sealedAt : Option ℤ
  deriving DecidableEq, Repr

structure BucketFile where
  name : Text
  events : Option EventTable
  bucketMeta : Option BucketMeta

def BucketFile.rows (b : BucketFile) : EventTable := b.events.getD .empty

abbrev Archive := KeyedTable BucketFile BucketFile.name

def dbSuffix : Text := ".db".toList

def bucketSuffixRe (t : Text) : Bool :=
  decide (t = dbSuffix) || (decide (t.drop 1 = dbSuffix) && (t.take 1).all Char.isLower)

def bucketFileRe (name : Text) : Bool :=
  decide (name.take 4 = "bus-".toList) && ((name.drop 4).take 4).all Char.isDigit &&
    decide ((name.drop 8).take 1 = ['-']) && ((name.drop 9).take 2).all Char.isDigit &&
    bucketSuffixRe (name.drop 11)

def decimalText (n : ℤ) : Text :=
  if 0 ≤ n then Nat.toDigits 10 n.toNat else '-' :: Nat.toDigits 10 (-n).toNat

def padStart2 (t : Text) : Text := List.replicate (2 - t.length) '0' ++ t

def monthKey (timestampMs : ℤ) : Text :=
  decimalText (CivilDate.utcYear timestampMs) ++
    '-' :: padStart2 (decimalText (CivilDate.utcMonth timestampMs))

def bucketPrefix (month : Text) : Text := "bus-".toList ++ month

def listBuckets (archive : Archive) : List Text :=
  (archive.rows.map BucketFile.name).filter bucketFileRe

def getBucketMeta (archive : Archive) (name : Text) : Option BucketMeta :=
  (archive.get? name).bind BucketFile.bucketMeta

def openFile (archive : Archive) (name : Text) : Archive :=
  archive.insertOrIgnore ⟨name,none,none⟩

def editBucket (archive : Archive) (name : Text) (f : Option EventTable → Option EventTable)
    (g : Option BucketMeta → Option BucketMeta) : Archive :=
  archive.map
    (fun b => if b.name = name then { b with events := f b.events, bucketMeta := g b.bucketMeta } else b)
    (by intro b; split_ifs <;> rfl)

def createEventsTable (archive : Archive) (name : Text) : Archive :=
  editBucket archive name (fun events => some (events.getD .empty)) id

def createMetaTable (archive : Archive) (name : Text) : Archive :=
  editBucket archive name id (fun m => some (m.getD ⟨none,none,none,none⟩))

def setMeta (archive : Archive) (name : Text) (f : BucketMeta → BucketMeta) : Option Archive :=
  if (getBucketMeta archive name).isSome then some (editBucket archive name id (Option.map f)) else none

def sealBucket (archive : Archive) (name : Text) (now : ℤ) (maxEventId : Option ℤ) : Option Archive :=
  setMeta archive name (fun m =>
    { m with
      sealedAt := some now
      maxEventId := maxEventId.or m.maxEventId })

def insertRows (archive : Archive) (name : Text) (rows : List EventRow) : Option Archive :=
  match archive.get? name with
  | none => none
  | some b =>
    if b.events.isSome then some (editBucket archive name (Option.map (·.insertAll rows)) id) else none

structure CoveringBucket where
  filepath : Text
  range : Option (ℤ × ℤ)
  isUnsealed : Bool
  deriving DecidableEq, Repr

def BucketMeta.effectiveMax (m : BucketMeta) : ℤ :=
  match m.sealedAt, m.maxEventId with
  | some _, some hi => hi
  | _, _ => maxSafeInteger

def coveringBucket (archive : Archive) (gapStart gapEnd : ℤ) (name : Text) : Option CoveringBucket :=
  match getBucketMeta archive name with
  | none => some ⟨name,none,true⟩
  | some m =>
    match m.minEventId with
    | none => none
    | some lo =>
      if gapStart ≤ m.effectiveMax ∧ lo ≤ gapEnd then
        some ⟨name,some (lo,m.effectiveMax),m.sealedAt.isNone⟩
      else none

def bucketsCoveringRange (archive : Archive) (gapStart gapEnd : ℤ) : List CoveringBucket :=
  (listBuckets archive).filterMap (coveringBucket archive gapStart gapEnd)

theorem isDigit_decimalText {n : ℤ} (h : 0 ≤ n) : ∀ c ∈ decimalText n, c.isDigit = true := by
  intro c hc
  rw [decimalText,if_pos h] at hc
  exact Nat.isDigit_of_mem_toDigits (by decide) (by decide) hc

theorem length_decimalText {n : ℤ} {k : ℕ} (hk : 0 < k) (hlow : (10 : ℤ) ^ k ≤ n)
    (hhigh : n < (10 : ℤ) ^ (k + 1)) : (decimalText n).length = k + 1 := by
  have h0 : 0 ≤ n := le_trans (by positivity) hlow
  lift n to ℕ using h0
  rw [decimalText,if_pos (by omega),Int.toNat_natCast]
  have hle := (Nat.length_toDigits_le_iff (b := 10) (n := n) (k := k + 1) (by decide) (by omega)).mpr
    (by exact_mod_cast hhigh)
  have hgt := (Nat.length_toDigits_le_iff (b := 10) (n := n) (k := k) (by decide) hk).not.mpr
    (by push Not; exact_mod_cast hlow)
  omega

structure MonthText (t : Text) : Prop where
  year : (t.take 4).length = 4 ∧ (t.take 4).all Char.isDigit = true
  dash : (t.drop 4).take 1 = ['-']
  month : (t.drop 5).length = 2 ∧ (t.drop 5).all Char.isDigit = true

theorem monthText_of_year {year month : Text} (hlen : year.length = 4) (hdigit : ∀ c ∈ year, c.isDigit = true)
    (hmonth : month.length = 2 ∧ month.all Char.isDigit = true) : MonthText (year ++ '-' :: month) := by
  refine ⟨?_,?_,?_⟩
  · rw [List.take_left' hlen]
    exact ⟨hlen,List.all_eq_true.mpr hdigit⟩
  · rw [List.drop_left' hlen]
    rfl
  · have hdrop : (year ++ '-' :: month).drop 5 = month := by
      rw [show year ++ '-' :: month = (year ++ ['-']) ++ month by simp,List.drop_left' (by simp [hlen])]
    rw [hdrop]
    exact hmonth

theorem monthDigits (timestampMs : ℤ) :
    (padStart2 (decimalText (CivilDate.utcMonth timestampMs))).length = 2 ∧
      (padStart2 (decimalText (CivilDate.utcMonth timestampMs))).all Char.isDigit = true := by
  have hr := CivilDate.utcMonth_range timestampMs
  generalize CivilDate.utcMonth timestampMs = m at hr
  obtain ⟨h1,h2⟩ := hr
  interval_cases m <;> decide

theorem monthText_monthKey {timestampMs : ℤ} (hlow : 1000 ≤ CivilDate.utcYear timestampMs)
    (hhigh : CivilDate.utcYear timestampMs ≤ 9999) : MonthText (monthKey timestampMs) :=
  monthText_of_year (length_decimalText (k := 3) (by decide) (by omega) (by omega))
    (isDigit_decimalText (by omega)) (monthDigits timestampMs)

theorem MonthText.chars {t : Text} (h : MonthText t) :
    ∃ a b c d e f, t = [a,b,c,d,'-',e,f] ∧ a.isDigit = true ∧ b.isDigit = true ∧ c.isDigit = true ∧
      d.isDigit = true ∧ e.isDigit = true ∧ f.isDigit = true := by
  obtain ⟨⟨hyl,hyd⟩,hdash,hml,hmd⟩ := h
  match t with
  | [] | [_] | [_,_] | [_,_,_] => simp at hyl
  | [_,_,_,_] | [_,_,_,_,_] | [_,_,_,_,_,_] => simp at hml
  | [a,b,c,d,x,e,f] => exact ⟨a,b,c,d,e,f,by simp_all⟩
  | _ :: _ :: _ :: _ :: _ :: _ :: _ :: _ :: _ => simp at hml

theorem bucketFileRe_prefix {month suffix : Text} (h : MonthText month)
    (hs : bucketSuffixRe suffix = true) : bucketFileRe (bucketPrefix month ++ suffix) = true := by
  obtain ⟨a,b,c,d,e,f,rfl,ha,hb,hc,hd,he,hf⟩ := h.chars
  simp [bucketFileRe,bucketPrefix,ha,hb,hc,hd,he,hf,hs]

def Holds (archive : Archive) (name : Text) (e : EventRow) : Prop :=
  ∃ b ∈ archive, b.name = name ∧ e ∈ b.rows

section Holds

variable {archive archive' : Archive} {name n : Text} {e : EventRow}

theorem mem_editBucket {f : Option EventTable → Option EventTable}
    {g : Option BucketMeta → Option BucketMeta} {b : BucketFile} :
    b ∈ editBucket archive name f g ↔ ∃ c ∈ archive,
      (if c.name = name then { c with events := f c.events, bucketMeta := g c.bucketMeta } else c) = b :=
  KeyedTable.mem_map

theorem holds_editBucket {f : Option EventTable → Option EventTable}
    {g : Option BucketMeta → Option BucketMeta}
    (hf : ∀ events, (f events).getD .empty = events.getD .empty) :
    Holds (editBucket archive name f g) n e ↔ Holds archive n e := by
  constructor
  · rintro ⟨_,hb,hn,he⟩
    obtain ⟨c,hc,rfl⟩ := mem_editBucket.mp hb
    refine ⟨c,hc,?_⟩
    split_ifs at hn he
    · exact ⟨hn,by simpa [BucketFile.rows,hf] using he⟩
    · exact ⟨hn,he⟩
  · rintro ⟨c,hc,rfl,he⟩
    refine ⟨_,mem_editBucket.mpr ⟨c,hc,rfl⟩,?_⟩
    split_ifs
    · exact ⟨rfl,by simpa [BucketFile.rows,hf] using he⟩
    · exact ⟨rfl,he⟩

theorem holds_openFile : Holds (openFile archive name) n e ↔ Holds archive n e := by
  constructor
  · rintro ⟨b,hb,hn,he⟩
    rcases KeyedTable.mem_insertOrIgnore.mp hb with hb | ⟨rfl,-⟩
    · exact ⟨b,hb,hn,he⟩
    · simp [BucketFile.rows] at he
  · rintro ⟨b,hb,hn,he⟩
    exact ⟨b,KeyedTable.mem_insertOrIgnore.mpr (.inl hb),hn,he⟩

theorem holds_createEventsTable : Holds (createEventsTable archive name) n e ↔ Holds archive n e :=
  holds_editBucket (fun _ => rfl)

theorem holds_createMetaTable : Holds (createMetaTable archive name) n e ↔ Holds archive n e :=
  holds_editBucket (fun _ => rfl)

theorem setMeta_some {f : BucketMeta → BucketMeta} (h : setMeta archive name f = some archive') :
    (getBucketMeta archive name).isSome ∧ archive' = editBucket archive name id (Option.map f) := by
  unfold setMeta at h
  split_ifs at h with hm
  exact ⟨hm,(Option.some.inj h).symm⟩

theorem holds_setMeta {f : BucketMeta → BucketMeta} (h : setMeta archive name f = some archive') :
    Holds archive' n e ↔ Holds archive n e := by
  rw [(setMeta_some h).2]
  exact holds_editBucket (fun _ => rfl)

theorem insertRows_some {rows : List EventRow} (h : insertRows archive name rows = some archive') :
    (∃ b ∈ archive, b.name = name ∧ b.events.isSome = true) ∧
      archive' = editBucket archive name (Option.map (·.insertAll rows)) id := by
  unfold insertRows at h
  split at h
  · cases h
  · rename_i b hb
    obtain ⟨hmem,hname⟩ := KeyedTable.get?_eq_some.mp hb
    split_ifs at h with hev
    exact ⟨⟨b,hmem,hname,hev⟩,(Option.some.inj h).symm⟩

theorem rows_insertAll {b : BucketFile} {rows : List EventRow} (h : b.events.isSome = true)
    (g : Option BucketMeta → Option BucketMeta) :
    ({ b with events := b.events.map (·.insertAll rows), bucketMeta := g b.bucketMeta } :
      BucketFile).rows = b.rows.insertAll rows := by
  obtain ⟨t,ht⟩ := Option.isSome_iff_exists.mp h
  simp [BucketFile.rows,ht]

theorem holds_of_insertRows {rows : List EventRow} (h : insertRows archive name rows = some archive')
    (he : Holds archive' n e) : Holds archive n e ∨ (n = name ∧ e ∈ rows) := by
  obtain ⟨⟨b,hb,hbn,hev⟩,rfl⟩ := insertRows_some h
  obtain ⟨_,hc',hn,he⟩ := he
  obtain ⟨c,hc,rfl⟩ := mem_editBucket.mp hc'
  split_ifs at hn he with hcn
  · obtain rfl := KeyedTable.eq_of_key hb hc (hbn.trans hcn.symm)
    rw [rows_insertAll hev] at he
    rcases KeyedTable.mem_or_of_mem_insertAll he with he | he
    · exact .inl ⟨b,hb,hn,he⟩
    · exact .inr ⟨hn.symm.trans hbn,he⟩
  · exact .inl ⟨c,hc,hn,he⟩

theorem holds_insertRows {rows : List EventRow} (h : insertRows archive name rows = some archive')
    (he : Holds archive n e) : Holds archive' n e := by
  obtain ⟨⟨b,hb,hbn,hev⟩,rfl⟩ := insertRows_some h
  obtain ⟨c,hc,rfl,he⟩ := he
  refine ⟨_,mem_editBucket.mpr ⟨c,hc,rfl⟩,?_⟩
  split_ifs with hcn
  · obtain rfl := KeyedTable.eq_of_key hb hc (hbn.trans hcn.symm)
    exact ⟨rfl,by rw [rows_insertAll hev]; exact KeyedTable.mem_insertAll_of_mem _ he⟩
  · exact ⟨rfl,he⟩

theorem stored_insertRows {rows : List EventRow} (h : insertRows archive name rows = some archive')
    (he : e ∈ rows) : ∃ x, Holds archive' name x ∧ x.eventId = e.eventId := by
  obtain ⟨⟨b,hb,hbn,hev⟩,rfl⟩ := insertRows_some h
  obtain ⟨x,hx,hk⟩ := KeyedTable.exists_key_insertAll (t := b.rows) he
  refine ⟨x,⟨_,mem_editBucket.mpr ⟨b,hb,rfl⟩,?_⟩,hk⟩
  rw [if_pos hbn]
  exact ⟨hbn,by rw [rows_insertAll hev]; exact hx⟩

theorem mem_listBuckets : n ∈ listBuckets archive ↔
    (∃ b ∈ archive, b.name = n) ∧ bucketFileRe n = true := by
  simp [listBuckets,KeyedTable.mem_rows]

end Holds

end WickedBus
