import WickedBus.SweepV2

namespace WickedBus

open WickedBus.Filter (Text)

theorem bucketFileRe_digits {tail : Text} (h : bucketFileRe (bucketPrefix tail) = true) :
    (∀ i < 4, ∀ c ∈ tail[i]?, c.isDigit = true) ∧ tail[4]? = some '-' := by
  have hdrop : ∀ k, (bucketPrefix tail).drop (4 + k) = tail.drop k := fun _ => by
    rw [← List.drop_drop]
    rfl
  simp only [bucketFileRe,Bool.and_eq_true,List.all_eq_true] at h
  obtain ⟨⟨⟨⟨-,hdigits⟩,hdash⟩,-⟩,-⟩ := h
  rw [show (bucketPrefix tail).drop 4 = tail from hdrop 0] at hdigits
  have hdash := of_decide_eq_true hdash
  rw [show (bucketPrefix tail).drop 8 = tail.drop 4 from hdrop 4] at hdash
  refine ⟨fun i hi c hc => hdigits c ?_,?_⟩
  · have htake : (tail.take 4)[i]? = some c := by rw [List.getElem?_take_of_lt hi]; exact hc
    exact List.mem_of_getElem? htake
  · have hhead := congrArg List.head? hdash
    rwa [List.head?_take,List.head?_drop] at hhead

theorem decimalText_neg {n : ℤ} (h : n < 0) : ∃ ds, decimalText n = '-' :: ds :=
  ⟨_,if_neg (not_le.mpr h)⟩

theorem year_digits {year rest : Text} {n : ℤ} (hyear : year = decimalText n)
    (hdigits : ∀ i < 4, ∀ c ∈ (year ++ '-' :: rest)[i]?, c.isDigit = true)
    (hdash : (year ++ '-' :: rest)[4]? = some '-') : year.length = 4 ∧ ∀ c ∈ year, c.isDigit = true := by
  have hneg : 0 ≤ n := by
    by_contra hn
    obtain ⟨ds,hds⟩ := decimalText_neg (not_le.mp hn)
    have hminus := hdigits 0 (by decide) '-' (by rw [hyear,hds]; rfl)
    exact absurd hminus (by decide)
  have hdigit : ∀ c ∈ year, c.isDigit = true := hyear ▸ isDigit_decimalText hneg
  refine ⟨?_,hdigit⟩
  rcases Nat.lt_trichotomy year.length 4 with hlt | heq | hgt
  · have hminus := hdigits year.length hlt '-' (by simp)
    exact absurd hminus (by decide)
  · exact heq
  · rw [List.getElem?_append_left hgt] at hdash
    exact absurd (hdigit '-' (List.mem_of_getElem? hdash)) (by decide)

theorem monthText_of_start {name : Text} {timestampMs : ℤ} (hre : bucketFileRe name = true)
    (hstart : bucketPrefix (monthKey timestampMs) <+: name) : MonthText (monthKey timestampMs) := by
  obtain ⟨suffix,rfl⟩ := hstart
  set year := decimalText (CivilDate.utcYear timestampMs) with hyear
  set month := padStart2 (decimalText (CivilDate.utcMonth timestampMs))
  have hname : bucketPrefix (monthKey timestampMs) ++ suffix =
      bucketPrefix (year ++ '-' :: (month ++ suffix)) := by
    simp [bucketPrefix,monthKey,hyear,month]
  rw [hname] at hre
  obtain ⟨hdigits,hdash⟩ := bucketFileRe_digits hre
  obtain ⟨hlen,hdigit⟩ := year_digits hyear hdigits hdash
  exact monthText_of_year hlen hdigit (monthDigits timestampMs)

theorem MonthText.length {month : Text} (h : MonthText month) : month.length = 7 := by
  obtain ⟨a,b,c,d,e,f,rfl,-⟩ := h.chars
  rfl

theorem month_of_bucket {name : Text} {s t : ℤ} (hre : bucketFileRe name = true)
    (hs : bucketPrefix (monthKey s) <+: name) (ht : bucketPrefix (monthKey t) <+: name) :
    monthKey s = monthKey t := by
  have hlen : (bucketPrefix (monthKey s)).length = (bucketPrefix (monthKey t)).length := by
    simp only [bucketPrefix,List.length_append,(monthText_of_start hre hs).length,
      (monthText_of_start hre ht).length]
  have heq := (List.prefix_of_prefix_length_le hs ht hlen.le).eq_of_length hlen
  exact List.append_cancel_left heq

theorem Grouping.month_key {g : Grouping} (hne : g.todo ≠ []) : ∃ t, g.month = monthKey t := by
  obtain ⟨todo,cache,groups⟩ := g
  cases todo with
  | nil => exact absurd rfl hne
  | cons ev rest => exact ⟨ev.emittedAt,rfl⟩

theorem lookup_snoc (cache : List (Text × Text)) (key name month : Text) :
    (cache ++ [(key,name)]).lookup month = (cache.lookup month).or (if month = key then some name else none) := by
  rw [List.lookup_append,List.lookup_cons,List.lookup_nil]
  by_cases hm : month = key
  · rw [beq_iff_eq.mpr hm,if_pos hm]
  · rw [beq_eq_false_iff_ne.mpr hm,if_neg hm]

theorem Grouping.assign_cons {g : Grouping} {ev : EventRow} {rest : List EventRow} (h : g.todo = ev :: rest)
    (name : Text) : g.assign name = ⟨rest,g.cache ++ [(monthKey ev.emittedAt,name)],addToGroup name ev g.groups⟩ := by
  obtain ⟨todo,cache,groups⟩ := g
  cases h
  rfl

theorem Grouping.month_cons {g : Grouping} {ev : EventRow} {rest : List EventRow} (h : g.todo = ev :: rest) :
    g.month = monthKey ev.emittedAt := by
  rw [Grouping.month,h]

section Files

variable {archive archive' : Archive} {name n : Text}

theorem get?_editBucket {f : Option EventTable → Option EventTable}
    {g : Option BucketMeta → Option BucketMeta} :
    (editBucket archive name f g).get? n = (archive.get? n).map (fun b =>
      if b.name = name then { b with events := f b.events, bucketMeta := g b.bucketMeta } else b) :=
  KeyedTable.get?_map

theorem name_of_get? {b : BucketFile} (h : archive.get? n = some b) : b.name = n :=
  (KeyedTable.get?_eq_some.mp h).2

theorem get?_editBucket_ne {f : Option EventTable → Option EventTable}
    {g : Option BucketMeta → Option BucketMeta} (hne : n ≠ name) :
    (editBucket archive name f g).get? n = archive.get? n := by
  rw [get?_editBucket]
  cases h : archive.get? n with
  | none => rfl
  | some b =>
    have hb : b.name ≠ name := by rwa [name_of_get? h]
    simp only [Option.map_some,if_neg hb]

theorem get?_editBucket_self {f : Option EventTable → Option EventTable}
    {g : Option BucketMeta → Option BucketMeta} :
    (editBucket archive name f g).get? name = (archive.get? name).map (fun b =>
      { b with events := f b.events, bucketMeta := g b.bucketMeta }) := by
  rw [get?_editBucket]
  cases h : archive.get? name with
  | none => rfl
  | some b => simp only [Option.map_some,if_pos (name_of_get? h)]

theorem get?_openFile_ne (hne : n ≠ name) : (openFile archive name).get? n = archive.get? n := by
  rw [openFile,KeyedTable.get?_insertOrIgnore,if_neg (Ne.symm hne),Option.or_none]

theorem get?_openFile_self (h : archive.get? name = none) :
    (openFile archive name).get? name = some ⟨name,none,none⟩ := by
  rw [openFile,KeyedTable.get?_insertOrIgnore,h,Option.none_or]
  exact if_pos rfl

end Files

def Sealed (archive : Archive) (name : Text) : Prop :=
  ((getBucketMeta archive name).bind BucketMeta.sealedAt).isSome = true

instance (archive : Archive) (name : Text) : Decidable (Sealed archive name) :=
  inferInstanceAs (Decidable (_ = true))

def Phase.writing : Phase → Option Writing
  | .openBucket w | .createEvents w | .createMeta w | .setCreatedAt w | .setMinEventId w
  | .setMaxEventId w | .insertBatch w | .readRange w | .writeRange w _ _ => some w
  | _ => none

structure Fills (f : Option EventTable → Option EventTable) (g : Option BucketMeta → Option BucketMeta) :
    Prop where
  events : ∀ t, t.isSome = true → (f t).isSome = true
  bucketMeta : ∀ m, m.isSome = true → (g m).isSome = true
  sealedAt : ∀ m, (g m).bind BucketMeta.sealedAt = m.bind BucketMeta.sealedAt

def sealMeta (now : ℤ) (m : BucketMeta) : BucketMeta := { m with sealedAt := some now }

def Phase.opens : Phase → Option Text
  | .openBucket w => some w.bucketName
  | _ => none

def Phase.seals : Phase → Option Text
  | .sealLatest _ latest => some latest
  | _ => none

inductive BucketStep (sealFails : Bool) (archive : Archive) (ph : Phase) : Archive → Prop
  | same (hopen : ph.opens = none) (hseal : ∀ n ∈ ph.seals, sealFails = true ∨ getBucketMeta archive n = none) :
    BucketStep sealFails archive ph archive
  | opened {name : Text} (h : ph.opens = some name) : BucketStep sealFails archive ph (openFile archive name)
  | sealed {latest : Text} {now : ℤ} (h : ph.seals = some latest)
    (hread : (getBucketMeta archive latest).isSome = true) (hok : sealFails = false) :
    BucketStep sealFails archive ph (editBucket archive latest id (Option.map (sealMeta now)))
  | filled {w : Writing} {f : Option EventTable → Option EventTable}
    {g : Option BucketMeta → Option BucketMeta} (h : ph.writing = some w) (hopen : ph.opens = none)
    (hfills : Fills f g) : BucketStep sealFails archive ph (editBucket archive w.bucketName f g)

theorem fills_createEvents : Fills (fun events => some (events.getD .empty)) id where
  events _ _ := rfl
  bucketMeta _ hm := hm
  sealedAt _ := rfl

theorem fills_createMeta : Fills id (fun m => some (m.getD ⟨none,none,none,none⟩)) where
  events _ ht := ht
  bucketMeta _ _ := rfl
  sealedAt m := by cases m <;> rfl

theorem fills_insertAll (rows : List EventRow) : Fills (Option.map (·.insertAll rows)) id where
  events _ ht := by rwa [Option.isSome_map]
  bucketMeta _ hm := hm
  sealedAt _ := rfl

theorem fills_setMeta {f : BucketMeta → BucketMeta} (h : ∀ m, (f m).sealedAt = m.sealedAt) :
    Fills id (Option.map f) where
  events _ ht := ht
  bucketMeta m hm := by rwa [Option.isSome_map]
  sealedAt m := by cases m <;> simp [h]

theorem bucketStep_setMeta {sealFails : Bool} {archive archive' : Archive} {ph : Phase} {w : Writing}
    {f : BucketMeta → BucketMeta}
    (h : setMeta archive w.bucketName f = some archive') (hw : ph.writing = some w) (hopen : ph.opens = none)
    (hf : ∀ m, (f m).sealedAt = m.sealedAt) : BucketStep sealFails archive ph archive' := by
  rw [(setMeta_some h).2]
  exact .filled hw hopen (fills_setMeta hf)

theorem bucketStep_none {sealFails : Bool} {archive : Archive} {ph : Phase} (hopen : ph.opens = none)
    (hseal : ph.seals = none) : BucketStep sealFails archive ph archive :=
  .same hopen (by rw [hseal]; rintro _ ⟨⟩)

theorem setMeta_none {archive : Archive} {name : Text} {f : BucketMeta → BucketMeta}
    (h : setMeta archive name f = none) : getBucketMeta archive name = none := by
  rw [setMeta,ite_eq_right_iff] at h
  cases hm : getBucketMeta archive name with
  | none => rfl
  | some m =>
    rw [hm] at h
    cases h rfl

theorem sweeperStep_buckets (env : StepEnv) (cfg : PassConfig) (db : Db) (archive : Archive) (ph : Phase) :
    BucketStep env.sealFails archive ph (sweeperStep env cfg db archive ph).archive := by
  cases ph with
  | sealLatest g latest =>
    have hseal : BucketStep env.sealFails archive (.sealLatest g latest) (trySeal env archive latest) := by
      rcases trySeal_cases env archive latest with ⟨hsame,hfails⟩ | ⟨hok,hsealed⟩
      · rw [hsame]
        refine .same rfl fun n hn => ?_
        cases hn
        exact hfails.imp_right setMeta_none
      · obtain ⟨hread,hedit⟩ := setMeta_some hsealed
        rw [hedit]
        exact .sealed rfl hread hok
    simp only [sweeperStep]
    split <;> exact hseal
  | openBucket w => exact .opened rfl
  | createEvents w => exact .filled rfl rfl fills_createEvents
  | createMeta w => exact .filled rfl rfl fills_createMeta
  | setCreatedAt w | setMinEventId w | setMaxEventId w | writeRange w lo hi =>
    simp only [sweeperStep]
    split
    · exact bucketStep_none rfl rfl
    · rename_i h
      exact bucketStep_setMeta h rfl rfl (fun _ => rfl)
  | insertBatch w =>
    simp only [sweeperStep]
    split
    · exact bucketStep_none rfl rfl
    · rename_i h
      rw [(insertRows_some h).2]
      exact .filled rfl rfl (fills_insertAll w.events)
  | collectOwed cursors owed => cases cursors <;> exact bucketStep_none rfl rfl
  | writeGroups groups moved =>
    rcases groups with _ | ⟨⟨name,events⟩,rest⟩ <;> simp only [sweeperStep] <;> split_ifs <;>
      exact bucketStep_none rfl rfl
  | _ => simp only [sweeperStep]; try (repeat' split) <;> exact bucketStep_none rfl rfl

section Month

variable {archive : Archive} {month latest name n : Text}

theorem mem_bucketsOfMonth : n ∈ bucketsOfMonth archive month ↔
    (archive.get? n).isSome = true ∧ bucketFileRe n = true ∧ bucketPrefix month <+: n := by
  simp only [bucketsOfMonth,List.mem_filter,mem_listBuckets,List.isPrefixOf_iff_prefix,and_assoc]
  refine and_congr_left fun _ => ?_
  constructor
  · rintro ⟨b,hb,rfl⟩
    rw [KeyedTable.get?_eq_some.mpr ⟨hb,rfl⟩]
    rfl
  · intro h
    obtain ⟨b,hb⟩ := Option.isSome_iff_exists.mp h
    exact ⟨b,KeyedTable.get?_eq_some.mp hb⟩

theorem bucketsOfMonth_sorted : (bucketsOfMonth archive month).Pairwise (fun a b => a < b) := by
  refine List.Pairwise.filter _ (List.Pairwise.filter _ ?_)
  exact List.pairwise_map.mpr archive.sorted

theorem latest_spec (h : (bucketsOfMonth archive month).getLast? = some latest) :
    latest ∈ bucketsOfMonth archive month ∧ ∀ n ∈ bucketsOfMonth archive month, n = latest ∨ n < latest := by
  refine ⟨List.mem_of_getLast? h,fun n hn => ?_⟩
  obtain ⟨front,hfront⟩ := List.getLast?_eq_some_iff.mp h
  have hsorted := @bucketsOfMonth_sorted archive month
  rw [hfront] at hsorted hn
  rcases List.mem_append.mp hn with hn | hn
  · exact .inr ((List.pairwise_append.mp hsorted).2.2 n hn latest List.mem_cons_self)
  · exact .inl (List.mem_singleton.mp hn)

theorem bucket_suffix {suffix : Text} (hmonth : MonthText month)
    (hre : bucketFileRe (bucketPrefix month ++ suffix) = true) :
    suffix = dbSuffix ∨ ∃ c : Char, c.isLower = true ∧ suffix = c :: dbSuffix := by
  obtain ⟨a,b,c,d,e,f,rfl,-⟩ := hmonth.chars
  have hsuffix : bucketSuffixRe suffix = true := by
    simp only [bucketFileRe,Bool.and_eq_true] at hre
    exact hre.2
  simp only [bucketSuffixRe,Bool.or_eq_true,Bool.and_eq_true,decide_eq_true_eq] at hsuffix
  rcases hsuffix with heq | ⟨hdrop,hlow⟩
  · exact .inl heq
  · cases suffix with
    | nil => cases hdrop
    | cons x rest => exact .inr ⟨x,by simpa using hlow,by rw [← hdrop]; rfl⟩

theorem nextSuffixedName_bare (stem : Text) :
    nextSuffixedName (stem ++ dbSuffix) stem = some (stem ++ 'a' :: dbSuffix) := by
  simp only [nextSuffixedName,List.drop_left,List.length_append]
  rw [show stem.length + dbSuffix.length - stem.length - 3 = 0 by simp [dbSuffix]]
  rfl

theorem nextSuffixedName_letter (stem : Text) (c : Char) :
    nextSuffixedName (stem ++ c :: dbSuffix) stem =
      if 'a' ≤ c ∧ c < 'z' then some (stem ++ Char.ofNat (c.toNat + 1) :: dbSuffix) else none := by
  simp only [nextSuffixedName,List.drop_left,List.length_append]
  rw [show stem.length + (c :: dbSuffix).length - stem.length - 3 = 1 by simp [dbSuffix]]
  rfl

theorem letter_lt_next {c : Char} (h : 'a' ≤ c ∧ c < 'z') : c < Char.ofNat (c.toNat + 1) := by
  have hlow : 97 ≤ c.toNat := h.1
  have hhigh : c.toNat < 122 := h.2
  have hc : c = Char.ofNat c.toNat := (Char.ofNat_toNat c).symm
  generalize c.toNat = m at hlow hhigh hc
  rw [hc]
  interval_cases m <;> decide

theorem nextSuffixedName_lt {t : ℤ} (hre : bucketFileRe latest = true)
    (hstart : bucketPrefix (monthKey t) <+: latest)
    (h : nextSuffixedName latest (bucketPrefix (monthKey t)) = some name) :
    latest < name ∧ bucketFileRe name = true ∧ bucketPrefix (monthKey t) <+: name := by
  have hmonth := monthText_of_start hre hstart
  obtain ⟨letter,hlower,rfl⟩ := nextSuffixedName_some h
  refine ⟨?_, bucketFileRe_prefix hmonth (bucketSuffixRe_letter hlower),List.prefix_append _ _⟩
  obtain ⟨suffix,rfl⟩ := hstart
  refine List.append_left_lt ?_
  rcases bucket_suffix hmonth hre with rfl | ⟨c,-,rfl⟩
  · rw [nextSuffixedName_bare] at h
    rw [← List.append_cancel_left (Option.some.inj h)]
    exact List.cons_lt_cons_iff.mpr (.inl (by decide))
  · rw [nextSuffixedName_letter] at h
    split_ifs at h with hc
    rw [← List.append_cancel_left (Option.some.inj h)]
    exact List.cons_lt_cons_iff.mpr (.inl (letter_lt_next hc))

end Month

section Effects

variable {sealFails : Bool} {archive archive' : Archive} {ph : Phase} {n : Text}

theorem isSome_editBucket {name : Text} {f : Option EventTable → Option EventTable}
    {g : Option BucketMeta → Option BucketMeta} :
    ((editBucket archive name f g).get? n).isSome = (archive.get? n).isSome := by
  rw [get?_editBucket,Option.isSome_map]

theorem opens_of_seals {latest : Text} (h : ph.seals = some latest) : ph.opens = none := by
  cases ph with
  | sealLatest g m => rfl
  | _ => cases h

theorem seals_of_opens {name : Text} (h : ph.opens = some name) : ph.seals = none := by
  cases ph with
  | openBucket w => rfl
  | _ => cases h

theorem seals_of_writing {w : Writing} (h : ph.writing = some w) : ph.seals = none := by
  cases ph with
  | sealLatest g m => cases h
  | _ => rfl

theorem BucketStep.quiet (h : BucketStep sealFails archive ph archive') (hw : ph.writing = none)
    (hseals : ph.seals = none) : archive' = archive := by
  cases h with
  | same hopen hseal => rfl
  | opened h =>
    cases ph with
    | openBucket w => cases hw
    | _ => cases h
  | sealed h hread hok =>
    rw [hseals] at h
    cases h
  | filled h hopen hfills =>
    rw [hw] at h
    cases h

theorem BucketStep.present (h : BucketStep sealFails archive ph archive') :
    (archive'.get? n).isSome = true ↔ (archive.get? n).isSome = true ∨ ph.opens = some n := by
  cases h with
  | same hopen hseal => simp [hopen]
  | opened h =>
    rw [openFile,KeyedTable.get?_insertOrIgnore,Option.isSome_or,Bool.or_eq_true,h,Option.some.injEq]
    refine or_congr_right ?_
    split_ifs with hn
    · exact iff_of_true rfl hn
    · exact iff_of_false Bool.false_ne_true hn
  | sealed h hread hok => simp [isSome_editBucket,opens_of_seals h]
  | filled h hopen hfills => simp [isSome_editBucket,hopen]

theorem getBucketMeta_editBucket_self {name : Text} {f : Option EventTable → Option EventTable}
    {g : Option BucketMeta → Option BucketMeta} (hg : g none = none) :
    getBucketMeta (editBucket archive name f g) name = g (getBucketMeta archive name) := by
  rw [getBucketMeta,get?_editBucket_self,getBucketMeta]
  cases archive.get? name with
  | none => exact hg.symm
  | some b => rfl

theorem BucketStep.sealed_iff (h : BucketStep sealFails archive ph archive') :
    Sealed archive' n ↔
      Sealed archive n ∨ (ph.seals = some n ∧ (getBucketMeta archive n).isSome = true ∧ sealFails = false) := by
  cases h with
  | same hopen hseal =>
    refine ⟨.inl,fun h => h.elim id fun hn => ?_⟩
    obtain ⟨hseals,hread,hok⟩ := hn
    rw [(hseal n hseals).resolve_left (Bool.eq_false_iff.mp hok)] at hread
    cases hread
  | @opened name h =>
    rw [seals_of_opens h]
    simp only [reduceCtorEq,false_and,or_false]
    by_cases hn : n = name
    · subst hn
      cases hfile : archive.get? n with
      | none => simp [Sealed,getBucketMeta,get?_openFile_self hfile,hfile]
      | some b => simp [Sealed,getBucketMeta,openFile,KeyedTable.get?_insertOrIgnore,hfile]
    · simp only [Sealed,getBucketMeta,get?_openFile_ne hn]
  | @sealed latest now h hread hok =>
    rw [h,Option.some.injEq]
    by_cases hn : n = latest
    · subst hn
      refine iff_of_true ?_ (.inr ⟨rfl,hread,hok⟩)
      obtain ⟨m,hm⟩ := Option.isSome_iff_exists.mp hread
      rw [Sealed,getBucketMeta_editBucket_self rfl,hm]
      rfl
    · rw [Sealed,getBucketMeta,get?_editBucket_ne hn]
      exact ⟨.inl,fun h => h.resolve_right fun heq => hn heq.1.symm⟩
  | @filled w f g h hopen hfills =>
    rw [seals_of_writing h]
    simp only [reduceCtorEq,false_and,or_false]
    by_cases hn : n = w.bucketName
    · subst hn
      simp only [Sealed,getBucketMeta,get?_editBucket_self]
      cases archive.get? w.bucketName with
      | none => exact Iff.rfl
      | some b => simp [hfills.sealedAt]
    · simp only [Sealed,getBucketMeta,get?_editBucket_ne hn]

theorem BucketStep.frame {w : Writing} (h : BucketStep sealFails archive ph archive') (hw : ph.writing = some w)
    (hn : n ≠ w.bucketName) : archive'.get? n = archive.get? n := by
  cases h with
  | same hopen hseal => rfl
  | @opened name h =>
    cases ph with
    | openBucket v =>
      cases hw
      cases h
      exact get?_openFile_ne hn
    | _ => cases h
  | sealed h hread hok =>
    rw [seals_of_writing hw] at h
    cases h
  | filled h hopen hfills =>
    cases hw.symm.trans h
    exact get?_editBucket_ne hn

def tablesOf (archive : Archive) (name : Text) : Option (Bool × Bool) :=
  (archive.get? name).map (fun b => (b.events.isSome,b.bucketMeta.isSome))

theorem tablesOf_isSome : (tablesOf archive n).isSome = (archive.get? n).isSome := Option.isSome_map

theorem getBucketMeta_isSome : (getBucketMeta archive n).isSome = true ↔
    ∃ hasEvents, tablesOf archive n = some (hasEvents,true) := by
  rw [getBucketMeta,tablesOf]
  cases archive.get? n with
  | none => exact iff_of_false Bool.false_ne_true (by rintro ⟨_,⟨⟩⟩)
  | some b => simp

theorem tablesOf_editBucket_self {name : Text} {f : Option EventTable → Option EventTable}
    {g : Option BucketMeta → Option BucketMeta} : tablesOf (editBucket archive name f g) name =
      (archive.get? name).map (fun b => ((f b.events).isSome,(g b.bucketMeta).isSome)) := by
  rw [tablesOf,get?_editBucket_self,Option.map_map]
  rfl

theorem tablesOf_setMeta {name : Text} {f : BucketMeta → BucketMeta} :
    tablesOf (editBucket archive name id (Option.map f)) n = tablesOf archive n := by
  by_cases hn : n = name
  · subst hn
    rw [tablesOf_editBucket_self]
    simp [tablesOf]
  · rw [tablesOf,get?_editBucket_ne hn,tablesOf]

theorem tablesOf_eq_some {a b : Bool} : tablesOf archive n = some (a,b) ↔
    ∃ file, archive.get? n = some file ∧ file.events.isSome = a ∧ file.bucketMeta.isSome = b := by
  simp [tablesOf]

theorem BucketStep.ready (h : BucketStep sealFails archive ph archive') (hn : tablesOf archive n = some (true,true)) :
    tablesOf archive' n = some (true,true) := by
  obtain ⟨file,hfile,hevents,hmeta⟩ := tablesOf_eq_some.mp hn
  cases h with
  | same hopen hseal => exact hn
  | opened h => rwa [openFile,tablesOf,KeyedTable.get?_insertOrIgnore,hfile,Option.some_or,← hfile,← tablesOf]
  | sealed h hread hok => rwa [tablesOf_setMeta]
  | @filled w f g h hopen hfills =>
    by_cases hw : n = w.bucketName
    · subst hw
      rw [tablesOf_editBucket_self,hfile,Option.map_some,hfills.events _ hevents,hfills.bucketMeta _ hmeta]
    · rwa [tablesOf,get?_editBucket_ne hw]

theorem BucketStep.tables_of_quiet (h : BucketStep sealFails archive ph archive') (hw : ph.writing = none) :
    tablesOf archive' n = tablesOf archive n := by
  cases h with
  | same hopen hseal => rfl
  | opened h =>
    cases ph with
    | openBucket w => cases hw
    | _ => cases h
  | sealed h hread hok => exact tablesOf_setMeta
  | filled h hopen hfills =>
    rw [hw] at h
    cases h

end Effects

end WickedBus
