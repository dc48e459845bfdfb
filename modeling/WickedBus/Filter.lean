import WickedBus.Foundation.LikePattern

namespace WickedBus.Filter

abbrev Text := List Char

def segmentChar (c : Char) : Bool := c.isLower || c.isDigit || c = '_'

def dottedSegments : Bool → Text → Bool
  | nonempty, [] => nonempty
  | nonempty, c :: cs =>
    if segmentChar c then dottedSegments true cs
    else c = '.' && nonempty && dottedSegments false cs

def eventTypeRegex (t : Text) : Bool :=
  "wicked.".toList.isPrefixOf t && dottedSegments false (t.drop 7)

abbrev EventType := {t : Text // eventTypeRegex t = true}

abbrev Domain := {d : Text // 1 ≤ d.length ∧ d.length ≤ 64}

def splitFilter (filterStr : Text) : Text × Option Text :=
  match filterStr.span (· ≠ '@') with
  | (typePattern, []) => (typePattern,none)
  | (typePattern, _ :: domainFilter) => (typePattern,some domainFilter)

def domainRejects (domainFilter : Option Text) (domain : Text) : Bool :=
  match domainFilter with
  | none => false
  | some d => !d.isEmpty && decide (domain ≠ d)

def slicePrefix (typePattern : Text) (n : Nat) : Text := typePattern.take (typePattern.length - n)

def multiMatches (stem eventType : Text) : Bool :=
  if (stem ++ ['.']).isPrefixOf eventType then !(eventType.drop (stem.length + 1)).isEmpty
  else false

def singleMatches (stem eventType : Text) : Bool :=
  if (stem ++ ['.']).isPrefixOf eventType then
    let remainder := eventType.drop (stem.length + 1)
    !remainder.isEmpty && !remainder.contains '.'
  else false

def matchesType (eventType typePattern : Text) : Bool :=
  if typePattern = ['*'] then true
  else if typePattern = eventType then true
  else if ".**".toList.isSuffixOf typePattern then multiMatches (slicePrefix typePattern 3) eventType
  else if ".*".toList.isSuffixOf typePattern then singleMatches (slicePrefix typePattern 2) eventType
  else false

def matchesFilter (eventType domain filterStr : Text) : Bool :=
  let (typePattern, domainFilter) := splitFilter filterStr
  if domainRejects domainFilter domain then false
  else matchesType eventType typePattern

def escapeLike (s : Text) : Text :=
  s.flatMap (fun c => if c = '\\' || c = '%' || c = '_' then ['\\',c] else [c])

inductive Condition where
  | domainEq (domain_filter : Text)
  | typeLike (prefix_like : Text)
  | typeNotLike (prefix_multi : Text)
  | typeEq (exact_type : Text)
  deriving DecidableEq, Repr

def Condition.holds (eventType domain : Text) : Condition → Bool
  | .domainEq v => domain = v
  | .typeLike p => LikePattern.like '\\' p eventType
  | .typeNotLike p => !LikePattern.like '\\' p eventType
  | .typeEq v => eventType = v

def typeConditions (typePattern : Text) : List Condition :=
  if typePattern = ['*'] then []
  else if ".**".toList.isSuffixOf typePattern then
    let stem := slicePrefix typePattern 3
    [.typeLike (escapeLike stem ++ ".%".toList)]
  else if ".*".toList.isSuffixOf typePattern then
    let stem := slicePrefix typePattern 2
    [.typeLike (escapeLike stem ++ ".%".toList),.typeNotLike (escapeLike stem ++ ".%.%".toList)]
  else [.typeEq typePattern]

def domainConditions : Option Text → List Condition
  | none => []
  | some d => if d.isEmpty then [] else [.domainEq d]

def buildFilterSql (filterStr : Text) : List Condition :=
  let (typePattern, domainFilter) := splitFilter filterStr
  domainConditions domainFilter ++ typeConditions typePattern

def whereHolds (conditions : List Condition) (eventType domain : Text) : Bool :=
  conditions.all (Condition.holds eventType domain)

def foldsOnto (stem eventType : Text) : Bool :=
  decide (stem.map Char.toLower ≠ stem) && (stem.map Char.toLower ++ ['.']).isPrefixOf eventType

def typeFoldGap (eventType typePattern : Text) : Bool :=
  if ".**".toList.isSuffixOf typePattern then foldsOnto (slicePrefix typePattern 3) eventType
  else if ".*".toList.isSuffixOf typePattern then
    let stem := slicePrefix typePattern 2
    foldsOnto stem eventType && !(eventType.drop (stem.length + 1)).contains '.'
  else false

def caseFoldGap (eventType domain filterStr : Text) : Bool :=
  let (typePattern, domainFilter) := splitFilter filterStr
  !domainRejects domainFilter domain && typeFoldGap eventType typePattern

theorem segmentChar_toLower {c : Char} (h : segmentChar c = true) : c.toLower = c := by
  simp only [segmentChar,Char.isLower,Char.isDigit,Bool.or_eq_true,Bool.and_eq_true,
    decide_eq_true_eq,UInt32.le_iff_toNat_le,ge_iff_le] at h
  change ((97 ≤ c.toNat ∧ c.toNat ≤ 122) ∨ (48 ≤ c.toNat ∧ c.toNat ≤ 57)) ∨ c = '_' at h
  refine Char.toLower_eq_of_not_isUpper ?_
  simp only [Char.isUpper,decide_eq_true_eq,UInt32.le_iff_toNat_le,ge_iff_le]
  change ¬ (65 ≤ c.toNat ∧ c.toNat ≤ 90)
  rcases h with h | rfl
  · omega
  · decide

theorem segmentChar_ne_star {c : Char} (h : segmentChar c = true) : c ≠ '*' := by
  rintro rfl
  revert h
  decide

theorem dottedSegments_chars {b : Bool} {t : Text} (h : dottedSegments b t = true) :
    ∀ c ∈ t, c.toLower = c ∧ c ≠ '*' := by
  induction t generalizing b with
  | nil => simp
  | cons x xs ih =>
    simp only [dottedSegments] at h
    intro c hc
    split_ifs at h with hx
    · rcases List.mem_cons.mp hc with rfl | hc
      · exact ⟨segmentChar_toLower hx,segmentChar_ne_star hx⟩
      · exact ih h c hc
    · simp only [Bool.and_eq_true,decide_eq_true_eq] at h
      rcases List.mem_cons.mp hc with rfl | hc
      · rw [h.1.1]
        decide
      · exact ih h.2 c hc

theorem dottedSegments_no_trailing_dot {b : Bool} {t : Text} : dottedSegments b (t ++ ['.']) = false := by
  induction t generalizing b with
  | nil => cases b <;> decide
  | cons x xs ih => simp [dottedSegments,ih]

theorem eventType_chars (t : EventType) : ∀ c ∈ t.val, c.toLower = c ∧ c ≠ '*' := by
  have h := t.property
  simp only [eventTypeRegex,Bool.and_eq_true,List.isPrefixOf_iff_prefix] at h
  obtain ⟨⟨s,hs⟩,hd⟩ := h
  rw [← hs] at hd ⊢
  intro c hc
  rcases List.mem_append.mp hc with hc | hc
  · have hw : ∀ c ∈ "wicked.".toList, c.toLower = c ∧ c ≠ '*' := by simp
    exact hw c hc
  · exact dottedSegments_chars hd c hc

theorem eventType_lower (t : EventType) : t.val.map Char.toLower = t.val := by
  have h : ∀ c ∈ t.val, c.toLower = id c := fun c hc => (eventType_chars t c hc).1
  rw [List.map_congr_left h,List.map_id]

theorem eventType_no_trailing_dot (t : EventType) (s : Text) : t.val ≠ s ++ ['.'] := by
  intro he
  have h := t.property
  simp only [eventTypeRegex,Bool.and_eq_true,List.isPrefixOf_iff_prefix] at h
  obtain ⟨⟨r,hr⟩,hd⟩ := h
  rw [← hr] at hd he
  rcases List.eq_nil_or_concat r with rfl | ⟨q,c,rfl⟩
  · exact absurd hd (by decide)
  · have hc : c = '.' := by
      rw [List.concat_eq_append,← List.append_assoc] at he
      simpa using List.append_inj_right' he rfl
    subst hc
    have hdrop : ("wicked.".toList ++ (q.concat '.')).drop 7 = q ++ ['.'] := by simp
    rw [hdrop,dottedSegments_no_trailing_dot] at hd
    cases hd

theorem like_dot_rest {t : Text} (ht : t.map Char.toLower = t) {p : Text} :
    LikePattern.like '\\' ('.' :: p) t = true ↔ ∃ s, t = '.' :: s ∧ LikePattern.like '\\' p s = true := by
  rw [LikePattern.like_literal (by decide) (by decide) (by decide)]
  constructor
  · rintro ⟨x,s,rfl,hx,hs⟩
    simp only [List.map_cons,List.cons.injEq] at ht
    rw [ht.1] at hx
    exact ⟨s,by rw [← hx]; rfl,hs⟩
  · rintro ⟨s,rfl,hs⟩
    exact ⟨'.',s,rfl,rfl,hs⟩

theorem like_stem {t stem p : Text} (ht : t.map Char.toLower = t) :
    LikePattern.like '\\' (escapeLike stem ++ '.' :: p) t = true ↔
      ∃ r, t = stem.map Char.toLower ++ '.' :: r ∧ LikePattern.like '\\' p r = true := by
  rw [show escapeLike stem = LikePattern.escape '\\' stem from rfl,
    LikePattern.like_escape (by decide)]
  constructor
  · rintro ⟨u,r,rfl,hu,hr⟩
    have hur := List.append_inj ((List.map_append ..).symm.trans ht) (by simp)
    obtain ⟨s,rfl,hs⟩ := (like_dot_rest hur.2).mp hr
    exact ⟨s,by rw [← hu,hur.1],hs⟩
  · rintro ⟨r,rfl,hr⟩
    refine ⟨stem.map Char.toLower,'.' :: r,rfl,by simp [Function.comp_def],?_⟩
    have hr' := List.append_inj ((List.map_append ..).symm.trans ht) (by simp)
    exact (like_dot_rest hr'.2).mpr ⟨r,rfl,hr⟩

theorem like_stem_any {t stem : Text} (ht : t.map Char.toLower = t) :
    LikePattern.like '\\' (escapeLike stem ++ ".%".toList) t = true ↔
      ∃ r, t = stem.map Char.toLower ++ '.' :: r := by
  rw [show ".%".toList = ['.','%'] from rfl,like_stem ht]
  simp [LikePattern.like_percent_end]

theorem like_stem_deeper {t stem : Text} (ht : t.map Char.toLower = t) :
    LikePattern.like '\\' (escapeLike stem ++ ".%.%".toList) t = true ↔
      ∃ r, t = stem.map Char.toLower ++ '.' :: r ∧ '.' ∈ r := by
  rw [show ".%.%".toList = ['.','%','.','%'] from rfl,like_stem ht]
  refine exists_congr fun r => and_congr_right fun hr => ?_
  have hlow : ∀ s, s <:+ r → s.map Char.toLower = s := by
    rintro s ⟨u,rfl⟩
    have h1 := List.append_inj ((List.map_append ..).symm.trans (hr ▸ ht)) (by simp)
    have h2 := List.append_inj ((List.map_append ..).symm.trans (List.cons.inj h1.2).2) (by simp)
    exact h2.2
  rw [LikePattern.like_percent]
  constructor
  · rintro ⟨s,hs,h⟩
    obtain ⟨v,rfl,_⟩ := (like_dot_rest (hlow s hs)).mp h
    exact hs.subset List.mem_cons_self
  · intro h
    obtain ⟨u,v,rfl⟩ := List.append_of_mem h
    have hs : '.' :: v <:+ u ++ '.' :: v := List.suffix_append _ _
    exact ⟨_,hs,(like_dot_rest (hlow _ hs)).mpr ⟨v,rfl,LikePattern.like_percent_end v⟩⟩

theorem lower_stem_isPrefixOf {t stem r : Text} (ht : t.map Char.toLower = t)
    (h : t = stem ++ '.' :: r) : stem.map Char.toLower = stem := by
  subst h
  exact (List.append_inj ((List.map_append ..).symm.trans ht) (by simp)).1

theorem stem_dot_isPrefixOf {t stem : Text} :
    (stem ++ ['.']).isPrefixOf t = true ↔ ∃ r, t = stem ++ '.' :: r := by
  rw [List.isPrefixOf_iff_prefix]
  constructor
  · rintro ⟨r,rfl⟩
    exact ⟨r,by simp⟩
  · rintro ⟨r,rfl⟩
    exact ⟨r,by simp⟩

theorem remainder_nonempty (t : EventType) {stem r : Text} (h : t.val = stem ++ '.' :: r) :
    r ≠ [] := by
  rintro rfl
  exact eventType_no_trailing_dot t stem h

theorem multiMatches_iff (t : EventType) (stem : Text) :
    multiMatches stem t.val = true ↔ ∃ r, t.val = stem ++ '.' :: r := by
  unfold multiMatches
  split_ifs with h
  · obtain ⟨r,hr⟩ := stem_dot_isPrefixOf.mp h
    have hne := remainder_nonempty t hr
    simp [hne,hr]
  · simp only [false_iff]
    exact fun he => h (stem_dot_isPrefixOf.mpr he)

theorem singleMatches_iff (t : EventType) (stem : Text) :
    singleMatches stem t.val = true ↔ ∃ r, t.val = stem ++ '.' :: r ∧ '.' ∉ r := by
  unfold singleMatches
  split_ifs with h
  · obtain ⟨r,hr⟩ := stem_dot_isPrefixOf.mp h
    have hne := remainder_nonempty t hr
    simp [hne,hr]
  · simp only [false_iff]
    exact fun ⟨r,he,_⟩ => h (stem_dot_isPrefixOf.mpr ⟨r,he⟩)

theorem foldsOnto_iff {t stem : Text} :
    foldsOnto stem t = true ↔
      stem.map Char.toLower ≠ stem ∧ ∃ r, t = stem.map Char.toLower ++ '.' :: r := by
  simp only [foldsOnto,Bool.and_eq_true,decide_eq_true_eq,stem_dot_isPrefixOf]

theorem star_mem_of_suffix {typePattern : Text} {s : Text} (hs : '*' ∈ s)
    (h : s.isSuffixOf typePattern = true) : '*' ∈ typePattern :=
  (List.isSuffixOf_iff_suffix.mp h).subset hs

theorem pattern_ne_eventType (t : EventType) {typePattern : Text} (h : '*' ∈ typePattern) :
    typePattern ≠ t.val := by
  rintro rfl
  exact (eventType_chars t '*' h).2 rfl

theorem typeLike_iff (t : EventType) (d stem : Text) :
    whereHolds [.typeLike (escapeLike stem ++ ".%".toList)] t.val d = true ↔
      ∃ r, t.val = stem.map Char.toLower ++ '.' :: r := by
  simp only [whereHolds,List.all_cons,List.all_nil,Condition.holds,Bool.and_true,
    like_stem_any (eventType_lower t)]

theorem typeLikeNotDeeper_iff (t : EventType) (d stem : Text) :
    whereHolds [.typeLike (escapeLike stem ++ ".%".toList),
      .typeNotLike (escapeLike stem ++ ".%.%".toList)] t.val d = true ↔
      ∃ r, t.val = stem.map Char.toLower ++ '.' :: r ∧ '.' ∉ r := by
  have hdeep := @like_stem_deeper _ stem (eventType_lower t)
  simp only [whereHolds,List.all_cons,List.all_nil,Condition.holds,Bool.and_true,
    Bool.and_eq_true,like_stem_any (eventType_lower t),Bool.not_eq_true',← Bool.not_eq_true,hdeep]
  constructor
  · rintro ⟨⟨r,hr⟩,hno⟩
    exact ⟨r,hr,fun hdot => hno ⟨r,hr,hdot⟩⟩
  · rintro ⟨r,hr,hdot⟩
    refine ⟨⟨r,hr⟩,?_⟩
    rintro ⟨s,hs,hdots⟩
    have he := List.append_cancel_left (hr.symm.trans hs)
    exact hdot ((List.cons.inj he).2 ▸ hdots)

theorem multi_agree_iff (t : EventType) (d stem : Text) :
    whereHolds [.typeLike (escapeLike stem ++ ".%".toList)] t.val d = multiMatches stem t.val ↔
      foldsOnto stem t.val = false := by
  rw [Bool.eq_iff_iff,typeLike_iff,multiMatches_iff,← Bool.not_eq_true,foldsOnto_iff]
  constructor
  · rintro h ⟨hne,hfold⟩
    obtain ⟨r,hr⟩ := h.mp hfold
    exact hne (lower_stem_isPrefixOf (eventType_lower t) hr)
  · intro h
    by_cases hlow : stem.map Char.toLower = stem
    · rw [hlow]
    · refine ⟨fun hfold => absurd ⟨hlow,hfold⟩ h,fun ⟨r,hr⟩ => ?_⟩
      exact absurd (lower_stem_isPrefixOf (eventType_lower t) hr) hlow

theorem drop_stem {t stem r : Text} (h : t = stem ++ '.' :: r) : t.drop (stem.length + 1) = r := by
  subst h
  simp [List.drop_append]

theorem single_agree_iff (t : EventType) (d stem : Text) :
    whereHolds [.typeLike (escapeLike stem ++ ".%".toList),
      .typeNotLike (escapeLike stem ++ ".%.%".toList)] t.val d = singleMatches stem t.val ↔
      (foldsOnto stem t.val && !(t.val.drop (stem.length + 1)).contains '.') = false := by
  rw [Bool.eq_iff_iff,typeLikeNotDeeper_iff,singleMatches_iff,← Bool.not_eq_true,
    Bool.and_eq_true,foldsOnto_iff]
  have hdrop : ∀ r, t.val = stem.map Char.toLower ++ '.' :: r →
      t.val.drop (stem.length + 1) = r := by
    intro r hr
    simpa using drop_stem hr
  constructor
  · rintro h ⟨⟨hne,r,hr⟩,hdot⟩
    rw [hdrop r hr] at hdot
    obtain ⟨u,hu,_⟩ := h.mp ⟨r,hr,by simpa using hdot⟩
    exact hne (lower_stem_isPrefixOf (eventType_lower t) hu)
  · intro h
    by_cases hlow : stem.map Char.toLower = stem
    · rw [hlow]
    · refine ⟨fun ⟨r,hr,hdot⟩ => absurd ⟨⟨hlow,r,hr⟩,?_⟩ h,fun ⟨r,hr,_⟩ => ?_⟩
      · simpa [hdrop r hr] using hdot
      · exact absurd (lower_stem_isPrefixOf (eventType_lower t) hr) hlow

theorem type_agree_iff (t : EventType) (d typePattern : Text) :
    whereHolds (typeConditions typePattern) t.val d = matchesType t.val typePattern ↔
      typeFoldGap t.val typePattern = false := by
  by_cases hstar : typePattern = ['*']
  · subst hstar
    have h1 : ".**".toList.isSuffixOf ['*'] = false := by decide
    have h2 : ".*".toList.isSuffixOf ['*'] = false := by decide
    simp only [typeConditions,matchesType,typeFoldGap,whereHolds,h1,h2,if_true,if_false,
      List.all_nil,Bool.false_eq_true]
  simp only [typeConditions,matchesType,typeFoldGap,if_neg hstar]
  by_cases hmulti : ".**".toList.isSuffixOf typePattern = true
  · have hne := pattern_ne_eventType t (star_mem_of_suffix (by decide) hmulti)
    simp only [hmulti,if_true,if_neg hne]
    exact multi_agree_iff t d _
  by_cases hsingle : ".*".toList.isSuffixOf typePattern = true
  · have hne := pattern_ne_eventType t (star_mem_of_suffix (by decide) hsingle)
    simp only [hmulti,hsingle,if_true,if_false,if_neg hne,Bool.false_eq_true]
    exact single_agree_iff t d _
  · simp only [hmulti,hsingle,if_false,Bool.false_eq_true,whereHolds,List.all_cons,List.all_nil,
      Condition.holds,Bool.and_true,eq_comm (a := t.val)]
    split_ifs <;> simp_all

theorem domainConditions_hold (df : Option Text) (eventType domain : Text) :
    whereHolds (domainConditions df) eventType domain = !domainRejects df domain := by
  cases df with
  | none => rfl
  | some d =>
    cases d with
    | nil => rfl
    | cons c cs => simp [domainConditions,whereHolds,Condition.holds,domainRejects]

theorem whereHolds_append (xs ys : List Condition) (eventType domain : Text) :
    whereHolds (xs ++ ys) eventType domain =
      (whereHolds xs eventType domain && whereHolds ys eventType domain) := by
  simp [whereHolds]

theorem engines_agree_iff (eventType : EventType) (domain : Domain) (filterStr : Text) :
    whereHolds (buildFilterSql filterStr) eventType.val domain.val =
        matchesFilter eventType.val domain.val filterStr ↔
      caseFoldGap eventType.val domain.val filterStr = false := by
  simp only [buildFilterSql,matchesFilter,caseFoldGap,whereHolds_append,domainConditions_hold]
  cases domainRejects (splitFilter filterStr).2 domain.val with
  | true => simp
  | false => simpa using type_agree_iff eventType domain.val (splitFilter filterStr).1

theorem engines_disagree_on_upper_case :
    ¬ ∀ (eventType : EventType) (domain : Domain) (filterStr : Text),
      whereHolds (buildFilterSql filterStr) eventType.val domain.val =
        matchesFilter eventType.val domain.val filterStr := by
  intro h
  exact absurd (h ⟨"wicked.run".toList,by decide⟩ ⟨"ci".toList,by decide⟩ "WICKED.*".toList)
    (by decide +kernel)

end WickedBus.Filter
