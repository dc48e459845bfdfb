import WickedBus.JsonSchema

namespace WickedBus

open AssocMap (keys)
open Ipc (JsString ascii)

theorem SchemaTree.induct {P : SchemaTree → Prop}
    (node : ∀ own properties items, (∀ ps ∈ properties, ∀ f ∈ ps, P f.2) → (∀ sub ∈ items, P sub) →
      P (.node own properties items)) (s : SchemaTree) : P s := by
  refine SchemaTree.rec (motive_1 := P) (motive_2 := fun o => ∀ ps ∈ o, ∀ f ∈ ps, P f.2)
    (motive_3 := fun o => ∀ sub ∈ o, P sub) (motive_4 := fun ps => ∀ f ∈ ps, P f.2) (motive_5 := fun f => P f.2)
    node nofun ?_ nofun ?_ nofun ?_ (fun _ _ h => h) s
  · intro ps hps qs hqs
    obtain rfl := Option.some.inj hqs
    exact hps
  · intro sub hsub t ht
    obtain rfl := Option.some.inj ht
    exact hsub
  · intro f ps hf hps g hg
    rcases List.mem_cons.mp hg with rfl | hg
    · exact hf
    · exact hps g hg

section Parts

variable {own : Keywords} {properties : Option (List (JsString × SchemaTree))} {items : Option SchemaTree}
variable {ps : List (JsString × SchemaTree)} {sub : SchemaTree} {m : Member} {v : JsonValue} {path : JsString}

theorem enumViolations_ne_nil : enumViolations own m path ≠ [] ↔
    ∃ allowed, own.enum = some allowed ∧ ∀ x ∈ allowed, deepEqual x m = false := by
  unfold enumViolations
  cases own.enum with
  | none => simp
  | some allowed => simp

theorem typeViolations_ne_nil : typeViolations own m path ≠ [] ↔
    ∃ ts, own.type = some ts ∧ ∀ t ∈ ts, typeMatches t m = false := by
  unfold typeViolations
  cases own.type with
  | none => simp
  | some ts => simp

theorem violatedBound_ne_nil {α : Type} {bound : Option α} {violated : α → Bool} {rule : α → Rule} :
    violatedBound bound violated rule path ≠ [] ↔ ∃ n, bound = some n ∧ violated n = true := by
  unfold violatedBound
  cases bound with
  | none => simp
  | some n => simp

theorem requiredViolations_ne_nil : requiredViolations own m path ≠ [] ↔
    ∃ ks, own.required = some ks ∧ jsonType m = .object ∧ ∃ k ∈ ks, m.get k = none := by
  unfold requiredViolations
  cases own.required with
  | none => simp
  | some ks =>
    split_ifs with hobject
    · simp [hobject]
    · simp [hobject]

theorem additionalViolations_ne_nil {names : List JsString} : additionalViolations own names m path ≠ [] ↔
    own.additionalProperties = false ∧ ∃ k ∈ m.ownKeys, k ∉ names := by
  unfold additionalViolations
  split_ifs with hclosed
  · simp [hclosed]
  · simp [hclosed]

theorem walkFields_ne_nil : walkFields ps m path ≠ [] ↔
    ∃ f ∈ ps, ∃ x, m.get f.1 = some x ∧ walk f.2 x (childPath path f.1) ≠ [] := by
  induction ps with
  | nil => simp [walkFields]
  | cons f ps ih =>
    obtain ⟨k,sub⟩ := f
    rw [walkFields,Ne,List.append_eq_nil_iff,not_and_or,← Ne,← Ne,ih]
    simp only [List.mem_cons,exists_eq_or_imp]
    refine or_congr_left ?_
    cases m.get k with
    | none => simp
    | some x => simp

theorem walkProperties_ne_nil : walkProperties own properties m path ≠ [] ↔
    ∃ ps, properties = some ps ∧ jsonType m = .object ∧
      ((∃ f ∈ ps, ∃ x, m.get f.1 = some x ∧ walk f.2 x (childPath path f.1) ≠ []) ∨
        own.additionalProperties = false ∧ ∃ k ∈ m.ownKeys, k ∉ keys ps) := by
  cases properties with
  | none => simp [walkProperties]
  | some ps =>
    rw [walkProperties]
    by_cases hobject : jsonType m = .object
    · rw [if_pos hobject,Ne,List.append_eq_nil_iff,not_and_or,← Ne,← Ne,walkFields_ne_nil,
        additionalViolations_ne_nil]
      simp [hobject]
    · simp [hobject]

theorem itemViolations_ne_nil {xs : List JsonValue} :
    xs.zipIdx.flatMap (fun x => walk sub (.json x.1) (itemPath path x.2)) ≠ [] ↔
      ∃ i x, xs[i]? = some x ∧ walk sub (.json x) (itemPath path i) ≠ [] := by
  rw [Ne,List.flatMap_eq_nil_iff,not_forall]
  constructor
  · rintro ⟨⟨x,i⟩,hx⟩
    obtain ⟨hmem,hne⟩ := Classical.not_imp.mp hx
    exact ⟨i,x,List.mem_zipIdx_iff_getElem?.mp hmem,hne⟩
  · rintro ⟨i,x,hx,hne⟩
    exact ⟨(x,i),Classical.not_imp.mpr ⟨List.mem_zipIdx_iff_getElem?.mpr hx,hne⟩⟩

theorem walkItems_ne_nil : walkItems items m path ≠ [] ↔
    ∃ sub, items = some sub ∧ ∃ xs, m = .json (.array xs) ∧ ∃ i x, xs[i]? = some x ∧
      walk sub (.json x) (itemPath path i) ≠ [] := by
  cases items with
  | none => simp [walkItems]
  | some sub =>
    by_cases harray : ∃ xs, m = .json (.array xs)
    · obtain ⟨xs,rfl⟩ := harray
      rw [walkItems,itemViolations_ne_nil]
      simp
    · have hempty : walkItems (some sub) m path = [] := by
        rw [walkItems]
        exact fun xs h => harray ⟨xs,h⟩
      refine iff_of_false (not_not_intro hempty) ?_
      rintro ⟨_,-,xs,h,-⟩
      exact harray ⟨xs,h⟩

theorem walk_ne_nil : walk (.node own properties items) m path ≠ [] ↔
    enumViolations own m path ≠ [] ∨ typeViolations own m path ≠ [] ∨ boundViolations own m path ≠ [] ∨
      requiredViolations own m path ≠ [] ∨ walkProperties own properties m path ≠ [] ∨
      walkItems items m path ≠ [] := by
  rw [walk]
  split_ifs with htype
  · refine iff_of_true (fun h => ?_) (.inr (.inl htype))
    exact htype (List.append_eq_nil_iff.mp h).2
  · simp only [ne_eq,List.append_eq_nil_iff,not_and_or,or_assoc,not_not.mp htype,not_true_eq_false,false_or]

end Parts

inductive Bare : Member → Prop
  | function : Bare .function
  | objectPrototype : Bare .objectPrototype
  | null : Bare (.json .null)

theorem bare_of_inherited {k : JsString} {m : Member} (h : inherited k = some m) : Bare m := by
  unfold inherited at h
  split_ifs at h with hproto hmethod
  · cases h
    exact .objectPrototype
  · cases h
    exact .function

theorem bare_of_prototype {k : JsString} {m : Member} (h : Member.objectPrototype.get k = some m) : Bare m := by
  unfold Member.get at h
  split_ifs at h with hproto hmethod
  · cases h
    exact .null
  · cases h
    exact .function

theorem walk_breaks (s : SchemaTree) {m : Member} (hm : Bare m) (path : JsString) :
    walk s m path ≠ [] ↔ Breaks s m := by
  induction s using SchemaTree.induct generalizing m path with
  | node own properties items ihp _ =>
    have hbound : boundViolations own m path = [] := by cases hm <;> rfl
    have hitems : ¬ ∃ xs, m = .json (.array xs) := by
      rintro ⟨xs,rfl⟩
      cases hm
    have hkeys : m.ownKeys = [] := by cases hm <;> rfl
    have hobject : jsonType m = .object → m = .objectPrototype := by
      cases hm with
      | objectPrototype => exact fun _ => rfl
      | function => nofun
      | null => nofun
    rw [walk_ne_nil,enumViolations_ne_nil,typeViolations_ne_nil,requiredViolations_ne_nil,walkProperties_ne_nil,
      walkItems_ne_nil]
    constructor
    · rintro (⟨allowed,henum,hnone⟩ | ⟨ts,htype,hnone⟩ | h | ⟨ks,hrequired,hobj,k,hk,habsent⟩ |
        ⟨ps,rfl,hobj,⟨f,hf,x,hx,hwalk⟩ | ⟨-,k,hk,-⟩⟩ | ⟨sub,-,xs,harray,-⟩)
      · exact .enum henum hnone
      · exact .type htype hnone
      · exact absurd hbound h
      · obtain rfl := hobject hobj
        exact .required hrequired hk habsent
      · obtain rfl := hobject hobj
        exact .property hf hx ((ihp ps rfl f hf (bare_of_prototype hx) _).mp hwalk)
      · rw [hkeys] at hk
        cases hk
      · exact absurd ⟨xs,harray⟩ hitems
    · intro h
      cases h with
      | type keyword none => exact .inr (.inl ⟨_,keyword,none⟩)
      | enum keyword none => exact .inl ⟨_,keyword,none⟩
      | required keyword listed absent => exact .inr (.inr (.inr (.inl ⟨_,keyword,rfl,_,listed,absent⟩)))
      | property listed member breaks =>
        refine .inr (.inr (.inr (.inr (.inl ⟨_,rfl,rfl,.inl ⟨_,listed,_,member,?_⟩⟩))))
        exact (ihp _ rfl _ listed (bare_of_prototype member) _).mpr breaks

theorem typeMatches_iff {t : TypeName} {v : JsonValue} : typeMatches t (.json v) = true ↔ t.Admits v := by
  have hinteger : ∀ q : ℚ, q.den = 1 ↔ ∃ n : ℤ, q = n := by
    intro q
    constructor
    · exact fun h => ⟨q.num,((Rat.den_eq_one_iff q).mp h).symm⟩
    · rintro ⟨n,rfl⟩
      exact Rat.den_intCast n
  cases t <;> cases v <;> simp [typeMatches,jsonType,TypeName.Admits,isInteger,hinteger]

theorem codePoints_le_length (s : JsString) : codePoints s ≤ s.length := by
  induction s using codePoints.induct with
  | case1 => exact le_rfl
  | case2 u => exact le_rfl
  | case3 u v s hpair ih =>
    rw [codePoints,if_pos hpair]
    exact Nat.succ_le_succ (ih.trans (Nat.le_succ _))
  | case4 u v s hpair ih =>
    rw [codePoints,if_neg hpair]
    exact Nat.succ_le_succ ih

theorem deepEqualItems_of_forall {xs ys : List JsonValue} (h : List.Forall₂ Json.Same xs ys)
    (hitems : ∀ x ∈ xs, ∀ y ∈ ys, x.Same y → deepEqual x (.json y) = true) : deepEqualItems xs ys = true := by
  induction h with
  | nil => rfl
  | @cons x y xs ys hxy _ ih =>
    rw [deepEqualItems,hitems x List.mem_cons_self y List.mem_cons_self hxy,Bool.true_and]
    exact ih fun a ha b hb => hitems a (List.mem_cons_of_mem _ ha) b (List.mem_cons_of_mem _ hb)

theorem deepEqualFields_of_forall {fields : List (JsString × JsonValue)} {b : Member}
    (h : ∀ f ∈ fields, ∃ y, b.get f.1 = some y ∧ deepEqual f.2 y = true) : deepEqualFields fields b = true := by
  induction fields with
  | nil => rfl
  | cons f fields ih =>
    obtain ⟨k,x⟩ := f
    obtain ⟨y,hget,hxy⟩ := h (k,x) List.mem_cons_self
    rw [deepEqualFields,hget]
    simp only [hxy,Bool.true_and]
    exact ih fun g hg => h g (List.mem_cons_of_mem _ hg)

theorem get_of_lookup {fields : List (JsString × JsonValue)} {k : JsString} {x : JsonValue}
    (h : AssocMap.get fields k = some x) : (Member.json (.object fields)).get k = some (.json x) := by
  rw [Member.get,h]
  rfl

theorem deepEqual_of_same {x y : JsonValue} (hx : x.Unique) (hy : y.Unique) (h : x.Same y) :
    deepEqual x (.json y) = true := by
  induction x using Json.induct generalizing y with
  | null =>
    cases h
    rfl
  | bool b =>
    cases h
    simp [deepEqual]
  | number q =>
    cases h
    simp [deepEqual]
  | string s =>
    cases h
    simp [deepEqual]
  | array xs ih =>
    cases h with
    | array items =>
      rw [deepEqual]
      exact deepEqualItems_of_forall items fun a ha b hb => ih a ha (hx.items a ha) (hy.items b hb)
  | object fs ih =>
    cases h with
    | @object _ gs names values =>
      rw [deepEqual,AssocMap.length_eq_of_keys hx.nodup hy.nodup names,decide_eq_true rfl,Bool.true_and]
      refine deepEqualFields_of_forall fun f hf => ?_
      have hlookup := AssocMap.get_of_mem hx.nodup hf
      have hpresent := (names f.1).mp (AssocMap.get_isSome.mp (by rw [hlookup]; rfl))
      obtain ⟨y,hy'⟩ := Option.isSome_iff_exists.mp (AssocMap.get_isSome.mpr hpresent)
      have hsame := values f.1 f.2 y hlookup hy'
      have hunique := hy.values _ (AssocMap.mem_of_get hy')
      exact ⟨.json y,get_of_lookup hy',ih f hf (hx.values f hf) hunique hsame⟩

theorem object_of_jsonType {v : JsonValue} (h : jsonType (.json v) = .object) : ∃ fields, v = .object fields := by
  cases v with
  | object fields => exact ⟨fields,rfl⟩
  | null => cases h
  | bool b => cases h
  | number q => cases h
  | string s => cases h
  | array xs => cases h

theorem get_eq_some_cases {fields : List (JsString × JsonValue)} {k : JsString} {m : Member}
    (h : (Member.json (.object fields)).get k = some m) :
    (∃ x, AssocMap.get fields k = some x ∧ m = .json x) ∨ k ∉ keys fields ∧ inherited k = some m := by
  rw [Member.get] at h
  cases hk : AssocMap.get fields k with
  | some x =>
    rw [hk] at h
    exact .inl ⟨x,rfl,(Option.some.inj h).symm⟩
  | none =>
    rw [hk] at h
    exact .inr ⟨AssocMap.get_eq_none.mp hk,h⟩

theorem get_of_inherited {fields : List (JsString × JsonValue)} {k : JsString} (hk : k ∉ keys fields) :
    (Member.json (.object fields)).get k = inherited k := by
  rw [Member.get,AssocMap.get_eq_none.mpr hk]
  rfl

theorem get_eq_none_iff {fields : List (JsString × JsonValue)} {k : JsString} :
    (Member.json (.object fields)).get k = none ↔ k ∉ keys fields ∧ inherited k = none := by
  constructor
  · intro h
    have hk : k ∉ keys fields := by
      rw [← AssocMap.get_eq_none]
      cases hx : AssocMap.get fields k with
      | none => rfl
      | some x =>
        rw [get_of_lookup hx] at h
        cases h
    exact ⟨hk,(get_of_inherited hk).symm.trans h⟩
  · rintro ⟨hk,hnone⟩
    exact (get_of_inherited hk).trans hnone

section Walk

variable {own : Keywords} {properties : Option (List (JsString × SchemaTree))} {items : Option SchemaTree}
variable {v : JsonValue} {path : JsString}

def Fails (s : SchemaTree) (v : JsonValue) : Prop := FailsBoth s v ∨ OnlyCodeFails s v

theorem fails_of_bound (h : boundViolations own (.json v) path ≠ []) : Fails (.node own properties items) v := by
  cases v with
  | string s =>
    rw [boundViolations,Ne,List.append_eq_nil_iff,not_and_or,← Ne,← Ne,violatedBound_ne_nil,
      violatedBound_ne_nil] at h
    rcases h with ⟨n,hn,hshort⟩ | ⟨n,hn,hlong⟩
    · exact .inl (.minLength hn (of_decide_eq_true hshort))
    · by_cases hboth : n < codePoints s
      · exact .inl (.maxLength hn hboth)
      · exact .inr (.maxLength hn (not_lt.mp hboth) (of_decide_eq_true hlong))
  | number q =>
    rw [boundViolations,Ne,List.append_eq_nil_iff,not_and_or,← Ne,← Ne,violatedBound_ne_nil,
      violatedBound_ne_nil] at h
    rcases h with ⟨n,hn,hsmall⟩ | ⟨n,hn,hlarge⟩
    · exact .inl (.minimum hn (of_decide_eq_true hsmall))
    · exact .inl (.maximum hn (of_decide_eq_true hlarge))
  | null => exact absurd rfl h
  | bool b => exact absurd rfl h
  | array xs => exact absurd rfl h
  | object fields => exact absurd rfl h

theorem fails_of_walk (s : SchemaTree) (v : JsonValue) (path : JsString) (h : walk s (.json v) path ≠ []) :
    Fails s v := by
  induction s using SchemaTree.induct generalizing v path with
  | node own properties items ihp ihi =>
    rw [walk_ne_nil,enumViolations_ne_nil,typeViolations_ne_nil,requiredViolations_ne_nil,walkProperties_ne_nil,
      walkItems_ne_nil] at h
    rcases h with ⟨allowed,henum,hnone⟩ | ⟨ts,htype,hnone⟩ | h | ⟨ks,hrequired,hobject,k,hk,habsent⟩ |
      ⟨ps,rfl,hobject,⟨f,hf,m,hm,hwalk⟩ | ⟨hclosed,k,hk,hlisted⟩⟩ | ⟨sub,rfl,xs,harray,i,x,hx,hwalk⟩
    · exact .inl (.enum henum hnone)
    · refine .inl (.type htype fun t ht hadmits => ?_)
      have hmismatch := hnone t ht
      rw [typeMatches_iff.mpr hadmits] at hmismatch
      cases hmismatch
    · exact fails_of_bound h
    · obtain ⟨fields,rfl⟩ := object_of_jsonType hobject
      obtain ⟨hkeys,hplain⟩ := get_eq_none_iff.mp habsent
      exact .inl (.required hrequired hk hkeys hplain)
    · obtain ⟨fields,rfl⟩ := object_of_jsonType hobject
      rcases get_eq_some_cases hm with ⟨x,hx,rfl⟩ | ⟨hkeys,hinherited⟩
      · exact (ihp ps rfl f hf x _ hwalk).imp (.property hf hx) (.property hf hx)
      · exact .inr (.inherited hf hkeys hinherited ((walk_breaks f.2 (bare_of_inherited hinherited) _).mp hwalk))
    · obtain ⟨fields,rfl⟩ := object_of_jsonType hobject
      exact .inl (.additional hclosed hk hlisted)
    · cases harray
      exact (ihi sub rfl x _ hwalk).imp (.item (List.mem_of_getElem? hx)) (.item (List.mem_of_getElem? hx))

theorem walk_of_bound (h : boundViolations own (.json v) path ≠ []) :
    walk (.node own properties items) (.json v) path ≠ [] :=
  walk_ne_nil.mpr (.inr (.inr (.inl h)))

theorem walk_of_string_bound {n : ℕ} {s : JsString}
    (h : own.minLength = some n ∧ s.length < n ∨ own.maxLength = some n ∧ n < s.length) :
    walk (.node own properties items) (.json (.string s)) path ≠ [] := by
  refine walk_of_bound ?_
  rw [boundViolations,Ne,List.append_eq_nil_iff,not_and_or,← Ne,← Ne,violatedBound_ne_nil,violatedBound_ne_nil]
  exact h.imp (fun h => ⟨n,h.1,decide_eq_true h.2⟩) (fun h => ⟨n,h.1,decide_eq_true h.2⟩)

theorem walk_of_number_bound {n q : ℚ} (h : own.minimum = some n ∧ q < n ∨ own.maximum = some n ∧ n < q) :
    walk (.node own properties items) (.json (.number q)) path ≠ [] := by
  refine walk_of_bound ?_
  rw [boundViolations,Ne,List.append_eq_nil_iff,not_and_or,← Ne,← Ne,violatedBound_ne_nil,violatedBound_ne_nil]
  exact h.imp (fun h => ⟨n,h.1,decide_eq_true h.2⟩) (fun h => ⟨n,h.1,decide_eq_true h.2⟩)

theorem walk_of_property {ps : List (JsString × SchemaTree)} {f : JsString × SchemaTree} {m : Member}
    {fields : List (JsString × JsonValue)} (hf : f ∈ ps) (hm : (Member.json (.object fields)).get f.1 = some m)
    (h : walk f.2 m (childPath path f.1) ≠ []) :
    walk (.node own (some ps) items) (.json (.object fields)) path ≠ [] :=
  walk_ne_nil.mpr (.inr (.inr (.inr (.inr (.inl
    (walkProperties_ne_nil.mpr ⟨ps,rfl,rfl,.inl ⟨f,hf,m,hm,h⟩⟩))))))

theorem walk_of_item {sub : SchemaTree} {xs : List JsonValue} {x : JsonValue} (hx : x ∈ xs)
    (h : ∀ path, walk sub (.json x) path ≠ []) :
    walk (.node own properties (some sub)) (.json (.array xs)) path ≠ [] := by
  obtain ⟨i,hi⟩ := List.mem_iff_getElem?.mp hx
  exact walk_ne_nil.mpr (.inr (.inr (.inr (.inr (.inr
    (walkItems_ne_nil.mpr ⟨sub,rfl,xs,rfl,i,x,hi,h _⟩))))))

theorem walk_of_failsBoth {s : SchemaTree} {v : JsonValue} (h : FailsBoth s v) (path : JsString) :
    walk s (.json v) path ≠ [] := by
  induction h generalizing path with
  | type keyword none =>
    refine walk_ne_nil.mpr (.inr (.inl (typeViolations_ne_nil.mpr ⟨_,keyword,fun t ht => ?_⟩)))
    exact Bool.eq_false_iff.mpr fun hmatch => none t ht (typeMatches_iff.mp hmatch)
  | enum keyword none => exact walk_ne_nil.mpr (.inl (enumViolations_ne_nil.mpr ⟨_,keyword,none⟩))
  | minLength keyword short => exact walk_of_string_bound (.inl ⟨keyword,short⟩)
  | @maxLength own ps items n s keyword long =>
    exact walk_of_string_bound (.inr ⟨keyword,long.trans_le (codePoints_le_length s)⟩)
  | minimum keyword small => exact walk_of_number_bound (.inl ⟨keyword,small⟩)
  | maximum keyword large => exact walk_of_number_bound (.inr ⟨keyword,large⟩)
  | required keyword listed absent plain =>
    exact walk_ne_nil.mpr (.inr (.inr (.inr (.inl (requiredViolations_ne_nil.mpr
      ⟨_,keyword,rfl,_,listed,get_eq_none_iff.mpr ⟨absent,plain⟩⟩)))))
  | additional closed present unlisted =>
    exact walk_ne_nil.mpr (.inr (.inr (.inr (.inr (.inl (walkProperties_ne_nil.mpr
      ⟨_,rfl,rfl,.inr ⟨closed,_,present,unlisted⟩⟩))))))
  | property listed present fails ih => exact walk_of_property listed (get_of_lookup present) (ih _)
  | item present fails ih => exact walk_of_item present ih

theorem walk_of_onlyCodeFails {s : SchemaTree} {v : JsonValue} (h : OnlyCodeFails s v) (path : JsString) :
    walk s (.json v) path ≠ [] := by
  induction h generalizing path with
  | maxLength keyword short long => exact walk_of_string_bound (.inr ⟨keyword,long⟩)
  | @inherited own ps items f fields m listed absent member breaks =>
    refine walk_of_property listed ((get_of_inherited absent).trans member) ?_
    exact (walk_breaks f.2 (bare_of_inherited member) _).mpr breaks
  | property listed present fails ih => exact walk_of_property listed (get_of_lookup present) (ih _)
  | item present fails ih => exact walk_of_item present ih

theorem validateAgainst_ne_nil {s : SchemaTree} {v : JsonValue} : validateAgainst s v ≠ [] ↔ Fails s v :=
  ⟨fails_of_walk s v [],fun h => h.elim (walk_of_failsBoth · []) (walk_of_onlyCodeFails · [])⟩

end Walk

inductive SchemaTree.Unique : SchemaTree → Prop
  | node {own : Keywords} {properties : Option (List (JsString × SchemaTree))} {items : Option SchemaTree}
      (allowed : ∀ xs ∈ own.enum, ∀ x ∈ xs, x.Unique) (fields : ∀ ps ∈ properties, ∀ f ∈ ps, SchemaTree.Unique f.2)
      (elements : ∀ sub ∈ items, SchemaTree.Unique sub) : SchemaTree.Unique (.node own properties items)

section Standard

variable {s : SchemaTree} {v : JsonValue}

theorem not_valid_of_failsBoth (h : FailsBoth s v) (hs : s.Unique) (hv : v.Unique) : ¬ Valid s v := by
  intro hvalid
  induction h with
  | type keyword none =>
    cases hvalid with
    | node type =>
      obtain ⟨t,ht,hadmits⟩ := type _ keyword
      exact none t ht hadmits
  | enum keyword none =>
    cases hvalid with
    | node type enum =>
      cases hs with
      | node unique =>
        obtain ⟨x,hx,hsame⟩ := enum _ keyword
        have hequal := deepEqual_of_same (unique _ keyword x hx) hv hsame
        rw [none x hx] at hequal
        cases hequal
  | minLength keyword short =>
    cases hvalid with
    | node type enum minLength =>
      exact absurd (minLength _ keyword _ rfl) (not_le.mpr ((codePoints_le_length _).trans_lt short))
  | maxLength keyword long =>
    cases hvalid with
    | node type enum minLength maxLength => exact absurd (maxLength _ keyword _ rfl) (not_le.mpr long)
  | minimum keyword small =>
    cases hvalid with
    | node type enum minLength maxLength minimum => exact absurd (minimum _ keyword _ rfl) (not_le.mpr small)
  | maximum keyword large =>
    cases hvalid with
    | node type enum minLength maxLength minimum maximum =>
      exact absurd (maximum _ keyword _ rfl) (not_le.mpr large)
  | required keyword listed absent plain =>
    cases hvalid with
    | node type enum minLength maxLength minimum maximum required =>
      exact absent (required _ keyword _ rfl _ listed)
  | additional closed present unlisted =>
    cases hvalid with
    | node type enum minLength maxLength minimum maximum required additional =>
      obtain ⟨ps,hps,hlisted⟩ := additional closed _ rfl _ present
      obtain rfl := Option.some.inj hps
      exact unlisted hlisted
  | property listed present fails ih =>
    cases hvalid with
    | node type enum minLength maxLength minimum maximum required additional property =>
      cases hs with
      | node _ fields =>
        exact ih (fields _ rfl _ listed) (hv.values _ (AssocMap.mem_of_get present))
          (property _ rfl _ rfl _ listed _ present)
  | item present fails ih =>
    cases hvalid with
    | node type enum minLength maxLength minimum maximum required additional property item =>
      cases hs with
      | node _ _ elements => exact ih (elements _ rfl) (hv.items _ present) (item _ rfl _ rfl _ present)

theorem not_valid_of_onlyStandardFails (h : OnlyStandardFails s v) : ¬ Valid s v := by
  intro hvalid
  induction h with
  | enum keyword listed matched none =>
    cases hvalid with
    | node type enum =>
      obtain ⟨x,hx,hsame⟩ := enum _ keyword
      exact none x hx hsame
  | minLength keyword short long =>
    cases hvalid with
    | node type enum minLength => exact absurd (minLength _ keyword _ rfl) (not_le.mpr short)
  | required keyword listed absent member =>
    cases hvalid with
    | node type enum minLength maxLength minimum maximum required =>
      exact absent (required _ keyword _ rfl _ listed)
  | additional closed present =>
    cases hvalid with
    | node type enum minLength maxLength minimum maximum required additional =>
      obtain ⟨ps,hps,-⟩ := additional closed _ rfl _ present
      cases hps
  | property listed present fails ih =>
    cases hvalid with
    | node type enum minLength maxLength minimum maximum required additional property =>
      exact ih (property _ rfl _ rfl _ listed _ present)
  | item present fails ih =>
    cases hvalid with
    | node type enum minLength maxLength minimum maximum required additional property item =>
      exact ih (item _ rfl _ rfl _ present)

theorem valid_of_not_fails (s : SchemaTree) (v : JsonValue) (hboth : ¬ FailsBoth s v)
    (honly : ¬ OnlyStandardFails s v) : Valid s v := by
  induction s using SchemaTree.induct generalizing v with
  | node own properties items ihp ihi =>
    constructor
    case type =>
      intro ts hts
      by_contra hnone
      exact hboth (.type hts fun t ht hadmits => hnone ⟨t,ht,hadmits⟩)
    case enum =>
      intro allowed henum
      by_contra hnone
      by_cases hmatch : ∃ x ∈ allowed, deepEqual x (.json v) = true
      · obtain ⟨x,hx,hequal⟩ := hmatch
        exact honly (.enum henum hx hequal fun y hy hsame => hnone ⟨y,hy,hsame⟩)
      · exact hboth (.enum henum fun x hx => Bool.eq_false_iff.mpr fun hequal => hmatch ⟨x,hx,hequal⟩)
    case minLength =>
      rintro n hn s rfl
      by_contra hshort
      rw [not_le] at hshort
      by_cases hunits : s.length < n
      · exact hboth (.minLength hn hunits)
      · exact honly (.minLength hn hshort (not_lt.mp hunits))
    case maxLength =>
      rintro n hn s rfl
      by_contra hlong
      exact hboth (.maxLength hn (not_le.mp hlong))
    case minimum =>
      rintro n hn q rfl
      by_contra hsmall
      exact hboth (.minimum hn (not_le.mp hsmall))
    case maximum =>
      rintro n hn q rfl
      by_contra hlarge
      exact hboth (.maximum hn (not_le.mp hlarge))
    case required =>
      rintro ks hks fields rfl k hk
      by_contra habsent
      cases hm : inherited k with
      | none => exact hboth (.required hks hk habsent hm)
      | some m => exact honly (.required hks hk habsent (by rw [hm]; rfl))
    case additional =>
      rintro hclosed fields rfl k hk
      cases properties with
      | none => exact absurd (.additional hclosed hk) honly
      | some ps =>
        refine ⟨ps,rfl,?_⟩
        by_contra hunlisted
        exact hboth (.additional hclosed hk hunlisted)
    case property =>
      rintro ps rfl fields rfl f hf x hx
      exact ihp ps rfl f hf x (fun h => hboth (.property hf hx h)) (fun h => honly (.property hf hx h))
    case item =>
      rintro sub rfl xs rfl x hx
      exact ihi sub rfl x (fun h => hboth (.item hx h)) (fun h => honly (.item hx h))

theorem not_valid_iff (hs : s.Unique) (hv : v.Unique) : ¬ Valid s v ↔ FailsBoth s v ∨ OnlyStandardFails s v := by
  constructor
  · intro h
    by_contra hnone
    obtain ⟨hboth,honly⟩ := not_or.mp hnone
    exact h (valid_of_not_fails s v hboth honly)
  · rintro (hboth | honly)
    · exact not_valid_of_failsBoth hboth hs hv
    · exact not_valid_of_onlyStandardFails honly

theorem validateAgainst_valid_iff (hs : s.Unique) (hv : v.Unique) :
    (validateAgainst s v = [] ↔ Valid s v) ↔ FailsBoth s v ∨ (OnlyCodeFails s v ↔ OnlyStandardFails s v) := by
  have hcode : validateAgainst s v = [] ↔ ¬ (FailsBoth s v ∨ OnlyCodeFails s v) := by
    rw [← Fails,← validateAgainst_ne_nil,ne_eq,not_not]
  have hstandard : Valid s v ↔ ¬ (FailsBoth s v ∨ OnlyStandardFails s v) := by
    rw [← not_valid_iff hs hv,not_not]
  rw [hcode,hstandard]
  tauto

end Standard

def anything : Keywords := ⟨none,none,none,none,none,none,none,true⟩

def reportSchema : SchemaTree := .node { anything with type := some [.object], required := some [ascii "run"] } none none

def report : JsonValue := .object [(ascii "run",.string (ascii "r-1"))]

theorem validateAgainst_valid_sample : validateAgainst reportSchema report = [] ↔ Valid reportSchema report := by
  have hs : reportSchema.Unique := .node nofun nofun nofun
  have hv : report.Unique := .object (by decide) fun f hf => by
    obtain rfl := List.mem_singleton.mp hf
    exact .string _
  refine (validateAgainst_valid_iff hs hv).mpr (.inr (iff_of_false nofun fun h => ?_))
  cases h with
  | enum keyword => cases keyword
  | required keyword listed absent =>
    cases keyword
    obtain rfl := List.mem_singleton.mp listed
    exact absent List.mem_cons_self
  | additional closed => cases closed

def closedSchema : SchemaTree := .node { anything with additionalProperties := false } none none

def shortSchema : SchemaTree := .node { anything with maxLength := some 1 } none none

def namedSchema : SchemaTree := .node { anything with required := some [ascii "toString"] } none none

def astral : JsonValue := .string [0xd83d,0xde00]

theorem validateAgainst_misjudges :
    (validateAgainst closedSchema report = [] ∧ ¬ Valid closedSchema report) ∧
    (validateAgainst namedSchema report = [] ∧ ¬ Valid namedSchema report) ∧
    (validateAgainst shortSchema astral ≠ [] ∧ Valid shortSchema astral) := by
  refine ⟨⟨by decide,not_valid_of_onlyStandardFails (.additional rfl List.mem_cons_self)⟩,
    ⟨by decide,not_valid_of_onlyStandardFails (.required rfl List.mem_cons_self (by decide) (by decide))⟩,
    by decide,valid_of_not_fails _ _ ?_ ?_⟩
  · intro h
    cases h with
    | type keyword => cases keyword
    | enum keyword => cases keyword
    | minLength keyword => cases keyword
    | maxLength keyword long =>
      cases keyword
      exact absurd long (by decide)
  · intro h
    cases h with
    | enum keyword => cases keyword
    | minLength keyword => cases keyword

end WickedBus
