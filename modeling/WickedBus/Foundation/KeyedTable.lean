import Mathlib

structure KeyedTable (R : Type) {K : Type} [LinearOrder K] (key : R → K) where
  rows : List R
  sorted : rows.Pairwise (fun a b => key a < key b)

namespace KeyedTable

variable {R K : Type} [LinearOrder K] {key : R → K}

instance : Membership R (KeyedTable R key) := ⟨fun t r => r ∈ t.rows⟩

instance [DecidableEq R] : DecidableEq (KeyedTable R key) := fun t u =>
  decidable_of_iff (t.rows = u.rows)
    ⟨fun h => by cases t; cases u; cases h; rfl, congrArg KeyedTable.rows⟩

instance [DecidableEq R] (r : R) (t : KeyedTable R key) : Decidable (r ∈ t) :=
  inferInstanceAs (Decidable (r ∈ t.rows))

theorem mem_rows {t : KeyedTable R key} {r : R} : r ∈ t.rows ↔ r ∈ t := Iff.rfl

def empty : KeyedTable R key := ⟨[], .nil⟩

@[simp] theorem not_mem_empty (r : R) : r ∉ (empty : KeyedTable R key) := by
  simp [empty, ← mem_rows]

theorem eq_of_key {t : KeyedTable R key} {r s : R} (hr : r ∈ t) (hs : s ∈ t)
    (h : key r = key s) : r = s := by
  by_contra hne
  have hpair : t.rows.Pairwise (fun a b => key a ≠ key b) := t.sorted.imp ne_of_lt
  have : Std.Symm (fun a b : R => key a ≠ key b) := ⟨fun _ _ => Ne.symm⟩
  exact hpair.forall hr hs hne h

theorem ext_mem {t u : KeyedTable R key} (h : ∀ r, r ∈ t ↔ r ∈ u) : t = u := by
  have : Std.Antisymm (fun a b : R => key a < key b) := ⟨fun _ _ hab hba => absurd hab (lt_asymm hba)⟩
  have : Std.Irrefl (fun a b : R => key a < key b) := ⟨fun _ => lt_irrefl _⟩
  have hrows : t.rows = u.rows := t.sorted.eq_of_mem_iff u.sorted h
  cases t
  cases u
  cases hrows
  rfl

theorem nodup_rows (t : KeyedTable R key) : t.rows.Nodup :=
  t.sorted.imp (fun h he => by simp [he] at h)

def filter (t : KeyedTable R key) (p : R → Bool) : KeyedTable R key :=
  ⟨t.rows.filter p, t.sorted.filter p⟩

@[simp] theorem mem_filter {t : KeyedTable R key} {p : R → Bool} {r : R} :
    r ∈ t.filter p ↔ r ∈ t ∧ p r = true := by
  simp [filter, ← mem_rows]

def map (t : KeyedTable R key) (f : R → R) (hf : ∀ r, key (f r) = key r) : KeyedTable R key :=
  ⟨t.rows.map f, by
    rw [List.pairwise_map]
    exact t.sorted.imp (by simp only [hf]; exact id)⟩

@[simp] theorem mem_map {t : KeyedTable R key} {f : R → R} {hf : ∀ r, key (f r) = key r} {r : R} :
    r ∈ t.map f hf ↔ ∃ s ∈ t, f s = r := by
  simp [map, ← mem_rows]

def insertRows (key : R → K) (r : R) : List R → List R
  | [] => [r]
  | x :: xs =>
    if key r < key x then r :: x :: xs
    else if key x < key r then x :: insertRows key r xs
    else x :: xs

theorem mem_insertRows_of {r x : R} {xs : List R} (h : x ∈ insertRows key r xs) :
    x = r ∨ x ∈ xs := by
  induction xs with
  | nil => simpa [insertRows] using h
  | cons y ys ih =>
    simp only [insertRows] at h
    split_ifs at h
    · simpa using h
    · rcases List.mem_cons.mp h with rfl | h
      · simp
      · rcases ih h with rfl | h <;> simp_all
    · exact .inr h

theorem insertRows_sorted (r : R) {xs : List R} (h : xs.Pairwise (fun a b => key a < key b)) :
    (insertRows key r xs).Pairwise (fun a b => key a < key b) := by
  induction xs with
  | nil => simp [insertRows]
  | cons y ys ih =>
    obtain ⟨hy, hys⟩ := List.pairwise_cons.mp h
    simp only [insertRows]
    split_ifs with h1 h2
    · refine List.pairwise_cons.mpr ⟨?_, h⟩
      intro z hz
      rcases List.mem_cons.mp hz with rfl | hz
      · exact h1
      · exact h1.trans (hy z hz)
    · refine List.pairwise_cons.mpr ⟨?_, ih hys⟩
      intro z hz
      rcases mem_insertRows_of hz with rfl | hz
      · exact h2
      · exact hy z hz
    · exact h

theorem mem_insertRows {r x : R} {xs : List R} (h : xs.Pairwise (fun a b => key a < key b)) :
    x ∈ insertRows key r xs ↔ x ∈ xs ∨ (x = r ∧ ∀ y ∈ xs, key y ≠ key r) := by
  induction xs with
  | nil => simp [insertRows]
  | cons y ys ih =>
    obtain ⟨hy, hys⟩ := List.pairwise_cons.mp h
    simp only [insertRows]
    split_ifs with h1 h2
    · have hfresh : ∀ z ∈ y :: ys, key z ≠ key r := by
        intro z hz
        rcases List.mem_cons.mp hz with rfl | hz
        · exact h1.ne'
        · exact (h1.trans (hy z hz)).ne'
      rw [List.mem_cons, or_comm]
      exact or_congr_right ⟨fun he => ⟨he, hfresh⟩, And.left⟩
    · simp only [List.mem_cons, ih hys, forall_eq_or_imp, ne_eq, h2.ne, not_false_eq_true,
        true_and, or_assoc]
    · have heq : key y = key r := le_antisymm (not_lt.mp h1) (not_lt.mp h2)
      simp [heq]

def insertOrIgnore (t : KeyedTable R key) (r : R) : KeyedTable R key :=
  ⟨insertRows key r t.rows, insertRows_sorted r t.sorted⟩

@[simp] theorem mem_insertOrIgnore {t : KeyedTable R key} {r x : R} :
    x ∈ t.insertOrIgnore r ↔ x ∈ t ∨ (x = r ∧ ∀ y ∈ t, key y ≠ key r) :=
  mem_insertRows t.sorted

def upsert (t : KeyedTable R key) (r : R) : KeyedTable R key :=
  (t.filter (fun x => decide (key x ≠ key r))).insertOrIgnore r

@[simp] theorem mem_upsert {t : KeyedTable R key} {r x : R} :
    x ∈ t.upsert r ↔ x = r ∨ (x ∈ t ∧ key x ≠ key r) := by
  simp only [upsert, mem_insertOrIgnore, mem_filter, decide_eq_true_eq]
  rw [or_comm]
  exact or_congr_left (and_iff_left_of_imp fun _ _ hy => hy.2)

def insertAll (t : KeyedTable R key) (rs : List R) : KeyedTable R key :=
  rs.foldl insertOrIgnore t

theorem mem_insertAll_of_mem {t : KeyedTable R key} {r : R} (rs : List R) (h : r ∈ t) :
    r ∈ t.insertAll rs := by
  induction rs generalizing t with
  | nil => exact h
  | cons x xs ih => exact ih (mem_insertOrIgnore.mpr (.inl h))

theorem mem_or_of_mem_insertAll {t : KeyedTable R key} {r : R} {rs : List R}
    (h : r ∈ t.insertAll rs) : r ∈ t ∨ r ∈ rs := by
  induction rs generalizing t with
  | nil => exact .inl h
  | cons x xs ih =>
    rcases ih h with h | h
    · rcases mem_insertOrIgnore.mp h with h | ⟨rfl, _⟩ <;> simp_all
    · exact .inr (List.mem_cons_of_mem _ h)

theorem exists_key_insertAll {t : KeyedTable R key} {r : R} {rs : List R} (h : r ∈ rs) :
    ∃ x ∈ t.insertAll rs, key x = key r := by
  induction rs generalizing t with
  | nil => simp at h
  | cons x xs ih =>
    rcases List.mem_cons.mp h with rfl | h
    · by_cases hex : ∃ y ∈ t, key y = key r
      · obtain ⟨y, hy, hk⟩ := hex
        exact ⟨y, mem_insertAll_of_mem (r :: xs) hy, hk⟩
      · have hr : r ∈ t.insertOrIgnore r :=
          mem_insertOrIgnore.mpr (.inr ⟨rfl, fun y hy hk => hex ⟨y, hy, hk⟩⟩)
        exact ⟨r, mem_insertAll_of_mem xs hr, rfl⟩
    · exact ih h

theorem mem_insertAll {t : KeyedTable R key} {rs : List R}
    (hrs : rs.Pairwise (fun a b => key a ≠ key b)) {r : R} :
    r ∈ t.insertAll rs ↔ r ∈ t ∨ (r ∈ rs ∧ ∀ y ∈ t, key y ≠ key r) := by
  induction rs generalizing t with
  | nil => simp [insertAll]
  | cons x xs ih =>
    obtain ⟨hx, hxs⟩ := List.pairwise_cons.mp hrs
    have hunfold : r ∈ t.insertAll (x :: xs) ↔ r ∈ (t.insertOrIgnore x).insertAll xs := Iff.rfl
    rw [hunfold, ih hxs]
    constructor
    · rintro (h | ⟨h, hfresh⟩)
      · rcases mem_insertOrIgnore.mp h with h | ⟨rfl, hfresh⟩
        · exact .inl h
        · exact .inr ⟨List.mem_cons_self, hfresh⟩
      · exact .inr ⟨List.mem_cons_of_mem _ h,
          fun y hy => hfresh y (mem_insertOrIgnore.mpr (.inl hy))⟩
    · rintro (h | ⟨h, hfresh⟩)
      · exact .inl (mem_insertOrIgnore.mpr (.inl h))
      · rcases List.mem_cons.mp h with rfl | h
        · exact .inl (mem_insertOrIgnore.mpr (.inr ⟨rfl, hfresh⟩))
        · refine .inr ⟨h, fun y hy => ?_⟩
          rcases mem_insertOrIgnore.mp hy with hy | ⟨rfl, _⟩
          · exact hfresh y hy
          · exact hx r ‹r ∈ xs›

theorem mem_insertAll_of_injective (hkey : Function.Injective key) {t : KeyedTable R key}
    {rs : List R} {r : R} : r ∈ t.insertAll rs ↔ r ∈ t ∨ r ∈ rs := by
  constructor
  · exact mem_or_of_mem_insertAll
  · rintro (h | h)
    · exact mem_insertAll_of_mem rs h
    · obtain ⟨x, hx, hk⟩ := exists_key_insertAll (t := t) h
      exact hkey hk ▸ hx

def get? (t : KeyedTable R key) (k : K) : Option R := t.rows.find? (fun r => decide (key r = k))

theorem get?_eq_some {t : KeyedTable R key} {k : K} {r : R} :
    t.get? k = some r ↔ r ∈ t ∧ key r = k := by
  constructor
  · intro h
    exact ⟨List.mem_of_find?_eq_some h, by simpa using List.find?_some h⟩
  · rintro ⟨hr, rfl⟩
    cases hf : t.rows.find? (fun s => decide (key s = key r)) with
    | none => simpa using List.find?_eq_none.mp hf r hr
    | some s =>
      have hk : key s = key r := by simpa using List.find?_some hf
      rw [get?, hf, eq_of_key (List.mem_of_find?_eq_some hf) hr hk]

theorem get?_eq_none {t : KeyedTable R key} {k : K} : t.get? k = none ↔ ∀ r ∈ t, key r ≠ k := by
  simp only [get?, List.find?_eq_none, mem_rows, decide_eq_true_eq, ne_eq]

theorem get?_map {t : KeyedTable R key} {f : R → R} {hf : ∀ r, key (f r) = key r} {k : K} :
    (t.map f hf).get? k = (t.get? k).map f := by
  simp only [get?, map, List.find?_map, Function.comp_def, hf]

theorem get?_insertOrIgnore {t : KeyedTable R key} {r : R} {k : K} :
    (t.insertOrIgnore r).get? k = (t.get? k).or (if key r = k then some r else none) := by
  cases h : t.get? k with
  | some x =>
    obtain ⟨hx, hk⟩ := get?_eq_some.mp h
    exact get?_eq_some.mpr ⟨mem_insertOrIgnore.mpr (.inl hx), hk⟩
  | none =>
    have hnone := get?_eq_none.mp h
    rw [Option.none_or]
    split_ifs with hk
    · exact get?_eq_some.mpr ⟨mem_insertOrIgnore.mpr (.inr ⟨rfl, hk ▸ hnone⟩), hk⟩
    · refine get?_eq_none.mpr fun x hx => ?_
      rcases mem_insertOrIgnore.mp hx with hx | ⟨rfl, -⟩
      · exact hnone x hx
      · exact hk

def minKey? (t : KeyedTable R key) : Option K := t.rows.head?.map key

def maxKey? (t : KeyedTable R key) : Option K := t.rows.getLast?.map key

theorem minKey?_eq_none {t : KeyedTable R key} : t.minKey? = none ↔ ∀ r, r ∉ t := by
  simp [minKey?, ← mem_rows, List.eq_nil_iff_forall_not_mem]

theorem minKey?_eq_some {t : KeyedTable R key} {k : K} :
    t.minKey? = some k ↔ (∃ r ∈ t, key r = k) ∧ ∀ r ∈ t, k ≤ key r := by
  obtain ⟨rows, hs⟩ := t
  cases rows with
  | nil => simp [minKey?, ← mem_rows]
  | cons x xs =>
    have hx := (List.pairwise_cons.mp hs).1
    have hle : ∀ r ∈ x :: xs, key x ≤ key r := by
      intro r hr
      rcases List.mem_cons.mp hr with rfl | hr
      · exact le_rfl
      · exact (hx r hr).le
    simp only [minKey?, ← mem_rows, List.head?_cons, Option.map_some, Option.some.injEq]
    constructor
    · rintro rfl
      exact ⟨⟨x, List.mem_cons_self, rfl⟩, hle⟩
    · rintro ⟨⟨r, hr, rfl⟩, hmin⟩
      exact le_antisymm (hle r hr) (hmin x List.mem_cons_self)

theorem maxKey?_eq_none {t : KeyedTable R key} : t.maxKey? = none ↔ ∀ r, r ∉ t := by
  simp [maxKey?, ← mem_rows, List.eq_nil_iff_forall_not_mem]

theorem maxKey?_eq_some {t : KeyedTable R key} {k : K} :
    t.maxKey? = some k ↔ (∃ r ∈ t, key r = k) ∧ ∀ r ∈ t, key r ≤ k := by
  obtain ⟨rows, hs⟩ := t
  rcases List.eq_nil_or_concat rows with rfl | ⟨xs, x, rfl⟩
  · simp [maxKey?, ← mem_rows]
  · rw [List.concat_eq_append] at hs
    have hle : ∀ r ∈ xs.concat x, key r ≤ key x := by
      intro r hr
      rw [List.concat_eq_append] at hr
      rcases List.mem_append.mp hr with hr | hr
      · exact ((List.pairwise_append.mp hs).2.2 r hr x List.mem_cons_self).le
      · rw [List.mem_singleton.mp hr]
    simp only [maxKey?, ← mem_rows, List.concat_eq_append, List.getLast?_append, List.getLast?_singleton,
      Option.some_or, Option.map_some, Option.some.injEq]
    rw [List.concat_eq_append] at hle
    constructor
    · rintro rfl
      exact ⟨⟨x, by simp, rfl⟩, hle⟩
    · rintro ⟨⟨r, hr, rfl⟩, hmax⟩
      exact le_antisymm (hmax x (by simp)) (hle r hr)

end KeyedTable
