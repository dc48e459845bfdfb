import Mathlib

namespace AssocMap

variable {K V : Type} [DecidableEq K]

def set (m : List (K × V)) (k : K) (v : V) : List (K × V) :=
  if m.any (fun e => e.1 = k) then m.map (fun e => if e.1 = k then (k,v) else e) else m ++ [(k,v)]

def erase (m : List (K × V)) (k : K) : List (K × V) := m.filter (fun e => decide (e.1 ≠ k))

variable {m : List (K × V)} {k x : K} {v w : V}

theorem lookup_cons_self (m : List (K × V)) (k : K) (v : V) : ((k,v) :: m).lookup k = some v := by
  simp

theorem lookup_cons_ne (h : k ≠ x) : ((x,v) :: m).lookup k = m.lookup k := by
  have hne : (k == x) = false := by simpa using h
  simp only [List.lookup_cons,hne]

theorem mem_of_lookup (h : m.lookup k = some v) : (k,v) ∈ m := by
  induction m with
  | nil => cases h
  | cons e m ih =>
    obtain ⟨x,w⟩ := e
    by_cases hk : k = x
    · subst hk
      rw [lookup_cons_self] at h
      cases h
      exact List.mem_cons_self
    · rw [lookup_cons_ne hk] at h
      exact List.mem_cons_of_mem _ (ih h)

theorem mem_set (h : (x,w) ∈ set m k v) : (x,w) = (k,v) ∨ (x,w) ∈ m := by
  unfold set at h
  split_ifs at h
  · obtain ⟨e,he,heq⟩ := List.mem_map.mp h
    split_ifs at heq
    · exact .inl heq.symm
    · exact .inr (heq ▸ he)
  · exact (List.mem_append.mp h).symm.imp_left List.mem_singleton.mp

theorem mem_erase : (x,w) ∈ erase m k ↔ (x,w) ∈ m ∧ x ≠ k := by
  simp [erase]

theorem set_cons_self (m : List (K × V)) (k : K) (v w : V) :
    set ((k,w) :: m) k v = (k,v) :: m.map (fun e => if e.1 = k then (k,v) else e) := by
  simp [set]

theorem set_cons_ne (h : x ≠ k) : set ((x,w) :: m) k v = (x,w) :: set m k v := by
  unfold set
  simp only [List.any_cons,h,decide_false,Bool.false_or,List.map_cons,if_false,List.cons_append]
  split_ifs <;> rfl

theorem lookup_set_self (m : List (K × V)) (k : K) (v : V) : (set m k v).lookup k = some v := by
  induction m with
  | nil => simp [set]
  | cons e m ih =>
    obtain ⟨x,w⟩ := e
    by_cases hx : x = k
    · subst hx
      rw [set_cons_self,lookup_cons_self]
    · rw [set_cons_ne hx,lookup_cons_ne (Ne.symm hx),ih]

theorem lookup_map_ne (h : x ≠ k) :
    (m.map (fun e => if e.1 = k then (k,v) else e)).lookup x = m.lookup x := by
  induction m with
  | nil => rfl
  | cons e m ih =>
    obtain ⟨y,w⟩ := e
    rw [List.map_cons]
    by_cases hy : y = k
    · subst hy
      rw [if_pos rfl,lookup_cons_ne h,lookup_cons_ne h,ih]
    · rw [if_neg hy,List.lookup_cons,List.lookup_cons,ih]

theorem lookup_set_ne (h : x ≠ k) : (set m k v).lookup x = m.lookup x := by
  unfold set
  split_ifs
  · exact lookup_map_ne h
  · rw [List.lookup_append,lookup_cons_ne h]
    simp

theorem lookup_erase (m : List (K × V)) (k x : K) :
    (erase m k).lookup x = if x = k then none else m.lookup x := by
  induction m with
  | nil => simp [erase]
  | cons e m ih =>
    obtain ⟨y,w⟩ := e
    unfold erase at ih ⊢
    by_cases hy : y = k
    · subst hy
      simp only [List.filter_cons,ne_eq,not_true_eq_false,decide_false,Bool.false_eq_true,if_false,ih]
      split_ifs with hx
      · rfl
      · rw [lookup_cons_ne hx]
    · simp only [List.filter_cons,ne_eq,hy,not_false_eq_true,decide_true,if_true]
      by_cases hx : x = y
      · subst hx
        rw [lookup_cons_self,lookup_cons_self,if_neg hy]
      · rw [lookup_cons_ne hx,lookup_cons_ne hx,ih]

def keys {K V : Type} (m : List (K × V)) : List K := m.map Prod.fst

def get (m : List (K × V)) (k : K) : Option V := m.lookup k

theorem mem_of_get (h : get m k = some v) : (k,v) ∈ m := mem_of_lookup h

theorem get_isSome : (get m k).isSome ↔ k ∈ keys m := by
  rw [get,List.lookup_isSome_iff,keys,List.mem_map]
  exact exists_congr fun e => and_congr_right fun _ => beq_iff_eq.trans eq_comm

theorem get_eq_none : get m k = none ↔ k ∉ keys m := by
  rw [← get_isSome,Option.not_isSome_iff_eq_none]

theorem get_cons_self (m : List (K × V)) (k : K) (v : V) : get ((k,v) :: m) k = some v := lookup_cons_self m k v

theorem get_cons_ne (h : k ≠ x) : get ((x,v) :: m) k = get m k := lookup_cons_ne h

theorem get_set (m : List (K × V)) (k x : K) (v : V) : get (set m k v) x = if x = k then some v else get m x := by
  split_ifs with hx
  · subst hx
    exact lookup_set_self m x v
  · exact lookup_set_ne hx

theorem get_erase (m : List (K × V)) (k x : K) : get (erase m k) x = if x = k then none else get m x :=
  lookup_erase m k x

def merge (m n : List (K × V)) : List (K × V) := n.foldr (fun e acc => set acc e.1 e.2) m

theorem get_merge (m n : List (K × V)) (k : K) : get (merge m n) k = (get n k).or (get m k) := by
  induction n with
  | nil => rfl
  | cons e n ih =>
    obtain ⟨x,w⟩ := e
    rw [merge,List.foldr_cons,get_set,← merge,ih]
    split_ifs with hk
    · subst hk
      rw [get_cons_self,Option.some_or]
    · rw [get_cons_ne hk]

theorem get_of_mem (hnodup : (keys m).Nodup) (h : (k,v) ∈ m) : get m k = some v := by
  induction m with
  | nil => cases h
  | cons e m ih =>
    obtain ⟨x,w⟩ := e
    obtain ⟨hnot,hnodup⟩ := List.nodup_cons.mp hnodup
    rcases List.mem_cons.mp h with heq | htail
    · cases heq
      exact lookup_cons_self m k v
    · have hk : k ≠ x := by
        rintro rfl
        exact hnot (List.mem_map.mpr ⟨_,htail,rfl⟩)
      exact (lookup_cons_ne hk).trans (ih hnodup htail)

theorem length_eq_of_keys {K V W : Type} {m : List (K × V)} {n : List (K × W)} (hm : (keys m).Nodup)
    (hn : (keys n).Nodup) (h : ∀ k, k ∈ keys m ↔ k ∈ keys n) : m.length = n.length := by
  have hperm := ((List.perm_ext_iff_of_nodup hm hn).mpr h).length_eq
  rwa [keys,keys,List.length_map,List.length_map] at hperm

end AssocMap
