import Mathlib

structure FirstOf {α K : Type} [LinearOrder K] (key : α → K) (S : Set α) (n : ℕ) (xs : List α) :
    Prop where
  sorted : xs.Pairwise (fun a b => key a < key b)
  sub : ∀ x ∈ xs, x ∈ S
  length : xs.length ≤ n
  least : ∀ y ∈ S, y ∉ xs → xs.length = n ∧ ∀ x ∈ xs, key x < key y

namespace FirstOf

variable {α K : Type} [LinearOrder K] {key : α → K} {S : Set α} {n : ℕ} {xs : List α}

theorem of_take (hs : xs.Pairwise (fun a b => key a < key b)) (hmem : ∀ x, x ∈ xs ↔ x ∈ S) :
    FirstOf key S n (xs.take n) where
  sorted := hs.sublist (List.take_sublist n xs)
  sub x hx := (hmem x).mp (List.mem_of_mem_take hx)
  length := List.length_take_le n xs
  least y hy hnot := by
    have hdrop : y ∈ xs.drop n := by
      have hxs := (hmem y).mpr hy
      rw [← List.take_append_drop n xs] at hxs
      exact (List.mem_append.mp hxs).resolve_left hnot
    have hlen : n < xs.length := by
      have := List.length_pos_of_mem hdrop
      rw [List.length_drop] at this
      omega
    rw [← List.take_append_drop n xs] at hs
    exact ⟨by rw [List.length_take]; omega,fun x hx => (List.pairwise_append.mp hs).2.2 x hx y hdrop⟩

theorem take_getLast_bounds {y : α} (hs : xs.Pairwise (fun a b => key a < key b))
    (hy : (xs.take n).getLast? = some y) : (∀ x ∈ xs.take n, key x ≤ key y) ∧ ∀ x ∈ xs.drop n, key y < key x := by
  obtain ⟨zs,hzs⟩ := List.getLast?_eq_some_iff.mp hy
  rw [← List.take_append_drop n xs,hzs] at hs
  obtain ⟨hfront,-,hcross⟩ := List.pairwise_append.mp hs
  refine ⟨fun x hx => ?_,fun x hx => hcross y (by simp) x hx⟩
  rw [hzs] at hx
  rcases List.mem_append.mp hx with hx | hx
  · exact ((List.pairwise_append.mp hfront).2.2 x hx y List.mem_cons_self).le
  · rw [List.mem_singleton.mp hx]

theorem filter_after_take {y : α} (hs : xs.Pairwise (fun a b => key a < key b))
    (hy : (xs.take n).getLast? = some y) :
    xs.filter (fun x => decide (key y < key x)) = xs.drop n := by
  obtain ⟨hle,hlt⟩ := take_getLast_bounds hs hy
  have hfront : (xs.take n).filter (fun x => decide (key y < key x)) = [] :=
    List.filter_eq_nil_iff.mpr fun x hx => by simpa using hle x hx
  have hback : (xs.drop n).filter (fun x => decide (key y < key x)) = xs.drop n :=
    List.filter_eq_self.mpr fun x hx => decide_eq_true (hlt x hx)
  calc xs.filter (fun x => decide (key y < key x))
      = (xs.take n ++ xs.drop n).filter (fun x => decide (key y < key x)) := by
        rw [List.take_append_drop]
    _ = xs.drop n := by rw [List.filter_append,hfront,hback,List.nil_append]

theorem take_filter_overfetch {p : α → Bool} {m : ℕ} (hm : (xs.filter (fun x => !p x)).length ≤ m) :
    ((xs.take (n + m)).filter p).take n = (xs.filter p).take n := by
  induction xs generalizing n m with
  | nil => simp
  | cons x xs ih =>
    cases hp : p x with
    | true =>
      simp only [List.filter_cons,hp,Bool.not_true,Bool.false_eq_true,if_false] at hm
      cases n with
      | zero => rw [List.take_zero,List.take_zero]
      | succ n =>
        rw [Nat.succ_add,List.take_succ_cons,List.filter_cons,hp,if_pos rfl,List.filter_cons,hp,if_pos rfl,
          List.take_succ_cons,List.take_succ_cons,ih hm]
    | false =>
      simp only [List.filter_cons,hp,Bool.not_false,if_true,List.length_cons] at hm
      obtain ⟨m,rfl⟩ := Nat.exists_eq_succ_of_ne_zero (Nat.ne_zero_of_lt hm)
      rw [Nat.add_succ,List.take_succ_cons,List.filter_cons,hp,List.filter_cons,hp]
      exact ih (Nat.le_of_succ_le_succ hm)

theorem filter_not_take (hs : xs.Pairwise (fun a b => key a < key b)) :
    xs.filter (fun x => decide (key x ∉ (xs.take n).map key)) = xs.drop n := by
  have hfront : (xs.take n).filter (fun x => decide (key x ∉ (xs.take n).map key)) = [] :=
    List.filter_eq_nil_iff.mpr fun x hx => by simp [List.mem_map_of_mem hx,-List.map_take]
  have hback : (xs.drop n).filter (fun x => decide (key x ∉ (xs.take n).map key)) = xs.drop n := by
    refine List.filter_eq_self.mpr fun x hx => decide_eq_true fun hmem => ?_
    obtain ⟨z,hz,heq⟩ := List.mem_map.mp hmem
    rw [← List.take_append_drop n xs] at hs
    exact ((List.pairwise_append.mp hs).2.2 z hz x hx).ne heq
  calc xs.filter (fun x => decide (key x ∉ (xs.take n).map key))
      = (xs.take n ++ xs.drop n).filter (fun x => decide (key x ∉ (xs.take n).map key)) := by
        rw [List.take_append_drop]
    _ = xs.drop n := by rw [List.filter_append,hfront,hback,List.nil_append]

theorem mem_of_short (h : FirstOf key S n xs) (hlen : xs.length < n) {y : α} (hy : y ∈ S) : y ∈ xs := by
  by_contra hnot
  have := (h.least y hy hnot).1
  omega

theorem head_le (h : FirstOf key S n xs) {x : α} (hx : xs.head? = some x) {y : α} (hy : y ∈ S) :
    key x ≤ key y := by
  cases xs with
  | nil => cases hx
  | cons z zs =>
    cases hx
    by_cases hmem : y ∈ x :: zs
    · rcases List.mem_cons.mp hmem with rfl | hz
      · exact le_rfl
      · exact ((List.pairwise_cons.mp h.sorted).1 y hz).le
    · exact ((h.least y hy hmem).2 x List.mem_cons_self).le

theorem of_subset {T : Set α} (h : FirstOf key S n xs) (hsub : S ⊆ T)
    (hrest : ∀ y ∈ T, y ∉ S → xs.length = n ∧ ∀ x ∈ xs, key x < key y) : FirstOf key T n xs where
  sorted := h.sorted
  sub x hx := hsub (h.sub x hx)
  length := h.length
  least y hy hnot := by
    by_cases hS : y ∈ S
    · exact h.least y hS hnot
    · exact hrest y hy hS

theorem below (h : FirstOf key S n xs) {zs : List α} (hzs : zs.Pairwise (fun a b => key a < key b))
    (hsub : ∀ z ∈ zs, z ∈ S) (hlen : zs.length = n) {k : K} (hk : ∀ z ∈ zs, key z < k) :
    xs.length = n ∧ ∀ x ∈ xs, key x < k := by
  by_cases hall : zs ⊆ xs
  · have hperm := List.subperm_of_subset (hzs.imp fun hlt heq => hlt.ne (congrArg key heq)) hall
    have hxs : xs.length ≤ zs.length := hlen ▸ h.length
    have hzx := hperm.perm_of_length_le hxs
    exact ⟨hzx.length_eq ▸ hlen,fun x hx => hk x (hzx.mem_iff.mpr hx)⟩
  · obtain ⟨z,hz,hnot⟩ := not_forall₂.mp hall
    obtain ⟨hfull,hlt⟩ := h.least z (hsub z hz) hnot
    exact ⟨hfull,fun x hx => (hlt x hx).trans (hk z hz)⟩

theorem mem_of_bound (h : FirstOf key S n xs) {zs : List α} (hS : ∀ x ∈ S, x ∈ zs) (hlen : zs.length ≤ n)
    {y : α} (hy : y ∈ S) : y ∈ xs := by
  by_contra hnot
  obtain ⟨hfull,hlt⟩ := h.least y hy hnot
  have hnodup : (y :: xs).Nodup :=
    List.nodup_cons.mpr ⟨hnot,h.sorted.imp fun hab heq => hab.ne (congrArg key heq)⟩
  have hsub : y :: xs ⊆ zs := List.cons_subset.mpr ⟨hS y hy,fun x hx => hS x (h.sub x hx)⟩
  have := (List.subperm_of_subset hnodup hsub).length_le
  rw [List.length_cons] at this
  omega

inductive Paged (key : α → K) (S : Set α) (n : ℕ) : K → List α → Prop
  | done {last : K} (h : FirstOf key {x ∈ S | last < key x} n []) : Paged key S n last []
  | next {last : K} {xs rest : List α} {x : α}
      (h : FirstOf key {x ∈ S | last < key x} n (xs ++ [x])) (hrest : Paged key S n (key x) rest) :
      Paged key S n last ((xs ++ [x]) ++ rest)

theorem Paged.exact (hn : 0 < n) {last : K} {ys : List α} (h : Paged key S n last ys) :
    ys.Pairwise (fun a b => key a < key b) ∧ ∀ y, y ∈ ys ↔ y ∈ S ∧ last < key y := by
  induction h with
  | done h =>
    refine ⟨.nil,fun y => ⟨fun hy => (List.not_mem_nil hy).elim,fun hy => ?_⟩⟩
    exact h.mem_of_short hn hy
  | @next last xs rest x h hrest ih =>
    obtain ⟨hsorted,hmem⟩ := ih
    have hlast : ∀ z ∈ xs ++ [x], key z ≤ key x := by
      intro z hz
      rcases List.mem_append.mp hz with hz | hz
      · exact ((List.pairwise_append.mp h.sorted).2.2 z hz x List.mem_cons_self).le
      · rw [List.mem_singleton.mp hz]
    refine ⟨List.pairwise_append.mpr ⟨h.sorted,hsorted,fun a ha b hb => ?_⟩,fun y => ?_⟩
    · exact (hlast a ha).trans_lt ((hmem b).mp hb).2
    · rw [List.mem_append,hmem]
      constructor
      · rintro (hy | ⟨hy,hlt⟩)
        · exact h.sub y hy
        · exact ⟨hy,(h.sub x (by simp)).2.trans hlt⟩
      · rintro ⟨hy,hlt⟩
        by_cases hmem' : y ∈ xs ++ [x]
        · exact .inl hmem'
        · exact .inr ⟨hy,(h.least y ⟨hy,hlt⟩ hmem').2 x (by simp)⟩

end FirstOf
