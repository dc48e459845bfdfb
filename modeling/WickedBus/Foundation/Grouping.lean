import Mathlib

namespace Grouping

variable {α K : Type} [DecidableEq K] {key : α → K} {l : List α} {ks : List K} {k : K}

def group (key : α → K) (l : List α) (k : K) : List α := l.filter (fun a => decide (key a = k))

theorem mem_group {a : α} : a ∈ group key l k ↔ a ∈ l ∧ key a = k := by
  rw [group,List.mem_filter,decide_eq_true_eq]

theorem group_filter_ne {j : K} (h : j ≠ k) :
    group key (l.filter (fun a => !decide (key a = k))) j = group key l j := by
  rw [group,List.filter_filter]
  refine List.filter_congr fun a _ => ?_
  by_cases hj : key a = j
  · simp [hj,h]
  · simp [hj]

theorem groups_perm (hnodup : ks.Nodup) (hcover : ∀ a ∈ l, key a ∈ ks) : (ks.flatMap (group key l)).Perm l := by
  induction ks generalizing l with
  | nil =>
    rw [List.eq_nil_iff_forall_not_mem.mpr fun a ha => absurd (hcover a ha) List.not_mem_nil]
    exact .nil
  | cons k ks ih =>
    obtain ⟨hhead,htail⟩ := List.nodup_cons.mp hnodup
    have hrest : ks.flatMap (group key l) = ks.flatMap (group key (l.filter (fun a => !decide (key a = k)))) :=
      List.flatMap_congr fun j hj => (group_filter_ne (ne_of_mem_of_not_mem hj hhead)).symm
    rw [List.flatMap_cons,hrest]
    refine ((ih htail fun a ha => ?_).append_left _).trans (List.filter_append_perm _ l)
    obtain ⟨hmem,hne⟩ := List.mem_filter.mp ha
    refine (List.mem_cons.mp (hcover a hmem)).resolve_left fun heq => ?_
    simp [heq] at hne

theorem nodup_eraseDups {β : Type} [BEq β] [LawfulBEq β] (ks : List β) : ks.eraseDups.Nodup := by
  induction hn : ks.length using Nat.strong_induction_on generalizing ks with
  | _ n ih =>
    cases ks with
    | nil => exact .nil
    | cons k ks =>
      rw [List.eraseDups_cons]
      refine List.nodup_cons.mpr ⟨fun h => ?_,ih _ ?_ _ rfl⟩
      · simpa using (List.mem_filter.mp (List.mem_eraseDups.mp h)).2
      · rw [← hn,List.length_cons]
        exact Nat.lt_succ_of_le (List.length_filter_le _ _)

theorem groups_perm_eraseDups [BEq K] [LawfulBEq K] (key : α → K) (l : List α) :
    ((l.map key).eraseDups.flatMap (group key l)).Perm l :=
  groups_perm (nodup_eraseDups _) fun _ ha => List.mem_eraseDups.mpr (List.mem_map_of_mem ha)

end Grouping
