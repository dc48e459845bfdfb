import Mathlib

namespace LastWins

variable {α K : Type} (key : α → K)

def LastCopy (rows : List α) (r : α) : Prop :=
  ∃ before after, rows = before ++ r :: after ∧ ∀ x ∈ after, key x ≠ key r

def set [DecidableEq K] (rows : List α) (r : α) : List α :=
  if rows.any (fun x => key x = key r) then rows.map (fun x => if key x = key r then r else x)
  else rows ++ [r]

variable {key} {rows : List α} {r x : α}

theorem LastCopy.mem (h : LastCopy key rows x) : x ∈ rows := by
  obtain ⟨before,after,rfl,-⟩ := h
  simp

theorem lastCopy_snoc : LastCopy key (rows ++ [r]) x ↔ x = r ∨ (LastCopy key rows x ∧ key r ≠ key x) := by
  constructor
  · rintro ⟨before,after,heq,hafter⟩
    cases after using List.reverseRecOn with
    | nil => exact .inl (List.singleton_inj.mp (List.append_inj_right' heq rfl)).symm
    | append_singleton after y =>
      rw [← List.cons_append,← List.append_assoc] at heq
      obtain ⟨rfl,hy⟩ := List.append_inj' heq rfl
      cases hy
      exact .inr ⟨⟨before,after,rfl,fun z hz => hafter z (by simp [hz])⟩,hafter r (by simp)⟩
  · rintro (rfl | ⟨⟨before,after,rfl,hafter⟩,hne⟩)
    · exact ⟨rows,[],rfl,by simp⟩
    · refine ⟨before,after ++ [r],by simp,fun z hz => ?_⟩
      rcases List.mem_append.mp hz with hz | hz
      · exact hafter z hz
      · rwa [List.mem_singleton.mp hz]

theorem LastCopy.unique {y : α} (hx : LastCopy key rows x) (hy : LastCopy key rows y)
    (hkey : key x = key y) : x = y := by
  induction rows using List.reverseRecOn with
  | nil => exact absurd hx.mem List.not_mem_nil
  | append_singleton rows r ih =>
    rcases lastCopy_snoc.mp hx with rfl | ⟨hx,hne⟩ <;> rcases lastCopy_snoc.mp hy with rfl | ⟨hy,hne'⟩
    · rfl
    · exact absurd hkey hne'
    · exact absurd hkey.symm hne
    · exact ih hx hy

theorem exists_lastCopy (h : x ∈ rows) : ∃ y, LastCopy key rows y ∧ key y = key x := by
  induction rows using List.reverseRecOn with
  | nil => cases h
  | append_singleton rows r ih =>
    by_cases hkey : key r = key x
    · exact ⟨r,lastCopy_snoc.mpr (.inl rfl),hkey⟩
    · rcases List.mem_append.mp h with h | h
      · obtain ⟨y,hy,hyx⟩ := ih h
        exact ⟨y,lastCopy_snoc.mpr (.inr ⟨hy,hyx ▸ hkey⟩),hyx⟩
      · rw [List.mem_singleton.mp h] at hkey
        exact absurd rfl hkey

theorem LastCopy.of_distinct {front : List α} (h : rows.Pairwise (fun a b => key a ≠ key b))
    (hx : x ∈ rows) : LastCopy key (front ++ rows) x := by
  obtain ⟨before,after,rfl⟩ := List.append_of_mem hx
  refine ⟨front ++ before,after,by simp,fun y hy => ?_⟩
  exact ((List.pairwise_cons.mp (List.pairwise_append.mp h).2.1).1 y hy).symm

section Set

variable [DecidableEq K]

theorem mem_set : x ∈ set key rows r ↔ x = r ∨ (x ∈ rows ∧ key x ≠ key r) := by
  unfold set
  split_ifs with hany
  · obtain ⟨y,hy,hkey⟩ := List.any_eq_true.mp hany
    rw [List.mem_map]
    constructor
    · rintro ⟨z,hz,rfl⟩
      split_ifs with h
      · exact .inl rfl
      · exact .inr ⟨hz,h⟩
    · rintro (rfl | ⟨hx,hne⟩)
      · exact ⟨y,hy,if_pos (by simpa using hkey)⟩
      · exact ⟨x,hx,if_neg hne⟩
  · have hne : ∀ y ∈ rows, key y ≠ key r := by simpa using hany
    rw [List.mem_append,List.mem_singleton,or_comm]
    exact or_congr_right ⟨fun hx => ⟨hx,hne x hx⟩,And.left⟩

theorem set_distinct (h : rows.Pairwise (fun a b => key a ≠ key b)) :
    (set key rows r).Pairwise (fun a b => key a ≠ key b) := by
  unfold set
  split_ifs with hany
  · refine List.pairwise_map.mpr (h.imp fun hab => ?_)
    split_ifs with ha hb hb
    · exact absurd (ha.trans hb.symm) hab
    · exact Ne.symm hb
    · exact ha
    · exact hab
  · refine List.pairwise_append.mpr ⟨h,List.pairwise_singleton _ _,fun y hy z hz => ?_⟩
    rw [List.mem_singleton.mp hz]
    simpa using fun hkey => hany (List.any_eq_true.mpr ⟨y,hy,by simpa using hkey⟩)

theorem mem_foldl_set : x ∈ rows.foldl (set key) [] ↔ LastCopy key rows x := by
  induction rows using List.reverseRecOn generalizing x with
  | nil => simp [LastCopy]
  | append_singleton rows r ih =>
    rw [List.foldl_append,List.foldl_cons,List.foldl_nil,mem_set,ih,lastCopy_snoc,ne_comm]

theorem foldl_set_distinct (rows : List α) :
    (rows.foldl (set key) []).Pairwise (fun a b => key a ≠ key b) := by
  induction rows using List.reverseRecOn with
  | nil => exact .nil
  | append_singleton rows r ih =>
    rw [List.foldl_append]
    exact set_distinct ih

end Set

end LastWins
