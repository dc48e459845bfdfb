import Mathlib

namespace LikePattern

def like (esc : Char) : List Char → List Char → Bool
  | [], t => t.isEmpty
  | c :: p, t =>
    if c = '%' then t.tails.any (like esc p)
    else if c = esc then
      match p with
      | [] => false
      | d :: p' =>
        match t with
        | [] => false
        | x :: t' => (d.toLower == x.toLower) && like esc p' t'
    else
      match t with
      | [] => false
      | x :: t' => (c = '_' || c.toLower == x.toLower) && like esc p t'

def escape (esc : Char) (s : List Char) : List Char :=
  s.flatMap (fun c => if c = esc || c = '%' || c = '_' then [esc,c] else [c])

variable {esc : Char}

@[simp] theorem like_nil (t : List Char) : like esc [] t = t.isEmpty := by
  simp [like]

theorem like_cons (c : Char) (p t : List Char) : like esc (c :: p) t =
    if c = '%' then t.tails.any (like esc p)
    else if c = esc then
      match p with
      | [] => false
      | d :: p' =>
        match t with
        | [] => false
        | x :: t' => (d.toLower == x.toLower) && like esc p' t'
    else
      match t with
      | [] => false
      | x :: t' => (c = '_' || c.toLower == x.toLower) && like esc p t' := by
  rw [like.eq_def]

theorem like_percent {p t : List Char} :
    like esc ('%' :: p) t = true ↔ ∃ s, s <:+ t ∧ like esc p s = true := by
  simp [like_cons]

theorem like_percent_end (t : List Char) : like esc ['%'] t = true :=
  like_percent.mpr ⟨[],List.nil_suffix,by simp⟩

theorem like_literal {c : Char} {p t : List Char} (hc : c ≠ '%') (he : c ≠ esc) (hu : c ≠ '_') :
    like esc (c :: p) t = true ↔ ∃ x s, t = x :: s ∧ c.toLower = x.toLower ∧ like esc p s = true := by
  cases t with
  | nil => simp [like_cons,hc,he]
  | cons x s => simp [like_cons,hc,he,hu]

theorem like_escaped {c : Char} {p t : List Char} (he : esc ≠ '%') :
    like esc (esc :: c :: p) t = true ↔
      ∃ x s, t = x :: s ∧ c.toLower = x.toLower ∧ like esc p s = true := by
  cases t with
  | nil => simp [like_cons,he]
  | cons x s => simp [like_cons,he]

theorem like_escape {s p t : List Char} (he : esc ≠ '%') :
    like esc (escape esc s ++ p) t = true ↔
      ∃ u r, t = u ++ r ∧ u.map Char.toLower = s.map Char.toLower ∧ like esc p r = true := by
  induction s generalizing t with
  | nil => simp [escape]
  | cons c s ih =>
    have hstep : like esc (escape esc (c :: s) ++ p) t = true ↔
        ∃ x v, t = x :: v ∧ c.toLower = x.toLower ∧ like esc (escape esc s ++ p) v = true := by
      by_cases hc : (c = esc || c = '%' || c = '_') = true
      · have hs : escape esc (c :: s) ++ p = esc :: c :: (escape esc s ++ p) := by
          simp only [escape,List.flatMap_cons,hc,if_true,List.cons_append,List.nil_append]
        rw [hs]
        exact like_escaped he
      · have hs : escape esc (c :: s) ++ p = c :: (escape esc s ++ p) := by
          simp only [escape,List.flatMap_cons,hc,if_false,List.cons_append,List.nil_append,
            Bool.false_eq_true]
        simp only [Bool.or_eq_true,decide_eq_true_eq,not_or] at hc
        rw [hs]
        exact like_literal hc.1.2 hc.1.1 hc.2
    rw [hstep]
    constructor
    · rintro ⟨x,v,rfl,hx,hv⟩
      obtain ⟨u,r,rfl,hu,hr⟩ := ih.mp hv
      exact ⟨x :: u,r,rfl,by simp [hx,hu],hr⟩
    · rintro ⟨u,r,rfl,hu,hr⟩
      cases u with
      | nil => simp at hu
      | cons x u =>
        simp only [List.map_cons,List.cons.injEq] at hu
        exact ⟨x,u ++ r,rfl,hu.1.symm,ih.mpr ⟨u,r,rfl,hu.2,hr⟩⟩

end LikePattern
