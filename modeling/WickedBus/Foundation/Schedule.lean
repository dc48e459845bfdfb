import WickedBus.Foundation.KeyedTable

namespace Schedule

variable {S T : Type} [Preorder T]

structure Absorbs (sweep : S → T → S) (removed : S → T → ℕ) : Prop where
  state : ∀ s {t u : T}, t ≤ u → sweep (sweep s t) u = sweep s u
  count : ∀ s {t u : T}, t ≤ u → removed s t + removed (sweep s t) u = removed s u

def total (sweep : S → T → S) (removed : S → T → ℕ) : S → List T → ℕ
  | _, [] => 0
  | s, t :: ts => removed s t + total sweep removed (sweep s t) ts

variable {sweep : S → T → S} {removed : S → T → ℕ} {ts : List T} {u : T}

theorem le_last_of_pairwise {t : T} (h : (t :: ts ++ [u]).Pairwise (· ≤ ·)) :
    t ≤ u ∧ (ts ++ [u]).Pairwise (· ≤ ·) :=
  ⟨(List.pairwise_cons.mp h).1 u (by simp),(List.pairwise_cons.mp h).2⟩

theorem Absorbs.foldl (h : Absorbs sweep removed) (s : S) (hts : (ts ++ [u]).Pairwise (· ≤ ·)) :
    (ts ++ [u]).foldl sweep s = sweep s u := by
  induction ts generalizing s with
  | nil => rfl
  | cons t ts ih =>
    obtain ⟨hle,hrest⟩ := le_last_of_pairwise hts
    rw [List.cons_append,List.foldl_cons,ih (sweep s t) hrest]
    exact h.state s hle

theorem Absorbs.total (h : Absorbs sweep removed) (s : S) (hts : (ts ++ [u]).Pairwise (· ≤ ·)) :
    total sweep removed s (ts ++ [u]) = removed s u := by
  induction ts generalizing s with
  | nil => simp [Schedule.total]
  | cons t ts ih =>
    obtain ⟨hle,hrest⟩ := le_last_of_pairwise hts
    rw [List.cons_append,Schedule.total,ih (sweep s t) hrest]
    exact h.count s hle

section Filter

variable {R K : Type} [LinearOrder K] {key : R → K} {p : T → R → Bool} (weight : R → ℕ)

def weightOf (weight : R → ℕ) (p : R → Bool) (rows : List R) : ℕ := ((rows.filter p).map weight).sum

theorem weightOf_cons (p : R → Bool) (r : R) (rows : List R) :
    weightOf weight p (r :: rows) = (if p r then weight r else 0) + weightOf weight p rows := by
  cases hp : p r <;> simp [weightOf,hp]

theorem weightOf_split {p q : R → Bool} (h : ∀ r, p r = true → q r = true) (rows : List R) :
    weightOf weight p rows + weightOf weight q (rows.filter (fun r => !p r)) = weightOf weight q rows := by
  induction rows with
  | nil => rfl
  | cons r rows ih =>
    rw [weightOf_cons,weightOf_cons,← ih]
    cases hp : p r with
    | true =>
      rw [List.filter_cons_of_neg (by simp [hp]),h r hp]
      simp only [if_true]
      omega
    | false =>
      rw [List.filter_cons_of_pos (by simp [hp]),weightOf_cons]
      simp only [Bool.false_eq_true,if_false]
      omega

theorem absorbs_of_mono (hmono : ∀ t u r, t ≤ u → p t r = true → p u r = true) :
    Absorbs (fun (s : KeyedTable R key) t => s.filter (fun r => !p t r)) (fun s t => weightOf weight (p t) s.rows) where
  state s t u htu := by
    refine KeyedTable.ext_mem fun r => ?_
    simp only [KeyedTable.mem_filter,Bool.not_eq_true',and_assoc]
    refine and_congr_right fun _ => and_iff_right_of_imp fun hu => ?_
    exact Bool.eq_false_iff.mpr fun ht => Bool.eq_false_iff.mp hu (hmono t u r htu ht)
  count s t u htu := weightOf_split weight (fun r => hmono t u r htu) s.rows

end Filter

end Schedule
