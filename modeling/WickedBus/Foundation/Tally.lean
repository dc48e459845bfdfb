import Mathlib

namespace Tally

variable {L P I D : Type} {covers : L → P → Bool} {lines : List L} {pairs : List P}

theorem countP_eq_sum (p : P → Bool) (pairs : List P) :
    pairs.countP p = (pairs.map (fun x => if p x then 1 else 0)).sum := by
  induction pairs with
  | nil => rfl
  | cons x pairs ih => rw [List.countP_cons,List.map_cons,List.sum_cons,ih,Nat.add_comm]

theorem sum_countP (covers : L → P → Bool) (lines : List L) (pairs : List P) :
    (lines.map (fun l => pairs.countP (covers l))).sum = (pairs.map (fun p => lines.countP (covers · p))).sum := by
  induction lines with
  | nil => simp
  | cons l lines ih =>
    simp only [List.map_cons,List.sum_cons,List.countP_cons]
    rw [ih,countP_eq_sum,← List.sum_map_add]
    simp only [Nat.add_comm]

theorem sum_countP_of_one (h : ∀ p ∈ pairs, lines.countP (covers · p) = 1) :
    (lines.map (fun l => pairs.countP (covers l))).sum = pairs.length := by
  have hone : pairs.map (fun p => lines.countP (covers · p)) = pairs.map (fun _ => 1) := List.map_congr_left h
  rw [sum_countP,hone]
  simp

theorem countP_eq_one {p : P} (hdistinct : lines.Pairwise (fun a b => ¬ (covers a p = true ∧ covers b p = true)))
    (hcovered : ∃ l ∈ lines, covers l p = true) : lines.countP (covers · p) = 1 := by
  induction lines with
  | nil =>
    obtain ⟨l,hl,-⟩ := hcovered
    cases hl
  | cons a lines ih =>
    obtain ⟨hhead,htail⟩ := List.pairwise_cons.mp hdistinct
    rw [List.countP_cons]
    by_cases ha : covers a p = true
    · have hzero : lines.countP (covers · p) = 0 :=
        List.countP_eq_zero.mpr fun b hb hbp => hhead b hb ⟨ha,hbp⟩
      rw [hzero,if_pos ha]
    · obtain ⟨l,hl,hlp⟩ := hcovered
      have htailCovered : l ∈ lines := by
        rcases List.mem_cons.mp hl with rfl | hl
        · exact absurd hlp ha
        · exact hl
      rw [ih htail ⟨l,htailCovered,hlp⟩,if_neg ha]

section Tags

variable [DecidableEq I] [DecidableEq D]

def ids (id : P → I) (pairs : List P) : Finset I := (pairs.map id).toFinset

theorem mem_ids {id : P → I} {i : I} : i ∈ ids id pairs ↔ ∃ p ∈ pairs, id p = i := by
  simp only [ids,List.mem_toFinset,List.mem_map]

theorem sum_card_tags {id : P → I} {tag : P → D} {keys : List D} (hnodup : keys.Nodup)
    (hkeys : ∀ p ∈ pairs, tag p ∈ keys) (htag : ∀ p ∈ pairs, ∀ q ∈ pairs, id p = id q → tag p = tag q) :
    (keys.map (fun d => (ids id (pairs.filter (fun p => tag p = d))).card)).sum = (ids id pairs).card := by
  rw [← List.sum_toFinset _ hnodup,← Finset.card_biUnion]
  · congr 1
    ext i
    simp only [Finset.mem_biUnion,List.mem_toFinset,mem_ids,List.mem_filter,decide_eq_true_eq]
    constructor
    · rintro ⟨d,-,p,⟨hp,-⟩,hi⟩
      exact ⟨p,hp,hi⟩
    · rintro ⟨p,hp,hi⟩
      exact ⟨tag p,hkeys p hp,p,⟨hp,rfl⟩,hi⟩
  · intro d _ d' _ hne
    refine Finset.disjoint_left.mpr fun i hi hi' => ?_
    obtain ⟨p,hp,rfl⟩ := mem_ids.mp hi
    obtain ⟨q,hq,hid⟩ := mem_ids.mp hi'
    simp only [List.mem_filter,decide_eq_true_eq] at hp hq
    exact hne (hp.2.symm.trans ((htag p hp.1 q hq.1 hid.symm).trans hq.2))

end Tags

end Tally
