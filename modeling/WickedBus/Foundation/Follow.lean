import Mathlib

namespace Follow

variable {R : Type} {key : R → ℤ}

structure Grows (key : R → ℤ) (before after : Set R) (top top' : ℤ) : Prop where
  top_le : top ≤ top'
  fresh : ∀ x ∈ after, x ∈ before ∨ top < key x

structure Page (key : R → ℤ) (rows : Set R) (floor : ℤ) (page : List R) : Prop where
  sorted : page.Pairwise (fun a b => key a < key b)
  sound : ∀ x ∈ page, x ∈ rows ∧ floor < key x
  cover : ∀ x ∈ rows, floor < key x → x ∈ page ∨ page ≠ [] ∧ ∀ y ∈ page, key y < key x

def advance (key : R → ℤ) (floor : ℤ) (page : List R) : ℤ := (page.getLast?.map key).getD floor

structure Followed (key : R → ℤ) (rows : Set R) (top start floor : ℤ) (seen : List R) : Prop where
  sorted : seen.Pairwise (fun a b => key a < key b)
  within : ∀ x ∈ seen, start < key x ∧ key x ≤ floor
  bound : floor = start ∨ start < floor ∧ floor ≤ top
  complete : ∀ x ∈ rows, start < key x → key x ≤ floor → x ∈ seen

section Paging

variable {floor : ℤ} {page : List R} {rows : Set R}

theorem advance_nil : advance key floor [] = floor := rfl

theorem advance_append_singleton (front : List R) (last : R) : advance key floor (front ++ [last]) = key last := by
  simp [advance]

theorem advance_of_ne_nil (h : page ≠ []) : ∃ x ∈ page, advance key floor page = key x := by
  obtain ⟨front,last,rfl⟩ := (List.eq_nil_or_concat' page).resolve_left h
  exact ⟨last,List.mem_append_right _ List.mem_cons_self,advance_append_singleton front last⟩

theorem advance_append (seen : List R) :
    advance key floor (seen ++ page) = advance key (advance key floor seen) page := by
  rcases List.eq_nil_or_concat' page with rfl | ⟨front,last,rfl⟩
  · rw [List.append_nil,advance_nil]
  · rw [← List.append_assoc,advance_append_singleton,advance_append_singleton]

theorem Page.le_advance (h : Page key rows floor page) {x : R} (hx : x ∈ page) : key x ≤ advance key floor page := by
  obtain ⟨front,last,rfl⟩ := (List.eq_nil_or_concat' page).resolve_left (List.ne_nil_of_mem hx)
  rw [advance_append_singleton]
  rcases List.mem_append.mp hx with hfront | hlast
  · exact ((List.pairwise_append.mp h.sorted).2.2 x hfront last List.mem_cons_self).le
  · rw [List.mem_singleton.mp hlast]

theorem Page.cover_advance (h : Page key rows floor page) {x : R} (hx : x ∈ rows) (hlow : floor < key x)
    (hhigh : key x ≤ advance key floor page) : x ∈ page := by
  rcases h.cover x hx hlow with hmem | ⟨hne,hall⟩
  · exact hmem
  · obtain ⟨y,hy,hlast⟩ := @advance_of_ne_nil R key floor page hne
    exact absurd (hlast ▸ hhigh) (not_le.mpr (hall y hy))

theorem Page.take {all : List R} {p : R → Bool} {n : ℕ} (hsorted : all.Pairwise (fun a b => key a < key b))
    (hn : 0 < n) :
    Page key {x | x ∈ all ∧ p x = true} floor ((all.filter (fun x => p x && decide (floor < key x))).take n) := by
  have hmatch : (all.filter (fun x => p x && decide (floor < key x))).Pairwise (fun a b => key a < key b) :=
    hsorted.filter _
  refine ⟨hmatch.sublist (List.take_sublist _ _),fun x hx => ?_,fun x ⟨hx,hp⟩ hlow => ?_⟩
  · have hx' := List.mem_filter.mp (List.mem_of_mem_take hx)
    simp only [Bool.and_eq_true,decide_eq_true_eq] at hx'
    exact ⟨⟨hx'.1,hx'.2.1⟩,hx'.2.2⟩
  · have hmem : x ∈ all.filter (fun x => p x && decide (floor < key x)) :=
      List.mem_filter.mpr ⟨hx,by simp [hp,hlow]⟩
    rw [← List.take_append_drop n (all.filter _)] at hmem hmatch
    rcases List.mem_append.mp hmem with htake | hdrop
    · exact .inl htake
    · refine .inr ⟨fun hnil => ?_,fun y hy => (List.pairwise_append.mp hmatch).2.2 y hy x hdrop⟩
      rcases List.take_eq_nil_iff.mp hnil with hzero | hnone
      · omega
      · rw [hnone,List.drop_nil] at hdrop
        exact absurd hdrop List.not_mem_nil

theorem Page.map {f : R → R} (hf : ∀ x, key (f x) = key x) (h : Page key rows floor page) :
    Page key {y | ∃ x ∈ rows, f x = y} floor (page.map f) := by
  refine ⟨List.pairwise_map.mpr (h.sorted.imp fun {a b} hab => by rwa [hf,hf]),fun y hy => ?_,?_⟩
  · obtain ⟨x,hx,rfl⟩ := List.mem_map.mp hy
    exact ⟨⟨x,(h.sound x hx).1,rfl⟩,(hf x).symm ▸ (h.sound x hx).2⟩
  · rintro _ ⟨x,hx,rfl⟩ hlow
    rw [hf] at hlow ⊢
    refine (h.cover x hx hlow).imp List.mem_map_of_mem (And.imp (by simp) fun hall y hy => ?_)
    obtain ⟨z,hz,rfl⟩ := List.mem_map.mp hy
    exact (hf z).symm ▸ hall z hz

end Paging

namespace Followed

variable {rows rows' : Set R} {top top' start floor : ℤ} {seen page : List R}

theorem begin (key : R → ℤ) (rows : Set R) (top start : ℤ) : Followed key rows top start start [] :=
  ⟨.nil,fun _ h => absurd h List.not_mem_nil,.inl rfl,fun _ _ hlow hhigh => absurd hlow (not_lt.mpr hhigh)⟩

theorem grows (h : Followed key rows top start floor seen) (hgrows : Grows key rows rows' top top') :
    Followed key rows' top' start floor seen := by
  refine ⟨h.sorted,h.within,h.bound.imp_right (And.imp_right hgrows.top_le.trans'),fun x hx hlow hhigh => ?_⟩
  rcases hgrows.fresh x hx with hold | hnew
  · exact h.complete x hold hlow hhigh
  · have := h.bound
    omega

theorem start_le (h : Followed key rows top start floor seen) : start ≤ floor :=
  h.bound.elim (fun heq => heq.ge) (fun hlt => hlt.1.le)

theorem turn (h : Followed key rows top start floor seen) (htop : ∀ x ∈ rows, key x ≤ top)
    (hpage : Page key rows floor page) :
    Followed key rows top start (advance key floor page) (seen ++ page) := by
  have hstart := h.start_le
  by_cases hempty : page = []
  · rw [hempty,advance_nil,List.append_nil]
    exact h
  · obtain ⟨last,hlast,hadvance⟩ := @advance_of_ne_nil R key floor page hempty
    obtain ⟨hmem,habove⟩ := hpage.sound last hlast
    rw [← hadvance] at habove
    refine ⟨List.pairwise_append.mpr ⟨h.sorted,hpage.sorted,fun x hx y hy => ?_⟩,fun x hx => ?_,
      .inr ⟨hstart.trans_lt habove,hadvance ▸ htop last hmem⟩,fun x hx hlow hhigh => ?_⟩
    · exact (h.within x hx).2.trans_lt (hpage.sound y hy).2
    · rcases List.mem_append.mp hx with hx | hx
      · exact ⟨(h.within x hx).1,(h.within x hx).2.trans habove.le⟩
      · exact ⟨hstart.trans_lt (hpage.sound x hx).2,hpage.le_advance hx⟩
    · rcases le_or_gt (key x) floor with hle | hgt
      · exact List.mem_append_left _ (h.complete x hx hlow hle)
      · exact List.mem_append_right _ (hpage.cover_advance hx hgt hhigh)

theorem caughtUp (h : Followed key rows top start floor seen) (hpage : Page key rows floor []) {x : R}
    (hx : x ∈ rows) (hlow : start < key x) : x ∈ seen := by
  refine h.complete x hx hlow (not_lt.mp fun hgt => ?_)
  rcases hpage.cover x hx hgt with hmem | ⟨hne,-⟩
  · exact absurd hmem List.not_mem_nil
  · exact hne rfl

end Followed

end Follow
