import Mathlib.Logic.Function.Basic
import Mathlib.Data.Option.Basic

def Directory (P α : Type) : Type := P → Option α

namespace Directory

variable {P α : Type} [DecidableEq P] {d : Directory P α} {a b p : P} {x : α}

def link (d : Directory P α) (p : P) (x : α) : Directory P α := Function.update d p (some x)

def unlink (d : Directory P α) (p : P) : Directory P α := Function.update d p none

def rename (d : Directory P α) (a b : P) : Option (Directory P α) :=
  (d a).map (fun x => (d.unlink a).link b x)

@[simp] theorem link_self (d : Directory P α) (p : P) (x : α) : d.link p x p = some x := Function.update_self ..

@[simp] theorem unlink_self (d : Directory P α) (p : P) : d.unlink p p = none := Function.update_self ..

theorem link_of_ne (d : Directory P α) (x : α) (h : b ≠ a) : d.link a x b = d b := Function.update_of_ne h ..

theorem unlink_of_ne (d : Directory P α) (h : b ≠ a) : d.unlink a b = d b := Function.update_of_ne h ..

theorem unlink_of_none (h : d p = none) : d.unlink p = d := by
  rw [unlink,← h]
  exact Function.update_eq_self p d

theorem link_eq_some {y : α} : d.link p x b = some y ↔ b = p ∧ x = y ∨ b ≠ p ∧ d b = some y := by
  by_cases h : b = p
  · subst h
    simp
  · simp [link_of_ne d x h,h]

theorem mem_update {t : P → Option α} {y : α} (h : y ∈ Function.update t p (some x) b) :
    b = p ∧ y = x ∨ b ≠ p ∧ y ∈ t b :=
  (link_eq_some.mp h).imp_left fun hself => ⟨hself.1,hself.2.symm⟩

theorem unlink_eq_some {y : α} : d.unlink p b = some y ↔ b ≠ p ∧ d b = some y := by
  by_cases h : b = p
  · subst h
    simp
  · simp [unlink_of_ne d h,h]

def Injective (d : Directory P α) : Prop := ∀ a b x, d a = some x → d b = some x → a = b

theorem Injective.unlink (h : d.Injective) (p : P) : (d.unlink p).Injective :=
  fun a b x ha hb => h a b x (unlink_eq_some.mp ha).2 (unlink_eq_some.mp hb).2

theorem Injective.link (h : d.Injective) (hx : ∀ a, d a = some x → a = p) : (d.link p x).Injective := by
  intro a b y ha hb
  rcases link_eq_some.mp ha with ⟨hap,rfl⟩ | ⟨-,ha⟩
  · rcases link_eq_some.mp hb with ⟨hbp,-⟩ | ⟨-,hb⟩
    · exact hap.trans hbp.symm
    · exact hap.trans (hx b hb).symm
  · rcases link_eq_some.mp hb with ⟨hbp,rfl⟩ | ⟨-,hb⟩
    · exact (hx a ha).trans hbp.symm
    · exact h a b y ha hb

theorem Injective.rename (h : d.Injective) (hx : d a = some x) : ((d.unlink a).link b x).Injective :=
  (h.unlink a).link fun p hp => by
    obtain ⟨hne,hp⟩ := unlink_eq_some.mp hp
    exact absurd (h p a x hp hx) hne

theorem rename_eq_some (h : d a = some x) : d.rename a b = some ((d.unlink a).link b x) := by
  rw [rename,h]
  rfl

end Directory
