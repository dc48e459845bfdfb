import Mathlib

namespace Trace

variable {E : Type} {P : List E → E → Prop} {mark reset : E} {l es : List E} {e : E}

def Each (P : List E → E → Prop) (l : List E) : Prop :=
  ∀ before e after, l = before ++ e :: after → P before e

def Since (mark reset : E) (l : List E) : Prop :=
  ∃ before after, l = before ++ mark :: after ∧ reset ∉ after

theorem append_split {before after : List E} (h : l ++ es = before ++ e :: after) :
    (∃ rest, after = rest ++ es ∧ l = before ++ e :: rest) ∨
      ∃ pre, before = l ++ pre ∧ es = pre ++ e :: after := by
  rcases List.append_eq_append_iff.mp h with ⟨pre,hbefore,hes⟩ | ⟨rest,hl,hafter⟩
  · exact .inr ⟨pre,hbefore,hes⟩
  · cases rest with
    | nil => exact .inr ⟨[],by simpa using hl.symm,by simpa using hafter.symm⟩
    | cons x rest =>
      obtain ⟨rfl,rfl⟩ := List.cons.inj hafter
      exact .inl ⟨rest,rfl,hl⟩

theorem Each.nil : Each P [] := by
  intro before e after h
  simp at h

theorem Each.append (h : Each P l) (hes : ∀ pre e post, es = pre ++ e :: post → P (l ++ pre) e) :
    Each P (l ++ es) := by
  intro before e after heq
  rcases append_split heq with ⟨rest,-,hl⟩ | ⟨pre,rfl,hpre⟩
  · exact h before e rest hl
  · exact hes pre e after hpre

theorem Each.snoc (h : Each P l) (he : P l e) : Each P (l ++ [e]) := by
  refine h.append fun pre x post heq => ?_
  cases pre with
  | nil =>
    obtain ⟨rfl,-⟩ := List.cons.inj heq
    rwa [List.append_nil]
  | cons y pre => simp at heq

theorem Each.last (h : Each P (l ++ [e])) : P l e := h l e [] rfl

theorem since_mark : Since mark reset (l ++ [mark]) := ⟨l,[],rfl,List.not_mem_nil⟩

theorem mem_of_since (h : Since mark reset l) : mark ∈ l := by
  obtain ⟨before,after,rfl,-⟩ := h
  exact List.mem_append_right _ List.mem_cons_self

theorem not_since_reset (h : reset ≠ mark) : ¬ Since mark reset (l ++ [reset]) := by
  rintro ⟨before,after,heq,hreset⟩
  rcases append_split heq with ⟨rest,rfl,-⟩ | ⟨pre,-,hpre⟩
  · simp at hreset
  · cases pre with
    | nil => exact h (List.cons.inj hpre).1
    | cons y pre => simp at hpre

theorem since_append (hmark : mark ∉ es) (hreset : reset ∉ es) :
    Since mark reset (l ++ es) ↔ Since mark reset l := by
  constructor
  · rintro ⟨before,after,heq,hafter⟩
    rcases append_split heq with ⟨rest,rfl,hl⟩ | ⟨pre,-,hpre⟩
    · exact ⟨before,rest,hl,fun hr => hafter (List.mem_append_left _ hr)⟩
    · exact absurd (by rw [hpre]; simp) hmark
  · rintro ⟨before,after,rfl,hafter⟩
    refine ⟨before,after ++ es,by simp,fun hr => ?_⟩
    exact (List.mem_append.mp hr).elim hafter hreset

end Trace
