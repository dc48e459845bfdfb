import Mathlib

namespace GuardedRun

variable {S A : Type}

inductive Run (step : S → A → Option S) (ok : S → A → Prop) (s : S) : List A → S → Prop
  | nil : Run step ok s [] s
  | snoc {t u : S} {as : List A} {a : A} (h : Run step ok s as t) (hok : ok t a)
      (hstep : step t a = some u) : Run step ok s (as ++ [a]) u

def exec (step : S → A → Option S) (s : S) (as : List A) : Option S := as.foldlM step s

theorem exec_snoc (step : S → A → Option S) (s : S) (as : List A) (a : A) :
    exec step s (as ++ [a]) = (exec step s as).bind (step · a) := by
  simp [exec, List.foldlM_append]

theorem Run.invariant {step : S → A → Option S} {ok : S → A → Prop} {I : S → Prop}
    (hstep : ∀ t a u, I t → ok t a → step t a = some u → I u)
    {s t : S} {as : List A} (h : Run step ok s as t) (hs : I s) : I t := by
  induction h with
  | nil => exact hs
  | snoc _ hok ht ih => exact hstep _ _ _ ih hok ht

theorem Run.mono {step : S → A → Option S} {ok ok' : S → A → Prop}
    (himp : ∀ t a, ok t a → ok' t a) {s t : S} {as : List A} (h : Run step ok s as t) :
    Run step ok' s as t := by
  induction h with
  | nil => exact .nil
  | snoc _ hok ht ih => exact .snoc ih (himp _ _ hok) ht

theorem Run.strengthen {step : S → A → Option S} {ok ok' : S → A → Prop} {I : S → Prop}
    (hstep : ∀ t a u, I t → ok t a → step t a = some u → I u)
    (himp : ∀ t a u, I t → ok t a → step t a = some u → ok' t a) {s t : S} {as : List A}
    (h : Run step ok s as t) (hs : I s) : Run step ok' s as t := by
  induction h with
  | nil => exact .nil
  | snoc hrun hok ht ih => exact .snoc ih (himp _ _ _ (hrun.invariant hstep hs) hok ht) ht

theorem Run.append {step : S → A → Option S} {ok : S → A → Prop} {s t u : S} {as bs : List A}
    (h : Run step ok s as t) (h' : Run step ok t bs u) : Run step ok s (as ++ bs) u := by
  induction h' with
  | nil => rwa [List.append_nil]
  | snoc _ hok hu ih =>
    rw [← List.append_assoc]
    exact .snoc ih hok hu

def Lost (step : S → A → Option S) (ok : S → A → Prop) (P : S → Prop) (s : S) (as : List A) (a : A) : Prop :=
  ∃ bs cs t u, as = bs ++ a :: cs ∧ Run step ok s bs t ∧ step t a = some u ∧ P t ∧ ¬ P u

theorem Run.lost {step : S → A → Option S} {ok : S → A → Prop} {P : S → Prop} {s t : S} {as : List A}
    (h : Run step ok s as t) (hs : P s) (ht : ¬ P t) : ∃ a, Lost step ok P s as a := by
  induction h with
  | nil => exact absurd hs ht
  | @snoc u v as a hrun hok hstep ih =>
    by_cases hu : P u
    · exact ⟨a,as,[],u,v,rfl,hrun,hstep,hu,ht⟩
    · obtain ⟨b,bs,cs,x,y,rfl,hbs,hxy,hx,hy⟩ := ih hu
      exact ⟨b,bs,cs ++ [a],x,y,by simp,hbs,hxy,hx,hy⟩

theorem run_of_exec {step : S → A → Option S} {s t : S} {as : List A}
    (h : exec step s as = some t) : Run step (fun _ _ => True) s as t := by
  induction as using List.reverseRecOn generalizing t with
  | nil =>
    cases h
    exact .nil
  | append_singleton as a ih =>
    rw [exec_snoc, Option.bind_eq_some_iff] at h
    obtain ⟨m, hm, ha⟩ := h
    exact .snoc (ih hm) trivial ha

def guarded (ok : S → A → Prop) [∀ s a, Decidable (ok s a)] (step : S → A → Option S) (s : S) (a : A) :
    Option S :=
  if ok s a then step s a else none

theorem run_of_guarded {step : S → A → Option S} {ok : S → A → Prop} [∀ s a, Decidable (ok s a)]
    {s t : S} {as : List A} (h : exec (guarded ok step) s as = some t) : Run step ok s as t := by
  have hrun := run_of_exec h
  clear h
  induction hrun with
  | nil => exact .nil
  | snoc _ _ hstep ih =>
    unfold guarded at hstep
    split_ifs at hstep with hok
    exact .snoc ih hok hstep

end GuardedRun
