import Mathlib

namespace FlagTokens

inductive Arg (T : Type) where
  | positional (token : T)
  | bare (flag : T)
  | valued (flag value : T)
  deriving DecidableEq, Repr

variable {T : Type} (isFlag : T → Bool)

def scan : List T → List (Arg T)
  | [] => []
  | [t] => [if isFlag t then .bare t else .positional t]
  | t :: v :: rest =>
    if isFlag t then
      if isFlag v then .bare t :: scan (v :: rest) else .valued t v :: scan rest
    else .positional t :: scan (v :: rest)

def Arg.tokens : Arg T → List T
  | .positional t => [t]
  | .bare t => [t]
  | .valued t v => [t,v]

def render (args : List (Arg T)) : List T := args.flatMap Arg.tokens

def Arg.WellFormed : Arg T → Prop
  | .positional t => isFlag t = false
  | .bare t => isFlag t = true
  | .valued t v => isFlag t = true ∧ isFlag v = false

def Arg.absorbs (a b : Arg T) : Prop := (∃ t, a = .bare t) ∧ ∃ t, b = .positional t

structure Canonical (args : List (Arg T)) : Prop where
  wellFormed : ∀ a ∈ args, a.WellFormed isFlag
  separated : args.IsChain (fun a b => ¬ a.absorbs b)

variable {isFlag} {args : List (Arg T)} {a : Arg T}

theorem render_scan (tokens : List T) : render (scan isFlag tokens) = tokens := by
  fun_induction scan isFlag tokens with
  | case1 => rfl
  | case2 t =>
    split_ifs
    · rfl
    · rfl
  | case3 t v rest ht hv ih => rw [render,List.flatMap_cons,← render,ih]; rfl
  | case4 t v rest ht hv ih => rw [render,List.flatMap_cons,← render,ih]; rfl
  | case5 t v rest ht ih => rw [render,List.flatMap_cons,← render,ih]; rfl

theorem Canonical.cons (h : Canonical isFlag args) (ha : a.WellFormed isFlag)
    (hnext : ∀ b ∈ args.head?, ¬ a.absorbs b) : Canonical isFlag (a :: args) where
  wellFormed b hb := by
    rcases List.mem_cons.mp hb with rfl | hb
    · exact ha
    · exact h.wellFormed b hb
  separated := List.isChain_cons.mpr ⟨hnext,h.separated⟩

theorem canonical_nil : Canonical isFlag [] := ⟨fun _ ha => absurd ha List.not_mem_nil,.nil⟩

theorem scan_head {t : T} {rest : List T} (ht : isFlag t = true) {p : T} :
    (scan isFlag (t :: rest)).head? ≠ some (.positional p) := by
  cases rest with
  | nil => simp [scan,ht]
  | cons v rest =>
    simp only [scan,ht,if_true]
    split_ifs <;> simp

theorem canonical_scan (tokens : List T) : Canonical isFlag (scan isFlag tokens) := by
  fun_induction scan isFlag tokens with
  | case1 => exact canonical_nil
  | case2 t =>
    refine canonical_nil.cons ?_ fun b hb => absurd hb.symm (Option.some_ne_none b)
    split_ifs with ht
    · exact ht
    · simpa [Arg.WellFormed] using ht
  | case3 t v rest ht hv ih =>
    refine ih.cons ht fun b hb => ?_
    rintro ⟨-,p,rfl⟩
    exact scan_head hv hb
  | case4 t v rest ht hv ih =>
    refine ih.cons ⟨ht,by simpa using hv⟩ fun b hb => ?_
    rintro ⟨⟨p,hp⟩,-⟩
    cases hp
  | case5 t v rest ht ih =>
    refine ih.cons (by simpa [Arg.WellFormed] using ht) fun b hb => ?_
    rintro ⟨⟨p,hp⟩,-⟩
    cases hp

theorem render_cons (a : Arg T) (args : List (Arg T)) : render (a :: args) = a.tokens ++ render args := rfl

theorem render_head (h : Canonical isFlag (a :: args)) (hbare : ∃ t, a = .bare t) {v : T} {tokens : List T}
    (htokens : render args = v :: tokens) : isFlag v = true := by
  cases args with
  | nil => cases htokens
  | cons b args =>
    have hwell := h.wellFormed b (by simp)
    have hnot := (List.isChain_cons.mp h.separated).1 b rfl
    rw [render_cons] at htokens
    cases b with
    | positional t => exact absurd ⟨hbare,t,rfl⟩ hnot
    | bare t => exact (List.cons.inj htokens).1 ▸ hwell
    | valued t w => exact (List.cons.inj htokens).1 ▸ hwell.1

theorem scan_positional {t : T} (ht : isFlag t = false) (tokens : List T) :
    scan isFlag (t :: tokens) = .positional t :: scan isFlag tokens := by
  cases tokens <;> simp [scan,ht]

theorem scan_render (h : Canonical isFlag args) : scan isFlag (render args) = args := by
  induction args with
  | nil => rw [render,List.flatMap_nil,scan]
  | cons a args ih =>
    have hrest : scan isFlag (render args) = args :=
      ih ⟨fun b hb => h.wellFormed b (List.mem_cons_of_mem _ hb),(List.isChain_cons.mp h.separated).2⟩
    have hwell := h.wellFormed a List.mem_cons_self
    rw [render_cons]
    cases a with
    | positional t => exact (scan_positional hwell _).trans (congrArg _ hrest)
    | valued t v =>
      obtain ⟨ht,hv⟩ := hwell
      simp [Arg.tokens,scan,ht,hv,hrest]
    | bare t =>
      have ht : isFlag t = true := hwell
      cases htokens : render args with
      | nil =>
        rw [htokens,scan] at hrest
        simp [Arg.tokens,scan,ht,← hrest]
      | cons v tokens =>
        have hv := render_head h ⟨t,rfl⟩ htokens
        rw [htokens] at hrest
        simp [Arg.tokens,scan,ht,hv,hrest]

theorem canonical_unique {args' : List (Arg T)} (h : Canonical isFlag args) (h' : Canonical isFlag args')
    (hsame : render args = render args') : args = args' := by
  rw [← scan_render h,hsame,scan_render h']

end FlagTokens
