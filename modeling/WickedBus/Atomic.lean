import WickedBus.Foundation.Directory
import Mathlib

namespace WickedBus

abbrev ErrorCode := String

def replaceCodes : List ErrorCode := ["EPERM","EEXIST","EACCES","EBUSY"]

def win32EbusyRetries : ℕ := 5

section Calls

variable {P α : Type} [DecidableEq P]

def renameSync (fault : Option ErrorCode) (d : Directory P α) (a b : P) : Except ErrorCode (Directory P α) :=
  match fault with
  | some code => .error code
  | none =>
    match d.rename a b with
    | some d' => .ok d'
    | none => .error "ENOENT"

def unlinkSync (fault : Option ErrorCode) (d : Directory P α) (p : P) : Except ErrorCode (Directory P α) :=
  match fault with
  | some code => .error code
  | none => if (d p).isSome then .ok (d.unlink p) else .error "ENOENT"

def tryUnlink (fault : Option ErrorCode) (d : Directory P α) (p : P) : Directory P α :=
  match unlinkSync fault d p with
  | .ok d' => d'
  | .error _ => d

end Calls

structure RenameCall (P : Type) where
  tmp : P
  target : P
  win32 : Bool
  swallowCodes : List ErrorCode

structure RenameFaults where
  rename : ℕ → Option ErrorCode
  unlinkTarget : ℕ → Option ErrorCode
  unlinkTmp : Option ErrorCode

inductive RenameResult where
  | returned (swallowed : Option ErrorCode)
  | thrown (code : ErrorCode)
  deriving DecidableEq, Repr

section AtomicRename

variable {P α : Type} [DecidableEq P]

def replaceLoop (c : RenameCall P) (f : RenameFaults) : ℕ → ℕ → Directory P α → Directory P α × Option ErrorCode
  | left,attempt,d =>
    let cleared := tryUnlink (f.unlinkTarget attempt) d c.target
    match renameSync (f.rename (attempt + 1)) cleared c.tmp c.target with
    | .ok placed => (placed,none)
    | .error code =>
      match left with
      | 0 => (cleared,some code)
      | left + 1 => if code = "EBUSY" then replaceLoop c f left (attempt + 1) cleared else (cleared,some code)

def giveUp (c : RenameCall P) (f : RenameFaults) (d : Directory P α) (code : ErrorCode) :
    Directory P α × RenameResult :=
  (tryUnlink f.unlinkTmp d c.tmp,if code ∈ c.swallowCodes then .returned (some code) else .thrown code)

def afterLoop (c : RenameCall P) (f : RenameFaults) :
    Directory P α × Option ErrorCode → Directory P α × RenameResult
  | (placed,none) => (placed,.returned none)
  | (d,some lastErr) => giveUp c f d lastErr

def atomicRename (c : RenameCall P) (f : RenameFaults) (d : Directory P α) : Directory P α × RenameResult :=
  match renameSync (f.rename 0) d c.tmp c.target with
  | .ok placed => (placed,.returned none)
  | .error code =>
    if c.win32 = true ∧ code ∈ replaceCodes then afterLoop c f (replaceLoop c f win32EbusyRetries 0 d)
    else giveUp c f d code

structure AllOrNothing (c : RenameCall P) (d d' : Directory P α) (r : RenameResult) : Prop where
  placed : r = .returned none → d' c.target = d c.tmp
  held : ∀ code, r = .returned (some code) → (d c.target).isSome ∧ d' c.target = d c.target
  thrown : ∀ code, r = .thrown code → (d c.target).isSome → d' c.target = d c.target
  present : (d c.target).isSome → (d' c.target).isSome

def lastAttempt (f : RenameFaults) : ℕ → ℕ → ℕ
  | 0,attempt => attempt
  | left + 1,attempt =>
    if f.rename (attempt + 1) = some "EBUSY" then lastAttempt f left (attempt + 1) else attempt

def TargetStays (c : RenameCall P) (d : Directory P α) (code : ErrorCode) : Prop :=
  (d c.target).isSome ∨ code ∉ c.swallowCodes

def RenameSafe (c : RenameCall P) (f : RenameFaults) (d : Directory P α) : Prop :=
  ∀ code, f.rename 0 = some code →
    if c.win32 = true ∧ code ∈ replaceCodes then
      ∀ last, f.rename (lastAttempt f win32EbusyRetries 0 + 1) = some last →
        TargetStays c d last ∧
        ((d c.target).isSome → ∀ n ≤ lastAttempt f win32EbusyRetries 0, f.unlinkTarget n ≠ none)
    else TargetStays c d code

end AtomicRename

section Outcomes

variable {P α : Type} [DecidableEq P] {d : Directory P α} {c : RenameCall P} {f : RenameFaults}
variable {a b p q : P} {x : α} {fault : Option ErrorCode} {code : ErrorCode}

theorem renameSync_ok (h : d a = some x) : renameSync none d a b = .ok ((d.unlink a).link b x) := by
  simp only [renameSync,Directory.rename_eq_some h]

theorem tryUnlink_unlink : tryUnlink none d p = d.unlink p := by
  simp only [tryUnlink,unlinkSync]
  split_ifs with hp
  · rfl
  · exact (Directory.unlink_of_none (Option.not_isSome_iff_eq_none.mp hp)).symm

theorem tryUnlink_none : tryUnlink none d p p = none := by
  rw [tryUnlink_unlink,Directory.unlink_self]

theorem tryUnlink_of_ne (h : q ≠ p) : tryUnlink fault d p q = d q := by
  cases fault with
  | some code => rfl
  | none =>
    rw [tryUnlink_unlink]
    exact Directory.unlink_of_ne d h

theorem tryUnlink_self (h : fault ≠ none) : tryUnlink fault d p = d := by
  cases fault with
  | none => exact absurd rfl h
  | some code => rfl

theorem le_lastAttempt (f : RenameFaults) (left attempt : ℕ) : attempt ≤ lastAttempt f left attempt := by
  induction left generalizing attempt with
  | zero => exact le_rfl
  | succ left ih =>
    rw [lastAttempt]
    split_ifs
    · exact (Nat.le_succ _).trans (ih _)
    · exact le_rfl

structure Looped (c : RenameCall P) (f : RenameFaults) (d : Directory P α) (x : α) (attempt last : ℕ)
    (r : Directory P α × Option ErrorCode) : Prop where
  outcome : r.2 = f.rename (last + 1)
  placed : r.2 = none → r.1 c.target = some x
  source : r.2 ≠ none → r.1 c.tmp = some x
  target : r.2 ≠ none → ((∀ n, attempt ≤ n → n ≤ last → f.unlinkTarget n ≠ none) → r.1 c.target = d c.target) ∧
    ((∃ n, attempt ≤ n ∧ n ≤ last ∧ f.unlinkTarget n = none) → r.1 c.target = none)

theorem Looped.later {attempt last : ℕ} {r : Directory P α × Option ErrorCode} (hle : attempt + 1 ≤ last)
    (h : Looped c f (tryUnlink (f.unlinkTarget attempt) d c.target) x (attempt + 1) last r) :
    Looped c f d x attempt last r := by
  refine ⟨h.outcome,h.placed,h.source,fun hfail => ⟨fun hall => ?_,fun hsome => ?_⟩⟩
  · have hlater := (h.target hfail).1 fun n hn => hall n (by omega)
    rwa [tryUnlink_self (hall attempt le_rfl (by omega))] at hlater
  · by_cases hlater : ∃ n, attempt + 1 ≤ n ∧ n ≤ last ∧ f.unlinkTarget n = none
    · exact (h.target hfail).2 hlater
    · have hfirst : f.unlinkTarget attempt = none := by
        obtain ⟨n,hn,hlast,hnone⟩ := hsome
        rcases Nat.eq_or_lt_of_le hn with rfl | hlt
        · exact hnone
        · exact absurd ⟨n,hlt,hlast,hnone⟩ hlater
      have hkept := (h.target hfail).1 fun n hn hlast hnone => hlater ⟨n,hn,hlast,hnone⟩
      rw [hkept,hfirst,tryUnlink_none]

theorem looped_placed {attempt : ℕ} {e : Directory P α} (hrename : f.rename (attempt + 1) = none) :
    Looped c f d x attempt attempt ((e.unlink c.tmp).link c.target x,none) := by
  refine ⟨hrename.symm,fun _ => Directory.link_self _ _ _,?_,?_⟩ <;> intro hfail <;> exact absurd rfl hfail

theorem looped_stopped {attempt : ℕ} (hne : c.tmp ≠ c.target) (hx : d c.tmp = some x)
    (hrename : f.rename (attempt + 1) = some code) :
    Looped c f d x attempt attempt (tryUnlink (f.unlinkTarget attempt) d c.target,some code) := by
  refine ⟨hrename.symm,nofun,fun _ => (tryUnlink_of_ne hne).trans hx,fun _ => ⟨?_,?_⟩⟩
  · intro hall
    rw [tryUnlink_self (hall attempt le_rfl le_rfl)]
  · rintro ⟨n,hn,hlast,hnone⟩
    obtain rfl := le_antisymm hn hlast
    rw [hnone]
    exact tryUnlink_none

theorem replaceLoop_looped (hne : c.tmp ≠ c.target) (left attempt : ℕ) (d : Directory P α) (hx : d c.tmp = some x) :
    Looped c f d x attempt (lastAttempt f left attempt) (replaceLoop c f left attempt d) := by
  have hcleared : tryUnlink (f.unlinkTarget attempt) d c.target c.tmp = some x := (tryUnlink_of_ne hne).trans hx
  induction left generalizing attempt d with
  | zero =>
    rw [replaceLoop,lastAttempt]
    cases hrename : f.rename (attempt + 1) with
    | none =>
      rw [renameSync_ok hcleared]
      exact looped_placed hrename
    | some code => exact looped_stopped hne hx hrename
  | succ left ih =>
    rw [replaceLoop,lastAttempt]
    cases hrename : f.rename (attempt + 1) with
    | none =>
      rw [renameSync_ok hcleared]
      exact looped_placed hrename
    | some code =>
      by_cases hbusy : code = "EBUSY"
      · subst hbusy
        rw [if_pos rfl]
        exact (ih (attempt + 1) _ hcleared ((tryUnlink_of_ne hne).trans hcleared)).later
          (le_lastAttempt f left (attempt + 1))
      · rw [if_neg (fun heq => hbusy (Option.some.inj heq))]
        simp only [renameSync,if_neg hbusy]
        exact looped_stopped hne hx hrename

theorem giveUp_target (hne : c.tmp ≠ c.target) : (giveUp c f d code).1 c.target = d c.target :=
  tryUnlink_of_ne hne.symm

theorem giveUp_allOrNothing {e : Directory P α} (hne : c.tmp ≠ c.target) :
    AllOrNothing c d (giveUp c f e code).1 (giveUp c f e code).2 ↔
      TargetStays c d code ∧ ((d c.target).isSome → e c.target = d c.target) := by
  have htarget : (giveUp c f e code).1 c.target = e c.target := giveUp_target hne
  have hresult : (giveUp c f e code).2 =
      if code ∈ c.swallowCodes then .returned (some code) else .thrown code := rfl
  constructor
  · intro h
    by_cases hswallow : code ∈ c.swallowCodes
    · rw [if_pos hswallow] at hresult
      obtain ⟨hprior,hheld⟩ := h.held code hresult
      exact ⟨.inl hprior,fun _ => htarget.symm.trans hheld⟩
    · rw [if_neg hswallow] at hresult
      exact ⟨.inr hswallow,fun hprior => htarget.symm.trans (h.thrown code hresult hprior)⟩
  · rintro ⟨hkept,hsame⟩
    refine ⟨fun hplaced => ?_,fun code' hheld => ?_,fun code' _ hprior => htarget.trans (hsame hprior),
      fun hprior => ?_⟩
    · rw [hresult] at hplaced
      split_ifs at hplaced
      cases hplaced
    · rw [hresult] at hheld
      split_ifs at hheld with hswallow
      have hprior := hkept.resolve_right (not_not_intro hswallow)
      exact ⟨hprior,htarget.trans (hsame hprior)⟩
    · rw [htarget,hsame hprior]
      exact hprior

omit [DecidableEq P] in
theorem allOrNothing_placed {d' : Directory P α} (h : d' c.target = d c.tmp) (hx : d c.tmp = some x) :
    AllOrNothing c d d' (.returned none) :=
  ⟨fun _ => h,nofun,nofun,fun _ => by rw [h,hx]; rfl⟩

theorem afterLoop_allOrNothing (hne : c.tmp ≠ c.target) (hx : d c.tmp = some x) {last : ℕ}
    {r : Directory P α × Option ErrorCode} (h : Looped c f d x 0 last r) :
    AllOrNothing c d (afterLoop c f r).1 (afterLoop c f r).2 ↔
      ∀ code, f.rename (last + 1) = some code → TargetStays c d code ∧
        ((d c.target).isSome → ∀ n ≤ last, f.unlinkTarget n ≠ none) := by
  obtain ⟨e,_ | lastErr⟩ := r
  · have hrename : none = f.rename (last + 1) := h.outcome
    refine iff_of_true (allOrNothing_placed ((h.placed rfl).trans hx.symm) hx) fun code hcode => ?_
    rw [← hrename] at hcode
    cases hcode
  · have hrename : some lastErr = f.rename (last + 1) := h.outcome
    obtain ⟨hall,hsome⟩ := h.target nofun
    have hkept : (d c.target).isSome →
        (e c.target = d c.target ↔ ∀ n ≤ last, f.unlinkTarget n ≠ none) := by
      intro hprior
      refine ⟨fun hsame n hn hnone => ?_,fun h => hall fun n _ => h n⟩
      have hgone : e c.target = none := hsome ⟨n,n.zero_le,hn,hnone⟩
      rw [← hsame,hgone] at hprior
      cases hprior
    rw [afterLoop,giveUp_allOrNothing hne,← hrename]
    constructor
    · rintro ⟨hk,hsame⟩ code hcode
      cases hcode
      exact ⟨hk,fun hprior => (hkept hprior).mp (hsame hprior)⟩
    · intro h
      obtain ⟨hk,hun⟩ := h lastErr rfl
      exact ⟨hk,fun hprior => (hkept hprior).mpr (hun hprior)⟩

theorem atomicRename_allOrNothing_iff (hne : c.tmp ≠ c.target) (hx : d c.tmp = some x) :
    AllOrNothing c d (atomicRename c f d).1 (atomicRename c f d).2 ↔ RenameSafe c f d := by
  cases hrename : f.rename 0 with
  | none =>
    have hplaced : atomicRename c f d = ((Directory.unlink d c.tmp).link c.target x,.returned none) := by
      simp only [atomicRename,hrename,renameSync_ok hx]
    rw [hplaced]
    refine iff_of_true (allOrNothing_placed ((Directory.link_self ..).trans hx.symm) hx) fun code hcode => ?_
    rw [hrename] at hcode
    cases hcode
  | some code =>
    have hsafe : RenameSafe c f d ↔ if c.win32 = true ∧ code ∈ replaceCodes then
        ∀ last, f.rename (lastAttempt f win32EbusyRetries 0 + 1) = some last → TargetStays c d last ∧
          ((d c.target).isSome → ∀ n ≤ lastAttempt f win32EbusyRetries 0, f.unlinkTarget n ≠ none)
        else TargetStays c d code := by
      simp only [RenameSafe,hrename,Option.some.injEq,forall_eq']
    rw [hsafe]
    simp only [atomicRename,hrename,renameSync]
    split_ifs with hspecial
    · exact afterLoop_allOrNothing hne hx (replaceLoop_looped hne _ _ d hx)
    · rw [giveUp_allOrNothing hne]
      exact and_iff_left fun _ => rfl

end Outcomes

def occupied : Directory String ℕ := fun p => if p = "blob.tmp" then some 2 else if p = "blob" then some 1 else none

def windowsRename : RenameCall String := ⟨"blob.tmp","blob",true,["EEXIST"]⟩

def refusedOnce : RenameFaults where
  rename n := if n = 0 then some "EPERM" else none
  unlinkTarget _ := none
  unlinkTmp := none

theorem atomicRename_allOrNothing_sample :
    AllOrNothing windowsRename occupied (atomicRename windowsRename refusedOnce occupied).1
      (atomicRename windowsRename refusedOnce occupied).2 := by
  refine (atomicRename_allOrNothing_iff (x := 2) (by decide) rfl).mpr fun code hcode => ?_
  obtain rfl : "EPERM" = code := Option.some.inj hcode
  rw [if_pos (by decide)]
  intro last hlast
  cases hlast

def refusedTwice : RenameFaults where
  rename n := if n = 0 then some "EPERM" else some "EACCES"
  unlinkTarget _ := none
  unlinkTmp := none

theorem atomicRename_target_lost :
    (atomicRename windowsRename refusedTwice occupied).2 = .thrown "EACCES" ∧ occupied "blob" = some 1 ∧
      (atomicRename windowsRename refusedTwice occupied).1 "blob" = none ∧
      ¬ AllOrNothing windowsRename occupied (atomicRename windowsRename refusedTwice occupied).1
        (atomicRename windowsRename refusedTwice occupied).2 := by
  have hlost : (atomicRename windowsRename refusedTwice occupied).1 "blob" = none := by decide
  refine ⟨by decide,by decide,hlost,fun h => ?_⟩
  have hpresent := h.present rfl
  rw [show windowsRename.target = "blob" from rfl,hlost] at hpresent
  cases hpresent

end WickedBus
