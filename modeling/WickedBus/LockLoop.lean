import WickedBus.Filter

namespace WickedBus

open WickedBus.Filter (Text)

def isJsSpace (c : Char) : Bool :=
  decide (c.toNat ∈ [9,10,11,12,13,32,160,5760,8232,8233,8239,8287,12288,65279]) ||
    (decide (8192 ≤ c.toNat) && decide (c.toNat ≤ 8202))

def digitsValue (ds : Text) : ℤ := ds.foldl (fun n c => 10 * n + ((c.toNat : ℤ) - 48)) 0

def leadingDigits (text : Text) : Option ℤ :=
  let ds := text.takeWhile Char.isDigit
  if ds = [] then none else some (digitsValue ds)

def parseInt (text : Text) : Option ℤ :=
  match text.dropWhile isJsSpace with
  | '-' :: rest => (leadingDigits rest).map (fun n => -n)
  | '+' :: rest => leadingDigits rest
  | rest => leadingDigits rest

inductive KillOutcome where
  | delivered | eperm | failed
  deriving DecidableEq, Repr

def pidIsAlive (kill : ℤ → KillOutcome) (pid : ℤ) : Bool :=
  decide (-2 ^ 31 ≤ pid ∧ pid < 2 ^ 31) && decide (kill pid ≠ .failed)

inductive LockPath where
  | absent
  | file (content : Text)
  | directory
  deriving DecidableEq, Repr

structure LockIo where
  openError : Bool
  writeError : Bool
  closeError : Bool
  readError : Bool
  kill : ℤ → KillOutcome
  unlinkError : Bool

inductive AcquireOutcome where
  | held
  | alreadyRunning (priorPid : ℤ)
  | ioError
  deriving DecidableEq, Repr

def readPriorPid (io : LockIo) : LockPath → Option ℤ
  | .file content => if io.readError then none else (parseInt content).filter (fun pid => decide (pid ≠ 0))
  | _ => none

def livePrior (io : LockIo) (path : LockPath) : Option ℤ :=
  (readPriorPid io path).filter (pidIsAlive io.kill)

def unlinkLock (io : LockIo) : LockPath → LockPath
  | .file content => if io.unlinkError then .file content else .absent
  | path => path

def pidText (pid : ℕ) : Text := (toString pid).toList

def createLock (pid : ℕ) (io : LockIo) : LockPath × Option AcquireOutcome :=
  if io.openError then (.absent,some .ioError)
  else if io.writeError then (.file [],some .ioError)
  else if io.closeError then (.file (pidText pid),some .ioError)
  else (.file (pidText pid),some .held)

def acquireIteration (pid : ℕ) (io : LockIo) (path : LockPath) : LockPath × Option AcquireOutcome :=
  if path = .absent then createLock pid io
  else if io.openError then (path,some .ioError)
  else
    match livePrior io path with
    | some prior => (path,some (.alreadyRunning prior))
    | none => (unlinkLock io path,none)

def acquireLoop (pid : ℕ) : (ℕ → LockIo) → ℕ → LockPath → LockPath × Option AcquireOutcome
  | _,0,path => (path,none)
  | ios,n + 1,path =>
    match acquireIteration pid (ios 0) path with
    | (path,some outcome) => (path,some outcome)
    | (path,none) => acquireLoop pid (fun i => ios (i + 1)) n path

inductive LoopBreaks (io : LockIo) : LockPath → Prop
  | absent : LoopBreaks io .absent
  | openError {path : LockPath} (h : io.openError = true) : LoopBreaks io path
  | alive {path : LockPath} {prior : ℤ} (h : livePrior io path = some prior) : LoopBreaks io path
  | unlinked {content : Text} (h : io.unlinkError = false) : LoopBreaks io (.file content)

section Loop

variable {pid : ℕ} {io : LockIo} {ios : ℕ → LockIo} {path : LockPath}

theorem createLock_outcome (pid : ℕ) (io : LockIo) :
    ∃ path outcome, createLock pid io = (path,some outcome) ∧
      (outcome = .held → path = .file (pidText pid)) := by
  unfold createLock
  split_ifs
  · exact ⟨_,_,rfl,by simp⟩
  · exact ⟨_,_,rfl,by simp⟩
  · exact ⟨_,_,rfl,by simp⟩
  · exact ⟨_,_,rfl,fun _ => rfl⟩

theorem unlinkLock_cases (hpresent : path ≠ .absent) :
    (unlinkLock io path = .absent ∧ LoopBreaks io path) ∨
      (unlinkLock io path = path ∧ ∀ content, path = .file content → io.unlinkError = true) := by
  cases path with
  | absent => exact absurd rfl hpresent
  | directory => exact .inr ⟨rfl,by simp⟩
  | file content =>
    cases hunlink : io.unlinkError with
    | false => exact .inl ⟨by simp [unlinkLock,hunlink],.unlinked hunlink⟩
    | true => exact .inr ⟨by simp [unlinkLock,hunlink],fun _ _ => rfl⟩

theorem not_loopBreaks (hpresent : path ≠ .absent) (hopen : io.openError = false)
    (hdead : livePrior io path = none) (hkept : ∀ content, path = .file content → io.unlinkError = true) :
    ¬ LoopBreaks io path := by
  intro h
  cases h with
  | absent => exact hpresent rfl
  | openError h => simp [hopen] at h
  | alive h => simp [hdead] at h
  | unlinked h => simp [hkept _ rfl] at h

theorem acquireIteration_cases (pid : ℕ) (io : LockIo) (path : LockPath) :
    (∃ p outcome, acquireIteration pid io path = (p,some outcome) ∧ LoopBreaks io path ∧
      (outcome = .held → p = .file (pidText pid))) ∨
    (acquireIteration pid io path = (.absent,none) ∧ LoopBreaks io path) ∨
    (acquireIteration pid io path = (path,none) ∧ ¬ LoopBreaks io path) := by
  unfold acquireIteration
  split_ifs with habsent hopen
  · subst habsent
    obtain ⟨p,outcome,hcreate,hheld⟩ := createLock_outcome pid io
    exact .inl ⟨p,outcome,hcreate,.absent,hheld⟩
  · exact .inl ⟨_,_,rfl,.openError hopen,by simp⟩
  · cases hprior : livePrior io path with
    | some prior => exact .inl ⟨_,_,rfl,.alive hprior,by simp⟩
    | none =>
      rcases @unlinkLock_cases io path habsent with ⟨hgone,hbreaks⟩ | ⟨hkept,hfile⟩
      · exact .inr (.inl ⟨by rw [hgone],hbreaks⟩)
      · exact .inr (.inr ⟨by rw [hkept],not_loopBreaks habsent (Bool.eq_false_iff.mpr hopen) hprior hfile⟩)

theorem acquireLoop_stuck (hstuck : ∀ i, ¬ LoopBreaks (ios i) path) (n : ℕ) :
    acquireLoop pid ios n path = (path,none) := by
  induction n generalizing ios with
  | zero => rfl
  | succ n ih =>
    rcases acquireIteration_cases pid (ios 0) path with ⟨_,_,-,hbreaks,-⟩ | ⟨-,hbreaks⟩ | ⟨hkept,-⟩
    · exact absurd hbreaks (hstuck 0)
    · exact absurd hbreaks (hstuck 0)
    · rw [acquireLoop,hkept]
      exact ih fun i => hstuck (i + 1)

theorem acquireLoop_absent (pid : ℕ) (ios : ℕ → LockIo) (n : ℕ) :
    ∃ outcome, (acquireLoop pid ios (n + 1) .absent).2 = some outcome := by
  obtain ⟨p,outcome,hcreate,-⟩ := createLock_outcome pid (ios 0)
  refine ⟨outcome,?_⟩
  rw [acquireLoop,acquireIteration,if_pos rfl,hcreate]

theorem acquireLoop_breaks {i : ℕ} (hbreaks : LoopBreaks (ios i) path) :
    ∃ outcome, (acquireLoop pid ios (i + 2) path).2 = some outcome := by
  induction i generalizing ios path with
  | zero =>
    rcases acquireIteration_cases pid (ios 0) path with ⟨p,outcome,hend,-,-⟩ | ⟨hgone,-⟩ | ⟨-,hstuck⟩
    · exact ⟨outcome,by rw [acquireLoop,hend]⟩
    · rw [acquireLoop,hgone]
      exact acquireLoop_absent pid _ 0
    · exact absurd hbreaks hstuck
  | succ i ih =>
    rcases acquireIteration_cases pid (ios 0) path with ⟨p,outcome,hend,-,-⟩ | ⟨hgone,-⟩ | ⟨hkept,-⟩
    · exact ⟨outcome,by rw [acquireLoop,hend]⟩
    · rw [acquireLoop,hgone]
      exact ih .absent
    · rw [acquireLoop,hkept]
      exact ih hbreaks

theorem acquireLoop_held {n : ℕ} (hheld : (acquireLoop pid ios n path).2 = some .held) :
    (acquireLoop pid ios n path).1 = .file (pidText pid) := by
  induction n generalizing ios path with
  | zero => cases hheld
  | succ n ih =>
    rw [acquireLoop] at hheld ⊢
    rcases acquireIteration_cases pid (ios 0) path with ⟨p,outcome,hend,-,hfile⟩ | ⟨hgone,-⟩ | ⟨hkept,-⟩
    · rw [hend] at hheld ⊢
      exact hfile (Option.some.inj hheld)
    · rw [hgone] at hheld ⊢
      exact ih hheld
    · rw [hkept] at hheld ⊢
      exact ih hheld

end Loop

theorem acquire_loop_ends_iff (pid : ℕ) (ios : ℕ → LockIo) (path : LockPath) :
    (∃ n outcome, (acquireLoop pid ios n path).2 = some outcome ∧
      (outcome = .held → (acquireLoop pid ios n path).1 = .file (pidText pid))) ↔
      ∃ i, LoopBreaks (ios i) path := by
  constructor
  · rintro ⟨n,outcome,hend,-⟩
    by_contra hnone
    push Not at hnone
    rw [acquireLoop_stuck hnone] at hend
    cases hend
  · rintro ⟨i,hbreaks⟩
    obtain ⟨outcome,hend⟩ := @acquireLoop_breaks pid ios path i hbreaks
    exact ⟨i + 2,outcome,hend,fun hheld => acquireLoop_held (hheld ▸ hend)⟩

theorem acquire_loop_never_ends :
    ¬ ∃ n outcome, (acquireLoop 7 (fun _ => ⟨false,false,false,false,fun _ => .failed,false⟩) n
      .directory).2 = some outcome := by
  rintro ⟨n,outcome,hend⟩
  rw [acquireLoop_stuck fun _ => not_loopBreaks (by simp) rfl rfl (by simp)] at hend
  cases hend

example : parseInt " 41\n".toList = some 41 := by decide +kernel

end WickedBus
