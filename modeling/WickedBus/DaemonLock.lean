import WickedBus.Foundation.GuardedRun

namespace WickedBus

open GuardedRun

structure LockFile where
  creator : ℕ
  inode : ℕ
  content : Option ℕ
  deriving DecidableEq, Repr

inductive LockError where
  | alreadyRunning (priorPid : ℕ)
  | ioError
  deriving DecidableEq, Repr

inductive LockPhase where
  | idle
  | openExclusive
  | writePid (inode : ℕ)
  | closeFile (inode : ℕ)
  | readHolder
  | checkHolder (priorPid : Option ℕ)
  | unlinkStale
  deriving DecidableEq, Repr

structure LockProcess where
  alive : Bool
  phase : LockPhase
  locks : List ℕ
  held : List ℕ
  thrown : Option LockError
  deriving DecidableEq, Repr

structure LockWorld where
  lockFile : Option LockFile
  nextInode : ℕ
  processes : ℕ → LockProcess

def LockWorld.start : LockWorld := ⟨none,0,fun _ => ⟨true,.idle,[],[],none⟩⟩

inductive LockAction where
  | acquire (pid : ℕ)
  | advance (pid : ℕ)
  | ioError (pid : ℕ)
  | release (pid inode : ℕ)
  | releaseError (pid inode : ℕ)
  | crash (pid : ℕ)
  deriving DecidableEq, Repr

def priorPid (file : Option LockFile) : Option ℕ :=
  (file.bind LockFile.content).filter (fun pid => decide (pid ≠ 0))

def LockFile.write (inode pid : ℕ) (f : LockFile) : LockFile :=
  if f.inode = inode then { f with content := some pid } else f

namespace LockWorld

def pidIsAlive (w : LockWorld) (pid : ℕ) : Bool := (w.processes pid).alive

def put (w : LockWorld) (pid : ℕ) (q : LockProcess) : LockWorld :=
  { w with processes := Function.update w.processes pid q }

def advance (w : LockWorld) (pid : ℕ) : Option LockWorld :=
  let q := w.processes pid
  match q.phase with
  | .idle => none
  | .openExclusive =>
    match w.lockFile with
    | none => some ({ w with
        lockFile := some ⟨pid,w.nextInode,none⟩, nextInode := w.nextInode + 1 }.put pid
          { q with phase := .writePid w.nextInode })
    | some _ => some (w.put pid { q with phase := .readHolder })
  | .writePid inode => some ({ w with lockFile := w.lockFile.map (LockFile.write inode pid) }.put pid
      { q with phase := .closeFile inode })
  | .closeFile inode => some (w.put pid
      { q with phase := .idle, locks := inode :: q.locks, held := inode :: q.held })
  | .readHolder => some (w.put pid { q with phase := .checkHolder (priorPid w.lockFile) })
  | .checkHolder none => some (w.put pid { q with phase := .unlinkStale })
  | .checkHolder (some prior) =>
    if w.pidIsAlive prior then
      some (w.put pid { q with phase := .idle, thrown := some (.alreadyRunning prior) })
    else some (w.put pid { q with phase := .unlinkStale })
  | .unlinkStale => some ({ w with lockFile := none }.put pid { q with phase := .openExclusive })

-- a lock that cannot be read counts as stale, and both unlinks swallow their errors
def ioError (w : LockWorld) (pid : ℕ) : Option LockWorld :=
  let q := w.processes pid
  match q.phase with
  | .openExclusive | .writePid _ | .closeFile _ =>
    some (w.put pid { q with phase := .idle, thrown := some .ioError })
  | .readHolder => some (w.put pid { q with phase := .checkHolder none })
  | .unlinkStale => some (w.put pid { q with phase := .openExclusive })
  | .idle | .checkHolder _ => none

def step (w : LockWorld) : LockAction → Option LockWorld
  | .acquire pid =>
    let q := w.processes pid
    if pid ≠ 0 ∧ q.alive = true ∧ q.phase = .idle then
      some (w.put pid { q with phase := .openExclusive, thrown := none })
    else none
  | .advance pid => if (w.processes pid).alive then w.advance pid else none
  | .ioError pid => if (w.processes pid).alive then w.ioError pid else none
  | .release pid inode =>
    let q := w.processes pid
    if q.alive = true ∧ q.phase = .idle ∧ inode ∈ q.locks then
      some ({ w with lockFile := none }.put pid { q with held := q.held.filter (· ≠ inode) })
    else none
  | .releaseError pid inode =>
    let q := w.processes pid
    if q.alive = true ∧ q.phase = .idle ∧ inode ∈ q.locks then
      some (w.put pid { q with held := q.held.filter (· ≠ inode) })
    else none
  | .crash pid => some (w.put pid { w.processes pid with alive := false })

def Exclusive (w : LockWorld) : Prop :=
  ∀ p q, (w.processes p).alive = true → (w.processes q).alive = true →
    (w.processes p).held ≠ [] → (w.processes q).held ≠ [] → p = q

end LockWorld

def LockProcess.owns (q : LockProcess) (inode : ℕ) : Bool :=
  q.alive && (decide (q.phase = .writePid inode) || decide (q.phase = .closeFile inode) ||
    decide (inode ∈ q.held))

def UnlinkOk (w : LockWorld) : LockAction → Prop
  | .advance pid => (w.processes pid).phase = .unlinkStale →
      ∀ f ∈ w.lockFile, (w.processes f.creator).owns f.inode = false
  | .release pid inode => ∀ f ∈ w.lockFile, (w.processes f.creator).owns f.inode = true →
      f.creator = pid ∧ f.inode = inode
  | _ => True

instance (w : LockWorld) (a : LockAction) : Decidable (UnlinkOk w a) := by
  cases a <;> unfold UnlinkOk <;> infer_instance

def OwnerPresent (w : LockWorld) : Prop :=
  ∀ p i, (w.processes p).owns i = true → ∃ f ∈ w.lockFile, f.creator = p ∧ f.inode = i

section Ownership

variable {w w' : LockWorld} {pid : ℕ} {q : LockProcess}

theorem owns_of_held {i : ℕ} (halive : q.alive = true) (hheld : i ∈ q.held) : q.owns i = true := by
  simp [LockProcess.owns,halive,hheld]

theorem owns_cases {i : ℕ} (h : q.owns i = true) :
    q.alive = true ∧ (q.phase = .writePid i ∨ q.phase = .closeFile i ∨ i ∈ q.held) := by
  simpa [LockProcess.owns,or_assoc] using h

theorem owns_of_outside {q' : LockProcess}
    (hout : ∀ i, q'.phase ≠ .writePid i ∧ q'.phase ≠ .closeFile i) (hheld : q'.held ⊆ q.held)
    (halive : q.alive = true) : ∀ i, q'.owns i = true → q.owns i = true := by
  intro i howns
  rcases owns_cases howns with ⟨-,hw | hc | hi⟩
  · exact absurd hw (hout i).1
  · exact absurd hc (hout i).2
  · exact owns_of_held halive (hheld hi)

theorem OwnerPresent.start : OwnerPresent .start := by
  intro p i h
  rcases owns_cases h with ⟨-,h | h | h⟩ <;> cases h

theorem OwnerPresent.unowned (h : OwnerPresent w) (hfile : w.lockFile = none) (p i : ℕ) :
    (w.processes p).owns i ≠ true := by
  intro howns
  obtain ⟨f,hf,-⟩ := h p i howns
  rw [hfile] at hf
  cases hf

theorem OwnerPresent.keep (h : OwnerPresent w) (hq : ∀ i, q.owns i = true → (w.processes pid).owns i = true)
    {file : Option LockFile} (next : ℕ)
    (hfile : ∀ f ∈ w.lockFile, ∃ g ∈ file, g.creator = f.creator ∧ g.inode = f.inode) :
    OwnerPresent ⟨file,next,Function.update w.processes pid q⟩ := by
  intro p i howns
  have hold : (w.processes p).owns i = true := by
    by_cases hp : p = pid
    · subst hp
      simp only [Function.update_self] at howns
      exact hq i howns
    · simpa only [Function.update_of_ne hp] using howns
  obtain ⟨f,hf,hfp,hfi⟩ := h p i hold
  obtain ⟨g,hg,hgc,hgi⟩ := hfile f hf
  exact ⟨g,hg,hgc.trans hfp,hgi.trans hfi⟩

theorem OwnerPresent.put (h : OwnerPresent w)
    (hq : ∀ i, q.owns i = true → (w.processes pid).owns i = true) : OwnerPresent (w.put pid q) :=
  h.keep hq w.nextInode (fun f hf => ⟨f,hf,rfl,rfl⟩)

theorem OwnerPresent.unlink (h : OwnerPresent w)
    (hq : ∀ i, q.owns i = true → (w.processes pid).owns i = true)
    (hgone : ∀ p i, (Function.update w.processes pid q p).owns i = true →
      ∀ f ∈ w.lockFile, f.creator = p → f.inode ≠ i) :
    OwnerPresent ({ w with lockFile := none }.put pid q) := by
  intro p i howns
  obtain ⟨f,hf,hfp,hfi⟩ := h.put hq p i howns
  exact absurd hfi (hgone p i howns f hf hfp)

theorem OwnerPresent.advance (h : OwnerPresent w) (halive : (w.processes pid).alive = true)
    (hok : UnlinkOk w (.advance pid)) (hstep : w.advance pid = some w') : OwnerPresent w' := by
  unfold LockWorld.advance at hstep
  cases hph : (w.processes pid).phase with
  | idle =>
    simp only [hph] at hstep
    cases hstep
  | openExclusive =>
    simp only [hph] at hstep
    cases hfile : w.lockFile with
    | none =>
      simp only [hfile] at hstep
      cases hstep
      intro p i howns
      by_cases hp : p = pid
      · subst hp
        refine ⟨_,rfl,rfl,?_⟩
        simp only [LockWorld.put,Function.update_self] at howns
        rcases owns_cases howns with ⟨-,hw | hc | hheld⟩
        · exact LockPhase.writePid.inj hw
        · cases hc
        · exact absurd (owns_of_held halive hheld) (h.unowned hfile p i)
      · simp only [LockWorld.put,Function.update_of_ne hp] at howns
        exact absurd howns (h.unowned hfile p i)
    | some f =>
      simp only [hfile] at hstep
      cases hstep
      exact h.put (owns_of_outside (by simp) (List.Subset.refl _) halive)
  | writePid inode =>
    simp only [hph] at hstep
    cases hstep
    refine h.keep (fun i howns => ?_) w.nextInode fun f hf => ?_
    · rcases owns_cases howns with ⟨-,hw | hc | hheld⟩
      · cases hw
      · cases hc
        simp [LockProcess.owns,halive,hph]
      · exact owns_of_held halive hheld
    · refine ⟨f.write inode pid,Option.mem_map_of_mem _ hf,?_⟩
      unfold LockFile.write
      split_ifs <;> exact ⟨rfl,rfl⟩
  | closeFile inode =>
    simp only [hph] at hstep
    cases hstep
    refine h.put fun i howns => ?_
    rcases owns_cases howns with ⟨-,hw | hc | hheld⟩
    · cases hw
    · cases hc
    · rcases List.mem_cons.mp hheld with rfl | hheld
      · simp [LockProcess.owns,halive,hph]
      · exact owns_of_held halive hheld
  | unlinkStale =>
    simp only [hph] at hstep
    cases hstep
    have hq : ∀ i, LockProcess.owns { w.processes pid with phase := .openExclusive } i = true →
        (w.processes pid).owns i = true :=
      owns_of_outside (by simp) (List.Subset.refl _) halive
    refine h.unlink hq fun p i howns f hf hfp hfi => ?_
    have hno := hok hph f hf
    subst hfp hfi
    by_cases hp : f.creator = pid
    · rw [hp,Function.update_self] at howns
      rw [hp,hq _ howns] at hno
      cases hno
    · rw [Function.update_of_ne hp,hno] at howns
      cases howns
  | readHolder =>
    simp only [hph] at hstep
    cases hstep
    exact h.put (owns_of_outside (by simp) (List.Subset.refl _) halive)
  | checkHolder prior =>
    cases prior with
    | none =>
      simp only [hph] at hstep
      cases hstep
      exact h.put (owns_of_outside (by simp) (List.Subset.refl _) halive)
    | some prior =>
      simp only [hph] at hstep
      split_ifs at hstep <;> cases hstep <;>
        exact h.put (owns_of_outside (by simp) (List.Subset.refl _) halive)

theorem OwnerPresent.ioError (h : OwnerPresent w) (halive : (w.processes pid).alive = true)
    (hstep : w.ioError pid = some w') : OwnerPresent w' := by
  unfold LockWorld.ioError at hstep
  cases hph : (w.processes pid).phase with
  | idle =>
    simp only [hph] at hstep
    cases hstep
  | checkHolder prior =>
    simp only [hph] at hstep
    cases hstep
  | openExclusive | writePid inode | closeFile inode | readHolder | unlinkStale =>
    simp only [hph] at hstep
    cases hstep
    exact h.put (owns_of_outside (by simp) (List.Subset.refl _) halive)

theorem owns_of_released {inode : ℕ} (halive : q.alive = true) (hidle : q.phase = .idle) {i : ℕ}
    (howns : LockProcess.owns { q with held := q.held.filter (· ≠ inode) } i = true) :
    q.owns i = true ∧ i ≠ inode := by
  rcases owns_cases howns with ⟨-,hw | hc | hheld⟩
  · cases hidle.symm.trans hw
  · cases hidle.symm.trans hc
  · obtain ⟨hmem,hne⟩ := List.mem_filter.mp hheld
    exact ⟨owns_of_held halive hmem,by simpa using hne⟩

theorem OwnerPresent.step (h : OwnerPresent w) {a : LockAction} (hok : UnlinkOk w a)
    (hstep : w.step a = some w') : OwnerPresent w' := by
  cases a with
  | advance pid =>
    simp only [LockWorld.step] at hstep
    split_ifs at hstep with halive
    exact h.advance halive hok hstep
  | acquire pid =>
    simp only [LockWorld.step] at hstep
    split_ifs at hstep with hpre
    cases hstep
    exact h.put (owns_of_outside (by simp) (List.Subset.refl _) hpre.2.1)
  | ioError pid =>
    simp only [LockWorld.step] at hstep
    split_ifs at hstep with halive
    exact h.ioError halive hstep
  | crash pid =>
    cases hstep
    refine h.put fun i howns => ?_
    cases (owns_cases howns).1
  | release pid inode =>
    simp only [LockWorld.step] at hstep
    split_ifs at hstep with hpre
    cases hstep
    refine h.unlink (fun i howns => (owns_of_released hpre.1 hpre.2.1 howns).1) fun p i howns f hf hfp hfi => ?_
    subst hfp hfi
    by_cases hp : f.creator = pid
    · rw [hp,Function.update_self] at howns
      obtain ⟨hold,hne⟩ := owns_of_released hpre.1 hpre.2.1 howns
      exact hne (hok f hf (hp ▸ hold)).2
    · rw [Function.update_of_ne hp] at howns
      exact hp (hok f hf howns).1
  | releaseError pid inode =>
    simp only [LockWorld.step] at hstep
    split_ifs at hstep with hpre
    cases hstep
    exact h.put fun i howns => (owns_of_released hpre.1 hpre.2.1 howns).1

theorem OwnerPresent.exclusive (h : OwnerPresent w) : w.Exclusive := by
  intro p q hp hq hheldp hheldq
  obtain ⟨i,hi⟩ := List.exists_mem_of_ne_nil _ hheldp
  obtain ⟨j,hj⟩ := List.exists_mem_of_ne_nil _ hheldq
  obtain ⟨f,hf,hfp,-⟩ := h p i (owns_of_held hp hi)
  obtain ⟨g,hg,hgq,-⟩ := h q j (owns_of_held hq hj)
  rw [← hfp,← hgq,Option.mem_unique hf hg]

end Ownership

theorem daemon_lock_exclusive {as : List LockAction} {w : LockWorld}
    (hrun : Run LockWorld.step UnlinkOk .start as w) : w.Exclusive := by
  have h : OwnerPresent w :=
    hrun.invariant (fun _ _ _ (ht : OwnerPresent _) hok hstep => ht.step hok hstep) .start
  exact h.exclusive

-- after the crash 2 fails to read the lock, then to unlink it, and comes through on its second round
def afterCrash : List LockAction :=
  [.acquire 1,.advance 1,.advance 1,.advance 1,.acquire 2,.advance 2,.advance 2,.advance 2,.crash 1,
    .acquire 2,.advance 2,.ioError 2,.advance 2,.ioError 2,
    .advance 2,.advance 2,.advance 2,.advance 2,.advance 2,.advance 2,.advance 2]

theorem daemon_lock_exclusive_after_crash :
    ∃ w, Run LockWorld.step UnlinkOk .start afterCrash w ∧ (w.processes 2).held ≠ [] ∧ w.Exclusive := by
  have hexec : (exec (guarded UnlinkOk LockWorld.step) .start afterCrash).any
      (fun w => decide ((w.processes 2).held ≠ [])) = true := by decide +kernel
  obtain ⟨w,hw,hheld⟩ := (Option.any_eq_true _ _).mp hexec
  have hrun := run_of_guarded hw
  exact ⟨w,hrun,of_decide_eq_true hheld,daemon_lock_exclusive hrun⟩

def readBeforePid : List LockAction :=
  [.acquire 1,.advance 1,.acquire 2,.advance 2,.advance 2,.advance 2,.advance 1,.advance 1,
    .advance 2,.advance 2,.advance 2,.advance 2]

theorem daemon_lock_held_twice :
    ∃ w, Run LockWorld.step (fun _ _ => True) .start readBeforePid w ∧ ¬w.Exclusive := by
  have hexec : (exec LockWorld.step .start readBeforePid).any
      (fun w => w.pidIsAlive 1 && w.pidIsAlive 2 &&
        decide ((w.processes 1).held ≠ [] ∧ (w.processes 2).held ≠ [])) = true := by decide +kernel
  obtain ⟨w,hw,hboth⟩ := (Option.any_eq_true _ _).mp hexec
  simp only [Bool.and_eq_true,decide_eq_true_eq] at hboth
  obtain ⟨⟨halive₁,halive₂⟩,hheld₁,hheld₂⟩ := hboth
  refine ⟨w,run_of_exec hw,fun hexcl => ?_⟩
  exact absurd (hexcl 1 2 halive₁ halive₂ hheld₁ hheld₂) (by decide)

end WickedBus
