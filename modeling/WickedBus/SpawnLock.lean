import WickedBus.DaemonLock

namespace WickedBus

open GuardedRun

inductive SpawnResult where
  | alreadyRunning | spawned | timedOut | threw
  deriving DecidableEq, Repr

inductive SpawnPhase where
  | idle
  | probe
  | probing (upAtStart : Bool)
  | openLock (retry : Bool)
  | writePid (retry : Bool) (inode : ℕ)
  | closeLock (retry : Bool)
  | holding
  | spawning
  | release (resolved : Bool)
  | readLock
  | checkPid (pid : ℕ)
  | unlinkStale
  | backoff
  | reprobing (upAtStart : Bool)
  | done (result : SpawnResult)
  deriving DecidableEq, Repr

structure SpawnWorld where
  lockFile : Option LockFile
  nextInode : ℕ
  daemonUp : Bool
  spawns : List ℕ
  phases : ℕ → SpawnPhase

def SpawnWorld.start : SpawnWorld := ⟨none,0,false,[],fun _ => .idle⟩

structure SpawnEnv where
  reachable : Bool
  readFails : Bool
  alive : Bool
  unlinkFails : Bool
  timedOut : Bool
  deriving DecidableEq, Repr

inductive SpawnAction where
  | call (p : ℕ)
  | advance (p : ℕ) (env : SpawnEnv)
  | ioError (p : ℕ)
  | reject (p : ℕ)
  deriving DecidableEq, Repr

def SpawnPhase.inFlight : SpawnPhase → Bool
  | .idle | .done _ => false
  | _ => true

namespace SpawnWorld

def put (w : SpawnWorld) (p : ℕ) (phase : SpawnPhase) : SpawnWorld :=
  { w with phases := Function.update w.phases p phase }

def unlink (w : SpawnWorld) (env : SpawnEnv) : Option LockFile := if env.unlinkFails then w.lockFile else none

def probeDaemon (w : SpawnWorld) (env : SpawnEnv) (upAtStart : Bool) : Bool :=
  upAtStart || (env.reachable && decide (w.spawns ≠ []))

def advance (w : SpawnWorld) (p : ℕ) (env : SpawnEnv) : Option SpawnWorld :=
  match w.phases p with
  | .idle => none
  | .probe => some (w.put p (.probing w.daemonUp))
  | .probing upAtStart =>
    some (w.put p (if w.probeDaemon env upAtStart then .done .alreadyRunning else .openLock false))
  | .openLock retry =>
    match w.lockFile with
    | none => some ({ w with
        lockFile := some ⟨p,w.nextInode,none⟩, nextInode := w.nextInode + 1 }.put p
          (.writePid retry w.nextInode))
    | some _ => some (w.put p (if retry then .backoff else .readLock))
  | .writePid retry inode => some ({ w with lockFile := w.lockFile.map (LockFile.write inode p) }.put p
      (.closeLock retry))
  | .closeLock _ => some (w.put p .holding)
  | .holding => some ({ w with spawns := w.spawns ++ [p] }.put p .spawning)
  | .spawning => some ({ w with daemonUp := true }.put p (.release true))
  | .release resolved => some ({ w with lockFile := w.unlink env }.put p
      (.done (if resolved then .spawned else .threw)))
  | .readLock =>
    match (if env.readFails then none else priorPid w.lockFile) with
    | none => some (w.put p .unlinkStale)
    | some pid => some (w.put p (.checkPid pid))
  | .checkPid pid =>
    some (w.put p (if (w.phases pid).inFlight || env.alive then .backoff else .unlinkStale))
  | .unlinkStale => some ({ w with lockFile := w.unlink env }.put p (.openLock true))
  | .backoff => some (w.put p (if env.timedOut then .done .timedOut else .reprobing w.daemonUp))
  | .reprobing upAtStart =>
    some (w.put p (if w.probeDaemon env upAtStart then .done .alreadyRunning else .backoff))
  | .done _ => none

def ioError (w : SpawnWorld) (p : ℕ) : Option SpawnWorld :=
  match w.phases p with
  | .openLock retry | .writePid retry _ | .closeLock retry =>
    some (w.put p (if retry then .backoff else .done .threw))
  | _ => none

def step (w : SpawnWorld) : SpawnAction → Option SpawnWorld
  | .call p => if p ≠ 0 ∧ w.phases p = .idle then some (w.put p .probe) else none
  | .advance p env => w.advance p env
  | .ioError p => w.ioError p
  | .reject p => if w.phases p = .spawning then some (w.put p (.release false)) else none

end SpawnWorld

def SpawnPhase.preparing : SpawnPhase → Bool
  | .writePid _ _ | .closeLock _ | .holding => true
  | _ => false

def SpawnPhase.holds : SpawnPhase → Bool
  | .writePid _ _ | .closeLock _ | .holding | .spawning | .release _ => true
  | _ => false

def SpawnPhase.aware : SpawnPhase → Bool
  | .probing upAtStart | .reprobing upAtStart => upAtStart
  | .spawning | .release _ => true
  | _ => false

def SpawnPhase.past : SpawnPhase → Bool
  | .idle | .probe | .probing _ | .openLock false => false
  | _ => true

def SpawnOk (w : SpawnWorld) : SpawnAction → Prop
  | .call _ => True
  | .advance p env =>
    ((∃ retry, w.phases p = .openLock retry) → w.lockFile = none → w.daemonUp = false) ∧
      (w.phases p = .unlinkStale → env.unlinkFails = false →
        ∀ f ∈ w.lockFile, (w.phases f.creator).holds = false)
  | .ioError _ | .reject _ => False

instance (w : SpawnWorld) (a : SpawnAction) : Decidable (SpawnOk w a) := by
  cases a <;> unfold SpawnOk <;> infer_instance

def Started (w : SpawnWorld) : Prop := w.spawns ≠ [] ∨ ∃ p, (w.phases p).preparing = true

structure SingleSpawn (w : SpawnWorld) : Prop where
  owned : ∀ p, (w.phases p).holds = true → ∃ f ∈ w.lockFile, f.creator = p
  once : w.spawns.length ≤ 1
  fresh : ∀ p, (w.phases p).preparing = true → w.spawns = []
  running : w.spawns ≠ [] → w.daemonUp = true ∨ ∃ p, w.phases p = .spawning
  up : w.daemonUp = true → w.spawns ≠ []
  aware : ∀ p, (w.phases p).aware = true → w.spawns ≠ []
  past : ∀ p, (w.phases p).past = true → Started w
  locked : w.lockFile.isSome = true → Started w

section SingleSpawn

variable {w w' : SpawnWorld} {p q : ℕ} {phase : SpawnPhase} {env : SpawnEnv}

theorem SingleSpawn.start : SingleSpawn .start := by
  refine ⟨?_,?_,?_,?_,?_,?_,?_,?_⟩ <;> simp [SpawnWorld.start,SpawnPhase.holds,SpawnPhase.preparing,
    SpawnPhase.aware,SpawnPhase.past]

theorem holds_of_preparing (h : phase.preparing = true) : phase.holds = true := by
  cases phase <;> simp_all [SpawnPhase.preparing,SpawnPhase.holds]

theorem update_cases (P : SpawnPhase → Bool) (h : P (Function.update w.phases p phase q) = true) :
    q = p ∧ P phase = true ∨ q ≠ p ∧ P (w.phases q) = true := by
  by_cases hq : q = p
  · subst hq
    exact .inl ⟨rfl,by simpa using h⟩
  · exact .inr ⟨hq,by simpa [Function.update_of_ne hq] using h⟩

theorem SingleSpawn.holder_unique (h : SingleSpawn w) (hp : (w.phases p).holds = true)
    (hq : (w.phases q).holds = true) : q = p := by
  obtain ⟨f,hf,hfp⟩ := h.owned p hp
  obtain ⟨g,hg,hgq⟩ := h.owned q hq
  rw [← hfp,← hgq,Option.mem_unique hf hg]

theorem Started.keep (h : Started w) (hprep : (w.phases p).preparing = true → phase.preparing = true)
    {lock : Option LockFile} {next : ℕ} {up : Bool} :
    Started ⟨lock,next,up,w.spawns,Function.update w.phases p phase⟩ := by
  rcases h with hspawned | ⟨q,hq⟩
  · exact .inl hspawned
  · right
    by_cases hqp : q = p
    · subst hqp
      exact ⟨q,by simpa using hprep hq⟩
    · exact ⟨q,by simpa [Function.update_of_ne hqp] using hq⟩

theorem SingleSpawn.move (h : SingleSpawn w) {lock : Option LockFile} {next : ℕ}
    (hlock : ∀ q, q ≠ p ∨ phase.holds = true → (w.phases q).holds = true → ∃ g ∈ lock, g.creator = q)
    (hlocked : lock.isSome = true → w.lockFile.isSome = true)
    (hholds : phase.holds = true → (w.phases p).holds = true)
    (hprep : phase.preparing = (w.phases p).preparing) (hspawn : w.phases p ≠ .spawning)
    (haware : phase.aware = true → w.spawns ≠ []) (hpast : phase.past = true → Started w) :
    SingleSpawn ⟨lock,next,w.daemonUp,w.spawns,Function.update w.phases p phase⟩ where
  owned q hq := by
    rcases update_cases SpawnPhase.holds hq with ⟨rfl,hnew⟩ | ⟨hne,hold⟩
    · exact hlock q (.inr hnew) (hholds hnew)
    · exact hlock q (.inl hne) hold
  once := h.once
  fresh q hq := by
    rcases update_cases SpawnPhase.preparing hq with ⟨rfl,hnew⟩ | ⟨-,hold⟩
    · exact h.fresh q (hprep ▸ hnew)
    · exact h.fresh q hold
  running hspawned := by
    rcases h.running hspawned with hup | ⟨q,hq⟩
    · exact .inl hup
    · have hne : q ≠ p := fun heq => hspawn (heq ▸ hq)
      exact .inr ⟨q,by simpa [Function.update_of_ne hne] using hq⟩
  up := h.up
  aware q hq := by
    rcases update_cases SpawnPhase.aware hq with ⟨-,hnew⟩ | ⟨-,hold⟩
    · exact haware hnew
    · exact h.aware q hold
  past q hq := by
    rcases update_cases SpawnPhase.past hq with ⟨-,hnew⟩ | ⟨-,hold⟩
    · exact (hpast hnew).keep fun hp => hprep.trans hp
    · exact (h.past q hold).keep fun hp => hprep.trans hp
  locked hsome := (h.locked (hlocked hsome)).keep fun hp => hprep.trans hp

theorem SingleSpawn.put (h : SingleSpawn w) (hholds : phase.holds = true → (w.phases p).holds = true)
    (hprep : phase.preparing = (w.phases p).preparing) (hspawn : w.phases p ≠ .spawning)
    (haware : phase.aware = true → w.spawns ≠ []) (hpast : phase.past = true → Started w) :
    SingleSpawn (w.put p phase) :=
  h.move (fun q _ hq => h.owned q hq) id hholds hprep hspawn haware hpast

theorem SingleSpawn.create (h : SingleSpawn w) (hfree : w.lockFile = none) (hdown : w.daemonUp = false)
    (retry : Bool) : SingleSpawn ({ w with
      lockFile := some ⟨p,w.nextInode,none⟩, nextInode := w.nextInode + 1 }.put p
        (.writePid retry w.nextInode)) := by
  have hnone : ∀ q, (w.phases q).holds ≠ true := by
    intro q hq
    obtain ⟨f,hf,-⟩ := h.owned q hq
    rw [hfree] at hf
    cases hf
  have hspawns : w.spawns = [] := by
    by_contra hne
    rcases h.running hne with hup | ⟨q,hq⟩
    · rw [hdown] at hup
      cases hup
    · exact hnone q (by rw [hq]; rfl)
  have hstarted : Started ({ w with
      lockFile := some ⟨p,w.nextInode,none⟩, nextInode := w.nextInode + 1 }.put p
        (.writePid retry w.nextInode)) := .inr ⟨p,by simp [SpawnWorld.put,SpawnPhase.preparing]⟩
  refine ⟨fun q hq => ?_,h.once,fun _ _ => hspawns,fun hne => absurd hspawns hne,h.up,fun q hq => ?_,
    fun _ _ => hstarted,fun _ => hstarted⟩
  · rcases update_cases SpawnPhase.holds hq with ⟨rfl,-⟩ | ⟨-,hold⟩
    · exact ⟨_,rfl,rfl⟩
    · exact absurd hold (hnone q)
  · rcases update_cases SpawnPhase.aware hq with ⟨-,hnew⟩ | ⟨-,hold⟩
    · cases hnew
    · exact h.aware q hold

theorem SingleSpawn.spawn (h : SingleSpawn w) (hp : w.phases p = .holding) :
    SingleSpawn ({ w with spawns := w.spawns ++ [p] }.put p .spawning) := by
  have hspawns : w.spawns = [] := h.fresh p (by rw [hp]; rfl)
  have hholds : (w.phases p).holds = true := by rw [hp]; rfl
  have hne : w.spawns ++ [p] ≠ [] := by simp
  refine ⟨fun q hq => ?_,by simp [SpawnWorld.put,hspawns],fun q hq => ?_,
    fun _ => .inr ⟨p,by simp [SpawnWorld.put]⟩,fun _ => hne,fun _ _ => hne,fun _ _ => .inl hne,fun _ => .inl hne⟩
  · rcases update_cases SpawnPhase.holds hq with ⟨rfl,-⟩ | ⟨-,hold⟩
    · exact h.owned q hholds
    · exact h.owned q hold
  · rcases update_cases SpawnPhase.preparing hq with ⟨-,hnew⟩ | ⟨hqp,hold⟩
    · cases hnew
    · exact absurd (h.holder_unique hholds (holds_of_preparing hold)) hqp

theorem SingleSpawn.complete (h : SingleSpawn w) (hp : w.phases p = .spawning) :
    SingleSpawn ({ w with daemonUp := true }.put p (.release true)) := by
  have hspawned : w.spawns ≠ [] := h.aware p (by rw [hp]; rfl)
  refine ⟨fun q hq => ?_,h.once,fun q hq => ?_,fun _ => .inl rfl,fun _ => hspawned,fun _ _ => hspawned,
    fun _ _ => .inl hspawned,fun _ => .inl hspawned⟩
  · rcases update_cases SpawnPhase.holds hq with ⟨rfl,-⟩ | ⟨-,hold⟩
    · exact h.owned q (by rw [hp]; rfl)
    · exact h.owned q hold
  · rcases update_cases SpawnPhase.preparing hq with ⟨-,hnew⟩ | ⟨-,hold⟩
    · cases hnew
    · exact h.fresh q hold

theorem spawned_of_probe {upAtStart : Bool} (hprobe : w.probeDaemon env upAtStart = true)
    (haware : upAtStart = true → w.spawns ≠ []) : w.spawns ≠ [] := by
  rcases Bool.or_eq_true_iff.mp hprobe with hup | hreach
  · exact haware hup
  · exact of_decide_eq_true (Bool.and_eq_true_iff.mp hreach).2

theorem unlink_isSome (h : (w.unlink env).isSome = true) : w.lockFile.isSome = true := by
  unfold SpawnWorld.unlink at h
  split_ifs at h
  · exact h
  · cases h

theorem SingleSpawn.released (h : SingleSpawn w) {resolved : Bool} (hp : w.phases p = .release resolved)
    (result : SpawnResult) : SingleSpawn ({ w with lockFile := w.unlink env }.put p (.done result)) := by
  have hholds : (w.phases p).holds = true := by rw [hp]; rfl
  have hspawned : w.spawns ≠ [] := h.aware p (by rw [hp]; rfl)
  refine h.move (fun q hq hold => ?_) unlink_isSome (by simp [SpawnPhase.holds]) (by rw [hp]; rfl)
    (by simp [hp]) (by simp [SpawnPhase.aware]) (fun _ => .inl hspawned)
  rcases hq with hne | hnew
  · exact absurd (h.holder_unique hholds hold) hne
  · cases hnew

theorem SingleSpawn.unlinked (h : SingleSpawn w) (hp : w.phases p = .unlinkStale)
    (hok : env.unlinkFails = false → ∀ f ∈ w.lockFile, (w.phases f.creator).holds = false) :
    SingleSpawn ({ w with lockFile := w.unlink env }.put p (.openLock true)) := by
  refine h.move (fun q _ hold => ?_) unlink_isSome (by simp [SpawnPhase.holds]) (by rw [hp]; rfl)
    (by simp [hp]) (by simp [SpawnPhase.aware]) (fun _ => h.past p (by rw [hp]; rfl))
  obtain ⟨f,hf,rfl⟩ := h.owned q hold
  cases hfails : env.unlinkFails with
  | true => exact ⟨f,by rwa [SpawnWorld.unlink,if_pos hfails],rfl⟩
  | false =>
    rw [hok hfails f hf] at hold
    cases hold

theorem SingleSpawn.advance (h : SingleSpawn w) (hok : SpawnOk w (.advance p env))
    (hstep : w.advance p env = some w') : SingleSpawn w' := by
  have hstarted := h.past p
  have haware := h.aware p
  unfold SpawnWorld.advance at hstep
  cases hp : w.phases p with
  | idle | done result =>
    simp only [hp] at hstep
    cases hstep
  | probe =>
    simp only [hp] at hstep
    cases hstep
    exact h.put (by simp [SpawnPhase.holds]) (by rw [hp]; rfl) (by simp [hp]) h.up (by simp [SpawnPhase.past])
  | probing upAtStart =>
    simp only [hp] at hstep haware
    cases hstep
    split_ifs with hprobe
    · exact h.put (by simp [SpawnPhase.holds]) (by rw [hp]; rfl) (by simp [hp]) (by simp [SpawnPhase.aware])
        fun _ => .inl (spawned_of_probe hprobe haware)
    · exact h.put (by simp [SpawnPhase.holds]) (by rw [hp]; rfl) (by simp [hp]) (by simp [SpawnPhase.aware])
        (by simp [SpawnPhase.past])
  | openLock retry =>
    simp only [hp] at hstep
    cases hfile : w.lockFile with
    | none =>
      simp only [hfile] at hstep
      cases hstep
      exact h.create hfile (hok.1 ⟨retry,hp⟩ hfile) retry
    | some f =>
      simp only [hfile] at hstep
      cases hstep
      have hlocked := h.locked (by rw [hfile]; rfl)
      cases retry <;>
        exact h.put (by simp [SpawnPhase.holds]) (by rw [hp]; rfl) (by simp [hp]) (by simp [SpawnPhase.aware])
          fun _ => hlocked
  | writePid retry inode =>
    simp only [hp] at hstep
    cases hstep
    refine h.move (fun q _ hold => ?_) (by simp) (fun _ => by rw [hp]; rfl) (by rw [hp]; rfl) (by simp [hp])
      (by simp [SpawnPhase.aware]) (fun _ => hstarted (by rw [hp]; rfl))
    obtain ⟨f,hf,hcreator⟩ := h.owned q hold
    refine ⟨f.write inode p,Option.mem_map_of_mem _ hf,?_⟩
    unfold LockFile.write
    split_ifs <;> exact hcreator
  | closeLock retry =>
    simp only [hp] at hstep
    cases hstep
    exact h.put (fun _ => by rw [hp]; rfl) (by rw [hp]; rfl) (by simp [hp]) (by simp [SpawnPhase.aware])
      fun _ => hstarted (by rw [hp]; rfl)
  | holding =>
    simp only [hp] at hstep
    cases hstep
    exact h.spawn hp
  | spawning =>
    simp only [hp] at hstep
    cases hstep
    exact h.complete hp
  | release resolved =>
    simp only [hp] at hstep
    cases hstep
    exact h.released hp _
  | readLock =>
    simp only [hp] at hstep
    split at hstep <;> cases hstep <;>
      exact h.put (by simp [SpawnPhase.holds]) (by rw [hp]; rfl) (by simp [hp]) (by simp [SpawnPhase.aware])
        fun _ => hstarted (by rw [hp]; rfl)
  | checkPid pid =>
    simp only [hp] at hstep
    cases hstep
    split_ifs <;>
      exact h.put (by simp [SpawnPhase.holds]) (by rw [hp]; rfl) (by simp [hp]) (by simp [SpawnPhase.aware])
        fun _ => hstarted (by rw [hp]; rfl)
  | unlinkStale =>
    simp only [hp] at hstep
    cases hstep
    exact h.unlinked hp (hok.2 hp)
  | backoff =>
    simp only [hp] at hstep
    cases hstep
    split_ifs
    · exact h.put (by simp [SpawnPhase.holds]) (by rw [hp]; rfl) (by simp [hp]) (by simp [SpawnPhase.aware])
        fun _ => hstarted (by rw [hp]; rfl)
    · exact h.put (by simp [SpawnPhase.holds]) (by rw [hp]; rfl) (by simp [hp]) h.up
        fun _ => hstarted (by rw [hp]; rfl)
  | reprobing upAtStart =>
    simp only [hp] at hstep
    cases hstep
    split_ifs <;>
      exact h.put (by simp [SpawnPhase.holds]) (by rw [hp]; rfl) (by simp [hp]) (by simp [SpawnPhase.aware])
        fun _ => hstarted (by rw [hp]; rfl)

theorem SingleSpawn.step {a : SpawnAction} (h : SingleSpawn w) (hok : SpawnOk w a)
    (hstep : w.step a = some w') : SingleSpawn w' := by
  cases a with
  | call p =>
    simp only [SpawnWorld.step] at hstep
    split_ifs at hstep with hpre
    cases hstep
    exact h.put (by simp [SpawnPhase.holds]) (by rw [hpre.2]; rfl) (by simp [hpre.2]) (by simp [SpawnPhase.aware])
      (by simp [SpawnPhase.past])
  | advance p env => exact h.advance hok hstep
  | ioError p => cases hok
  | reject p => cases hok

theorem SingleSpawn.settled (h : SingleSpawn w) (hquiet : ∀ p, (w.phases p).inFlight = false)
    {result : SpawnResult} (hdone : w.phases p = .done result) : w.spawns.length = 1 := by
  have hspawned : w.spawns ≠ [] := by
    rcases h.past p (by rw [hdone]; rfl) with hspawned | ⟨q,hq⟩
    · exact hspawned
    · have hflight := hquiet q
      cases hphase : w.phases q <;> simp_all [SpawnPhase.preparing,SpawnPhase.inFlight]
  have := List.length_pos_iff.mpr hspawned
  have := h.once
  omega

end SingleSpawn

theorem single_winner {as : List SpawnAction} {w : SpawnWorld}
    (hrun : Run SpawnWorld.step SpawnOk .start as w) :
    w.spawns.length ≤ 1 ∧ ∀ p result, w.phases p = .done result →
      (∀ q, (w.phases q).inFlight = false) → w.spawns.length = 1 := by
  have h : SingleSpawn w :=
    hrun.invariant (fun _ _ _ (ht : SingleSpawn _) hok hstep => ht.step hok hstep) .start
  exact ⟨h.once,fun p result hdone hquiet => h.settled hquiet hdone⟩

def calmEnv : SpawnEnv := ⟨false,false,true,false,false⟩

def advances (p n : ℕ) : List SpawnAction := List.replicate n (.advance p calmEnv)

def winnerAndLoser : List SpawnAction :=
  [.call 1,.call 2] ++ advances 1 5 ++ advances 2 6 ++ advances 1 3 ++ advances 2 3

theorem single_winner_of_two :
    ∃ w, Run SpawnWorld.step SpawnOk .start winnerAndLoser w ∧ w.phases 2 = .done .alreadyRunning ∧
      w.spawns.length ≤ 1 ∧ ∀ p result, w.phases p = .done result →
        (∀ q, (w.phases q).inFlight = false) → w.spawns.length = 1 := by
  have hexec : (exec (guarded SpawnOk SpawnWorld.step) .start winnerAndLoser).any
      (fun w => decide (w.phases 2 = .done .alreadyRunning)) = true := by decide +kernel
  obtain ⟨w,hw,hdone⟩ := (Option.any_eq_true _ _).mp hexec
  have hrun := run_of_guarded hw
  exact ⟨w,hrun,of_decide_eq_true hdone,single_winner hrun⟩

def lateCaller : List SpawnAction :=
  [.call 1,.call 2] ++ advances 1 2 ++ advances 2 2 ++ advances 1 6 ++ advances 2 6

theorem single_winner_late_caller :
    ∃ w, Run SpawnWorld.step (fun _ _ => True) .start lateCaller w ∧ w.spawns = [1,2] ∧
      w.phases 1 = .done .spawned ∧ w.phases 2 = .done .spawned := by
  have hexec : (exec SpawnWorld.step .start lateCaller).any (fun w => decide (w.spawns = [1,2]) &&
      (decide (w.phases 1 = .done .spawned) && decide (w.phases 2 = .done .spawned))) = true := by decide +kernel
  obtain ⟨w,hw,hobs⟩ := (Option.any_eq_true _ _).mp hexec
  simp only [Bool.and_eq_true,decide_eq_true_eq] at hobs
  exact ⟨w,run_of_exec hw,hobs⟩

end WickedBus
