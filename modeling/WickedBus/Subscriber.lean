import WickedBus.Tick
import WickedBus.Tiered

namespace WickedBus

open GuardedRun

inductive StopPromise where
  | unset
  | pending
  | resolved
  deriving DecidableEq, Repr

inductive TimerTask where
  | tick
  | wake
  deriving DecidableEq, Repr

structure Subscriber where
  stopping : Bool
  stopPromise : StopPromise
  timers : List (ℕ × TimerTask)
  pollTimer : Option ℕ
  lagTimer : Bool
  backoffTimer : Option ℕ
  cancelBackoff : Option ℕ
  loopActive : Bool
  fresh : ℕ
  ticks : List TickPoint
  deriving DecidableEq, Repr

def TickPoint.wakeUp (sleep : ℕ) (completed : Bool) : TickPoint → TickPoint
  | .sleeping work k => if k = sleep then .woken work completed else .sleeping work k
  | p => p

def TickPoint.interruptible : TickPoint → Bool
  | .replay _ | .replayCaught _ _ | .drained | .next _ | .handling _ | .caught _ _ | .sleeping _ _
  | .woken _ _ | .finish => true
  | _ => false

def TickPoint.asleep : TickPoint → Bool
  | .sleeping _ _ => true
  | _ => false

def TickPoint.inFlight : TickPoint → Bool
  | .replay _ | .handling _ => true
  | _ => false

namespace Subscriber

def subscribe (cfg : SubscriberConfig) : Subscriber where
  stopping := false
  stopPromise := .unset
  timers := [(0,.tick)]
  pollTimer := some 0
  lagTimer := cfg.hasOnLag
  backoffTimer := none
  cancelBackoff := none
  loopActive := false
  fresh := 1
  ticks := []

def clearTimer (s : Subscriber) (timer : Option ℕ) : Subscriber :=
  { s with timers := s.timers.filter (fun t => !decide (some t.1 = timer)) }

def settleSleep (s : Subscriber) (sleep : ℕ) (completed : Bool) : Subscriber :=
  { s with
    ticks := s.ticks.map (TickPoint.wakeUp sleep completed)
    backoffTimer := none
    cancelBackoff := none }

def finalizeStop (s : Subscriber) : Subscriber :=
  { s.clearTimer s.pollTimer with
    pollTimer := none
    lagTimer := false
    stopPromise := if s.stopPromise = .pending then .resolved else s.stopPromise }

def fire (s : Subscriber) (timer : ℕ) : Option Subscriber :=
  match s.timers.find? (fun t => t.1 = timer) with
  | none => none
  | some (_,.tick) =>
    let s' := s.clearTimer (some timer)
    if s.stopping || s.loopActive then some s'
    else some { s' with loopActive := true, ticks := s.ticks ++ [.drain] }
  | some (_,.wake) => some ((s.clearTimer (some timer)).settleSleep timer true)

def endTick (s : Subscriber) (i : ℕ) : Subscriber :=
  let s' := { s with loopActive := false, ticks := s.ticks.eraseIdx i }
  if !s.stopping then
    { s' with
      timers := s.timers ++ [(s.fresh,.tick)]
      pollTimer := some s.fresh
      fresh := s.fresh + 1 }
  else if s.stopPromise = .pending then s'.finalizeStop
  else s'

def advance (s : Subscriber) (i : ℕ) : Option TickPoint → Subscriber
  | none => s.endTick i
  | some (.sleeping work sleep) =>
    { s with
      ticks := s.ticks.set i (.sleeping work sleep)
      timers := s.timers ++ [(sleep,.wake)]
      backoffTimer := some sleep
      cancelBackoff := some sleep
      fresh := s.fresh + 1 }
  | some p => { s with ticks := s.ticks.set i p }

def cancelSleep (s : Subscriber) : Subscriber :=
  match s.cancelBackoff with
  | none => s
  | some sleep => (s.clearTimer s.backoffTimer).settleSleep sleep false

def stop (s : Subscriber) : Subscriber :=
  if s.stopPromise ≠ .unset then s
  else
    let cancelled := { s with stopping := true, stopPromise := .pending }.cancelSleep
    let cleared := { cancelled.clearTimer cancelled.pollTimer with pollTimer := none, lagTimer := false }
    if cleared.loopActive then cleared else cleared.finalizeStop

end Subscriber

structure Host where
  world : World
  sub : Option Subscriber
  trace : List LoopEvent

inductive HostAction where
  | world (a : Action)
  | fire (timer : ℕ)
  | resume (i : ℕ) (env : TickEnv)
  | stop
  | crash
  | start
  deriving DecidableEq, Repr

def Host.resume (cfg : SubscriberConfig) (t : Host) (s : Subscriber) (i : ℕ) (env : TickEnv) (p : TickPoint) :
    Host :=
  let r := tickStep cfg env s.stopping s.fresh t.world.bus p
  ⟨{ t.world with bus := r.bus },some (s.advance i r.next),t.trace ++ r.events⟩

def Host.step (cfg : SubscriberConfig) (t : Host) : HostAction → Option Host
  | .world a => (t.world.step a).map (fun w => { t with world := w })
  | .fire timer => t.sub.bind (fun s => (s.fire timer).map (fun s' => { t with sub := some s' }))
  | .resume i env =>
    t.sub.bind (fun s =>
      match s.ticks[i]? with
      | none => none
      | some p => if p.asleep then none else some (t.resume cfg s i env p))
  | .stop =>
    t.sub.bind (fun s =>
      if s.ticks.all TickPoint.interruptible then
        some { t with
          sub := some s.stop
          trace := if s.stopPromise = .unset then t.trace ++ [.stopped] else t.trace }
      else none)
  | .crash => some { t with sub := none }
  | .start =>
    if t.sub.isSome then none
    else some { t with sub := some (Subscriber.subscribe cfg), trace := t.trace ++ [.started] }

def Host.idle (w : World) : Host := ⟨w,none,[]⟩

def PointShape (stopping : Bool) : TickPoint → Prop
  | .readAttempts _ _ => stopping = false
  | .attempt work => stopping = true → 0 < work.attempts
  | .upsertAttempt work _ | .sleeping work _ => 0 < work.attempts
  | .woken work completed => 0 < work.attempts ∧ (completed = false → stopping = true)
  | _ => True

inductive PromiseShape (s : Subscriber) : Prop
  | unset (stopping : s.stopping = false) (promise : s.stopPromise = .unset)
  | pending (stopping : s.stopping = true) (promise : s.stopPromise = .pending) (lag : s.lagTimer = false)

inductive Shape (s : Subscriber) : Prop
  | idle (k : ℕ) (ticks : s.ticks = []) (active : s.loopActive = false) (stopping : s.stopping = false)
      (promise : s.stopPromise = .unset) (timers : s.timers = [(k,.tick)]) (poll : s.pollTimer = some k)
      (cancel : s.cancelBackoff = none)
  | stopped (ticks : s.ticks = []) (active : s.loopActive = false) (stopping : s.stopping = true)
      (promise : s.stopPromise = .resolved) (timers : s.timers = []) (lag : s.lagTimer = false)
  | running (p : TickPoint) (ticks : s.ticks = [p]) (active : s.loopActive = true) (awake : p.asleep = false)
      (point : PointShape s.stopping p) (promise : PromiseShape s) (timers : s.timers = [])
      (cancel : s.cancelBackoff = none)
  | asleep (work : Work) (k : ℕ) (ticks : s.ticks = [.sleeping work k]) (active : s.loopActive = true)
      (point : 0 < work.attempts) (promise : PromiseShape s) (timers : s.timers = [(k,.wake)])
      (backoff : s.backoffTimer = some k) (cancel : s.cancelBackoff = some k)

section Shape

variable {cfg : SubscriberConfig} {env : TickEnv} {s s' : Subscriber} {db : Db} {p : TickPoint}

theorem tickStep_shape (stopping : Bool) (k : ℕ) (h : PointShape stopping p) :
    ∀ q ∈ (tickStep cfg env stopping k db p).next, PointShape stopping q := by
  intro q hq
  cases p with
  | next batch =>
    rw [tickStep_batch] at hq
    split at hq
    · cases hq
      trivial
    · split_ifs at hq with hstop <;> cases hq
      · trivial
      · exact Bool.eq_false_iff.mpr hstop
  | readAttempts event rest =>
    simp only [tickStep] at hq
    split at hq <;> cases hq
    · trivial
    · intro hstop
      rw [h] at hstop
      cases hstop
  | caught work err =>
    simp only [tickStep] at hq
    split at hq
    · cases hq
      trivial
    · split_ifs at hq <;> cases hq
      · trivial
      · exact Nat.succ_pos _
  | upsertAttempt work message =>
    simp only [tickStep] at hq
    repeat' split at hq
    · cases hq
      trivial
    · cases hq
      trivial
    · cases hq
      exact h
  | sleeping work sleep =>
    cases hq
    exact h
  | woken work completed =>
    simp only [tickStep] at hq
    split_ifs at hq <;> cases hq
    · exact fun _ => h.1
    · trivial
  | finish => cases hq
  | _ =>
    simp only [tickStep,throwIn] at hq
    repeat' split at hq
    all_goals cases hq; trivial

theorem Shape.subscribe (cfg : SubscriberConfig) : Shape (Subscriber.subscribe cfg) :=
  .idle 0 rfl rfl rfl rfl rfl rfl rfl

theorem Shape.fire (h : Shape s) {timer : ℕ} (hf : s.fire timer = some s') :
    Shape s' ∧ s'.stopping = s.stopping ∧
      (s.ticks = [] ∧ s.stopping = false ∧ s'.ticks = [.drain] ∨
        ∃ work k, s.ticks = [.sleeping work k] ∧ s'.ticks = [.woken work true]) := by
  cases h with
  | idle k ticks active stopping promise timers poll cancel =>
    by_cases hk : k = timer
    · subst hk
      simp only [Subscriber.fire,timers,List.find?_cons,decide_true,stopping,active,Bool.or_self,
        Bool.false_eq_true,if_false,Option.some.injEq] at hf
      subst hf
      exact ⟨.running .drain (by simp [ticks]) rfl rfl trivial (.unset stopping promise)
        (by simp [Subscriber.clearTimer,timers]) cancel,rfl,.inl ⟨ticks,stopping,by simp [ticks]⟩⟩
    · simp [Subscriber.fire,timers,hk] at hf
  | stopped ticks active stopping promise timers lag => simp [Subscriber.fire,timers] at hf
  | running p ticks active awake point promise timers cancel => simp [Subscriber.fire,timers] at hf
  | asleep work k ticks active point promise timers backoff cancel =>
    by_cases hk : k = timer
    · subst hk
      simp only [Subscriber.fire,timers,List.find?_cons,decide_true,Option.some.injEq] at hf
      subst hf
      have hticks : ((s.clearTimer (some k)).settleSleep k true).ticks = [.woken work true] := by
        simp [Subscriber.settleSleep,Subscriber.clearTimer,ticks,TickPoint.wakeUp]
      refine ⟨.running (.woken work true) hticks active rfl ⟨point,nofun⟩ ?_ ?_ rfl,rfl,
        .inr ⟨work,k,ticks,hticks⟩⟩
      · cases promise with
        | unset stopping promise => exact .unset stopping promise
        | pending stopping promise lag => exact .pending stopping promise lag
      · simp [Subscriber.settleSleep,Subscriber.clearTimer,timers]
    · simp [Subscriber.fire,timers,hk] at hf

theorem Shape.endTick (ticks : s.ticks = [p]) (promise : PromiseShape s) (timers : s.timers = [])
    (cancel : s.cancelBackoff = none) : Shape (s.endTick 0) := by
  cases promise with
  | unset stopping promise =>
    simp only [Subscriber.endTick,stopping,Bool.not_false,if_true]
    exact .idle s.fresh (by simp [ticks]) rfl rfl promise (by simp [timers]) rfl cancel
  | pending stopping promise lag =>
    simp only [Subscriber.endTick,stopping,Bool.not_true,Bool.false_eq_true,if_false,promise,if_true]
    exact .stopped (by simp [Subscriber.finalizeStop,Subscriber.clearTimer,ticks]) rfl rfl
      (by simp [Subscriber.finalizeStop]) (by simp [Subscriber.finalizeStop,Subscriber.clearTimer,timers]) rfl

theorem Shape.advance {next : Option TickPoint} (ticks : s.ticks = [p]) (active : s.loopActive = true)
    (promise : PromiseShape s) (timers : s.timers = []) (cancel : s.cancelBackoff = none)
    (point : ∀ q ∈ next, PointShape s.stopping q) : Shape (s.advance 0 next) := by
  cases next with
  | none => exact Shape.endTick ticks promise timers cancel
  | some q =>
    have hpromise : ∀ s', s'.stopping = s.stopping → s'.stopPromise = s.stopPromise →
        s'.lagTimer = s.lagTimer → PromiseShape s' := by
      intro s' hstopping hstop hlag
      cases promise with
      | unset stopping promise => exact .unset (hstopping.trans stopping) (hstop.trans promise)
      | pending stopping promise lag =>
        exact .pending (hstopping.trans stopping) (hstop.trans promise) (hlag.trans lag)
    by_cases hsleep : ∃ work k, q = .sleeping work k
    · obtain ⟨work,k,rfl⟩ := hsleep
      exact .asleep work k (by simp [Subscriber.advance,ticks]) active (point _ rfl)
        (hpromise _ rfl rfl rfl) (by simp [Subscriber.advance,timers]) rfl rfl
    · have hadvance : s.advance 0 (some q) = { s with ticks := s.ticks.set 0 q } := by
        cases q <;> first | rfl | exact absurd ⟨_,_,rfl⟩ hsleep
      have hawake : q.asleep = false := by
        cases q <;> first | rfl | exact absurd ⟨_,_,rfl⟩ hsleep
      rw [hadvance]
      exact .running q (by simp [ticks]) active hawake (point q rfl) (hpromise _ rfl rfl rfl) timers cancel

theorem Shape.stop (h : Shape s) (hquiet : s.ticks.all TickPoint.interruptible = true) : Shape s.stop := by
  cases h with
  | idle k ticks active stopping promise timers poll cancel =>
    simp only [Subscriber.stop,promise,Subscriber.cancelSleep,cancel,Subscriber.clearTimer,active,ne_eq,
      not_true_eq_false,if_false,Bool.false_eq_true]
    exact .stopped ticks rfl rfl rfl (by simp [Subscriber.finalizeStop,Subscriber.clearTimer,timers,poll]) rfl
  | stopped ticks active stopping promise timers lag =>
    simp only [Subscriber.stop,promise,ne_eq,reduceCtorEq,not_false_eq_true,if_true]
    exact .stopped ticks active stopping promise timers lag
  | running p ticks active awake point promise timers cancel =>
    cases promise with
    | unset stopping promise =>
      simp only [Subscriber.stop,promise,Subscriber.cancelSleep,cancel,Subscriber.clearTimer,active,ne_eq,
        not_true_eq_false,if_false,if_true]
      refine .running p ticks rfl awake ?_ (.pending rfl rfl rfl) (by simp [timers]) rfl
      rw [ticks] at hquiet
      cases p with
      | woken work completed => exact ⟨point.1,fun _ => rfl⟩
      | readAttempts event rest => cases hquiet
      | attempt work => cases hquiet
      | upsertAttempt work message => cases hquiet
      | sleeping work k => exact point
      | _ => trivial
    | pending stopping promise lag =>
      simp only [Subscriber.stop,promise,ne_eq,reduceCtorEq,not_false_eq_true,if_true]
      exact .running p ticks active awake point (.pending stopping promise lag) timers cancel
  | asleep work k ticks active point promise timers backoff cancel =>
    cases promise with
    | unset stopping promise =>
      simp only [Subscriber.stop,promise,Subscriber.cancelSleep,cancel,Subscriber.clearTimer,
        Subscriber.settleSleep,active,ne_eq,not_true_eq_false,if_false,if_true]
      exact .running (.woken work false) (by simp [ticks,TickPoint.wakeUp]) rfl rfl ⟨point,fun _ => rfl⟩
        (.pending rfl rfl rfl) (by simp [timers,backoff]) rfl
    | pending stopping promise lag =>
      simp only [Subscriber.stop,promise,ne_eq,reduceCtorEq,not_false_eq_true,if_true]
      exact .asleep work k ticks active point (.pending stopping promise lag) timers backoff cancel

end Shape

end WickedBus
