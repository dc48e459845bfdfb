import WickedBus.Subscriber

namespace WickedBus

open GuardedRun

structure Lane where
  world : World
  alive : Bool
  point : Option TickPoint
  stopping : Bool
  trace : List LoopEvent

def TickPoint.interrupted : TickPoint → TickPoint
  | .sleeping work _ => .woken work false
  | p => p

def Lane.ticked (cfg : SubscriberConfig) (env : TickEnv) (sleep : ℕ) (l : Lane) (p : TickPoint) : Lane :=
  let r := tickStep cfg env l.stopping sleep l.world.bus p
  ⟨{ l.world with bus := r.bus },l.alive,r.next,l.stopping,l.trace ++ r.events⟩

inductive LaneStep (cfg : SubscriberConfig) : Lane → HostAction → Lane → Prop
  | world {l : Lane} {a : Action} {w : World} (step : l.world.step a = some w) :
      LaneStep cfg l (.world a) { l with world := w }
  | begun {l : Lane} {timer : ℕ} (alive : l.alive = true) (idle : l.point = none) (running : l.stopping = false) :
      LaneStep cfg l (.fire timer) { l with point := some .drain }
  | woken {l : Lane} {timer : ℕ} (work : Work) (k : ℕ) (asleep : l.point = some (.sleeping work k)) :
      LaneStep cfg l (.fire timer) { l with point := some (.woken work true) }
  | ticked {l : Lane} {p : TickPoint} {i : ℕ} {env : TickEnv} (sleep : ℕ) (point : l.point = some p)
      (awake : p.asleep = false) (shape : PointShape l.stopping p) :
      LaneStep cfg l (.resume i env) (l.ticked cfg env sleep p)
  | stopped {l : Lane} (alive : l.alive = true) (running : l.stopping = false)
      (quiet : ∀ p ∈ l.point, p.interruptible = true) :
      LaneStep cfg l .stop
        { l with point := l.point.map TickPoint.interrupted, stopping := true, trace := l.trace ++ [.stopped] }
  | again {l : Lane} (stopping : l.stopping = true) : LaneStep cfg l .stop l
  | crashed {l : Lane} : LaneStep cfg l .crash { l with alive := false, point := none, stopping := false }
  | started {l : Lane} (dead : l.alive = false) (idle : l.point = none) (running : l.stopping = false) :
      LaneStep cfg l .start { l with alive := true, trace := l.trace ++ [.started] }

def Host.lane (t : Host) : Lane where
  world := t.world
  alive := t.sub.isSome
  point := t.sub.bind (fun s => s.ticks.head?)
  stopping := t.sub.any Subscriber.stopping
  trace := t.trace

def Host.Shaped (t : Host) : Prop := ∀ s ∈ t.sub, Shape s

section Lane

variable {cfg : SubscriberConfig} {s s' : Subscriber} {t t' : Host} {p : TickPoint} {i : ℕ}

theorem Shape.running_of (h : Shape s) (hi : s.ticks[i]? = some p) (hawake : p.asleep = false) :
    i = 0 ∧ s.ticks = [p] ∧ s.loopActive = true ∧ PointShape s.stopping p ∧ PromiseShape s ∧
      s.timers = [] ∧ s.cancelBackoff = none := by
  cases h with
  | idle k ticks active stopping promise timers poll cancel => simp [ticks] at hi
  | stopped ticks active stopping promise timers lag => simp [ticks] at hi
  | running q ticks active awake point promise timers cancel =>
    rw [ticks,List.getElem?_singleton] at hi
    split_ifs at hi with hzero
    cases hi
    exact ⟨hzero,ticks,active,point,promise,timers,cancel⟩
  | asleep work k ticks active point promise timers backoff cancel =>
    rw [ticks,List.getElem?_singleton] at hi
    split_ifs at hi
    cases hi
    cases hawake

theorem Subscriber.advance_view {next : Option TickPoint} (ticks : s.ticks = [p]) :
    (s.advance 0 next).ticks = next.toList ∧ (s.advance 0 next).stopping = s.stopping := by
  cases next with
  | none =>
    simp only [Subscriber.advance,Subscriber.endTick,ticks,List.eraseIdx_cons_zero]
    split_ifs <;> exact ⟨rfl,rfl⟩
  | some q => cases q <;> simp [Subscriber.advance,ticks]

theorem Subscriber.stop_view (h : Shape s) (hstop : s.stopPromise = .unset) :
    s.stop.stopping = true ∧ s.stop.ticks = s.ticks.map TickPoint.interrupted := by
  have hactive : ∀ c : Subscriber, (if c.loopActive then c else c.finalizeStop).stopping = c.stopping ∧
      (if c.loopActive then c else c.finalizeStop).ticks = c.ticks := by
    intro c
    split_ifs <;> exact ⟨rfl,rfl⟩
  rw [Subscriber.stop,if_neg (by simp [hstop])]
  rw [(hactive _).1,(hactive _).2]
  cases h with
  | idle k ticks active stopping promise timers poll cancel =>
    simp [Subscriber.cancelSleep,Subscriber.clearTimer,cancel,ticks]
  | stopped ticks active stopping promise timers lag => simp [promise] at hstop
  | running q ticks active awake point promise timers cancel =>
    have hq : q.interrupted = q := by cases q <;> first | rfl | cases awake
    simp [Subscriber.cancelSleep,Subscriber.clearTimer,cancel,ticks,hq]
  | asleep work k ticks active point promise timers backoff cancel =>
    simp [Subscriber.cancelSleep,Subscriber.clearTimer,Subscriber.settleSleep,cancel,ticks,
      TickPoint.wakeUp,TickPoint.interrupted]

theorem Host.shaped_idle (w : World) : (Host.idle w).Shaped := nofun

theorem Host.lane_of {w : World} {trace : List LoopEvent} (s : Subscriber) :
    Host.lane ⟨w,some s,trace⟩ = ⟨w,true,s.ticks.head?,s.stopping,trace⟩ := rfl

theorem Shape.point (h : Shape s) : s.ticks = s.ticks.head?.toList := by
  cases h with
  | idle k ticks => rw [ticks]; rfl
  | stopped ticks => rw [ticks]; rfl
  | running p ticks => rw [ticks]; rfl
  | asleep work k ticks => rw [ticks]; rfl

theorem Shape.stopping (h : Shape s) : s.stopping = false ↔ s.stopPromise = .unset := by
  have hpromise : PromiseShape s → (s.stopping = false ↔ s.stopPromise = .unset) := by
    rintro (⟨stopping,promise⟩ | ⟨stopping,promise,-⟩) <;> simp [stopping,promise]
  cases h with
  | idle k ticks active stopping promise => simp [stopping,promise]
  | stopped ticks active stopping promise => simp [stopping,promise]
  | running p ticks active awake point promise => exact hpromise promise
  | asleep work k ticks active point promise => exact hpromise promise

theorem Host.step_fire (h : t.Shaped) {timer : ℕ} (hstep : t.step cfg (.fire timer) = some t') :
    t'.Shaped ∧ LaneStep cfg t.lane (.fire timer) t'.lane := by
  obtain ⟨s,hs,hfire⟩ := Option.bind_eq_some_iff.mp hstep
  obtain ⟨s',hs',rfl⟩ := Option.map_eq_some_iff.mp hfire
  obtain ⟨hshape,hstopping,hticks⟩ := (h s hs).fire hs'
  refine ⟨fun _ hr => Option.some.inj hr ▸ hshape,?_⟩
  obtain ⟨w,sub,trace⟩ := t
  cases hs
  rw [Host.lane_of,Host.lane_of,hstopping]
  rcases hticks with ⟨hidle,hrunning,hdrain⟩ | ⟨work,k,hasleep,hwoken⟩
  · rw [hdrain]
    exact .begun rfl (by rw [hidle]; rfl) hrunning
  · rw [hwoken]
    exact .woken work k (by rw [hasleep]; rfl)

theorem Host.step_resume (h : t.Shaped) {env : TickEnv} (hstep : t.step cfg (.resume i env) = some t') :
    t'.Shaped ∧ LaneStep cfg t.lane (.resume i env) t'.lane := by
  obtain ⟨s,hs,hresume⟩ := Option.bind_eq_some_iff.mp hstep
  obtain ⟨w,sub,trace⟩ := t
  cases hs
  split at hresume
  · cases hresume
  · rename_i p hp
    split_ifs at hresume with hasleep
    cases hresume
    have hawake := Bool.eq_false_iff.mpr hasleep
    obtain ⟨rfl,ticks,active,point,promise,timers,cancel⟩ := (h s rfl).running_of hp hawake
    have hnext := @tickStep_shape cfg env w.bus p s.stopping s.fresh point
    have hview := @Subscriber.advance_view s p (tickStep cfg env s.stopping s.fresh w.bus p).next ticks
    refine ⟨fun _ hr => Option.some.inj hr ▸ Shape.advance ticks active promise timers cancel hnext,?_⟩
    rw [Host.resume,Host.lane_of,Host.lane_of,hview.1,hview.2,Option.head?_toList,ticks]
    exact .ticked s.fresh rfl hawake point

theorem Host.step_stop (h : t.Shaped) (hstep : t.step cfg .stop = some t') :
    t'.Shaped ∧ LaneStep cfg t.lane .stop t'.lane := by
  obtain ⟨s,hs,hstop⟩ := Option.bind_eq_some_iff.mp hstep
  obtain ⟨w,sub,trace⟩ := t
  cases hs
  split_ifs at hstop with hquiet hunset
  · cases hstop
    obtain ⟨hstopping,hticks⟩ := Subscriber.stop_view (h s rfl) hunset
    refine ⟨fun _ hr => Option.some.inj hr ▸ (h s rfl).stop hquiet,?_⟩
    rw [Host.lane_of,Host.lane_of,hstopping,hticks,List.head?_map]
    exact .stopped rfl ((h s rfl).stopping.mpr hunset)
      fun p hp => List.all_eq_true.mp hquiet p (List.mem_of_head? hp)
  · cases hstop
    refine ⟨fun _ hr => Option.some.inj hr ▸ (h s rfl).stop hquiet,?_⟩
    rw [Host.lane_of,Host.lane_of,Subscriber.stop,if_pos hunset]
    exact .again (Bool.of_not_eq_false fun hrunning => hunset ((h s rfl).stopping.mp hrunning))

theorem Host.step_lane (h : t.Shaped) {a : HostAction} (hstep : t.step cfg a = some t') :
    t'.Shaped ∧ LaneStep cfg t.lane a t'.lane := by
  cases a with
  | world a =>
    obtain ⟨w,hw,rfl⟩ := Option.map_eq_some_iff.mp hstep
    exact ⟨h,.world hw⟩
  | fire timer => exact Host.step_fire h hstep
  | resume i env => exact Host.step_resume h hstep
  | stop => exact Host.step_stop h hstep
  | crash =>
    cases hstep
    exact ⟨nofun,.crashed⟩
  | start =>
    obtain ⟨w,sub,trace⟩ := t
    cases sub with
    | some s => cases hstep
    | none =>
      cases hstep
      exact ⟨fun _ hr => Option.some.inj hr ▸ Shape.subscribe cfg,.started rfl rfl rfl⟩

theorem Host.run_shaped {ok : Host → HostAction → Prop} {as : List HostAction} {u : Host} (hshaped : u.Shaped)
    (hrun : Run (Host.step cfg) ok u as t) : t.Shaped :=
  hrun.invariant (fun _ _ _ h _ hs => (Host.step_lane h hs).1) hshaped

theorem Host.run_lane {I : Lane → Prop} {ok : Lane → HostAction → Prop}
    (hkept : ∀ l a l', I l → ok l a → LaneStep cfg l a l' → I l') {as : List HostAction} {u : Host}
    (hrun : Run (Host.step cfg) (fun t a => ok t.lane a) u as t) (hshaped : u.Shaped) (hstart : I u.lane) :
    I t.lane := by
  have hboth : t.Shaped ∧ I t.lane := by
    refine hrun.invariant (I := fun t => t.Shaped ∧ I t.lane) ?_ ⟨hshaped,hstart⟩
    intro u a u' hu hok hs
    obtain ⟨hshaped,hlane⟩ := Host.step_lane hu.1 hs
    exact ⟨hshaped,hkept _ _ _ hu.2 hok hlane⟩
  exact hboth.2

end Lane

end WickedBus
