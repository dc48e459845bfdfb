import WickedBus.Lane
import WickedBus.Retry

namespace WickedBus

open GuardedRun

def SamePoint : TickPoint → TickPoint → Prop
  | .sleeping work _, .sleeping work' _ => work = work'
  | p, q => p = q

structure Follows (prior : List LoopEvent) (t : Host) (d : Drive) : Prop where
  shaped : t.Shaped
  bus : t.world.bus = d.bus
  trace : t.trace = prior ++ d.events
  ticking : d.point ≠ .finish → ∃ s p, t.sub = some s ∧ s.stopping = false ∧ s.ticks = [p] ∧ SamePoint p d.point

section Follows

variable {cfg : SubscriberConfig} {env : TickEnv} {outcomes : ℕ → Outcome} {now : ℕ → ℤ} {db : Db}
variable {p q : TickPoint} {prior : List LoopEvent} {t : Host} {d d' : Drive}

theorem samePoint_awake (h : SamePoint p q) (hq : q.asleep = false) : p = q := by
  cases q with
  | sleeping work k => cases hq
  | _ => cases p <;> exact h

theorem SamePoint.refl (p : TickPoint) : SamePoint p p := by
  cases p <;> rfl

theorem tickStep_sleep (k : ℕ) :
    (tickStep cfg env false k db p).bus = (tickStep cfg env false 0 db p).bus ∧
      (tickStep cfg env false k db p).events = (tickStep cfg env false 0 db p).events ∧
      ((tickStep cfg env false k db p).next = (tickStep cfg env false 0 db p).next ∨
        ∃ work, (tickStep cfg env false k db p).next = some (.sleeping work k) ∧
          (tickStep cfg env false 0 db p).next = some (.sleeping work 0)) := by
  cases p with
  | upsertAttempt work message =>
    simp only [tickStep]
    repeat' split
    · exact ⟨rfl,rfl,.inl rfl⟩
    · exact ⟨rfl,rfl,.inl rfl⟩
    · exact ⟨rfl,rfl,.inr ⟨work,rfl,rfl⟩⟩
  | next batch => cases batch <;> exact ⟨rfl,rfl,.inl rfl⟩
  | _ => exact ⟨rfl,rfl,.inl rfl⟩

theorem tickStep_next (hp : p ≠ .finish) : (tickStep cfg env false 0 db p).next ≠ none := by
  cases p with
  | finish => exact absurd rfl hp
  | _ =>
    simp only [↓tickStep_batch,tickStep,throwIn]
    repeat' split
    all_goals simp [goto]

theorem driveStep_cases (cfg : SubscriberConfig) (outcomes : ℕ → Outcome) (now : ℕ → ℤ) (d : Drive) :
    driveStep cfg outcomes now d = d ∨
      (∃ work k, d.point = .sleeping work k ∧ driveStep cfg outcomes now d = { d with point := .woken work true }) ∨
      ∃ r settled, r = tickStep cfg ⟨none,outcomes d.settled,now d.clock⟩ false 0 d.bus d.point ∧
        d.point.asleep = false ∧
        driveStep cfg outcomes now d = ⟨r.next.getD .finish,r.bus,settled,d.clock + 1,d.events ++ r.events⟩ := by
  obtain ⟨point,bus,settled,clock,events⟩ := d
  cases point with
  | next batch => exact .inl rfl
  | catching err => exact .inl rfl
  | sleeping work k => exact .inr (.inl ⟨work,k,rfl,rfl⟩)
  | handling work => exact .inr (.inr ⟨_,settled + 1,rfl,rfl,rfl⟩)
  | _ => exact .inr (.inr ⟨_,settled,rfl,rfl,rfl⟩)

theorem Follows.resume (h : Follows prior t d) (hfinish : d.point ≠ .finish) (hawake : d.point.asleep = false)
    {r : TickResult} (hr : r = tickStep cfg env false 0 d.bus d.point) (settled clock : ℕ) :
    ∃ t', t.step cfg (.resume 0 env) = some t' ∧
      Follows prior t' ⟨r.next.getD .finish,r.bus,settled,clock,d.events ++ r.events⟩ := by
  obtain ⟨w,sub,trace⟩ := t
  obtain ⟨s,p,hs,hrunning,hticks,hsame⟩ := h.ticking hfinish
  obtain rfl := samePoint_awake hsame hawake
  have hdb : d.bus = w.bus := h.bus.symm
  cases hs
  have hstep : Host.step cfg ⟨w,some s,trace⟩ (.resume 0 env) =
      some (Host.resume cfg ⟨w,some s,trace⟩ s 0 env d.point) := by
    simp [Host.step,hticks,hawake]
  obtain ⟨hbus,hevents,hnext⟩ := @tickStep_sleep cfg env w.bus d.point s.fresh
  have hsome := @tickStep_next cfg env w.bus d.point hfinish
  have hview := @Subscriber.advance_view s d.point (tickStep cfg env false s.fresh w.bus d.point).next hticks
  rw [hdb] at hr
  subst hr
  refine ⟨_,hstep,(Host.step_lane h.shaped hstep).1,?_,?_,fun _ => ?_⟩
  · simpa only [Host.resume,hrunning] using hbus
  · have htrace : trace = prior ++ d.events := h.trace
    simp only [Host.resume,hrunning,hevents,htrace,List.append_assoc]
  · obtain ⟨q,hq⟩ := Option.ne_none_iff_exists'.mp hsome
    rw [hq,Option.getD_some]
    rcases hnext with heq | ⟨work,hfresh,hzero⟩
    · refine ⟨_,q,rfl,?_,?_,SamePoint.refl q⟩
      · rw [hrunning,hview.2,hrunning]
      · rw [hrunning,hview.1,heq,hq]
        rfl
    · rw [hzero] at hq
      cases hq
      refine ⟨_,.sleeping work s.fresh,rfl,?_,?_,rfl⟩
      · rw [hrunning,hview.2,hrunning]
      · rw [hrunning,hview.1,hfresh]
        rfl

theorem Follows.wake (h : Follows prior t d) {work : Work} {k : ℕ} (hpoint : d.point = .sleeping work k) :
    ∃ timer t', t.step cfg (.fire timer) = some t' ∧ Follows prior t' { d with point := .woken work true } := by
  obtain ⟨w,sub,trace⟩ := t
  obtain ⟨s,p,hs,hrunning,hticks,hsame⟩ := h.ticking (by simp [hpoint])
  cases hs
  rw [hpoint] at hsame
  cases h.shaped s rfl with
  | asleep work' j ticks active point promise timers backoff cancel =>
    rw [ticks,List.cons.injEq] at hticks
    obtain ⟨rfl,-⟩ := hticks
    obtain rfl : work' = work := hsame
    have hfire : s.fire j = some ((s.clearTimer (some j)).settleSleep j true) := by
      simp [Subscriber.fire,timers]
    have hstep : Host.step cfg ⟨w,some s,trace⟩ (.fire j) =
        some ⟨w,some ((s.clearTimer (some j)).settleSleep j true),trace⟩ := by
      simp [Host.step,hfire]
    refine ⟨j,_,hstep,(Host.step_lane h.shaped hstep).1,h.bus,h.trace,fun _ => ?_⟩
    refine ⟨_,.woken work' true,rfl,hrunning,?_,rfl⟩
    simp [Subscriber.settleSleep,Subscriber.clearTimer,ticks,TickPoint.wakeUp]
  | idle j ticks => simp [ticks] at hticks
  | stopped ticks => simp [ticks] at hticks
  | running q ticks active awake =>
    rw [ticks,List.cons.injEq] at hticks
    obtain ⟨rfl,-⟩ := hticks
    cases q with
    | sleeping work' j => cases awake
    | _ => cases hsame

theorem Follows.step (h : Follows prior t d) :
    ∃ as t', Run (Host.step cfg) (fun _ _ => True) t as t' ∧ Follows prior t' (driveStep cfg outcomes now d) := by
  rcases driveStep_cases cfg outcomes now d with heq | ⟨work,k,hpoint,heq⟩ | ⟨r,settled,hr,hawake,heq⟩
  · exact ⟨[],t,.nil,by rwa [heq]⟩
  · obtain ⟨timer,t',hstep,hnext⟩ := @Follows.wake cfg prior t d h work k hpoint
    exact ⟨[] ++ [.fire timer],t',.snoc .nil trivial hstep,heq ▸ hnext⟩
  · by_cases hfinish : d.point = .finish
    · rw [hfinish] at hr
      subst hr
      refine ⟨[],t,.nil,heq ▸ ⟨h.shaped,h.bus,?_,fun hne => absurd rfl hne⟩⟩
      simpa [tickStep] using h.trace
    · obtain ⟨t',hstep,hnext⟩ := h.resume hfinish hawake hr settled (d.clock + 1)
      exact ⟨[] ++ [.resume 0 ⟨none,outcomes d.settled,now d.clock⟩],t',.snoc .nil trivial hstep,heq ▸ hnext⟩

theorem Follows.run (h : Follows prior t d) (hreach : Reaches cfg outcomes now d d') :
    ∃ as t', Run (Host.step cfg) (fun _ _ => True) t as t' ∧ Follows prior t' d' := by
  obtain ⟨n,rfl⟩ := hreach
  induction n generalizing t d with
  | zero => exact ⟨[],t,.nil,h⟩
  | succ n ih =>
    obtain ⟨as,u,hrun,hu⟩ := @Follows.step cfg outcomes now prior t d h
    obtain ⟨bs,t',hrun',ht'⟩ := ih hu
    exact ⟨as ++ bs,t',hrun.append hrun',ht'⟩

end Follows

theorem host_settles_event {cfg : SubscriberConfig} {outcomes : ℕ → Outcome} {now : ℕ → ℤ} {event : EventRow}
    {rest : List EventRow} {attempts budget : ℕ} {t : Host} {s : Subscriber} (hshaped : t.Shaped)
    (hs : t.sub = some s) (hrunning : s.stopping = false) (hticks : s.ticks = [.readAttempts event rest])
    (hdb : WorkingDb cfg t.world.bus) (hattempts : attempts = getAttempts t.world.bus cfg.cursorId event.eventId)
    (hbudget : budget = max 1 (cfg.maxRetries + 1 - attempts))
    (herr : ∀ i < budget, (∀ j < i, outcomes j ≠ .resolved) → ∀ err, outcomes i = .rejected err →
      Persistable cfg err) :
    ∃ as t' d, Run (Host.step cfg) (fun _ _ => True) t as t' ∧ t'.lane.point = some (.next rest) ∧
      t'.world.bus = d.bus ∧ t'.trace = t.trace ++ d.events ∧ Advanced cfg ⟨event,attempts,rest⟩ d ∧
      Settled cfg outcomes budget ⟨event,attempts,rest⟩ (processEvent event rest t.world.bus) d := by
  have hstart : Follows t.trace t (processEvent event rest t.world.bus) :=
    ⟨hshaped,rfl,(List.append_nil _).symm,fun _ => ⟨s,_,hs,hrunning,hticks,SamePoint.refl _⟩⟩
  obtain ⟨d,hreach,hadv,hsettled⟩ :=
    @processEvent_settled cfg outcomes now event rest _ attempts budget hdb hattempts hbudget herr
  obtain ⟨as,t',hrun,hfollows⟩ := hstart.run hreach
  obtain ⟨s',p,hs',-,hticks',hsame⟩ := hfollows.ticking (by simp [hadv.point])
  have hp : p = .next rest := samePoint_awake (hadv.point ▸ hsame) rfl
  refine ⟨as,t',d,hrun,?_,hfollows.bus,hfollows.trace,hadv,hsettled⟩
  rw [Host.lane,hs',Option.bind_some,hticks',hp]
  rfl

end WickedBus
