import WickedBus.Foundation.Trace
import WickedBus.Lane
import WickedBus.Retry

namespace WickedBus

open GuardedRun Trace

def LoopEvent.beginsWork : LoopEvent → Bool
  | .invoked _ | .replayed _ | .armed _ _ => true
  | _ => false

def StoppedSince (before : List LoopEvent) : Prop := Since .stopped .started before

def QuietAfterStop (trace : List LoopEvent) : Prop :=
  Each (fun before e => e.beginsWork = true → ¬ StoppedSince before) trace

structure StopFinal (t : Host) : Prop where
  quiet : QuietAfterStop t.trace
  released : ∀ s, t.sub = some s → s.stopPromise = .resolved →
    s.timers = [] ∧ s.lagTimer = false ∧ ∀ p ∈ s.ticks, p.inFlight = false

def Recordable (cfg : SubscriberConfig) (env : TickEnv) (db : Db) (message : JsValue) : Prop :=
  env.failure = none ∧ (cfg.bind message.orNull).isSome = true ∧ (db.cursors.get? cfg.cursorId).isSome = true

def StopOk (cfg : SubscriberConfig) (l : Lane) : HostAction → Prop
  | .resume _ env => l.stopping = true → ∀ work message, l.point = some (.upsertAttempt work message) →
      ¬ Recordable cfg env l.world.bus message
  | _ => True

section Stopping

variable {cfg : SubscriberConfig} {env : TickEnv} {stopping : Bool} {sleep : ℕ} {db : Db} {p : TickPoint}

theorem tickStep_unmarked : .stopped ∉ (tickStep cfg env stopping sleep db p).events ∧
    .started ∉ (tickStep cfg env stopping sleep db p).events := by
  cases p with
  | _ =>
    simp only [↓tickStep_batch,tickStep,throwIn]
    repeat' split
    all_goals simp [goto]

theorem upsertAttempt_events {work : Work} {message : JsValue} :
    (tickStep cfg env stopping sleep db (.upsertAttempt work message)).events = [] ∧
        ¬ Recordable cfg env db message ∨
      (tickStep cfg env stopping sleep db (.upsertAttempt work message)).events =
        [.recorded work.event.eventId work.attempts,
          .armed work.event.eventId (sleepMs (normalizeBackoff cfg.backoffMs cfg.maxRetries) work.attempts)] ∧
        Recordable cfg env db message := by
  unfold Recordable
  cases hbind : cfg.bind message.orNull with
  | none => simp [tickStep,hbind,goto]
  | some text =>
    cases hfail : env.failure with
    | some e => simp [tickStep,hbind,TickEnv.statement,hfail,goto]
    | none =>
      cases hrow : db.cursors.get? cfg.cursorId with
      | none => simp [tickStep,hbind,TickEnv.statement,hfail,goto,upsertDeliveryAttempt,hrow,foreignKey]
      | some c => simp [tickStep,hbind,TickEnv.statement,hfail,upsertDeliveryAttempt,hrow,foreignKey]

theorem tickStep_quiet (h : PointShape true p)
    (hrecord : ∀ work message, p = .upsertAttempt work message → ¬ Recordable cfg env db message) :
    ∀ e ∈ (tickStep cfg env true sleep db p).events, e.beginsWork = false := by
  cases p with
  | upsertAttempt work message =>
    rcases @upsertAttempt_events cfg env true sleep db work message with ⟨hnone,-⟩ | ⟨-,hrec⟩
    · simp [hnone]
    · exact absurd hrec (hrecord work message rfl)
  | attempt work =>
    have hpos : 0 < work.attempts := h rfl
    simp [tickStep,goto,hpos]
  | drain => simp [tickStep,goto]
  | _ =>
    simp only [↓tickStep_batch,tickStep,throwIn]
    repeat' split
    all_goals simp [goto,LoopEvent.beginsWork]

end Stopping

structure Hushed (l : Lane) : Prop where
  quiet : QuietAfterStop l.trace
  stopped : l.stopping = true → StoppedSince l.trace
  running : l.alive = true → l.stopping = false → ¬ StoppedSince l.trace
  dead : l.alive = false → l.point = none ∧ l.stopping = false

section Hushed

variable {cfg : SubscriberConfig} {l l' : Lane}

theorem stoppedSince_append {trace es : List LoopEvent} (h : .stopped ∉ es ∧ .started ∉ es) :
    StoppedSince (trace ++ es) ↔ StoppedSince trace := since_append h.1 h.2

theorem Hushed.start (w : World) : Hushed ⟨w,false,none,false,[]⟩ :=
  ⟨Each.nil,nofun,nofun,fun _ => ⟨rfl,rfl⟩⟩

theorem Hushed.step (h : Hushed l) {a : HostAction} (hok : StopOk cfg l a) (hstep : LaneStep cfg l a l') :
    Hushed l' := by
  cases hstep with
  | world hw => exact ⟨h.quiet,h.stopped,h.running,h.dead⟩
  | begun halive idle running =>
    exact ⟨h.quiet,h.stopped,h.running,fun hdead => absurd (halive.symm.trans hdead) (by simp)⟩
  | woken work k asleep =>
    exact ⟨h.quiet,h.stopped,h.running,fun hdead => absurd (asleep.symm.trans (h.dead hdead).1) (by simp)⟩
  | @ticked p i env sleep point awake shape =>
    have hmarks := @tickStep_unmarked cfg env l.stopping sleep l.world.bus p
    have halive : l.alive = true :=
      Bool.of_not_eq_false fun hdead => absurd (point.symm.trans (h.dead hdead).1) (by simp)
    refine ⟨h.quiet.append fun pre e post heq hwork => ?_,fun hstop => ?_,fun hlive hrun => ?_,
      fun hdead => absurd (halive.symm.trans hdead) (by simp)⟩
    · have hpre : .stopped ∉ pre ∧ .started ∉ pre :=
        ⟨fun hm => hmarks.1 (heq ▸ List.mem_append_left _ hm),
          fun hm => hmarks.2 (heq ▸ List.mem_append_left _ hm)⟩
      have hmem : e ∈ (tickStep cfg env l.stopping sleep l.world.bus p).events := by rw [heq]; simp
      rw [stoppedSince_append hpre]
      cases hs : l.stopping with
      | false => exact h.running halive hs
      | true =>
        rw [hs] at hmem shape
        have hidle := tickStep_quiet shape
          (fun work message hp => hok hs work message (point.trans (congrArg some hp))) e hmem
        rw [hidle] at hwork
        cases hwork
    · exact (stoppedSince_append hmarks).mpr (h.stopped hstop)
    · exact mt (stoppedSince_append hmarks).mp (h.running halive hrun)
  | stopped halive running quiet =>
    exact ⟨h.quiet.snoc (fun hwork => absurd hwork (by simp [LoopEvent.beginsWork])),fun _ => since_mark,
      nofun,fun hdead => absurd (halive.symm.trans hdead) (by simp)⟩
  | again stopping => exact h
  | crashed => exact ⟨h.quiet,nofun,nofun,fun _ => ⟨rfl,rfl⟩⟩
  | started dead idle running =>
    exact ⟨h.quiet.snoc (fun hwork => absurd hwork (by simp [LoopEvent.beginsWork])),
      fun hstop => absurd (running.symm.trans hstop) (by simp),fun _ _ => not_since_reset (by simp),nofun⟩

theorem Hushed.broken (h : Hushed l) {work : Work} {message : JsValue} {i : ℕ} {env : TickEnv}
    (point : l.point = some (.upsertAttempt work message)) (hstopping : l.stopping = true)
    (hrec : Recordable cfg env l.world.bus message) (hstep : LaneStep cfg l (.resume i env) l') :
    ¬ QuietAfterStop l'.trace := by
  cases hstep with
  | @ticked p _ _ sleep hpoint awake shape =>
    obtain rfl := Option.some.inj (hpoint.symm.trans point)
    rcases @upsertAttempt_events cfg env l.stopping sleep l.world.bus work message with ⟨-,hno⟩ | ⟨hevents,-⟩
    · exact absurd hrec hno
    · intro hquiet
      have htrace : (l.ticked cfg env sleep (.upsertAttempt work message)).trace =
          (l.trace ++ [.recorded work.event.eventId work.attempts]) ++ [.armed work.event.eventId
            (sleepMs (normalizeBackoff cfg.backoffMs cfg.maxRetries) work.attempts)] := by
        simp only [Lane.ticked,hevents,List.append_assoc,List.singleton_append]
      rw [htrace] at hquiet
      exact hquiet.last rfl ((stoppedSince_append (by simp)).mpr (h.stopped hstopping))

end Hushed

theorem Shape.released {s : Subscriber} (h : Shape s) (hresolved : s.stopPromise = .resolved) :
    s.timers = [] ∧ s.lagTimer = false ∧ s.ticks = [] := by
  have hpromise : ¬ PromiseShape s := by
    rintro (⟨-,promise⟩ | ⟨-,promise,-⟩) <;> simp [promise] at hresolved
  cases h with
  | idle k ticks active stopping promise => simp [promise] at hresolved
  | stopped ticks active stopping promise timers lag => exact ⟨timers,lag,ticks⟩
  | running p ticks active awake point promise => exact absurd promise hpromise
  | asleep work k ticks active point promise => exact absurd promise hpromise

theorem stop_final {cfg : SubscriberConfig} {w : World} {as : List HostAction} {t : Host}
    (hrun : Run (Host.step cfg) (fun t a => StopOk cfg t.lane a) (Host.idle w) as t) : StopFinal t := by
  have hhushed : Hushed t.lane := Host.run_lane (fun _ _ _ h hok hs => h.step hok hs) hrun
    (Host.shaped_idle w) (Hushed.start w)
  refine ⟨hhushed.quiet,fun s hs hresolved => ?_⟩
  obtain ⟨htimers,hlag,hticks⟩ := (Host.run_shaped (Host.shaped_idle w) hrun s hs).released hresolved
  exact ⟨htimers,hlag,by simp [hticks]⟩

def subscribedHost : Host := Host.idle (World.start registeredDb .empty)

def settle (outcome : Outcome) : HostAction := .resume 0 ⟨none,outcome,5000⟩

def untilHandling : List HostAction :=
  [.start,.world (.bus (.emit expiredSample "u")),.fire 0] ++ List.replicate 9 (settle .resolved)

def failed : Outcome := .rejected (.error "handler failed")

def upserting : Option TickPoint → Bool
  | some (.upsertAttempt _ _) => true
  | _ => false

def stopInBackoff : List HostAction :=
  untilHandling ++ List.replicate 3 (settle failed) ++ [.stop] ++ List.replicate 7 (settle .resolved)

theorem stop_final_in_backoff :
    ∃ t : Host, t.trace = [.started,.invoked 1,.rejected 1,.recorded 1 1,.armed 1 (some 100),.stopped,
      .deadLettered 1 1,.acked 1] ∧ StopFinal t := by
  have hreach : (exec (guarded (fun t _ => (t.lane.stopping && upserting t.lane.point) = false)
      (Host.step sampleSubscriber)) subscribedHost stopInBackoff).any (fun t =>
        decide (t.trace = [.started,.invoked 1,.rejected 1,.recorded 1 1,.armed 1 (some 100),.stopped,
          .deadLettered 1 1,.acked 1])) = true := by
    decide +kernel
  obtain ⟨t,ht,htrace⟩ := (Option.any_eq_true _ _).mp hreach
  refine ⟨t,of_decide_eq_true htrace,@stop_final sampleSubscriber _ _ t ((run_of_guarded ht).mono ?_)⟩
  intro u a hquiet
  cases a with
  | resume i env =>
    intro hstop work message hpoint
    simp [hstop,hpoint,upserting] at hquiet
  | _ => trivial

def stopInHandler : List HostAction := untilHandling ++ [.stop] ++ List.replicate 3 (settle failed)

theorem stop_arms_backoff :
    ¬ ∀ cfg w as t, Run (Host.step cfg) (fun _ _ => True) (Host.idle w) as t → StopFinal t := by
  intro hall
  have hreach : (exec (Host.step sampleSubscriber) subscribedHost stopInHandler).any (fun t =>
      decide (t.trace = [.started,.invoked 1,.stopped,.rejected 1,.recorded 1 1] ++ [.armed 1 (some 100)])) =
        true := by
    decide +kernel
  obtain ⟨t,ht,htrace⟩ := (Option.any_eq_true _ _).mp hreach
  have hquiet := (hall _ _ _ t (run_of_exec ht)).quiet
  rw [of_decide_eq_true htrace] at hquiet
  exact hquiet.last rfl ⟨[.started,.invoked 1],[.rejected 1,.recorded 1 1],rfl,by simp⟩

end WickedBus
