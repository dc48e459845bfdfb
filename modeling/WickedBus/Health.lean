import WickedBus.Stopping

namespace WickedBus

open GuardedRun

-- sqlite_code and message are those of err
structure UnusablePoll where
  time : ℤ
  err : LoopError
  deriving DecidableEq, Repr

structure Health where
  consecutiveUnusablePolls : ℕ
  lastUnusablePoll : Option UnusablePoll
  deriving DecidableEq, Repr

structure HealthReport where
  unusable : Bool
  consecutiveUnusablePolls : ℕ
  lastUnusablePoll : Option UnusablePoll
  deriving DecidableEq, Repr

def Health.fresh : Health := ⟨0,none⟩

def getHealth (h : Health) : HealthReport :=
  ⟨decide (0 < h.consecutiveUnusablePolls),h.consecutiveUnusablePolls,h.lastUnusablePoll⟩

-- the last statement of poll returned its rows
def TickPoint.polls (env : TickEnv) : TickPoint → Bool
  | .selectEvents _ _ => env.failure.isNone
  | _ => false

def Health.tick (env : TickEnv) (h : Health) (p : TickPoint) : Health :=
  if p.polls env then .fresh
  else
    match p with
    | .catching err =>
      if err.isConnectionFatal then ⟨h.consecutiveUnusablePolls + 1,some ⟨env.now,err⟩⟩ else h
    | _ => h

def Host.ticking (t : Host) : HostAction → Option TickPoint
  | .resume i _ => t.sub.bind (fun s => s.ticks[i]?)
  | _ => none

def clears (point : Option TickPoint) : HostAction → Bool
  | .start => true
  | .resume _ env => point.any (TickPoint.polls env)
  | _ => false

-- a new subscriber starts its own closure, so start resets the counter too
def Health.next (h : Health) (point : Option TickPoint) : HostAction → Health
  | .start => .fresh
  | .resume _ env => point.elim h (Health.tick env h)
  | _ => h

-- since is what has been traced since the last poll that returned, or since the start
structure Monitored where
  host : Host
  health : Health
  since : List LoopEvent

def Monitored.idle (w : World) : Monitored := ⟨.idle w,.fresh,[]⟩

def sinceNext (since : List LoopEvent) (point : Option TickPoint) (a : HostAction) (events : List LoopEvent) :
    List LoopEvent :=
  if clears point a then [] else since ++ events

def Monitored.step (cfg : SubscriberConfig) (m : Monitored) (a : HostAction) : Option Monitored :=
  (m.host.step cfg a).map (fun host =>
    ⟨host,m.health.next (m.host.ticking a) a,
      sinceNext m.since (m.host.ticking a) a (host.trace.drop m.host.trace.length)⟩)

def LoopEvent.unusable? : LoopEvent → Option LoopError
  | .reported (.unusable err) => some err
  | _ => none

theorem LoopEvent.unusable_of {e : LoopEvent} {err : LoopError} (h : e.unusable? = some err) :
    e = .reported (.unusable err) := by
  unfold LoopEvent.unusable? at h
  split at h
  · cases h
    rfl
  · cases h

-- the work on a polled event; replayed is the drain handing over a requested dead letter before it polls
def LoopEvent.ofPolled : LoopEvent → Bool
  | .invoked _ | .resolved _ | .rejected _ | .recorded _ _ | .armed _ _ | .deadLettered _ _ | .acked _ => true
  | .started | .stopped | .replayed _ | .reanchored _ | .reported _ => false

def TickPoint.polled : TickPoint → Bool
  | .next _ | .readAttempts _ _ | .attempt _ | .handling _ | .deleteAttempt _ _ | .ackSelect _ _ | .ackUpdate _ _
  | .caught _ _ | .upsertAttempt _ _ | .sleeping _ _ | .woken _ _ | .deadLetter _ _ => true
  | _ => false

structure Tally (since : List LoopEvent) (h : Health) : Prop where
  counted : (since.filterMap LoopEvent.unusable?).length = h.consecutiveUnusablePolls
  last : (since.filterMap LoopEvent.unusable?).getLast? = h.lastUnusablePoll.map UnusablePoll.err
  quiet : since.Pairwise (fun a b => a.unusable?.isSome = true → b.ofPolled = false)

structure HealthAt (l : Lane) (h : Health) (since : List LoopEvent) : Prop where
  tally : Tally since h
  suffix : since <:+ l.trace
  polled : ∀ p ∈ l.point, p.polled = true → h = .fresh

section Tally

variable {since events : List LoopEvent} {h : Health}

theorem Tally.empty : Tally [] .fresh := ⟨rfl,rfl,.nil⟩

theorem Tally.fresh (t : Tally since .fresh) : ∀ e ∈ since, e.unusable? = none :=
  List.filterMap_eq_nil_iff.mp (List.eq_nil_of_length_eq_zero t.counted)

theorem Tally.quiet_append (t : Tally since h) (hevents : events.Pairwise fun a b =>
    a.unusable?.isSome = true → b.ofPolled = false)
    (hcross : h = .fresh ∨ ∀ e ∈ events, e.ofPolled = false) :
    (since ++ events).Pairwise (fun a b => a.unusable?.isSome = true → b.ofPolled = false) := by
  refine List.pairwise_append.mpr ⟨t.quiet,hevents,fun a ha b hb hsome => ?_⟩
  rcases hcross with rfl | hquiet
  · rw [t.fresh a ha] at hsome
    cases hsome
  · exact hquiet b hb

theorem Tally.append (t : Tally since h) (hnone : ∀ e ∈ events, e.unusable? = none)
    (hcross : h = .fresh ∨ ∀ e ∈ events, e.ofPolled = false) : Tally (since ++ events) h := by
  have hkept : (since ++ events).filterMap LoopEvent.unusable? = since.filterMap LoopEvent.unusable? := by
    rw [List.filterMap_append,List.filterMap_eq_nil_iff.mpr hnone,List.append_nil]
  refine ⟨hkept ▸ t.counted,hkept ▸ t.last,t.quiet_append ?_ hcross⟩
  refine List.pairwise_of_forall_mem_list fun a ha b _ hsome => ?_
  rw [hnone a ha] at hsome
  cases hsome

theorem Tally.unusable (t : Tally since h) (now : ℤ) (err : LoopError) :
    Tally (since ++ [.reported (.unusable err)]) ⟨h.consecutiveUnusablePolls + 1,some ⟨now,err⟩⟩ := by
  have hlist : (since ++ [LoopEvent.reported (.unusable err)]).filterMap LoopEvent.unusable? =
      since.filterMap LoopEvent.unusable? ++ [err] := by
    rw [List.filterMap_append]
    rfl
  refine ⟨?_,?_,t.quiet_append (List.pairwise_singleton _ _) (.inr (by simp [LoopEvent.ofPolled]))⟩
  · rw [hlist,List.length_append,t.counted]
    rfl
  · rw [hlist,List.getLast?_concat]
    rfl

end Tally

section Ticks

variable {cfg : SubscriberConfig} {env : TickEnv} {stopping : Bool} {sleep : ℕ} {db : Db} {p : TickPoint} {h : Health}

theorem Health.tick_cases (env : TickEnv) (h : Health) (p : TickPoint) (hpolls : p.polls env = false) :
    (∃ err, p = .catching err ∧ err.isConnectionFatal = true ∧
      h.tick env p = ⟨h.consecutiveUnusablePolls + 1,some ⟨env.now,err⟩⟩) ∨
    (h.tick env p = h ∧ ∀ err, p = .catching err → err.isConnectionFatal = false) := by
  cases p with
  | catching err =>
    cases hfatal : err.isConnectionFatal with
    | true => exact .inl ⟨err,rfl,hfatal,by simp [Health.tick,hpolls,hfatal]⟩
    | false =>
      refine .inr ⟨by simp [Health.tick,hpolls,hfatal],fun _ hp => ?_⟩
      cases hp
      exact hfatal
  | _ => exact .inr ⟨by simp [Health.tick,hpolls],fun _ hp => (by cases hp)⟩

theorem tickStep_unpolled (hp : p.polled = false) :
    ∀ e ∈ (tickStep cfg env stopping sleep db p).events, e.ofPolled = false := by
  cases p with
  | drain | replay row | replayDelete row | drained | selectCursor | selectMin cursor | selectFilter cursor
  | selectEvents filter lastEventId | finish | replayCaught row err | catching err | reanchor lastEventId oldest =>
    simp only [tickStep]
    repeat' split
    all_goals simp [goto,LoopEvent.ofPolled]
  | _ => cases hp

theorem tickStep_usable (hfatal : ∀ err, p = .catching err → err.isConnectionFatal = false) :
    ∀ e ∈ (tickStep cfg env stopping sleep db p).events, e.unusable? = none := by
  cases p with
  | catching err =>
    simp only [tickStep,hfatal err rfl,Bool.false_eq_true,if_false]
    split <;> simp [goto,LoopEvent.unusable?]
  | next batch => cases batch <;> simp only [tickStep] <;> (try split) <;> simp [goto]
  | _ =>
    simp only [tickStep,throwIn]
    repeat' split
    all_goals simp [goto,LoopEvent.unusable?]

theorem tickStep_polled (hp : p.polled = false) (hpolls : p.polls env = false) :
    ∀ q ∈ (tickStep cfg env stopping sleep db p).next, q.polled = false := by
  cases p with
  | selectEvents filter lastEventId =>
    cases hfailure : env.failure with
    | none => simp [TickPoint.polls,hfailure] at hpolls
    | some e => simp [tickStep,TickEnv.statement,hfailure,goto,TickPoint.polled]
  | drain | replay row | replayDelete row | replayCaught row err | drained | selectCursor | selectMin cursor
  | selectFilter cursor | finish | reanchor lastEventId oldest | catching err =>
    simp only [tickStep]
    repeat' split
    all_goals simp [goto,TickPoint.polled]
  | _ => cases hp

end Ticks

section Run

variable {cfg : SubscriberConfig} {l l' : Lane} {h : Health} {since events : List LoopEvent} {m m' : Monitored}
  {a : HostAction}

theorem TickPoint.interrupted_polled (p : TickPoint) : p.interrupted.polled = p.polled := by
  cases p <;> rfl

theorem HealthAt.kept (hl : HealthAt l h since) (htrace : l'.trace = l.trace ++ events)
    (hquiet : ∀ e ∈ events, e.ofPolled = false ∧ e.unusable? = none)
    (hpoint : ∀ p ∈ l'.point, p.polled = true → ∃ q ∈ l.point, q.polled = true) :
    HealthAt l' h (since ++ l'.trace.drop l.trace.length) := by
  obtain ⟨before,hbefore⟩ := hl.suffix
  rw [htrace,List.drop_left]
  refine ⟨hl.tally.append (fun e he => (hquiet e he).2) (.inr fun e he => (hquiet e he).1),?_,?_⟩
  · exact ⟨before,by rw [htrace,← hbefore,List.append_assoc]⟩
  · intro p hp hpolled
    obtain ⟨q,hq,hqpolled⟩ := hpoint p hp hpolled
    exact hl.polled q hq hqpolled

theorem HealthAt.ticked (hl : HealthAt l h since) {p : TickPoint} {env : TickEnv} (sleep : ℕ)
    (point : l.point = some p) (hpolls : p.polls env = false) :
    HealthAt (l.ticked cfg env sleep p) (h.tick env p)
      (since ++ (tickStep cfg env l.stopping sleep l.world.bus p).events) := by
  obtain ⟨before,hbefore⟩ := hl.suffix
  have hsuffix : since ++ (tickStep cfg env l.stopping sleep l.world.bus p).events <:+
      (l.ticked cfg env sleep p).trace := ⟨before,by rw [Lane.ticked,← hbefore,List.append_assoc]⟩
  rcases h.tick_cases env p hpolls with ⟨err,rfl,hfatal,htick⟩ | ⟨htick,hfatal⟩
  · have hreported : tickStep cfg env l.stopping sleep l.world.bus (.catching err) =
        ⟨some .finish,l.world.bus,[.reported (.unusable err)]⟩ := if_pos hfatal
    rw [htick]
    refine ⟨?_,hsuffix,fun q hq hpolled => ?_⟩
    · rw [hreported]
      exact hl.tally.unusable env.now err
    · rw [Lane.ticked,hreported] at hq
      cases hq
      cases hpolled
  · rw [htick]
    cases hpolled : p.polled with
    | true =>
      have hfresh := hl.polled p point hpolled
      exact ⟨hl.tally.append (tickStep_usable hfatal) (.inl hfresh),hsuffix,fun _ _ _ => hfresh⟩
    | false =>
      refine ⟨hl.tally.append (tickStep_usable hfatal) (.inr (tickStep_unpolled hpolled)),hsuffix,?_⟩
      intro q hq htrue
      rw [tickStep_polled hpolled hpolls q hq] at htrue
      cases htrue

theorem HealthAt.step (hl : HealthAt l h since) (hstep : LaneStep cfg l a l') :
    HealthAt l' (h.next l.point a) (sinceNext since l.point a (l'.trace.drop l.trace.length)) := by
  have hsame : ∀ point, (∀ p ∈ point, p.polled = true → ∃ q ∈ l.point, q.polled = true) →
      ∀ world alive stopping,
        HealthAt ⟨world,alive,point,stopping,l.trace⟩ h (since ++ l.trace.drop l.trace.length) :=
    fun _ hpoint _ _ _ => hl.kept (List.append_nil _).symm (by simp) hpoint
  cases hstep with
  | world step => exact hsame _ (fun p hp hpolled => ⟨p,hp,hpolled⟩) _ _ _
  | begun alive idle running =>
    refine hsame _ (fun p hp hpolled => ?_) _ _ _
    cases hp
    cases hpolled
  | woken work k asleep =>
    exact hsame _ (fun _ _ _ => ⟨.sleeping work k,asleep,rfl⟩) _ _ _
  | @ticked p i env sleep point awake shape =>
    rw [Health.next,sinceNext,clears,point]
    cases hpolls : p.polls env with
    | true =>
      have hfresh : h.tick env p = .fresh := if_pos hpolls
      rw [Option.elim_some,hfresh,Option.any_some,hpolls,if_pos rfl]
      exact ⟨.empty,List.nil_suffix,fun _ _ _ => rfl⟩
    | false =>
      rw [Option.elim_some,Option.any_some,hpolls,if_neg (by decide),Lane.ticked,List.drop_left]
      exact hl.ticked sleep point hpolls
  | stopped alive running quiet =>
    refine hl.kept rfl (by simp [LoopEvent.ofPolled,LoopEvent.unusable?]) fun p hp hpolled => ?_
    obtain ⟨q,hq,rfl⟩ := Option.map_eq_some_iff.mp hp
    exact ⟨q,hq,q.interrupted_polled ▸ hpolled⟩
  | again stopping => exact hsame _ (fun p hp hpolled => ⟨p,hp,hpolled⟩) _ _ _
  | crashed => exact hsame _ (fun p hp _ => by cases hp) _ _ _
  | started dead idle running => exact ⟨.empty,List.nil_suffix,fun _ _ _ => rfl⟩

theorem Host.ticking_lane {t t' : Host} (hshaped : t.Shaped) {i : ℕ} {env : TickEnv}
    (hstep : t.step cfg (.resume i env) = some t') : t.ticking (.resume i env) = t.lane.point := by
  obtain ⟨s,hs,hresume⟩ := Option.bind_eq_some_iff.mp hstep
  obtain ⟨w,sub,trace⟩ := t
  cases hs
  split at hresume
  · cases hresume
  · rename_i p hp
    split_ifs at hresume with hasleep
    obtain ⟨rfl,ticks,-⟩ := (hshaped s rfl).running_of hp (Bool.eq_false_iff.mpr hasleep)
    rw [Host.lane_of,ticks]
    exact hp

theorem Monitored.step_lane (hshaped : m.host.Shaped) (hstep : m.step cfg a = some m') :
    m'.host.Shaped ∧ LaneStep cfg m.host.lane a m'.host.lane ∧ m'.health = m.health.next m.host.lane.point a ∧
      m'.since = sinceNext m.since m.host.lane.point a (m'.host.trace.drop m.host.trace.length) := by
  obtain ⟨host,hhost,rfl⟩ := Option.map_eq_some_iff.mp hstep
  obtain ⟨hshaped',hlane⟩ := Host.step_lane hshaped hhost
  refine ⟨hshaped',hlane,?_⟩
  cases a with
  | resume i env => rw [← Host.ticking_lane hshaped hhost]; exact ⟨rfl,rfl⟩
  | _ => exact ⟨rfl,rfl⟩

theorem health_since_poll {w : World} {as : List HostAction}
    (hrun : Run (Monitored.step cfg) (fun _ _ => True) (.idle w) as m) :
    m.since <:+ m.host.trace ∧
      (getHealth m.health).consecutiveUnusablePolls = (m.since.filterMap LoopEvent.unusable?).length ∧
      ((getHealth m.health).unusable = true ↔ ∃ err, .reported (.unusable err) ∈ m.since) ∧
      (getHealth m.health).lastUnusablePoll.map UnusablePoll.err =
        (m.since.filterMap LoopEvent.unusable?).getLast? ∧
      m.since.Pairwise (fun a b => a.unusable?.isSome = true → b.ofPolled = false) ∧
      ∀ p ∈ m.host.lane.point, p.polled = true → getHealth m.health = ⟨false,0,none⟩ := by
  have hkept : m.host.Shaped ∧ HealthAt m.host.lane m.health m.since := by
    refine hrun.invariant (I := fun m => m.host.Shaped ∧ HealthAt m.host.lane m.health m.since) ?_
      ⟨Host.shaped_idle w,.empty,List.nil_suffix,fun p hp _ => by cases hp⟩
    intro m a m' hm _ hstep
    obtain ⟨hshaped,hlane,hhealth,hsince⟩ := Monitored.step_lane hm.1 hstep
    refine ⟨hshaped,?_⟩
    rw [hhealth,hsince]
    exact hm.2.step hlane
  obtain ⟨htally,hsuffix,hpolled⟩ := hkept.2
  refine ⟨hsuffix,htally.counted.symm,?_,htally.last.symm,htally.quiet,fun p hp hp' => ?_⟩
  · rw [getHealth,decide_eq_true_iff,← htally.counted,List.length_pos_iff_exists_mem]
    refine exists_congr fun err => ?_
    rw [List.mem_filterMap]
    constructor
    · rintro ⟨e,he,herr⟩
      rw [← LoopEvent.unusable_of herr]
      exact he
    · exact fun he => ⟨_,he,rfl⟩
  · rw [hpolled p hp hp']
    rfl

end Run

def corrupted : HostAction :=
  .resume 0 ⟨some ⟨"SQLITE_CORRUPT","database disk image is malformed"⟩,.resolved,5000⟩

def parkedMeanwhile : List HostAction :=
  [.world (.bus (.moveToDeadLetter "c1" "s1" (expiredSample.row 1) 3 none 0)),
    .world (.bus (.replayDeadLetter 1 6))]

def twiceUnusable : List HostAction :=
  [.start,.fire 0,corrupted,settle .resolved,settle .resolved,.fire 1,corrupted,settle .resolved] ++
    parkedMeanwhile ++ [settle .resolved,.fire 2,settle .resolved]

theorem health_since_poll_twice : ∃ m : Monitored, m.since.getLast? = some (.replayed 1) ∧
    (getHealth m.health).consecutiveUnusablePolls = 2 ∧ m.since <:+ m.host.trace ∧
      (getHealth m.health).consecutiveUnusablePolls = (m.since.filterMap LoopEvent.unusable?).length ∧
      ((getHealth m.health).unusable = true ↔ ∃ err, .reported (.unusable err) ∈ m.since) ∧
      (getHealth m.health).lastUnusablePoll.map UnusablePoll.err =
        (m.since.filterMap LoopEvent.unusable?).getLast? ∧
      m.since.Pairwise (fun a b => a.unusable?.isSome = true → b.ofPolled = false) ∧
      ∀ p ∈ m.host.lane.point, p.polled = true → getHealth m.health = ⟨false,0,none⟩ := by
  have hreach : (exec (Monitored.step sampleSubscriber) (.idle subscribedHost.world) twiceUnusable).any
      (fun m => decide (m.since.getLast? = some (.replayed 1)) &&
        decide ((getHealth m.health).consecutiveUnusablePolls = 2)) = true := by
    decide +kernel
  obtain ⟨m,hm,hobs⟩ := (Option.any_eq_true _ _).mp hreach
  simp only [Bool.and_eq_true,decide_eq_true_eq] at hobs
  exact ⟨m,hobs.1,hobs.2,health_since_poll (run_of_exec hm)⟩

end WickedBus
