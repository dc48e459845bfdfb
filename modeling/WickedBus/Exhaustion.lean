import WickedBus.Ordering

namespace WickedBus

open GuardedRun Trace
open WickedBus.Filter (Text)

def rejections (trace : List LoopEvent) (eventId : ℤ) : ℕ := trace.count (.rejected eventId)

def Exhausted (cfg : SubscriberConfig) (before : List LoopEvent) : LoopEvent → Prop
  | .deadLettered eventId _ => (∀ k, .deadLettered eventId k ∉ before) ∧
      (cfg.maxRetries < rejections before eventId ∨ StoppedSince before)
  | _ => True

def TickPoint.settles : TickPoint → Bool
  | .deleteAttempt _ _ | .ackSelect _ _ | .ackUpdate _ _ => true
  | _ => false

def TickPoint.buries : TickPoint → Option ℤ
  | .deleteAttempt work false | .ackSelect work false | .ackUpdate work false => some work.event.eventId
  | _ => none

def LeavesAttempts (cfg : SubscriberConfig) (l : Lane) : HostAction → Prop
  | .world a => ∀ w, l.world.step a = some w →
      w.bus.cursors.get? cfg.cursorId = l.world.bus.cursors.get? cfg.cursorId ∧
        ∀ e, getAttempts w.bus cfg.cursorId e = getAttempts l.world.bus cfg.cursorId e
  | _ => True

def SettlesAcked (l : Lane) : HostAction → Prop
  | .resume _ env => ∀ p ∈ l.point, p.settles = true → env.failure = none
  | .crash => ∀ p ∈ l.point, p.buries = none
  | _ => True

structure LetterOk (cfg : SubscriberConfig) (l : Lane) (a : HostAction) : Prop where
  leavesAttempts : LeavesAttempts cfg l a
  settles : SettlesAcked l a

def Counted (cfg : SubscriberConfig) (trace : List LoopEvent) : TickPoint → Prop
  | .attempt work | .handling work | .upsertAttempt work _ | .sleeping work _ | .woken work _ =>
    work.attempts ≤ rejections trace work.event.eventId
  | .caught work _ => work.attempts + 1 ≤ rejections trace work.event.eventId
  | .deadLetter work _ => cfg.maxRetries < rejections trace work.event.eventId ∨ StoppedSince trace
  | _ => True

section Counted

variable {cfg : SubscriberConfig} {env : TickEnv} {stopping : Bool} {sleep : ℕ} {db : Db} {p : TickPoint}
variable {trace : List LoopEvent} {c : CursorRow}

theorem rejections_append (trace es : List LoopEvent) (e : ℤ) : rejections trace e ≤ rejections (trace ++ es) e := by
  rw [rejections,rejections,List.count_append]
  exact Nat.le_add_right _ _

theorem rejections_rejected (trace : List LoopEvent) (e : ℤ) :
    rejections (trace ++ [.rejected e]) e = rejections trace e + 1 := by
  simp [rejections]

theorem tickStep_counted (hshape : PointShape stopping p) (h : Counted cfg trace p)
    (hattempts : ∀ e, getAttempts db cfg.cursorId e ≤ rejections trace e)
    (hstopped : stopping = true → StoppedSince trace) (hcursor : pollCursor db cfg.cursorId = .ok c)
    (hsettles : p.settles = true → env.failure = none) :
    ∀ q ∈ (tickStep cfg env stopping sleep db p).next,
      Counted cfg (trace ++ (tickStep cfg env stopping sleep db p).events) q := by
  intro q hq
  cases p with
  | readAttempts event rest =>
    simp only [tickStep] at hq ⊢
    split at hq
    · cases hq
      trivial
    · rename_i attempts hread
      cases (statement_ok hread).2
      cases hq
      exact (hattempts event.eventId).trans (rejections_append _ _ _)
  | attempt work =>
    simp only [tickStep] at hq ⊢
    split_ifs at hq ⊢ with hstop
    · cases hq
      refine .inr ?_
      simpa [goto] using hstopped hstop.1
    · cases hq
      exact le_trans h (rejections_append _ _ _)
  | handling work =>
    simp only [tickStep] at hq ⊢
    split at hq <;> cases hq
    · trivial
    · rw [Counted,rejections_rejected]
      exact Nat.succ_le_succ h
  | caught work err =>
    simp only [tickStep] at hq ⊢
    split at hq
    · cases hq
      trivial
    · split_ifs at hq ⊢ with hbudget <;> cases hq
      · exact .inl (hbudget.trans_le (le_trans h (rejections_append _ _ _)))
      · exact le_trans h (rejections_append _ _ _)
  | upsertAttempt work message =>
    have hcount : work.attempts ≤ rejections trace work.event.eventId := h
    simp only [tickStep] at hq ⊢
    repeat' split at hq
    · cases hq
      trivial
    · cases hq
      trivial
    · cases hq
      exact hcount.trans (rejections_append _ _ _)
  | sleeping work k =>
    cases hq
    exact le_trans h (rejections_append _ _ _)
  | woken work completed =>
    simp only [tickStep] at hq ⊢
    split_ifs at hq ⊢ with hcompleted <;> cases hq
    · exact le_trans h (rejections_append _ _ _)
    · refine .inr ?_
      simpa [goto] using hstopped (hshape.2 (Bool.eq_false_iff.mpr hcompleted))
  | deleteAttempt work handled =>
    simp only [tickStep,TickEnv.statement,hsettles rfl] at hq
    cases hq
    trivial
  | ackSelect work handled =>
    simp only [tickStep,TickEnv.statement,hsettles rfl,hcursor] at hq
    cases hq
    trivial
  | ackUpdate work handled =>
    simp only [tickStep,TickEnv.statement,hsettles rfl,moveCursor_of_pollCursor hcursor] at hq
    cases hq
    trivial
  | finish => simp [tickStep] at hq
  | _ =>
    simp only [↓tickStep_batch,tickStep] at hq
    repeat' split at hq
    all_goals cases hq; trivial

theorem tickStep_attempts (h : Counted cfg trace p)
    (hattempts : ∀ e, getAttempts db cfg.cursorId e ≤ rejections trace e) (e : ℤ) :
    getAttempts (tickStep cfg env stopping sleep db p).bus cfg.cursorId e ≤ rejections trace e := by
  have hold : ∀ row ∈ db.deliveryAttempts, row.cursorId = cfg.cursorId → row.eventId = e →
      row.attempts ≤ rejections trace e := by
    rintro row hrow hcursor rfl
    rw [← getAttempts_of_mem hrow,hcursor]
    exact hattempts row.eventId
  cases p with
  | upsertAttempt work message =>
    have hcount : work.attempts ≤ rejections trace work.event.eventId := h
    simp only [tickStep]
    repeat' split
    · exact hattempts e
    · exact hattempts e
    · rename_i db' hdb
      rw [upsertDeliveryAttempt_ok (foreignKey_ok (statement_ok hdb).2)]
      refine getAttempts_le fun row hrow hcursor hevent => ?_
      rcases KeyedTable.mem_upsert.mp hrow with rfl | ⟨hrow,-⟩
      · exact hevent ▸ hcount
      · exact hold row hrow hcursor hevent
  | deleteAttempt work handled =>
    simp only [tickStep]
    split
    · unfold throwIn
      split_ifs <;> exact hattempts e
    · rename_i db' hdb
      cases (statement_ok hdb).2
      exact getAttempts_le fun row hrow => hold row (KeyedTable.mem_filter.mp hrow).1
  | ackUpdate work handled =>
    simp only [tickStep,throwIn]
    repeat' split
    · exact hattempts e
    · exact hattempts e
    · rename_i db' hdb
      rw [moveCursor_ok (ofBus_ok (statement_ok hdb).2)]
      exact hattempts e
  | reanchor lastEventId oldest =>
    simp only [tickStep]
    split
    · exact hattempts e
    · rename_i db' hdb
      rw [moveCursor_ok (reanchorCursor_ok (ofBus_ok (statement_ok hdb).2))]
      exact hattempts e
  | deadLetter work reason =>
    simp only [tickStep]
    repeat' split
    · exact hattempts e
    · exact hattempts e
    · rename_i db' hdb
      rw [moveToDeadLetter_ok (foreignKey_ok (statement_ok hdb).2)]
      exact hattempts e
  | replayDelete row =>
    simp only [tickStep]
    split
    · exact hattempts e
    · rename_i db' hdb
      cases (statement_ok hdb).2
      exact hattempts e
  | replayCaught row err =>
    simp only [tickStep]
    repeat' split
    · exact hattempts e
    · exact hattempts e
    · rename_i db' hdb
      cases (statement_ok hdb).2
      exact hattempts e
  | _ =>
    simp only [↓tickStep_batch,tickStep,throwIn]
    repeat' split
    all_goals exact hattempts e

theorem tickStep_letters {e : ℤ} {k : ℕ} (h : .deadLettered e k ∈ (tickStep cfg env stopping sleep db p).events) :
    ∃ work reason, p = .deadLetter work reason ∧ e = work.event.eventId ∧
      (tickStep cfg env stopping sleep db p).events = [.deadLettered e k] ∧
      (tickStep cfg env stopping sleep db p).next = some (.deleteAttempt work false) := by
  cases p with
  | deadLetter work reason =>
    simp only [tickStep] at h ⊢
    repeat' split at h
    · simp [goto] at h
    · simp [goto] at h
    · obtain ⟨rfl,rfl⟩ : e = work.event.eventId ∧ k = work.attempts := by simpa using h
      simp_all
  | _ =>
    simp only [↓tickStep_batch,tickStep,throwIn] at h
    repeat' split at h
    all_goals simp [goto] at h

theorem tickStep_buried {e : ℤ} (h : p.buries = some e) (hcursor : pollCursor db cfg.cursorId = .ok c)
    (hfailure : env.failure = none) :
    (∃ q ∈ (tickStep cfg env stopping sleep db p).next, q.buries = some e) ∨
      .acked e ∈ (tickStep cfg env stopping sleep db p).events := by
  cases p with
  | deleteAttempt work handled =>
    simp only [tickStep,TickEnv.statement,hfailure]
    exact .inl ⟨_,rfl,by cases handled <;> exact h⟩
  | ackSelect work handled =>
    simp only [tickStep,TickEnv.statement,hfailure,hcursor]
    exact .inl ⟨_,rfl,by cases handled <;> exact h⟩
  | ackUpdate work handled =>
    simp only [tickStep,TickEnv.statement,hfailure,moveCursor_of_pollCursor hcursor]
    cases handled with
    | true => cases h
    | false =>
      cases h
      exact .inr (List.mem_singleton_self _)
  | _ => cases h

end Counted

structure Letters (cfg : SubscriberConfig) (filter : Text) (l : Lane) (last : ℤ) : Prop where
  order : InOrder cfg filter l last
  cursor : ∃ c, pollCursor l.world.bus cfg.cursorId = .ok c
  letters : Each (Exhausted cfg) l.trace
  stopped : l.stopping = true → StoppedSince l.trace
  attempts : ∀ e, getAttempts l.world.bus cfg.cursorId e ≤ rejections l.trace e
  counted : ∀ p ∈ l.point, Counted cfg l.trace p
  buried : ∀ e k, .deadLettered e k ∈ l.trace → e ≤ last ∨ ∃ p ∈ l.point, p.buries = some e

section Letters

variable {cfg : SubscriberConfig} {filter : Text} {l l' : Lane} {last : ℤ} {p : TickPoint}

theorem TickEffect.cursor {env : TickEnv} {db : Db} {r : TickResult} (h : TickEffect cfg env db p r)
    (hcursor : ∃ c, pollCursor db cfg.cursorId = .ok c) : ∃ c, pollCursor r.bus cfg.cursorId = .ok c := by
  obtain ⟨c,hc⟩ := hcursor
  cases h with
  | still rows batch events => exact ⟨c,(pollCursor_same (by rw [rows.cursors])).trans hc⟩
  | select f lastEventId => exact ⟨c,hc⟩
  | invoke work => exact ⟨c,hc⟩
  | ack work handled moved => exact ⟨_,pollCursor_moved moved hc⟩
  | reanchor lastEventId oldest moved => exact ⟨_,pollCursor_moved moved hc⟩

theorem Letters.append (h : Letters cfg filter l last) {es : List LoopEvent}
    (hes : ∀ e k, .deadLettered e k ∈ es → es = [.deadLettered e k] ∧
      ∃ work reason, l.point = some (.deadLetter work reason) ∧ e = work.event.eventId) :
    Each (Exhausted cfg) (l.trace ++ es) := by
  refine h.letters.append fun pre x post heq => ?_
  cases x with
  | deadLettered e k =>
    obtain ⟨hone,work,reason,hpoint,rfl⟩ := hes e k (heq ▸ by simp)
    obtain rfl : pre = [] := by
      rw [heq] at hone
      cases pre with
      | nil => rfl
      | cons y pre => simp at hone
    rw [List.append_nil]
    refine ⟨fun j hj => ?_,h.counted _ hpoint⟩
    have habove := (h.order.point _ hpoint).batch.above work.event List.mem_cons_self
    rcases h.buried _ j hj with hle | ⟨q,hq,hburied⟩
    · exact absurd hle (not_le.mpr habove)
    · rw [hpoint] at hq
      cases hq
      cases hburied
  | _ => trivial

theorem Letters.ticked (h : Letters cfg filter l last) {env : TickEnv} {sleep : ℕ} (point : l.point = some p)
    (shape : PointShape l.stopping p) (hsettles : p.settles = true → env.failure = none) :
    ∃ last', Letters cfg filter (l.ticked cfg env sleep p) last' := by
  obtain ⟨c,hc⟩ := h.cursor
  obtain ⟨last',hle,horder⟩ := @InOrder.ticked cfg filter l last p h.order env sleep point
  have hmarks := @tickStep_unmarked cfg env l.stopping sleep l.world.bus p
  refine ⟨last',horder,tickStep_effect.cursor h.cursor,?_,fun hstop => (stoppedSince_append hmarks).mpr (h.stopped hstop),
    fun e => (tickStep_attempts (h.counted p point) h.attempts e).trans (rejections_append _ _ _),
    tickStep_counted shape (h.counted p point) h.attempts h.stopped hc hsettles,fun e k hmem => ?_⟩
  · refine h.append fun e k hmem => ?_
    obtain ⟨work,reason,rfl,heq,hone,-⟩ := tickStep_letters hmem
    exact ⟨hone,work,reason,point,heq⟩
  · rcases List.mem_append.mp hmem with hold | hnew
    · rcases h.buried e k hold with hbelow | ⟨q,hq,hburied⟩
      · exact .inl (hbelow.trans hle)
      · obtain rfl := Option.some.inj (point.symm.trans hq)
        have hsettle : p.settles = true := by cases p <;> first | rfl | cases hburied
        rcases tickStep_buried hburied hc (hsettles hsettle) with hnext | hacked
        · exact .inr hnext
        · exact .inl (horder.told.moved e (.inl (List.mem_append_right _ hacked)))
    · obtain ⟨work,reason,rfl,rfl,-,hnext⟩ := tickStep_letters hnew
      exact .inr ⟨_,hnext,rfl⟩

theorem Letters.noted (h : Letters cfg filter l last) {e : LoopEvent} (he : ∀ i k, e ≠ .deadLettered i k) :
    Each (Exhausted cfg) (l.trace ++ [e]) ∧
      ∀ i, getAttempts l.world.bus cfg.cursorId i ≤ rejections (l.trace ++ [e]) i := by
  refine ⟨h.append fun i k hmem => ?_,fun i => (h.attempts i).trans (rejections_append _ _ _)⟩
  exact absurd (List.mem_singleton.mp hmem).symm (he i k)

theorem Letters.settled (h : Letters cfg filter l last) (hpoint : ∀ p ∈ l.point, p.buries = none) {e : ℤ} {k : ℕ}
    (hmem : .deadLettered e k ∈ l.trace) : e ≤ last := by
  refine (h.buried e k hmem).resolve_right ?_
  rintro ⟨p,hp,hburied⟩
  rw [hpoint p hp] at hburied
  cases hburied

theorem Counted.interrupted {trace : List LoopEvent} (h : Counted cfg trace p) (hp : p.interruptible = true) :
    Counted cfg (trace ++ [.stopped]) p.interrupted ∧ p.buries = none := by
  cases p with
  | handling work => exact ⟨le_trans h (rejections_append _ _ _),rfl⟩
  | caught work err => exact ⟨le_trans h (rejections_append _ _ _),rfl⟩
  | sleeping work k => exact ⟨le_trans h (rejections_append _ _ _),rfl⟩
  | woken work completed => exact ⟨le_trans h (rejections_append _ _ _),rfl⟩
  | _ => first | (cases hp; done) | exact ⟨trivial,rfl⟩

theorem Letters.step (h : Letters cfg filter l last) {a : HostAction} (hok : LetterOk cfg l a)
    (hstep : LaneStep cfg l a l') : ∃ last', Letters cfg filter l' last' := by
  have hsole : SoleWriter cfg l a := by
    cases a with
    | world b => exact fun w hw => (hok.leavesAttempts w hw).1
    | _ => trivial
  obtain ⟨last',hle,horder⟩ := h.order.step hsole hstep
  cases hstep with
  | world hw =>
    obtain ⟨hcursor,hattempts⟩ := hok.leavesAttempts _ hw
    obtain ⟨c,hc⟩ := h.cursor
    exact ⟨last',horder,⟨c,(pollCursor_same hcursor).trans hc⟩,h.letters,h.stopped,
      fun e => (hattempts e).le.trans (h.attempts e),h.counted,
      fun e k hmem => (h.buried e k hmem).imp_left (·.trans hle)⟩
  | ticked sleep point awake shape => exact h.ticked point shape fun hs => hok.settles _ point hs
  | begun alive idle running =>
    have hnone : ∀ p ∈ l.point, p.buries = none := fun p hp => absurd (idle.symm.trans hp) (by simp)
    refine ⟨last',horder,h.cursor,h.letters,h.stopped,h.attempts,fun q hq => ?_,
      fun e k hmem => .inl ((h.settled hnone hmem).trans hle)⟩
    cases hq
    trivial
  | woken work k asleep =>
    have hcount : work.attempts ≤ rejections l.trace work.event.eventId := h.counted _ asleep
    have hnone : ∀ p ∈ l.point, p.buries = none := by
      intro p hp
      obtain rfl := Option.some.inj (asleep.symm.trans hp)
      rfl
    refine ⟨last',horder,h.cursor,h.letters,h.stopped,h.attempts,fun q hq => ?_,
      fun e k hmem => .inl ((h.settled hnone hmem).trans hle)⟩
    cases hq
    exact hcount
  | stopped alive running quiet =>
    obtain ⟨hletters,hattempts⟩ := h.noted (e := .stopped) (by simp)
    have hpoint : ∀ p ∈ l.point, Counted cfg (l.trace ++ [.stopped]) p.interrupted ∧ p.buries = none :=
      fun p hp => (h.counted p hp).interrupted (quiet p hp)
    refine ⟨last',horder,h.cursor,hletters,fun _ => since_mark,hattempts,fun q hq => ?_,fun e k hmem => .inl ?_⟩
    · obtain ⟨p,hp,rfl⟩ := Option.map_eq_some_iff.mp hq
      exact (hpoint p hp).1
    · exact (h.settled (fun p hp => (hpoint p hp).2) (by simpa using hmem)).trans hle
  | again stopping => exact ⟨last,h⟩
  | crashed =>
    exact ⟨last',horder,h.cursor,h.letters,nofun,h.attempts,by simp,
      fun e k hmem => .inl ((h.settled hok.settles hmem).trans hle)⟩
  | started dead idle running =>
    obtain ⟨hletters,hattempts⟩ := h.noted (e := .started) (by simp)
    have hnone : ∀ p ∈ l.point, p.buries = none := fun p hp => absurd (idle.symm.trans hp) (by simp)
    exact ⟨last',horder,h.cursor,hletters,fun hstop => absurd (running.symm.trans hstop) (by simp),hattempts,
      fun q hq => absurd (idle.symm.trans hq) (by simp),
      fun e k hmem => .inl ((h.settled hnone (by simpa using hmem)).trans hle)⟩

end Letters

theorem dead_letter_means_exhaustion {cfg : SubscriberConfig} {w : World} {c : CursorRow} {s : SubscriptionRow}
    (hc : pollCursor w.bus cfg.cursorId = .ok c) (hs : w.bus.subscriptions.get? c.subscriptionId = some s)
    (hfresh : ∀ e, getAttempts w.bus cfg.cursorId e = 0) {as : List HostAction} {t : Host}
    (hrun : Run (Host.step cfg) (fun t a => LetterOk cfg t.lane a) (Host.idle w) as t) :
    Each (Exhausted cfg) t.trace := by
  obtain ⟨hmem,hkey,-⟩ := pollCursor_ok.mp hc
  have hstart : Letters cfg s.eventTypeFilter ⟨w,false,none,false,[]⟩ c.lastEventId :=
    ⟨InOrder.start (KeyedTable.get?_eq_some.mpr ⟨hmem,hkey⟩) hs,⟨c,hc⟩,Each.nil,nofun,
      fun e => (hfresh e).le.trans (Nat.zero_le _),by simp,by simp⟩
  obtain ⟨last,hletters⟩ := Host.run_lane (I := fun l => ∃ last, Letters cfg s.eventTypeFilter l last)
    (fun _ _ _ ⟨_,h⟩ hok hstep => h.step hok hstep) hrun (Host.shaped_idle w) ⟨_,hstart⟩
  exact hletters.letters

instance (l : Lane) : (a : HostAction) → Decidable (SettlesAcked l a)
  | .resume _ env => decidable_of_iff
      (l.point.all (fun p => !p.settles || decide (env.failure = none)) = true)
      (by simp [SettlesAcked,Option.all_eq_true,imp_iff_not_or])
  | .crash => decidable_of_iff (l.point.all (fun p => decide (p.buries = none)) = true)
      (by simp [SettlesAcked,Option.all_eq_true])
  | .world _ | .fire _ | .stop | .start => .isTrue trivial

def HostAction.emitsOnly : HostAction → Bool
  | .world (.bus (.emit _ _)) => true
  | .world _ => false
  | _ => true

theorem leavesAttempts_of_emitsOnly {cfg : SubscriberConfig} {l : Lane} {a : HostAction} (h : a.emitsOnly = true) :
    LeavesAttempts cfg l a := by
  cases a with
  | world b =>
    cases b with
    | bus op =>
      cases op with
      | emit params uuid =>
        intro w hw
        obtain ⟨db,hop,rfl⟩ := Option.map_eq_some_iff.mp hw
        have hframe := emit_frame (toOption_eq_some.mp hop)
        exact ⟨by rw [hframe.cursors],fun e => by simp only [getAttempts,hframe.deliveryAttempts]⟩
      | _ => cases h
    | _ => cases h
  | _ => trivial

def failFast : SubscriberConfig := { sampleSubscriber with toSubscribeOpts := sampleOpts }

def crashAfterSuccess : List HostAction :=
  untilHandling ++ [settle .resolved,.crash,.start,.fire 0] ++ List.replicate 9 (settle .resolved) ++
    List.replicate 6 (settle failed)

theorem dead_letter_after_crash :
    ∃ t : Host, t.trace = [.started,.invoked 1,.resolved 1,.started,.invoked 1,.rejected 1,.deadLettered 1 1,.acked 1] ∧
      Each (Exhausted failFast) t.trace := by
  have hreach : (exec (guarded (fun t a => a.emitsOnly = true ∧ SettlesAcked t.lane a) (Host.step failFast))
      subscribedHost crashAfterSuccess).any (fun t => decide (t.trace =
        [.started,.invoked 1,.resolved 1,.started,.invoked 1,.rejected 1,.deadLettered 1 1,.acked 1])) = true := by
    decide +kernel
  obtain ⟨t,ht,htrace⟩ := (Option.any_eq_true _ _).mp hreach
  exact ⟨t,of_decide_eq_true htrace,@dead_letter_means_exhaustion failFast _ sampleCursor sampleSubscription rfl rfl
    (fun _ => rfl) _ t ((run_of_guarded ht).mono fun _ _ h => ⟨leavesAttempts_of_emitsOnly h.1,h.2⟩)⟩

def ackFails : List HostAction :=
  untilHandling ++ List.replicate 3 (settle .resolved) ++
    [.resume 0 ⟨some ⟨"SQLITE_BUSY","database is locked"⟩,.resolved,5000⟩] ++ List.replicate 2 (settle .resolved)

theorem dead_letter_without_rejection :
    ¬ ∀ cfg w c s as t, pollCursor w.bus cfg.cursorId = .ok c → w.bus.subscriptions.get? c.subscriptionId = some s →
      (∀ e, getAttempts w.bus cfg.cursorId e = 0) →
      Run (Host.step cfg) (fun t a => LeavesAttempts cfg t.lane a) (Host.idle w) as t → Each (Exhausted cfg) t.trace := by
  intro hall
  have hreach : (exec (guarded (fun _ a => a.emitsOnly = true) (Host.step failFast)) subscribedHost ackFails).any
      (fun t => decide (t.trace = [.started,.invoked 1,.resolved 1] ++ [.deadLettered 1 1])) = true := by
    decide +kernel
  obtain ⟨t,ht,htrace⟩ := (Option.any_eq_true _ _).mp hreach
  have heach := hall failFast _ sampleCursor sampleSubscription _ t rfl rfl (fun _ => rfl)
    ((run_of_guarded ht).mono fun _ _ => leavesAttempts_of_emitsOnly)
  rw [of_decide_eq_true htrace] at heach
  rcases heach.last.2 with hcount | hstopped
  · exact absurd hcount (by decide)
  · exact absurd (mem_of_since hstopped : LoopEvent.stopped ∈ _) (by decide)

end WickedBus
