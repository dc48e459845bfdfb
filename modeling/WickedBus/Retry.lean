import WickedBus.AtLeastOnce
import WickedBus.Tick

namespace WickedBus

open WickedBus.Filter (Text)

structure Drive where
  point : TickPoint
  bus : Db
  settled : ℕ
  clock : ℕ
  events : List LoopEvent

def driveStep (cfg : SubscriberConfig) (outcomes : ℕ → Outcome) (now : ℕ → ℤ) (d : Drive) : Drive :=
  match d.point with
  | .next _ | .catching _ => d
  | .sleeping work _ => { d with point := .woken work true }
  | .handling work =>
    let r := tickStep cfg ⟨none,outcomes d.settled,now d.clock⟩ false 0 d.bus (.handling work)
    ⟨r.next.getD .finish,r.bus,d.settled + 1,d.clock + 1,d.events ++ r.events⟩
  | p =>
    let r := tickStep cfg ⟨none,outcomes d.settled,now d.clock⟩ false 0 d.bus p
    ⟨r.next.getD .finish,r.bus,d.settled,d.clock + 1,d.events ++ r.events⟩

def drive (cfg : SubscriberConfig) (outcomes : ℕ → Outcome) (now : ℕ → ℤ) : ℕ → Drive → Drive
  | 0, d => d
  | n + 1, d => drive cfg outcomes now n (driveStep cfg outcomes now d)

def processEvent (event : EventRow) (rest : List EventRow) (db : Db) : Drive :=
  ⟨.readAttempts event rest,db,0,0,[]⟩

def configuredDelay (input : BackoffMs) (index : ℕ) : Option ℚ :=
  input.source[min index (input.source.length - 1)]?

def failuresBefore (outcomes : ℕ → Outcome) : ℕ → ℕ → ℕ
  | 0, _ => 0
  | budget + 1, n =>
    match outcomes n with
    | .resolved => 0
    | .rejected _ => failuresBefore outcomes budget (n + 1) + 1

structure WorkingDb (cfg : SubscriberConfig) (db : Db) : Prop where
  cursor : ∃ c ∈ db.cursors, c.cursorId = cfg.cursorId ∧ c.deregisteredAt = none
  subscription : (db.subscriptions.get? cfg.subscriptionId).isSome = true

def Persistable (cfg : SubscriberConfig) (err : Thrown) : Prop :=
  ∃ message, err.message = some message ∧ (cfg.bind message.orNull).isSome = true

def retried (cfg : SubscriberConfig) (eventId : ℤ) (attempts : ℕ) : List LoopEvent :=
  [.invoked eventId,.rejected eventId,.recorded eventId (attempts + 1),
    .armed eventId (sleepMs (normalizeBackoff cfg.backoffMs cfg.maxRetries) (attempts + 1))]

section Backoff

variable {input : BackoffMs} {maxRetries attempts : ℕ}

theorem configuredDelay_isSome (h : input.source ≠ []) (index : ℕ) :
    (configuredDelay input index).isSome = true := by
  have hpos := List.length_pos_of_ne_nil h
  rw [configuredDelay,List.getElem?_eq_getElem (by omega)]
  rfl

theorem sleepMs_normalized (h : input.source ≠ []) (hbudget : attempts + 1 ≤ maxRetries) :
    sleepMs (normalizeBackoff input maxRetries) (attempts + 1) = configuredDelay input attempts := by
  have hlen : (normalizeBackoff input maxRetries).length = maxRetries := by
    rw [normalizeBackoff,if_neg (by omega),if_neg h,List.length_map,List.length_range]
  rw [sleepMs,hlen,Nat.add_sub_cancel,Nat.min_eq_left (by omega),normalizeBackoff,if_neg (by omega),
    if_neg h,List.getElem?_map,List.getElem?_range (by omega)]
  rfl

end Backoff

section Database

variable {cfg : SubscriberConfig} {db : Db} {cursorId : String} {eventId now : ℤ}

theorem WorkingDb.pollCursor (h : WorkingDb cfg db) : ∃ c, pollCursor db cfg.cursorId = .ok c := by
  obtain ⟨c,hc⟩ := h.cursor
  exact ⟨c,pollCursor_ok.mpr hc⟩

theorem WorkingDb.moveCursor (h : WorkingDb cfg db) :
    moveCursor db cfg.cursorId eventId now = .ok (updateCursors db cfg.cursorId eventId now) := by
  obtain ⟨c,hc⟩ := h.pollCursor
  exact moveCursor_of_pollCursor hc eventId now

theorem WorkingDb.cursorRow (h : WorkingDb cfg db) : (db.cursors.get? cfg.cursorId).isSome = true := by
  obtain ⟨c,hc,hck,-⟩ := h.cursor
  rw [KeyedTable.get?_eq_some.mpr ⟨hc,hck⟩]
  rfl

theorem WorkingDb.same {db' : Db} (h : WorkingDb cfg db) (hcursors : db'.cursors = db.cursors)
    (hsubs : db'.subscriptions = db.subscriptions) : WorkingDb cfg db' :=
  ⟨hcursors ▸ h.cursor,hsubs ▸ h.subscription⟩

theorem WorkingDb.upsert (h : WorkingDb cfg db) (attempts : ℕ) (lastError : Option String) :
    upsertDeliveryAttempt db ⟨cfg.cursorId,eventId,attempts,now,lastError⟩ = some
      { db with deliveryAttempts := db.deliveryAttempts.upsert ⟨cfg.cursorId,eventId,attempts,now,lastError⟩ } := by
  have hrow := Option.isSome_iff_ne_none.mp h.cursorRow
  unfold upsertDeliveryAttempt
  rw [if_neg (by simpa using hrow)]

theorem WorkingDb.moveToDeadLetter (h : WorkingDb cfg db) (event : EventRow) (attempts : ℕ)
    (reason : Option String) :
    moveToDeadLetter db cfg.cursorId cfg.subscriptionId event attempts reason now = some
      (appendDeadLetter db (deadLetterOf db cfg.cursorId cfg.subscriptionId event attempts reason now) rfl) := by
  have hrow := Option.isSome_iff_ne_none.mp h.cursorRow
  have hsub := Option.isSome_iff_ne_none.mp h.subscription
  unfold WickedBus.moveToDeadLetter
  rw [if_neg (by simp [hrow,hsub])]

end Database

section Drive

variable {cfg : SubscriberConfig} {outcomes : ℕ → Outcome} {now : ℕ → ℤ} {d d' d'' : Drive} {work : Work}

def Reaches (cfg : SubscriberConfig) (outcomes : ℕ → Outcome) (now : ℕ → ℤ) (d d' : Drive) : Prop :=
  ∃ n, drive cfg outcomes now n d = d'

theorem drive_add (m n : ℕ) (d : Drive) :
    drive cfg outcomes now (m + n) d = drive cfg outcomes now n (drive cfg outcomes now m d) := by
  induction m generalizing d with
  | zero => rw [Nat.zero_add]; rfl
  | succ m ih =>
    rw [Nat.succ_add]
    exact ih _

theorem Reaches.trans (h : Reaches cfg outcomes now d d') (h' : Reaches cfg outcomes now d' d'') :
    Reaches cfg outcomes now d d'' := by
  obtain ⟨m,rfl⟩ := h
  obtain ⟨n,rfl⟩ := h'
  exact ⟨m + n,drive_add m n d⟩

theorem reaches_retry (hdb : WorkingDb cfg d.bus) (hpoint : d.point = .attempt work) {err : Thrown}
    (hout : outcomes d.settled = .rejected err) (herr : Persistable cfg err)
    (hbudget : work.attempts + 1 ≤ cfg.maxRetries) :
    ∃ d', Reaches cfg outcomes now d d' ∧ d'.point = .attempt { work with attempts := work.attempts + 1 } ∧
      d'.settled = d.settled + 1 ∧ d'.events = d.events ++ retried cfg work.event.eventId work.attempts ∧
      ∃ attempts, d'.bus = { d.bus with deliveryAttempts := attempts } := by
  obtain ⟨point,bus,settled,clock,events⟩ := d
  obtain ⟨message,hmessage,hbind⟩ := herr
  obtain ⟨text,htext⟩ := Option.isSome_iff_exists.mp hbind
  cases hpoint
  refine ⟨_,⟨6,rfl⟩,?_⟩
  simp [drive,driveStep,tickStep,goto,TickEnv.statement,foreignKey,hout,hmessage,htext,
    Nat.not_lt.mpr hbudget,hdb.upsert,retried]

structure Advanced (cfg : SubscriberConfig) (work : Work) (d : Drive) : Prop where
  point : d.point = .next work.rest
  cursor : ∃ c ∈ d.bus.cursors, c.cursorId = cfg.cursorId ∧ c.deregisteredAt = none ∧
    c.lastEventId = work.event.eventId
  attempts : d.bus.deliveryAttempts.get? (toLex (cfg.cursorId,work.event.eventId)) = none

theorem WorkingDb.cursor_at {db : Db} (h : WorkingDb cfg db) (eventId t : ℤ) :
    ∃ c ∈ (updateCursors db cfg.cursorId eventId t).cursors, c.cursorId = cfg.cursorId ∧
      c.deregisteredAt = none ∧ c.lastEventId = eventId := by
  obtain ⟨c,hc,hck,hcd⟩ := h.cursor
  exact ⟨c.moveTo eventId t,mem_updateCursors.mpr ⟨c,hc,if_pos ⟨hck,hcd⟩⟩,hck,hcd,rfl⟩

theorem reaches_success (hdb : WorkingDb cfg d.bus) (hpoint : d.point = .attempt work)
    (hout : outcomes d.settled = .resolved) :
    ∃ d', Reaches cfg outcomes now d d' ∧ Advanced cfg work d' ∧
      d'.events = d.events ++ [.invoked work.event.eventId,.resolved work.event.eventId,
        .acked work.event.eventId] ∧ d'.bus.deadLetters = d.bus.deadLetters := by
  obtain ⟨point,bus,settled,clock,events⟩ := d
  cases hpoint
  have hdel : WorkingDb cfg (deleteDeliveryAttempt bus cfg.cursorId work.event.eventId) := hdb.same rfl rfl
  obtain ⟨c,hc⟩ := hdel.pollCursor
  refine ⟨⟨.next work.rest,updateCursors (deleteDeliveryAttempt bus cfg.cursorId work.event.eventId)
    cfg.cursorId work.event.eventId (now (clock + 4)),settled + 1,clock + 5,_⟩,⟨5,?_⟩,
    ⟨rfl,hdel.cursor_at _ _,deleteDeliveryAttempt_get _ _ _⟩,rfl,rfl⟩
  simp [drive,driveStep,tickStep,goto,TickEnv.statement,ofBus,Except.mapError,hout,hc,hdel.moveCursor]

theorem reaches_exhausted (hdb : WorkingDb cfg d.bus) (hpoint : d.point = .attempt work) {err : Thrown}
    (hout : outcomes d.settled = .rejected err) (herr : Persistable cfg err)
    (hbudget : cfg.maxRetries < work.attempts + 1) :
    ∃ d', Reaches cfg outcomes now d d' ∧ Advanced cfg work d' ∧
      d'.events = d.events ++ [.invoked work.event.eventId,.rejected work.event.eventId,
        .deadLettered work.event.eventId (work.attempts + 1),.acked work.event.eventId] ∧
      ∃ row, row.cursorId = cfg.cursorId ∧ row.eventId = work.event.eventId ∧
        row.attempts = work.attempts + 1 ∧ d.bus.deadLetterSeq < row.dlId ∧
        ∀ r, r ∈ d'.bus.deadLetters ↔ r = row ∨ r ∈ d.bus.deadLetters := by
  obtain ⟨point,bus,settled,clock,events⟩ := d
  obtain ⟨message,hmessage,hbind⟩ := herr
  obtain ⟨text,htext⟩ := Option.isSome_iff_exists.mp hbind
  cases hpoint
  set row := deadLetterOf bus cfg.cursorId cfg.subscriptionId work.event (work.attempts + 1) text
    (now (clock + 3)) with hrow
  have hdead : WorkingDb cfg (appendDeadLetter bus row rfl) := hdb.same rfl rfl
  have hdel : WorkingDb cfg
      (deleteDeliveryAttempt (appendDeadLetter bus row rfl) cfg.cursorId work.event.eventId) :=
    hdead.same rfl rfl
  obtain ⟨c,hc⟩ := hdel.pollCursor
  refine ⟨⟨.next work.rest,updateCursors (deleteDeliveryAttempt (appendDeadLetter bus row rfl) cfg.cursorId
    work.event.eventId) cfg.cursorId work.event.eventId (now (clock + 6)),settled + 1,clock + 7,_⟩,⟨7,?_⟩,
    ⟨rfl,hdel.cursor_at _ _,deleteDeliveryAttempt_get _ _ _⟩,rfl,row,rfl,rfl,rfl,Int.lt_succ _,fun r => ?_⟩
  · simp [drive,driveStep,tickStep,goto,TickEnv.statement,foreignKey,ofBus,Except.mapError,hout,hmessage,
      htext,hbudget,hdb.moveToDeadLetter,← hrow,hc,hdel.moveCursor]
  · have hmem := @KeyedTable.mem_insertOrIgnore _ _ _ DeadLetterRow.dlId bus.deadLetters row r
    have hnew : ∀ s ∈ bus.deadLetters, s.dlId ≠ row.dlId := fun s hs =>
      (Int.lt_add_one_of_le (bus.deadLetters_le_seq s hs)).ne
    rw [or_comm]
    exact hmem.trans (or_congr_right ⟨And.left,fun heq => ⟨heq,hnew⟩⟩)

theorem reaches_uncaught (hpoint : d.point = .attempt work) {err : Thrown}
    (hout : outcomes d.settled = .rejected err) (herr : ¬ Persistable cfg err) :
    ∃ d', Reaches cfg outcomes now d d' ∧ d'.point = .catching .uncaught ∧ d'.bus = d.bus := by
  obtain ⟨point,bus,settled,clock,events⟩ := d
  cases hpoint
  cases hmessage : err.message with
  | none =>
    refine ⟨_,⟨3,rfl⟩,?_⟩
    simp [drive,driveStep,tickStep,goto,hout,hmessage]
  | some message =>
    have htext : cfg.bind message.orNull = none := by
      refine Option.not_isSome_iff_eq_none.mp fun hbind => herr ⟨message,hmessage,hbind⟩
    refine ⟨_,⟨4,rfl⟩,?_⟩
    by_cases hbudget : cfg.maxRetries < work.attempts + 1 <;>
      simp [drive,driveStep,tickStep,goto,hout,hmessage,hbudget,htext]

inductive Settled (cfg : SubscriberConfig) (outcomes : ℕ → Outcome) (budget : ℕ) (work : Work) (d d' : Drive) :
    Prop
  | handled (failures : ℕ) (count : failuresBefore outcomes budget d.settled = failures)
      (within : failures < budget)
      (events : d'.events = d.events ++
        (List.range failures).flatMap (fun i => retried cfg work.event.eventId (work.attempts + i)) ++
        [.invoked work.event.eventId,.resolved work.event.eventId,.acked work.event.eventId])
      (deadLetters : d'.bus.deadLetters = d.bus.deadLetters)
  | exhausted (failures : ℕ) (count : failuresBefore outcomes budget d.settled = failures + 1)
      (all : failures + 1 = budget)
      (events : d'.events = d.events ++
        (List.range failures).flatMap (fun i => retried cfg work.event.eventId (work.attempts + i)) ++
        [.invoked work.event.eventId,.rejected work.event.eventId,
          .deadLettered work.event.eventId (work.attempts + budget),.acked work.event.eventId])
      (deadLetter : ∃ row, row.cursorId = cfg.cursorId ∧ row.eventId = work.event.eventId ∧
        row.attempts = work.attempts + budget ∧ row ∉ d.bus.deadLetters ∧
        ∀ r, r ∈ d'.bus.deadLetters ↔ r = row ∨ r ∈ d.bus.deadLetters)

theorem range_succ_retried (cfg : SubscriberConfig) (eventId : ℤ) (attempts k : ℕ) :
    (List.range (k + 1)).flatMap (fun i => retried cfg eventId (attempts + i)) =
      retried cfg eventId attempts ++
        (List.range k).flatMap (fun i => retried cfg eventId (attempts + 1 + i)) := by
  rw [List.range_succ_eq_map,List.flatMap_cons,List.flatMap_map,Nat.add_zero]
  congr 2
  funext i
  rw [Nat.add_assoc,Nat.add_comm 1 i]

theorem reaches_settled {budget : ℕ} (hdb : WorkingDb cfg d.bus) (hpoint : d.point = .attempt work)
    (hbudget : budget = max 1 (cfg.maxRetries + 1 - work.attempts))
    (herr : ∀ i < budget, (∀ j < i, outcomes (d.settled + j) ≠ .resolved) → ∀ err,
      outcomes (d.settled + i) = .rejected err → Persistable cfg err) :
    ∃ d', Reaches cfg outcomes now d d' ∧ Advanced cfg work d' ∧ Settled cfg outcomes budget work d d' := by
  induction budget generalizing d work with
  | zero => omega
  | succ budget ih =>
    cases hout : outcomes d.settled with
    | resolved =>
      obtain ⟨d',hreach,hadv,hevents,hdead⟩ := @reaches_success cfg outcomes now d work hdb hpoint hout
      refine ⟨d',hreach,hadv,.handled 0 (by simp [failuresBefore,hout]) (Nat.succ_pos _) ?_ hdead⟩
      simpa using hevents
    | rejected err =>
      have hpers := herr 0 (Nat.succ_pos _) (by simp) err hout
      rcases Nat.eq_zero_or_pos budget with rfl | hmore
      · obtain ⟨d',hreach,hadv,hevents,row,hcursor,hevent,hattempts,hnew,hmem⟩ :=
          @reaches_exhausted cfg outcomes now d work hdb hpoint err hout hpers (by omega)
        refine ⟨d',hreach,hadv,.exhausted 0 (by simp [failuresBefore,hout]) rfl (by simpa using hevents)
          ⟨row,hcursor,hevent,hattempts,fun hrow => ?_,hmem⟩⟩
        exact absurd (d.bus.deadLetters_le_seq row hrow) (not_le.mpr hnew)
      · obtain ⟨d₁,hreach₁,hpoint₁,hsettled,hevents₁,attempts,hbus⟩ :=
          @reaches_retry cfg outcomes now d work hdb hpoint err hout hpers (by omega)
        have hdead : d₁.bus.deadLetters = d.bus.deadLetters := by rw [hbus]
        have hcount : failuresBefore outcomes (budget + 1) d.settled =
            failuresBefore outcomes budget d₁.settled + 1 := by
          rw [failuresBefore,hout,hsettled]
        have hdb₁ : WorkingDb cfg d₁.bus := hdb.same (by rw [hbus]) (by rw [hbus])
        obtain ⟨d',hreach,hadv,hsettles⟩ := ih hdb₁ hpoint₁ (by dsimp only; omega) fun i hi hbefore e he => by
          refine herr (i + 1) (by omega) (fun j hj => ?_) e (by rw [← he,hsettled]; congr 1; omega)
          cases j with
          | zero => simp [hout]
          | succ j =>
            have := hbefore j (by omega)
            rwa [hsettled,Nat.add_right_comm] at this
        refine ⟨d',hreach₁.trans hreach,⟨hadv.point,hadv.cursor,hadv.attempts⟩,?_⟩
        cases hsettles with
        | handled k count within events deadLetters =>
          refine .handled (k + 1) (by rw [hcount,count]) (by omega) ?_ (deadLetters.trans hdead)
          rw [events,hevents₁,range_succ_retried]
          simp only [List.append_assoc]
        | exhausted k count all events deadLetter =>
          have hsum : work.attempts + 1 + budget = work.attempts + (budget + 1) := by omega
          obtain ⟨row,hcursor,hevent,hattempts,hnew,hmem⟩ := deadLetter
          refine .exhausted (k + 1) (by rw [hcount,count]) (by omega) ?_
            ⟨row,hcursor,hevent,hattempts.trans hsum,hdead ▸ hnew,hdead ▸ hmem⟩
          rw [events,hevents₁,range_succ_retried]
          simp only [List.append_assoc,hsum]

theorem reaches_fault {i budget : ℕ} (hdb : WorkingDb cfg d.bus) (hpoint : d.point = .attempt work)
    (hbudget : budget = max 1 (cfg.maxRetries + 1 - work.attempts)) (hi : i < budget)
    (hbefore : ∀ j < i, outcomes (d.settled + j) ≠ .resolved) {err : Thrown}
    (hout : outcomes (d.settled + i) = .rejected err) (herr : ¬ Persistable cfg err) :
    ∃ d', Reaches cfg outcomes now d d' ∧ d'.point = .catching .uncaught := by
  induction i generalizing d work budget with
  | zero =>
    obtain ⟨d',hreach,hcatch,-⟩ := @reaches_uncaught cfg outcomes now d work hpoint err hout herr
    exact ⟨d',hreach,hcatch⟩
  | succ i ih =>
    cases hfirst : outcomes d.settled with
    | resolved => exact absurd hfirst (hbefore 0 (Nat.succ_pos _))
    | rejected e =>
      by_cases hpers : Persistable cfg e
      · obtain ⟨d₁,hreach₁,hpoint₁,hsettled,-,attempts,hbus⟩ :=
          @reaches_retry cfg outcomes now d work hdb hpoint e hfirst hpers (by omega)
        have hdb₁ : WorkingDb cfg d₁.bus := hdb.same (by rw [hbus]) (by rw [hbus])
        have hshift : ∀ j, d₁.settled + j = d.settled + (j + 1) := fun j => by omega
        obtain ⟨d',hreach,hcatch⟩ := @ih d₁ _ (budget - 1) hdb₁ hpoint₁ (by dsimp only; omega) (by omega)
          (fun j hj => by rw [hshift]; exact hbefore (j + 1) (by omega)) (by rw [hshift]; exact hout)
        exact ⟨d',hreach₁.trans hreach,hcatch⟩
      · obtain ⟨d',hreach,hcatch,-⟩ := @reaches_uncaught cfg outcomes now d work hpoint e hfirst hpers
        exact ⟨d',hreach,hcatch⟩

theorem drive_stopped (hstop : driveStep cfg outcomes now d = d) (n : ℕ) :
    drive cfg outcomes now n d = d := by
  induction n with
  | zero => rfl
  | succ n ih => rw [drive,hstop,ih]

theorem reaches_unique (h : Reaches cfg outcomes now d d') (h' : Reaches cfg outcomes now d d'')
    (hstop : driveStep cfg outcomes now d' = d') (hstop' : driveStep cfg outcomes now d'' = d'') : d' = d'' := by
  obtain ⟨m,hm⟩ := h
  obtain ⟨n,hn⟩ := h'
  rw [← drive_stopped hstop n,← hm,← drive_add,Nat.add_comm,drive_add,hn,drive_stopped hstop' m]

theorem reaches_attempt (event : EventRow) (rest : List EventRow) (db : Db) :
    Reaches cfg outcomes now (processEvent event rest db)
      ⟨.attempt ⟨event,getAttempts db cfg.cursorId event.eventId,rest⟩,db,0,1,[]⟩ :=
  ⟨1,rfl⟩

end Drive

theorem processEvent_settled {cfg : SubscriberConfig} {outcomes : ℕ → Outcome} {now : ℕ → ℤ} {event : EventRow}
    {rest : List EventRow} {db : Db} {attempts budget : ℕ} (hdb : WorkingDb cfg db)
    (hattempts : attempts = getAttempts db cfg.cursorId event.eventId)
    (hbudget : budget = max 1 (cfg.maxRetries + 1 - attempts))
    (herr : ∀ i < budget, (∀ j < i, outcomes j ≠ .resolved) → ∀ err, outcomes i = .rejected err →
      Persistable cfg err) :
    ∃ d, Reaches cfg outcomes now (processEvent event rest db) d ∧ Advanced cfg ⟨event,attempts,rest⟩ d ∧
      Settled cfg outcomes budget ⟨event,attempts,rest⟩ (processEvent event rest db) d := by
  have hstart := @reaches_attempt cfg outcomes now event rest db
  rw [← hattempts] at hstart
  obtain ⟨d,hreach,hadv,hsettled⟩ := reaches_settled hdb (d := ⟨.attempt ⟨event,attempts,rest⟩,db,0,1,[]⟩)
    rfl hbudget (by simpa only [Nat.zero_add] using herr)
  refine ⟨d,hstart.trans hreach,hadv,?_⟩
  cases hsettled with
  | handled k count within events deadLetters => exact .handled k count within events deadLetters
  | exhausted k count all events deadLetter => exact .exhausted k count all events deadLetter

def Pending (cfg : SubscriberConfig) (event : EventRow) (attempts : ℕ) (d : Drive) : TickPoint → Prop
  | .readAttempts e _ => e = event ∧ d.settled = 0 ∧ getAttempts d.bus cfg.cursorId event.eventId = attempts
  | .attempt work | .handling work => work.event = event ∧ work.attempts = attempts + d.settled
  | .caught work _ => work.event = event ∧ work.attempts + 1 = attempts + d.settled ∧ 1 ≤ d.settled
  | .deleteAttempt work handled | .ackSelect work handled | .ackUpdate work handled => handled = true →
    work.event = event ∧ work.attempts + 1 = attempts + d.settled ∧ 1 ≤ d.settled
  | .upsertAttempt work _ => work.event = event ∧ work.attempts = attempts + d.settled ∧ 1 ≤ d.settled ∧
    attempts + d.settled ≤ cfg.maxRetries
  | .woken work completed => completed = true ∧ work.event = event ∧ work.attempts = attempts + d.settled
  | .sleeping work _ => work.event = event ∧ work.attempts = attempts + d.settled ∧ 1 ≤ d.settled ∧
    attempts + d.settled ≤ cfg.maxRetries ∧
    getAttempts d.bus cfg.cursorId event.eventId = attempts + d.settled ∧
    .armed event.eventId (sleepMs (normalizeBackoff cfg.backoffMs cfg.maxRetries) (attempts + d.settled)) ∈
      d.events.getLast?
  | _ => True

section Pending

variable {cfg : SubscriberConfig} {outcomes : ℕ → Outcome} {now : ℕ → ℤ} {event : EventRow} {attempts : ℕ}
variable {d d' : Drive}

theorem Pending.step (h : Pending cfg event attempts d d.point) :
    Pending cfg event attempts (driveStep cfg outcomes now d) (driveStep cfg outcomes now d).point := by
  obtain ⟨point,bus,settled,clock,events⟩ := d
  cases point with
  | next batch => trivial
  | catching err => trivial
  | sleeping work k => exact ⟨rfl,h.1,h.2.1⟩
  | readAttempts e rest =>
    obtain ⟨rfl,hzero,hattempts⟩ := h
    exact ⟨rfl,by simp_all [driveStep,tickStep,goto,TickEnv.statement]⟩
  | attempt work => exact h
  | handling work =>
    obtain ⟨hevent,hattempts⟩ := h
    have hnext : work.event = event ∧ work.attempts + 1 = attempts + (settled + 1) ∧ 1 ≤ settled + 1 :=
      ⟨hevent,by dsimp only at hattempts; omega,Nat.le_add_left 1 settled⟩
    simp only [driveStep,tickStep]
    cases outcomes settled with
    | resolved => exact fun _ => hnext
    | rejected err => exact hnext
  | caught work err =>
    obtain ⟨hevent,hattempts,hsettled⟩ := h
    simp only [driveStep,tickStep]
    cases err.message with
    | none => trivial
    | some message =>
      simp only [goto]
      split_ifs with hbudget
      · trivial
      · exact ⟨hevent,hattempts,hsettled,by dsimp only at *; omega⟩
  | upsertAttempt work message =>
    obtain ⟨hevent,hattempts,hsettled,hbudget⟩ := h
    simp only [driveStep,tickStep]
    cases cfg.bind message.orNull with
    | none => trivial
    | some text =>
      simp only [TickEnv.statement]
      cases hup : upsertDeliveryAttempt bus
        ⟨cfg.cursorId,work.event.eventId,work.attempts,now clock,text⟩ with
      | none => trivial
      | some db' =>
        rw [upsertDeliveryAttempt_ok hup,← hevent]
        refine ⟨rfl,hattempts,hsettled,hbudget,?_,?_⟩
        · exact (getAttempts_upsert bus ⟨cfg.cursorId,work.event.eventId,work.attempts,now clock,text⟩).trans
            hattempts
        · simp [foreignKey,hattempts]
  | woken work completed =>
    obtain ⟨rfl,hwork⟩ := h
    exact hwork
  | deleteAttempt work handled | ackSelect work handled =>
    simp only [driveStep,tickStep]
    split
    · unfold throwIn
      split_ifs with hhandled
      · exact h hhandled
      · trivial
    · exact h
  | ackUpdate work handled =>
    simp only [driveStep,tickStep]
    split
    · unfold throwIn
      split_ifs with hhandled
      · exact h hhandled
      · trivial
    · trivial
  | deadLetter work reason =>
    simp only [driveStep,tickStep]
    split
    · trivial
    · split
      · trivial
      · exact fun hfalse => absurd hfalse Bool.false_ne_true
  | _ => simp only [driveStep,tickStep]; (repeat' split) <;> trivial

theorem Pending.run (h : Pending cfg event attempts d d.point) (hreach : Reaches cfg outcomes now d d') :
    Pending cfg event attempts d' d'.point := by
  obtain ⟨n,rfl⟩ := hreach
  induction n generalizing d with
  | zero => exact h
  | succ n ih => exact ih h.step

end Pending

theorem retry_law {cfg : SubscriberConfig} {outcomes : ℕ → Outcome} {now : ℕ → ℤ} {event : EventRow}
    {rest : List EventRow} {db : Db} {attempts budget : ℕ} (hdb : WorkingDb cfg db)
    (hbind : ∀ s, (cfg.bind (.string s)).isSome = true) (hsource : cfg.backoffMs.source ≠ [])
    (herr : ∀ i err, outcomes i = .rejected err → ∃ s, err = .error s)
    (hattempts : attempts = getAttempts db cfg.cursorId event.eventId)
    (hbudget : budget = max 1 (cfg.maxRetries + 1 - attempts)) :
    (∃ d, Reaches cfg outcomes now (processEvent event rest db) d ∧ Advanced cfg ⟨event,attempts,rest⟩ d ∧
      Settled cfg outcomes budget ⟨event,attempts,rest⟩ (processEvent event rest db) d) ∧
    ∀ d, Reaches cfg outcomes now (processEvent event rest db) d → ∀ work k, d.point = .sleeping work k →
      1 ≤ d.settled ∧ getAttempts d.bus cfg.cursorId event.eventId = attempts + d.settled ∧
        .armed event.eventId (configuredDelay cfg.backoffMs (attempts + d.settled - 1)) ∈ d.events.getLast? ∧
        (configuredDelay cfg.backoffMs (attempts + d.settled - 1)).isSome = true := by
  have hpers : ∀ i err, outcomes i = .rejected err → Persistable cfg err := by
    intro i err hout
    obtain ⟨s,rfl⟩ := herr i err hout
    exact ⟨_,rfl,hbind s⟩
  constructor
  · exact processEvent_settled hdb hattempts hbudget fun i _ _ err hout => hpers i err hout
  · intro d hreach work k hpoint
    have hpending := Pending.run (d := processEvent event rest db) ⟨rfl,rfl,hattempts.symm⟩ hreach
    rw [hpoint] at hpending
    obtain ⟨-,-,hsettled,hwithin,hcount,harmed⟩ := hpending
    have hlast : attempts + d.settled = attempts + d.settled - 1 + 1 := by omega
    refine ⟨hsettled,hcount,?_,configuredDelay_isSome hsource _⟩
    rwa [hlast,sleepMs_normalized hsource (by omega)] at harmed

def textBind : JsValue → Option (Option String)
  | .undefined | .null => some none
  | .string s => some (some s)
  | _ => none

def sampleSubscriber : SubscriberConfig where
  toSubscribeOpts := { sampleOpts with maxRetries := 2 }
  backoffMs := .table [100]
  hasOnLag := false
  bind := textBind

def registeredDb : Db where
  __ := Db.empty
  subscriptions := KeyedTable.empty.insertOrIgnore sampleSubscription
  cursors := KeyedTable.empty.insertOrIgnore sampleCursor

theorem registeredDb_working : WorkingDb sampleSubscriber registeredDb where
  cursor := ⟨sampleCursor,List.mem_singleton_self _,rfl,rfl⟩
  subscription := rfl

def failsOnce : ℕ → Outcome
  | 0 => .rejected (.error "handler failed")
  | _ => .resolved

theorem retry_law_fails_once :
    (∃ d, Reaches sampleSubscriber failsOnce (fun _ => 0) (processEvent (expiredSample.row 1) [] registeredDb) d ∧
      Advanced sampleSubscriber ⟨expiredSample.row 1,0,[]⟩ d ∧
      Settled sampleSubscriber failsOnce 3 ⟨expiredSample.row 1,0,[]⟩
        (processEvent (expiredSample.row 1) [] registeredDb) d) ∧
    ∀ d, Reaches sampleSubscriber failsOnce (fun _ => 0) (processEvent (expiredSample.row 1) [] registeredDb) d →
      ∀ work k, d.point = .sleeping work k →
        1 ≤ d.settled ∧ getAttempts d.bus "c1" 1 = 0 + d.settled ∧
          .armed 1 (configuredDelay (.table [100]) (0 + d.settled - 1)) ∈ d.events.getLast? ∧
          (configuredDelay (.table [100]) (0 + d.settled - 1)).isSome = true := by
  refine retry_law registeredDb_working (fun _ => rfl) (by decide) (fun i err hout => ?_) rfl rfl
  match i with
  | 0 =>
    cases hout
    exact ⟨_,rfl⟩
  | _ + 1 => cases hout

section Poison

variable {cfg : SubscriberConfig} {outcomes : ℕ → Outcome} {now : ℕ → ℤ} {event : EventRow}
variable {rest : List EventRow} {db : Db}

theorem fault_not_advanced {attempts budget i : ℕ} (hdb : WorkingDb cfg db)
    (hattempts : attempts = getAttempts db cfg.cursorId event.eventId)
    (hbudget : budget = max 1 (cfg.maxRetries + 1 - attempts)) (hi : i < budget)
    (hbefore : ∀ j < i, outcomes j ≠ .resolved) {err : Thrown} (hout : outcomes i = .rejected err)
    (herr : ¬ Persistable cfg err) {d : Drive} (hreach : Reaches cfg outcomes now (processEvent event rest db) d) :
    d.point ≠ .next rest := by
  intro hpoint
  have hstart := @reaches_attempt cfg outcomes now event rest db
  rw [← hattempts] at hstart
  obtain ⟨d',hreach',hcatch⟩ := reaches_fault hdb (d := ⟨.attempt ⟨event,attempts,rest⟩,db,0,1,[]⟩) rfl hbudget hi
    (fun j hj => by rw [Nat.zero_add]; exact hbefore j hj) (by rw [Nat.zero_add]; exact hout) herr
  have heq := reaches_unique hreach (hstart.trans hreach') (by rw [driveStep,hpoint]) (by rw [driveStep,hcatch])
  rw [heq,hcatch] at hpoint
  cases hpoint

theorem recordReplayFailure_mem {row : DeadLetterRow} (hrow : row ∈ db.deadLetters) (text : Option String) :
    ∃ r ∈ (recordReplayFailure db row.dlId text).deadLetters, r.dlId = row.dlId ∧
      r.replayRequestedAt = none ∧ r.attempts = row.attempts + 1 := by
  refine ⟨{ row with replayRequestedAt := none, attempts := row.attempts + 1, lastError := text },?_,rfl,rfl,rfl⟩
  simp only [recordReplayFailure,updateDeadLetter,KeyedTable.mem_map]
  exact ⟨row,hrow,if_pos rfl⟩

def ReplayCleared (cfg : SubscriberConfig) (now : ℕ → ℤ) (db : Db) (row : DeadLetterRow) (err : Thrown) : Prop :=
  ∃ d, Reaches cfg (fun _ => .rejected err) now ⟨.replay row,db,0,0,[]⟩ d ∧ d.point = .drained ∧
    ∃ r ∈ d.bus.deadLetters, r.dlId = row.dlId ∧ r.replayRequestedAt = none ∧ r.attempts = row.attempts + 1

theorem replayCleared_iff {row : DeadLetterRow} (hrow : row ∈ db.deadLetters) {err : Thrown} :
    ReplayCleared cfg now db row err ↔ ∃ message, err.message = some message ∧ (cfg.bind message).isSome = true := by
  constructor
  · rintro ⟨d,⟨n,rfl⟩,hpoint,-⟩
    by_contra hnot
    have hbind : err.message.bind cfg.bind = none := by
      refine Option.eq_none_iff_forall_not_mem.mpr fun text htext => hnot ?_
      obtain ⟨message,hmessage,hbound⟩ := Option.bind_eq_some_iff.mp htext
      exact ⟨message,hmessage,by rw [hbound]; rfl⟩
    match n with
    | 0 | 1 => cases hpoint
    | n + 2 =>
      have hcatch : drive cfg (fun _ => .rejected err) now 2 ⟨.replay row,db,0,0,[]⟩ =
          ⟨.catching .uncaught,db,0,2,[]⟩ := by
        simp [drive,driveStep,tickStep,goto,hbind]
      rw [Nat.add_comm,drive_add,hcatch,drive_stopped rfl] at hpoint
      cases hpoint
  · rintro ⟨message,hmessage,hbind⟩
    obtain ⟨text,htext⟩ := Option.isSome_iff_exists.mp hbind
    refine ⟨⟨.drained,recordReplayFailure db row.dlId text,0,2,[]⟩,⟨2,?_⟩,rfl,
      recordReplayFailure_mem hrow text⟩
    simp [drive,driveStep,tickStep,goto,TickEnv.statement,hmessage,htext]

theorem poison_event_iff {attempts budget : ℕ} (hdb : WorkingDb cfg db)
    (hattempts : attempts = getAttempts db cfg.cursorId event.eventId)
    (hbudget : budget = max 1 (cfg.maxRetries + 1 - attempts)) {row : DeadLetterRow}
    (hrow : row ∈ db.deadLetters) {err : Thrown} :
    ((∃ d, Reaches cfg outcomes now (processEvent event rest db) d ∧ Advanced cfg ⟨event,attempts,rest⟩ d ∧
        Settled cfg outcomes budget ⟨event,attempts,rest⟩ (processEvent event rest db) d) ↔
      ∀ i < budget, (∀ j < i, outcomes j ≠ .resolved) → ∀ e, outcomes i = .rejected e → Persistable cfg e) ∧
    (ReplayCleared cfg now db row err ↔
      ∃ message, err.message = some message ∧ (cfg.bind message).isSome = true) := by
  refine ⟨⟨?_,processEvent_settled hdb hattempts hbudget⟩,replayCleared_iff hrow⟩
  rintro ⟨d,hreach,hadv,-⟩ i hi hbefore e hout
  by_contra herr
  exact fault_not_advanced hdb hattempts hbudget hi hbefore hout herr hreach hadv.point

end Poison

def alwaysNull : ℕ → Outcome := fun _ => .rejected .null

theorem null_rejection_not_counted :
    ¬ ∀ cfg outcomes now event rest db attempts budget, WorkingDb cfg db →
      attempts = getAttempts db cfg.cursorId event.eventId →
      budget = max 1 (cfg.maxRetries + 1 - attempts) →
      ∃ d, Reaches cfg outcomes now (processEvent event rest db) d ∧ Advanced cfg ⟨event,attempts,rest⟩ d ∧
        Settled cfg outcomes budget ⟨event,attempts,rest⟩ (processEvent event rest db) d := by
  intro hall
  obtain ⟨d,hreach,hadv,-⟩ := hall sampleSubscriber alwaysNull (fun _ => 0) (expiredSample.row 1) [] registeredDb
    0 3 registeredDb_working rfl rfl
  refine fault_not_advanced registeredDb_working rfl rfl (by decide : 0 < 3) (by simp) rfl ?_ hreach hadv.point
  rintro ⟨message,hmessage,-⟩
  cases hmessage

def parkedRow : DeadLetterRow :=
  { deadLetterOf registeredDb "c1" "s1" (expiredSample.row 1) 3 none 0 with replayRequestedAt := some 5 }

def parkedDb : Db := appendDeadLetter registeredDb parkedRow rfl

def alwaysPrimitive : ℕ → Outcome := fun _ => .rejected .primitive

theorem poison_event_of_primitives :
    (∃ d, Reaches sampleSubscriber alwaysPrimitive (fun _ => 0) (processEvent (expiredSample.row 1) [] parkedDb) d ∧
      Advanced sampleSubscriber ⟨expiredSample.row 1,0,[]⟩ d ∧
      Settled sampleSubscriber alwaysPrimitive 3 ⟨expiredSample.row 1,0,[]⟩
        (processEvent (expiredSample.row 1) [] parkedDb) d) ∧
    ReplayCleared sampleSubscriber (fun _ => 0) parkedDb parkedRow .primitive := by
  have hdb : WorkingDb sampleSubscriber parkedDb := registeredDb_working.same rfl rfl
  have h := @poison_event_iff sampleSubscriber alwaysPrimitive (fun _ => 0) (expiredSample.row 1) [] parkedDb 0 3
    hdb rfl rfl parkedRow (List.mem_singleton_self _) .primitive
  refine ⟨h.1.mpr fun i _ _ e hout => ?_,h.2.mpr ⟨_,rfl,rfl⟩⟩
  cases hout
  exact ⟨_,rfl,rfl⟩

end WickedBus
