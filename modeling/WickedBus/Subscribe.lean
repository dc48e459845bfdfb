import WickedBus.Dlq
import WickedBus.Poll

namespace WickedBus

open WickedBus.Filter (Text)

structure SubscribeOpts where
  cursorId : String
  subscriptionId : String
  batchSize : ℕ
  maxRetries : ℕ
  deriving DecidableEq, Repr

structure Work where
  event : EventRow
  attempts : ℕ
  rest : List EventRow
  deriving DecidableEq, Repr

inductive LoopPoint where
  | idle
  | drain
  | replay (row : DeadLetterRow)
  | replayDelete (row : DeadLetterRow)
  | replayFail (row : DeadLetterRow) (message : String)
  | selectCursor
  | selectMin (cursor : CursorRow)
  | selectFilter (cursor : CursorRow)
  | selectEvents (filter : Text) (lastEventId : ℤ)
  | reanchor (floor : ℤ)
  | next (batch : List EventRow)
  | readAttempts (event : EventRow) (rest : List EventRow)
  | attempt (work : Work)
  | deleteAttempt (work : Work) (handled : Bool)
  | ackSelect (work : Work) (handled : Bool)
  | ackUpdate (work : Work) (handled : Bool)
  | upsertAttempt (work : Work) (message : String)
  | backoff (work : Work)
  | deadLetter (work : Work) (reason : String)
  deriving DecidableEq, Repr

structure Loop where
  point : LoopPoint
  stopping : Bool
  deriving DecidableEq, Repr

structure LoopEnv where
  fails : Bool
  resolves : Bool
  message : String
  now : ℤ
  deriving DecidableEq, Repr

structure LoopResult where
  next : Option Loop
  bus : Db
  resolved : List ℤ
  deadLettered : List ℤ

def shutdownReason : String := "shutdown during backoff"

def Loop.goto (l : Loop) (point : LoopPoint) : Option Loop := some { l with point := point }

def Loop.endTick (l : Loop) : Option Loop := if l.stopping then none else l.goto .idle

def caught (opts : SubscribeOpts) (work : Work) (message : String) : LoopPoint :=
  let work' := { work with attempts := work.attempts + 1 }
  if opts.maxRetries < work'.attempts then .deadLetter work' message else .upsertAttempt work' message

def Loop.throwIn (l : Loop) (opts : SubscribeOpts) (work : Work) (handled : Bool) (message : String) :
    Option Loop :=
  if handled then l.goto (caught opts work message) else l.endTick

def loopStep (opts : SubscribeOpts) (env : LoopEnv) (db : Db) (l : Loop) : LoopResult :=
  match l.point with
  | .idle => ⟨l.goto .drain,db,[],[]⟩
  | .drain =>
    if l.stopping || env.fails then ⟨l.endTick,db,[],[]⟩
    else
      match pendingReplay db opts.cursorId with
      | none => ⟨l.goto .selectCursor,db,[],[]⟩
      | some row => ⟨l.goto (.replay row),db,[],[]⟩
  | .replay row =>
    if env.resolves then ⟨l.goto (.replayDelete row),db,[],[]⟩
    else ⟨l.goto (.replayFail row env.message),db,[],[]⟩
  | .replayDelete row =>
    if env.fails then ⟨l.goto (.replayFail row env.message),db,[],[]⟩
    else ⟨l.goto .drain,deleteDeadLetter db row.dlId,[],[]⟩
  | .replayFail row message =>
    if env.fails then ⟨l.endTick,db,[],[]⟩
    else
      let db' := failReplay db row.dlId message
      if l.stopping then ⟨l.endTick,db',[],[]⟩ else ⟨l.goto .selectCursor,db',[],[]⟩
  | .selectCursor =>
    match env.fails, pollCursor db opts.cursorId with
    | false, .ok cursor => ⟨l.goto (.selectMin cursor),db,[],[]⟩
    | _, _ => ⟨l.endTick,db,[],[]⟩
  | .selectMin cursor =>
    match env.fails, pollWindow db cursor with
    | false, .ok _ => ⟨l.goto (.selectFilter cursor),db,[],[]⟩
    | false, .error (.cursorBehindTtlWindow _ oldest) => ⟨l.goto (.reanchor (oldest - 1)),db,[],[]⟩
    | _, _ => ⟨l.endTick,db,[],[]⟩
  | .selectFilter cursor =>
    match env.fails, pollFilter db cursor with
    | false, .ok filter => ⟨l.goto (.selectEvents filter cursor.lastEventId),db,[],[]⟩
    | _, _ => ⟨l.endTick,db,[],[]⟩
  | .selectEvents filter lastEventId =>
    if env.fails then ⟨l.endTick,db,[],[]⟩
    else
      ⟨l.goto (.next (pollSelect db filter lastEventId (effectiveBatchSize opts.batchSize))),db,[],[]⟩
  | .reanchor floor =>
    match env.fails, reanchorCursor db opts.cursorId floor env.now with
    | false, .ok db' => ⟨l.endTick,db',[],[]⟩
    | _, _ => ⟨l.endTick,db,[],[]⟩
  | .next [] => ⟨l.endTick,db,[],[]⟩
  | .next (event :: rest) =>
    if l.stopping then ⟨l.endTick,db,[],[]⟩ else ⟨l.goto (.readAttempts event rest),db,[],[]⟩
  | .readAttempts event rest =>
    if env.fails then ⟨l.endTick,db,[],[]⟩
    else ⟨l.goto (.attempt ⟨event,getAttempts db opts.cursorId event.eventId,rest⟩),db,[],[]⟩
  | .attempt work =>
    if l.stopping = true ∧ 0 < work.attempts then ⟨l.goto (.deadLetter work shutdownReason),db,[],[]⟩
    else if env.resolves then ⟨l.goto (.deleteAttempt work true),db,[work.event.eventId],[]⟩
    else ⟨l.goto (caught opts work env.message),db,[],[]⟩
  | .deleteAttempt work handled =>
    if env.fails then ⟨l.throwIn opts work handled env.message,db,[],[]⟩
    else
      ⟨l.goto (.ackSelect work handled),
        deleteDeliveryAttempt db opts.cursorId work.event.eventId,[],[]⟩
  | .ackSelect work handled =>
    match env.fails, pollCursor db opts.cursorId with
    | false, .ok _ => ⟨l.goto (.ackUpdate work handled),db,[],[]⟩
    | _, _ => ⟨l.throwIn opts work handled env.message,db,[],[]⟩
  | .ackUpdate work handled =>
    match env.fails, moveCursor db opts.cursorId work.event.eventId env.now with
    | false, .ok db' => ⟨l.goto (.next work.rest),db',[],[]⟩
    | _, _ => ⟨l.throwIn opts work handled env.message,db,[],[]⟩
  | .upsertAttempt work message =>
    match env.fails, upsertDeliveryAttempt db
      ⟨opts.cursorId,work.event.eventId,work.attempts,env.now,some message⟩ with
    | false, some db' => ⟨l.goto (.backoff work),db',[],[]⟩
    | _, _ => ⟨l.endTick,db,[],[]⟩
  | .backoff work =>
    if l.stopping then ⟨l.goto (.deadLetter work shutdownReason),db,[],[]⟩
    else ⟨l.goto (.attempt work),db,[],[]⟩
  | .deadLetter work reason =>
    match env.fails, moveToDeadLetter db opts.cursorId opts.subscriptionId work.event work.attempts
      (some reason) env.now with
    | false, some db' => ⟨l.goto (.deleteAttempt work false),db',[],[work.event.eventId]⟩
    | _, _ => ⟨l.endTick,db,[],[]⟩

inductive LoopEffect (opts : SubscribeOpts) (now : ℤ) (db : Db) : LoopPoint → Db → Prop
  | none {point : LoopPoint} : LoopEffect opts now db point db
  | side {point : LoopPoint} {db' : Db} (same : SameEvents db db') (cursors : db'.cursors = db.cursors)
      (subscriptions : db'.subscriptions = db.subscriptions) : LoopEffect opts now db point db'
  | ack (work : Work) (handled : Bool) :
      LoopEffect opts now db (.ackUpdate work handled)
        (updateCursors db opts.cursorId work.event.eventId now)
  | reanchor (floor : ℤ) :
      LoopEffect opts now db (.reanchor floor) (updateCursors db opts.cursorId floor now)

theorem loopStep_effect (opts : SubscribeOpts) (env : LoopEnv) (db : Db) (l : Loop) :
    LoopEffect opts env.now db l.point (loopStep opts env db l).bus := by
  obtain ⟨point,stopping⟩ := l
  cases point with
  | replayDelete row =>
    simp only [loopStep]
    split_ifs
    · exact .none
    · exact .side ⟨rfl,rfl,rfl⟩ rfl rfl
  | replayFail row message =>
    simp only [loopStep]
    split_ifs
    · exact .none
    · exact .side ⟨rfl,rfl,rfl⟩ rfl rfl
    · exact .side ⟨rfl,rfl,rfl⟩ rfl rfl
  | deleteAttempt work handled =>
    simp only [loopStep]
    split_ifs
    · exact .none
    · exact .side ⟨rfl,rfl,rfl⟩ rfl rfl
  | reanchor floor =>
    simp only [loopStep]
    split
    · rename_i db' _ hdb
      rw [moveCursor_ok (reanchorCursor_ok hdb)]
      exact .reanchor floor
    · exact .none
  | ackUpdate work handled =>
    simp only [loopStep]
    split
    · rename_i db' _ hdb
      rw [moveCursor_ok hdb]
      exact .ack work handled
    · exact .none
  | upsertAttempt work message =>
    simp only [loopStep]
    split
    · rename_i db' _ hdb
      rw [upsertDeliveryAttempt_ok hdb]
      exact .side ⟨rfl,rfl,rfl⟩ rfl rfl
    · exact .none
  | deadLetter work reason =>
    simp only [loopStep]
    split
    · rename_i db' _ hdb
      rw [moveToDeadLetter_ok hdb]
      exact .side ⟨rfl,rfl,rfl⟩ rfl rfl
    · exact .none
  | next batch =>
    cases batch with
    | nil => exact .none
    | cons event rest =>
      simp only [loopStep]
      split_ifs <;> exact .none
  | idle => exact .none
  | _ => simp only [loopStep]; (repeat' split) <;> exact .none

theorem LoopEffect.events {opts : SubscribeOpts} {now : ℤ} {db db' : Db} {point : LoopPoint}
    (h : LoopEffect opts now db point db') : SameEvents db db' := by
  cases h with
  | none => exact ⟨rfl,rfl,rfl⟩
  | side same _ _ => exact same
  | ack work handled => exact ⟨rfl,rfl,rfl⟩
  | reanchor floor => exact ⟨rfl,rfl,rfl⟩

def LoopPoint.plain : LoopPoint → Bool
  | .idle | .drain | .replay _ | .replayDelete _ | .replayFail _ _ | .selectCursor => true
  | _ => false

def LoopPoint.handles : LoopPoint → Bool
  | .next _ | .readAttempts _ _ | .attempt _ | .deleteAttempt _ _ | .ackSelect _ _ | .ackUpdate _ _
  | .upsertAttempt _ _ | .backoff _ | .deadLetter _ _ => true
  | _ => false

def LoopPoint.batch : LoopPoint → List EventRow
  | .next batch => batch
  | .readAttempts event rest => event :: rest
  | .attempt work | .deleteAttempt work _ | .ackSelect work _ | .ackUpdate work _
  | .upsertAttempt work _ | .backoff work | .deadLetter work _ => work.event :: work.rest
  | _ => []

def LoopPoint.done : LoopPoint → Option EventRow
  | .deleteAttempt work _ | .ackSelect work _ | .ackUpdate work _ => some work.event
  | _ => none

inductive LoopMove (opts : SubscribeOpts) (db : Db) (added : List ℤ) : LoopPoint → LoopPoint → Prop
  | plain {p q : LoopPoint} (h : q.plain = true) : LoopMove opts db added p q
  | keep {p q : LoopPoint} (hq : q.handles = true) (hbatch : q.batch = p.batch)
      (hdone : ∀ e ∈ q.done, e ∈ p.done ∨ e.eventId ∈ added) : LoopMove opts db added p q
  | cursor {cursor : CursorRow} (h : pollCursor db opts.cursorId = .ok cursor) :
      LoopMove opts db added .selectCursor (.selectMin cursor)
  | window (cursor : CursorRow) : LoopMove opts db added (.selectMin cursor) (.selectFilter cursor)
  | behind {cursor : CursorRow} {last oldest : ℤ}
      (h : pollWindow db cursor = .error (.cursorBehindTtlWindow last oldest)) :
      LoopMove opts db added (.selectMin cursor) (.reanchor (oldest - 1))
  | filter {cursor : CursorRow} {filter : Text} (h : pollFilter db cursor = .ok filter) :
      LoopMove opts db added (.selectFilter cursor) (.selectEvents filter cursor.lastEventId)
  | select (filter : Text) (lastEventId : ℤ) (n : ℕ) :
      LoopMove opts db added (.selectEvents filter lastEventId)
        (.next (pollSelect db filter lastEventId n))
  | acked (work : Work) (handled : Bool) :
      LoopMove opts db added (.ackUpdate work handled) (.next work.rest)

section Move

variable {opts : SubscribeOpts} {env : LoopEnv} {db : Db} {l l' : Loop} {added : List ℤ}

theorem endTick_move {p : LoopPoint} (h : l.endTick = some l') : LoopMove opts db added p l'.point := by
  unfold Loop.endTick at h
  split_ifs at h
  cases h
  exact .plain rfl

theorem caught_move {p : LoopPoint} (work : Work) (message : String)
    (hp : p.batch = work.event :: work.rest) : LoopMove opts db added p (caught opts work message) := by
  unfold caught
  simp only
  split_ifs <;> exact .keep rfl hp.symm (by simp [LoopPoint.done])

theorem throwIn_move {p : LoopPoint} {work : Work} {handled : Bool} {message : String}
    (hp : p.batch = work.event :: work.rest) (h : l.throwIn opts work handled message = some l') :
    LoopMove opts db added p l'.point := by
  unfold Loop.throwIn at h
  split_ifs at h
  · cases h
    exact caught_move work message hp
  · exact endTick_move h

theorem loopStep_move (h : (loopStep opts env db l).next = some l') :
    LoopMove opts db ((loopStep opts env db l).resolved ++ (loopStep opts env db l).deadLettered)
      l.point l'.point := by
  obtain ⟨point,stopping⟩ := l
  cases point with
  | idle =>
    cases h
    exact .plain rfl
  | drain =>
    simp only [loopStep] at h
    repeat' split at h
    · exact endTick_move h
    · cases h
      exact .plain rfl
    · cases h
      exact .plain rfl
  | replay row | replayDelete row =>
    simp only [loopStep] at h
    split at h <;> cases h <;> exact .plain rfl
  | replayFail row message =>
    simp only [loopStep] at h
    repeat' split at h
    · exact endTick_move h
    · exact endTick_move h
    · cases h
      exact .plain rfl
  | selectCursor =>
    simp only [loopStep] at h
    split at h
    · cases h
      exact .cursor ‹_›
    · exact endTick_move h
  | selectMin cursor =>
    simp only [loopStep] at h
    split at h
    · cases h
      exact .window cursor
    · cases h
      exact .behind ‹_›
    · exact endTick_move h
  | selectFilter cursor =>
    simp only [loopStep] at h
    split at h
    · cases h
      exact .filter ‹_›
    · exact endTick_move h
  | selectEvents filter lastEventId =>
    simp only [loopStep] at h
    split at h
    · exact endTick_move h
    · cases h
      exact .select filter lastEventId _
  | reanchor floor =>
    simp only [loopStep] at h
    split at h <;> exact endTick_move h
  | next batch =>
    cases batch with
    | nil => exact endTick_move h
    | cons event rest =>
      simp only [loopStep] at h
      split at h
      · exact endTick_move h
      · cases h
        exact .keep rfl rfl (by simp [LoopPoint.done])
  | readAttempts event rest =>
    simp only [loopStep] at h
    split at h
    · exact endTick_move h
    · cases h
      exact .keep rfl rfl (by simp [LoopPoint.done])
  | attempt work =>
    simp only [loopStep] at h ⊢
    repeat' split at h
    · cases h
      exact .keep rfl rfl (by simp [LoopPoint.done])
    · rename_i hstop hres
      cases h
      rw [if_neg hstop,if_pos hres]
      exact .keep rfl rfl (by simp [LoopPoint.done])
    · cases h
      exact caught_move work _ rfl
  | deleteAttempt work handled =>
    simp only [loopStep] at h
    split at h
    · exact throwIn_move rfl h
    · cases h
      exact .keep rfl rfl (by simp [LoopPoint.done])
  | ackSelect work handled =>
    simp only [loopStep] at h
    split at h
    · cases h
      exact .keep rfl rfl (by simp [LoopPoint.done])
    · exact throwIn_move rfl h
  | ackUpdate work handled =>
    simp only [loopStep] at h
    split at h
    · cases h
      exact .acked work handled
    · exact throwIn_move rfl h
  | upsertAttempt work message =>
    simp only [loopStep] at h
    split at h
    · cases h
      exact .keep rfl rfl (by simp [LoopPoint.done])
    · exact endTick_move h
  | backoff work =>
    simp only [loopStep] at h
    split at h <;> cases h <;> exact .keep rfl rfl (by simp [LoopPoint.done])
  | deadLetter work reason =>
    simp only [loopStep] at h ⊢
    split at h
    · cases h
      exact .keep rfl rfl (by simp [LoopPoint.done])
    · exact endTick_move h

end Move

end WickedBus
