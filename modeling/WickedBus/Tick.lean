import WickedBus.Subscribe

namespace WickedBus

open WickedBus.Filter (Text)

inductive JsValue where
  | undefined
  | null
  | boolean (b : Bool)
  | number (x : ℚ)
  | bigint (n : ℤ)
  | string (s : String)
  | symbol
  | object
  deriving DecidableEq, Repr

def JsValue.orNull : JsValue → JsValue
  | .undefined => .null
  | v => v

inductive Thrown where
  | undefined
  | null
  | primitive
  | object (message : Option JsValue)
  deriving DecidableEq, Repr

def Thrown.message : Thrown → Option JsValue
  | .undefined | .null => none
  | .primitive => some .undefined
  | .object message => message

def Thrown.error (message : String) : Thrown := .object (some (.string message))

inductive BackoffMs where
  | absent
  | constant (ms : ℚ)
  | table (ms : List ℚ)
  deriving DecidableEq, Repr

def defaultBackoffMs : ℚ := 1000

def BackoffMs.source : BackoffMs → List ℚ
  | .absent => [defaultBackoffMs]
  | .constant ms => [ms]
  | .table ms => ms

def normalizeBackoff (input : BackoffMs) (maxRetries : ℕ) : List (Option ℚ) :=
  if maxRetries = 0 then []
  else if input.source = [] then List.replicate maxRetries (some defaultBackoffMs)
  else (List.range maxRetries).map (fun i => input.source[min i (input.source.length - 1)]?)

def sleepMs (backoffMs : List (Option ℚ)) (attempts : ℕ) : Option ℚ :=
  (backoffMs[min (attempts - 1) (backoffMs.length - 1)]?).join

structure SubscriberConfig extends SubscribeOpts where
  backoffMs : BackoffMs
  hasOnLag : Bool
  bind : JsValue → Option (Option String)

structure SqliteError where
  code : String
  message : String
  deriving DecidableEq, Repr

inductive StatementError where
  | sqlite (e : SqliteError)
  | bus (e : BusError)
  deriving DecidableEq, Repr

def StatementError.message : StatementError → String
  | .sqlite e => e.message
  | .bus _ => "Cursor not found or deregistered"

inductive LoopError where
  | statement (e : StatementError)
  | uncaught
  deriving DecidableEq, Repr

def connectionFatal : List String := ["SQLITE_CORRUPT","SQLITE_NOTADB","SQLITE_IOERR"]

def LoopError.isConnectionFatal : LoopError → Bool
  | .statement (.sqlite e) => connectionFatal.any (fun p => p.toList.isPrefixOf e.code.toList)
  | _ => false

inductive Report where
  | unusable (err : LoopError)
  | behindWindow (lastEventId floor : ℤ)
  | failure (err : LoopError)
  deriving DecidableEq, Repr

inductive Outcome where
  | resolved
  | rejected (err : Thrown)
  deriving DecidableEq, Repr

structure TickEnv where
  failure : Option SqliteError
  outcome : Outcome
  now : ℤ
  deriving DecidableEq, Repr

def TickEnv.statement {α : Type} (env : TickEnv) (x : Except StatementError α) : Except StatementError α :=
  match env.failure with
  | some e => .error (.sqlite e)
  | none => x

def foreignKey {α : Type} : Option α → Except StatementError α
  | none => .error (.sqlite ⟨"SQLITE_CONSTRAINT_FOREIGNKEY","FOREIGN KEY constraint failed"⟩)
  | some a => .ok a

def ofBus {α : Type} (x : Except BusError α) : Except StatementError α := x.mapError .bus

theorem statement_ok {α : Type} {env : TickEnv} {x : Except StatementError α} {a : α}
    (h : env.statement x = .ok a) : env.failure = none ∧ x = .ok a := by
  unfold TickEnv.statement at h
  split at h
  · cases h
  · rename_i hfail
    exact ⟨hfail,h⟩

theorem statement_error {α : Type} {env : TickEnv} {x : Except StatementError α} {e : StatementError}
    (h : env.statement x = .error e) : (∃ s, e = .sqlite s) ∨ x = .error e := by
  unfold TickEnv.statement at h
  split at h
  · exact .inl ⟨_,(Except.error.inj h).symm⟩
  · exact .inr h

theorem foreignKey_ok {α : Type} {x : Option α} {a : α} (h : foreignKey x = .ok a) : x = some a := by
  cases x with
  | none => cases h
  | some b => exact congrArg some (Except.ok.inj h)

theorem ofBus_ok {α : Type} {x : Except BusError α} {a : α} (h : ofBus x = .ok a) : x = .ok a := by
  cases x with
  | error e => cases h
  | ok b => exact congrArg Except.ok (Except.ok.inj h)

theorem ofBus_error {α : Type} {x : Except BusError α} {e : StatementError} (h : ofBus x = .error e) :
    ∃ b, e = .bus b ∧ x = .error b := by
  cases x with
  | error b => exact ⟨b,(Except.error.inj h).symm,rfl⟩
  | ok a => cases h

def recordReplayFailure (db : Db) (dlId : ℤ) (lastError : Option String) : Db :=
  updateDeadLetter db dlId
    (fun d => { d with
      replayRequestedAt := none
      attempts := d.attempts + 1
      lastError := lastError })
    (fun _ => rfl)

inductive LoopEvent where
  | started
  | stopped
  | replayed (dlId : ℤ)
  | invoked (eventId : ℤ)
  | resolved (eventId : ℤ)
  | rejected (eventId : ℤ)
  | recorded (eventId : ℤ) (attempts : ℕ)
  | armed (eventId : ℤ) (delay : Option ℚ)
  | deadLettered (eventId : ℤ) (attempts : ℕ)
  | acked (eventId : ℤ)
  | reanchored (floor : ℤ)
  | reported (report : Report)
  deriving DecidableEq, Repr

inductive TickPoint where
  | drain
  | replay (row : DeadLetterRow)
  | replayDelete (row : DeadLetterRow)
  | replayCaught (row : DeadLetterRow) (err : Thrown)
  | drained
  | selectCursor
  | selectMin (cursor : CursorRow)
  | selectFilter (cursor : CursorRow)
  | selectEvents (filter : Text) (lastEventId : ℤ)
  | next (batch : List EventRow)
  | readAttempts (event : EventRow) (rest : List EventRow)
  | attempt (work : Work)
  | handling (work : Work)
  | deleteAttempt (work : Work) (handled : Bool)
  | ackSelect (work : Work) (handled : Bool)
  | ackUpdate (work : Work) (handled : Bool)
  | caught (work : Work) (err : Thrown)
  | upsertAttempt (work : Work) (message : JsValue)
  | sleeping (work : Work) (sleep : ℕ)
  | woken (work : Work) (completed : Bool)
  | deadLetter (work : Work) (reason : JsValue)
  | catching (err : LoopError)
  | reanchor (lastEventId oldest : ℤ)
  | finish
  deriving DecidableEq, Repr

structure TickResult where
  next : Option TickPoint
  bus : Db
  events : List LoopEvent

def goto (db : Db) (point : TickPoint) : TickResult := ⟨some point,db,[]⟩

def throwIn (db : Db) (work : Work) (handled : Bool) (e : StatementError) : TickResult :=
  if handled then goto db (.caught work (.error e.message)) else goto db (.catching (.statement e))

def tickStep (cfg : SubscriberConfig) (env : TickEnv) (stopping : Bool) (sleep : ℕ) (db : Db) :
    TickPoint → TickResult
  | .drain =>
    if stopping then goto db .drained
    else
      match env.statement (.ok (pendingReplay db cfg.cursorId)) with
      | .error e => goto db (.catching (.statement e))
      | .ok none => goto db .drained
      | .ok (some row) => ⟨some (.replay row),db,[.replayed row.dlId]⟩
  | .replay row =>
    match env.outcome with
    | .resolved => goto db (.replayDelete row)
    | .rejected err => goto db (.replayCaught row err)
  | .replayDelete row =>
    match env.statement (.ok (deleteDeadLetter db row.dlId)) with
    | .error e => goto db (.replayCaught row (.error e.message))
    | .ok db' => goto db' .drain
  | .replayCaught row err =>
    match err.message.bind cfg.bind with
    | none => goto db (.catching .uncaught)
    | some lastError =>
      match env.statement (.ok (recordReplayFailure db row.dlId lastError)) with
      | .error e => goto db (.catching (.statement e))
      | .ok db' => goto db' .drained
  | .drained => if stopping then goto db .finish else goto db .selectCursor
  | .selectCursor =>
    match env.statement (ofBus (pollCursor db cfg.cursorId)) with
    | .error e => goto db (.catching (.statement e))
    | .ok cursor => goto db (.selectMin cursor)
  | .selectMin cursor =>
    match env.statement (ofBus (pollWindow db cursor)) with
    | .error e => goto db (.catching (.statement e))
    | .ok _ => goto db (.selectFilter cursor)
  | .selectFilter cursor =>
    match env.statement (ofBus (pollFilter db cursor)) with
    | .error e => goto db (.catching (.statement e))
    | .ok filter => goto db (.selectEvents filter cursor.lastEventId)
  | .selectEvents filter lastEventId =>
    match env.statement (.ok (pollSelect db filter lastEventId (effectiveBatchSize cfg.batchSize))) with
    | .error e => goto db (.catching (.statement e))
    | .ok batch => goto db (.next batch)
  | .next [] => goto db .finish
  | .next (event :: rest) => if stopping then goto db .finish else goto db (.readAttempts event rest)
  | .readAttempts event rest =>
    match env.statement (.ok (getAttempts db cfg.cursorId event.eventId)) with
    | .error e => goto db (.catching (.statement e))
    | .ok attempts => goto db (.attempt ⟨event,attempts,rest⟩)
  | .attempt work =>
    if stopping = true ∧ 0 < work.attempts then goto db (.deadLetter work (.string shutdownReason))
    else ⟨some (.handling work),db,[.invoked work.event.eventId]⟩
  | .handling work =>
    match env.outcome with
    | .resolved => ⟨some (.deleteAttempt work true),db,[.resolved work.event.eventId]⟩
    | .rejected err => ⟨some (.caught work err),db,[.rejected work.event.eventId]⟩
  | .deleteAttempt work handled =>
    match env.statement (.ok (deleteDeliveryAttempt db cfg.cursorId work.event.eventId)) with
    | .error e => throwIn db work handled e
    | .ok db' => goto db' (.ackSelect work handled)
  | .ackSelect work handled =>
    match env.statement (ofBus (pollCursor db cfg.cursorId)) with
    | .error e => throwIn db work handled e
    | .ok _ => goto db (.ackUpdate work handled)
  | .ackUpdate work handled =>
    match env.statement (ofBus (moveCursor db cfg.cursorId work.event.eventId env.now)) with
    | .error e => throwIn db work handled e
    | .ok db' => ⟨some (.next work.rest),db',[.acked work.event.eventId]⟩
  | .caught work err =>
    let work' := { work with attempts := work.attempts + 1 }
    match err.message with
    | none => goto db (.catching .uncaught)
    | some message =>
      if cfg.maxRetries < work'.attempts then goto db (.deadLetter work' message)
      else goto db (.upsertAttempt work' message)
  | .upsertAttempt work message =>
    match cfg.bind message.orNull with
    | none => goto db (.catching .uncaught)
    | some lastError =>
      match env.statement (foreignKey (upsertDeliveryAttempt db
        ⟨cfg.cursorId,work.event.eventId,work.attempts,env.now,lastError⟩)) with
      | .error e => goto db (.catching (.statement e))
      | .ok db' =>
        ⟨some (.sleeping work sleep),db',
          [.recorded work.event.eventId work.attempts,
            .armed work.event.eventId (sleepMs (normalizeBackoff cfg.backoffMs cfg.maxRetries) work.attempts)]⟩
  | .sleeping work k => goto db (.sleeping work k)
  | .woken work completed =>
    if completed then goto db (.attempt work) else goto db (.deadLetter work (.string shutdownReason))
  | .deadLetter work reason =>
    match cfg.bind reason.orNull with
    | none => goto db (.catching .uncaught)
    | some lastError =>
      match env.statement (foreignKey (moveToDeadLetter db cfg.cursorId cfg.subscriptionId work.event
        work.attempts lastError env.now)) with
      | .error e => goto db (.catching (.statement e))
      | .ok db' =>
        ⟨some (.deleteAttempt work false),db',[.deadLettered work.event.eventId work.attempts]⟩
  | .catching err =>
    if err.isConnectionFatal then ⟨some .finish,db,[.reported (.unusable err)]⟩
    else
      match err with
      | .statement (.bus (.cursorBehindTtlWindow lastEventId oldest)) => goto db (.reanchor lastEventId oldest)
      | err => ⟨some .finish,db,[.reported (.failure err)]⟩
  | .reanchor lastEventId oldest =>
    match env.statement (ofBus (reanchorCursor db cfg.cursorId (oldest - 1) env.now)) with
    | .error e => ⟨some .finish,db,[.reported (.failure (.statement e))]⟩
    | .ok db' =>
      ⟨some .finish,db',[.reanchored (oldest - 1),.reported (.behindWindow lastEventId (oldest - 1))]⟩
  | .finish => ⟨none,db,[]⟩

theorem tickStep_batch {cfg : SubscriberConfig} {env : TickEnv} {stopping : Bool} {sleep : ℕ} {db : Db}
    (batch : List EventRow) : tickStep cfg env stopping sleep db (.next batch) =
      match batch with
      | [] => goto db .finish
      | event :: rest => if stopping then goto db .finish else goto db (.readAttempts event rest) := by
  cases batch <;> rfl

end WickedBus
