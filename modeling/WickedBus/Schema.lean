import WickedBus.Foundation.KeyedTable
import WickedBus.Filter

namespace WickedBus

open WickedBus.Filter (Text)

def maxSafeInteger : ℤ := 2 ^ 53 - 1

structure EventRow where
  eventId : ℤ
  eventType : Text
  domain : Text
  subdomain : Text
  payload : String
  schemaVersion : String
  idempotencyKey : String
  emittedAt : ℤ
  expiresAt : ℚ
  dedupExpiresAt : ℚ
  metadata : Option String
  parentEventId : Option ℤ
  sessionId : Option String
  correlationId : Option String
  producerId : Option String
  originNodeId : Option String
  registrySchemaVersion : Option ℤ
  payloadCasSha : Option String
  deriving DecidableEq, Repr

def EventRow.matchesSql (filter : Text) (e : EventRow) : Bool :=
  WickedBus.Filter.whereHolds (WickedBus.Filter.buildFilterSql filter) e.eventType e.domain

def EventRow.fixedPart (e : EventRow) : EventRow := { e with idempotencyKey := "" }

section FixedPart

variable {e r : EventRow}

theorem eventId_of_fixedPart (h : e.fixedPart = r.fixedPart) : e.eventId = r.eventId :=
  (congrArg EventRow.eventId h :)

theorem emittedAt_of_fixedPart (h : e.fixedPart = r.fixedPart) : e.emittedAt = r.emittedAt :=
  (congrArg EventRow.emittedAt h :)

theorem expiresAt_of_fixedPart (h : e.fixedPart = r.fixedPart) : e.expiresAt = r.expiresAt :=
  (congrArg EventRow.expiresAt h :)

theorem payload_of_fixedPart (h : e.fixedPart = r.fixedPart) : e.payload = r.payload :=
  (congrArg EventRow.payload h :)

theorem payloadCasSha_of_fixedPart (h : e.fixedPart = r.fixedPart) : e.payloadCasSha = r.payloadCasSha :=
  (congrArg EventRow.payloadCasSha h :)

end FixedPart

inductive Role where
  | provider | subscriber
  deriving DecidableEq, Repr

structure SubscriptionRow where
  subscriptionId : String
  plugin : String
  role : Role
  eventTypeFilter : Text
  schemaVersion : Option String
  registeredAt : ℤ
  deregisteredAt : Option ℤ
  deriving DecidableEq, Repr

structure CursorRow where
  cursorId : String
  subscriptionId : String
  lastEventId : ℤ
  ackedAt : Option ℤ
  createdAt : ℤ
  deregisteredAt : Option ℤ
  deriving DecidableEq, Repr

structure DeliveryAttemptRow where
  cursorId : String
  eventId : ℤ
  attempts : ℕ
  lastAttemptAt : ℤ
  lastError : Option String
  deriving DecidableEq, Repr

structure DeadLetterRow where
  dlId : ℤ
  cursorId : String
  subscriptionId : String
  eventId : ℤ
  eventType : Text
  domain : Text
  subdomain : Text
  payload : String
  emittedAt : ℤ
  attempts : ℕ
  lastError : Option String
  deadLetteredAt : ℤ
  replayRequestedAt : Option ℤ
  deriving DecidableEq, Repr

abbrev EventTable := KeyedTable EventRow EventRow.eventId

abbrev SubscriptionTable := KeyedTable SubscriptionRow SubscriptionRow.subscriptionId

abbrev CursorTable := KeyedTable CursorRow CursorRow.cursorId

def DeliveryAttemptRow.primaryKey (d : DeliveryAttemptRow) : String ×ₗ ℤ := toLex (d.cursorId,d.eventId)

abbrev DeliveryAttemptTable := KeyedTable DeliveryAttemptRow DeliveryAttemptRow.primaryKey

abbrev DeadLetterTable := KeyedTable DeadLetterRow DeadLetterRow.dlId

structure Db where
  events : EventTable
  eventSeq : ℤ
  subscriptions : SubscriptionTable
  cursors : CursorTable
  deliveryAttempts : DeliveryAttemptTable
  deadLetters : DeadLetterTable
  deadLetterSeq : ℤ
  eventsArchive : Option EventTable
  events_le_seq : ∀ e ∈ events, e.eventId ≤ eventSeq
  deadLetters_le_seq : ∀ d ∈ deadLetters, d.dlId ≤ deadLetterSeq

namespace Db

def empty : Db where
  events := .empty
  eventSeq := 0
  subscriptions := .empty
  cursors := .empty
  deliveryAttempts := .empty
  deadLetters := .empty
  deadLetterSeq := 0
  eventsArchive := none
  events_le_seq := by simp
  deadLetters_le_seq := by simp

def archiveRows (db : Db) : EventTable := db.eventsArchive.getD .empty

def deleteEvents (db : Db) (p : EventRow → Bool) : Db where
  __ := db
  events := db.events.filter (fun e => !p e)
  events_le_seq := fun e he => db.events_le_seq e (KeyedTable.mem_filter.mp he).1

@[simp] theorem mem_deleteEvents {db : Db} {p : EventRow → Bool} {e : EventRow} :
    e ∈ (db.deleteEvents p).events ↔ e ∈ db.events ∧ p e = false := by
  simp [deleteEvents]

def live (db : Db) : Set EventRow := {r | ∃ e ∈ db.events, e.fixedPart = r}

theorem live_deleteEvents {db : Db} {p : EventRow → Bool} (hp : ∀ e, p e = p e.fixedPart) :
    (db.deleteEvents p).live = {r ∈ db.live | p r = false} := by
  ext r
  simp only [live,Set.mem_ofPred_eq,mem_deleteEvents]
  constructor
  · rintro ⟨e,⟨he,hpe⟩,rfl⟩
    exact ⟨⟨e,he,rfl⟩,by rw [← hp,hpe]⟩
  · rintro ⟨⟨e,he,rfl⟩,hpe⟩
    exact ⟨e,⟨he,by rw [hp,hpe]⟩,rfl⟩

structure Frame (db db' : Db) : Prop where
  subscriptions : db'.subscriptions = db.subscriptions
  cursors : db'.cursors = db.cursors
  deliveryAttempts : db'.deliveryAttempts = db.deliveryAttempts
  deadLetters : db'.deadLetters = db.deadLetters
  deadLetterSeq : db'.deadLetterSeq = db.deadLetterSeq

theorem Frame.refl (db : Db) : Frame db db := ⟨rfl,rfl,rfl,rfl,rfl⟩

theorem Frame.trans {a b c : Db} (hab : Frame a b) (hbc : Frame b c) : Frame a c :=
  ⟨hbc.subscriptions.trans hab.subscriptions,hbc.cursors.trans hab.cursors,
    hbc.deliveryAttempts.trans hab.deliveryAttempts,hbc.deadLetters.trans hab.deadLetters,
    hbc.deadLetterSeq.trans hab.deadLetterSeq⟩

end Db

structure SameEvents (db db' : Db) : Prop where
  events : db'.events = db.events
  eventSeq : db'.eventSeq = db.eventSeq
  eventsArchive : db'.eventsArchive = db.eventsArchive

theorem SameEvents.live {db db' : Db} (h : SameEvents db db') : db'.live = db.live := by
  simp only [Db.live,h.events]

theorem SameEvents.trans {a b c : Db} (hab : SameEvents a b) (hbc : SameEvents b c) :
    SameEvents a c :=
  ⟨hbc.events.trans hab.events,hbc.eventSeq.trans hab.eventSeq,
    hbc.eventsArchive.trans hab.eventsArchive⟩

inductive ConfigNumber where
  | finite (value : ℚ) | notFinite (text : String)
  deriving DecidableEq, Repr

inductive BusError where
  | invalidEventSchema (reason : String)
  | duplicateEvent (originalEventId : Option ℤ) (idempotencyKey : String)
  | cursorBehindTtlWindow (cursorLastEventId oldestAvailableEventId : ℤ)
  | cursorNotFound (reason : String)
  | spillBucketUnavailable (path : String)
  | diskFull
  | invalidConfig (message : String)
  -- Invalid config: unacked_retention_days must be a positive number (got 'days')
  | invalidRetentionDays (days : ConfigNumber)
  deriving DecidableEq, Repr

theorem bind_eq_ok {ε α β : Type} {x : Except ε α} {f : α → Except ε β} {b : β} :
    x >>= f = .ok b ↔ ∃ a, x = .ok a ∧ f a = .ok b := by
  cases x <;> simp [bind,Except.bind]

theorem bind_eq_error {ε α β : Type} {x : Except ε α} {f : α → Except ε β} {e : ε} :
    x >>= f = .error e ↔ x = .error e ∨ ∃ a, x = .ok a ∧ f a = .error e := by
  cases x <;> simp [bind,Except.bind]

end WickedBus
