import WickedBus.Schema

namespace WickedBus

open WickedBus.Filter (Text EventType Domain)

structure NewEvent where
  eventType : Text
  domain : Text
  subdomain : Text
  payload : String
  schemaVersion : String
  idempotencyKey : String
  emittedAt : ℤ
  expiresAt : ℚ
  dedupExpiresAt : ℚ
  metadata : Option String
  registrySchemaVersion : Option ℤ
  payloadCasSha : Option String
  correlationId : Option String
  sessionId : Option String
  parentEventId : Option ℤ
  producerId : Option String
  deriving DecidableEq, Repr

def NewEvent.row (n : NewEvent) (eventId : ℤ) : EventRow where
  eventId := eventId
  eventType := n.eventType
  domain := n.domain
  subdomain := n.subdomain
  payload := n.payload
  schemaVersion := n.schemaVersion
  idempotencyKey := n.idempotencyKey
  emittedAt := n.emittedAt
  expiresAt := n.expiresAt
  dedupExpiresAt := n.dedupExpiresAt
  metadata := n.metadata
  parentEventId := n.parentEventId
  sessionId := n.sessionId
  correlationId := n.correlationId
  producerId := n.producerId
  originNodeId := none
  registrySchemaVersion := n.registrySchemaVersion
  payloadCasSha := n.payloadCasSha

@[simp] theorem NewEvent.row_eventId (n : NewEvent) (i : ℤ) : (n.row i).eventId = i := rfl

@[simp] theorem NewEvent.row_emittedAt (n : NewEvent) (i : ℤ) :
    (n.row i).emittedAt = n.emittedAt := rfl

structure EmitConfig where
  ttlHours : ℚ
  dedupTtlHours : ℚ
  deriving DecidableEq, Repr

structure CausalityContext where
  correlationId : Option String
  sessionId : Option String
  parentEventId : Option ℤ
  producerId : Option String
  deriving DecidableEq, Repr

structure RegistryResult where
  payload : String
  registrySchemaVersion : Option ℤ
  payloadCasSha : Option String
  deriving DecidableEq, Repr

structure EmitEvent where
  eventType : EventType
  domain : Domain
  subdomain : Option Text
  schemaVersion : Option String
  idempotencyKey : Option String
  ttlHours : Option ℚ
  metadata : Option String
  correlationId : Option (Option String)
  sessionId : Option (Option String)
  parentEventId : Option (Option ℤ)
  producerId : Option (Option String)
  eventType_length : eventType.val.length ≤ 128
  subdomain_length : ∀ s ∈ subdomain, s.length ≤ 64

structure EmitEnv where
  now : ℤ
  keyUuid : String
  releaseUuid : String
  ctx : CausalityContext
  registry : RegistryResult

def chooseField {α : Type} (eventField : Option (Option α)) (ctxField : Option α) : Option α :=
  eventField.getD ctxField

def orDefault (value : Option String) (fallback : String) : String :=
  match value with
  | none => fallback
  | some v => if v = "" then fallback else v

def emitParams (config : EmitConfig) (event : EmitEvent) (env : EmitEnv) : NewEvent where
  eventType := event.eventType.val
  domain := event.domain.val
  subdomain := event.subdomain.getD []
  payload := env.registry.payload
  schemaVersion := orDefault event.schemaVersion "1.0.0"
  idempotencyKey := orDefault event.idempotencyKey env.keyUuid
  emittedAt := env.now
  expiresAt := env.now + event.ttlHours.getD config.ttlHours * 3600000
  dedupExpiresAt := env.now + config.dedupTtlHours * 3600000
  metadata := event.metadata
  registrySchemaVersion := env.registry.registrySchemaVersion
  payloadCasSha := env.registry.payloadCasSha
  correlationId := chooseField event.correlationId env.ctx.correlationId
  sessionId := chooseField event.sessionId env.ctx.sessionId
  parentEventId := chooseField event.parentEventId env.ctx.parentEventId
  producerId := chooseField event.producerId env.ctx.producerId

def keyHolder (db : Db) (idempotencyKey : String) : Option EventRow :=
  db.events.rows.find? (fun e => e.idempotencyKey = idempotencyKey)

def appendEvent (db : Db) (params : NewEvent) : Db where
  __ := db
  events := db.events.insertOrIgnore (params.row (db.eventSeq + 1))
  eventSeq := db.eventSeq + 1
  events_le_seq := by
    intro e he
    rcases KeyedTable.mem_insertOrIgnore.mp he with he | ⟨rfl,_⟩
    · have := db.events_le_seq e he
      omega
    · exact le_rfl

def insertEvent (db : Db) (params : NewEvent) : Except BusError Db :=
  if maxSafeInteger ≤ db.eventSeq then .error .diskFull
  else if (keyHolder db params.idempotencyKey).isSome then
    .error (.duplicateEvent none params.idempotencyKey)
  else .ok (appendEvent db params)

def renameKey (db : Db) (eventId : ℤ) (idempotencyKey : String) : Db where
  __ := db
  events := db.events.map
    (fun e => if e.eventId = eventId then { e with idempotencyKey := idempotencyKey } else e)
    (by intro e; split_ifs <;> rfl)
  events_le_seq := by
    intro e he
    obtain ⟨r,hr,rfl⟩ := KeyedTable.mem_map.mp he
    have := db.events_le_seq r hr
    split_ifs <;> exact this

def releasedKey (holder : EventRow) (uuid : String) : String :=
  holder.idempotencyKey ++ "#dedup-expired:" ++ toString holder.eventId ++ ":" ++ uuid

def releaseExpiredKey (db : Db) (idempotencyKey : String) (emittedAt : ℤ) (uuid : String) :
    Option Db :=
  match keyHolder db idempotencyKey with
  | none => none
  | some holder =>
    if (emittedAt : ℚ) ≤ holder.dedupExpiresAt then none
    else if (keyHolder db (releasedKey holder uuid)).isSome then none
    else some (renameKey db holder.eventId (releasedKey holder uuid))

def duplicateEvent (db : Db) (idempotencyKey : String) : BusError :=
  .duplicateEvent ((keyHolder db idempotencyKey).map EventRow.eventId) idempotencyKey

def emitParamsInto (db : Db) (params : NewEvent) (releaseUuid : String) : Except BusError Db :=
  match insertEvent db params with
  | .error (.duplicateEvent _ _) =>
    match releaseExpiredKey db params.idempotencyKey params.emittedAt releaseUuid with
    | none => .error (duplicateEvent db params.idempotencyKey)
    | some released =>
      match insertEvent released params with
      | .error (.duplicateEvent _ _) => .error (duplicateEvent db params.idempotencyKey)
      | result => result
  | result => result

def emit (db : Db) (config : EmitConfig) (event : EmitEvent) (env : EmitEnv) :
    Except BusError (Db × ℤ × String) :=
  let params := emitParams config event env
  (emitParamsInto db params env.releaseUuid).map
    (fun db' => (db',db'.eventSeq,params.idempotencyKey))

theorem mem_appendEvent {db : Db} {params : NewEvent} {e : EventRow} :
    e ∈ (appendEvent db params).events ↔ e ∈ db.events ∨ e = params.row (db.eventSeq + 1) := by
  simp only [appendEvent,KeyedTable.mem_insertOrIgnore]
  refine or_congr_right (and_iff_left_of_imp fun _ r hr => ?_)
  have := db.events_le_seq r hr
  simp only [NewEvent.row_eventId]
  omega

theorem live_appendEvent (db : Db) (params : NewEvent) :
    (appendEvent db params).live = insert (params.row (db.eventSeq + 1)).fixedPart db.live := by
  ext r
  simp only [Db.live,Set.mem_ofPred_eq,mem_appendEvent,Set.mem_insert_iff]
  constructor
  · rintro ⟨e,he | rfl,rfl⟩
    · exact .inr ⟨e,he,rfl⟩
    · exact .inl rfl
  · rintro (rfl | ⟨e,he,rfl⟩)
    · exact ⟨_,.inr rfl,rfl⟩
    · exact ⟨e,.inl he,rfl⟩

theorem live_renameKey (db : Db) (eventId : ℤ) (key : String) :
    (renameKey db eventId key).live = db.live := by
  have hfix : ∀ e : EventRow, (if e.eventId = eventId then { e with idempotencyKey := key }
      else e).fixedPart = e.fixedPart := by
    intro e
    split_ifs <;> rfl
  ext r
  simp only [Db.live,Set.mem_ofPred_eq,renameKey,KeyedTable.mem_map]
  constructor
  · rintro ⟨_,⟨e,he,rfl⟩,rfl⟩
    exact ⟨e,he,(hfix e).symm⟩
  · rintro ⟨e,he,rfl⟩
    exact ⟨_,⟨e,he,rfl⟩,hfix e⟩

theorem insertEvent_ok {db db' : Db} {params : NewEvent} (h : insertEvent db params = .ok db') :
    db.eventSeq < maxSafeInteger ∧ db' = appendEvent db params := by
  unfold insertEvent at h
  split_ifs at h with hmax
  exact ⟨not_le.mp hmax,(Except.ok.inj h).symm⟩

theorem releaseExpiredKey_some {db db' : Db} {key : String} {emittedAt : ℤ} {uuid : String}
    (h : releaseExpiredKey db key emittedAt uuid = some db') :
    ∃ eventId released, db' = renameKey db eventId released := by
  unfold releaseExpiredKey at h
  split at h
  · cases h
  · split_ifs at h
    exact ⟨_,_,(Option.some.inj h).symm⟩

theorem emitParamsInto_ok {db db' : Db} {params : NewEvent} {uuid : String}
    (h : emitParamsInto db params uuid = .ok db') :
    db.eventSeq < maxSafeInteger ∧
      (db' = appendEvent db params ∨
        ∃ eventId key, db' = appendEvent (renameKey db eventId key) params) := by
  unfold emitParamsInto at h
  split at h
  · split at h
    · cases h
    · rename_i released hrel
      obtain ⟨eventId,key,rfl⟩ := releaseExpiredKey_some hrel
      split at h
      · cases h
      · obtain ⟨hmax,rfl⟩ := insertEvent_ok h
        exact ⟨hmax,.inr ⟨eventId,key,rfl⟩⟩
  · obtain ⟨hmax,rfl⟩ := insertEvent_ok h
    exact ⟨hmax,.inl rfl⟩

section EmitSpec

variable {db db' : Db} {params : NewEvent} {uuid : String}

theorem emit_eventSeq (h : emitParamsInto db params uuid = .ok db') :
    db'.eventSeq = db.eventSeq + 1 := by
  obtain ⟨-,rfl | ⟨_,_,rfl⟩⟩ := emitParamsInto_ok h <;> rfl

theorem emit_eventSeq_le (h : emitParamsInto db params uuid = .ok db') :
    db'.eventSeq ≤ maxSafeInteger := by
  rw [emit_eventSeq h]
  have := (emitParamsInto_ok h).1
  omega

theorem emit_live (h : emitParamsInto db params uuid = .ok db') :
    db'.live = insert (params.row (db.eventSeq + 1)).fixedPart db.live := by
  obtain ⟨-,rfl | ⟨eventId,key,rfl⟩⟩ := emitParamsInto_ok h
  · exact live_appendEvent db params
  · rw [live_appendEvent,live_renameKey]
    rfl

theorem emit_frame (h : emitParamsInto db params uuid = .ok db') : Db.Frame db db' := by
  obtain ⟨-,rfl | ⟨_,_,rfl⟩⟩ := emitParamsInto_ok h <;> exact ⟨rfl,rfl,rfl,rfl,rfl⟩

end EmitSpec

end WickedBus
