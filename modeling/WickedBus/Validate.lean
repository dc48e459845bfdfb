import WickedBus.Emit

namespace WickedBus

open WickedBus.Filter (Text EventType Domain eventTypeRegex)

inductive FieldValue where
  | undefined
  | null
  | text (s : Text)
  | other (truthy : Bool)
  deriving DecidableEq, Repr

def FieldValue.truthy : FieldValue → Bool
  | .undefined | .null => false
  | .text s => decide (s ≠ [])
  | .other truthy => truthy

inductive PayloadValue where
  | undefined
  | null
  | object (json : Option String)
  | text (s : String)
  | other
  deriving DecidableEq, Repr

structure EventInput where
  keys : List String
  eventType : FieldValue
  domain : FieldValue
  subdomain : FieldValue
  payload : PayloadValue
  schemaVersion : FieldValue
  idempotencyKey : Option String
  ttlHours : Option ℚ
  metadata : Option String
  correlationId : Option (Option String)
  sessionId : Option (Option String)
  parentEventId : Option (Option ℤ)
  producerId : Option (Option String)
  stringifiable : Bool
  bindable : Bool
  deriving DecidableEq, Repr

inductive EmitError where
  | invalidEventSchema (message : String) (receivedFields missingFields : List String)
      (violation : Option String)
  | schemaVersionUnsupported (message declared maxSupported : String)
  | payloadTooLarge (message : String) (size cap : ℕ)
  | duplicateEvent (message : String) (originalEventId : Option ℤ) (idempotencyKey : String)
  | diskFull (message sqliteError : String)
  | thrown (message : String)
  deriving DecidableEq, Repr

structure Validated where
  event : EmitEvent
  payload : String
  bindable : Bool

def jsLength (s : Text) : ℕ := (s.map (fun c => if 0xFFFF < c.toNat then 2 else 1)).sum

theorem length_le_jsLength (s : Text) : s.length ≤ jsLength s := by
  induction s with
  | nil => exact le_rfl
  | cons c s ih =>
    simp only [jsLength,List.map_cons,List.sum_cons,List.length_cons] at ih ⊢
    split_ifs <;> omega

def violation (received : List String) (message violation : String) : EmitError :=
  .invalidEventSchema message received [] (some violation)

def missingFields (event : EventInput) : List String :=
  (if event.eventType.truthy then [] else ["event_type"]) ++
    (if event.domain.truthy then [] else ["domain"]) ++
    if event.payload = .undefined ∨ event.payload = .null then ["payload"] else []

def checkText (received : List String) (field : String) (bound : ℕ) (v : FieldValue) :
    Except EmitError {s : Text // jsLength s ≤ bound} :=
  match v with
  | .text s =>
    if h : jsLength s ≤ bound then .ok ⟨s,h⟩
    else .error (violation received
      (field ++ " exceeds " ++ toString bound ++ " chars (got " ++ toString (jsLength s) ++ ")")
      (field ++ " exceeds " ++ toString bound ++ " chars"))
  | _ => .error (violation received (field ++ " must be a string") (field ++ " must be a string"))

def eventTypePattern : String := "/^wicked\\.[a-z0-9_]+(\\.[a-z0-9_]+)*$/"

def checkEventType (received : List String) (v : FieldValue) :
    Except EmitError {t : EventType // t.val.length ≤ 128} := do
  let s ← checkText received "event_type" 128 v
  if h : eventTypeRegex s.val = true then
    pure ⟨⟨s.val,h⟩,(length_le_jsLength s.val).trans s.property⟩
  else .error (violation received ("event_type does not match pattern: " ++ eventTypePattern)
    ("event_type must match " ++ eventTypePattern))

def checkDomain (received : List String) (v : FieldValue) : Except EmitError Domain := do
  let s ← checkText received "domain" 64 v
  if h : 1 ≤ s.val.length then pure ⟨s.val,h,(length_le_jsLength s.val).trans s.property⟩
  -- an empty domain is already among the missing fields
  else .error (.invalidEventSchema "Missing required fields: domain" received ["domain"] none)

def checkSubdomain (received : List String) (v : FieldValue) :
    Except EmitError {s : Option Text // ∀ t ∈ s, t.length ≤ 64} :=
  match v with
  | .undefined | .null => .ok ⟨none,by simp⟩
  | v => do
    let s ← checkText received "subdomain" 64 v
    pure ⟨some s.val,by
      rintro _ ⟨⟩
      exact (length_le_jsLength s.val).trans s.property⟩

def payloadMessage : String := "payload must be a valid JSON object"

def checkPayload (parsesToObject : String → Bool) (received : List String) :
    PayloadValue → Except EmitError String
  | .object (some json) => .ok json
  | .object none => .error (.thrown "payload cannot be serialised")
  | .text s => if parsesToObject s then .ok s else .error (violation received payloadMessage payloadMessage)
  | _ => .error (violation received payloadMessage payloadMessage)

def checkPayloadSize (received : List String) (maxPayloadBytes : ℕ) (payload : String) :
    Except EmitError Unit :=
  if maxPayloadBytes < payload.utf8ByteSize then
    .error (violation received
      ("Payload size " ++ toString payload.utf8ByteSize ++ " bytes exceeds max_payload_bytes (" ++
        toString maxPayloadBytes ++ ")") "payload exceeds max_payload_bytes")
  else .ok ()

def splitDots : Text → List Text
  | [] => [[]]
  | c :: cs =>
    if c = '.' then [] :: splitDots cs
    else
      match splitDots cs with
      | [] => [[c]]
      | s :: rest => (c :: s) :: rest

def parseDigits (s : Text) : ℕ := s.foldl (fun n c => 10 * n + (c.toNat - '0'.toNat)) 0

def semverMajor (s : Text) : Option ℕ :=
  match splitDots s with
  | [major,minor,patch] =>
    if [major,minor,patch].all (fun part => !part.isEmpty && part.all Char.isDigit) then
      some (parseDigits major)
    else none
  | _ => none

def checkSchemaVersion (received : List String) (v : FieldValue) :
    Except EmitError (Option String) :=
  match v with
  | .undefined | .null => .ok none
  | .text s =>
    match semverMajor s with
    | none => .error (violation received "schema_version must be a valid semver string (e.g. 1.0.0)"
        "invalid schema_version format")
    | some major =>
      if 1 < major then
        .error (.schemaVersionUnsupported
          ("schema_version " ++ String.ofList s ++ " is not supported (max 1.x)") (String.ofList s) "1.x")
      else .ok (some (String.ofList s))
  | _ => .error (violation received "schema_version must be a valid semver string (e.g. 1.0.0)"
      "invalid schema_version format")

def validateEvent (parsesToObject : String → Bool) (maxPayloadBytes : ℕ) :
    Option EventInput → Except EmitError Validated
  | none => .error (.invalidEventSchema "Event must be an object" [] ["event_type","domain","payload"] none)
  | some event => do
    let missing := missingFields event
    if missing ≠ [] then
      throw (.invalidEventSchema ("Missing required fields: " ++ ", ".intercalate missing) event.keys missing
        none)
    let eventType ← checkEventType event.keys event.eventType
    let domain ← checkDomain event.keys event.domain
    let subdomain ← checkSubdomain event.keys event.subdomain
    let payload ← checkPayload parsesToObject event.keys event.payload
    checkPayloadSize event.keys maxPayloadBytes payload
    let schemaVersion ← checkSchemaVersion event.keys event.schemaVersion
    pure {
      event := {
        eventType := eventType.val
        domain := domain
        subdomain := subdomain.val
        schemaVersion := schemaVersion
        idempotencyKey := event.idempotencyKey
        ttlHours := event.ttlHours
        metadata := event.metadata
        correlationId := event.correlationId
        sessionId := event.sessionId
        parentEventId := event.parentEventId
        producerId := event.producerId
        eventType_length := eventType.property
        subdomain_length := subdomain.property }
      payload := payload
      bindable := event.bindable }

theorem validateEvent_ok {parsesToObject : String → Bool} {maxPayloadBytes : ℕ}
    {input : Option EventInput} {v : Validated}
    (h : validateEvent parsesToObject maxPayloadBytes input = .ok v) :
    ∃ event, input = some event ∧ v.event.idempotencyKey = event.idempotencyKey ∧
      v.event.ttlHours = event.ttlHours := by
  cases input with
  | none => cases h
  | some event =>
    simp only [validateEvent] at h
    split_ifs at h
    · cases h
    · obtain ⟨eventType,-,h⟩ := bind_eq_ok.mp h
      obtain ⟨domain,-,h⟩ := bind_eq_ok.mp h
      obtain ⟨subdomain,-,h⟩ := bind_eq_ok.mp h
      obtain ⟨payload,-,h⟩ := bind_eq_ok.mp h
      obtain ⟨_,-,h⟩ := bind_eq_ok.mp h
      obtain ⟨schemaVersion,-,h⟩ := bind_eq_ok.mp h
      cases h
      exact ⟨event,rfl,rfl,rfl⟩

end WickedBus
