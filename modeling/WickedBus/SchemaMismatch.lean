import WickedBus.JsonSchema
import WickedBus.EmitSteps

namespace WickedBus

open Ipc (JsString ascii)

def TypeName.text : TypeName → JsString
  | .string => ascii "string"
  | .number => ascii "number"
  | .integer => ascii "integer"
  | .boolean => ascii "boolean"
  | .object => ascii "object"
  | .array => ascii "array"
  | .null => ascii "null"

def JsType.text : JsType → JsString
  | .null => ascii "null"
  | .array => ascii "array"
  | .object => ascii "object"
  | .string => ascii "string"
  | .number => ascii "number"
  | .boolean => ascii "boolean"
  | .function => ascii "function"

def pathLabel (path : JsString) : JsString := if path = [] then ascii "<root>" else path

def joinTexts (separator : String) (parts : List JsString) : JsString := (ascii separator).intercalate parts

def Rule.text (stringify : JsonValue → JsString) : Rule → JsString
  | .notInEnum allowed => ascii "not in enum [" ++ joinTexts ", " (allowed.map stringify) ++ ascii "]"
  | .expected allowed actual =>
    ascii "expected " ++ joinTexts "|" (allowed.map TypeName.text) ++ ascii ", got " ++ actual.text
  | .minLength n => ascii "minLength " ++ stringify (.number n)
  | .maxLength n => ascii "maxLength " ++ stringify (.number n)
  | .minimum q => ascii "minimum " ++ stringify (.number q)
  | .maximum q => ascii "maximum " ++ stringify (.number q)
  | .missing key => ascii "missing required property '" ++ key ++ ascii "'"
  | .additional key => ascii "additional property '" ++ key ++ ascii "' not allowed"

def Violation.text (stringify : JsonValue → JsString) (v : Violation) : JsString :=
  pathLabel v.path ++ ascii ": " ++ v.rule.text stringify

structure RegisteredSchema extends SchemaRow where
  jsonSchema : String

structure RegistryHost extends EmitHost where
  parse : String → Except String JsonValue
  parseSchema : String → Except String (Option SchemaTree)
  stringify : JsonValue → JsString

structure RegistryCall where
  dataDir : Bool
  eventType : String
  payloadStr : String
  putFault : Option String

inductive RegistryError where
  | payloadTooLarge (message : String) (size cap : ℕ)
  | noDataDir
  | put (message : String)
  deriving DecidableEq, Repr

inductive RegistryWarning where
  | offloaded (sha : String) (originalSize : ℕ)
  | oversize (eventType : String) (size cap : ℕ)
  | unparseable (eventType message : String)
  | mismatch (eventType : String) (violations : List JsString)
  deriving DecidableEq, Repr

structure RegistryOutcome where
  result : RegistryResult
  warnings : List RegistryWarning
  deriving DecidableEq, Repr

def sizePolicy (host : RegistryHost) (schema : RegisteredSchema) (call : RegistryCall) :
    Except RegistryError (String × Option String × List RegistryWarning) :=
  let size := call.payloadStr.utf8ByteSize
  if size ≤ schema.payloadMaxBytes then .ok (call.payloadStr,none,[])
  else if schema.payloadOversize = "strict" then
    .error (.payloadTooLarge ("payload exceeds registry cap for " ++ call.eventType) size schema.payloadMaxBytes)
  else if schema.payloadOversize = "cas-auto" then
    if call.dataDir = false then .error .noDataDir
    else if host.objectMaxBytes < size then
      .error (.payloadTooLarge ("CAS object exceeds " ++ toString host.objectMaxBytes ++ "-byte cap") size
        host.objectMaxBytes)
    else
      match call.putFault with
      | some message => .error (.put message)
      | none =>
        let sha := host.sha256 call.payloadStr
        .ok (casReference sha,some sha,[.offloaded sha size])
  else .ok (call.payloadStr,none,[.oversize call.eventType size schema.payloadMaxBytes])

def RegistryHost.violationTexts (host : RegistryHost) (tree : SchemaTree) : Except String JsonValue → List JsString
  | .error _ => [ascii "payload is not valid JSON"]
  | .ok value => (validateAgainst tree value).map (Violation.text host.stringify)

def schemaWarnings (host : RegistryHost) (schema : RegisteredSchema) (eventType payload : String) :
    List RegistryWarning :=
  match host.parseSchema schema.jsonSchema with
  | .error message => [.unparseable eventType message]
  | .ok none => []
  | .ok (some tree) =>
    let violations := host.violationTexts tree (host.parse payload)
    if violations = [] then [] else [.mismatch eventType violations]

def applyOnEmit (host : RegistryHost) (schema : Option RegisteredSchema) (call : RegistryCall) :
    Except RegistryError RegistryOutcome :=
  match schema with
  | none => .ok ⟨⟨call.payloadStr,none,none⟩,[]⟩
  | some schema =>
    match sizePolicy host schema call with
    | .error e => .error e
    | .ok (payload,sha,warnings) =>
      .ok ⟨⟨payload,some schema.version,sha⟩,warnings ++ schemaWarnings host schema call.eventType payload⟩

def RegistryWarning.violations : RegistryWarning → Option (List JsString)
  | .mismatch _ violations => some violations
  | _ => none

def RegistryOutcome.mismatch (r : RegistryOutcome) : List (List JsString) :=
  r.warnings.filterMap RegistryWarning.violations

def schemaMismatch (host : RegistryHost) (jsonSchema payload : String) : List (List JsString) :=
  match host.parseSchema jsonSchema with
  | .ok (some tree) =>
    let violations := host.violationTexts tree (host.parse payload)
    if violations = [] then [] else [violations]
  | _ => []

def Offloads (schema : RegisteredSchema) (payload : String) : Prop :=
  schema.payloadMaxBytes < payload.utf8ByteSize ∧ schema.payloadOversize = "cas-auto"

def casObject (sha : String) : JsonValue := .object [(ascii "$cas",.string (ascii sha))]

section Outcome

variable {host : RegistryHost} {schema : RegisteredSchema} {call : RegistryCall} {r : RegistryOutcome}
variable {tree : SchemaTree} {payload : String}

theorem schemaWarnings_violations (eventType payload : String) :
    (schemaWarnings host schema eventType payload).filterMap RegistryWarning.violations =
      schemaMismatch host schema.jsonSchema payload := by
  unfold schemaWarnings schemaMismatch
  cases host.parseSchema schema.jsonSchema with
  | error message => rfl
  | ok tree =>
    cases tree with
    | none => rfl
    | some tree =>
      dsimp only
      split_ifs <;> rfl

theorem sizePolicy_ok {stored : String} {sha : Option String} {warnings : List RegistryWarning}
    (h : sizePolicy host schema call = .ok (stored,sha,warnings)) :
    warnings.filterMap RegistryWarning.violations = [] ∧
      (¬ Offloads schema call.payloadStr ∧ stored = call.payloadStr ∧ sha = none ∨
        Offloads schema call.payloadStr ∧ stored = casReference (host.sha256 call.payloadStr) ∧
          sha = some (host.sha256 call.payloadStr)) := by
  unfold sizePolicy at h
  dsimp only at h
  split_ifs at h with hsize hstrict hauto hdir hcap
  · cases h
    exact ⟨rfl,.inl ⟨fun hoff => absurd hsize (not_le.mpr hoff.1),rfl,rfl⟩⟩
  · cases hfault : call.putFault with
    | some message =>
      rw [hfault] at h
      cases h
    | none =>
      rw [hfault] at h
      cases h
      exact ⟨rfl,.inr ⟨⟨not_le.mp hsize,hauto⟩,rfl,rfl⟩⟩
  · cases h
    exact ⟨rfl,.inl ⟨fun hoff => hauto hoff.2,rfl,rfl⟩⟩

theorem applyOnEmit_ok (h : applyOnEmit host (some schema) call = .ok r) :
    ∃ stored sha, r.result = ⟨stored,some schema.version,sha⟩ ∧
      r.mismatch = schemaMismatch host schema.jsonSchema stored ∧
      (¬ Offloads schema call.payloadStr ∧ stored = call.payloadStr ∧ sha = none ∨
        Offloads schema call.payloadStr ∧ stored = casReference (host.sha256 call.payloadStr) ∧
          sha = some (host.sha256 call.payloadStr)) := by
  cases hpolicy : sizePolicy host schema call with
  | error e =>
    simp only [applyOnEmit,hpolicy] at h
    cases h
  | ok policy =>
    obtain ⟨stored,sha,warnings⟩ := policy
    simp only [applyOnEmit,hpolicy] at h
    cases h
    obtain ⟨hwarnings,hstored⟩ := sizePolicy_ok hpolicy
    refine ⟨stored,sha,rfl,?_,hstored⟩
    rw [RegistryOutcome.mismatch,List.filterMap_append,hwarnings,List.nil_append,schemaWarnings_violations]

theorem schemaMismatch_eq_iff {jsonSchema other : String} :
    schemaMismatch host jsonSchema other = schemaMismatch host jsonSchema payload ↔
      ∀ tree, host.parseSchema jsonSchema = .ok (some tree) →
        host.violationTexts tree (host.parse other) = host.violationTexts tree (host.parse payload) := by
  unfold schemaMismatch
  cases host.parseSchema jsonSchema with
  | error message => simp
  | ok tree =>
    cases tree with
    | none => simp
    | some tree =>
      dsimp only
      split_ifs with hother hpayload hpayload
      · simp [hother,hpayload]
      · simp [hother,Ne.symm hpayload]
      · simp [hother,hpayload]
      · simp

theorem schema_mismatch_of_payload_iff (h : applyOnEmit host (some schema) call = .ok r)
    (hparse : host.parse (casReference (host.sha256 call.payloadStr)) = .ok (casObject (host.sha256 call.payloadStr))) :
    r.mismatch = schemaMismatch host schema.jsonSchema call.payloadStr ↔
      (Offloads schema call.payloadStr → ∀ tree, host.parseSchema schema.jsonSchema = .ok (some tree) →
        host.violationTexts tree (.ok (casObject (host.sha256 call.payloadStr))) =
          host.violationTexts tree (host.parse call.payloadStr)) := by
  obtain ⟨stored,sha,-,hmismatch,⟨hkept,rfl,-⟩ | ⟨hoff,rfl,-⟩⟩ := applyOnEmit_ok h
  · exact iff_of_true hmismatch fun hoff => absurd hoff hkept
  · rw [hmismatch,schemaMismatch_eq_iff,hparse]
    exact ⟨fun h _ => h,fun h => h hoff⟩

theorem beforeInsert_applyOnEmit {emitCall : EmitCall} {env : EmitStepEnv} {p : Prepared}
    (h : applyOnEmit host (some schema) call = .ok r) (hpayload : p.validated.payload = call.payloadStr)
    (hfault : env.fault = none) (hschema : env.schema = some schema.toSchemaRow) :
    (¬ Offloads schema call.payloadStr →
      beforeInsert host.toEmitHost emitCall env (.getSchema p) = p.insert host.toEmitHost emitCall r.result) ∧
    (Offloads schema call.payloadStr →
      beforeInsert host.toEmitHost emitCall env (.getSchema p) = .casPut p schema.toSchemaRow ∧
      beforeInsert host.toEmitHost emitCall env (.casPut p schema.toSchemaRow) =
        p.insert host.toEmitHost emitCall r.result) := by
  obtain ⟨stored,sha,hresult,-,hstored⟩ := applyOnEmit_ok h
  cases hpolicy : sizePolicy host schema call with
  | error e =>
    simp only [applyOnEmit,hpolicy] at h
    cases h
  | ok policy =>
    clear h
    rw [hresult]
    simp only [sizePolicy] at hpolicy
    simp only [beforeInsert,hfault,hschema,hpayload]
    rcases hstored with ⟨hkept,rfl,rfl⟩ | ⟨hoff,rfl,rfl⟩
    · refine ⟨fun _ => ?_,fun hoff => absurd hoff hkept⟩
      split_ifs at hpolicy ⊢ with hsize hstrict hauto
      · rfl
      · exact absurd ⟨not_le.mp hsize,hauto⟩ hkept
      · rfl
    · have hstrict : ¬ schema.payloadOversize = "strict" := by
        rw [hoff.2]
        decide
      refine ⟨fun hkept => absurd hoff hkept,fun _ => ?_⟩
      rw [if_neg (not_le.mpr hoff.1),if_neg hstrict,if_pos hoff.2] at hpolicy ⊢
      split_ifs at hpolicy ⊢ with hdir hcap
      exact ⟨rfl,rfl⟩

end Outcome

def runPayload : String := "\x7b\"run\":\"r-1\"\x7d"

def runSha : String := "eda98e4b43f11e724b6c062db62f1fc1b20b9df09f7c5f663088757a4c5283e0"

def runReport : JsonValue := .object [(ascii "run",.string (ascii "r-1"))]

def keyworded (type : Option (List TypeName)) (required : Option (List JsString)) : SchemaTree :=
  .node ⟨type,none,none,none,none,none,required,true⟩ none none

def objectText : String := "\x7b\"type\":\"object\"\x7d"

def requiredText : String := "\x7b\"required\":[\"run\"]\x7d"

def runHost : RegistryHost where
  config := ⟨72,24⟩
  maxPayloadBytes := 1048576
  objectMaxBytes := 268435456
  parsesToObject := fun text => decide (text = runPayload)
  sha256 := fun _ => runSha
  parse := fun text =>
    if text = runPayload then .ok runReport
    else if text = casReference runSha then .ok (casObject runSha)
    else .error "Unexpected token"
  parseSchema := fun text =>
    if text = objectText then .ok (some (keyworded (some [.object]) none))
    else if text = requiredText then .ok (some (keyworded none (some [ascii "run"])))
    else .error "Unexpected token"
  stringify := fun _ => []

def offloadCall : RegistryCall := ⟨true,"wicked.run",runPayload,none⟩

def tinySchema (jsonSchema : String) : RegisteredSchema := ⟨⟨1,4,"cas-auto"⟩,jsonSchema⟩

theorem schema_mismatch_of_payload_sample :
    ∃ r, applyOnEmit runHost (some (tinySchema objectText)) offloadCall = .ok r ∧
      r.result.payloadCasSha = some runSha ∧
      r.mismatch = schemaMismatch runHost objectText runPayload := by
  refine ⟨_,rfl,rfl,(@schema_mismatch_of_payload_iff runHost (tinySchema objectText) offloadCall _ rfl rfl).mpr
    fun _ tree htree => ?_⟩
  cases htree
  rfl

theorem schema_mismatch_depends_on_offload :
    ∃ r, applyOnEmit runHost (some (tinySchema requiredText)) offloadCall = .ok r ∧
      r.mismatch = [[ascii "<root>: missing required property 'run'"]] ∧
      schemaMismatch runHost requiredText runPayload = [] := by
  refine ⟨_,rfl,?_,?_⟩
  · decide
  · decide

end WickedBus
