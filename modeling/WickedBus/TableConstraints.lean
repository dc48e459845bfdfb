import WickedBus.Coercion
import WickedBus.Validate
import WickedBus.Foundation.Utf16

namespace WickedBus

open Ipc (JsString ascii)
open WickedBus.Filter (Text)

structure JsRuntime extends JsEngine where
  stringify : AnyValue → Option (Option JsString)

structure EventObject where
  keys : List String
  own : String → Bool
  get : String → AnyValue

def fieldValue : AnyValue → FieldValue
  | .primitive .undefined => .undefined
  | .primitive .null => .null
  | .primitive (.string s) => .text (Utf16.decode s)
  | v => .other v.truthy

def payloadValue (js : JsRuntime) (v : AnyValue) : PayloadValue :=
  let json := (js.stringify v).join.map (fun s => String.ofList (Utf16.decode s))
  match v with
  | .primitive .undefined => .undefined
  | .primitive .null => .null
  | .primitive (.string s) => .text (String.ofList (Utf16.decode s))
  | .object _ | .exotic .buffer | .exotic .other => .object json
  | _ => .other

structure EventObject.Reads (js : JsRuntime) (o : EventObject) (event : EventInput) : Prop where
  keys : event.keys = o.keys
  eventType : event.eventType = fieldValue (o.get "event_type")
  domain : event.domain = fieldValue (o.get "domain")
  subdomain : event.subdomain = fieldValue (o.get "subdomain")
  payload : event.payload = payloadValue js (o.get "payload")
  schemaVersion : event.schemaVersion = fieldValue (o.get "schema_version")

def AnyValue.encoded (s : String) : AnyValue := .primitive (.string (Utf16.encode s.toList))

def AnyValue.int (n : ℤ) : AnyValue := .rat n

def AnyValue.orNull {α : Type} (f : α → AnyValue) : Option α → AnyValue
  | none => .primitive .null
  | some a => f a

def JsEngine.numeric (e : JsEngine) (v : AnyValue) : Option JsNumber :=
  match e.primitiveOf v with
  | none | some (.bigint _) | some .symbol => none
  | some p => some (e.toNumber p)

def orElseValue (v fallback : AnyValue) : AnyValue := if v.truthy then v else fallback

def keyValue (o : EventObject) (env : EmitEnv) : AnyValue :=
  orElseValue (o.get "idempotency_key") (.encoded env.keyUuid)

def expiresAt (js : JsRuntime) (config : EmitConfig) (o : EventObject) (env : EmitEnv) : Option AnyValue :=
  let ttlHours := o.get "ttl_hours"
  if ttlHours.nullish then some (.rat (env.now + config.ttlHours * 3600000))
  else (js.numeric ttlHours).map (fun x => .primitive (.number ((x.times 3600000).plus env.now)))

def stringified : Option JsString → AnyValue
  | none => .primitive .undefined
  | some s => .primitive (.string s)

def metadataStr (js : JsRuntime) (o : EventObject) : Option AnyValue :=
  match o.get "metadata" with
  | .primitive .undefined | .primitive .null => some (.primitive .null)
  | .primitive (.string s) => some (.primitive (.string s))
  | v => (js.stringify v).map stringified

def chooseValue (o : EventObject) (key : String) (fromCtx : AnyValue) : AnyValue :=
  if o.own key then if (o.get key).nullish then .primitive .null else o.get key else fromCtx

def causalityValues (o : EventObject) (ctx : CausalityContext) : List AnyValue :=
  [chooseValue o "correlation_id" (.orNull .encoded ctx.correlationId),
    chooseValue o "session_id" (.orNull .encoded ctx.sessionId),
    chooseValue o "parent_event_id" (.orNull .int ctx.parentEventId),
    chooseValue o "producer_id" (.orNull .encoded ctx.producerId)]

def insertParams (js : JsRuntime) (config : EmitConfig) (o : EventObject) (env : EmitEnv) :
    Option (List AnyValue) :=
  match expiresAt js config o env, metadataStr js o with
  | some expires, some metadata =>
    some ([o.get "event_type",o.get "domain",orElseValue (o.get "subdomain") (.text ""),
      .encoded env.registry.payload,orElseValue (o.get "schema_version") (.text "1.0.0"),
      keyValue o env,.int env.now,expires,.rat (env.now + config.dedupTtlHours * 3600000),metadata,
      .orNull .int env.registry.registrySchemaVersion,
      .orNull .encoded env.registry.payloadCasSha] ++ causalityValues o env.ctx)
  | _, _ => none

inductive SqlValue where
  | null
  | integer (n : ℤ)
  | number (x : JsNumber)
  | text (s : Text)
  | blob
  deriving DecidableEq, Repr

def storedValue : AnyValue → Option SqlValue
  | .primitive .undefined | .primitive .null | .primitive (.number .nan) => some .null
  | .primitive (.number x) => some (.number x)
  | .primitive (.string s) => some (.text (Utf16.decode s))
  | .primitive (.bigint n) => if -2 ^ 63 ≤ n ∧ n < 2 ^ 63 then some (.integer n) else none
  | .exotic .buffer => some .blob
  | _ => none

def spreadArgument : AnyValue → List AnyValue
  | .array items => items
  | .object _ => []
  | v => [v]

def positional (args : List AnyValue) : List AnyValue := args.flatMap spreadArgument

def AnyValue.isPlainObject : AnyValue → Bool
  | .object _ => true
  | _ => false

def namedObjects (args : List AnyValue) : ℕ := args.countP AnyValue.isPlainObject

structure Sqlite where
  bind : ℕ → List AnyValue → Option (List SqlValue)
  length : SqlValue → Option ℕ

def nul : Char := Char.ofNat 0

structure Sqlite.Documented (sql : Sqlite) : Prop where
  binds : ∀ n args values, sql.bind n args = some values ↔
    namedObjects args ≤ 1 ∧ (positional args).length = n ∧
      List.Forall₂ (fun v x => storedValue v = some x) (positional args) values
  length_text : ∀ t : Text, sql.length (.text t) = some (t.takeWhile (fun c => decide (c ≠ nul))).length

structure Column where
  name : String
  notNull : Bool
  maxLength : Option ℕ
  deriving DecidableEq, Repr

def insertColumns : List Column :=
  [⟨"event_type",true,some 128⟩,⟨"domain",true,some 64⟩,⟨"subdomain",true,some 64⟩,⟨"payload",true,none⟩,
    ⟨"schema_version",true,none⟩,⟨"idempotency_key",true,none⟩,⟨"emitted_at",true,none⟩,
    ⟨"expires_at",true,none⟩,⟨"dedup_expires_at",true,none⟩,⟨"metadata",false,none⟩,
    ⟨"registry_schema_version",false,none⟩,⟨"payload_cas_sha",false,none⟩,⟨"correlation_id",false,none⟩,
    ⟨"session_id",false,none⟩,⟨"parent_event_id",false,none⟩,⟨"producer_id",false,none⟩]

inductive InsertFailure where
  | bind
  | notNull (column : String)
  | check (column : String)
  deriving DecidableEq, Repr

def Column.missing (c : Column) (v : SqlValue) : Bool := c.notNull && decide (v = .null)

def Column.tooLong (sql : Sqlite) (c : Column) (v : SqlValue) : Bool :=
  c.maxLength.any (fun bound => (sql.length v).any (fun n => decide (bound < n)))

def insertFailure (sql : Sqlite) (params : List AnyValue) : Option InsertFailure :=
  match sql.bind insertColumns.length params with
  | none => some .bind
  | some values =>
    match (insertColumns.zip values).find? (fun x => x.1.missing x.2) with
    | some x => some (.notNull x.1.name)
    | none =>
      ((insertColumns.zip values).find? (fun x => x.1.tooLong sql x.2)).map (fun x => .check x.1.name)

def AnyValue.isText : AnyValue → Bool
  | .primitive (.string _) => true
  | _ => false

structure Serialises (js : JsRuntime) (o : EventObject) : Prop where
  ttlHours : (o.get "ttl_hours").nullish = true ∨ (js.numeric (o.get "ttl_hours")).isSome = true
  metadata : (o.get "metadata").nullish = true ∨ (o.get "metadata").isText = true ∨
    (js.stringify (o.get "metadata")).isSome = true

def storesNull (v : AnyValue) : Bool := decide (storedValue v = some .null)

def ttlNaN (js : JsRuntime) (o : EventObject) : Bool :=
  !(o.get "ttl_hours").nullish && decide (js.numeric (o.get "ttl_hours") = some .nan)

def metadataNull (js : JsRuntime) (o : EventObject) : Bool :=
  (o.get "metadata").nullish ||
    !(o.get "metadata").isText && decide (js.stringify (o.get "metadata") = some none)

def uncheckedValues (o : EventObject) (env : EmitEnv) : List AnyValue :=
  keyValue o env :: causalityValues o env.ctx

structure Insertable (js : JsRuntime) (o : EventObject) (env : EmitEnv) : Prop where
  oneObject : namedObjects (uncheckedValues o env) ≤ 1
  five : (positional (uncheckedValues o env)).length = 5
  bindable : ∀ v ∈ positional (uncheckedValues o env), (storedValue v).isSome = true
  -- emitted_at and dedup_expires_at are numbers whatever the event holds
  filled : true ∉ ((spreadArgument (keyValue o env)).map storesNull ++
    [false,ttlNaN js o,false,metadataNull js o]).take 4

section Columns

variable {sql : Sqlite} {params rest : List AnyValue} {values : List SqlValue} {columns : List Column}

theorem insertFailure_eq_none : insertFailure sql params = none ↔
    ∃ values, sql.bind insertColumns.length params = some values ∧
      (∀ x ∈ insertColumns.zip values, x.1.missing x.2 = false) ∧
      ∀ x ∈ insertColumns.zip values, x.1.tooLong sql x.2 = false := by
  unfold insertFailure
  cases hbind : sql.bind insertColumns.length params with
  | none => simp
  | some values =>
    cases hmissing : (insertColumns.zip values).find? (fun x => x.1.missing x.2) with
    | some x =>
      have hx := List.find?_some hmissing
      have hmem := List.mem_of_find?_eq_some hmissing
      simp only [hmissing,reduceCtorEq,false_iff]
      rintro ⟨_,hsome,hall,-⟩
      cases hsome
      exact absurd (hall x hmem) (by rw [hx]; decide)
    | none =>
      have hall := List.find?_eq_none.mp hmissing
      simp only [hmissing,Option.map_eq_none_iff,List.find?_eq_none,Bool.not_eq_true,Option.some.injEq,
        exists_eq_left']
      exact ⟨fun h => ⟨by simpa using hall,h⟩,And.right⟩

theorem forall₂_stored {l : List AnyValue} :
    List.Forall₂ (fun v x => storedValue v = some x) l values ↔ l.map storedValue = values.map some := by
  induction l generalizing values with
  | nil => cases values <;> simp
  | cons v l ih => cases values <;> simp [ih]

theorem missing_zip_iff (hnot : ∀ c ∈ columns, c.notNull = true) (hlen : columns.length ≤ values.length) :
    (∀ x ∈ columns.zip values, x.1.missing x.2 = false) ↔ .null ∉ values.take columns.length := by
  induction columns generalizing values with
  | nil => simp
  | cons c columns ih =>
    cases values with
    | nil => simp at hlen
    | cons v values =>
      have hc : c.notNull = true := hnot c (List.mem_cons_self ..)
      have htail := @ih values (fun d hd => hnot d (List.mem_cons_of_mem _ hd)) (by simpa using hlen)
      have hv : c.missing v = false ↔ .null ≠ v := by simp [Column.missing,hc,eq_comm]
      rw [List.zip_cons_cons,List.forall_mem_cons,htail,hv,List.length_cons,List.take_succ_cons,List.mem_cons,
        not_or]

theorem missing_zip_optional (hnot : ∀ c ∈ columns, c.notNull = false) :
    ∀ x ∈ columns.zip values, x.1.missing x.2 = false := by
  rintro ⟨c,v⟩ hx
  simp only [Column.missing,hnot c (List.of_mem_zip hx).1,Bool.false_and]

theorem tooLong_zip_unbounded (hnone : ∀ c ∈ columns, c.maxLength = none) :
    ∀ x ∈ columns.zip values, x.1.tooLong sql x.2 = false := by
  rintro ⟨c,v⟩ hx
  simp only [Column.tooLong,hnone c (List.of_mem_zip hx).1,Option.any_none]

theorem tooLong_text {c : Column} {bound : ℕ} {t : Text} (hsql : sql.Documented) (hc : c.maxLength = some bound)
    (ht : t.length ≤ bound) : c.tooLong sql (.text t) = false := by
  have hle : (t.takeWhile (fun c => decide (c ≠ nul))).length ≤ t.length :=
    (List.takeWhile_prefix _).length_le
  simp only [Column.tooLong,hc,hsql.length_text,Option.any_some,decide_eq_false_iff_not,not_lt]
  omega

theorem rest_constraints_iff (hlen : values.length = 11) :
    (∀ x ∈ (insertColumns.drop 5).zip values, x.1.missing x.2 = false) ↔ .null ∉ values.take 4 := by
  have hsplit : (insertColumns.drop 5).zip values =
      ((insertColumns.drop 5).take 4).zip (values.take 4) ++ (insertColumns.drop 9).zip (values.drop 4) := by
    rw [← List.zip_append (by simp [insertColumns,hlen]),List.take_append_drop]
    rfl
  rw [hsplit,List.forall_mem_append,and_iff_left (missing_zip_optional (by decide)),
    missing_zip_iff (by decide) (by simp [insertColumns,hlen])]
  simp [insertColumns,List.take_take]

end Columns

section Params

variable {sql : Sqlite} {args rest : List AnyValue} {values : List SqlValue} {a b c d e : JsString}

theorem stored_values_iff : (∃ values : List SqlValue, args.map storedValue = values.map some) ↔
    ∀ v ∈ args, (storedValue v).isSome = true := by
  constructor
  · rintro ⟨values,h⟩ v hv
    obtain ⟨x,-,hx⟩ := List.mem_map.mp (h ▸ List.mem_map_of_mem (f := storedValue) hv)
    rw [← hx,Option.isSome_some]
  · intro h
    refine ⟨args.filterMap storedValue,?_⟩
    induction args with
    | nil => rfl
    | cons v args ih =>
      obtain ⟨x,hx⟩ := Option.isSome_iff_exists.mp (h v (List.mem_cons_self ..))
      rw [List.filterMap_cons_some hx,List.map_cons,List.map_cons,hx,
        ih (fun w hw => h w (List.mem_cons_of_mem _ hw))]

theorem null_take_iff (h : args.map storedValue = values.map some) (n : ℕ) :
    .null ∉ values.take n ↔ ∀ v ∈ args.take n, storedValue v ≠ some .null := by
  have htake : (args.take n).map storedValue = (values.take n).map some := by
    rw [List.map_take,List.map_take,h]
  have hmem : SqlValue.null ∈ values.take n ↔ some .null ∈ (args.take n).map storedValue := by
    rw [htake,List.mem_map_of_injective (Option.some_injective _)]
  rw [hmem,List.mem_map]
  push Not
  rfl

def strings (texts : List JsString) : List AnyValue := texts.map (fun s => .primitive (.string s))

def textValues (texts : List JsString) : List SqlValue := texts.map (fun s => .text (Utf16.decode s))

theorem text_constraints_iff (hsql : sql.Documented) (ha : (Utf16.decode a).length ≤ 128)
    (hb : (Utf16.decode b).length ≤ 64) (hc : (Utf16.decode c).length ≤ 64) (hlen : values.length = 11) :
    ((∀ x ∈ insertColumns.zip (textValues [a,b,c,d,e] ++ values), x.1.missing x.2 = false) ∧
      ∀ x ∈ insertColumns.zip (textValues [a,b,c,d,e] ++ values), x.1.tooLong sql x.2 = false) ↔
      .null ∉ values.take 4 := by
  have hzip : insertColumns.zip (textValues [a,b,c,d,e] ++ values) =
      (insertColumns.take 5).zip (textValues [a,b,c,d,e]) ++ (insertColumns.drop 5).zip values := rfl
  have hfilled : ∀ x ∈ (insertColumns.take 5).zip (textValues [a,b,c,d,e]), x.1.missing x.2 = false := by
    simp [insertColumns,textValues,Column.missing]
  have hshort : ∀ x ∈ (insertColumns.take 5).zip (textValues [a,b,c,d,e]), x.1.tooLong sql x.2 = false := by
    simp only [insertColumns,textValues,List.take_succ_cons,List.take_zero,List.map_cons,List.map_nil,
      List.zip_cons_cons,List.zip_nil_left,List.forall_mem_cons]
    exact ⟨tooLong_text hsql rfl ha,tooLong_text hsql rfl hb,tooLong_text hsql rfl hc,rfl,rfl,by simp⟩
  rw [hzip,List.forall_mem_append,List.forall_mem_append,rest_constraints_iff hlen,and_iff_right hshort,
    and_iff_left (tooLong_zip_unbounded (by decide)),and_iff_right hfilled]

theorem insertFailure_strings_iff (hsql : sql.Documented) (ha : (Utf16.decode a).length ≤ 128)
    (hb : (Utf16.decode b).length ≤ 64) (hc : (Utf16.decode c).length ≤ 64) :
    insertFailure sql (strings [a,b,c,d,e] ++ rest) = none ↔
      namedObjects rest ≤ 1 ∧ (positional rest).length = 11 ∧
        (∀ v ∈ positional rest, (storedValue v).isSome = true) ∧
        ∀ v ∈ (positional rest).take 4, storedValue v ≠ some .null := by
  have hpos : positional (strings [a,b,c,d,e] ++ rest) = strings [a,b,c,d,e] ++ positional rest := by
    simp [positional,strings,spreadArgument]
  have hnamed : namedObjects (strings [a,b,c,d,e] ++ rest) = namedObjects rest := by
    simp [namedObjects,strings,AnyValue.isPlainObject]
  have htexts : (strings [a,b,c,d,e]).map storedValue = (textValues [a,b,c,d,e]).map some := rfl
  have hcount : (strings [a,b,c,d,e] ++ positional rest).length = insertColumns.length ↔
      (positional rest).length = 11 := by
    simp [strings,insertColumns]
  rw [insertFailure_eq_none]
  simp only [hsql.binds,hpos,hnamed,hcount,forall₂_stored,List.map_append,htexts]
  constructor
  · rintro ⟨values,⟨hone,hlen,hmap⟩,hok⟩
    obtain ⟨texts,values,rfl,htexts',hvalues⟩ := List.append_eq_map_iff.mp hmap
    cases (List.map_injective_iff.mpr (Option.some_injective _)) htexts'
    have hlen' : values.length = 11 := by
      rw [← List.length_map (f := some),hvalues,List.length_map,hlen]
    exact ⟨hone,hlen,stored_values_iff.mp ⟨values,hvalues.symm⟩,
      (null_take_iff hvalues.symm 4).mp ((text_constraints_iff hsql ha hb hc hlen').mp hok)⟩
  · rintro ⟨hone,hlen,hbind,hfilled⟩
    obtain ⟨values,hvalues⟩ := stored_values_iff.mpr hbind
    have hlen' : values.length = 11 := by
      rw [← List.length_map (f := some),← hvalues,List.length_map,hlen]
    exact ⟨textValues [a,b,c,d,e] ++ values,⟨hone,hlen,by rw [hvalues,List.map_append]⟩,
      (text_constraints_iff hsql ha hb hc hlen').mpr ((null_take_iff hvalues 4).mpr hfilled)⟩

end Params

theorem jsLength_decode (s : JsString) : jsLength (Utf16.decode s) = s.length := Utf16.unitCount_decode s

section Validated

variable {received : List String} {field : String} {bound : ℕ} {v : FieldValue}

theorem checkText_ok {s : {s : Text // jsLength s ≤ bound}} (h : checkText received field bound v = .ok s) :
    v = .text s.val := by
  unfold checkText at h
  split at h
  · split_ifs at h
    cases h
    rfl
  · cases h

theorem checkEventType_ok {t : {t : Filter.EventType // t.val.length ≤ 128}}
    (h : checkEventType received v = .ok t) : v = .text t.val.val := by
  obtain ⟨s,hs,h⟩ := bind_eq_ok.mp h
  split_ifs at h
  cases h
  exact checkText_ok hs

theorem checkDomain_ok {d : Filter.Domain} (h : checkDomain received v = .ok d) : v = .text d.val := by
  obtain ⟨s,hs,h⟩ := bind_eq_ok.mp h
  split_ifs at h
  cases h
  exact checkText_ok hs

theorem checkSubdomain_ok {s : {s : Option Text // ∀ t ∈ s, t.length ≤ 64}}
    (h : checkSubdomain received v = .ok s) :
    (v = .undefined ∨ v = .null) ∧ s.val = none ∨ ∃ t, v = .text t ∧ s.val = some t := by
  cases v with
  | undefined =>
    cases h
    exact .inl ⟨.inl rfl,rfl⟩
  | null =>
    cases h
    exact .inl ⟨.inr rfl,rfl⟩
  | text t =>
    obtain ⟨s,hs,h⟩ := bind_eq_ok.mp h
    cases h
    cases checkText_ok hs
    exact .inr ⟨_,rfl,rfl⟩
  | other truthy =>
    obtain ⟨s,hs,-⟩ := bind_eq_ok.mp h
    cases hs

theorem checkSchemaVersion_ok {x : Option String} (h : checkSchemaVersion received v = .ok x) :
    (v = .undefined ∨ v = .null) ∧ x = none ∨ ∃ t, v = .text t ∧ x = some (String.ofList t) := by
  cases v with
  | undefined =>
    cases h
    exact .inl ⟨.inl rfl,rfl⟩
  | null =>
    cases h
    exact .inl ⟨.inr rfl,rfl⟩
  | text t =>
    simp only [checkSchemaVersion] at h
    split at h
    · cases h
    · split_ifs at h
      cases h
      exact .inr ⟨t,rfl,rfl⟩
  | other truthy => cases h

structure ReadsValid (event : EventInput) (v : Validated) : Prop where
  eventType : event.eventType = .text v.event.eventType.val
  domain : event.domain = .text v.event.domain.val
  subdomain : (event.subdomain = .undefined ∨ event.subdomain = .null) ∧ v.event.subdomain = none ∨
    ∃ t, event.subdomain = .text t ∧ v.event.subdomain = some t
  schemaVersion : (event.schemaVersion = .undefined ∨ event.schemaVersion = .null) ∧
    v.event.schemaVersion = none ∨
    ∃ t, event.schemaVersion = .text t ∧ v.event.schemaVersion = some (String.ofList t)
  idempotencyKey : v.event.idempotencyKey = event.idempotencyKey
  ttlHours : v.event.ttlHours = event.ttlHours
  metadata : v.event.metadata = event.metadata
  correlationId : v.event.correlationId = event.correlationId
  sessionId : v.event.sessionId = event.sessionId
  parentEventId : v.event.parentEventId = event.parentEventId
  producerId : v.event.producerId = event.producerId

theorem validateEvent_reads {parsesToObject : String → Bool} {maxPayloadBytes : ℕ} {event : EventInput}
    {v : Validated} (h : validateEvent parsesToObject maxPayloadBytes (some event) = .ok v) :
    ReadsValid event v := by
  simp only [validateEvent] at h
  split_ifs at h
  · cases h
  · obtain ⟨eventType,htype,h⟩ := bind_eq_ok.mp h
    obtain ⟨domain,hdomain,h⟩ := bind_eq_ok.mp h
    obtain ⟨subdomain,hsub,h⟩ := bind_eq_ok.mp h
    obtain ⟨payload,-,h⟩ := bind_eq_ok.mp h
    obtain ⟨_,-,h⟩ := bind_eq_ok.mp h
    obtain ⟨schemaVersion,hversion,h⟩ := bind_eq_ok.mp h
    cases h
    exact ⟨checkEventType_ok htype,checkDomain_ok hdomain,checkSubdomain_ok hsub,checkSchemaVersion_ok hversion,
      rfl,rfl,rfl,rfl,rfl,rfl,rfl⟩

theorem fieldValue_text {w : AnyValue} {t : Text} (h : fieldValue w = .text t) :
    ∃ s, w = .primitive (.string s) ∧ Utf16.decode s = t := by
  cases w with
  | primitive p =>
    cases p with
    | string s => exact ⟨s,rfl,FieldValue.text.inj h⟩
    | undefined | null | bool b | number x | bigint n | symbol => cases h
  | array items | object fields | exotic kind => cases h

theorem fieldValue_nullish {w : AnyValue} (h : fieldValue w = .undefined ∨ fieldValue w = .null) :
    w.nullish = true := by
  rcases h with h | h <;> cases w with
  | primitive p => cases p <;> first | rfl | cases h
  | array items | object fields | exotic kind => cases h

theorem orElseValue_nullish {w d : AnyValue} (h : w.nullish = true) : orElseValue w d = d := by
  cases w with
  | primitive p =>
    cases p with
    | undefined | null => rfl
    | bool b | number x | string s | bigint n | symbol => cases h
  | array items | object fields | exotic kind => cases h

theorem orElseValue_string (s : JsString) (d : AnyValue) : orElseValue (.primitive (.string s)) d =
    if s = [] then d else .primitive (.string s) := by
  unfold orElseValue
  by_cases hs : s = [] <;> simp [AnyValue.truthy,hs]

end Validated

section Emitted

variable {js : JsRuntime} {config : EmitConfig} {o : EventObject} {env : EmitEnv} {event : EventInput}
variable {v : Validated} {x : AnyValue} {params : List AnyValue}

theorem validated_strings (hreads : o.Reads js event) (hvalid : ReadsValid event v) :
    ∃ a b c e, o.get "event_type" = .primitive (.string a) ∧ o.get "domain" = .primitive (.string b) ∧
      orElseValue (o.get "subdomain") (.text "") = .primitive (.string c) ∧
      orElseValue (o.get "schema_version") (.text "1.0.0") = .primitive (.string e) ∧
      Utf16.decode a = v.event.eventType.val ∧ Utf16.decode b = v.event.domain.val ∧
      Utf16.decode c = v.event.subdomain.getD [] ∧
      String.ofList (Utf16.decode e) = orDefault v.event.schemaVersion "1.0.0" := by
  obtain ⟨a,ha,hdeca⟩ := fieldValue_text (hreads.eventType.symm.trans hvalid.eventType)
  obtain ⟨b,hb,hdecb⟩ := fieldValue_text (hreads.domain.symm.trans hvalid.domain)
  obtain ⟨c,hc,hdecc⟩ : ∃ c, orElseValue (o.get "subdomain") (.text "") = .primitive (.string c) ∧
      Utf16.decode c = v.event.subdomain.getD [] := by
    rcases hvalid.subdomain with ⟨hnone,hsub⟩ | ⟨t,ht,hsub⟩
    · rw [orElseValue_nullish (fieldValue_nullish (hreads.subdomain ▸ hnone)),hsub]
      exact ⟨[],rfl,rfl⟩
    · obtain ⟨s,hs,rfl⟩ := fieldValue_text (hreads.subdomain.symm.trans ht)
      rw [hs,orElseValue_string,hsub]
      refine ⟨s,?_,rfl⟩
      split_ifs with hempty
      · rw [hempty]
        rfl
      · rfl
  obtain ⟨e,he,hdece⟩ : ∃ e, orElseValue (o.get "schema_version") (.text "1.0.0") = .primitive (.string e) ∧
      String.ofList (Utf16.decode e) = orDefault v.event.schemaVersion "1.0.0" := by
    rcases hvalid.schemaVersion with ⟨hnone,hversion⟩ | ⟨t,ht,hversion⟩
    · rw [orElseValue_nullish (fieldValue_nullish (hreads.schemaVersion ▸ hnone)),hversion]
      exact ⟨ascii "1.0.0",rfl,by decide⟩
    · obtain ⟨s,hs,rfl⟩ := fieldValue_text (hreads.schemaVersion.symm.trans ht)
      rw [hs,orElseValue_string,hversion]
      by_cases hempty : s = []
      · subst hempty
        exact ⟨ascii "1.0.0",rfl,by decide⟩
      · refine ⟨s,if_neg hempty,?_⟩
        have hne : String.ofList (Utf16.decode s) ≠ "" := by
          intro h
          refine hempty (List.eq_nil_of_length_eq_zero ?_)
          rw [← jsLength_decode,String.ofList_eq_empty_iff.mp h]
          rfl
        simp only [orDefault,if_neg hne]
  exact ⟨a,b,c,e,ha,hb,hc,he,hdeca,hdecb,hdecc,hdece⟩

theorem storesNull_number (x : JsNumber) : storesNull (.primitive (.number x)) = decide (x = .nan) := by
  cases x <;> rfl

theorem plus_times_nan (x : JsNumber) (c d : ℚ) (hc : c ≠ 0) : (x.times c).plus d = .nan ↔ x = .nan := by
  cases x <;> simp [JsNumber.times,JsNumber.plus,hc]

theorem expiresAt_some (h : expiresAt js config o env = some x) :
    ∃ n, x = .primitive (.number n) ∧ storesNull x = ttlNaN js o := by
  unfold expiresAt at h
  unfold ttlNaN
  cases hnull : (o.get "ttl_hours").nullish with
  | true =>
    simp only [hnull,if_true,Option.some.injEq] at h
    subst h
    exact ⟨_,rfl,rfl⟩
  | false =>
    simp only [hnull,Bool.false_eq_true,if_false,Option.map_eq_some_iff] at h
    obtain ⟨n,hn,rfl⟩ := h
    refine ⟨_,rfl,?_⟩
    rw [storesNull_number,hn]
    simp [plus_times_nan n 3600000 env.now (by norm_num)]

theorem metadataStr_eq (js : JsRuntime) (o : EventObject) : metadataStr js o =
    if (o.get "metadata").nullish then some (.primitive .null)
    else if (o.get "metadata").isText then some (o.get "metadata")
    else (js.stringify (o.get "metadata")).map stringified := by
  unfold metadataStr
  cases o.get "metadata" with
  | primitive p => cases p <;> rfl
  | array items | object fields | exotic kind => rfl

structure Scalar (x : AnyValue) : Prop where
  spread : spreadArgument x = [x]
  plain : x.isPlainObject = false
  stored : (storedValue x).isSome = true

theorem scalar_string (s : JsString) : Scalar (.primitive (.string s)) := ⟨rfl,rfl,rfl⟩

theorem scalar_number (n : JsNumber) : Scalar (.primitive (.number n)) := by
  refine ⟨rfl,rfl,?_⟩
  cases n <;> rfl

theorem scalar_orNull {α : Type} {f : α → AnyValue} (hf : ∀ a, Scalar (f a)) (a : Option α) :
    Scalar (.orNull f a) := by
  cases a with
  | none => exact ⟨rfl,rfl,rfl⟩
  | some a => exact hf a

theorem metadataStr_some (h : metadataStr js o = some x) : Scalar x ∧ storesNull x = metadataNull js o := by
  rw [metadataStr_eq] at h
  unfold metadataNull
  split_ifs at h with hnull htext
  · cases h
    rw [hnull]
    exact ⟨⟨rfl,rfl,rfl⟩,rfl⟩
  · cases h
    cases hw : o.get "metadata" with
    | primitive p => cases p <;> first | exact ⟨scalar_string _,rfl⟩ | simp [hw,AnyValue.isText] at htext
    | array items | object fields | exotic kind => simp [hw,AnyValue.isText] at htext
  · obtain ⟨json,hjson,rfl⟩ := Option.map_eq_some_iff.mp h
    rw [hjson]
    cases json with
    | none => exact ⟨⟨rfl,rfl,rfl⟩,by simp [stringified,storesNull,storedValue,htext]⟩
    | some s => exact ⟨scalar_string s,by simp [stringified,storesNull,storedValue,hnull]⟩

theorem serialises_iff : Serialises js o ↔ (insertParams js config o env).isSome = true := by
  have hexpires : (expiresAt js config o env).isSome = true ↔
      (o.get "ttl_hours").nullish = true ∨ (js.numeric (o.get "ttl_hours")).isSome = true := by
    unfold expiresAt
    cases hnull : (o.get "ttl_hours").nullish <;> simp [hnull]
  have hmetadata : (metadataStr js o).isSome = true ↔ (o.get "metadata").nullish = true ∨
      (o.get "metadata").isText = true ∨ (js.stringify (o.get "metadata")).isSome = true := by
    rw [metadataStr_eq]
    split_ifs with hnull htext
    · simp [hnull]
    · simp [htext]
    · simp [hnull,htext]
  have hboth : (insertParams js config o env).isSome = true ↔
      (expiresAt js config o env).isSome = true ∧ (metadataStr js o).isSome = true := by
    unfold insertParams
    cases expiresAt js config o env <;> cases metadataStr js o <;> simp
  rw [hboth,hexpires,hmetadata]
  exact ⟨fun h => ⟨h.ttlHours,h.metadata⟩,fun h => ⟨h.1,h.2⟩⟩

theorem positional_append (args rest : List AnyValue) :
    positional (args ++ rest) = positional args ++ positional rest :=
  List.flatMap_append

theorem positional_scalars {args : List AnyValue} (h : ∀ x ∈ args, Scalar x) : positional args = args := by
  induction args with
  | nil => rfl
  | cons x args ih =>
    have htail := ih (fun y hy => h y (List.mem_cons_of_mem _ hy))
    rw [show x :: args = [x] ++ args from rfl,positional_append,htail]
    simp [positional,(h x (List.mem_cons_self ..)).spread]

theorem namedObjects_scalars {args : List AnyValue} (h : ∀ x ∈ args, Scalar x) : namedObjects args = 0 := by
  refine List.countP_eq_zero.mpr (fun x hx => ?_)
  rw [(h x hx).plain]
  exact Bool.false_ne_true

structure EmittedParams (js : JsRuntime) (o : EventObject) (env : EmitEnv) (rest : List AnyValue) : Prop where
  shape : ∃ now expires dedup metadata version sha,
    rest = keyValue o env :: [now,expires,dedup,metadata,version,sha] ++ causalityValues o env.ctx ∧
      (∀ x ∈ [now,expires,dedup,metadata,version,sha], Scalar x) ∧
      [now,expires,dedup,metadata].map storesNull = [false,ttlNaN js o,false,metadataNull js o]

theorem EmittedParams.insertable_iff {rest : List AnyValue} (h : EmittedParams js o env rest) :
    (namedObjects rest ≤ 1 ∧ (positional rest).length = 11 ∧
      (∀ x ∈ positional rest, (storedValue x).isSome = true) ∧
      ∀ x ∈ (positional rest).take 4, storedValue x ≠ some .null) ↔ Insertable js o env := by
  obtain ⟨now,expires,dedup,metadata,version,sha,rfl,hscalar,hnull⟩ := h.shape
  have hpos : positional
      (keyValue o env :: [now,expires,dedup,metadata,version,sha] ++ causalityValues o env.ctx) =
      spreadArgument (keyValue o env) ++ [now,expires,dedup,metadata,version,sha] ++
        positional (causalityValues o env.ctx) := by
    rw [positional_append,show keyValue o env :: [now,expires,dedup,metadata,version,sha] =
      [keyValue o env] ++ [now,expires,dedup,metadata,version,sha] from rfl,positional_append,
      positional_scalars hscalar]
    simp [positional]
  have hunchecked : positional (uncheckedValues o env) =
      spreadArgument (keyValue o env) ++ positional (causalityValues o env.ctx) := by
    simp [uncheckedValues,positional]
  have hnamed : namedObjects (keyValue o env :: [now,expires,dedup,metadata,version,sha] ++
      causalityValues o env.ctx) = namedObjects (uncheckedValues o env) := by
    have hzero := namedObjects_scalars hscalar
    simp only [uncheckedValues,namedObjects,List.countP_append,List.countP_cons] at hzero ⊢
    omega
  have hfirst : ((spreadArgument (keyValue o env) ++ [now,expires,dedup,metadata,version,sha] ++
      positional (causalityValues o env.ctx)).take 4).map storesNull =
      ((spreadArgument (keyValue o env)).map storesNull ++
        [false,ttlNaN js o,false,metadataNull js o]).take 4 := by
    have hshape : spreadArgument (keyValue o env) ++ [now,expires,dedup,metadata,version,sha] ++
        positional (causalityValues o env.ctx) =
          (spreadArgument (keyValue o env) ++ [now,expires,dedup,metadata]) ++
          ([version,sha] ++ positional (causalityValues o env.ctx)) := by simp
    rw [hshape,List.take_append_of_le_length (by simp),List.map_take,List.map_append,hnull]
  rw [hpos,hnamed]
  constructor
  · rintro ⟨hone,hlen,hbind,hfilled⟩
    refine ⟨hone,?_,?_,?_⟩
    · rw [hunchecked]
      simp only [List.length_append,List.length_cons,List.length_nil] at hlen ⊢
      omega
    · intro x hx
      rw [hunchecked,List.mem_append] at hx
      exact hbind x (by simp only [List.mem_append]; tauto)
    · rw [← hfirst]
      intro hmem
      obtain ⟨x,hx,hnullx⟩ := List.mem_map.mp hmem
      exact hfilled x hx (of_decide_eq_true hnullx)
  · intro h
    refine ⟨h.oneObject,?_,?_,?_⟩
    · have hfive := h.five
      rw [hunchecked] at hfive
      simp only [List.length_append,List.length_cons,List.length_nil] at hfive ⊢
      omega
    · intro x hx
      simp only [List.mem_append,or_assoc] at hx
      rcases hx with hx | hx | hx
      · exact h.bindable x (by rw [hunchecked]; exact List.mem_append_left _ hx)
      · exact (hscalar x hx).stored
      · exact h.bindable x (by rw [hunchecked]; exact List.mem_append_right _ hx)
    · intro x hx hnullx
      refine h.filled ?_
      rw [← hfirst]
      exact List.mem_map.mpr ⟨x,hx,decide_eq_true hnullx⟩

theorem insertParams_shape (hreads : o.Reads js event) (hvalid : ReadsValid event v)
    (h : insertParams js config o env = some params) :
    ∃ a b c d e rest, params = strings [a,b,c,d,e] ++ rest ∧ (Utf16.decode a).length ≤ 128 ∧
      (Utf16.decode b).length ≤ 64 ∧ (Utf16.decode c).length ≤ 64 ∧ EmittedParams js o env rest := by
  obtain ⟨a,b,c,e,ha,hb,hc,he,hdeca,hdecb,hdecc,-⟩ := validated_strings hreads hvalid
  unfold insertParams at h
  split at h
  · rename_i expires metadata hexpires hmetadata
    obtain ⟨n,rfl,hnan⟩ := expiresAt_some hexpires
    obtain ⟨hscalar,hnull⟩ := metadataStr_some hmetadata
    rw [ha,hb,hc,he] at h
    refine ⟨a,b,c,Utf16.encode env.registry.payload.toList,e,_,(Option.some.inj h).symm,?_,?_,?_,
      ⟨_,_,_,_,_,_,rfl,?_,?_⟩⟩
    · rw [hdeca]
      exact v.event.eventType_length
    · rw [hdecb]
      exact v.event.domain.property.2
    · rw [hdecc]
      cases hsub : v.event.subdomain with
      | none => simp
      | some t => exact v.event.subdomain_length t hsub
    · simp only [List.forall_mem_cons]
      exact ⟨scalar_number _,scalar_number _,scalar_number _,hscalar,
        scalar_orNull (fun _ => scalar_number _) _,scalar_orNull (fun _ => scalar_string _) _,by simp⟩
    · simp only [List.map_cons,List.map_nil,hnan,hnull]
      rfl
  · cases h

end Emitted

def Denotes {α : Type} (f : α → AnyValue) (x : AnyValue) : Option α → Prop
  | none => x.nullish = true
  | some a => x = f a

def DenotesOwn {α : Type} (f : α → AnyValue) (o : EventObject) (key : String) : Option (Option α) → Prop
  | none => o.own key = false
  | some a => o.own key = true ∧ Denotes f (o.get key) a

structure EventObject.Typed (js : JsRuntime) (o : EventObject) (event : EventInput) : Prop extends
    o.Reads js event where
  idempotencyKey : Denotes .encoded (o.get "idempotency_key") event.idempotencyKey
  ttlHours : Denotes .rat (o.get "ttl_hours") event.ttlHours
  metadata : metadataStr js o = some (.orNull .encoded event.metadata)
  correlationId : DenotesOwn .encoded o "correlation_id" event.correlationId
  sessionId : DenotesOwn .encoded o "session_id" event.sessionId
  parentEventId : DenotesOwn .int o "parent_event_id" event.parentEventId
  producerId : DenotesOwn .encoded o "producer_id" event.producerId

def SqlValue.ofOption {α : Type} (f : α → SqlValue) : Option α → SqlValue
  | none => .null
  | some a => f a

def SqlValue.string (s : String) : SqlValue := .text s.toList

def SqlValue.rat (q : ℚ) : SqlValue := .number (.finite q)

def SqlValue.int (n : ℤ) : SqlValue := .rat n

def NewEvent.values (n : NewEvent) : List SqlValue :=
  [.text n.eventType,.text n.domain,.text n.subdomain,.string n.payload,.string n.schemaVersion,
    .string n.idempotencyKey,.int n.emittedAt,.rat n.expiresAt,.rat n.dedupExpiresAt,
    .ofOption .string n.metadata,.ofOption .int n.registrySchemaVersion,.ofOption .string n.payloadCasSha,
    .ofOption .string n.correlationId,.ofOption .string n.sessionId,.ofOption .int n.parentEventId,
    .ofOption .string n.producerId]

section Typed

variable {js : JsRuntime} {config : EmitConfig} {o : EventObject} {env : EmitEnv} {event : EventInput}
variable {v : Validated} {α : Type} {f : α → AnyValue} {g : α → SqlValue} {key : String}

theorem storedValue_encoded (s : String) : storedValue (.encoded s) = some (.string s) := by
  simp only [AnyValue.encoded,storedValue,Utf16.decode_encode,SqlValue.string]

theorem storedValue_orNull (h : ∀ a, storedValue (f a) = some (g a)) (a : Option α) :
    storedValue (.orNull f a) = some (.ofOption g a) := by
  cases a with
  | none => rfl
  | some a => exact h a

theorem chooseValue_denotes {own : Option (Option α)} {ctx : Option α} (hf : ∀ a, (f a).nullish = false)
    (h : DenotesOwn f o key own) : chooseValue o key (.orNull f ctx) = .orNull f (chooseField own ctx) := by
  unfold chooseValue
  cases own with
  | none =>
    rw [show o.own key = false from h]
    rfl
  | some a =>
    obtain ⟨hown,hget⟩ := h
    rw [hown]
    cases a with
    | none =>
      rw [show (o.get key).nullish = true from hget]
      rfl
    | some a =>
      rw [show o.get key = f a from hget,hf]
      rfl

theorem keyValue_denotes {key : Option String} (h : Denotes .encoded (o.get "idempotency_key") key) :
    keyValue o env = .encoded (orDefault key env.keyUuid) := by
  unfold keyValue
  cases key with
  | none => exact orElseValue_nullish h
  | some k =>
    rw [show o.get "idempotency_key" = .encoded k from h,AnyValue.encoded,orElseValue_string]
    by_cases hk : k = ""
    · subst hk
      rfl
    · have hne : Utf16.encode k.toList ≠ [] := by
        intro hnil
        refine hk (String.toList_eq_nil_iff.mp ?_)
        rw [← Utf16.decode_encode k.toList,hnil]
        rfl
      rw [if_neg hne,orDefault,if_neg hk]
      rfl

theorem expiresAt_denotes {ttl : Option ℚ} (h : Denotes .rat (o.get "ttl_hours") ttl) :
    expiresAt js config o env = some (.rat (env.now + ttl.getD config.ttlHours * 3600000)) := by
  cases ttl with
  | none => simp only [expiresAt,show (o.get "ttl_hours").nullish = true from h,if_true,Option.getD_none]
  | some q =>
    simp only [expiresAt,show o.get "ttl_hours" = .rat q from h]
    rfl

theorem typed_insertParams (htyped : o.Typed js event) (hvalid : ReadsValid event v) :
    ∃ params, insertParams js config o env = some params ∧ (∀ x ∈ params, Scalar x) ∧
      params.map storedValue = (emitParams config v.event env).values.map some := by
  obtain ⟨a,b,c,e,ha,hb,hc,he,hdeca,hdecb,hdecc,hdece⟩ := validated_strings htyped.toReads hvalid
  have hcontext : causalityValues o env.ctx =
      [.orNull .encoded (emitParams config v.event env).correlationId,
        .orNull .encoded (emitParams config v.event env).sessionId,
        .orNull .int (emitParams config v.event env).parentEventId,
        .orNull .encoded (emitParams config v.event env).producerId] := by
    simp only [emitParams,hvalid.correlationId,hvalid.sessionId,hvalid.parentEventId,hvalid.producerId]
    rw [← chooseValue_denotes (fun _ => rfl) htyped.correlationId,
      ← chooseValue_denotes (fun _ => rfl) htyped.sessionId,
      ← chooseValue_denotes (fun _ => rfl) htyped.parentEventId,
      ← chooseValue_denotes (fun _ => rfl) htyped.producerId]
    rfl
  refine ⟨_,by simp only [insertParams,expiresAt_denotes htyped.ttlHours,htyped.metadata]; rfl,?_,?_⟩
  · rw [ha,hb,hc,he,hcontext,keyValue_denotes htyped.idempotencyKey]
    have hstring : ∀ s, Scalar (.encoded s) := fun s => scalar_string _
    have hint : ∀ n, Scalar (.int n) := fun n => scalar_number _
    simp only [List.forall_mem_append,List.forall_mem_cons]
    exact ⟨⟨scalar_string a,scalar_string b,scalar_string c,hstring _,scalar_string e,hstring _,scalar_number _,
      scalar_number _,scalar_number _,scalar_orNull hstring _,scalar_orNull hint _,scalar_orNull hstring _,
      by simp⟩,scalar_orNull hstring _,scalar_orNull hstring _,scalar_orNull hint _,scalar_orNull hstring _,
      by simp⟩
  · rw [ha,hb,hc,he,hcontext,keyValue_denotes htyped.idempotencyKey]
    have hint : ∀ n, storedValue (.int n) = some (.int n) := fun n => rfl
    have htexts : ∀ {s : JsString} {t : Text}, Utf16.decode s = t →
        storedValue (.primitive (.string s)) = some (.text t) := by
      rintro s t rfl
      rfl
    have hversion : SqlValue.text (Utf16.decode e) = .string (emitParams config v.event env).schemaVersion := by
      rw [SqlValue.string,emitParams,← hdece,String.toList_ofList]
    simp only [List.map_append,List.map_cons,List.map_nil,storedValue_encoded,
      storedValue_orNull storedValue_encoded,storedValue_orNull hint,NewEvent.values,← hversion,htexts hdeca,
      htexts hdecb,htexts hdecc,← hvalid.idempotencyKey,← hvalid.ttlHours,← hvalid.metadata]
    rfl

-- on events of the declared types the values bound here are the columns of the emit model
theorem bound_emitParams {sql : Sqlite} {parsesToObject : String → Bool} {maxPayloadBytes : ℕ}
    (hsql : sql.Documented) (htyped : o.Typed js event)
    (hvalid : validateEvent parsesToObject maxPayloadBytes (some event) = .ok v) :
    ∃ params, insertParams js config o env = some params ∧
      sql.bind insertColumns.length params = some (emitParams config v.event env).values := by
  obtain ⟨params,hparams,hscalar,hstored⟩ := typed_insertParams htyped (validateEvent_reads hvalid)
  refine ⟨params,hparams,(hsql.binds ..).mpr ⟨?_,?_,?_⟩⟩
  · rw [namedObjects_scalars hscalar]
    exact Nat.zero_le 1
  · have hlen := congrArg List.length hstored
    rw [List.length_map,List.length_map] at hlen
    rw [positional_scalars hscalar,hlen]
    rfl
  · rw [positional_scalars hscalar,forall₂_stored,hstored]

end Typed

theorem insert_covered_iff {js : JsRuntime} {config : EmitConfig} {o : EventObject} {env : EmitEnv}
    {event : EventInput} {v : Validated} {sql : Sqlite} {parsesToObject : String → Bool} {maxPayloadBytes : ℕ}
    (hsql : sql.Documented) (hreads : o.Reads js event)
    (hvalid : validateEvent parsesToObject maxPayloadBytes (some event) = .ok v) :
    (∀ params, insertParams js config o env = some params → insertFailure sql params = none) ↔
      (Serialises js o → Insertable js o env) := by
  rw [@serialises_iff js config o env,Option.isSome_iff_exists]
  constructor
  · rintro h ⟨params,hparams⟩
    obtain ⟨a,b,c,d,e,rest,rfl,ha,hb,hc,hrest⟩ := insertParams_shape hreads (validateEvent_reads hvalid) hparams
    exact hrest.insertable_iff.mp ((insertFailure_strings_iff hsql ha hb hc).mp (h _ hparams))
  · intro h params hparams
    obtain ⟨a,b,c,d,e,rest,rfl,ha,hb,hc,hrest⟩ := insertParams_shape hreads (validateEvent_reads hvalid) hparams
    exact (insertFailure_strings_iff hsql ha hb hc).mpr (hrest.insertable_iff.mpr (h ⟨_,hparams⟩))

theorem filterMap_stored {args : List AnyValue} {values : List SqlValue}
    (h : args.map storedValue = values.map some) : args.filterMap storedValue = values := by
  have hid : (args.map storedValue).filterMap id = args.filterMap storedValue := List.filterMap_map ..
  rw [← hid,h]
  simp [List.filterMap_map]

def betterSqlite : Sqlite where
  bind n args :=
    if namedObjects args ≤ 1 ∧ (positional args).length = n ∧
        (positional args).all (fun x => (storedValue x).isSome) then
      some ((positional args).filterMap storedValue)
    else none
  length
    | .text t => some (t.takeWhile (fun c => decide (c ≠ nul))).length
    | _ => none

theorem betterSqlite_documented : betterSqlite.Documented := by
  refine ⟨fun n args values => ?_,fun _ => rfl⟩
  simp only [betterSqlite,forall₂_stored,List.all_eq_true,Option.ite_none_right_eq_some,Option.some.injEq]
  constructor
  · rintro ⟨⟨hone,hlen,hbind⟩,rfl⟩
    obtain ⟨values,hvalues⟩ := stored_values_iff.mpr hbind
    exact ⟨hone,hlen,by rw [filterMap_stored hvalues,hvalues]⟩
  · rintro ⟨hone,hlen,hvalues⟩
    exact ⟨⟨hone,hlen,stored_values_iff.mp ⟨values,hvalues⟩⟩,filterMap_stored hvalues⟩

def plainRuntime : JsRuntime where
  __ := decimalEngine
  stringify _ := some (some (ascii "\x7b\x7d"))

def runObject (extra : List (String × AnyValue)) : EventObject :=
  let fields := [("event_type",.text "wicked.run.done"),("domain",.text "wicked-testing"),
    ("payload",.object [])] ++ extra
  ⟨fields.map Prod.fst,fun k => (fields.lookup k).isSome,
    fun k => (fields.lookup k).getD (.primitive .undefined)⟩

def plainInput (keys : List String) : EventInput where
  keys := keys
  eventType := .text "wicked.run.done".toList
  domain := .text "wicked-testing".toList
  subdomain := .undefined
  payload := .object (some "\x7b\x7d")
  schemaVersion := .undefined
  idempotencyKey := none
  ttlHours := none
  metadata := none
  correlationId := none
  sessionId := none
  parentEventId := none
  producerId := none
  stringifiable := true
  bindable := true

def runEnv : EmitEnv := ⟨1000,"u1","u2",⟨none,none,none,none⟩,⟨"\x7b\x7d",none,none⟩⟩

def runRefusal (extra : List (String × AnyValue)) : Option InsertFailure :=
  (insertParams plainRuntime ⟨72,24⟩ (runObject extra) runEnv).bind (insertFailure betterSqlite)

def runExtras : List (String × AnyValue) :=
  [("ttl_hours",.rat 1),("ttl_hours",.primitive (.number .nan)),("idempotency_key",.primitive (.bool true)),
    ("producer_id",.object [])]

theorem runObject_accepted (extra : String × AnyValue) (h : extra ∈ runExtras) :
    (runObject [extra]).Reads plainRuntime (plainInput ["event_type","domain","payload",extra.1]) ∧
      ∃ v, validateEvent (fun _ => false) 1048576
        (some (plainInput ["event_type","domain","payload",extra.1])) = .ok v := by
  have hok : ∀ r : Except EmitError Validated, r.toBool = true → ∃ v, r = .ok v := by
    rintro (_ | v) hr
    · cases hr
    · exact ⟨v,rfl⟩
  simp only [runExtras,List.mem_cons,List.not_mem_nil,or_false] at h
  rcases h with rfl | rfl | rfl | rfl
  all_goals
    exact ⟨⟨rfl,by decide +kernel,by decide +kernel,by decide +kernel,by decide +kernel,by decide +kernel⟩,
      hok _ (by decide +kernel)⟩

theorem insert_covered_sample : runRefusal [("ttl_hours",.rat 1)] = none := by
  obtain ⟨hreads,v,hv⟩ := runObject_accepted ("ttl_hours",.rat 1) (by simp [runExtras])
  have hcovered : ∀ params, insertParams plainRuntime ⟨72,24⟩ (runObject [("ttl_hours",.rat 1)]) runEnv =
      some params → insertFailure betterSqlite params = none :=
    (insert_covered_iff betterSqlite_documented hreads hv).mpr
      (fun _ => ⟨by decide,by decide,by decide,by decide +kernel⟩)
  exact Option.bind_eq_none_iff.mpr hcovered

theorem accepted_event_not_inserted :
    (∀ extra ∈ runExtras, ∃ event v, (runObject [extra]).Reads plainRuntime event ∧
      validateEvent (fun _ => false) 1048576 (some event) = .ok v) ∧
      runRefusal [("ttl_hours",.primitive (.number .nan))] = some (.notNull "expires_at") ∧
      runRefusal [("idempotency_key",.primitive (.bool true))] = some .bind ∧
      runRefusal [("producer_id",.object [])] = some .bind := by
  refine ⟨fun extra hextra => ?_,by decide +kernel,by decide +kernel,by decide +kernel⟩
  obtain ⟨hreads,v,hv⟩ := runObject_accepted extra hextra
  exact ⟨_,v,hreads,hv⟩

end WickedBus
