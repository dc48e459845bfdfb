import WickedBus.Causality
import WickedBus.Foundation.Json
import WickedBus.Foundation.Utf16

namespace WickedBus.Ui

open WickedBus.Filter (Text)
open WickedBus.Causality (NumberText jsSpace)

structure Url where
  hostname : Text
  pathname : Text
  searchParams : List (Text × Text)

structure UrlParser where
  parse : Text → Option Text → Option Url
  pathname_length : ∀ input base url, parse input base = some url →
    url.pathname.length ≤ 12 * (input.length + (base.getD []).length) + 1

structure JsRuntime where
  url : UrlParser
  numbers : NumberText
  numberText : ℚ → Text
  maxStringLength : ℕ
  maxStringLength_ge : 2 ^ 28 - 16 ≤ maxStringLength

def headerLimit : ℕ := 16384

structure Request where
  method : Text
  target : Text
  origin : Option Text
  host : Option Text
  authorization : Option Text
  method_length : method.length ≤ 32
  bounded : target.length + (origin.getD []).length + (host.getD []).length ≤ headerLimit

inductive Folder (α : Type) where
  | missing
  | unlistable
  | listed (entries : α)

inductive CasEntry where
  | unreadable
  | file
  | shard (objects : Option (List (Option ℕ)))

structure DataDir where
  path : Text
  casRoot : Text
  cas : Folder (List CasEntry)
  archive : Folder Archive

structure Ctx where
  dataDir : DataDir
  liveDb : Db
  token : Text
  host : Text
  pid : ℕ

section Stringify

def quote : Char := Char.ofNat 34

def backslash : Char := Char.ofNat 92

def shortEscapes : List (ℕ × Char) :=
  [(34,quote),(92,backslash),(8,'b'),(9,'t'),(10,'n'),(12,'f'),(13,'r')]

def escapeChar (c : Char) : Text :=
  match shortEscapes.lookup c.toNat with
  | some e => [backslash,e]
  | none =>
    if c.toNat < 32 then [backslash,'u','0','0',Nat.digitChar (c.toNat / 16),Nat.digitChar (c.toNat % 16)] else [c]

def quoted (t : Text) : Text := quote :: t.flatMap escapeChar ++ [quote]

def joinComma (ts : List Text) : Text := [','].intercalate ts

mutual

def jsonText (num : ℚ → Text) : Json Text → Text
  | .null => "null".toList
  | .bool b => (if b then "true" else "false").toList
  | .number q => num q
  | .string s => quoted s
  | .array xs => '[' :: joinComma (itemTexts num xs) ++ [']']
  | .object fs => Char.ofNat 123 :: joinComma (fieldTexts num fs) ++ [Char.ofNat 125]

def itemTexts (num : ℚ → Text) : List (Json Text) → List Text
  | [] => []
  | x :: xs => jsonText num x :: itemTexts num xs

def fieldTexts (num : ℚ → Text) : List (Text × Json Text) → List Text
  | [] => []
  | (k,x) :: fs => (quoted k ++ ':' :: jsonText num x) :: fieldTexts num fs

end

def units (t : Text) : ℕ := (t.map Utf16.unitCount).sum

def Fits (rt : JsRuntime) (body : Json Text) : Prop := units (jsonText rt.numberText body) ≤ rt.maxStringLength

instance (rt : JsRuntime) (body : Json Text) : Decidable (Fits rt body) :=
  inferInstanceAs (Decidable (_ ≤ _))

end Stringify

inductive Endpoint where
  | info | events | trace | casStats | buckets
  deriving DecidableEq, Repr

inductive Effect where
  | reach (endpoint : Endpoint)
  | writeHead (status : ℕ) (headers : List (String × String))
  | endBody (body : Text)
  deriving DecidableEq, Repr

inductive JsError where
  | invalidStringLength
  | invalidUrl
  | readdir
  deriving DecidableEq, Repr

abbrev Handler := ExceptT JsError (StateM (List Effect))

def perform (e : Effect) : Handler Unit := modify (fun log => log ++ [e])

def stringify (rt : JsRuntime) (body : Json Text) : Handler Text :=
  if Fits rt body then pure (jsonText rt.numberText body) else throw .invalidStringLength

def byteLength (t : Text) : ℕ := (t.map Char.utf8Size).sum

def responseHeaders (json : Text) : List (String × String) :=
  [("content-type","application/json; charset=utf-8"),("content-length",toString (byteLength json)),
    ("cache-control","no-store")]

def sendJson (rt : JsRuntime) (status : ℕ) (body : Json Text) : Handler Unit := do
  let json ← stringify rt body
  perform (.writeHead status (responseHeaders json))
  perform (.endBody json)

def object (fields : List (String × Json Text)) : Json Text := .object (fields.map (fun f => (f.1.toList,f.2)))

def str (s : String) : Json Text := .string s.toList

def int (n : ℤ) : Json Text := .number n

def orNull {α : Type} (f : α → Json Text) (v : Option α) : Json Text := (v.map f).getD .null

def trim (t : Text) : Text := ((t.dropWhile jsSpace).reverse.dropWhile jsSpace).reverse

def authorized (req : Request) (token : Text) : Bool :=
  let header := req.authorization.getD []
  if !"Bearer ".toList.isPrefixOf header then false
  else
    decide (trim (header.drop "Bearer ".length) = token)

def originAllowed (rt : JsRuntime) (origin host : Text) : Bool :=
  match rt.url.parse origin none with
  | some parsed =>
    decide (parsed.hostname = host) || decide (parsed.hostname = "localhost".toList) ||
      decide (parsed.hostname = "127.0.0.1".toList)
  | none => false

def parseIntOrZero (rt : JsRuntime) (v : Option Text) : ℤ := (v.bind (Causality.parseInt rt.numbers)).getD 0

def clampInt (rt : JsRuntime) (v : Option Text) (lo hi dflt : ℤ) : ℤ :=
  match v.bind (Causality.parseInt rt.numbers) with
  | none => dflt
  | some n => max lo (min hi n)

inductive FilterKey where
  | eventType | domain | subdomain | correlationId | sessionId
  deriving DecidableEq, Repr

namespace FilterKey

def name : FilterKey → String
  | .eventType => "event_type"
  | .domain => "domain"
  | .subdomain => "subdomain"
  | .correlationId => "correlation_id"
  | .sessionId => "session_id"

def column (e : EventRow) : FilterKey → Option Text
  | .eventType => some e.eventType
  | .domain => some e.domain
  | .subdomain => some e.subdomain
  | .correlationId => e.correlationId.map String.toList
  | .sessionId => e.sessionId.map String.toList

end FilterKey

def filterKeys : List FilterKey := [.eventType,.domain,.subdomain,.correlationId,.sessionId]

def Url.get (url : Url) (name : String) : Option Text := url.searchParams.lookup name.toList

def requestFilter (url : Url) : List (FilterKey × Text) :=
  filterKeys.filterMap (fun k => ((url.get k.name).filter (fun v => decide (v ≠ []))).map (fun v => (k,v)))

def eventsWhere (filter : List (FilterKey × Text)) (sinceEventId : ℤ) (e : EventRow) : Bool :=
  filter.all (fun p => decide (p.1.column e = some p.2)) && decide (sinceEventId < e.eventId)

def selectEvents (rt : JsRuntime) (db : Db) (url : Url) : List EventRow :=
  let limit := clampInt rt (url.get "limit") 1 1000 100
  let sinceEventId := parseIntOrZero rt (url.get "since_event_id")
  (db.events.filter (eventsWhere (requestFilter url) sinceEventId)).rows.take limit.toNat

def eventJson (e : EventRow) : Json Text :=
  object [("event_id",int e.eventId),("event_type",.string e.eventType),("domain",.string e.domain),
    ("subdomain",.string e.subdomain),("payload",str e.payload),("emitted_at",int e.emittedAt),
    ("correlation_id",orNull str e.correlationId),("session_id",orNull str e.sessionId),
    ("parent_event_id",orNull int e.parentEventId),("producer_id",orNull str e.producerId),
    ("registry_schema_version",orNull int e.registrySchemaVersion),("payload_cas_sha",orNull str e.payloadCasSha)]

def eventsBody (rows : List EventRow) : Json Text :=
  object [("events",.array (rows.map eventJson)),("count",int rows.length)]

def selectTrace (db : Db) (correlationId : Text) : List EventRow :=
  (db.events.filter (fun e => decide (e.correlationId.map String.toList = some correlationId))).rows

def traceJson (e : EventRow) : Json Text :=
  object [("event_id",int e.eventId),("event_type",.string e.eventType),("domain",.string e.domain),
    ("parent_event_id",orNull int e.parentEventId),("emitted_at",int e.emittedAt),
    ("session_id",orNull str e.sessionId),("producer_id",orNull str e.producerId)]

def traceBody (correlationId : Text) (rows : List EventRow) : Json Text :=
  object [("correlation_id",.string correlationId),("events",.array (rows.map traceJson)),("count",int rows.length)]

def infoBody (ctx : Ctx) : Json Text :=
  object [("bind_host",.string ctx.host),("pid",int ctx.pid),("data_dir",.string ctx.dataDir.path),
    ("token_present",.bool true),("version",str "v2.0")]

def walkCasFiles : Folder (List CasEntry) → List (Option ℕ)
  | .listed entries => entries.flatMap (fun
    | .shard objects => objects.getD []
    | _ => [])
  | _ => []

def casStats (dir : DataDir) : Json Text :=
  let files := walkCasFiles dir.cas
  object [("root",.string dir.casRoot),("object_count",int files.length),
    ("total_bytes",int (files.filterMap id).sum)]

def bucketJson (archive : Archive) (name : Text) : Json Text :=
  let found := getBucketMeta archive name
  object [("filename",.string name),("min_event_id",orNull int (found.bind BucketMeta.minEventId)),
    ("max_event_id",orNull int (found.bind BucketMeta.maxEventId)),
    ("sealed_at",orNull int (found.bind BucketMeta.sealedAt))]

def bucketsBody (buckets : List (Json Text)) : Json Text :=
  object [("buckets",.array buckets),("count",int buckets.length)]

def bucketList : Folder Archive → Option (List (Json Text))
  | .missing => some []
  | .unlistable => none
  | .listed archive => some ((listBuckets archive).map (bucketJson archive))

def apiInfo (rt : JsRuntime) (ctx : Ctx) : Handler Unit := do
  perform (.reach .info)
  sendJson rt 200 (infoBody ctx)

def apiEvents (rt : JsRuntime) (url : Url) (ctx : Ctx) : Handler Unit := do
  perform (.reach .events)
  sendJson rt 200 (eventsBody (selectEvents rt ctx.liveDb url))

def missingCorrelationId : Json Text := object [("error",str "missing-correlation-id")]

def apiTrace (rt : JsRuntime) (correlationId : Text) (ctx : Ctx) : Handler Unit := do
  perform (.reach .trace)
  if correlationId = [] then sendJson rt 400 missingCorrelationId
  else sendJson rt 200 (traceBody correlationId (selectTrace ctx.liveDb correlationId))

def apiCasStats (rt : JsRuntime) (ctx : Ctx) : Handler Unit := do
  perform (.reach .casStats)
  sendJson rt 200 (casStats ctx.dataDir)

def apiBuckets (rt : JsRuntime) (ctx : Ctx) : Handler Unit := do
  perform (.reach .buckets)
  match bucketList ctx.dataDir.archive with
  | none => throw .readdir
  | some buckets => sendJson rt 200 (bucketsBody buckets)

def methodNotAllowed (req : Request) : Json Text :=
  object [("error",str "method-not-allowed"),("method",.string req.method)]

def originNotAllowed (origin : Text) : Json Text :=
  object [("error",str "origin-not-allowed"),("origin",.string origin)]

def healthy : Json Text := object [("ok",.bool true)]

def unauthorized : Json Text := object [("error",str "unauthorized")]

def notFound (url : Url) : Json Text := object [("error",str "not-found"),("path",.string url.pathname)]

def infoPath : Text := "/api/info".toList

def eventsPath : Text := "/api/events".toList

def casStatsPath : Text := "/api/cas/stats".toList

def bucketsPath : Text := "/api/buckets".toList

def tracePrefix : Text := "/api/trace/".toList

def healthPath : Text := "/healthz".toList

def dispatch (rt : JsRuntime) (url : Url) (ctx : Ctx) : Handler Unit :=
  if url.pathname = infoPath then apiInfo rt ctx
  else if url.pathname = eventsPath then apiEvents rt url ctx
  else if url.pathname = casStatsPath then apiCasStats rt ctx
  else if url.pathname = bucketsPath then apiBuckets rt ctx
  else if tracePrefix.isPrefixOf url.pathname then apiTrace rt (url.pathname.drop tracePrefix.length) ctx
  else sendJson rt 404 (notFound url)

def readMethod (req : Request) : Bool := decide (req.method = "GET".toList ∨ req.method = "HEAD".toList)

def originRefused (rt : JsRuntime) (ctx : Ctx) (origin : Option Text) : Option Text :=
  origin.filter (fun o => decide (o ≠ []) && !originAllowed rt o ctx.host)

def baseUrl (req : Request) : Text :=
  "http://".toList ++ (if req.host.getD [] = [] then "localhost".toList else req.host.getD [])

def requestUrl (rt : JsRuntime) (req : Request) : Option Url := rt.url.parse req.target (some (baseUrl req))

def handleRequest (rt : JsRuntime) (req : Request) (ctx : Ctx) : Handler Unit := do
  if !readMethod req then sendJson rt 405 (methodNotAllowed req)
  else
    match originRefused rt ctx req.origin with
    | some origin => sendJson rt 403 (originNotAllowed origin)
    | none =>
      match requestUrl rt req with
      | none => throw .invalidUrl
      | some url =>
        if url.pathname = healthPath then sendJson rt 200 healthy
        else if !authorized req ctx.token then sendJson rt 401 unauthorized
        else dispatch rt url ctx

def outcome (h : Handler Unit) (log : List Effect) : Except JsError Unit × List Effect := h.run.run log

def Effect.isReach : Effect → Bool
  | .reach _ => true
  | _ => false

def OneResponse (log : List Effect) : Prop :=
  ∃ status headers body, log.filter (fun e => !e.isReach) = [.writeHead status headers,.endBody body]

structure Total (rt : JsRuntime) (req : Request) (ctx : Ctx) : Prop where
  response : OneResponse (outcome (handleRequest rt req ctx) []).2
  noThrow : (outcome (handleRequest rt req ctx) []).1 = .ok ()
  guarded : authorized req ctx.token = false → ∀ e ∈ (outcome (handleRequest rt req ctx) []).2, e.isReach = false

structure Servable (rt : JsRuntime) (url : Url) (ctx : Ctx) : Prop where
  info : url.pathname = infoPath → Fits rt (infoBody ctx)
  events : url.pathname = eventsPath → Fits rt (eventsBody (selectEvents rt ctx.liveDb url))
  casStats : url.pathname = casStatsPath → Fits rt (casStats ctx.dataDir)
  buckets : url.pathname = bucketsPath →
    ∃ buckets, bucketList ctx.dataDir.archive = some buckets ∧ Fits rt (bucketsBody buckets)
  trace : ∀ correlationId, correlationId ≠ [] → url.pathname = tracePrefix ++ correlationId →
    Fits rt (traceBody correlationId (selectTrace ctx.liveDb correlationId))

def Answerable (rt : JsRuntime) (req : Request) (ctx : Ctx) : Prop :=
  readMethod req = true → originRefused rt ctx req.origin = none →
    ∃ url, requestUrl rt req = some url ∧
      (url.pathname ≠ healthPath → authorized req ctx.token = true → Servable rt url ctx)

section Lengths

variable {rt : JsRuntime} {num : ℚ → Text}

theorem units_le (t : Text) : units t ≤ 2 * t.length := by
  induction t with
  | nil => exact Nat.zero_le _
  | cons c t ih =>
    have hc : Utf16.unitCount c ≤ 2 := by
      unfold Utf16.unitCount
      split_ifs <;> omega
    have hcons : units (c :: t) = Utf16.unitCount c + units t := by
      simp only [units,List.map_cons,List.sum_cons]
    rw [hcons,List.length_cons]
    omega

theorem escapeChar_length (c : Char) : (escapeChar c).length ≤ 6 := by
  unfold escapeChar
  split
  · exact Nat.le_of_ble_eq_true rfl
  · split_ifs <;> simp

theorem quoted_length (t : Text) : (quoted t).length ≤ 6 * t.length + 2 := by
  have hflat : (t.flatMap escapeChar).length ≤ 6 * t.length := by
    induction t with
    | nil => exact Nat.zero_le _
    | cons c t ih =>
      have hc := escapeChar_length c
      rw [List.flatMap_cons,List.length_append,List.length_cons]
      omega
  have hquoted : (quoted t).length = (t.flatMap escapeChar).length + 2 := by
    simp only [quoted,List.length_append,List.length_cons,List.length_nil]
  omega

theorem error_length (code key : String) (value : Text) :
    (jsonText num (object [("error",str code),(key,.string value)])).length ≤
      6 * (code.length + key.length + value.length) + 60 := by
  have herror := quoted_length "error".toList
  have hcode := quoted_length code.toList
  have hkey := quoted_length key.toList
  have hvalue := quoted_length value
  have hlen : "error".toList.length = 5 := rfl
  have hcodeLen : code.toList.length = code.length := String.length_toList
  have hkeyLen : key.toList.length = key.length := String.length_toList
  have hjoin (a b : Text) : (joinComma [a,b]).length = a.length + b.length + 1 := by
    simp only [joinComma,List.intercalate_cons_cons,List.intercalate_singleton,List.length_append,
      List.length_cons,List.length_nil]
    omega
  simp only [object,str,jsonText,fieldTexts,List.map_cons,List.map_nil,List.length_append,
    List.length_cons,List.length_nil,hjoin]
  omega

theorem fits_of_length {body : Json Text} (h : (jsonText rt.numberText body).length ≤ 2 ^ 27 - 8) :
    Fits rt body := by
  have hunits := units_le (jsonText rt.numberText body)
  have hmax := rt.maxStringLength_ge
  unfold Fits
  omega

theorem fits_error {code key : String} {value : Text} (hcode : code.length ≤ 64) (hkey : key.length ≤ 64)
    (hvalue : value.length ≤ 2 ^ 20) : Fits rt (object [("error",str code),(key,.string value)]) := by
  have hlen : (jsonText rt.numberText (object [("error",str code),(key,.string value)])).length ≤
      6 * (code.length + key.length + value.length) + 60 := error_length code key value
  exact fits_of_length (by omega)

theorem fits_methodNotAllowed (req : Request) : Fits rt (methodNotAllowed req) :=
  fits_error (by decide) (by decide) (req.method_length.trans (by decide))

theorem origin_length {origin : Text} {req : Request} {ctx : Ctx}
    (h : originRefused rt ctx req.origin = some origin) : origin.length ≤ headerLimit := by
  have horigin : req.origin = some origin := (Option.filter_eq_some_iff.mp h).1
  have hbounded := req.bounded
  rw [horigin,Option.getD_some] at hbounded
  omega

theorem fits_originNotAllowed {origin : Text} {req : Request} {ctx : Ctx}
    (h : originRefused rt ctx req.origin = some origin) : Fits rt (originNotAllowed origin) :=
  fits_error (by decide) (by decide) ((origin_length h).trans (by decide))

theorem baseUrl_length (req : Request) : (baseUrl req).length ≤ 16 + (req.host.getD []).length := by
  have hbase : (baseUrl req).length =
      7 + (if req.host.getD [] = [] then "localhost".toList else req.host.getD []).length := List.length_append
  have hlocal : "localhost".toList.length = 9 := rfl
  generalize req.host.getD [] = host at *
  split_ifs at hbase
  · exact hbase.trans_le (hlocal ▸ Nat.le_add_right 16 _)
  · exact hbase.trans_le (Nat.add_le_add_right (by decide) _)

theorem fits_notFound {req : Request} {url : Url} (h : requestUrl rt req = some url) : Fits rt (notFound url) := by
  have hpath := rt.url.pathname_length _ _ _ h
  have hbase := baseUrl_length req
  have hbounded := req.bounded
  rw [Option.getD_some] at hpath
  refine fits_error (by decide) (by decide) ?_
  unfold headerLimit at hbounded
  omega

theorem fits_short {body : Json Text} (h : (jsonText rt.numberText body).length ≤ 64) : Fits rt body :=
  fits_of_length (h.trans (by omega))

theorem fits_healthy : Fits rt healthy := by
  have hlen : (jsonText rt.numberText healthy).length = 11 := rfl
  exact fits_short (hlen ▸ by decide)

theorem fits_unauthorized : Fits rt unauthorized := by
  have hlen : (jsonText rt.numberText unauthorized).length = 24 := rfl
  exact fits_short (hlen ▸ by decide)

theorem fits_missingCorrelationId : Fits rt missingCorrelationId := by
  have hlen : (jsonText rt.numberText missingCorrelationId).length = 34 := rfl
  exact fits_short (hlen ▸ by decide)

end Lengths

structure Delivers (h : Handler Unit) (log : List Effect) : Prop where
  response : OneResponse (outcome h log).2
  noThrow : (outcome h log).1 = .ok ()

section Outcomes

variable {rt : JsRuntime} {body : Json Text} {status : ℕ} {log : List Effect}

theorem outcome_throw (e : JsError) : outcome (throw e) log = (.error e,log) := rfl

theorem sendJson_fits (h : Fits rt body) : outcome (sendJson rt status body) log =
    (.ok (),log ++ [.writeHead status (responseHeaders (jsonText rt.numberText body)),
      .endBody (jsonText rt.numberText body)]) := by
  simp only [outcome,sendJson,stringify,if_pos h,pure_bind]
  exact congrArg (Prod.mk _) (List.append_assoc ..)

theorem sendJson_overlong (h : ¬ Fits rt body) :
    outcome (sendJson rt status body) log = (.error .invalidStringLength,log) := by
  simp only [outcome,sendJson,stringify,if_neg h]
  rfl

theorem delivers_throw (e : JsError) : ¬ Delivers (throw e) log := by
  rintro ⟨-,hok⟩
  rw [outcome_throw] at hok
  cases hok

theorem delivers_sendJson (hlog : ∀ e ∈ log, e.isReach = true) :
    Delivers (sendJson rt status body) log ↔ Fits rt body := by
  constructor
  · rintro ⟨-,hok⟩
    by_contra hfits
    rw [sendJson_overlong hfits] at hok
    cases hok
  · intro hfits
    have hrun := @sendJson_fits rt body status log hfits
    have hnone : log.filter (fun e => !e.isReach) = [] := by
      rw [List.filter_eq_nil_iff]
      intro e he
      simp only [hlog e he,Bool.not_true,Bool.false_eq_true,not_false_eq_true]
    refine ⟨⟨status,responseHeaders (jsonText rt.numberText body),jsonText rt.numberText body,?_⟩,?_⟩
    · rw [hrun,List.filter_append,hnone]
      rfl
    · rw [hrun]

theorem delivers_reach (endpoint : Endpoint) (h : Handler Unit) :
    Delivers (do perform (.reach endpoint); h) log ↔ Delivers h (log ++ [.reach endpoint]) := by
  constructor <;> rintro ⟨hresponse,hok⟩ <;> exact ⟨hresponse,hok⟩

theorem delivers_served (endpoint : Endpoint) :
    Delivers (do perform (.reach endpoint); sendJson rt status body) [] ↔ Fits rt body := by
  rw [delivers_reach,delivers_sendJson]
  intro e he
  rw [List.mem_singleton.mp he]
  rfl

theorem sendJson_guarded : ∀ e ∈ (outcome (sendJson rt status body) []).2, e.isReach = false := by
  by_cases h : Fits rt body
  · rw [sendJson_fits h]
    intro e he
    simp only [List.nil_append,List.mem_cons,List.not_mem_nil,or_false] at he
    rcases he with rfl | rfl <;> rfl
  · rw [sendJson_overlong h]
    exact fun e he => absurd he List.not_mem_nil

end Outcomes

section Requests

variable {rt : JsRuntime} {req : Request} {ctx : Ctx} {url : Url}

theorem delivers_apiBuckets : Delivers (apiBuckets rt ctx) [] ↔
    ∃ buckets, bucketList ctx.dataDir.archive = some buckets ∧ Fits rt (bucketsBody buckets) := by
  unfold apiBuckets
  cases hlist : bucketList ctx.dataDir.archive with
  | none => simp only [delivers_reach,delivers_throw,reduceCtorEq,false_and,exists_false]
  | some buckets => simp only [delivers_served,Option.some.injEq,exists_eq_left']

theorem delivers_apiTrace {correlationId : Text} : Delivers (apiTrace rt correlationId ctx) [] ↔
    (correlationId ≠ [] → Fits rt (traceBody correlationId (selectTrace ctx.liveDb correlationId))) := by
  unfold apiTrace
  split_ifs with h
  · simp only [delivers_served,fits_missingCorrelationId,h,ne_eq,not_true_eq_false,false_imp_iff]
  · simp only [delivers_served,h,ne_eq,not_false_eq_true,true_imp_iff]

theorem unauthenticated_reach (h : authorized req ctx.token = false) :
    ∀ e ∈ (outcome (handleRequest rt req ctx) []).2, e.isReach = false := by
  unfold handleRequest
  split
  · exact sendJson_guarded
  · split
    · exact sendJson_guarded
    · split
      · exact fun e he => absurd he List.not_mem_nil
      · simp only [h,Bool.not_false,if_true]
        split
        · exact sendJson_guarded
        · exact sendJson_guarded

theorem tracePrefix_append {correlationId : Text} :
    url.pathname = tracePrefix ++ correlationId ↔
      tracePrefix.isPrefixOf url.pathname = true ∧ url.pathname.drop tracePrefix.length = correlationId := by
  rw [List.isPrefixOf_iff_prefix]
  constructor
  · intro h
    rw [h]
    exact ⟨List.prefix_append _ _,List.drop_left⟩
  · rintro ⟨⟨rest,hrest⟩,rfl⟩
    rw [← hrest,List.drop_left]

theorem trace_ne {path rest : Text} (h : path ∈ [infoPath,eventsPath,casStatsPath,bucketsPath]) :
    path ≠ tracePrefix ++ rest := by
  intro heq
  have hstarts : tracePrefix.isPrefixOf path = true := List.isPrefixOf_iff_prefix.mpr ⟨rest,heq.symm⟩
  simp only [List.mem_cons,List.not_mem_nil,or_false] at h
  rcases h with rfl | rfl | rfl | rfl <;> revert hstarts <;> decide

theorem dispatch_info (h : url.pathname = infoPath) : dispatch rt url ctx = apiInfo rt ctx := by
  rw [dispatch,if_pos h]

theorem dispatch_events (h : url.pathname = eventsPath) : dispatch rt url ctx = apiEvents rt url ctx := by
  rw [dispatch,h,if_neg (by decide),if_pos rfl]

theorem dispatch_casStats (h : url.pathname = casStatsPath) : dispatch rt url ctx = apiCasStats rt ctx := by
  rw [dispatch,h,if_neg (by decide),if_neg (by decide),if_pos rfl]

theorem dispatch_buckets (h : url.pathname = bucketsPath) : dispatch rt url ctx = apiBuckets rt ctx := by
  rw [dispatch,h,if_neg (by decide),if_neg (by decide),if_neg (by decide),if_pos rfl]

theorem dispatch_trace {correlationId : Text} (h : url.pathname = tracePrefix ++ correlationId) :
    dispatch rt url ctx = apiTrace rt correlationId ctx := by
  obtain ⟨hstarts,hrest⟩ := tracePrefix_append.mp h
  rw [dispatch,if_neg (fun heq => ?_),if_neg (fun heq => ?_),if_neg (fun heq => ?_),if_neg (fun heq => ?_),
    if_pos hstarts,hrest]
  all_goals exact trace_ne (by simp) (heq.symm.trans h)

theorem delivers_dispatch (h : requestUrl rt req = some url) :
    Delivers (dispatch rt url ctx) [] ↔ Servable rt url ctx := by
  constructor
  · intro hd
    refine ⟨fun hp => ?_,fun hp => ?_,fun hp => ?_,fun hp => ?_,fun correlationId hne hp => ?_⟩
    · exact (delivers_served .info).mp (dispatch_info hp ▸ hd)
    · exact (delivers_served .events).mp (dispatch_events hp ▸ hd)
    · exact (delivers_served .casStats).mp (dispatch_casStats hp ▸ hd)
    · exact delivers_apiBuckets.mp (dispatch_buckets hp ▸ hd)
    · exact delivers_apiTrace.mp (dispatch_trace hp ▸ hd) hne
  · intro hs
    unfold dispatch
    split_ifs with hinfo hevents hcas hbuckets htrace
    · exact (delivers_served .info).mpr (hs.info hinfo)
    · exact (delivers_served .events).mpr (hs.events hevents)
    · exact (delivers_served .casStats).mpr (hs.casStats hcas)
    · exact delivers_apiBuckets.mpr (hs.buckets hbuckets)
    · exact delivers_apiTrace.mpr (fun hne => hs.trace _ hne (tracePrefix_append.mpr ⟨htrace,rfl⟩))
    · exact (delivers_sendJson (by simp)).mpr (fits_notFound h)

theorem delivers_handleRequest : Delivers (handleRequest rt req ctx) [] ↔ Answerable rt req ctx := by
  have hnil : ∀ e ∈ ([] : List Effect), e.isReach = true := fun e he => absurd he List.not_mem_nil
  unfold handleRequest Answerable
  cases hmethod : readMethod req with
  | false => simp [delivers_sendJson hnil,fits_methodNotAllowed]
  | true =>
    cases horigin : originRefused rt ctx req.origin with
    | some origin => simp [delivers_sendJson hnil,fits_originNotAllowed horigin]
    | none =>
      cases hurl : requestUrl rt req with
      | none => simp [delivers_throw]
      | some url =>
        by_cases hhealth : url.pathname = healthPath
        · simp [hhealth,delivers_sendJson hnil,fits_healthy]
        · cases hauth : authorized req ctx.token with
          | false => simp [hhealth,delivers_sendJson hnil,fits_unauthorized]
          | true => simp [hhealth,delivers_dispatch hurl]

theorem total_iff_answerable (rt : JsRuntime) (req : Request) (ctx : Ctx) :
    Total rt req ctx ↔ Answerable rt req ctx := by
  rw [← delivers_handleRequest]
  constructor
  · exact fun h => ⟨h.response,h.noThrow⟩
  · exact fun h => ⟨h.response,h.noThrow,unauthenticated_reach⟩

end Requests

def afterSlashes (input : Text) : Text := input.dropWhile (fun c => decide (c = '/'))

-- no scheme but http, no credentials, port or dot segment: enough for a path with a query
def plainUrl (input : Text) (_base : Option Text) : Option Url :=
  if "//".toList.isPrefixOf input then
    if afterSlashes input = [] then none
    else some ⟨(afterSlashes input).takeWhile (fun c => decide (c ≠ '/')),
      (afterSlashes input).dropWhile (fun c => decide (c ≠ '/')),[]⟩
  else some ⟨"localhost".toList,input.takeWhile (fun c => decide (c ≠ '?')),[]⟩

def plainParser : UrlParser where
  parse := plainUrl
  pathname_length input base url h := by
    have hskip := (List.dropWhile_sublist (fun c : Char => decide (c = '/')) (l := input)).length_le
    have htake := (List.takeWhile_sublist (fun c : Char => decide (c ≠ '?')) (l := input)).length_le
    have hdrop := (List.dropWhile_sublist (fun c : Char => decide (c ≠ '/')) (l := afterSlashes input)).length_le
    have hpath : url.pathname.length ≤ input.length := by
      unfold plainUrl at h
      split_ifs at h <;> cases h
      · exact hdrop.trans hskip
      · exact htake
    omega

def plainJs : JsRuntime where
  url := plainParser
  numbers := Causality.plainNumbers
  numberText q := decimalText q.num
  maxStringLength := 536870888
  maxStringLength_ge := by omega

def plainCtx : Ctx where
  dataDir := ⟨"/data".toList,"/data/cas".toList,.missing,.missing⟩
  liveDb := .empty
  token := "c0ffee".toList
  host := "127.0.0.1".toList
  pid := 4242

def slashRequest : Request where
  method := "GET".toList
  target := "//".toList
  origin := none
  host := some "127.0.0.1:7842".toList
  authorization := none
  method_length := by decide
  bounded := by decide

theorem unparsable_target_unanswered : authorized slashRequest plainCtx.token = false ∧
    outcome (handleRequest plainJs slashRequest plainCtx) [] = (.error .invalidUrl,[]) ∧
    ¬ Total plainJs slashRequest plainCtx := by
  have hrun : outcome (handleRequest plainJs slashRequest plainCtx) [] = (.error .invalidUrl,[]) := rfl
  refine ⟨by decide,hrun,fun h => ?_⟩
  have hok := h.noThrow
  rw [hrun] at hok
  cases hok

end WickedBus.Ui
