import WickedBus.Foundation.LineFraming

namespace WickedBus.Ipc

open LineFraming

abbrev JsString := List UInt16

instance : LawfulBEq JsString := inferInstance

def ascii (s : String) : JsString := s.toList.map (fun c => UInt16.ofNat c.toNat)

inductive JsValue where
  | undefined
  | null
  | bool (value : Bool)
  | number (value : ℚ)
  | string (value : JsString)
  | array (items : List JsValue)
  | object (fields : List (JsString × JsValue))

namespace JsValue

def truthy : JsValue → Bool
  | .undefined | .null => false
  | .bool value => value
  | .number value => decide (value ≠ 0)
  | .string value => decide (value ≠ [])
  | .array _ | .object _ => true

def isObject : JsValue → Bool
  | .null | .array _ | .object _ => true
  | _ => false

def field (key : JsString) : JsValue → JsValue
  | .object fields => (fields.lookup key).getD .undefined
  | _ => .undefined

def kind (v : JsValue) : JsValue := v.field (ascii "kind")

end JsValue

inductive FrameKind where
  | hello | notify | ack | ping | pong | degrade | produced
  deriving DecidableEq, Repr

def FrameKind.text : FrameKind → JsString
  | .hello => ascii "hello"
  | .notify => ascii "notify"
  | .ack => ascii "ack"
  | .ping => ascii "ping"
  | .pong => ascii "pong"
  | .degrade => ascii "degrade"
  | .produced => ascii "produced"

def frameKinds : List FrameKind := [.hello,.notify,.ack,.ping,.pong,.degrade,.produced]

def knownKind : JsValue → Bool
  | .string value => frameKinds.any (fun k => k.text = value)
  | _ => false

inductive FrameError where
  | requiresObject
  | unknownKind (kind : JsValue)
  | invalidJson (message : JsString)
  | missingKind (start : JsString)
  | unknownReason (reason : JsValue)
  | requiresEventId

structure JsonCodec where
  stringify : JsValue → JsString
  parse : JsString → Except JsString JsValue
  parse_empty : ∀ v, parse [] ≠ .ok v

def newline : UInt16 := 10

def encodeFrame (json : JsonCodec) (frame : JsValue) : Except FrameError JsString :=
  if !frame.truthy || !frame.isObject then .error .requiresObject
  else if !frame.kind.truthy || !knownKind frame.kind then .error (.unknownKind frame.kind)
  else .ok (json.stringify frame ++ [newline])

structure FrameParser where
  buf : JsString

def FrameParser.new : FrameParser := ⟨[]⟩

def parseLine (json : JsonCodec) (line : JsString) : Except FrameError (Option JsValue) :=
  if line.length = 0 then .ok none
  else
    match json.parse line with
    | .error message => .error (.invalidJson message)
    | .ok parsed =>
      if !parsed.truthy || !parsed.isObject || !parsed.kind.truthy then
        .error (.missingKind (line.take 60))
      else .ok (some parsed)

structure Fed where
  frames : List JsValue
  parser : FrameParser
  error : Option FrameError

def FrameParser.feed (p : FrameParser) (json : JsonCodec) (chunk : JsString) : Fed :=
  let r := drain newline (parseLine json) (p.buf ++ chunk)
  ⟨r.frames,⟨r.buffer⟩,r.error⟩

def FrameParser.hasPending (p : FrameParser) : Bool := decide (0 < p.buf.length)

def FrameParser.feedChunks (p : FrameParser) (json : JsonCodec) : List JsString → Fed
  | [] => ⟨[],p,none⟩
  | chunk :: chunks =>
    let fed := p.feed json chunk
    match fed.error with
    | some _ => fed
    | none =>
      let rest := fed.parser.feedChunks json chunks
      { rest with frames := fed.frames ++ rest.frames }

theorem feedChunks_eq (json : JsonCodec) (p : FrameParser) (chunks : List JsString) :
    p.feedChunks json chunks =
      ⟨(feedAll newline (parseLine json) p.buf chunks).frames,
        ⟨(feedAll newline (parseLine json) p.buf chunks).buffer⟩,
        (feedAll newline (parseLine json) p.buf chunks).error⟩ := by
  induction chunks generalizing p with
  | nil => rfl
  | cons chunk chunks ih =>
    simp only [FrameParser.feedChunks,FrameParser.feed,feedAll]
    cases herr : (drain newline (parseLine json) (p.buf ++ chunk)).error with
    | some e => simp only [herr]
    | none =>
      simp only [ih]
      rfl

def makeFrame (kind : FrameKind) (fields : List (JsString × JsValue)) : JsValue :=
  .object ((ascii "kind",.string kind.text) :: fields)

def helloFrame (subscriberId cursor filter : JsValue) : JsValue :=
  makeFrame .hello [(ascii "subscriber_id",subscriberId),(ascii "cursor",cursor),(ascii "filter",filter)]

def notifyFrame (eventId event : JsValue) : JsValue :=
  makeFrame .notify [(ascii "event_id",eventId),(ascii "event",event)]

def ackFrame (eventId : JsValue) : JsValue := makeFrame .ack [(ascii "event_id",eventId)]

def pingFrame : JsValue := makeFrame .ping []

def pongFrame : JsValue := makeFrame .pong []

def degradeReasons : List JsString :=
  [ascii "queue-full",ascii "write-timeout",ascii "daemon-shutdown"]

def degradeFrame (reason : JsValue) : Except FrameError JsValue :=
  match reason with
  | .string value =>
    if value ∈ degradeReasons then .ok (makeFrame .degrade [(ascii "reason",reason)])
    else .error (.unknownReason reason)
  | _ => .error (.unknownReason reason)

def producedFrame (event : JsValue) : Except FrameError JsValue :=
  match event.truthy, event.field (ascii "event_id") with
  | true, .number _ => .ok (makeFrame .produced [(ascii "event",event)])
  | _, _ => .error .requiresEventId

theorem knownKind_text (kind : FrameKind) : knownKind (.string kind.text) = true := by
  cases kind <;> decide

theorem kind_text_truthy (kind : FrameKind) : (JsValue.string kind.text).truthy = true := by
  cases kind <;> decide

theorem encodeFrame_makeFrame (json : JsonCodec) (kind : FrameKind) (fields : List (JsString × JsValue)) :
    encodeFrame json (makeFrame kind fields) =
      .ok (json.stringify (makeFrame kind fields) ++ [newline]) := by
  have hkind : (makeFrame kind fields).kind = .string kind.text := by
    simp [JsValue.kind,JsValue.field,makeFrame]
  have hobj : (makeFrame kind fields).truthy = true ∧ (makeFrame kind fields).isObject = true := ⟨rfl,rfl⟩
  simp only [encodeFrame,hkind,hobj,knownKind_text,kind_text_truthy,Bool.not_true,Bool.or_self,
    Bool.false_eq_true,if_false]

theorem encodeFrame_producedFrame (json : JsonCodec) {event frame : JsValue}
    (h : producedFrame event = .ok frame) :
    encodeFrame json frame = .ok (json.stringify frame ++ [newline]) := by
  unfold producedFrame at h
  split at h <;> cases h
  exact encodeFrame_makeFrame json .produced _

section Accepted

variable {json : JsonCodec} {frame : JsValue} {text : JsString}

theorem encodeFrame_ok (h : encodeFrame json frame = .ok text) :
    (frame.truthy = true ∧ frame.isObject = true ∧ frame.kind.truthy = true) ∧
      text = json.stringify frame ++ [newline] := by
  unfold encodeFrame at h
  split_ifs at h with hobj hkind
  cases h
  simp only [Bool.or_eq_true,Bool.not_eq_true',not_or,Bool.not_eq_false] at hobj hkind
  exact ⟨⟨hobj.1,hobj.2,hkind.1⟩,rfl⟩

theorem parseLine_stringify (h : encodeFrame json frame = .ok text)
    (hparse : json.parse (json.stringify frame) = .ok frame) :
    parseLine json (json.stringify frame) = .ok (some frame) := by
  obtain ⟨⟨htruthy,hobj,hkind⟩,-⟩ := encodeFrame_ok h
  have hne : (json.stringify frame).length ≠ 0 := by
    intro hlen
    rw [List.eq_nil_of_length_eq_zero hlen] at hparse
    exact json.parse_empty frame hparse
  simp only [parseLine,hne,hparse,htruthy,hobj,hkind,if_false,Bool.not_true,Bool.or_self,
    Bool.false_eq_true]

theorem encoded_lines {frames : List JsValue} {texts : List JsString}
    (h : List.Forall₂ (fun frame text => encodeFrame json frame = .ok text) frames texts)
    (hline : ∀ frame ∈ frames, newline ∉ json.stringify frame)
    (hparse : ∀ frame ∈ frames, json.parse (json.stringify frame) = .ok frame) :
    List.Forall₂ (fun line frame => newline ∉ line ∧ parseLine json line = .ok (some frame))
        (frames.map json.stringify) frames ∧
      texts.flatten = (frames.map json.stringify).flatMap (fun line => line ++ [newline]) := by
  induction h with
  | nil => exact ⟨.nil,rfl⟩
  | cons hframe hrest ih =>
    rename_i frame text frames texts
    obtain ⟨hlines,hflat⟩ := ih (fun f hf => hline f (List.mem_cons_of_mem _ hf))
      (fun f hf => hparse f (List.mem_cons_of_mem _ hf))
    refine ⟨.cons ⟨hline frame List.mem_cons_self,?_⟩ hlines,?_⟩
    · exact parseLine_stringify hframe (hparse frame List.mem_cons_self)
    · rw [List.flatten_cons,hflat,(encodeFrame_ok hframe).2]
      rfl

end Accepted

theorem framing_round_trip (json : JsonCodec) (frames : List JsValue) (texts chunks : List JsString)
    (hencode : List.Forall₂ (fun frame text => encodeFrame json frame = .ok text) frames texts)
    (hline : ∀ frame ∈ frames, newline ∉ json.stringify frame)
    (hparse : ∀ frame ∈ frames, json.parse (json.stringify frame) = .ok frame)
    (hcut : chunks.flatten = texts.flatten) :
    (FrameParser.new.feedChunks json chunks).frames = frames ∧
      (FrameParser.new.feedChunks json chunks).error = none ∧
      (FrameParser.new.feedChunks json chunks).parser.hasPending = false := by
  obtain ⟨hlines,hflat⟩ := encoded_lines hencode hline hparse
  rw [feedChunks_eq,FrameParser.new,feedAll_lines hlines (hcut.trans hflat)]
  exact ⟨rfl,rfl,rfl⟩

def kindText (kind : JsString) : JsString := ascii "\x7b\"kind\":\"" ++ kind ++ ascii "\"\x7d"

def keepAliveCodec : JsonCodec where
  stringify
    | .object [(_,.string kind)] => kindText kind
    | _ => ascii "null"
  parse text :=
    if text = kindText (ascii "ping") then .ok pingFrame
    else if text = kindText (ascii "pong") then .ok pongFrame
    else .error (ascii "Unexpected token")
  parse_empty v := by
    have hne : ∀ kind, [] ≠ kindText kind := fun kind h => by simp [kindText,ascii] at h
    simp [hne]

theorem framing_round_trip_cut_inside :
    (FrameParser.new.feedChunks keepAliveCodec
      [[],(kindText (ascii "ping")).take 4,
        (kindText (ascii "ping")).drop 4 ++ newline :: (kindText (ascii "pong")).take 1,[],
        (kindText (ascii "pong")).drop 1,[newline]]).frames = [pingFrame,pongFrame] :=
  (framing_round_trip keepAliveCodec [pingFrame,pongFrame]
    [kindText (ascii "ping") ++ [newline],kindText (ascii "pong") ++ [newline]] _
    (.cons (encodeFrame_makeFrame keepAliveCodec .ping [])
      (.cons (encodeFrame_makeFrame keepAliveCodec .pong []) .nil))
    (by
      intro frame hframe
      rcases List.mem_cons.mp hframe with rfl | hframe
      · decide
      · rw [List.mem_singleton.mp hframe]
        decide)
    (by
      intro frame hframe
      rcases List.mem_cons.mp hframe with rfl | hframe
      · rfl
      · rw [List.mem_singleton.mp hframe]
        rfl)
    (by decide)).1

end WickedBus.Ipc
