import WickedBus.Foundation.JsonLiterals
import WickedBus.Ipc

namespace WickedBus.Ipc

open LineFraming
open Utf8 (Damaged)

def bufferText (buffer : List UInt8) : JsString := Utf16.encode (Utf8.decode buffer)

def textBytes (text : JsString) : List UInt8 := Utf8.encode (Utf16.decode text)

inductive Chunk where
  | text (value : JsString)
  | buffer (value : List UInt8)

def Chunk.toText : Chunk → JsString
  | .text value => value
  | .buffer value => bufferText value

def feedBuffers (json : JsonCodec) (buffers : List (List UInt8)) : Fed :=
  FrameParser.new.feedChunks json (buffers.map (fun buffer => (Chunk.buffer buffer).toText))

mutual

def JsValue.strings : JsValue → List JsString
  | .string value => [value]
  | .array items => itemStrings items
  | .object fields => fieldStrings fields
  | _ => []

def itemStrings : List JsValue → List JsString
  | [] => []
  | item :: items => item.strings ++ itemStrings items

def fieldStrings : List (JsString × JsValue) → List JsString
  | [] => []
  | (key,value) :: fields => key :: value.strings ++ fieldStrings fields

end

structure ReadsLiterals (json : JsonCodec) : Prop where
  plain : ∀ text value, json.parse text = .ok value → JsonLiterals.Plain text
  strings : ∀ text value, json.parse text = .ok value → value.strings.Subperm (JsonLiterals.literals text)

structure Printed (json : JsonCodec) (frame : JsValue) : Prop where
  line : newline ∉ json.stringify frame
  parse : json.parse (json.stringify frame) = .ok frame
  unicode : Utf16.encode (Utf16.decode (json.stringify frame)) = json.stringify frame
  literals : (JsonLiterals.literals (json.stringify frame)).length = frame.strings.length

def newlineChar : Char := Char.ofNat 10

def lineChars (json : JsonCodec) (frame : JsValue) : List Char := Utf16.decode (json.stringify frame)

section Lines

variable {json : JsonCodec} {frame : JsValue} {frames : List JsValue} {texts : List JsString} {n : ℕ}

theorem newline_encode : Utf16.encode [newlineChar] = [newline] := by decide

theorem newline_of_unit {s : List Char} (h : newline ∈ Utf16.encode s) : newlineChar ∈ s := by
  obtain ⟨c,hc,hunit⟩ := List.mem_flatMap.mp h
  by_cases hlow : c.toNat < 0x80
  · have hsmall : c.toNat < 0x10000 := by omega
    unfold Utf16.encodeChar at hunit
    rw [if_pos hsmall,List.mem_singleton] at hunit
    have hten : c.toNat = 10 := by
      rw [← Utf16.toNat_unit hsmall,← hunit]
      rfl
    rwa [newlineChar,← hten,Char.ofNat_toNat]
  · exact absurd (Utf16.encodeChar_high (not_lt.mp hlow) _ hunit) (by decide)

theorem unit_of_newline {s : List Char} (h : newlineChar ∈ s) : newline ∈ Utf16.encode s :=
  List.mem_flatMap.mpr ⟨newlineChar,h,by decide⟩

theorem parse_of_parseLine {line : JsString} (h : parseLine json line = .ok (some frame)) :
    json.parse line = .ok frame := by
  unfold parseLine at h
  split_ifs at h
  · cases h
  · split at h
    · cases h
    · rename_i parsed hparsed
      split_ifs at h
      cases h
      exact hparsed

-- the damaged line has as many literals as the frame has strings, and they weigh more
theorem damaged_unparsed (hjson : ReadsLiterals json) (hprinted : Printed json frame) {line : List Char}
    (hdamaged : Damaged n (lineChars json frame) line) (hparse : json.parse (Utf16.encode line) = .ok frame) :
    n = 0 := by
  have hunicode : Utf16.encode (lineChars json frame) = json.stringify frame := hprinted.unicode
  have hplain : JsonLiterals.Plain (Utf16.encode (lineChars json frame)) :=
    hunicode ▸ hjson.plain _ _ hprinted.parse
  obtain ⟨hlength,hweight⟩ := JsonLiterals.damaged_literals hdamaged .outside hplain
  rw [hunicode] at hlength hweight
  have hread := hjson.strings _ _ hprinted.parse
  have hread' := hjson.strings _ _ hparse
  have hperm := hread.perm_of_length_le hprinted.literals.le
  have hperm' := hread'.perm_of_length_le (hlength.symm.trans hprinted.literals).le
  have hsame : JsonLiterals.total (JsonLiterals.literals (json.stringify frame)) =
      JsonLiterals.total (JsonLiterals.literals (Utf16.encode line)) :=
    ((hperm.symm.trans hperm').map _).sum_eq
  unfold JsonLiterals.literals at hsame
  simp only [JsonLiterals.Scan.content,JsonLiterals.weight_nil] at hweight
  omega

theorem damaged_lines {lines : List (List Char)} {t : List Char}
    (h : Damaged n (lines.flatMap (fun line => line ++ [newlineChar])) t) :
    ∃ damages : List (ℕ × List Char), t = damages.flatMap (fun d => d.2 ++ [newlineChar]) ∧
      List.Forall₂ (fun line d => Damaged d.1 line d.2) lines damages ∧ n = (damages.map Prod.fst).sum := by
  induction lines generalizing n t with
  | nil =>
    cases h
    exact ⟨[],rfl,.nil,rfl⟩
  | cons line lines ih =>
    rw [List.flatMap_cons,List.append_assoc] at h
    obtain ⟨i,j,x,y,hx,hy,rfl,rfl⟩ := h.append
    obtain ⟨y,hrest,rfl⟩ := hy.ascii (by decide)
    obtain ⟨damages,rfl,hlines,rfl⟩ := ih hrest
    exact ⟨(i,x) :: damages,by simp,.cons hx hlines,rfl⟩

theorem encode_terminated (lines : List (List Char)) :
    Utf16.encode (lines.flatMap (fun line => line ++ [newlineChar])) =
      (lines.map Utf16.encode).flatMap (fun line => line ++ [newline]) := by
  induction lines with
  | nil => rfl
  | cons line lines ih =>
    rw [List.flatMap_cons,List.map_cons,List.flatMap_cons,Utf16.encode_append,Utf16.encode_append,ih,
      newline_encode]

theorem encode_lines (hprinted : ∀ frame ∈ frames, Printed json frame) :
    Utf16.encode ((frames.map (lineChars json)).flatMap (fun line => line ++ [newlineChar])) =
      (frames.map json.stringify).flatMap (fun line => line ++ [newline]) := by
  have hunits : (frames.map (lineChars json)).map Utf16.encode = frames.map json.stringify := by
    rw [List.map_map]
    exact List.map_congr_left (fun frame hframe => (hprinted frame hframe).unicode)
  rw [encode_terminated,hunits]

theorem textBytes_encode (s : List Char) : textBytes (Utf16.encode s) = Utf8.encode s := by
  rw [textBytes,Utf16.decode_encode]

theorem bytes_of_texts (hprinted : ∀ frame ∈ frames, Printed json frame)
    (hencode : List.Forall₂ (fun frame text => encodeFrame json frame = .ok text) frames texts) :
    texts.flatMap textBytes =
      Utf8.encode ((frames.map (lineChars json)).flatMap (fun line => line ++ [newlineChar])) := by
  induction hencode with
  | nil => rfl
  | cons hframe hrest ih =>
    obtain ⟨hhead,htail⟩ := List.forall_mem_cons.mp hprinted
    have htext := (encodeFrame_ok hframe).2
    rw [← hhead.unicode,← newline_encode,← Utf16.encode_append] at htext
    rw [List.flatMap_cons,List.map_cons,List.flatMap_cons,Utf8.encode_append,ih htail,htext,textBytes_encode]
    rfl

theorem feedBuffers_frames (json : JsonCodec) (buffers : List (List UInt8)) : (feedBuffers json buffers).frames =
    (drain newline (parseLine json) (Utf16.encode (buffers.flatMap Utf8.decode))).frames := by
  have htext : (buffers.map (fun buffer => (Chunk.buffer buffer).toText)).flatten =
      Utf16.encode (buffers.flatMap Utf8.decode) := by
    induction buffers with
    | nil => rfl
    | cons buffer buffers ih =>
      rw [List.map_cons,List.flatten_cons,List.flatMap_cons,Utf16.encode_append,ih]
      rfl
  rw [feedBuffers,feedChunks_eq]
  show (feedAll newline (parseLine json) [] _).frames = _
  rw [feedAll_frames _ List.not_mem_nil,List.nil_append,htext]

theorem feed_whole (hprinted : ∀ frame ∈ frames, Printed json frame)
    (hencode : List.Forall₂ (fun frame text => encodeFrame json frame = .ok text) frames texts) :
    (FrameParser.new.feed json texts.flatten).frames = frames ∧
      texts.flatten = (frames.map json.stringify).flatMap (fun line => line ++ [newline]) := by
  obtain ⟨hlines,hflat⟩ := encoded_lines hencode (fun f hf => (hprinted f hf).line) (fun f hf => (hprinted f hf).parse)
  refine ⟨?_,hflat⟩
  show (drain newline (parseLine json) ([] ++ texts.flatten)).frames = frames
  rw [List.nil_append,hflat,drain_lines hlines]

theorem undamaged (hjson : ReadsLiterals json) (hprinted : ∀ frame ∈ frames, Printed json frame)
    {damages : List (ℕ × List Char)}
    (hdamaged : List.Forall₂ (fun line d => Damaged d.1 line d.2) (frames.map (lineChars json)) damages)
    (hparsed : List.Forall₂ (fun line frame => parseLine json line = .ok (some frame))
      (damages.map (fun d => Utf16.encode d.2)) frames) : (damages.map Prod.fst).sum = 0 := by
  induction frames generalizing damages with
  | nil =>
    cases hdamaged
    rfl
  | cons frame frames ih =>
    obtain ⟨hframe,hrest⟩ := List.forall_mem_cons.mp hprinted
    cases hdamaged with
    | cons hline hlines =>
      cases hparsed with
      | cons hfirst hothers =>
        rw [List.map_cons,List.sum_cons,ih hrest hlines hothers,
          damaged_unparsed hjson hframe hline (parse_of_parseLine hfirst)]

theorem newline_free (hprinted : ∀ frame ∈ frames, Printed json frame) {damages : List (ℕ × List Char)}
    (hdamaged : List.Forall₂ (fun line d => Damaged d.1 line d.2) (frames.map (lineChars json)) damages) :
    ∀ line ∈ damages.map (fun d => Utf16.encode d.2), newline ∉ line := by
  induction frames generalizing damages with
  | nil =>
    cases hdamaged
    exact fun line hline => absurd hline List.not_mem_nil
  | cons frame frames ih =>
    obtain ⟨hframe,hrest⟩ := List.forall_mem_cons.mp hprinted
    cases hdamaged with
    | cons hline hlines =>
      refine List.forall_mem_cons.mpr ⟨fun hmem => ?_,ih hrest hlines⟩
      rcases hline.mem (newline_of_unit hmem) with hold | hmark
      · have hin := unit_of_newline hold
        rw [lineChars,hframe.unicode] at hin
        exact hframe.line hin
      · exact absurd hmark (by decide)

end Lines

theorem buffers_same_frames_iff {json : JsonCodec} (hjson : ReadsLiterals json) {frames : List JsValue}
    {texts : List JsString} {buffers : List (List UInt8)}
    (hencode : List.Forall₂ (fun frame text => encodeFrame json frame = .ok text) frames texts)
    (hprinted : ∀ frame ∈ frames, Printed json frame) (hcut : buffers.flatten = texts.flatMap textBytes) :
    (feedBuffers json buffers).frames = (FrameParser.new.feed json texts.flatten).frames ↔
      ∀ buffer ∈ buffers, Utf8.Valid buffer := by
  obtain ⟨hwhole,hflat⟩ := feed_whole hprinted hencode
  have hbytes := hcut.trans (bytes_of_texts hprinted hencode)
  rw [hwhole,feedBuffers_frames]
  constructor
  · intro hframes
    obtain ⟨n,hdamaged,hvalid⟩ := Utf8.decode_buffers hbytes
    obtain ⟨damages,htext,hlines,rfl⟩ := damaged_lines hdamaged
    have hunits : Utf16.encode (buffers.flatMap Utf8.decode) =
        (damages.map (fun d => Utf16.encode d.2)).flatMap (fun line => line ++ [newline]) := by
      have hlines : damages.flatMap (fun d => d.2 ++ [newlineChar]) =
          (damages.map Prod.snd).flatMap (fun line => line ++ [newlineChar]) := by rw [List.flatMap_map]
      rw [htext,hlines,encode_terminated,List.map_map]
      rfl
    rw [hunits] at hframes
    have hlen : (damages.map (fun d => Utf16.encode d.2)).length = frames.length := by
      rw [List.length_map,← hlines.length_eq,List.length_map]
    exact hvalid (undamaged hjson hprinted hlines (lines_of_drain (newline_free hprinted hlines) hframes hlen))
  · intro hvalid
    rw [Utf8.decode_flatten hvalid hbytes,encode_lines hprinted,← hflat]
    exact hwhole

def accent : JsString := [0xE9]

def lostAccent : JsString := [0xFFFD,0xFFFD]

def hello (subscriberId : JsString) : JsValue := makeFrame .hello [(ascii "subscriber_id",.string subscriberId)]

def helloStart : JsString := ascii "\x7b\"kind\":\"hello\",\"subscriber_id\":\""

def helloEnd : JsString := ascii "\"\x7d"

def helloText (subscriberId : JsString) : JsString := helloStart ++ (subscriberId ++ helloEnd)

def helloCodec : JsonCodec where
  stringify
    | .object [_,(_,.string subscriberId)] => helloText subscriberId
    | _ => ascii "null"
  parse text :=
    if text = helloText accent then .ok (hello accent)
    else if text = helloText lostAccent then .ok (hello lostAccent)
    else .error (ascii "Unexpected token")
  parse_empty v := by
    have hne : ∀ subscriberId, [] ≠ helloText subscriberId := fun _ h => by simp [helloText,helloStart,ascii] at h
    simp [hne]

theorem helloCodec_parse {text : JsString} {value : JsValue} (h : helloCodec.parse text = .ok value) :
    ∃ subscriberId ∈ [accent,lostAccent], text = helloText subscriberId ∧ value = hello subscriberId := by
  simp only [helloCodec] at h
  split_ifs at h with hkept hlost
  · cases h
    exact ⟨accent,List.mem_cons_self,hkept,rfl⟩
  · cases h
    exact ⟨lostAccent,List.mem_cons_of_mem _ List.mem_cons_self,hlost,rfl⟩

theorem helloCodec_literals : ReadsLiterals helloCodec where
  plain text value h := by
    obtain ⟨subscriberId,hmem,rfl,-⟩ := helloCodec_parse h
    have hplain : ∀ s ∈ [accent,lostAccent], JsonLiterals.Plain (helloText s) := by decide
    exact hplain subscriberId hmem
  strings text value h := by
    obtain ⟨subscriberId,hmem,rfl,rfl⟩ := helloCodec_parse h
    have hsame : ∀ s ∈ [accent,lostAccent], (hello s).strings = JsonLiterals.literals (helloText s) := by decide
    rw [hsame subscriberId hmem]

theorem hello_printed {subscriberId : JsString} (h : subscriberId ∈ [accent,lostAccent]) :
    ∀ frame ∈ [hello subscriberId], Printed helloCodec frame := by
  have hliterals : ∀ s ∈ [accent,lostAccent], newline ∉ helloText s ∧
      Utf16.encode (Utf16.decode (helloText s)) = helloText s ∧
      (JsonLiterals.literals (helloText s)).length = (hello s).strings.length := by decide
  obtain ⟨hline,hunicode,hlength⟩ := hliterals subscriberId h
  intro frame hframe
  rw [List.mem_singleton.mp hframe]
  refine ⟨hline,?_,hunicode,hlength⟩
  simp only [List.mem_cons,List.not_mem_nil,or_false] at h
  rcases h with rfl | rfl <;> rfl

theorem hello_encoded (subscriberId : JsString) :
    List.Forall₂ (fun frame text => encodeFrame helloCodec frame = .ok text) [hello subscriberId]
      [helloText subscriberId ++ [newline]] :=
  .cons (encodeFrame_makeFrame helloCodec .hello _) .nil

theorem hello_fed {subscriberId : JsString} (h : subscriberId ∈ [accent,lostAccent]) :
    (FrameParser.new.feed helloCodec (helloText subscriberId ++ [newline])).frames = [hello subscriberId] := by
  have hwhole := (feed_whole (hello_printed h) (hello_encoded subscriberId)).1
  rwa [List.flatten_singleton] at hwhole

theorem buffers_same_frames_between_characters :
    (feedBuffers helloCodec [textBytes helloStart,[],textBytes (accent ++ helloEnd ++ [newline])]).frames =
      (FrameParser.new.feed helloCodec [helloText accent ++ [newline]].flatten).frames :=
  (buffers_same_frames_iff helloCodec_literals (hello_encoded accent) (hello_printed List.mem_cons_self)
    (by decide)).mpr (by
      intro buffer hbuffer
      simp only [List.mem_cons,List.not_mem_nil,or_false] at hbuffer
      rcases hbuffer with rfl | rfl | rfl
      · exact ⟨_,rfl⟩
      · exact ⟨[],rfl⟩
      · exact ⟨_,rfl⟩)

theorem split_character_changes_frame :
    encodeFrame helloCodec (hello accent) = .ok (helloText accent ++ [newline]) ∧
      [textBytes helloStart ++ [0xC3],0xA9 :: textBytes (helloEnd ++ [newline])].flatten =
        textBytes (helloText accent ++ [newline]) ∧
      (FrameParser.new.feed helloCodec (helloText accent ++ [newline])).frames = [hello accent] ∧
      (feedBuffers helloCodec [textBytes helloStart ++ [0xC3],0xA9 :: textBytes (helloEnd ++ [newline])]).frames =
        [hello lostAccent] ∧
      [hello lostAccent] ≠ [hello accent] := by
  have htext : Utf16.encode ([textBytes helloStart ++ [0xC3],0xA9 :: textBytes (helloEnd ++ [newline])].flatMap
      Utf8.decode) = helloText lostAccent ++ [newline] := by decide
  refine ⟨rfl,by decide,hello_fed List.mem_cons_self,?_,
    fun h => absurd (congrArg (List.map JsValue.strings) h) (by decide)⟩
  rw [feedBuffers_frames,htext]
  exact hello_fed (List.mem_cons_of_mem _ List.mem_cons_self)

end WickedBus.Ipc
