import WickedBus.Ipc
import WickedBus.Foundation.GuardedRun

namespace WickedBus.Notify

open GuardedRun
open WickedBus.Ipc
open LineFraming

inductive NotifyResult where
  | delivered
  | undelivered (reason : String)
  deriving DecidableEq, Repr

inductive NotifyEvent where
  | connectTimeout
  | connect
  | writeTimeout
  | ended
  | error (code : Option String)
  deriving DecidableEq, Repr

structure Call where
  line : JsString
  connecting : Bool
  connectTimer : Bool
  writeTimer : Bool
  ending : Bool
  listening : Bool
  destroyed : Bool
  settled : Bool
  resolved : List NotifyResult
  handed : List JsString

namespace Call

def settle (c : Call) (result : NotifyResult) : Call :=
  if c.settled then c else { c with settled := true, resolved := c.resolved ++ [result] }

def invalid : Call where
  line := []
  connecting := false
  connectTimer := false
  writeTimer := false
  ending := false
  listening := false
  destroyed := false
  settled := true
  resolved := [.undelivered "invalid-event"]
  handed := []

def connectingWith (line : JsString) : Call where
  line := line
  connecting := true
  connectTimer := true
  writeTimer := false
  ending := false
  listening := true
  destroyed := false
  settled := false
  resolved := []
  handed := []

-- the callback of end runs when the stream has finished and also when it failed
def step (c : Call) : NotifyEvent → Option Call
  | .connectTimeout =>
    if c.connectTimer then
      some (settle { c with connectTimer := false, destroyed := true } (.undelivered "connect-timeout"))
    else none
  | .connect =>
    if c.connecting && !c.destroyed then
      some { c with
        connecting := false
        connectTimer := false
        writeTimer := true
        ending := true
        handed := c.handed ++ [c.line] }
    else none
  | .writeTimeout =>
    if c.writeTimer then
      some (settle { c with writeTimer := false, destroyed := true } (.undelivered "write-timeout"))
    else none
  | .ended => if c.ending then some (settle { c with ending := false, writeTimer := false } .delivered) else none
  | .error code =>
    if c.listening then
      some (settle { c with listening := false, connectTimer := false }
        (.undelivered ((code.filter (fun s => decide (s ≠ ""))).getD "error")))
    else none

end Call

def notifyEmit (json : JsonCodec) (event : JsValue) : Call :=
  match (producedFrame event).bind (encodeFrame json) with
  | .error _ => .invalid
  | .ok line => .connectingWith line

def NotifyEvent.result? : NotifyEvent → Option NotifyResult
  | .connectTimeout => some (.undelivered "connect-timeout")
  | .connect => none
  | .writeTimeout => some (.undelivered "write-timeout")
  | .ended => some .delivered
  | .error code => some (.undelivered ((code.filter (fun s => decide (s ≠ ""))).getD "error"))

structure CallAt (line : JsString) (as : List NotifyEvent) (c : Call) : Prop where
  same : c.line = line
  resolved : c.resolved = (as.filterMap NotifyEvent.result?).head?.toList
  settled : c.settled = (as.filterMap NotifyEvent.result?).head?.isSome
  armed : c.settled = false → c.connectTimer = true ∨ c.writeTimer = true
  fresh : c.connecting = true → c.handed = [] ∧ c.ending = false ∧ .delivered ∉ c.resolved
  handed : c.connecting = false → c.handed = [line]

section Step

variable {line : JsString} {as : List NotifyEvent} {a : NotifyEvent} {c c' : Call} {r : NotifyResult}

theorem head_snoc (as : List NotifyEvent) (a : NotifyEvent) :
    ((as ++ [a]).filterMap NotifyEvent.result?).head? = (as.filterMap NotifyEvent.result?).head?.or a.result? := by
  rw [List.filterMap_append,List.head?_append]
  cases hresult : a.result? <;> simp [hresult]

theorem CallAt.start (line : JsString) : CallAt line [] (.connectingWith line) :=
  ⟨rfl,rfl,rfl,fun _ => .inl rfl,fun _ => ⟨rfl,rfl,List.not_mem_nil⟩,fun h => by cases h⟩

theorem CallAt.outcome (h : CallAt line as c) (hresult : a.result? = some r) (hline : c'.line = c.line)
    (hresolved : c'.resolved = c.resolved) (hsettled : c'.settled = c.settled)
    (hconnecting : c'.connecting = c.connecting) (hhanded : c'.handed = c.handed)
    (hending : c'.ending = true → c.ending = true) (hdelivered : c.connecting = true → r ≠ .delivered) :
    CallAt line (as ++ [a]) (c'.settle r) := by
  have hquiet : c.connecting = true → c'.handed = [] ∧ c'.ending = false := by
    intro hc
    obtain ⟨hnone,hopen,-⟩ := h.fresh hc
    exact ⟨hhanded.trans hnone,Bool.eq_false_iff.mpr fun he => absurd (hending he) (by rw [hopen]; decide)⟩
  cases hs : c.settled with
  | true =>
    have hold : c'.settle r = c' := if_pos (hsettled.trans hs)
    have hfirst : (as.filterMap NotifyEvent.result?).head?.isSome = true := h.settled.symm.trans hs
    have hhead : ((as ++ [a]).filterMap NotifyEvent.result?).head? = (as.filterMap NotifyEvent.result?).head? := by
      rw [head_snoc,Option.or_of_isSome hfirst]
    rw [hold]
    refine ⟨hline.trans h.same,by rw [hhead,hresolved,h.resolved],by rw [hhead,hsettled,h.settled],
      fun hopen => absurd ((hsettled.trans hs).symm.trans hopen) (by decide),fun hc => ?_,
      fun hc => hhanded.trans (h.handed (hconnecting.symm.trans hc))⟩
    obtain ⟨hnone,hopen⟩ := hquiet (hconnecting.symm.trans hc)
    exact ⟨hnone,hopen,hresolved ▸ (h.fresh (hconnecting.symm.trans hc)).2.2⟩
  | false =>
    have hnew : c'.settle r = { c' with settled := true, resolved := c'.resolved ++ [r] } :=
      if_neg (by rw [hsettled,hs]; decide)
    have hfirst : (as.filterMap NotifyEvent.result?).head? = none :=
      Option.isSome_eq_false_iff.mp (h.settled.symm.trans hs) |> Option.isNone_iff_eq_none.mp
    have hempty : c.resolved = [] := by rw [h.resolved,hfirst]; rfl
    have hhead : ((as ++ [a]).filterMap NotifyEvent.result?).head? = some r := by
      rw [head_snoc,hfirst,hresult]
      rfl
    rw [hnew]
    refine ⟨hline.trans h.same,by rw [hhead,hresolved,hempty]; rfl,by rw [hhead]; rfl,fun hopen => (by cases hopen),
      fun hc => ?_,fun hc => hhanded.trans (h.handed (hconnecting.symm.trans hc))⟩
    obtain ⟨hnone,hopen⟩ := hquiet (hconnecting.symm.trans hc)
    refine ⟨hnone,hopen,fun hmem => ?_⟩
    rw [hresolved,hempty] at hmem
    exact hdelivered (hconnecting.symm.trans hc) (List.mem_singleton.mp hmem).symm

theorem CallAt.step (h : CallAt line as c) (hstep : c.step a = some c') : CallAt line (as ++ [a]) c' := by
  cases a with
  | connectTimeout =>
    simp only [Call.step] at hstep
    split_ifs at hstep
    cases hstep
    exact h.outcome rfl rfl rfl rfl rfl rfl id fun _ => NotifyResult.noConfusion
  | connect =>
    simp only [Call.step] at hstep
    split_ifs at hstep with hready
    cases hstep
    obtain ⟨hconnecting,-⟩ := Bool.and_eq_true_iff.mp hready
    have hhead : ((as ++ [NotifyEvent.connect]).filterMap NotifyEvent.result?).head? =
        (as.filterMap NotifyEvent.result?).head? := by
      rw [head_snoc]
      exact Option.or_none
    refine ⟨h.same,by rw [hhead]; exact h.resolved,by rw [hhead]; exact h.settled,fun _ => .inr rfl,
      fun hc => (by cases hc),fun _ => ?_⟩
    show c.handed ++ [c.line] = [line]
    rw [(h.fresh hconnecting).1,h.same,List.nil_append]
  | writeTimeout =>
    simp only [Call.step] at hstep
    split_ifs at hstep
    cases hstep
    exact h.outcome rfl rfl rfl rfl rfl rfl id fun _ => NotifyResult.noConfusion
  | ended =>
    simp only [Call.step] at hstep
    split_ifs at hstep with hending
    cases hstep
    refine h.outcome rfl rfl rfl rfl rfl rfl (fun he => by cases he) fun hc => ?_
    exact absurd hending (by rw [(h.fresh hc).2.1]; decide)
  | error code =>
    simp only [Call.step] at hstep
    split_ifs at hstep
    cases hstep
    exact h.outcome rfl rfl rfl rfl rfl rfl id fun _ => NotifyResult.noConfusion

theorem CallAt.handed_le (h : CallAt line as c) : c.handed = [] ∨ c.handed = [line] := by
  cases hc : c.connecting with
  | true => exact .inl (h.fresh hc).1
  | false => exact .inr (h.handed hc)

theorem CallAt.run {c₀ : Call} (h : CallAt line [] c₀) (hrun : Run Call.step (fun _ _ => True) c₀ as c) :
    CallAt line as c := by
  induction hrun with
  | nil => exact h
  | snoc _ _ hstep ih => exact ih.step hstep

end Step

section Frames

variable {json : JsonCodec} {event frame : JsValue} {texts : List JsString}

theorem read_copies (hframe : producedFrame event = .ok frame) (hline : newline ∉ json.stringify frame)
    (hparse : json.parse (json.stringify frame) = .ok frame)
    (htexts : ∀ text ∈ texts, text = json.stringify frame ++ [newline]) {chunks : List JsString}
    (hcut : chunks.flatten = texts.flatten) :
    FrameParser.new.feedChunks json chunks = ⟨texts.map (fun _ => frame),.new,none⟩ := by
  have hencode : List.Forall₂ (fun frame text => encodeFrame json frame = .ok text)
      (texts.map fun _ => frame) texts := by
    refine List.forall₂_map_left_iff.mpr (List.forall₂_same.mpr fun text htext => ?_)
    rw [htexts text htext]
    exact encodeFrame_producedFrame json hframe
  have hcopies : ∀ copy ∈ texts.map (fun _ => frame), copy = frame := by
    intro copy hcopy
    obtain ⟨-,-,rfl⟩ := List.mem_map.mp hcopy
    rfl
  obtain ⟨hlines,hflat⟩ := encoded_lines hencode (fun copy hcopy => hcopies copy hcopy ▸ hline)
    (fun copy hcopy => hcopies copy hcopy ▸ hparse)
  rw [feedChunks_eq,FrameParser.new,feedAll_lines hlines (hcut.trans hflat)]

end Frames

theorem notify_settles {json : JsonCodec} {event frame : JsValue} (hframe : producedFrame event = .ok frame)
    (hline : newline ∉ json.stringify frame) (hparse : json.parse (json.stringify frame) = .ok frame)
    {as : List NotifyEvent} {c : Call} (hrun : Run Call.step (fun _ _ => True) (notifyEmit json event) as c) :
    c.resolved = (as.filterMap NotifyEvent.result?).head?.toList ∧
      (c.resolved = [] → c.connectTimer = true ∨ c.writeTimer = true) ∧
      (.delivered ∈ c.resolved → c.handed ≠ []) ∧ c.handed.length ≤ 1 ∧
      ∀ chunks, chunks.flatten = c.handed.flatten →
        FrameParser.new.feedChunks json chunks = ⟨c.handed.map (fun _ => frame),.new,none⟩ := by
  have hencode := encodeFrame_producedFrame json hframe
  have hstart : notifyEmit json event = .connectingWith (json.stringify frame ++ [newline]) := by
    simp only [notifyEmit,hframe,Except.bind,hencode]
  rw [hstart] at hrun
  have h := (CallAt.start _).run hrun
  refine ⟨h.resolved,fun hnone => h.armed ?_,fun hdelivered hnone => ?_,?_,fun chunks hcut => ?_⟩
  · rw [h.settled]
    rw [h.resolved] at hnone
    cases hhead : (as.filterMap NotifyEvent.result?).head? with
    | none => rfl
    | some r =>
      rw [hhead] at hnone
      cases hnone
  · cases hc : c.connecting with
    | true => exact (h.fresh hc).2.2 hdelivered
    | false =>
      rw [h.handed hc] at hnone
      cases hnone
  · rcases h.handed_le with hnone | hone
    · rw [hnone]
      exact Nat.zero_le 1
    · rw [hone,List.length_singleton]
  · refine read_copies hframe hline hparse (fun text htext => ?_) hcut
    rcases h.handed_le with hnone | hone
    · rw [hnone] at htext
      cases htext
    · rw [hone] at htext
      exact List.mem_singleton.mp htext

def sampleEvent : JsValue := .object [(ascii "event_id",.number 1)]

def sampleFrame : JsValue := makeFrame .produced [(ascii "event",sampleEvent)]

def sampleText : JsString := ascii "\x7b\"kind\":\"produced\",\"event\":\x7b\"event_id\":1\x7d\x7d"

def sampleCodec : JsonCodec where
  stringify
    | .object [_,_] => sampleText
    | _ => ascii "null"
  parse text := if text = sampleText then .ok sampleFrame else .error (ascii "Unexpected token")
  parse_empty v := by
    have hne : [] ≠ sampleText := by decide
    simp [hne]

theorem notify_settles_sample : ∃ c : Call, c.resolved = [.delivered] ∧
    c.resolved = ([.connect,.ended,.error (some "EPIPE")].filterMap NotifyEvent.result?).head?.toList ∧
      (c.resolved = [] → c.connectTimer = true ∨ c.writeTimer = true) ∧
      (.delivered ∈ c.resolved → c.handed ≠ []) ∧ c.handed.length ≤ 1 ∧
      ∀ chunks, chunks.flatten = c.handed.flatten →
        FrameParser.new.feedChunks sampleCodec chunks = ⟨c.handed.map (fun _ => sampleFrame),.new,none⟩ := by
  have hrun : (exec Call.step (notifyEmit sampleCodec sampleEvent) [.connect,.ended,.error (some "EPIPE")]).any
      (fun c => decide (c.resolved = [.delivered])) = true := by
    decide
  obtain ⟨c,hc,hobs⟩ := (Option.any_eq_true _ _).mp hrun
  exact ⟨c,of_decide_eq_true hobs,notify_settles rfl (by decide) rfl (run_of_exec hc)⟩

end WickedBus.Notify
