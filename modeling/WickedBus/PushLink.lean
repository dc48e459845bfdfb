import WickedBus.Inbox
import WickedBus.SessionLedger

namespace WickedBus

open LineFraming
open WickedBus.Ipc

def Frame.isNotify : Frame → Bool
  | .notify _ _ => true
  | _ => false

namespace Ledger

def writes (cfg : DaemonConfig) (l : Ledger) : SessionEvent → List Frame
  | .enqueue line now room => (l.session.enqueue cfg now room line).2
  | .drained room => (l.drainFired.session.flush room).2
  | .degrade reason now => (l.session.degrade now reason).2
  | .close => []

def pendingFrom (l : Ledger) : ℕ := l.lines.length - l.session.queue.length

structure Trailing (l : Ledger) : Prop where
  ordered : l.written.Pairwise (· ≤ ·)
  behind : ∀ i ∈ l.written, i ≤ l.pendingFrom

def notifies (frames : List Frame) : List Frame := frames.filter Frame.isNotify

section Writes

variable {cfg : DaemonConfig} {l : Ledger} {room : ℕ}

theorem flushQueue_length (room : ℕ) (queue : List Frame) :
    (flushQueue room queue).1.length + (flushQueue room queue).2.length ≤ queue.length + 1 := by
  induction queue generalizing room with
  | nil => cases room <;> simp [flushQueue]
  | cons line queue ih =>
    cases room with
    | zero => simp [flushQueue,Nat.add_comm]
    | succ room =>
      have := ih room
      simp only [flushQueue,List.length_cons]
      omega

theorem sent_flush (l : Ledger) (room : ℕ) :
    (l.flush room).sent.map Prod.snd = l.sent.map Prod.snd ++ (l.session.flush room).2 := by
  cases hopen : l.session.closed with
  | true => simp [flush,Session.flush,hopen]
  | false =>
    obtain ⟨-,-,-,hsent⟩ := flush_open hopen room
    obtain ⟨hinitial,-⟩ := flushQueue_sub room l.session.queue
    have hframes : (l.session.flush room).2 = (flushQueue room l.session.queue).1 := by simp [Session.flush,hopen]
    rw [hsent,List.map_append,List.map_snd_zip (by simpa [pending] using hinitial.length_le),hframes]

theorem notifies_append (xs ys : List Frame) : notifies (xs ++ ys) = notifies xs ++ notifies ys :=
  List.filter_append ..

theorem notifies_mark (s : Session) (now : ℤ) : notifies (s.checkHighWatermark cfg now).2 = [] := by
  unfold Session.checkHighWatermark Session.degrade
  repeat' split
  all_goals rfl

theorem notifies_step (l : Ledger) (a : SessionEvent) : notifies ((l.step cfg a).sent.map Prod.snd) =
    notifies (l.sent.map Prod.snd) ++ notifies (l.writes cfg a) := by
  cases a with
  | enqueue line now room =>
    rw [step,writes,Session.enqueue]
    split_ifs
    · exact (List.append_nil _).symm
    · rw [sent_flush,notifies_append,notifies_append,notifies_mark,List.nil_append]
      rfl
  | drained room =>
    rw [step,sent_flush,notifies_append]
    rfl
  | degrade reason now =>
    have hsilent : notifies (l.session.degrade now reason).2 = [] := by
      unfold Session.degrade
      split_ifs <;> rfl
    rw [writes,hsilent,List.append_nil]
    rfl
  | close => exact (List.append_nil _).symm

theorem Trailing.flush (h : Trailing l) (hqueue : l.session.queue.length ≤ l.lines.length) (room : ℕ) :
    Trailing (l.flush room) := by
  cases hopen : l.session.closed with
  | true => rwa [flush_closed hopen]
  | false =>
    obtain ⟨hrest,-,-,hsent⟩ := flush_open hopen room
    have hlength := flushQueue_length room l.session.queue
    obtain ⟨hinitial,hsuffix⟩ := flushQueue_sub room l.session.queue
    have hnew : (l.flush room).written =
        l.written ++ List.range' l.pendingFrom (flushQueue room l.session.queue).1.length := by
      rw [written,hsent,List.map_append,List.zip_eq_zip_take_min,List.map_fst_zip (by simp)]
      have hmin : min l.pending.length (flushQueue room l.session.queue).1.length =
          (flushQueue room l.session.queue).1.length := by
        simpa [pending] using hinitial.length_le
      rw [hmin,pending,List.take_range'_of_length_ge hinitial.length_le]
      rfl
    have hpoint : ∀ i ∈ List.range' l.pendingFrom (flushQueue room l.session.queue).1.length,
        l.pendingFrom ≤ i ∧ i ≤ (l.flush room).pendingFrom := by
      intro i hi
      obtain ⟨hlow,hhigh⟩ := List.mem_range'_1.mp hi
      refine ⟨hlow,?_⟩
      have hrows : (l.flush room).pendingFrom = l.lines.length - (flushQueue room l.session.queue).2.length := by
        rw [pendingFrom,hrest]
        rfl
      have hsub := hsuffix.length_le
      rw [hrows]
      simp only [pendingFrom] at hhigh
      omega
    have hpast : l.pendingFrom ≤ (l.flush room).pendingFrom := by
      have hsub := hsuffix.length_le
      rw [pendingFrom,pendingFrom,hrest]
      show _ ≤ l.lines.length - _
      omega
    rw [← hrest] at hlength
    refine ⟨?_,fun i hi => ?_⟩
    · rw [hnew]
      exact List.pairwise_append.mpr ⟨h.ordered,List.pairwise_le_range',fun i hi j hj =>
        (h.behind i hi).trans (hpoint j hj).1⟩
    · rw [hnew] at hi
      rcases List.mem_append.mp hi with hi | hi
      · exact (h.behind i hi).trans hpast
      · exact (hpoint i hi).2

theorem Trailing.advance {m : Ledger} (h : Trailing l) (hsent : m.sent = l.sent)
    (hpast : l.pendingFrom ≤ m.pendingFrom) : Trailing m := by
  have hwritten : m.written = l.written := congrArg (List.map Prod.fst) hsent
  exact ⟨hwritten ▸ h.ordered,fun i hi => (h.behind i (hwritten ▸ hi)).trans hpast⟩

theorem pendingFrom_push (l : Ledger) (cfg : DaemonConfig) (line : Frame)
    (hqueue : l.session.queue.length ≤ l.lines.length) :
    l.pendingFrom ≤ (l.push cfg line).pendingFrom := by
  show l.lines.length - _ ≤ (l.lines ++ [line]).length - (l.session.push cfg line).queue.length
  unfold Session.push
  split_ifs <;> simp only [List.length_append,List.length_tail,List.length_singleton] <;> omega

theorem Trailing.step (h : Trailing l) (hfaithful : Faithful l) (cfg : DaemonConfig) (a : SessionEvent) :
    Trailing (l.step cfg a) := by
  have hqueue := hfaithful.1.length_le
  cases a with
  | enqueue line now room =>
    rw [Ledger.step]
    split_ifs
    · exact h
    · have hmark := (mark_session (l.push cfg line) cfg now).1
      have hpushed := (hfaithful.push cfg line).1.length_le
      have hpast : l.pendingFrom ≤ ((l.push cfg line).mark cfg now).pendingFrom := by
        refine (pendingFrom_push l cfg line hqueue).trans (le_of_eq ?_)
        rw [pendingFrom,pendingFrom,hmark]
        rfl
      have hmarked : Trailing ((l.push cfg line).mark cfg now) := h.advance rfl hpast
      refine hmarked.flush ?_ room
      rw [hmark]
      exact hpushed
  | drained room => exact Trailing.flush (l := l.drainFired) ⟨h.ordered,h.behind⟩ hqueue room
  | degrade reason now =>
    refine h.advance rfl (le_of_eq ?_)
    have hkept : (l.session.degrade now reason).1.queue = l.session.queue := by
      unfold Session.degrade
      split_ifs <;> rfl
    show _ = l.lines.length - (l.session.degrade now reason).1.queue.length
    rw [hkept]
    rfl
  | close => exact ⟨h.ordered,h.behind⟩

theorem run_trailing (cfg : DaemonConfig) (as : List SessionEvent) : Trailing (run cfg as) := by
  induction as using List.reverseRecOn with
  | nil => exact ⟨.nil,by simp [run,start,written]⟩
  | append_singleton as a ih =>
    rw [run_snoc]
    exact ih.step (run_faithful cfg as) cfg a

end Writes

end Ledger

structure Link where
  ledger : Ledger
  written : List Frame
  wire : JsString
  client : Inbox.Subscriber

inductive ClientAction where
  | next
  | tick
  | error (message : JsString)
  | close
  | callerClose

def ClientAction.inbox : ClientAction → Inbox.Action
  | .next => .next
  | .tick => .tick
  | .error message => .error message
  | .close => .close
  | .callerClose => .callerClose

inductive LinkAction where
  | daemon (a : SessionEvent)
  | arrive (n : ℕ)
  | client (a : ClientAction)

def LinkAction.session? : LinkAction → Option SessionEvent
  | .daemon a => some a
  | _ => none

namespace Link

def reasonText : DegradeReason → JsString
  | .queueFull => ascii "queue-full"
  | .writeTimeout => ascii "write-timeout"
  | .daemonShutdown => ascii "daemon-shutdown"

def frameValue (row : EventRow → Ipc.JsValue) : Frame → Ipc.JsValue
  | .notify eventId event => notifyFrame (.number eventId) ((event.map row).getD .null)
  | .pong => pongFrame
  | .degrade reason => makeFrame .degrade [(ascii "reason",.string (reasonText reason))]

def frameText (json : JsonCodec) (row : EventRow → Ipc.JsValue) (frame : Frame) : JsString :=
  match encodeFrame json (frameValue row frame) with
  | .ok text => text
  | .error _ => []

def start : Link := ⟨.start,[],[],.connected⟩

def step (json : JsonCodec) (row : EventRow → Ipc.JsValue) (cfg : DaemonConfig) (c : Link) : LinkAction → Link
  | .daemon a =>
    { c with
      ledger := c.ledger.step cfg a
      written := c.written ++ c.ledger.writes cfg a
      wire := c.wire ++ (c.ledger.writes cfg a).flatMap (frameText json row) }
  | .arrive n => { c with wire := c.wire.drop n, client := c.client.data json (c.wire.take n) }
  | .client a => { c with client := Inbox.step json c.client a.inbox }

def run (json : JsonCodec) (row : EventRow → Ipc.JsValue) (cfg : DaemonConfig) (as : List LinkAction) : Link :=
  as.foldl (step json row cfg) start

def sessionEvents (as : List LinkAction) : List SessionEvent := as.filterMap LinkAction.session?

structure Printable (json : JsonCodec) (row : EventRow → Ipc.JsValue) (frame : Frame) : Prop where
  line : newline ∉ json.stringify (frameValue row frame)
  parsed : json.parse (json.stringify (frameValue row frame)) = .ok (frameValue row frame)

section Frames

variable {json : JsonCodec} {row : EventRow → Ipc.JsValue} {frames : List Frame} {frame : Frame}

theorem encodeFrame_frameValue (json : JsonCodec) (row : EventRow → Ipc.JsValue) (frame : Frame) :
    encodeFrame json (frameValue row frame) = .ok (json.stringify (frameValue row frame) ++ [newline]) := by
  cases frame with
  | notify eventId event => exact encodeFrame_makeFrame json .notify _
  | pong => exact encodeFrame_makeFrame json .pong _
  | degrade reason => exact encodeFrame_makeFrame json .degrade _

theorem frameText_eq (frame : Frame) :
    frameText json row frame = json.stringify (frameValue row frame) ++ [newline] := by
  rw [frameText,encodeFrame_frameValue]

theorem drain_frames (hprintable : ∀ frame ∈ frames, Printable json row frame) :
    drain newline (parseLine json) (frames.flatMap (frameText json row)) = ⟨frames.map (frameValue row),[],none⟩ := by
  have hlines : List.Forall₂ (fun line value => newline ∉ line ∧ parseLine json line = .ok (some value))
      (frames.map (fun frame => json.stringify (frameValue row frame))) (frames.map (frameValue row)) := by
    induction frames with
    | nil => exact .nil
    | cons frame frames ih =>
      obtain ⟨hline,hparsed⟩ := hprintable frame List.mem_cons_self
      exact .cons ⟨hline,parseLine_stringify (encodeFrame_frameValue json row frame) hparsed⟩
        (ih fun f hf => hprintable f (List.mem_cons_of_mem _ hf))
  have htext : frames.flatMap (frameText json row) =
      (frames.map (fun frame => json.stringify (frameValue row frame))).flatMap (fun line => line ++ [newline]) := by
    rw [List.flatMap_map]
    exact List.flatMap_congr fun frame _ => frameText_eq frame
  rw [htext]
  exact drain_lines hlines

theorem frameKind_makeFrame (kind : FrameKind) (fields : List (JsString × Ipc.JsValue)) :
    Inbox.frameKind (makeFrame kind fields) = some kind := by
  have hkind : (makeFrame kind fields).kind = .string kind.text := by
    simp [Ipc.JsValue.kind,Ipc.JsValue.field,makeFrame]
  rw [Inbox.frameKind,hkind]
  cases kind <;> decide

theorem isNotify_makeFrame (kind : FrameKind) (fields : List (JsString × Ipc.JsValue)) :
    Inbox.isNotify (makeFrame kind fields) = decide (kind = .notify) := by
  simp [Inbox.isNotify,frameKind_makeFrame]

theorem isNotify_frameValue (frames : List Frame) :
    (frames.map (frameValue row)).filter Inbox.isNotify = (Ledger.notifies frames).map (frameValue row) := by
  rw [List.filter_map,Ledger.notifies]
  congr 1
  refine List.filter_congr fun frame _ => ?_
  cases frame with
  | notify eventId event => exact isNotify_makeFrame .notify _
  | pong => exact isNotify_makeFrame .pong []
  | degrade reason => exact isNotify_makeFrame .degrade _

end Frames

structure Carries (json : JsonCodec) (row : EventRow → Ipc.JsValue) (c : Link) : Prop where
  sent : Ledger.notifies c.written = Ledger.notifies (c.ledger.sent.map Prod.snd)
  whole : newline ∉ c.client.parser.buf
  rest : ∃ received rest, Inbox.Sound received [] c.client ∧
    drain newline (parseLine json) (c.client.parser.buf ++ c.wire) = ⟨rest,[],none⟩ ∧
    (c.written.map (frameValue row)).filter Inbox.isNotify = received ++ rest.filter Inbox.isNotify

section Carriage

variable {json : JsonCodec} {row : EventRow → Ipc.JsValue} {cfg : DaemonConfig} {c : Link} {as : List LinkAction}

theorem Carries.daemon (h : Carries json row c) (a : SessionEvent)
    (hprintable : ∀ frame ∈ c.ledger.writes cfg a, Printable json row frame) :
    Carries json row (c.step json row cfg (.daemon a)) := by
  obtain ⟨received,rest,hclient,hdrain,hreceived⟩ := h.rest
  refine ⟨?_,h.whole,received,rest ++ (c.ledger.writes cfg a).map (frameValue row),hclient,?_,?_⟩
  · show Ledger.notifies (c.written ++ c.ledger.writes cfg a) = _
    rw [Ledger.notifies_append,h.sent]
    exact (Ledger.notifies_step c.ledger a).symm
  · show drain newline (parseLine json) (c.client.parser.buf ++ (c.wire ++ _)) = _
    rw [← List.append_assoc,drain_append,hdrain]
    simp only [List.nil_append,drain_frames hprintable]
    rfl
  · show ((c.written ++ c.ledger.writes cfg a).map (frameValue row)).filter Inbox.isNotify = _
    rw [List.map_append,List.filter_append,hreceived,List.filter_append,List.append_assoc]

theorem Carries.arrive (h : Carries json row c) (n : ℕ) : Carries json row (c.step json row cfg (.arrive n)) := by
  obtain ⟨received,rest,hclient,hdrain,hreceived⟩ := h.rest
  have hparser := (Inbox.data_feed json c.client (c.wire.take n)).parser
  have hsplit : drain newline (parseLine json) ((c.client.parser.buf ++ c.wire.take n) ++ c.wire.drop n) =
      ⟨rest,[],none⟩ := by
    rw [List.append_assoc,List.take_append_drop]
    exact hdrain
  rw [drain_append] at hsplit
  cases herr : (drain newline (parseLine json) (c.client.parser.buf ++ c.wire.take n)).error with
  | some e =>
    rw [herr] at hsplit
    have := congrArg Drained.error hsplit
    rw [herr] at this
    cases this
  | none =>
    rw [herr] at hsplit
    have hbuf : (c.client.data json (c.wire.take n)).parser.buf =
        (drain newline (parseLine json) (c.client.parser.buf ++ c.wire.take n)).buffer :=
      congrArg FrameParser.buf hparser
    have hlater := hsplit
    simp only [Drained.after,Drained.mk.injEq] at hlater
    obtain ⟨hrest,hempty,hquiet⟩ := hlater
    refine ⟨h.sent,?_,_,(drain newline (parseLine json) ((drain newline (parseLine json)
      (c.client.parser.buf ++ c.wire.take n)).buffer ++ c.wire.drop n)).frames,hclient.data json _,?_,?_⟩
    · show newline ∉ (c.client.data json (c.wire.take n)).parser.buf
      rw [hbuf]
      exact drain_remainder herr
    · show drain newline (parseLine json)
        ((c.client.data json (c.wire.take n)).parser.buf ++ c.wire.drop n) = ⟨_,[],none⟩
      rw [hbuf,← hempty,← hquiet]
    · show (c.written.map (frameValue row)).filter Inbox.isNotify = _
      rw [hreceived,← hrest,List.filter_append,List.append_assoc]
      rfl

theorem Carries.onClient (h : Carries json row c) (a : ClientAction) :
    Carries json row (c.step json row cfg (.client a)) := by
  have hquiet : a.inbox.chunk? = none := by cases a <;> rfl
  have hsame := Inbox.sameFeed_step (s := c.client) json hquiet
  obtain ⟨received,rest,hclient,hdrain,hreceived⟩ := h.rest
  refine ⟨h.sent,?_,received,rest,hclient.step json hquiet,?_,hreceived⟩
  · show newline ∉ (Inbox.step json c.client a.inbox).parser.buf
    rw [hsame.parser]
    exact h.whole
  · show drain newline (parseLine json) ((Inbox.step json c.client a.inbox).parser.buf ++ c.wire) = _
    rw [hsame.parser]
    exact hdrain

theorem run_concat (as : List LinkAction) (a : LinkAction) :
    run json row cfg (as ++ [a]) = (run json row cfg as).step json row cfg a := List.foldl_append ..

theorem written_step (c : Link) (a : LinkAction) : ∃ more, (c.step json row cfg a).written = c.written ++ more ∧
    ∀ b, a = .daemon b → more = c.ledger.writes cfg b := by
  cases a with
  | daemon b => exact ⟨_,rfl,fun b' hb => by cases hb; rfl⟩
  | arrive n => exact ⟨[],(List.append_nil _).symm,fun b' hb => by cases hb⟩
  | client b => exact ⟨[],(List.append_nil _).symm,fun b' hb => by cases hb⟩

theorem run_carries (hprintable : ∀ frame ∈ (run json row cfg as).written, Printable json row frame) :
    Carries json row (run json row cfg as) := by
  induction as using List.reverseRecOn with
  | nil => exact ⟨rfl,List.not_mem_nil,[],[],.connected,drain_unfinished List.not_mem_nil,rfl⟩
  | append_singleton as a ih =>
    rw [run_concat] at hprintable ⊢
    obtain ⟨more,hmore,hnew⟩ := @written_step json row cfg (run json row cfg as) a
    rw [hmore] at hprintable
    have hprior := ih fun frame hframe => hprintable frame (List.mem_append_left _ hframe)
    cases a with
    | daemon b =>
      exact hprior.daemon b fun frame hframe => hprintable frame (List.mem_append_right _ (hnew b rfl ▸ hframe))
    | arrive n => exact hprior.arrive n
    | client b => exact hprior.onClient b

theorem run_ledger (as : List LinkAction) :
    (run json row cfg as).ledger = Ledger.run cfg (sessionEvents as) := by
  induction as using List.reverseRecOn with
  | nil => rfl
  | append_singleton as a ih =>
    rw [run_concat,sessionEvents,List.filterMap_append]
    cases a with
    | daemon b =>
      rw [show [LinkAction.daemon b].filterMap LinkAction.session? = [b] from rfl,Ledger.run_snoc]
      exact congrArg (fun l => Ledger.step cfg l b) ih
    | arrive n =>
      rw [show [LinkAction.arrive n].filterMap LinkAction.session? = [] from rfl,List.append_nil]
      exact ih
    | client b =>
      rw [show [LinkAction.client b].filterMap LinkAction.session? = [] from rfl,List.append_nil]
      exact ih

end Carriage

structure Delivers (row : EventRow → Ipc.JsValue) (c : Link) : Prop where
  enqueued : ∀ p ∈ c.ledger.sent, c.ledger.lines[p.1]? = some p.2
  ordered : (c.ledger.sent.map Prod.fst).Pairwise (· ≤ ·)
  yielded : c.client.yielded <+: (Ledger.notifies (c.ledger.sent.map Prod.snd)).map (frameValue row)
  conserved : c.client.closed = false → c.wire = [] →
    (Ledger.notifies (c.ledger.sent.map Prod.snd)).map (frameValue row) =
      c.client.yielded ++ c.client.inFlight ++ c.client.inbox

section Delivery

variable {json : JsonCodec} {row : EventRow → Ipc.JsValue} {cfg : DaemonConfig} {as : List LinkAction}

theorem run_delivers (hprintable : ∀ frame ∈ (run json row cfg as).written, Printable json row frame) :
    Delivers row (run json row cfg as) := by
  have h := run_carries hprintable
  obtain ⟨received,rest,hclient,hdrain,hreceived⟩ := h.rest
  rw [isNotify_frameValue,h.sent] at hreceived
  have hledger := @run_ledger json row cfg as
  refine ⟨?_,?_,?_,fun hopen hwire => ?_⟩
  · rw [hledger]
    exact (Ledger.run_faithful cfg _).2
  · rw [hledger]
    exact (Ledger.run_trailing cfg _).ordered
  · have hinitial : (run json row cfg as).client.yielded <+: received := by
      cases hclosed : (run json row cfg as).client.closed with
      | false => exact (List.prefix_append _ _).trans (hclient.closing hclosed)
      | true => exact (List.prefix_append _ _).trans (hclient.ended hclosed)
    rw [hreceived]
    exact hinitial.trans (List.prefix_append _ _)
  · have hlive := hclient.live hopen
    rw [List.filter_nil,List.append_nil] at hlive
    rw [hwire,List.append_nil,drain_unfinished h.whole] at hdrain
    have hnil : rest = [] := (congrArg Drained.frames hdrain).symm
    rw [hreceived,hnil,List.filter_nil,List.append_nil,hlive]

theorem push_delivers (hprintable : ∀ frame ∈ (run json row cfg as).written, Printable json row frame) :
    Delivers row (run json row cfg as) ∧
      ((∀ bs a, bs ++ [a] <+: sessionEvents as → Ledger.Accepted cfg (Ledger.run cfg bs) a) →
        ((run json row cfg as).ledger.sent.map Prod.fst).Pairwise (· < ·)) := by
  refine ⟨run_delivers hprintable,fun haccepted => ?_⟩
  rw [run_ledger]
  exact (Ledger.run_quiet haccepted).rising

end Delivery

def noticeText : JsString := ascii "\x7b\"kind\":\"notify\",\"event_id\":1,\"event\":null\x7d"

def noticeCodec : JsonCodec where
  stringify
    | .object [_,_,_] => noticeText
    | _ => kindText (ascii "pong")
  parse text :=
    if text = noticeText then .ok (notifyFrame (.number 1) .null)
    else if text = kindText (ascii "pong") then .ok pongFrame
    else .error (ascii "Unexpected token")
  parse_empty v := by
    have hnotice : [] ≠ noticeText := by decide
    have hpong : [] ≠ kindText (ascii "pong") := by decide
    simp [hnotice,hpong]

def noticeRun : List LinkAction :=
  [.daemon (.enqueue (.notify 1 none) 0 1),.client .next,.arrive 7,.daemon (.enqueue .pong 1 1),.arrive 100,
    .client .tick,.client .tick]

theorem push_delivers_sample :
    (run noticeCodec (fun _ => .null) Ledger.sampleDaemonConfig noticeRun).written = [.notify 1 none,.pong] ∧
      Delivers (fun _ => .null) (run noticeCodec (fun _ => .null) Ledger.sampleDaemonConfig noticeRun) := by
  have hwritten : (run noticeCodec (fun _ => .null) Ledger.sampleDaemonConfig noticeRun).written =
      [.notify 1 none,.pong] := by decide +kernel
  refine ⟨hwritten,(push_delivers fun frame hframe => ?_).1⟩
  rw [hwritten] at hframe
  rcases List.mem_cons.mp hframe with rfl | hframe
  · exact ⟨by decide,rfl⟩
  · rw [List.mem_singleton.mp hframe]
    exact ⟨by decide,rfl⟩

end Link

end WickedBus
