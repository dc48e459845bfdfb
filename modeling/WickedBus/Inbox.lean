import WickedBus.Ipc

namespace WickedBus.Inbox

open LineFraming
open WickedBus.Ipc

inductive EndState where
  | degrade (reason : JsValue)
  | socketError (message : JsString)
  | protocolError (error : FrameError)
  | eof
  | callerClose

inductive Settled where
  | value (frame : JsValue)
  | done

inductive Generator where
  | suspended
  | awaiting (promise : ℕ)
  | yielding (frame : JsValue)
  | completed

structure Subscriber where
  parser : FrameParser
  inbox : List JsValue
  waiters : List ℕ
  degraded : Option JsValue
  closed : Bool
  lastState : Option EndState
  promises : ℕ → Option Settled
  fresh : ℕ
  generator : Generator
  requests : ℕ
  results : List (Option JsValue)

def frameKind (frame : JsValue) : Option FrameKind :=
  match frame.kind with
  | .string value => frameKinds.find? (fun k => k.text = value)
  | _ => none

def isNotify (frame : JsValue) : Bool := decide (frameKind frame = some .notify)

def settle (promises : ℕ → Option Settled) (w : ℕ) (r : Settled) : ℕ → Option Settled :=
  match promises w with
  | none => Function.update promises w (some r)
  | some _ => promises

namespace Subscriber

def connected : Subscriber where
  parser := .new
  inbox := []
  waiters := []
  degraded := none
  closed := false
  lastState := none
  promises _ := none
  fresh := 0
  generator := .suspended
  requests := 0
  results := []

def deliver (s : Subscriber) (frame : JsValue) : Subscriber :=
  match s.waiters with
  | w :: rest => { s with waiters := rest, promises := settle s.promises w (.value frame) }
  | [] => { s with inbox := s.inbox ++ [frame] }

def endIterator (s : Subscriber) (state : EndState) : Subscriber :=
  if s.closed then s
  else { s with
    closed := true
    waiters := []
    promises := s.waiters.foldl (fun promises w => settle promises w .done) s.promises
    lastState := some state }

def handleFrame (s : Subscriber) (frame : JsValue) : Subscriber :=
  match frameKind frame with
  | some .notify => s.deliver frame
  | some .degrade =>
    let reason := frame.field (ascii "reason")
    { s with degraded := some reason }.endIterator (.degrade reason)
  | _ => s

def data (json : JsonCodec) (s : Subscriber) (chunk : JsString) : Subscriber :=
  let fed := s.parser.feed json chunk
  let arrived := { s with parser := fed.parser }
  match fed.error with
  | some e => arrived.endIterator (.protocolError e)
  | none => fed.frames.foldl handleFrame arrived

def complete (s : Subscriber) : Subscriber :=
  { s with
    generator := .completed
    requests := 0
    results := s.results ++ List.replicate s.requests none }

def resume (s : Subscriber) : Subscriber :=
  if s.closed then s.complete
  else
    match s.inbox with
    | frame :: rest => { s with inbox := rest, generator := .yielding frame }
    | [] => { s with
      generator := .awaiting s.fresh
      waiters := s.waiters ++ [s.fresh]
      fresh := s.fresh + 1 }

def next (s : Subscriber) : Subscriber :=
  match s.generator with
  | .completed => { s with results := s.results ++ [none] }
  | .suspended => { s with requests := s.requests + 1 }.resume
  | _ => { s with requests := s.requests + 1 }

def answer (s : Subscriber) (frame : JsValue) : Subscriber :=
  { s with requests := s.requests - 1, results := s.results ++ [some frame] }

-- one microtask: an awaited promise that is settled, or the await inside yield
def tick (s : Subscriber) : Subscriber :=
  match s.generator with
  | .awaiting w =>
    match s.promises w with
    | none => s
    | some .done => s.complete
    | some (.value frame) => { s with generator := .yielding frame }
  | .yielding frame =>
    if (s.answer frame).requests = 0 then { s.answer frame with generator := .suspended }
    else (s.answer frame).resume
  | _ => s

end Subscriber

inductive Action where
  | data (chunk : JsString)
  | next
  | tick
  | error (message : JsString)
  | close
  | callerClose

def step (json : JsonCodec) (s : Subscriber) : Action → Subscriber
  | .data chunk => s.data json chunk
  | .next => s.next
  | .tick => s.tick
  | .error message => s.endIterator (.socketError message)
  | .close =>
    s.endIterator (match s.degraded with
      | some reason => .degrade reason
      | none => .eof)
  | .callerClose => s.endIterator .callerClose

def run (json : JsonCodec) (as : List Action) : Subscriber := as.foldl (step json) .connected

def Action.chunk? : Action → Option JsString
  | .data chunk => some chunk
  | _ => none

def textOf (as : List Action) : JsString := (as.filterMap Action.chunk?).flatten

-- the notify frames of the whole text, parsed in one piece
def arrived (json : JsonCodec) (text : JsString) : List JsValue :=
  (FrameParser.new.feed json text).frames.filter isNotify

namespace Subscriber

def yielded (s : Subscriber) : List JsValue := s.results.filterMap id

def inFlight (s : Subscriber) : List JsValue :=
  match s.generator with
  | .awaiting w =>
    match s.promises w with
    | some (.value frame) => [frame]
    | _ => []
  | .yielding frame => [frame]
  | _ => []

def unsettled (s : Subscriber) : List ℕ :=
  match s.generator with
  | .awaiting w => if (s.promises w).isNone then [w] else []
  | _ => []

def running (s : Subscriber) : Bool :=
  match s.generator with
  | .awaiting _ | .yielding _ => true
  | _ => false

end Subscriber

structure Sound (received rest : List JsValue) (s : Subscriber) : Prop where
  live : s.closed = false → received = s.yielded ++ s.inFlight ++ s.inbox ++ rest.filter isNotify
  ended : s.closed = true → s.yielded ++ s.inFlight <+: received
  waiters : s.waiters = s.unsettled
  apart : s.waiters = [] ∨ s.inbox = []
  released : s.closed = true → s.waiters = []
  unused : ∀ w, s.fresh ≤ w → s.promises w = none
  issued : ∀ w, s.generator = .awaiting w → w < s.fresh
  finished : ∀ w, s.promises w = some .done → s.closed = true
  completed : s.generator = .completed → s.closed = true
  asked : s.running = decide (0 < s.requests)

structure Ready (received rest : List JsValue) (s : Subscriber) : Prop where
  live : s.closed = false → received = s.yielded ++ s.inbox ++ rest.filter isNotify
  ended : s.closed = true → s.yielded <+: received
  waiters : s.waiters = []
  unused : ∀ w, s.fresh ≤ w → s.promises w = none
  finished : ∀ w, s.promises w = some .done → s.closed = true
  asked : 0 < s.requests

section Steps

variable {s : Subscriber} {received rest : List JsValue} {promises : ℕ → Option Settled} {w : ℕ} {r : Settled}

theorem settle_self (h : promises w = none) : settle promises w r w = some r := by
  simp only [settle,h,Function.update_self]

theorem settle_of_ne {v : ℕ} (h : v ≠ w) : settle promises w r v = promises v := by
  cases hw : promises w with
  | none => simp only [settle,hw,Function.update_of_ne h]
  | some r' => simp only [settle,hw]

theorem settle_unused {fresh : ℕ} (h : ∀ v, fresh ≤ v → promises v = none) (hw : w < fresh) :
    ∀ v, fresh ≤ v → settle promises w r v = none := by
  intro v hv
  rw [settle_of_ne (by omega)]
  exact h v hv

theorem settle_value_done {frame : JsValue} {v : ℕ} (hnone : promises w = none)
    (h : settle promises w (.value frame) v = some .done) : promises v = some .done := by
  by_cases hvw : v = w
  · subst hvw
    rw [settle_self hnone] at h
    cases h
  · rwa [settle_of_ne hvw] at h

theorem yielded_replicate (results : List (Option JsValue)) (n : ℕ) :
    (results ++ List.replicate n none).filterMap id = results.filterMap id := by
  rw [List.filterMap_append,List.filterMap_replicate_of_none rfl,List.append_nil]

theorem Sound.connected : Sound [] [] .connected where
  live _ := rfl
  ended h := by cases h
  waiters := rfl
  apart := .inl rfl
  released _ := rfl
  unused _ _ := rfl
  issued _ h := by cases h
  finished _ h := by cases h
  completed h := by cases h
  asked := rfl

theorem Sound.waiter (h : Sound received rest s) {ws : List ℕ} (hw : s.waiters = w :: ws) :
    s.generator = .awaiting w ∧ s.promises w = none ∧ ws = [] ∧ s.inbox = [] ∧ s.closed = false := by
  have hunsettled := h.waiters.symm.trans hw
  have hinbox : s.inbox = [] := by
    rcases h.apart with hnil | hinbox
    · rw [hnil] at hw
      cases hw
    · exact hinbox
  have hopen : s.closed = false := by
    rw [← Bool.not_eq_true]
    intro hclosed
    rw [h.released hclosed] at hw
    cases hw
  unfold Subscriber.unsettled at hunsettled
  split at hunsettled
  · rename_i v hgen
    split_ifs at hunsettled with hnone
    cases hunsettled
    exact ⟨hgen,Option.isNone_iff_eq_none.mp hnone,rfl,hinbox,hopen⟩
  · cases hunsettled

theorem Sound.deliver {frame : JsValue} (h : Sound received (frame :: rest) s) (hnotify : isNotify frame = true) :
    Sound received rest (s.deliver frame) := by
  have hrest : (frame :: rest).filter isNotify = frame :: rest.filter isNotify := List.filter_cons_of_pos hnotify
  unfold Subscriber.deliver
  split
  · rename_i w ws hw
    obtain ⟨hgen,hnone,rfl,hinbox,hopen⟩ := h.waiter hw
    have hsettled := settle_self (r := .value frame) hnone
    refine ⟨fun hlive => ?_,fun hclosed => ?_,?_,.inl rfl,fun _ => rfl,
      settle_unused h.unused (h.issued w hgen),h.issued,fun v hv => h.finished v (settle_value_done hnone hv),
      h.completed,h.asked⟩
    · have hreceived := h.live hlive
      simp only [Subscriber.inFlight,hgen,hnone,hinbox,hrest] at hreceived
      simp only [Subscriber.inFlight,hgen,hsettled,hinbox]
      simpa [Subscriber.yielded] using hreceived
    · exact absurd (hopen.symm.trans hclosed) Bool.false_ne_true
    · simp [Subscriber.unsettled,hgen,hsettled]
  · rename_i hw
    refine ⟨fun hlive => ?_,h.ended,h.waiters,.inl hw,h.released,h.unused,h.issued,h.finished,h.completed,h.asked⟩
    have hreceived := h.live hlive
    rw [hrest] at hreceived
    simpa [Subscriber.yielded,Subscriber.inFlight] using hreceived

theorem Sound.closing (h : Sound received rest s) (hopen : s.closed = false) :
    s.yielded ++ s.inFlight <+: received := by
  rw [h.live hopen,List.append_assoc (s.yielded ++ s.inFlight)]
  exact List.prefix_append _ _

theorem Sound.ofClosed {more : List JsValue} (h : Sound received rest s) (hclosed : s.closed = true) :
    Sound received more s :=
  ⟨fun hlive => absurd (hlive.symm.trans hclosed) Bool.false_ne_true,h.ended,h.waiters,h.apart,h.released,h.unused,
    h.issued,h.finished,h.completed,h.asked⟩

theorem Sound.endIterator {more : List JsValue} (h : Sound received rest s) (state : EndState) :
    Sound received more (s.endIterator state) := by
  unfold Subscriber.endIterator
  split_ifs with hclosed
  · exact h.ofClosed hclosed
  · have hopen : s.closed = false := Bool.eq_false_iff.mpr hclosed
    have hserved := h.closing hopen
    cases hw : s.waiters with
    | nil =>
      have hunsettled := h.waiters.symm.trans hw
      exact ⟨fun hlive => (by cases hlive),fun _ => hserved,hunsettled.symm,.inl rfl,fun _ => rfl,h.unused,h.issued,
        fun _ _ => rfl,fun _ => rfl,h.asked⟩
    | cons w ws =>
      obtain ⟨hgen,hnone,rfl,hinbox,-⟩ := h.waiter hw
      have hsettled := settle_self (r := .done) hnone
      refine ⟨fun hlive => (by cases hlive),fun _ => ?_,?_,.inl rfl,fun _ => rfl,
        settle_unused h.unused (h.issued w hgen),h.issued,fun _ _ => rfl,fun _ => rfl,h.asked⟩
      · simp only [Subscriber.inFlight,hgen,hnone] at hserved
        simp only [Subscriber.inFlight,hgen,List.foldl_cons,List.foldl_nil,hsettled]
        exact hserved
      · simp [Subscriber.unsettled,hgen,hsettled]

theorem Sound.handleFrame {frame : JsValue} (h : Sound received (frame :: rest) s) :
    Sound received rest (s.handleFrame frame) := by
  have hskip (hother : isNotify frame = false) : Sound received rest s := by
    refine ⟨fun hlive => ?_,h.ended,h.waiters,h.apart,h.released,h.unused,h.issued,h.finished,h.completed,h.asked⟩
    rw [h.live hlive,List.filter_cons_of_neg (by simp [hother])]
  unfold Subscriber.handleFrame
  split
  · rename_i hkind
    exact h.deliver (decide_eq_true hkind)
  · have hdegraded : Sound received (frame :: rest) { s with degraded := some (frame.field (ascii "reason")) } :=
      ⟨h.live,h.ended,h.waiters,h.apart,h.released,h.unused,h.issued,h.finished,h.completed,h.asked⟩
    exact hdegraded.endIterator _
  · rename_i hnotify _
    exact hskip (decide_eq_false hnotify)

theorem Sound.handleFrames {frames : List JsValue} (h : Sound received frames s) :
    Sound received [] (frames.foldl Subscriber.handleFrame s) := by
  induction frames generalizing s with
  | nil => exact h
  | cons frame frames ih => exact ih h.handleFrame

theorem Sound.data (h : Sound received [] s) (json : JsonCodec) (chunk : JsString) :
    Sound (received ++ (s.parser.feed json chunk).frames.filter isNotify) [] (s.data json chunk) := by
  have harrived (frames : List JsValue) (parser : FrameParser) :
      Sound (received ++ frames.filter isNotify) frames { s with parser := parser } := by
    refine ⟨fun hlive => ?_,fun hclosed => ?_,h.waiters,h.apart,h.released,h.unused,h.issued,h.finished,
      h.completed,h.asked⟩
    · have hreceived := h.live hlive
      rw [List.filter_nil,List.append_nil] at hreceived
      rw [hreceived]
      rfl
    · exact (h.ended hclosed).trans (List.prefix_append _ _)
  unfold Subscriber.data
  cases herror : (s.parser.feed json chunk).error with
  | some e =>
    simp only [herror]
    exact (harrived _ _).endIterator _
  | none =>
    simp only [herror]
    exact (harrived _ _).handleFrames

theorem Sound.handleClosed (h : Sound received [] s) (hclosed : s.closed = true) (frame : JsValue) :
    Sound received [] (s.handleFrame frame) ∧ (s.handleFrame frame).closed = true := by
  unfold Subscriber.handleFrame
  split
  · have hqueued : s.deliver frame = { s with inbox := s.inbox ++ [frame] } := by
      unfold Subscriber.deliver
      split
      · rename_i hwaiters
        rw [h.released hclosed] at hwaiters
        cases hwaiters
      · rfl
    have hkept : Sound received [] { s with inbox := s.inbox ++ [frame] } :=
      ⟨fun hlive => absurd (hlive.symm.trans hclosed) Bool.false_ne_true,h.ended,h.waiters,
        .inl (h.released hclosed),h.released,h.unused,h.issued,h.finished,h.completed,h.asked⟩
    exact hqueued ▸ ⟨hkept,hclosed⟩
  · rw [Subscriber.endIterator,if_pos hclosed]
    exact ⟨⟨h.live,h.ended,h.waiters,h.apart,h.released,h.unused,h.issued,h.finished,h.completed,h.asked⟩,hclosed⟩
  · exact ⟨h,hclosed⟩

theorem Sound.dataClosed (h : Sound received [] s) (hclosed : s.closed = true) (json : JsonCodec) (chunk : JsString) :
    Sound received [] (s.data json chunk) := by
  have hframes (frames : List JsValue) {t : Subscriber} (ht : Sound received [] t) (hended : t.closed = true) :
      Sound received [] (frames.foldl Subscriber.handleFrame t) := by
    induction frames generalizing t with
    | nil => exact ht
    | cons frame frames ih =>
      obtain ⟨hnext,hstill⟩ := ht.handleClosed hended frame
      exact ih hnext hstill
  have hfed : Sound received [] { s with parser := (s.parser.feed json chunk).parser } :=
    ⟨h.live,h.ended,h.waiters,h.apart,h.released,h.unused,h.issued,h.finished,h.completed,h.asked⟩
  unfold Subscriber.data
  cases herror : (s.parser.feed json chunk).error with
  | some e =>
    simp only [herror]
    exact hfed.endIterator _
  | none =>
    simp only [herror]
    exact hframes _ hfed hclosed

theorem Ready.complete (h : Ready received rest s) (hclosed : s.closed = true) : Sound received rest s.complete := by
  have hyielded : s.complete.yielded = s.yielded := yielded_replicate _ _
  refine ⟨fun hlive => absurd (hlive.symm.trans hclosed) Bool.false_ne_true,fun _ => ?_,h.waiters,.inl h.waiters,
    fun _ => h.waiters,h.unused,fun w hw => (by cases hw),h.finished,fun _ => hclosed,rfl⟩
  rw [hyielded]
  show s.yielded ++ [] <+: received
  rw [List.append_nil]
  exact h.ended hclosed

theorem Ready.resume (h : Ready received rest s) : Sound received rest s.resume := by
  unfold Subscriber.resume
  split_ifs with hclosed
  · exact h.complete hclosed
  · have hasked : true = decide (0 < s.requests) := (decide_eq_true h.asked).symm
    have hopen : s.closed = false := Bool.eq_false_iff.mpr hclosed
    have hreceived := h.live hopen
    split
    · rename_i frame inbox hinbox
      refine ⟨fun _ => ?_,fun hlive => absurd hlive hclosed,h.waiters,.inl h.waiters,fun _ => h.waiters,h.unused,
        fun w hw => (by cases hw),h.finished,fun hgen => (by cases hgen),hasked⟩
      rw [hinbox] at hreceived
      simpa [Subscriber.yielded,Subscriber.inFlight] using hreceived
    · rename_i hinbox
      have hfresh := h.unused s.fresh le_rfl
      refine ⟨fun _ => ?_,fun hlive => absurd hlive hclosed,?_,.inr hinbox,fun hlive => absurd hlive hclosed,
        fun w hw => h.unused w (Nat.le_of_succ_le hw),fun w hw => ?_,h.finished,fun hgen => (by cases hgen),hasked⟩
      · simpa [Subscriber.yielded,Subscriber.inFlight,hfresh] using hreceived
      · simp [Subscriber.unsettled,hfresh,h.waiters]
      · cases hw
        exact Nat.lt_succ_self _

theorem Sound.next (h : Sound received rest s) : Sound received rest s.next := by
  unfold Subscriber.next
  split
  · rename_i hgen
    have hyielded : (s.results ++ [none]).filterMap id = s.yielded := yielded_replicate s.results 1
    refine ⟨fun hlive => absurd (hlive.symm.trans (h.completed hgen)) Bool.false_ne_true,fun hclosed => ?_,
      h.waiters,h.apart,h.released,h.unused,h.issued,h.finished,h.completed,h.asked⟩
    show (s.results ++ [none]).filterMap id ++ s.inFlight <+: received
    rw [hyielded]
    exact h.ended hclosed
  · rename_i hgen
    have hinFlight : s.inFlight = [] := by simp only [Subscriber.inFlight,hgen]
    have hunsettled : s.unsettled = [] := by simp only [Subscriber.unsettled,hgen]
    refine Ready.resume ⟨fun hlive => ?_,fun hclosed => ?_,h.waiters.trans hunsettled,h.unused,h.finished,
      Nat.succ_pos _⟩
    · have hreceived := h.live hlive
      rwa [hinFlight,List.append_nil] at hreceived
    · have hserved := h.ended hclosed
      rwa [hinFlight,List.append_nil] at hserved
  · rename_i hcompleted hsuspended
    refine ⟨h.live,h.ended,h.waiters,h.apart,h.released,h.unused,h.issued,h.finished,h.completed,?_⟩
    have hrunning : s.running = true := by
      unfold Subscriber.running
      split
      · rfl
      · rfl
      · rename_i hawaiting hyielding
        cases hgen : s.generator with
        | suspended => exact absurd hgen hsuspended
        | awaiting w => exact absurd hgen (hawaiting w)
        | yielding frame => exact absurd hgen (hyielding frame)
        | completed => exact absurd hgen hcompleted
    exact hrunning.trans (decide_eq_true (Nat.succ_pos _)).symm

theorem Sound.answer {frame : JsValue} (h : Sound received rest s) (hgen : s.generator = .yielding frame) :
    (s.closed = false → received = (s.answer frame).yielded ++ s.inbox ++ rest.filter isNotify) ∧
      (s.closed = true → (s.answer frame).yielded <+: received) ∧ s.waiters = [] := by
  have hyielded : (s.answer frame).yielded = s.yielded ++ s.inFlight := by
    simp [Subscriber.answer,Subscriber.yielded,Subscriber.inFlight,hgen]
  have hunsettled : s.unsettled = [] := by simp only [Subscriber.unsettled,hgen]
  rw [hyielded]
  exact ⟨h.live,h.ended,h.waiters.trans hunsettled⟩

theorem Sound.tick (h : Sound received rest s) : Sound received rest s.tick := by
  unfold Subscriber.tick
  split
  · rename_i w hgen
    have hrunning : s.running = true := by simp only [Subscriber.running,hgen]
    have hasked : 0 < s.requests := of_decide_eq_true (h.asked.symm.trans hrunning)
    split
    · exact h
    · rename_i hdone
      have hinFlight : s.inFlight = [] := by simp only [Subscriber.inFlight,hgen,hdone]
      have hunsettled : s.unsettled = [] := by simp [Subscriber.unsettled,hgen,hdone]
      refine Ready.complete ⟨fun hlive => ?_,fun hclosed => ?_,h.waiters.trans hunsettled,h.unused,h.finished,hasked⟩
        (h.finished w hdone)
      · have hreceived := h.live hlive
        rwa [hinFlight,List.append_nil] at hreceived
      · have hserved := h.ended hclosed
        rwa [hinFlight,List.append_nil] at hserved
    · rename_i frame hvalue
      have hinFlight : s.inFlight = [frame] := by simp only [Subscriber.inFlight,hgen,hvalue]
      have hunsettled : s.unsettled = [] := by simp [Subscriber.unsettled,hgen,hvalue]
      have hwaiters := h.waiters.trans hunsettled
      refine ⟨fun hlive => ?_,fun hclosed => ?_,hwaiters,.inl hwaiters,fun _ => hwaiters,h.unused,
        fun v hv => (by cases hv),h.finished,fun hcompleted => (by cases hcompleted),?_⟩
      · have hreceived := h.live hlive
        rwa [hinFlight] at hreceived
      · have hserved := h.ended hclosed
        rwa [hinFlight] at hserved
      · exact (decide_eq_true hasked).symm
  · rename_i frame hgen
    obtain ⟨hlive,hended,hwaiters⟩ := h.answer hgen
    split_ifs with hnone
    · refine ⟨fun hopen => ?_,fun hclosed => ?_,hwaiters,.inl hwaiters,fun _ => hwaiters,h.unused,
        fun v hv => (by cases hv),h.finished,fun hcompleted => (by cases hcompleted),?_⟩
      · have hreceived := hlive hopen
        rwa [← List.append_nil (s.answer frame).yielded] at hreceived
      · have hserved := hended hclosed
        rwa [← List.append_nil (s.answer frame).yielded] at hserved
      · exact (decide_eq_false (hnone ▸ Nat.lt_irrefl 0)).symm
    · exact Ready.resume ⟨hlive,hended,hwaiters,h.unused,h.finished,Nat.pos_of_ne_zero hnone⟩
  · exact h

theorem Sound.step (h : Sound received [] s) (json : JsonCodec) {a : Action} (hquiet : a.chunk? = none) :
    Sound received [] (step json s a) := by
  cases a with
  | data chunk => cases hquiet
  | next => exact h.next
  | tick => exact h.tick
  | error message => exact h.endIterator _
  | close => exact h.endIterator _
  | callerClose => exact h.endIterator _

structure SameFeed (s s' : Subscriber) : Prop where
  parser : s'.parser = s.parser
  closed : s.closed = true → s'.closed = true

theorem SameFeed.refl (s : Subscriber) : SameFeed s s := ⟨rfl,id⟩

theorem SameFeed.trans {s' s'' : Subscriber} (h : SameFeed s s') (h' : SameFeed s' s'') : SameFeed s s'' :=
  ⟨h'.parser.trans h.parser,fun hclosed => h'.closed (h.closed hclosed)⟩

theorem endIterator_closed (s : Subscriber) (state : EndState) : (s.endIterator state).closed = true := by
  unfold Subscriber.endIterator
  split_ifs with hclosed
  · exact hclosed
  · rfl

theorem sameFeed_endIterator (s : Subscriber) (state : EndState) : SameFeed s (s.endIterator state) := by
  refine ⟨?_,fun _ => endIterator_closed s state⟩
  unfold Subscriber.endIterator
  split_ifs <;> rfl

theorem sameFeed_handleFrame (s : Subscriber) (frame : JsValue) : SameFeed s (s.handleFrame frame) := by
  unfold Subscriber.handleFrame
  split
  · unfold Subscriber.deliver
    split <;> exact ⟨rfl,id⟩
  · have h := sameFeed_endIterator { s with degraded := some (frame.field (ascii "reason")) }
      (.degrade (frame.field (ascii "reason")))
    exact ⟨h.parser,h.closed⟩
  · exact .refl s

theorem sameFeed_handleFrames (frames : List JsValue) (s : Subscriber) :
    SameFeed s (frames.foldl Subscriber.handleFrame s) := by
  induction frames generalizing s with
  | nil => exact .refl s
  | cons frame frames ih => exact (sameFeed_handleFrame s frame).trans (ih _)

theorem sameFeed_resume (s : Subscriber) : SameFeed s s.resume := by
  unfold Subscriber.resume
  split_ifs
  · exact ⟨rfl,id⟩
  · split <;> exact ⟨rfl,id⟩

theorem sameFeed_next (s : Subscriber) : SameFeed s s.next := by
  unfold Subscriber.next
  split
  · exact ⟨rfl,id⟩
  · have h := sameFeed_resume { s with requests := s.requests + 1 }
    exact ⟨h.parser,h.closed⟩
  · exact ⟨rfl,id⟩

theorem sameFeed_tick (s : Subscriber) : SameFeed s s.tick := by
  unfold Subscriber.tick
  split
  · split <;> exact ⟨rfl,id⟩
  · split_ifs
    · exact ⟨rfl,id⟩
    · rename_i frame _ _
      have h := sameFeed_resume (s.answer frame)
      exact ⟨h.parser,h.closed⟩
  · exact .refl s

theorem sameFeed_step (json : JsonCodec) {a : Action} (hquiet : a.chunk? = none) : SameFeed s (step json s a) := by
  cases a with
  | data chunk => cases hquiet
  | next => exact sameFeed_next s
  | tick => exact sameFeed_tick s
  | error message => exact sameFeed_endIterator s _
  | close => exact sameFeed_endIterator s _
  | callerClose => exact sameFeed_endIterator s _

structure DataFeed (json : JsonCodec) (chunk : JsString) (s s' : Subscriber) : Prop where
  parser : s'.parser = (s.parser.feed json chunk).parser
  closed : s.closed = true → s'.closed = true
  refused : (s.parser.feed json chunk).error ≠ none → s'.closed = true

theorem data_feed (json : JsonCodec) (s : Subscriber) (chunk : JsString) :
    DataFeed json chunk s (s.data json chunk) := by
  unfold Subscriber.data
  dsimp only
  split
  · have h := sameFeed_endIterator { s with parser := (s.parser.feed json chunk).parser } (.protocolError ‹_›)
    exact ⟨h.parser,h.closed,fun _ => endIterator_closed _ _⟩
  · rename_i hnone
    have h := sameFeed_handleFrames (s.parser.feed json chunk).frames
      { s with parser := (s.parser.feed json chunk).parser }
    exact ⟨h.parser,h.closed,fun herror => absurd hnone herror⟩

structure Takes (json : JsonCodec) (text : JsString) (s : Subscriber) : Prop where
  sound : Sound (arrived json text) [] s
  buffered : (drain newline (parseLine json) text).error = none →
    s.parser.buf = (drain newline (parseLine json) text).buffer
  refused : (drain newline (parseLine json) text).error ≠ none → s.closed = true

theorem arrived_append (json : JsonCodec) (text chunk : JsString) : arrived json (text ++ chunk) =
    match (drain newline (parseLine json) text).error with
    | some _ => arrived json text
    | none => arrived json text ++ ((⟨(drain newline (parseLine json) text).buffer⟩ : FrameParser).feed json
        chunk).frames.filter isNotify := by
  show ((drain newline (parseLine json) (text ++ chunk)).frames).filter isNotify = _
  rw [drain_append]
  cases herror : (drain newline (parseLine json) text).error with
  | some e => rfl
  | none =>
    show ((drain newline (parseLine json) text).frames ++ _).filter isNotify = _
    rw [List.filter_append]
    rfl

theorem Takes.data {text : JsString} {json : JsonCodec} (h : Takes json text s) (chunk : JsString) :
    Takes json (text ++ chunk) (s.data json chunk) := by
  have hfeed := data_feed json s chunk
  have harrived := arrived_append json text chunk
  have hdrain := @drain_append UInt16 JsValue FrameError _ newline (parseLine json) text chunk
  cases herror : (drain newline (parseLine json) text).error with
  | some e =>
    have hclosed := h.refused (by rw [herror]; exact Option.some_ne_none e)
    rw [herror] at harrived hdrain
    refine ⟨harrived ▸ h.sound.dataClosed hclosed json chunk,fun hnone => ?_,fun _ => hfeed.closed hclosed⟩
    rw [hdrain] at hnone
    exact absurd (herror.symm.trans hnone) (Option.some_ne_none e)
  | none =>
    have hparser : s.parser = ⟨(drain newline (parseLine json) text).buffer⟩ := by rw [← h.buffered herror]
    rw [herror] at harrived hdrain
    refine ⟨?_,fun hnone => ?_,fun hsome => hfeed.refused ?_⟩
    · rw [harrived,← hparser]
      exact h.sound.data json chunk
    · rw [hdrain,hfeed.parser,hparser]
      rfl
    · rw [hdrain] at hsome
      rw [hparser]
      exact hsome

theorem Takes.step {text : JsString} {json : JsonCodec} (h : Takes json text s) (a : Action) :
    Takes json (text ++ textOf [a]) (step json s a) := by
  cases hchunk : a.chunk? with
  | some chunk =>
    cases a with
    | data chunk' =>
      obtain rfl := Option.some.inj hchunk
      have htext : textOf [.data chunk'] = chunk' := List.append_nil chunk'
      rw [htext]
      exact h.data chunk'
    | _ => cases hchunk
  | none =>
    have htext : textOf [a] = [] := by rw [textOf,List.filterMap_cons_none hchunk]; rfl
    have hsame := sameFeed_step (s := s) json hchunk
    rw [htext,List.append_nil]
    refine ⟨h.sound.step json hchunk,fun hnone => ?_,fun hsome => hsame.closed (h.refused hsome)⟩
    rw [hsame.parser]
    exact h.buffered hnone

theorem run_takes (json : JsonCodec) (as : List Action) : Takes json (textOf as) (run json as) := by
  induction as using List.reverseRecOn with
  | nil =>
    have hempty : drain newline (parseLine json) [] = ⟨[],[],none⟩ := drain_unfinished List.not_mem_nil
    refine ⟨?_,fun _ => ?_,fun hsome => ?_⟩
    · have hnone : arrived json (textOf []) = [] := by
        show ((drain newline (parseLine json) []).frames).filter isNotify = []
        rw [hempty]
        rfl
      rw [hnone]
      exact Sound.connected
    · show [] = (drain newline (parseLine json) []).buffer
      rw [hempty]
    · exact absurd (congrArg Drained.error hempty) hsome
  | append_singleton as a ih =>
    have htext : textOf (as ++ [a]) = textOf as ++ textOf [a] := by
      rw [textOf,List.filterMap_append,List.flatten_append]
      rfl
    rw [run,List.foldl_append,htext]
    exact ih.step a

theorem resume_closed (hclosed : s.closed = true) : s.resume = s.complete := if_pos hclosed

theorem tick_yielding {frame : JsValue} (hgen : s.generator = .yielding frame) (hclosed : s.closed = true) :
    s.tick.requests = 0 ∧
      s.tick.results = s.results ++ [some frame] ++ List.replicate (s.requests - 1) none ∧ s.tick.running = false := by
  unfold Subscriber.tick
  rw [hgen]
  simp only
  split_ifs with hnone
  · have hone : s.requests - 1 = 0 := hnone
    refine ⟨hnone,?_,rfl⟩
    rw [hone]
    exact (List.append_nil _).symm
  · have hclosed' : (s.answer frame).closed = true := hclosed
    rw [resume_closed hclosed']
    exact ⟨rfl,rfl,rfl⟩

theorem tick_idle (h : s.running = false) : s.tick = s := by
  unfold Subscriber.tick
  split
  · rename_i hgen
    simp only [Subscriber.running,hgen] at h
    cases h
  · rename_i hgen
    simp only [Subscriber.running,hgen] at h
    cases h
  · rfl

end Steps

-- two microtasks: the settled wait, then the await inside yield
structure Drains (s : Subscriber) : Prop where
  requests : s.tick.tick.requests = 0
  results : s.tick.tick.results =
    s.results ++ s.inFlight.map some ++ List.replicate (s.requests - s.inFlight.length) none

theorem Drains.ofIdle {s : Subscriber} (hidle : s.running = false) (hinFlight : s.inFlight = [])
    (hrequests : s.requests = 0) : Drains s := by
  have hsame : s.tick.tick = s := by rw [tick_idle hidle,tick_idle hidle]
  refine ⟨by rw [hsame,hrequests],?_⟩
  rw [hsame,hinFlight,hrequests]
  simp

theorem Sound.drains {s : Subscriber} (h : Sound received [] s) (hclosed : s.closed = true) : Drains s := by
  cases hgen : s.generator with
  | suspended | completed =>
    have hidle : s.running = false := by simp only [Subscriber.running,hgen]
    have hrequests : s.requests = 0 := by
      have := of_decide_eq_false (h.asked.symm.trans hidle)
      omega
    exact Drains.ofIdle hidle (by simp only [Subscriber.inFlight,hgen]) hrequests
  | awaiting w =>
    cases hsettled : s.promises w with
    | none =>
      have hwaiting : s.unsettled = [w] := by simp [Subscriber.unsettled,hgen,hsettled]
      have hnone := h.released hclosed
      rw [h.waiters,hwaiting] at hnone
      cases hnone
    | some r =>
      cases r with
      | done =>
        have htick : s.tick = s.complete := by simp only [Subscriber.tick,hgen,hsettled]
        have hinFlight : s.inFlight = [] := by simp only [Subscriber.inFlight,hgen,hsettled]
        have hrest : s.tick.tick = s.complete := by
          rw [htick]
          exact tick_idle rfl
        refine ⟨by rw [hrest]; rfl,?_⟩
        rw [hrest,hinFlight,List.map_nil,List.append_nil]
        rfl
      | value frame =>
        have htick : s.tick = { s with generator := .yielding frame } := by
          simp only [Subscriber.tick,hgen,hsettled]
        have hinFlight : s.inFlight = [frame] := by simp only [Subscriber.inFlight,hgen,hsettled]
        have hgen' : s.tick.generator = .yielding frame := by rw [htick]
        have hclosed' : s.tick.closed = true := by
          rw [htick]
          exact hclosed
        obtain ⟨hrequests,hresults,-⟩ := tick_yielding hgen' hclosed'
        refine ⟨hrequests,?_⟩
        rw [hresults,hinFlight,htick]
        rfl
  | yielding frame =>
    obtain ⟨hrequests,hresults,hidle⟩ := tick_yielding hgen hclosed
    have hinFlight : s.inFlight = [frame] := by simp only [Subscriber.inFlight,hgen]
    refine ⟨by rw [tick_idle hidle,hrequests],?_⟩
    rw [tick_idle hidle,hresults,hinFlight]
    rfl

theorem push_inbox (json : JsonCodec) (as : List Action) :
    (run json as).yielded <+: arrived json (textOf as) ∧
      ((run json as).waiters = [] ∨ (run json as).inbox = []) ∧
      ((run json as).closed = false →
        arrived json (textOf as) = (run json as).yielded ++ (run json as).inFlight ++ (run json as).inbox) ∧
      ((run json as).closed = true → (run json as).waiters = [] ∧ Drains (run json as)) := by
  have h := (run_takes json as).sound
  refine ⟨?_,h.apart,fun hopen => ?_,fun hclosed => ⟨h.released hclosed,h.drains hclosed⟩⟩
  · cases hclosed : (run json as).closed with
    | false => exact (List.prefix_append _ _).trans (h.closing hclosed)
    | true => exact (List.prefix_append _ _).trans (h.ended hclosed)
  · have hreceived := h.live hopen
    rwa [List.filter_nil,List.append_nil] at hreceived

def noticeText (digit : JsString) : JsString := ascii "\x7b\"kind\":\"notify\",\"event_id\":" ++ digit ++ ascii "\x7d"

def notice (n : ℚ) : JsValue := makeFrame .notify [(ascii "event_id",.number n)]

def farewell : JsValue := makeFrame .degrade [(ascii "reason",.string (ascii "queue-full"))]

def farewellText : JsString := ascii "\x7b\"kind\":\"degrade\",\"reason\":\"queue-full\"\x7d"

def noticeCodec : JsonCodec where
  stringify _ := ascii "null"
  parse text :=
    if text = noticeText (ascii "1") then .ok (notice 1)
    else if text = noticeText (ascii "2") then .ok (notice 2)
    else if text = farewellText then .ok farewell
    else .error (ascii "Unexpected token")
  parse_empty v := by
    have hnotice : ∀ digit, [] ≠ noticeText digit := fun digit h => by simp [noticeText,ascii] at h
    have hfarewell : [] ≠ farewellText := by decide
    simp [hnotice,hfarewell]

def wholeText : JsString :=
  noticeText (ascii "1") ++ [newline] ++ (noticeText (ascii "2") ++ [newline]) ++ (farewellText ++ [newline])

def cutAnywhere : List Action :=
  [.next,.data (wholeText.take 10),.data ((wholeText.drop 10).take 50),.tick,.next,.next,
    .data (wholeText.drop 60),.tick,.tick,.close]

def eventIds (frames : List JsValue) : List ℚ := frames.filterMap (fun frame =>
  match frame.field (ascii "event_id") with
  | .number n => some n
  | _ => none)

theorem push_inbox_sample :
    eventIds (arrived noticeCodec (textOf cutAnywhere)) = [1,2] ∧
      eventIds (run noticeCodec cutAnywhere).yielded = [1] ∧ eventIds (run noticeCodec cutAnywhere).inbox = [2] ∧
      (run noticeCodec cutAnywhere).yielded <+: arrived noticeCodec (textOf cutAnywhere) ∧
      (run noticeCodec cutAnywhere).waiters = [] ∧ Drains (run noticeCodec cutAnywhere) ∧
      arrived noticeCodec (textOf (cutAnywhere.take 4)) =
        (run noticeCodec (cutAnywhere.take 4)).yielded ++ (run noticeCodec (cutAnywhere.take 4)).inFlight ++
          (run noticeCodec (cutAnywhere.take 4)).inbox ∧
      eventIds (arrived noticeCodec (textOf (cutAnywhere.take 4))) = [1] := by
  obtain ⟨hinitial,-,-,hended⟩ := push_inbox noticeCodec cutAnywhere
  obtain ⟨hwaiters,hdrains⟩ := hended (by decide +kernel)
  obtain ⟨-,-,hopen,-⟩ := push_inbox noticeCodec (cutAnywhere.take 4)
  exact ⟨by decide +kernel,by decide +kernel,by decide +kernel,hinitial,hwaiters,hdrains,hopen (by decide +kernel),
    by decide +kernel⟩

end WickedBus.Inbox
