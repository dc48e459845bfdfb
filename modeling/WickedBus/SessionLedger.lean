import WickedBus.Daemon

namespace WickedBus

structure Ledger where
  session : Session
  lines : List Frame
  sent : List (ℕ × Frame)
  dropped : List ℕ
  deriving DecidableEq, Repr

inductive SessionEvent where
  | enqueue (line : Frame) (now : ℤ) (room : ℕ)
  | drained (room : ℕ)
  | degrade (reason : DegradeReason) (now : ℤ)
  | close
  deriving DecidableEq, Repr

namespace Ledger

def start : Ledger := ⟨newSession,[],[],[]⟩

def pending (l : Ledger) : List ℕ :=
  List.range' (l.lines.length - l.session.queue.length) l.session.queue.length

def written (l : Ledger) : List ℕ := l.sent.map Prod.fst

def flush (l : Ledger) (room : ℕ) : Ledger :=
  let r := l.session.flush room
  { l with session := r.1, sent := l.sent ++ l.pending.zip r.2 }

def push (l : Ledger) (cfg : DaemonConfig) (line : Frame) : Ledger where
  session := l.session.push cfg line
  lines := l.lines ++ [line]
  sent := l.sent
  dropped :=
    if cfg.subscriberQueueMax ≤ l.session.queue.length then l.dropped ++ l.pending.take 1 else l.dropped

def mark (l : Ledger) (cfg : DaemonConfig) (now : ℤ) : Ledger :=
  { l with session := (l.session.checkHighWatermark cfg now).1 }

def drainFired (l : Ledger) : Ledger := { l with session := { l.session with drainPending := false } }

def step (cfg : DaemonConfig) (l : Ledger) : SessionEvent → Ledger
  | .enqueue line now room =>
    if l.session.closed then l else ((l.push cfg line).mark cfg now).flush room
  | .drained room => l.drainFired.flush room
  | .degrade reason now => { l with session := (l.session.degrade now reason).1 }
  | .close => { l with session := { l.session with closed := true } }

def run (cfg : DaemonConfig) (as : List SessionEvent) : Ledger := as.foldl (step cfg) start

structure Conserved (l : Ledger) : Prop where
  once : l.written.Nodup
  ordered : l.written.Pairwise (· ≤ ·)
  accounted : l.session.closed = false →
    (l.written ++ l.dropped ++ l.pending).Perm (List.range l.lines.length) ∧
      l.session.droppedCount = l.dropped.length

def Accepted (cfg : DaemonConfig) (l : Ledger) : SessionEvent → Prop
  | .enqueue line now room => l.session.closed = false →
    ((l.push cfg line).mark cfg now).session.closed = false →
      0 < cfg.subscriberQueueMax ∧ ((l.push cfg line).mark cfg now).session.queue.length ≤ room
  | .drained room => l.session.closed = false → l.session.queue.length ≤ room
  | _ => True

variable {cfg : DaemonConfig} {l : Ledger}

theorem step_enqueue_session (cfg : DaemonConfig) (l : Ledger) (line : Frame) (now : ℤ) (room : ℕ) :
    (l.step cfg (.enqueue line now room)).session = (l.session.enqueue cfg now room line).1 := by
  unfold step Session.enqueue
  split_ifs <;> rfl

theorem run_snoc (cfg : DaemonConfig) (as : List SessionEvent) (a : SessionEvent) :
    run cfg (as ++ [a]) = (run cfg as).step cfg a := List.foldl_append ..

theorem flushQueue_sub (room : ℕ) (queue : List Frame) :
    (flushQueue room queue).1 <+: queue ∧ (flushQueue room queue).2 <:+ queue := by
  induction queue generalizing room with
  | nil => cases room <;> exact ⟨List.prefix_rfl,List.suffix_rfl⟩
  | cons line queue ih =>
    cases room with
    | zero => exact ⟨⟨queue,rfl⟩,List.suffix_rfl⟩
    | succ room =>
      exact ⟨List.cons_prefix_cons.mpr ⟨rfl,(ih room).1⟩,(ih room).2.trans (List.suffix_cons line queue)⟩

theorem flushQueue_all {room : ℕ} {queue : List Frame} (h : queue.length ≤ room) :
    flushQueue room queue = (queue,[]) := by
  induction queue generalizing room with
  | nil => cases room <;> rfl
  | cons line queue ih =>
    cases room with
    | zero => simp at h
    | succ room =>
      rw [List.length_cons] at h
      simp only [flushQueue,ih (Nat.le_of_succ_le_succ h)]

theorem mark_session (l : Ledger) (cfg : DaemonConfig) (now : ℤ) :
    (l.mark cfg now).session.queue = l.session.queue ∧
      (l.mark cfg now).session.droppedCount = l.session.droppedCount := by
  simp only [mark,Session.checkHighWatermark,Session.degrade]
  split
  · split
    · exact ⟨rfl,rfl⟩
    · repeat' split
      all_goals exact ⟨rfl,rfl⟩
  · exact ⟨rfl,rfl⟩

theorem flush_closed (h : l.session.closed = true) (room : ℕ) : l.flush room = l := by
  simp [flush,Session.flush,h]

theorem flush_open (h : l.session.closed = false) (room : ℕ) :
    (l.flush room).session.queue = (flushQueue room l.session.queue).2 ∧
      (l.flush room).session.droppedCount = l.session.droppedCount ∧
      (l.flush room).session.closed = false ∧
      (l.flush room).sent = l.sent ++ l.pending.zip (flushQueue room l.session.queue).1 := by
  simp [flush,Session.flush,h]

theorem written_flush (h : l.session.closed = false) {room : ℕ} (hroom : l.session.queue.length ≤ room) :
    (l.flush room).session.queue = [] ∧ (l.flush room).written = l.written ++ l.pending := by
  obtain ⟨hqueue,-,-,hsent⟩ := flush_open h room
  rw [flushQueue_all hroom] at hqueue hsent
  refine ⟨hqueue,?_⟩
  rw [written,hsent,List.map_append,List.map_fst_zip (by simp [pending])]
  rfl

structure Quiet (l : Ledger) : Prop where
  rising : l.written.Pairwise (· < ·)
  drained : l.session.closed = false → l.session.queue = [] ∧ l.written = List.range l.lines.length ∧
    l.dropped = [] ∧ l.session.droppedCount = 0

theorem Quiet.conserved (h : Quiet l) : Conserved l where
  once := h.rising.imp ne_of_lt
  ordered := h.rising.imp le_of_lt
  accounted hopen := by
    obtain ⟨hqueue,hwritten,hdropped,hcount⟩ := h.drained hopen
    simp [pending,hqueue,hwritten,hdropped,hcount]

theorem Quiet.same {m : Ledger} (h : Quiet l) (hsent : m.sent = l.sent) (hclosed : m.session.closed = true) :
    Quiet m where
  rising := by
    rw [written,hsent]
    exact h.rising
  drained hopen := by
    rw [hclosed] at hopen
    cases hopen

theorem Quiet.marked (h : Quiet l) (hopen : l.session.closed = false) (line : Frame) (now : ℤ) :
    ((l.push cfg line).mark cfg now).session.queue = [line] ∧
      ((l.push cfg line).mark cfg now).pending = [l.lines.length] ∧
      ((l.push cfg line).mark cfg now).written = List.range l.lines.length ∧
      ((l.push cfg line).mark cfg now).dropped = [] ∧
      ((l.push cfg line).mark cfg now).session.droppedCount = if cfg.subscriberQueueMax = 0 then 1 else 0 := by
  obtain ⟨hqueue,hwritten,hdropped,hcount⟩ := h.drained hopen
  obtain ⟨hmq,hmc⟩ := mark_session (l.push cfg line) cfg now
  have hpq : (l.push cfg line).session.queue = [line] := by
    simp only [push,Session.push,hqueue]
    split_ifs <;> rfl
  have hpc : (l.push cfg line).session.droppedCount = if cfg.subscriberQueueMax = 0 then 1 else 0 := by
    simp only [push,Session.push,hqueue,List.length_nil,Nat.le_zero,hcount]
    split_ifs <;> rfl
  have hlines : ((l.push cfg line).mark cfg now).lines.length = l.lines.length + 1 := by
    simp [mark,push]
  refine ⟨hmq.trans hpq,?_,hwritten,?_,hmc.trans hpc⟩
  · rw [pending,hmq,hpq,hlines]
    rfl
  · simp [mark,push,pending,hqueue,hdropped]

theorem Quiet.step (h : Quiet l) {a : SessionEvent} (hok : Accepted cfg l a) : Quiet (l.step cfg a) := by
  cases hopen : l.session.closed with
  | true =>
    cases a with
    | enqueue line now room => rwa [Ledger.step,if_pos hopen]
    | drained room =>
      rw [Ledger.step,flush_closed (l := l.drainFired) hopen]
      exact h.same rfl hopen
    | degrade reason now => exact h.same rfl (by simp [Ledger.step,Session.degrade,hopen])
    | close => exact h.same rfl rfl
  | false =>
    cases a with
    | enqueue line now room =>
      rw [Ledger.step,if_neg (by simp [hopen])]
      obtain ⟨hqueue,hpending,hwritten,hdropped,hcount⟩ := @Quiet.marked cfg l h hopen line now
      cases hmark : ((l.push cfg line).mark cfg now).session.closed with
      | true =>
        rw [flush_closed hmark]
        exact h.same rfl hmark
      | false =>
        obtain ⟨hmax,hroom⟩ := hok hopen hmark
        obtain ⟨hqueue',hwritten'⟩ := written_flush hmark hroom
        obtain ⟨-,hcount',-,-⟩ := flush_open hmark room
        have hall : (((l.push cfg line).mark cfg now).flush room).written = List.range (l.lines.length + 1) := by
          rw [hwritten',hwritten,hpending,List.range_succ]
        have hlines : (((l.push cfg line).mark cfg now).flush room).lines.length = l.lines.length + 1 := by
          simp [flush,mark,push]
        refine ⟨hall ▸ List.pairwise_lt_range,fun _ => ⟨hqueue',hlines ▸ hall,hdropped,?_⟩⟩
        rw [hcount',hcount,if_neg hmax.ne']
    | drained room =>
      obtain ⟨hqueue,hwritten,hdropped,hcount⟩ := h.drained hopen
      obtain ⟨hqueue',hcount',-,hsent'⟩ :=
        @flush_open l.drainFired hopen room
      have hnil : flushQueue room l.drainFired.session.queue = ([],[]) := by
        rw [show l.drainFired.session.queue = [] from hqueue]
        cases room <;> rfl
      simp only [hnil,List.zip_nil_right,List.append_nil] at hqueue' hsent'
      have hsame : (l.step cfg (.drained room)).written = l.written := congrArg (List.map Prod.fst) hsent'
      exact ⟨hsame ▸ h.rising,fun _ => ⟨hqueue',hsame.trans hwritten,hdropped,hcount'.trans hcount⟩⟩
    | degrade reason now => exact h.same rfl (by simp [Ledger.step,Session.degrade,hopen])
    | close => exact h.same rfl rfl

theorem Quiet.accepted (h : Quiet l) {a : SessionEvent} (hc : Conserved (l.step cfg a)) :
    Accepted cfg l a := by
  cases a with
  | enqueue line now room =>
    intro hopen hmark
    rw [Ledger.step,if_neg (by simp [hopen])] at hc
    obtain ⟨hqueue,hpending,hwritten,hdropped,hcount⟩ := @Quiet.marked cfg l h hopen line now
    obtain ⟨hqueue',hcount',hopen',hsent'⟩ := flush_open hmark room
    obtain ⟨hperm,hdrops⟩ := hc.accounted hopen'
    have hdropped' : (((l.push cfg line).mark cfg now).flush room).dropped = [] := hdropped
    have hlines : (((l.push cfg line).mark cfg now).flush room).lines.length = l.lines.length + 1 := by
      simp [flush,mark,push]
    rw [hcount',hcount,hdropped',List.length_nil] at hdrops
    refine ⟨Nat.pos_of_ne_zero fun hzero => by simp [hzero] at hdrops,?_⟩
    rw [hqueue,List.length_singleton]
    by_contra hroom
    obtain rfl : room = 0 := by omega
    have hlen := hperm.length_eq
    have hsame : ((l.push cfg line).mark cfg now).sent.length = l.lines.length := by
      rw [← List.length_range (n := l.lines.length),← hwritten,written,List.length_map]
    rw [hdropped',written,hsent',hpending,pending,hqueue',hqueue,hlines] at hlen
    simp [flushQueue,hsame] at hlen
  | drained room =>
    intro hopen
    rw [(h.drained hopen).1]
    exact Nat.zero_le room
  | _ => trivial

theorem run_quiet {as : List SessionEvent} (h : ∀ bs a, bs ++ [a] <+: as → Accepted cfg (run cfg bs) a) :
    Quiet (run cfg as) := by
  induction as using List.reverseRecOn with
  | nil => exact ⟨.nil,fun _ => ⟨rfl,rfl,rfl,rfl⟩⟩
  | append_singleton as a ih =>
    rw [run_snoc]
    exact (ih fun bs b hb => h bs b (hb.trans (List.prefix_append as [a]))).step (h as a List.prefix_rfl)

theorem frames_conserved_iff (cfg : DaemonConfig) (as : List SessionEvent) :
    (∀ bs, bs <+: as → Conserved (run cfg bs)) ↔ ∀ bs a, bs ++ [a] <+: as → Accepted cfg (run cfg bs) a := by
  constructor
  · intro h
    induction as using List.reverseRecOn with
    | nil =>
      intro bs a hb
      simp at hb
    | append_singleton as x ih =>
      have hprefix := ih fun bs hb => h bs (hb.trans (List.prefix_append as [x]))
      intro bs a hb
      rcases List.prefix_concat_iff.mp hb with heq | hb
      · obtain ⟨rfl,hax⟩ := List.append_inj' heq rfl
        obtain rfl := List.singleton_inj.mp hax
        have hlast := h (bs ++ [a]) List.prefix_rfl
        rw [run_snoc] at hlast
        exact (run_quiet hprefix).accepted hlast
      · exact hprefix bs a hb
  · exact fun h bs hb => (run_quiet fun cs a hc => h cs a (hc.trans hb)).conserved

def sampleDaemonConfig : DaemonConfig := ⟨fun _ => 0,65536,1024,4 / 5,5000⟩

theorem frame_written_twice :
    ¬ ∀ cfg as, Conserved (run cfg as) := by
  intro hall
  have h := (hall sampleDaemonConfig [.enqueue .pong 0 0,.drained 1]).once
  have hwritten : (run sampleDaemonConfig [.enqueue .pong 0 0,.drained 1]).written = [0,0] := by
    decide +kernel
  rw [hwritten] at h
  exact absurd h (by decide)

def Faithful (l : Ledger) : Prop :=
  l.session.queue <:+ l.lines ∧ ∀ p ∈ l.sent, l.lines[p.1]? = some p.2

theorem lines_at {lines queue frames : List Frame} (hqueue : queue <:+ lines) (hframes : frames <+: queue)
    {p : ℕ × Frame} (hp : p ∈ (List.range' (lines.length - queue.length) queue.length).zip frames) :
    lines[p.1]? = some p.2 := by
  obtain ⟨before,rfl⟩ := hqueue
  obtain ⟨after,rfl⟩ := hframes
  obtain ⟨k,hk⟩ := List.mem_iff_getElem?.mp hp
  obtain ⟨hi,hf⟩ := List.getElem?_zip_eq_some.mp hk
  obtain ⟨hlt,hpos⟩ := List.getElem?_eq_some_iff.mp hi
  obtain ⟨hflt,hframe⟩ := List.getElem?_eq_some_iff.mp hf
  rw [List.getElem_range'] at hpos
  have hindex : p.1 = before.length + k := by
    rw [List.length_append] at hpos
    omega
  rw [hindex,List.getElem?_append_right (Nat.le_add_right _ _),Nat.add_sub_cancel_left,
    List.getElem?_append_left hflt]
  exact hf

theorem Faithful.flush (h : Faithful l) (room : ℕ) : Faithful (l.flush room) := by
  cases hopen : l.session.closed with
  | true => rwa [flush_closed hopen]
  | false =>
    obtain ⟨hqueue,-,-,hsent⟩ := flush_open hopen room
    obtain ⟨hpre,hsuf⟩ := flushQueue_sub room l.session.queue
    refine ⟨hqueue ▸ hsuf.trans h.1,fun p hp => ?_⟩
    rw [hsent] at hp
    rcases List.mem_append.mp hp with hp | hp
    · exact h.2 p hp
    · exact lines_at h.1 hpre hp

theorem Faithful.push (h : Faithful l) (cfg : DaemonConfig) (line : Frame) : Faithful (l.push cfg line) := by
  obtain ⟨hqueue,hsent⟩ := h
  have htail : l.session.queue.tail <:+ l.lines := (List.tail_suffix _).trans hqueue
  constructor
  · show (l.session.push cfg line).queue <:+ l.lines ++ [line]
    unfold Session.push
    split_ifs
    · obtain ⟨before,hb⟩ := htail
      exact ⟨before,by simp [← hb]⟩
    · obtain ⟨before,hb⟩ := hqueue
      exact ⟨before,by simp [← hb]⟩
  · intro p hp
    have hline := hsent p hp
    obtain ⟨hlt,-⟩ := List.getElem?_eq_some_iff.mp hline
    exact (List.getElem?_append_left hlt).trans hline

theorem Faithful.step (h : Faithful l) (a : SessionEvent) : Faithful (l.step cfg a) := by
  cases a with
  | enqueue line now room =>
    rw [Ledger.step]
    split_ifs
    · exact h
    · have hpush := h.push cfg line
      have hmark : Faithful ((l.push cfg line).mark cfg now) :=
        ⟨(mark_session (l.push cfg line) cfg now).1 ▸ hpush.1,hpush.2⟩
      exact hmark.flush room
  | drained room => exact Faithful.flush (l := l.drainFired) h room
  | degrade reason now =>
    refine ⟨?_,h.2⟩
    show (l.session.degrade now reason).1.queue <:+ l.lines
    unfold Session.degrade
    split_ifs <;> exact h.1
  | close => exact h

theorem run_faithful (cfg : DaemonConfig) (as : List SessionEvent) : Faithful (run cfg as) := by
  induction as using List.reverseRecOn with
  | nil => exact ⟨List.suffix_rfl,by simp [run,start]⟩
  | append_singleton as a ih =>
    rw [run_snoc]
    exact ih.step a

end Ledger

end WickedBus
