import WickedBus.PushLink
import WickedBus.Registry
import WickedBus.Sweep

namespace WickedBus

open GuardedRun

def Session.transport (s : Session) : Session := { s with subscriberId := none, cursor := 0, filter := none }

def framesTo (i : ℕ) (writes : List (ℕ × Frame)) : List Frame :=
  writes.filterMap (fun p => if p.1 = i then some p.2 else none)

def DaemonAction.fanned : DaemonAction → Option (EventRow × DaemonEnv)
  | .frame _ (.produced (some row)) env | .broadcast row env => some (row,env)
  | _ => none

namespace Daemon

def heardBy (cfg : DaemonConfig) (d : Daemon) (i : ℕ) : DaemonAction → List SessionEvent
  | .frame _ (.produced (some row)) env | .broadcast row env =>
    List.replicate ((d.recipients row).count i) (.enqueue (cfg.notify row) env.now (env.room i))
  | .frame j .ping env => if j = i then [.enqueue .pong env.now (env.room i)] else []
  | .malformed j => if j = i then [.close] else []
  | .drained j room => if j = i then [.drained room] else []
  | .stop now => if (d.sessions i).isSome then [.degrade .daemonShutdown now] else []
  | _ => []

def offeredBy (d : Daemon) (i : ℕ) (a : DaemonAction) : List EventRow :=
  match a.fanned with
  | some (row,_) => if i ∈ d.recipients row then [row] else []
  | none => []

end Daemon

structure Fanout where
  daemon : Daemon
  heard : ℕ → List SessionEvent
  offered : ℕ → List EventRow
  written : ℕ → List Frame

namespace Fanout

def start : Fanout := ⟨startedDaemon,fun _ => [],fun _ => [],fun _ => []⟩

def step (cfg : DaemonConfig) (t : Fanout) (a : DaemonAction) : Option Fanout :=
  (t.daemon.step cfg a).map (fun r => {
    daemon := r.1
    heard i := t.heard i ++ t.daemon.heardBy cfg i a
    offered i := t.offered i ++ t.daemon.offeredBy i a
    written i := t.written i ++ framesTo i r.2 })

end Fanout

namespace Ledger

def frames (cfg : DaemonConfig) (l : Ledger) : List SessionEvent → List Frame
  | [] => []
  | a :: as => l.writes cfg a ++ (l.step cfg a).frames cfg as

variable {cfg : DaemonConfig} {l : Ledger} {as bs : List SessionEvent} {a : SessionEvent}

theorem frames_append : l.frames cfg (as ++ bs) = l.frames cfg as ++ (as.foldl (step cfg) l).frames cfg bs := by
  induction as generalizing l with
  | nil => rfl
  | cons a as ih =>
    rw [List.cons_append,frames,ih,frames,List.foldl_cons,List.append_assoc]

theorem run_append : run cfg (as ++ bs) = bs.foldl (step cfg) (run cfg as) := List.foldl_append ..

theorem mem_lines_step {line : Frame} (h : line ∈ (l.step cfg a).lines) :
    line ∈ l.lines ∨ ∃ now room, a = .enqueue line now room := by
  cases a with
  | enqueue enqueued now room =>
    rw [step] at h
    split_ifs at h
    · exact .inl h
    · rcases List.mem_append.mp (show line ∈ l.lines ++ [enqueued] from h) with hold | hnew
      · exact .inl hold
      · cases List.mem_singleton.mp hnew
        exact .inr ⟨now,room,rfl⟩
  | _ => exact .inl h

theorem mem_lines_run {line : Frame} (h : line ∈ (run cfg as).lines) : ∃ now room, .enqueue line now room ∈ as := by
  induction as using List.reverseRecOn with
  | nil => cases h
  | append_singleton as a ih =>
    rw [run_snoc] at h
    rcases mem_lines_step h with hold | ⟨now,room,rfl⟩
    · obtain ⟨now,room,hmem⟩ := ih hold
      exact ⟨now,room,List.mem_append_left _ hmem⟩
    · exact ⟨now,room,List.mem_append_right _ List.mem_cons_self⟩

end Ledger

namespace Session

variable (s : Session) (cfg : DaemonConfig) (now : ℤ) (room : ℕ) (line : Frame)

theorem transport_flush : s.transport.flush room = ((s.flush room).1.transport,(s.flush room).2) := by
  unfold flush
  cases hclosed : s.closed <;> simp [transport,hclosed]

theorem transport_degrade (reason : DegradeReason) :
    s.transport.degrade now reason = ((s.degrade now reason).1.transport,(s.degrade now reason).2) := by
  unfold degrade
  cases hclosed : s.closed <;> simp [transport,hclosed]

theorem transport_checkHighWatermark : s.transport.checkHighWatermark cfg now =
    ((s.checkHighWatermark cfg now).1.transport,(s.checkHighWatermark cfg now).2) := by
  have hqueue : s.transport.queue = s.queue := rfl
  have hsame : s.transport.highWatermarkSince = s.highWatermarkSince := rfl
  unfold checkHighWatermark
  rw [hqueue,hsame]
  split_ifs with hfull
  · cases hsince : s.highWatermarkSince with
    | none => rfl
    | some since =>
      dsimp only
      split_ifs
      · exact s.transport_degrade now _
      · rfl
  · rfl

theorem transport_push : s.transport.push cfg line = (s.push cfg line).transport := by
  unfold push
  show (if _ ≤ s.queue.length then _ else _) = _
  split_ifs <;> rfl

theorem transport_enqueue : s.transport.enqueue cfg now room line =
    ((s.enqueue cfg now room line).1.transport,(s.enqueue cfg now room line).2) := by
  unfold enqueue
  show (if s.closed = true then _ else _) = _
  split_ifs
  · rfl
  · rw [transport_push,transport_checkHighWatermark]
    dsimp only
    rw [transport_flush]

end Session

theorem framesTo_append (i : ℕ) (xs ys : List (ℕ × Frame)) : framesTo i (xs ++ ys) = framesTo i xs ++ framesTo i ys :=
  List.filterMap_append ..

theorem framesTo_own (i : ℕ) (frames : List Frame) : framesTo i (frames.map (Prod.mk i)) = frames := by
  simp [framesTo,List.filterMap_map]

theorem framesTo_other {i j : ℕ} (h : j ≠ i) (frames : List Frame) : framesTo i (frames.map (Prod.mk j)) = [] := by
  simp [framesTo,List.filterMap_map,h]

theorem framesTo_range (i n : ℕ) (f : ℕ → List Frame) :
    framesTo i ((List.range n).flatMap (fun j => (f j).map (Prod.mk j))) = if i < n then f i else [] := by
  induction n with
  | zero => rfl
  | succ n ih =>
    rw [List.range_succ,List.flatMap_append,framesTo_append,ih,List.flatMap_singleton]
    rcases lt_trichotomy i n with hlt | rfl | hgt
    · rw [if_pos hlt,if_pos (hlt.trans (Nat.lt_succ_self n)),framesTo_other hlt.ne',List.append_nil]
    · rw [if_neg (lt_irrefl i),if_pos (Nat.lt_succ_self i),framesTo_own,List.nil_append]
    · rw [if_neg hgt.not_gt,if_neg (by omega),framesTo_other hgt.ne,List.append_nil]

namespace Daemon

variable {cfg : DaemonConfig} {env : DaemonEnv} {d : Daemon} {i j : ℕ} {s : Session} {l : Ledger} {line : Frame}
  {acc : Daemon × List (ℕ × Frame)} {a : DaemonAction} {r : Daemon × List (ℕ × Frame)}

structure Mirrors (cfg : DaemonConfig) (l : Ledger) (i : ℕ) (before : List (ℕ × Frame)) (events : List SessionEvent)
    (r : Daemon × List (ℕ × Frame)) : Prop where
  session : ∀ s, r.1.sessions i = some s → (events.foldl (Ledger.step cfg) l).session = s.transport
  written : framesTo i r.2 = framesTo i before ++ l.frames cfg events

theorem setSession_self (d : Daemon) (i : ℕ) (s : Session) : (d.setSession i s).sessions i = some s :=
  Function.update_self ..

theorem setSession_other (h : j ≠ i) (s : Session) : (d.setSession j s).sessions i = d.sessions i :=
  Function.update_of_ne h.symm ..

theorem enqueueAt_other (h : j ≠ i) : (enqueueAt cfg env line acc j).1.sessions i = acc.1.sessions i ∧
    framesTo i (enqueueAt cfg env line acc j).2 = framesTo i acc.2 := by
  unfold enqueueAt
  split
  · exact ⟨rfl,rfl⟩
  · exact ⟨setSession_other h _,by rw [framesTo_append,framesTo_other h,List.append_nil]⟩

theorem enqueueAt_self (hs : acc.1.sessions i = some s) (hl : l.session = s.transport) :
    (∃ s', (enqueueAt cfg env line acc i).1.sessions i = some s' ∧
      (l.step cfg (.enqueue line env.now (env.room i))).session = s'.transport) ∧
    framesTo i (enqueueAt cfg env line acc i).2 =
      framesTo i acc.2 ++ l.writes cfg (.enqueue line env.now (env.room i)) := by
  have htransport := s.transport_enqueue cfg env.now (env.room i) line
  simp only [enqueueAt,hs]
  refine ⟨⟨_,setSession_self ..,?_⟩,?_⟩
  · rw [Ledger.step_enqueue_session,hl,htransport]
  · rw [framesTo_append,framesTo_own,Ledger.writes,hl,htransport]

theorem foldl_enqueueAt (is : List ℕ) (hs : acc.1.sessions i = some s) (hl : l.session = s.transport) :
    (∃ s', (is.foldl (enqueueAt cfg env line) acc).1.sessions i = some s') ∧
    Mirrors cfg l i acc.2 (List.replicate (is.count i) (.enqueue line env.now (env.room i)))
      (is.foldl (enqueueAt cfg env line) acc) := by
  induction is generalizing acc s l with
  | nil =>
    refine ⟨⟨s,hs⟩,fun s' hs' => ?_,(List.append_nil _).symm⟩
    rw [List.foldl_nil,hs] at hs'
    exact Option.some.inj hs' ▸ hl
  | cons j is ih =>
    by_cases hj : j = i
    · subst hj
      obtain ⟨⟨s',hs',hl'⟩,hwritten⟩ := @enqueueAt_self cfg env j s l line acc hs hl
      obtain ⟨hsome,hmirrors⟩ := ih hs' hl'
      rw [List.count_cons_self,List.replicate_succ]
      refine ⟨hsome,hmirrors.session,?_⟩
      rw [Ledger.frames,← List.append_assoc,← hwritten]
      exact hmirrors.written
    · obtain ⟨hsame,hquiet⟩ := @enqueueAt_other cfg env i j line acc hj
      obtain ⟨hsome,hmirrors⟩ := ih (hsame.trans hs) hl
      rw [List.count_cons_of_ne hj]
      exact ⟨hsome,hmirrors.session,hquiet ▸ hmirrors.written⟩

theorem foldl_enqueueAt_none (is : List ℕ) (hs : acc.1.sessions i = none) :
    (is.foldl (enqueueAt cfg env line) acc).1.sessions i = none ∧
      framesTo i (is.foldl (enqueueAt cfg env line) acc).2 = framesTo i acc.2 := by
  induction is generalizing acc with
  | nil => exact ⟨hs,rfl⟩
  | cons j is ih =>
    by_cases hj : j = i
    · subst hj
      have hstay : enqueueAt cfg env line acc j = acc := by simp only [enqueueAt,hs]
      rw [List.foldl_cons,hstay]
      exact ih hs
    · obtain ⟨hsame,hquiet⟩ := @enqueueAt_other cfg env i j line acc hj
      obtain ⟨hnone,hframes⟩ := ih (hsame.trans hs)
      exact ⟨hnone,hframes.trans hquiet⟩

theorem mem_recipients {row : EventRow} (h : i ∈ d.recipients row) :
    ∃ s, d.sessions i = some s ∧ s.receives row = true :=
  (Option.any_eq_true _ _).mp (List.mem_filter.mp h).2

theorem count_recipients {row : EventRow} (h : d.sessions i = none) : (d.recipients row).count i = 0 := by
  refine List.count_eq_zero.mpr fun hmem => ?_
  obtain ⟨s,hs,-⟩ := mem_recipients hmem
  rw [h] at hs
  cases hs

theorem mirrors_still (hl : l.session = s.transport) {d' : Daemon}
    (h : ∀ s', d'.sessions i = some s' → s'.transport = s.transport) : Mirrors cfg l i [] [] (d',[]) :=
  ⟨fun s' hs' => hl.trans (h s' hs').symm,rfl⟩

theorem mirrors_other (hs : d.sessions i = some s) (hl : l.session = s.transport) (h : j ≠ i) (s' : Session) :
    Mirrors cfg l i [] [] (d.setSession j s',[]) := by
  refine mirrors_still hl fun s'' hs'' => ?_
  rw [setSession_other h,hs] at hs''
  cases hs''
  rfl

theorem mirrors_broadcast (hs : d.sessions i = some s) (hl : l.session = s.transport) (row : EventRow) :
    Mirrors cfg l i [] (List.replicate ((d.recipients row).count i) (.enqueue (cfg.notify row) env.now (env.room i)))
      (d.broadcast cfg env row) := by
  have hstart : (d,([] : List (ℕ × Frame))).1.sessions i = some s := hs
  exact (foldl_enqueueAt (d.recipients row) hstart hl).2

theorem mirrors_frame {frame : ClientFrame} (hs : d.sessions i = some s) (hl : l.session = s.transport) {sj : Session}
    (hj : d.sessions j = some sj) :
    Mirrors cfg l i [] (d.heardBy cfg i (.frame j frame env)) (d.handleFrame cfg env j sj frame) := by
  cases frame with
  | hello subscriberId cursor filter =>
    refine mirrors_still hl fun s' hs' => ?_
    by_cases h : j = i
    · subst h
      rw [hs] at hj
      cases hj
      cases (setSession_self d j _).symm.trans hs'
      rfl
    · cases ((setSession_other h _).trans hs).symm.trans hs'
      rfl
  | ack eventId =>
    by_cases h : j = i
    · subst h
      rw [hs] at hj
      cases hj
      refine mirrors_still hl fun s' hs' => ?_
      cases (setSession_self d j _).symm.trans hs'
      cases eventId <;> rfl
    · exact mirrors_other hs hl h _
  | ping =>
    by_cases h : j = i
    · subst h
      rw [heardBy,if_pos rfl]
      obtain ⟨⟨s',hs',hl'⟩,hwritten⟩ := @enqueueAt_self cfg env j s l .pong (d,[]) hs hl
      refine ⟨fun s'' hs'' => ?_,hwritten.trans (congrArg _ (List.append_nil _).symm)⟩
      cases hs'.symm.trans hs''
      exact hl'
    · rw [heardBy,if_neg h]
      obtain ⟨hsame,hquiet⟩ := @enqueueAt_other cfg env i j .pong (d,[]) h
      refine ⟨fun s' hs' => ?_,hquiet⟩
      cases (hsame.trans hs).symm.trans hs'
      exact hl
  | produced event =>
    cases event with
    | none => exact mirrors_still hl fun s' hs' => by cases hs.symm.trans hs'; rfl
    | some row => exact mirrors_broadcast hs hl row
  | unknown kind => exact mirrors_still hl fun s' hs' => by cases hs.symm.trans hs'; rfl

theorem step_mirrors (hfresh : ∀ j, d.accepted ≤ j → d.sessions j = none) (hs : d.sessions i = some s)
    (hl : l.session = s.transport) (hstep : d.step cfg a = some r) : Mirrors cfg l i [] (d.heardBy cfg i a) r := by
  have hi : i < d.accepted := by
    by_contra hge
    rw [hfresh i (not_lt.mp hge)] at hs
    cases hs
  cases a with
  | connect =>
    cases hstep
    exact ⟨(mirrors_other hs hl hi.ne' newSession).session,rfl⟩
  | frame j frame env =>
    obtain ⟨sj,hj,rfl⟩ := Option.map_eq_some_iff.mp hstep
    exact mirrors_frame hs hl hj
  | malformed j =>
    obtain ⟨sj,hj,rfl⟩ := Option.map_eq_some_iff.mp hstep
    by_cases h : j = i
    · subst h
      rw [hs] at hj
      cases hj
      rw [heardBy,if_pos rfl]
      refine ⟨fun s' hs' => ?_,rfl⟩
      cases (setSession_self d j _).symm.trans hs'
      show { l.session with closed := true } = _
      rw [hl]
      rfl
    · rw [heardBy,if_neg h]
      exact mirrors_other hs hl h _
  | drained j room =>
    obtain ⟨sj,hj,rfl⟩ := Option.map_eq_some_iff.mp hstep
    by_cases h : j = i
    · subst h
      rw [hs] at hj
      cases hj
      rw [heardBy,if_pos rfl]
      have hfired : l.drainFired.session = ({ s with drainPending := false } : Session).transport := by
        rw [Ledger.drainFired,hl]
        rfl
      have htransport := ({ s with drainPending := false } : Session).transport_flush room
      refine ⟨fun s' hs' => ?_,?_⟩
      · cases (setSession_self d j _).symm.trans hs'
        show (l.drainFired.session.flush room).1 = _
        rw [hfired,htransport]
      · show framesTo j (List.map _ _) = (l.drainFired.session.flush room).2 ++ []
        rw [framesTo_own,hfired,htransport,List.append_nil]
    · rw [heardBy,if_neg h]
      refine ⟨(mirrors_other hs hl h _).session,?_⟩
      exact framesTo_other h _
  | socketClosed j =>
    obtain ⟨sj,hj,rfl⟩ := Option.map_eq_some_iff.mp hstep
    refine mirrors_still hl fun s' hs' => ?_
    by_cases h : j = i
    · subst h
      have hgone : (d.socketClosed j sj).sessions j = none := Function.update_self ..
      rw [hgone] at hs'
      cases hs'
    · have hsame : (d.socketClosed j sj).sessions i = d.sessions i := Function.update_of_ne (Ne.symm h) ..
      cases (hsame.trans hs).symm.trans hs'
      rfl
  | broadcast row env =>
    cases hstep
    exact mirrors_broadcast hs hl row
  | stop now =>
    cases hstep
    have htransport := s.transport_degrade now .daemonShutdown
    rw [heardBy,hs,Option.isSome_some,if_pos rfl]
    refine ⟨fun s' hs' => ?_,?_⟩
    · have hmap : (d.sessions i).map (fun s => (s.degrade now .daemonShutdown).1) = some s' := hs'
      rw [hs] at hmap
      cases hmap
      show (l.session.degrade now .daemonShutdown).1 = _
      rw [hl,htransport]
    · show framesTo i (List.flatMap _ _) = (l.session.degrade now .daemonShutdown).2 ++ []
      rw [framesTo_range,if_pos hi,hs,hl,htransport,List.append_nil]
      rfl

theorem step_absent (hs : d.sessions i = none) (hstep : d.step cfg a = some r) :
    d.heardBy cfg i a = [] ∧ framesTo i r.2 = [] ∧
      ∀ s, r.1.sessions i = some s → i = d.accepted ∧ r.1.accepted = i + 1 ∧ s = newSession := by
  have hother {j : ℕ} {sj : Session} (hj : d.sessions j = some sj) : j ≠ i := by
    rintro rfl
    cases hs.symm.trans hj
  have hstill {d' : Daemon} (h : d'.sessions i = d.sessions i) (s : Session) (hs' : d'.sessions i = some s) :
      i = d.accepted ∧ r.1.accepted = i + 1 ∧ s = newSession := by
    cases (h.trans hs).symm.trans hs'
  have hbroadcast (row : EventRow) (env : DaemonEnv) := @foldl_enqueueAt_none cfg env i (cfg.notify row) (d,[])
    (d.recipients row) hs
  cases a with
  | connect =>
    cases hstep
    refine ⟨rfl,rfl,fun s hs' => ?_⟩
    by_cases h : d.accepted = i
    · subst h
      cases (setSession_self d _ newSession).symm.trans hs'
      exact ⟨rfl,rfl,rfl⟩
    · exact hstill (setSession_other h newSession) s hs'
  | frame j frame env =>
    obtain ⟨sj,hj,rfl⟩ := Option.map_eq_some_iff.mp hstep
    have hne := hother hj
    cases frame with
    | hello subscriberId cursor filter =>
      have hsame : (d.handleFrame cfg env j sj (.hello subscriberId cursor filter)).1.sessions i = d.sessions i :=
        setSession_other hne _
      exact ⟨rfl,rfl,hstill hsame⟩
    | ack eventId => exact ⟨rfl,rfl,hstill (setSession_other hne _)⟩
    | ping =>
      obtain ⟨hsame,hquiet⟩ := @enqueueAt_other cfg env i j .pong (d,[]) hne
      exact ⟨if_neg hne,hquiet,hstill hsame⟩
    | produced event =>
      cases event with
      | none => exact ⟨rfl,rfl,hstill rfl⟩
      | some row =>
        obtain ⟨hnone,hquiet⟩ := hbroadcast row env
        exact ⟨by rw [heardBy,count_recipients hs]; rfl,hquiet,hstill (hnone.trans hs.symm)⟩
    | unknown kind => exact ⟨rfl,rfl,hstill rfl⟩
  | malformed j =>
    obtain ⟨sj,hj,rfl⟩ := Option.map_eq_some_iff.mp hstep
    exact ⟨if_neg (hother hj),rfl,hstill (setSession_other (hother hj) _)⟩
  | drained j room =>
    obtain ⟨sj,hj,rfl⟩ := Option.map_eq_some_iff.mp hstep
    exact ⟨if_neg (hother hj),framesTo_other (hother hj) _,hstill (setSession_other (hother hj) _)⟩
  | socketClosed j =>
    obtain ⟨sj,hj,rfl⟩ := Option.map_eq_some_iff.mp hstep
    have hsame : (d.socketClosed j sj).sessions i = d.sessions i := Function.update_of_ne (hother hj).symm ..
    exact ⟨rfl,rfl,hstill hsame⟩
  | broadcast row env =>
    cases hstep
    obtain ⟨hnone,hquiet⟩ := hbroadcast row env
    exact ⟨by rw [heardBy,count_recipients hs]; rfl,hquiet,hstill (hnone.trans hs.symm)⟩
  | stop now =>
    cases hstep
    refine ⟨by rw [heardBy,hs]; rfl,?_,fun s hs' => ?_⟩
    · show framesTo i (List.flatMap _ _) = []
      rw [framesTo_range,hs]
      exact ite_self _
    · have hmap : (d.sessions i).map (fun s => (s.degrade now .daemonShutdown).1) = some s := hs'
      rw [hs] at hmap
      cases hmap

theorem accepted_le (hstep : d.step cfg a = some r) : d.accepted ≤ r.1.accepted := by
  have hkeeps (row : EventRow) (env : DaemonEnv) : (d.broadcast cfg env row).1.accepted = d.accepted :=
    (@keepsRegistry_foldl cfg env (cfg.notify row) (d.recipients row) (d,[])).accepted
  cases a with
  | connect =>
    cases hstep
    exact Nat.le_succ d.accepted
  | broadcast row env =>
    cases hstep
    exact (hkeeps row env).ge
  | stop now =>
    cases hstep
    exact le_rfl
  | malformed j | drained j room | socketClosed j =>
    obtain ⟨s,-,rfl⟩ := Option.map_eq_some_iff.mp hstep
    exact le_rfl
  | frame j frame env =>
    obtain ⟨s,hs,rfl⟩ := Option.map_eq_some_iff.mp hstep
    cases frame with
    | ping => exact (@keepsRegistry_enqueueAt cfg env .pong (d,[]) j).accepted.ge
    | produced event =>
      cases event with
      | none => exact le_rfl
      | some row => exact (hkeeps row env).ge
    | _ => exact le_rfl

theorem heardBy_offered {now : ℤ} {room : ℕ} (h : SessionEvent.enqueue line now room ∈ d.heardBy cfg i a) :
    line = .pong ∨ ∃ row ∈ d.offeredBy i a, line = cfg.notify row := by
  have hreplicate {row : EventRow} {env : DaemonEnv}
      (hmem : SessionEvent.enqueue line now room ∈
        List.replicate ((d.recipients row).count i) (.enqueue (cfg.notify row) env.now (env.room i))) :
      i ∈ d.recipients row ∧ line = cfg.notify row := by
    obtain ⟨hcount,heq⟩ := List.mem_replicate.mp hmem
    exact ⟨List.count_pos_iff.mp (Nat.pos_of_ne_zero hcount),(SessionEvent.enqueue.inj heq).1⟩
  have hoffer {row : EventRow} {env : DaemonEnv} (hfanned : a.fanned = some (row,env)) (hmem : i ∈ d.recipients row) :
      row ∈ d.offeredBy i a := by
    simp only [offeredBy,hfanned,if_pos hmem,List.mem_singleton]
  cases a with
  | broadcast row env =>
    obtain ⟨hmem,hline⟩ := hreplicate h
    exact .inr ⟨row,hoffer rfl hmem,hline⟩
  | frame j frame env =>
    cases frame with
    | ping =>
      rw [heardBy] at h
      split_ifs at h
      · exact .inl (SessionEvent.enqueue.inj (List.mem_singleton.mp h)).1
      · cases h
    | produced event =>
      cases event with
      | none => cases h
      | some row =>
        obtain ⟨hmem,hline⟩ := hreplicate h
        exact .inr ⟨row,hoffer rfl hmem,hline⟩
    | _ => cases h
  | malformed j | drained j room | stop now =>
    rw [heardBy] at h
    split_ifs at h <;> simp at h
  | _ => cases h

end Daemon

structure Isolated (cfg : DaemonConfig) (t : Fanout) : Prop where
  fresh : ∀ i, t.daemon.accepted ≤ i → t.daemon.sessions i = none ∧ t.heard i = []
  session : ∀ i s, t.daemon.sessions i = some s → (Ledger.run cfg (t.heard i)).session = s.transport
  written : ∀ i, t.written i = Ledger.start.frames cfg (t.heard i)
  offered : ∀ i line now room, SessionEvent.enqueue line now room ∈ t.heard i →
    line = .pong ∨ ∃ row ∈ t.offered i, line = cfg.notify row

section Fans

variable {cfg : DaemonConfig} {t u : Fanout} {a : DaemonAction}

theorem Isolated.start (cfg : DaemonConfig) : Isolated cfg .start :=
  ⟨fun _ _ => ⟨rfl,rfl⟩,fun _ _ h => (by cases h),fun _ => rfl,fun _ _ _ _ h => absurd h List.not_mem_nil⟩

theorem Isolated.step (h : Isolated cfg t) (hstep : t.step cfg a = some u) : Isolated cfg u := by
  obtain ⟨r,hr,rfl⟩ := Option.map_eq_some_iff.mp hstep
  have hfresh : ∀ i, t.daemon.accepted ≤ i → t.daemon.sessions i = none := fun i hi => (h.fresh i hi).1
  have hmirrors (i : ℕ) (s : Session) (hs : t.daemon.sessions i = some s) :=
    Daemon.step_mirrors hfresh hs (h.session i s hs) hr
  refine ⟨fun i hi => ?_,fun i s hs => ?_,fun i => ?_,fun i line now room hmem => ?_⟩
  · obtain ⟨hnone,hheard⟩ := h.fresh i ((Daemon.accepted_le hr).trans hi)
    obtain ⟨hquiet,-,hnew⟩ := Daemon.step_absent hnone hr
    refine ⟨Option.eq_none_iff_forall_ne_some.mpr fun s hs => ?_,?_⟩
    · have := (hnew s hs).2.1
      have hi' : r.1.accepted ≤ i := hi
      omega
    · show t.heard i ++ _ = []
      rw [hheard,hquiet]
      rfl
  · show (Ledger.run cfg (t.heard i ++ _)).session = s.transport
    rw [Ledger.run_append]
    cases hold : t.daemon.sessions i with
    | none =>
      obtain ⟨hquiet,-,hnew⟩ := Daemon.step_absent hold hr
      obtain ⟨rfl,-,rfl⟩ := hnew s hs
      rw [(h.fresh _ le_rfl).2,hquiet]
      rfl
    | some s' => exact (hmirrors i s' hold).session s hs
  · show t.written i ++ _ = Ledger.start.frames cfg (t.heard i ++ _)
    rw [Ledger.frames_append,h.written i]
    congr 1
    cases hold : t.daemon.sessions i with
    | none =>
      obtain ⟨hquiet,hsilent,-⟩ := Daemon.step_absent hold hr
      rw [hsilent,hquiet]
      rfl
    | some s' => exact (hmirrors i s' hold).written
  · rcases List.mem_append.mp hmem with hold | hnew
    · rcases h.offered i line now room hold with hpong | ⟨row,hrow,hline⟩
      · exact .inl hpong
      · exact .inr ⟨row,List.mem_append_left _ hrow,hline⟩
    · rcases Daemon.heardBy_offered hnew with hpong | ⟨row,hrow,hline⟩
      · exact .inl hpong
      · exact .inr ⟨row,List.mem_append_right _ hrow,hline⟩

end Fans

namespace Fanout

structure Reaches (cfg : DaemonConfig) (row : EventRow → Ipc.JsValue) (t : Fanout) (i : ℕ) (c : Link) : Prop where
  written : c.written = t.written i
  session : ∀ s, t.daemon.sessions i = some s → c.ledger.session = s.transport
  offered : ∀ frame ∈ c.client.yielded, ∃ r ∈ t.offered i, frame = Link.frameValue row (cfg.notify r)
  inOrder : c.client.yielded <+: (Ledger.notifies (t.written i)).map (Link.frameValue row)
  complete : c.client.closed = false → c.wire = [] → (Ledger.notifies (t.written i)).map (Link.frameValue row) =
    c.client.yielded ++ c.client.inFlight ++ c.client.inbox

section Reach

variable {cfg : DaemonConfig} {json : Ipc.JsonCodec} {row : EventRow → Ipc.JsValue} {t : Fanout} {i : ℕ}
  {as : List DaemonAction} {las : List LinkAction}

theorem run_written (las : List LinkAction) :
    (Link.run json row cfg las).written = Ledger.start.frames cfg (Link.sessionEvents las) := by
  induction las using List.reverseRecOn with
  | nil => rfl
  | append_singleton las a ih =>
    rw [Link.run_concat,Link.sessionEvents,List.filterMap_append,Ledger.frames_append]
    cases a with
    | daemon b =>
      show _ ++ (Link.run json row cfg las).ledger.writes cfg b = _ ++ (Ledger.writes cfg (Ledger.run cfg _) b ++ [])
      rw [ih,Link.run_ledger,List.append_nil]
      rfl
    | arrive n => exact ih.trans (List.append_nil _).symm
    | client b => exact ih.trans (List.append_nil _).symm

theorem sent_offered (h : Isolated cfg t) {frame : Frame}
    (hframe : frame ∈ Ledger.notifies ((Ledger.run cfg (t.heard i)).sent.map Prod.snd)) :
    ∃ r ∈ t.offered i, frame = cfg.notify r := by
  obtain ⟨hsent,hnotify⟩ := List.mem_filter.mp hframe
  obtain ⟨p,hp,rfl⟩ := List.mem_map.mp hsent
  have hline := List.mem_of_getElem? ((Ledger.run_faithful cfg _).2 p hp)
  obtain ⟨now,room,henqueued⟩ := Ledger.mem_lines_run hline
  rcases h.offered i _ now room henqueued with hpong | hoffered
  · rw [hpong] at hnotify
    cases hnotify
  · exact hoffered

theorem fanout_reaches (hrun : Run (Fanout.step cfg) (fun _ _ => True) .start as t)
    (hlink : Link.sessionEvents las = t.heard i) (hprintable : ∀ frame ∈ t.written i, Link.Printable json row frame) :
    Reaches cfg row t i (Link.run json row cfg las) := by
  have h : Isolated cfg t :=
    hrun.invariant (I := Isolated cfg) (fun _ _ _ hu _ hstep => hu.step hstep) (.start cfg)
  have hwritten : (Link.run json row cfg las).written = t.written i := by
    rw [run_written,hlink,h.written]
  have hledger : (Link.run json row cfg las).ledger = Ledger.run cfg (t.heard i) := by
    rw [Link.run_ledger,hlink]
  rw [← hwritten] at hprintable
  have hdelivers := Link.run_delivers hprintable
  refine ⟨hwritten,fun s hs => hledger ▸ h.session i s hs,fun frame hframe => ?_,?_,fun hopen hwire => ?_⟩
  · obtain ⟨sent,hsent,rfl⟩ := List.mem_map.mp (hdelivers.yielded.subset hframe)
    rw [hledger] at hsent
    obtain ⟨r,hr,rfl⟩ := sent_offered h hsent
    exact ⟨r,hr,rfl⟩
  · rw [← hwritten,(Link.run_carries hprintable).sent]
    exact hdelivers.yielded
  · rw [← hwritten,(Link.run_carries hprintable).sent]
    exact hdelivers.conserved hopen hwire

end Reach

def fanoutRun : List DaemonAction :=
  [.connect,.connect,.frame 0 (.hello "a" none none) ⟨0,fun _ => 0⟩,.frame 1 (.hello "b" (some 1) none) ⟨0,fun _ => 0⟩,
    .frame 1 (.produced (some (expiredSample.row 1))) ⟨1,fun i => 1 - i⟩]

def fanoutLink : List LinkAction :=
  [.client .next,.daemon (.enqueue (.notify 1 (some (expiredSample.row 1))) 1 1),.arrive 12,.arrive 90,.client .tick]

theorem fanout_reaches_sample : ∃ t : Fanout, t.offered 1 = [] ∧ (t.offered 0).map EventRow.eventId = [1] ∧
    Reaches Ledger.sampleDaemonConfig (fun _ => .null) t 0
      (Link.run Link.noticeCodec (fun _ => .null) Ledger.sampleDaemonConfig fanoutLink) := by
  have hreach : (exec (step Ledger.sampleDaemonConfig) start fanoutRun).any (fun t =>
      decide (t.offered 1 = []) && decide ((t.offered 0).map EventRow.eventId = [1]) &&
      decide (Link.sessionEvents fanoutLink = t.heard 0) &&
      decide (t.written 0 = [.notify 1 (some (expiredSample.row 1))])) = true := by decide +kernel
  obtain ⟨t,ht,hobs⟩ := (Option.any_eq_true _ _).mp hreach
  simp only [Bool.and_eq_true,decide_eq_true_eq] at hobs
  obtain ⟨⟨⟨hskipped,hoffered⟩,hlink⟩,hwritten⟩ := hobs
  refine ⟨t,hskipped,hoffered,fanout_reaches (run_of_exec ht) hlink fun frame hframe => ?_⟩
  rw [hwritten] at hframe
  rw [List.mem_singleton.mp hframe]
  exact ⟨by decide,rfl⟩

end Fanout

end WickedBus
