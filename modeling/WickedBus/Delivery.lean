import WickedBus.Push

namespace WickedBus

open GuardedRun
open WickedBus.Filter (Text)

def FrameOf (P : EventRow → Prop) : Frame → Prop
  | .notify eventId event => ∃ row, P row ∧ row.eventId = eventId ∧ ∀ e ∈ event, e = row
  | _ => True

structure ConnOk (floor : ℤ) (P : EventRow → Prop) (c : Conn) : Prop where
  carries : ∀ f ∈ c.frames, FrameOf P f
  cursor : c.subscribed = true → floor ≤ c.session.cursor
  hello : ∀ cursor, Outgoing.hello cursor ∈ c.toDaemon → floor ≤ cursor

section Session

variable {s : Session} {cfg : DaemonConfig} {now : ℤ} {room : ℕ} {line f : Frame}

theorem mem_of_flushQueue {queue : List Frame}
    (h : f ∈ (flushQueue room queue).1 ∨ f ∈ (flushQueue room queue).2) : f ∈ queue := by
  induction queue generalizing room with
  | nil => cases room <;> simp [flushQueue] at h
  | cons x queue ih =>
    cases room with
    | zero =>
      rcases h with h | h
      · exact List.mem_singleton.mp h ▸ List.mem_cons_self
      · exact h
    | succ room =>
      simp only [flushQueue,List.mem_cons] at h
      rcases h with (rfl | h) | h
      · exact List.mem_cons_self
      · exact List.mem_cons_of_mem _ (ih (.inl h))
      · exact List.mem_cons_of_mem _ (ih (.inr h))

theorem mem_flush (h : f ∈ (s.flush room).1.queue ∨ f ∈ (s.flush room).2) : f ∈ s.queue := by
  unfold Session.flush at h
  split_ifs at h
  · simpa using h
  · exact mem_of_flushQueue h.symm

theorem mem_degrade {reason : DegradeReason}
    (h : f ∈ (s.degrade now reason).1.queue ∨ f ∈ (s.degrade now reason).2) :
    f ∈ s.queue ∨ f = .degrade reason := by
  unfold Session.degrade at h
  split_ifs at h
  · exact .inl (by simpa using h)
  · exact h.imp_right List.mem_singleton.mp

theorem mem_push (h : f ∈ (s.push cfg line).queue) : f ∈ s.queue ∨ f = line := by
  unfold Session.push at h
  split_ifs at h
  · exact (List.mem_append.mp h).imp List.mem_of_mem_tail List.mem_singleton.mp
  · exact (List.mem_append.mp h).imp_right List.mem_singleton.mp

theorem mem_checkHighWatermark (h : f ∈ (s.checkHighWatermark cfg now).1.queue ∨
    f ∈ (s.checkHighWatermark cfg now).2) : f ∈ s.queue ∨ f = .degrade .queueFull := by
  unfold Session.checkHighWatermark at h
  split_ifs at h
  · split at h
    · exact .inl (by simpa using h)
    · split_ifs at h
      · exact mem_degrade h
      · exact .inl (by simpa using h)
  · exact .inl (by simpa using h)

theorem mem_enqueue (h : f ∈ (s.enqueue cfg now room line).1.queue ∨
    f ∈ (s.enqueue cfg now room line).2) : f ∈ s.queue ∨ f = line ∨ f = .degrade .queueFull := by
  unfold Session.enqueue at h
  split_ifs at h
  · exact .inl (by simpa using h)
  · have hmark : ∀ f, (f ∈ ((s.push cfg line).checkHighWatermark cfg now).1.queue ∨
        f ∈ ((s.push cfg line).checkHighWatermark cfg now).2) →
        f ∈ s.queue ∨ f = line ∨ f = .degrade .queueFull := by
      intro f hf
      rcases mem_checkHighWatermark hf with hf | hf
      · exact (mem_push hf).imp_right .inl
      · exact .inr (.inr hf)
    rcases h with h | h
    · exact hmark f (.inl (mem_flush (.inl h)))
    · rcases List.mem_append.mp h with h | h
      · exact hmark f (.inr h)
      · exact hmark f (.inl (mem_flush (.inr h)))

end Session

section Conn

variable {floor : ℤ} {P : EventRow → Prop} {c c' : Conn} {cfg : DaemonConfig} {opts : PushOpts}

theorem mem_frames {f : Frame} : f ∈ c.frames ↔
    f ∈ c.session.queue ∨ f ∈ c.toClient ∨ f ∈ c.client.inbox ∨ c.client.hand = some f := by
  simp [Conn.frames]

theorem ConnOk.mono {Q : EventRow → Prop} (h : ConnOk floor P c) (himp : ∀ r, P r → Q r) :
    ConnOk floor Q c := by
  refine ⟨fun f hf => ?_,h.cursor,h.hello⟩
  have hframe := h.carries f hf
  cases f with
  | notify id ev =>
    obtain ⟨row,hrow,hrest⟩ := hframe
    exact ⟨row,himp row hrow,hrest⟩
  | _ => trivial

theorem ConnOk.opened {cursor : ℤ} (h : floor ≤ cursor) : ConnOk floor P (.opened cursor) where
  carries f hf := by simp [Conn.opened,Conn.frames,newSession] at hf
  cursor hsub := by cases hsub
  hello k hk := by
    simp only [Conn.opened,List.mem_singleton,Outgoing.hello.injEq] at hk
    exact hk ▸ h

theorem ConnOk.written (h : ConnOk floor P c) {r : Session × List Frame}
    (hframe : ∀ f, f ∈ r.1.queue ∨ f ∈ r.2 → f ∈ c.session.queue ∨ FrameOf P f)
    (hcursor : r.1.cursor = c.session.cursor) : ConnOk floor P (c.written r) where
  carries f hf := by
    have hnew : (f ∈ r.1.queue ∨ f ∈ r.2) ∨ f ∈ c.toClient ∨ f ∈ c.client.inbox ∨
        c.client.hand = some f := by
      rcases mem_frames.mp hf with hf | hf | hf
      · exact .inl (.inl hf)
      · exact (List.mem_append.mp hf).symm.imp .inr .inl
      · exact .inr (.inr hf)
    rcases hnew with hnew | hold
    · rcases hframe f hnew with hq | hP
      · exact h.carries f (mem_frames.mpr (.inl hq))
      · exact hP
    · exact h.carries f (mem_frames.mpr (.inr hold))
  cursor hsub := (h.cursor hsub).trans hcursor.ge
  hello := h.hello

theorem ConnOk.offer (h : ConnOk floor P c) {now : ℤ} {room : ℕ} {row : EventRow}
    (hP : c.subscribed = true → c.session.receives row = true → P row) :
    ConnOk floor P (c.offer cfg now room row) := by
  unfold Conn.offer
  split_ifs with hc
  · obtain ⟨hsub,hrecv⟩ := Bool.and_eq_true_iff.mp hc
    refine h.written (fun f hf => ?_) (Session.cursor_of_identity (Session.identity_enqueue _ _ _ _ _))
    rcases mem_enqueue hf with hf | rfl | rfl
    · exact .inl hf
    · refine .inr ⟨row,hP hsub hrecv,rfl,fun e he => ?_⟩
      split_ifs at he
      · exact (Option.mem_some_iff.mp he).symm
      · cases he
    · exact .inr trivial
  · exact h

theorem ConnOk.sendAck (h : ConnOk floor P c) (eventId : ℤ) : ConnOk floor P (c.sendAck eventId) := by
  unfold Conn.sendAck
  split_ifs
  · exact h
  · refine ⟨h.carries,h.cursor,fun k hk => h.hello k ?_⟩
    simpa using hk

theorem ConnOk.daemonRead (h : ConnOk floor P c) (hread : c.daemonRead opts = some c') :
    ConnOk floor P c' := by
  unfold Conn.daemonRead at hread
  split at hread
  · cases hread
  · rename_i cursor rest hto
    cases hread
    have hfloor : floor ≤ cursor := h.hello cursor (hto ▸ List.mem_cons_self)
    exact ⟨h.carries,fun _ => hfloor,fun k hk => h.hello k (hto ▸ List.mem_cons_of_mem _ hk)⟩
  · rename_i eventId rest hto
    cases hread
    refine ⟨h.carries,fun hsub => ?_,fun k hk => h.hello k (hto ▸ List.mem_cons_of_mem _ hk)⟩
    exact (h.cursor hsub).trans (le_max_left _ _)

theorem ConnOk.client (h : ConnOk floor P c) {toClient : List Frame} {client : Client}
    (hsub : ∀ f, f ∈ toClient ∨ f ∈ client.inbox ∨ client.hand = some f →
      f ∈ c.toClient ∨ f ∈ c.client.inbox ∨ c.client.hand = some f) :
    ConnOk floor P { c with toClient := toClient, client := client } where
  carries f hf := by
    refine h.carries f (mem_frames.mpr ?_)
    rcases mem_frames.mp hf with hf | hf
    · exact .inl hf
    · exact .inr (hsub f hf)
  cursor := h.cursor
  hello := h.hello

theorem mem_deliver {client : Client} {frame f : Frame} (h : f ∈ (client.deliver frame).inbox ∨
    (client.deliver frame).hand = some f) : f = frame ∨ f ∈ client.inbox ∨ client.hand = some f := by
  unfold Client.deliver at h
  split_ifs at h
  · rcases h with h | h
    · exact .inr (.inl h)
    · exact .inl (Option.some.inj h).symm
  · rcases h with h | h
    · exact (List.mem_append.mp h).symm.imp List.mem_singleton.mp .inl
    · exact .inr (.inr h)

theorem ConnOk.clientRead (h : ConnOk floor P c) (hread : c.clientRead = some c') : ConnOk floor P c' := by
  unfold Conn.clientRead at hread
  split at hread
  · cases hread
  · rename_i frame rest hto
    cases hread
    refine h.client fun f hf => ?_
    rw [hto]
    rcases hf with hf | hf
    · exact .inl (List.mem_cons_of_mem _ hf)
    · cases frame with
      | notify id ev =>
        rcases mem_deliver hf with rfl | hf
        · exact .inl List.mem_cons_self
        · exact .inr hf
      | _ => exact .inr hf

theorem mem_next {client client' : Client} {frame : Frame} (h : client.next = some (frame,client')) :
    (frame ∈ client.inbox ∨ client.hand = some frame) ∧
      ∀ f, f ∈ client'.inbox ∨ client'.hand = some f → f ∈ client.inbox ∨ client.hand = some f := by
  unfold Client.next at h
  split at h
  · rename_i hhand
    cases h
    exact ⟨.inr hhand,fun f hf => hf.imp_right (fun hn => by cases hn)⟩
  · cases h
  · rename_i hhand hinbox
    split_ifs at h
    cases h
    rw [hinbox]
    exact ⟨.inl List.mem_cons_self,fun f hf => hf.imp_left (List.mem_cons_of_mem _)⟩

end Conn

def GenPoint.batch : GenPoint → List EventRow
  | .catchUp batch | .pollDrain batch => batch
  | _ => []

def GenPoint.reads : GenPoint → Option (Text × ℤ)
  | .select filter lastEventId => some (filter,lastEventId)
  | _ => none

structure GenPoint.Quiet (g : GenPoint) : Prop where
  batch : g.batch = []
  reads : g.reads = none

inductive PushMove (opts : PushOpts) (t : PushState) : PushAction → PushState → Prop
  | world {a : Action} {w : World} (h : t.world.step a = some w) (t' : PushState) (world : t'.world = w)
      (yielded : t'.yielded = t.yielded) (gen : t'.gen = t.gen)
      (produced : t'.produced = t.produced ++ PushState.acceptedBy t.world a) :
      PushMove opts t (.world a) t'
  | still {a : PushAction} (t' : PushState) (world : t'.world = t.world) (yielded : t'.yielded = t.yielded)
      (produced : ∀ r ∈ t'.produced, r ∈ t.produced)
      (gen : t'.gen = t.gen ∨ ∀ g ∈ t'.gen, GenPoint.Quiet g) : PushMove opts t a t'
  | read {env : GenEnv} {r : Text × ℤ} (h : t.pollRead opts = .ok r) :
      PushMove opts t (.gen env) { t with gen := some (.select r.1 r.2) }
  | polled {env : GenEnv} {filter : Text} {last : ℤ} (h : t.gen = some (.select filter last)) {q : GenPoint}
      (hbatch : q.batch = pollSelect t.world.bus filter last pushBatchSize) (hreads : q.reads = none) :
      PushMove opts t (.gen env) { t with gen := some q }
  | batch {env : GenEnv} {e : EventRow} {p q : GenPoint} (h : t.gen = some p)
      (hbatch : p.batch = e :: q.batch) (hreads : q.reads = none) :
      PushMove opts t (.gen env) (t.hand opts env t.conn e q)
  | frame {env : GenEnv} {c : Conn} {frame : Frame} {client : Client} {e : EventRow}
      (h : t.gen = some .push) (hconn : t.conn = some c) (hnext : c.client.next = some (frame,client))
      (hres : resolveFromLive t.world.bus frame = some e) :
      PushMove opts t (.gen env) (t.hand opts env (some { c with client := client }) e .push)

section Move

variable {opts : PushOpts} {cfg : DaemonConfig} {t t' : PushState} {a : PushAction} {env : GenEnv}

theorem withConn_still {f : Conn → Option Conn} (h : t.withConn f = some t') : PushMove opts t a t' := by
  obtain ⟨c,-,rfl⟩ := Option.map_eq_some_iff.mp h
  exact .still _ rfl rfl (fun _ => id) (.inl rfl)

theorem pushStep_move (hgen : t.gen = some .push) (h : t.pushStep opts env = some t') :
    PushMove opts t (.gen env) t' := by
  unfold PushState.pushStep at h
  split at h
  · cases h
    exact .still _ rfl rfl (fun _ => id) (.inr (by rintro _ ⟨⟩; exact ⟨rfl,rfl⟩))
  · rename_i c hconn
    split at h
    · rename_i frame client hnext
      split at h
      · cases h
        exact .still _ rfl rfl (fun _ => id) (.inl rfl)
      · cases h
        exact .frame hgen hconn hnext ‹_›
    · split_ifs at h
      · cases h
        exact .still _ rfl rfl (fun _ => id) (.inr (by rintro _ ⟨⟩; exact ⟨rfl,rfl⟩))
      · cases h
        exact .still _ rfl rfl (fun _ => id) (.inl rfl)

theorem genStep_move {p : GenPoint} (hgen : t.gen = some p) (h : t.genStep opts env p = some t') :
    PushMove opts t (.gen env) t' := by
  cases p with
  | top =>
    simp only [PushState.genStep] at h
    split at h <;> cases h
    · exact .still _ rfl rfl (fun _ => id) (.inr (by rintro _ ⟨⟩))
    · exact .read ‹_›
  | select filter last =>
    cases h
    refine .polled hgen ?_ ?_ <;> split_ifs <;> rfl
  | catchUp batch =>
    cases batch <;> cases h
    · exact .still _ rfl rfl (fun _ => id) (.inr (by rintro _ ⟨⟩; exact ⟨rfl,rfl⟩))
    · exact .batch hgen rfl rfl
  | push => exact pushStep_move hgen h
  | pollDrain batch =>
    cases batch <;> cases h
    · exact .still _ rfl rfl (fun _ => id) (.inr (by rintro _ ⟨⟩; exact ⟨rfl,rfl⟩))
    · exact .batch hgen rfl rfl
  | reprobe =>
    cases h
    exact .still _ rfl rfl (fun _ => id) (.inr (by rintro _ ⟨⟩; exact ⟨rfl,rfl⟩))

theorem push_move (h : t.step opts cfg a = some t') : PushMove opts t a t' := by
  cases a with
  | world a =>
    obtain ⟨w,hw,rfl⟩ := Option.map_eq_some_iff.mp h
    exact .world hw _ rfl rfl rfl rfl
  | arrive k now room =>
    obtain ⟨row,hrow,rfl⟩ := Option.map_eq_some_iff.mp h
    exact .still _ rfl rfl (fun r => List.mem_of_mem_eraseIdx) (.inl rfl)
  | lose k =>
    cases h
    exact .still _ rfl rfl (fun r => List.mem_of_mem_eraseIdx) (.inl rfl)
  | gen env =>
    obtain ⟨p,hp,hstep⟩ := Option.bind_eq_some_iff.mp h
    exact genStep_move hp hstep
  | stop =>
    cases h
    exact .still _ rfl rfl (fun _ => id) (.inr (by rintro _ ⟨⟩))
  | start connects =>
    simp only [PushState.step] at h
    split_ifs at h
    cases h
    exact .still _ rfl rfl (fun _ => id) (.inr (by rintro _ ⟨⟩; exact ⟨rfl,rfl⟩))
  | daemonRead => exact withConn_still h
  | drained room => exact withConn_still h
  | stopDaemon now => exact withConn_still h
  | unregister => exact withConn_still h
  | disconnect => exact withConn_still h
  | clientRead => exact withConn_still h

def FanOut (P : EventRow → Prop) (t : PushState) : PushAction → Prop
  | .arrive k _ _ => ∀ row ∈ t.produced[k]?, ∀ c ∈ t.conn, c.subscribed = true →
      c.session.receives row = true → P row
  | _ => True

instance (P : EventRow → Prop) [DecidablePred P] (t : PushState) : ∀ a, Decidable (FanOut P t a)
  | .arrive k _ _ => inferInstanceAs (Decidable (∀ row ∈ t.produced[k]?, ∀ c ∈ t.conn, c.subscribed = true →
      c.session.receives row = true → P row))
  | .world _ | .lose _ | .daemonRead | .drained _ | .stopDaemon _ | .unregister | .disconnect | .clientRead
  | .gen _ | .stop | .start _ => .isTrue trivial

variable {floor : ℤ} {P : EventRow → Prop}

theorem withConn_conn {f : Conn → Option Conn} (hok : ∀ c ∈ t.conn, ConnOk floor P c)
    (hf : ∀ c c', ConnOk floor P c → f c = some c' → ConnOk floor P c') (h : t.withConn f = some t') :
    ∀ c ∈ t'.conn, ConnOk floor P c := by
  obtain ⟨c,hc,rfl⟩ := Option.map_eq_some_iff.mp h
  obtain ⟨d,hd,hdc⟩ := Option.bind_eq_some_iff.mp hc
  rintro _ ⟨⟩
  exact hf d c (hok d hd) hdc

theorem enterPush_conn (hfloor : floor ≤ position t.world.bus opts.cursorId) (connects : Bool) :
    ∀ c ∈ t.enterPush opts connects, ConnOk floor P c := by
  intro c hc
  unfold PushState.enterPush at hc
  split_ifs at hc <;> cases hc
  exact .opened hfloor

theorem next_conn {c : Conn} {frame : Frame} {client : Client} (hc : ConnOk floor P c)
    (hnext : c.client.next = some (frame,client)) : ConnOk floor P { c with client := client } := by
  refine hc.client fun f hf => hf.imp_right ((mem_next hnext).2 f)

theorem hand_conn {conn : Option Conn} (hok : ∀ c ∈ conn, ConnOk floor P c) (e : EventRow) (q : GenPoint) :
    ∀ c ∈ (t.hand opts env conn e q).conn, ConnOk floor P c := by
  intro c hc
  obtain ⟨d,hd,rfl⟩ := Option.map_eq_some_iff.mp hc
  exact (hok d hd).sendAck _

theorem pushStep_conn (hok : ∀ c ∈ t.conn, ConnOk floor P c) (h : t.pushStep opts env = some t') :
    ∀ c ∈ t'.conn, ConnOk floor P c := by
  unfold PushState.pushStep at h
  split at h
  · cases h
    exact hok
  · rename_i c hconn
    have hc := hok c hconn
    split at h
    · rename_i frame client hnext
      have hclient := next_conn hc hnext
      split at h <;> cases h
      · rintro _ ⟨⟩
        exact hclient
      · exact hand_conn (by rintro _ ⟨⟩; exact hclient) _ _
    · split_ifs at h <;> cases h
      · rintro _ ⟨⟩
      · rintro _ ⟨⟩
        exact hc.client fun f hf => hf

theorem push_conn (hok : ∀ c ∈ t.conn, ConnOk floor P c) (hfan : FanOut P t a)
    (hfloor : floor ≤ position t.world.bus opts.cursorId) (h : t.step opts cfg a = some t') :
    ∀ c ∈ t'.conn, ConnOk floor P c := by
  cases a with
  | world a =>
    obtain ⟨w,hw,rfl⟩ := Option.map_eq_some_iff.mp h
    exact hok
  | arrive k now room =>
    obtain ⟨row,hrow,rfl⟩ := Option.map_eq_some_iff.mp h
    intro c hc
    obtain ⟨d,hd,rfl⟩ := Option.map_eq_some_iff.mp hc
    exact (hok d hd).offer (hfan row hrow d hd)
  | lose k =>
    cases h
    exact hok
  | daemonRead => exact withConn_conn hok (fun c c' hc hread => hc.daemonRead hread) h
  | drained room =>
    refine withConn_conn hok (fun c c' hc hread => ?_) h
    cases hread
    exact hc.written (fun f hf => .inl (mem_flush (s := { c.session with drainPending := false }) hf))
      (Session.cursor_of_identity (Session.identity_flush _ room))
  | stopDaemon now =>
    refine withConn_conn hok (fun c c' hc hread => ?_) h
    cases hread
    refine hc.written (fun f hf => ?_) (Session.cursor_of_identity (Session.identity_degrade _ now _))
    rcases mem_degrade hf with hf | rfl
    · exact .inl hf
    · exact .inr trivial
  | unregister =>
    refine withConn_conn hok (fun c c' hc hread => ?_) h
    cases hread
    exact ⟨hc.carries,fun hsub => (by cases hsub),hc.hello⟩
  | disconnect =>
    refine withConn_conn hok (fun c c' hc hread => ?_) h
    cases hread
    have hclient : ConnOk floor P { c with toClient := [], client := c.client.endIterator } :=
      hc.client fun f hf => hf.imp_left (fun hn => (List.not_mem_nil hn).elim)
    exact ⟨hclient.carries,fun hsub => (by cases hsub),fun k hk => (List.not_mem_nil hk).elim⟩
  | clientRead => exact withConn_conn hok (fun c c' hc hread => hc.clientRead hread) h
  | gen env =>
    obtain ⟨p,hp,hstep⟩ := Option.bind_eq_some_iff.mp h
    cases p with
    | top =>
      simp only [PushState.genStep] at hstep
      split at hstep <;> cases hstep
      · rintro _ ⟨⟩
      · exact hok
    | select filter last =>
      cases hstep
      exact hok
    | catchUp batch =>
      cases batch <;> cases hstep
      · exact hok
      · exact hand_conn hok _ _
    | push => exact pushStep_conn hok hstep
    | pollDrain batch =>
      cases batch <;> cases hstep
      · exact hok
      · exact hand_conn hok _ _
    | reprobe =>
      cases hstep
      exact enterPush_conn hfloor _
  | stop =>
    cases h
    rintro _ ⟨⟩
  | start connects =>
    simp only [PushState.step] at h
    split_ifs at h
    cases h
    exact enterPush_conn hfloor connects

end Move

end WickedBus
