import WickedBus.Delivery

namespace WickedBus

open GuardedRun
open WickedBus.Filter (Text)

section World

variable {w w' : World} {v : Watch} {a : Action}

def RowsOk (v : Watch) (w : World) : Action → Prop
  | .bus op => ∀ db, op.apply w.bus = some db → KeepsRows v w.bus db
  | _ => True

theorem World.step_rows (hok : RowsOk v w a) (hstep : w.step a = some w') : KeepsRows v w.bus w'.bus := by
  cases a with
  | bus op =>
    obtain ⟨db,hop,rfl⟩ := Option.map_eq_some_iff.mp hstep
    exact hok db hop
  | beginSweep p config clock =>
    obtain ⟨cfg,-,-,rfl⟩ := World.step_begin hstep
    exact ⟨rfl,rfl⟩
  | sweep p env =>
    obtain ⟨s,hs,rfl⟩ := World.step_sweep hstep
    show KeepsRows v w.bus (sweeperStep env s.cfg w.bus w.archive s.phase).bus
    rcases sweeperStep_bus env s.cfg w.bus w.archive s.phase with hb | ⟨ids,-,hb⟩ | ⟨moved,-,hb⟩ <;>
      rw [hb] <;> exact ⟨rfl,rfl⟩
  | crash p =>
    cases hstep
    exact ⟨rfl,rfl⟩

theorem World.step_log (hstep : w.step a = some w') : w'.log = w.log ++ PushState.acceptedBy w a := by
  cases a with
  | bus op =>
    obtain ⟨db,hop,rfl⟩ := Option.map_eq_some_iff.mp hstep
    rfl
  | beginSweep p config clock =>
    obtain ⟨cfg,-,-,rfl⟩ := World.step_begin hstep
    exact (List.append_nil _).symm
  | sweep p env =>
    obtain ⟨s,-,rfl⟩ := World.step_sweep hstep
    exact (List.append_nil _).symm
  | crash p =>
    cases hstep
    exact (List.append_nil _).symm

theorem World.step_logged (hstep : w.step a = some w') : w.logged ⊆ w'.logged := by
  rintro x ⟨r,hr,rfl⟩
  exact ⟨r,World.step_log hstep ▸ List.mem_append_left _ hr,rfl⟩

end World

theorem Registered.position_eq {v : Watch} {db : Db} {last : ℤ} (h : Registered v db last) :
    position db v.cursorId = last := by
  obtain ⟨c,hc,hck,-,-,rfl⟩ := h.cursor
  rw [position,KeyedTable.get?_eq_some.mpr ⟨hc,hck⟩]
  rfl

def Watched (v : Watch) (w : World) (x : EventRow) : Prop :=
  x ∈ w.bus.live ∧ v.startId < x.eventId ∧ x.matchesSql v.filter = true

structure PollOk (v : Watch) (w : World) (g : GenPoint) : Prop where
  reads : ∀ r ∈ g.reads, r = (v.filter,position w.bus v.cursorId)
  logged : ∀ e ∈ g.batch, e.fixedPart ∈ w.logged
  matched : ∀ e ∈ g.batch, e.matchesSql v.filter = true
  above : ∀ e ∈ g.batch, v.startId < e.eventId
  sorted : g.batch.Pairwise (fun a b => a.eventId < b.eventId)
  le : ∀ e ∈ g.batch, e.eventId ≤ w.bus.eventSeq

def PushRow (v : Watch) (Q : EventRow → Prop) (w : World) (r : EventRow) : Prop :=
  r ∈ w.log ∧ v.startId < r.eventId ∧ Q r.fixedPart

structure Sourced (v : Watch) (Q : EventRow → Prop) (t : PushState) : Prop where
  prov : Provenance t.world
  registered : Registered v t.world.bus (position t.world.bus v.cursorId)
  floor : v.startId ≤ position t.world.bus v.cursorId
  reached : position t.world.bus v.cursorId = v.startId ∨
    ∃ y ∈ t.yielded, y.eventId = position t.world.bus v.cursorId
  produced : ∀ r ∈ t.produced, r ∈ t.world.log
  conn : ∀ c ∈ t.conn, ConnOk v.startId (PushRow v Q t.world) c
  gen : ∀ g ∈ t.gen, PollOk v t.world g
  yielded : ∀ y ∈ t.yielded, y.fixedPart ∈ t.world.logged ∧ v.startId < y.eventId ∧
    (y.matchesSql v.filter = true ∨ Q y.fixedPart)

def PushOk (v : Watch) (Q : EventRow → Prop) (t : PushState) (a : PushAction) : Prop :=
  (∀ b, a = .world b → RowsOk v t.world b) ∧ FanOut (fun r => Q r.fixedPart) t a

section Sourced

variable {v : Watch} {Q : EventRow → Prop} {opts : PushOpts} {cfg : DaemonConfig}
variable {t t' : PushState} {a : PushAction}

theorem PollOk.quiet {w : World} {g : GenPoint} (h : g.Quiet) : PollOk v w g := by
  refine ⟨?_,?_,?_,?_,?_,?_⟩ <;> simp [h.batch,h.reads]

theorem Sourced.world (h : Sourced v Q t) {b : Action} (hrows : RowsOk v t.world b) {w : World}
    (hstep : t.world.step b = some w) (hworld : t'.world = w) (hyielded : t'.yielded = t.yielded)
    (hgen : t'.gen = t.gen) (hproduced : t'.produced = t.produced ++ PushState.acceptedBy t.world b)
    (hconn : ∀ c ∈ t'.conn, ConnOk v.startId (PushRow v Q t.world) c) : Sourced v Q t' := by
  subst hworld
  have hkeep := World.step_rows hrows hstep
  have hpos : position t'.world.bus v.cursorId = position t.world.bus v.cursorId := by
    rw [position,position,hkeep.1]
  have hlog := World.step_log hstep
  have hgrow := World.step_logged hstep
  refine ⟨h.prov.step hstep,hpos ▸ h.registered.keep hkeep,hpos ▸ h.floor,?_,fun r hr => ?_,?_,?_,?_⟩
  · rw [hpos,hyielded]
    exact h.reached
  · rw [hproduced] at hr
    rw [hlog]
    rcases List.mem_append.mp hr with hr | hr
    · exact List.mem_append_left _ (h.produced r hr)
    · exact List.mem_append_right _ hr
  · exact fun c hc => (hconn c hc).mono fun r hr => ⟨hlog ▸ List.mem_append_left _ hr.1,hr.2⟩
  · intro g hg
    rw [hgen] at hg
    obtain ⟨hreads,hlogged,hmatched,habove,hsorted,hle⟩ := h.gen g hg
    exact ⟨fun r hr => hpos ▸ hreads r hr,fun e he => hgrow (hlogged e he),hmatched,habove,hsorted,
      fun e he => (hle e he).trans (World.step_live hstep).1⟩
  · intro y hy
    rw [hyielded] at hy
    exact ⟨hgrow (h.yielded y hy).1,(h.yielded y hy).2⟩

theorem persistAck_cases (opts : PushOpts) (env : GenEnv) (db : Db) (eventId : ℤ) :
    persistAck opts env db eventId = db ∨
      persistAck opts env db eventId = updateCursors db opts.cursorId eventId env.now := by
  unfold persistAck
  split_ifs
  · exact .inl rfl
  · split
    · rename_i db' hack
      exact .inr (moveCursor_ok (ack_ok hack))
    · exact .inl rfl

theorem sameEvents_persistAck (opts : PushOpts) (env : GenEnv) (db : Db) (eventId : ℤ) :
    SameEvents db (persistAck opts env db eventId) := by
  rcases persistAck_cases opts env db eventId with h | h <;> rw [h] <;> exact ⟨rfl,rfl,rfl⟩

theorem Registered.persistAck {db : Db} {last : ℤ} (h : Registered v db last)
    (hcursor : opts.cursorId = v.cursorId) (env : GenEnv) (eventId : ℤ) :
    Registered v (persistAck opts env db eventId) last ∨
      Registered v (persistAck opts env db eventId) eventId := by
  rcases persistAck_cases opts env db eventId with hdb | hdb
  · exact .inl (hdb.symm ▸ h)
  · exact .inr (by rw [hdb,hcursor]; exact h.update eventId env.now)

theorem Sourced.hand (h : Sourced v Q t) (hcursor : opts.cursorId = v.cursorId) {env : GenEnv}
    {conn : Option Conn} {e : EventRow} {q : GenPoint}
    (hconn : ∀ c ∈ conn, ConnOk v.startId (PushRow v Q t.world) c)
    (hlogged : e.fixedPart ∈ t.world.logged) (habove : v.startId < e.eventId)
    (hmatch : e.matchesSql v.filter = true ∨ Q e.fixedPart) (hq : PollOk v t.world q)
    (hreads : q.reads = none) : Sourced v Q (t.hand opts env conn e q) := by
  have hsame := sameEvents_persistAck opts env t.world.bus e.eventId
  have hreg := h.registered.persistAck hcursor env e.eventId
  have hpos : position (persistAck opts env t.world.bus e.eventId) v.cursorId =
      position t.world.bus v.cursorId ∨
      position (persistAck opts env t.world.bus e.eventId) v.cursorId = e.eventId :=
    hreg.imp Registered.position_eq Registered.position_eq
  refine ⟨h.prov.sameEvents hsame,?_,?_,?_,h.produced,hand_conn hconn e q,?_,?_⟩
  · rcases hreg with hreg | hreg <;> exact hreg.position_eq.symm ▸ hreg
  · rcases hpos with hpos | hpos
    · exact hpos.symm ▸ h.floor
    · exact hpos.symm ▸ habove.le
  · rcases hpos with hpos | hpos
    · refine h.reached.imp hpos.trans fun ⟨y,hy,hyid⟩ => ⟨y,List.mem_append_left _ hy,hyid.trans hpos.symm⟩
    · exact .inr ⟨e,by simp [PushState.hand],hpos.symm⟩
  · rintro _ ⟨⟩
    refine ⟨by simp [hreads],hq.logged,hq.matched,hq.above,hq.sorted,fun x hx => ?_⟩
    exact (hq.le x hx).trans hsame.eventSeq.ge
  · intro y hy
    rcases List.mem_append.mp hy with hy | hy
    · exact h.yielded y hy
    · obtain rfl := List.mem_singleton.mp hy
      exact ⟨hlogged,habove,hmatch⟩

theorem PollOk.tail {w : World} {p q : GenPoint} {e : EventRow} (h : PollOk v w p)
    (hbatch : p.batch = e :: q.batch) (hreads : q.reads = none) : PollOk v w q := by
  obtain ⟨-,hlogged,hmatched,habove,hsorted,hle⟩ := h
  rw [hbatch] at hlogged hmatched habove hsorted hle
  exact ⟨by simp [hreads],fun x hx => hlogged x (List.mem_cons_of_mem _ hx),
    fun x hx => hmatched x (List.mem_cons_of_mem _ hx),fun x hx => habove x (List.mem_cons_of_mem _ hx),
    (List.pairwise_cons.mp hsorted).2,fun x hx => hle x (List.mem_cons_of_mem _ hx)⟩

theorem pollRead_ok (h : Sourced v Q t) (hcursor : opts.cursorId = v.cursorId) {r : Text × ℤ}
    (hr : t.pollRead opts = .ok r) : r = (v.filter,position t.world.bus v.cursorId) := by
  obtain ⟨cursor,hc,hr⟩ := bind_eq_ok.mp hr
  obtain ⟨_,-,hr⟩ := bind_eq_ok.mp hr
  obtain ⟨filter,hf,hr⟩ := bind_eq_ok.mp hr
  obtain ⟨hsub,hlast⟩ := h.registered.pollCursor (hcursor ▸ hc)
  rw [← Except.ok.inj hr,h.registered.pollFilter hsub hf,hlast]

theorem Sourced.resolved (h : Sourced v Q t) {c : Conn} (hc : ConnOk v.startId (PushRow v Q t.world) c)
    {frame : Frame} (hmem : frame ∈ c.frames) {e : EventRow}
    (hres : resolveFromLive t.world.bus frame = some e) :
    e.fixedPart ∈ t.world.logged ∧ v.startId < e.eventId ∧ Q e.fixedPart := by
  have hframe := hc.carries frame hmem
  cases frame with
  | notify id ev =>
    obtain ⟨row,⟨hlog,habove,hQ⟩,rfl,hrow⟩ := hframe
    have hfix : e.fixedPart = row.fixedPart := by
      cases ev with
      | some x =>
        cases hres
        rw [hrow e rfl]
      | none =>
        obtain ⟨he,hid⟩ := KeyedTable.get?_eq_some.mp hres
        exact h.prov.logged_unique (h.prov.live (mem_live he)) ⟨row,hlog,rfl⟩ hid
    exact ⟨hfix ▸ ⟨row,hlog,rfl⟩,eventId_of_fixedPart hfix ▸ habove,hfix ▸ hQ⟩
  | _ => cases hres

theorem Sourced.step (h : Sourced v Q t) (hcursor : opts.cursorId = v.cursorId) (hok : PushOk v Q t a)
    (hstep : t.step opts cfg a = some t') : Sourced v Q t' := by
  have hpush : ∀ c ∈ t'.conn, ConnOk v.startId (PushRow v Q t.world) c := by
    refine push_conn h.conn ?_ (hcursor ▸ h.floor) hstep
    cases a with
    | arrive k now room =>
      intro row hrow c hc hsub hrecv
      have hlt : c.session.cursor < row.eventId := by
        simpa using (Bool.and_eq_true_iff.mp hrecv).2
      exact ⟨h.produced row (List.mem_of_getElem? hrow),((h.conn c hc).cursor hsub).trans_lt hlt,
        hok.2 row hrow c hc hsub hrecv⟩
    | _ => trivial
  cases push_move hstep with
  | world hw _ hworld hyielded hgen hproduced =>
    exact h.world (hok.1 _ rfl) hw hworld hyielded hgen hproduced hpush
  | still _ hworld hyielded hproduced hgen =>
    obtain ⟨world,produced,conn,gen,yielded⟩ := t'
    obtain rfl : world = t.world := hworld
    obtain rfl : yielded = t.yielded := hyielded
    refine ⟨h.prov,h.registered,h.floor,h.reached,fun r hr => h.produced r (hproduced r hr),hpush,?_,
      h.yielded⟩
    rcases hgen with hgen | hgen
    · exact fun g hg => h.gen g (hgen ▸ hg)
    · exact fun g hg => .quiet (hgen g hg)
  | read hr =>
    refine ⟨h.prov,h.registered,h.floor,h.reached,h.produced,h.conn,?_,h.yielded⟩
    rintro _ ⟨⟩
    refine ⟨fun r hr' => ?_,?_,?_,?_,.nil,?_⟩
    · rw [← Option.some.inj hr',pollRead_ok h hcursor hr]
    all_goals exact fun e he => (List.not_mem_nil he).elim
  | @polled _ filter last hg q hbatch hreads =>
    refine ⟨h.prov,h.registered,h.floor,h.reached,h.produced,h.conn,?_,h.yielded⟩
    rintro _ ⟨⟩
    have hread := (h.gen _ hg).reads (filter,last) rfl
    obtain ⟨rfl,rfl⟩ := Prod.mk.inj hread
    refine ⟨by simp [hreads],fun e he => ?_,fun e he => ?_,fun e he => ?_,?_,fun e he => ?_⟩
    · exact h.prov.live (mem_live (mem_pollSelect (hbatch ▸ he)).1)
    · exact (mem_pollSelect (hbatch ▸ he)).2.2
    · exact h.floor.trans_lt (mem_pollSelect (hbatch ▸ he)).2.1
    · exact hbatch ▸ pollSelect_sorted _ _ _ _
    · exact t.world.bus.events_le_seq e (mem_pollSelect (hbatch ▸ he)).1
  | @batch env e p q hg hbatch hreads =>
    have hp := h.gen p hg
    have hmem : e ∈ p.batch := hbatch ▸ List.mem_cons_self
    exact h.hand hcursor h.conn (hp.logged e hmem) (hp.above e hmem) (.inl (hp.matched e hmem))
      (hp.tail hbatch hreads) hreads
  | @frame env c frame client e hg hconn hnext hres =>
    have hc := h.conn c hconn
    have hmem : frame ∈ c.frames := mem_frames.mpr (.inr (.inr (mem_next hnext).1))
    obtain ⟨hlogged,habove,hQ⟩ := h.resolved hc hmem hres
    refine h.hand hcursor ?_ hlogged habove (.inr hQ) (.quiet ⟨rfl,rfl⟩) rfl
    rintro _ ⟨⟩
    exact next_conn hc hnext

end Sourced

def PushState.taking (t : PushState) : Option EventRow :=
  match t.gen, t.conn with
  | some .push, some c => c.client.next.bind (fun r => resolveFromLive t.world.bus r.1)
  | _, _ => none

theorem PushState.taking_eq {t : PushState} {c : Conn} {frame : Frame} {client : Client} {e : EventRow}
    (hg : t.gen = some .push) (hconn : t.conn = some c) (hnext : c.client.next = some (frame,client))
    (hres : resolveFromLive t.world.bus frame = some e) : t.taking = some e := by
  simp [PushState.taking,hg,hconn,hnext,hres]

def TakesInOrder (v : Watch) (t : PushState) : PushAction → Prop
  | .gen _ => ∀ e ∈ t.taking, ∀ x ∈ t.world.bus.events.rows, v.startId < x.eventId →
      x.matchesSql v.filter = true → x.eventId < e.eventId → ∃ y ∈ t.yielded, y.eventId = x.eventId
  | _ => True

instance (v : Watch) (t : PushState) : ∀ a, Decidable (TakesInOrder v t a)
  | .gen _ => inferInstanceAs (Decidable (∀ e ∈ t.taking, ∀ x ∈ t.world.bus.events.rows, v.startId < x.eventId →
      x.matchesSql v.filter = true → x.eventId < e.eventId → ∃ y ∈ t.yielded, y.eventId = x.eventId))
  | .world _ | .arrive .. | .lose _ | .daemonRead | .drained _ | .stopDaemon _ | .unregister | .disconnect
  | .clientRead | .stop | .start _ => .isTrue trivial

def AckLanded (v : Watch) (t : PushState) : Prop :=
  ∀ y ∈ t.yielded.getLast?, position t.world.bus v.cursorId = y.eventId

instance (v : Watch) (t : PushState) : Decidable (AckLanded v t) :=
  inferInstanceAs (Decidable (∀ y ∈ t.yielded.getLast?, position t.world.bus v.cursorId = y.eventId))

def TakesAboveCursor (v : Watch) (t : PushState) : PushAction → Prop
  | .gen _ => (∀ e ∈ t.taking, AckLanded v t ∧ position t.world.bus v.cursorId < e.eventId) ∧
      ∀ g ∈ t.gen, g.reads.isSome = true → AckLanded v t
  | _ => True

instance (v : Watch) (t : PushState) : ∀ a, Decidable (TakesAboveCursor v t a)
  | .gen _ => inferInstanceAs (Decidable
      ((∀ e ∈ t.taking, AckLanded v t ∧ position t.world.bus v.cursorId < e.eventId) ∧
        ∀ g ∈ t.gen, g.reads.isSome = true → AckLanded v t))
  | .world _ | .arrive .. | .lose _ | .daemonRead | .drained _ | .stopDaemon _ | .unregister | .disconnect
  | .clientRead | .stop | .start _ => .isTrue trivial

def PushesMatch (v : Watch) (x : EventRow) : Prop := x.matchesSql v.filter = true

structure NoLoss (v : Watch) (t : PushState) : Prop where
  sourced : Sourced v (fun _ => True) t
  safe : ∀ x, Watched v t.world x → x.eventId ≤ position t.world.bus v.cursorId →
    ∃ y ∈ t.yielded, y.eventId = x.eventId
  batch : ∀ g ∈ t.gen, ∀ x, Watched v t.world x → (∃ y ∈ t.yielded, y.eventId = x.eventId) ∨
    (∃ e ∈ g.batch, e.eventId = x.eventId) ∨ ∀ e ∈ g.batch, e.eventId < x.eventId

structure Once (v : Watch) (t : PushState) : Prop where
  sourced : Sourced v (fun _ => True) t
  sorted : t.yielded.Pairwise (fun a b => a.eventId < b.eventId)
  batch : ∀ g ∈ t.gen, ∀ e ∈ g.batch, ∀ y ∈ t.yielded, y.eventId < e.eventId

section Contract

variable {v : Watch} {opts : PushOpts} {cfg : DaemonConfig} {t t' : PushState} {a : PushAction}

theorem position_hand (hreg : Registered v t.world.bus (position t.world.bus v.cursorId))
    (hcursor : opts.cursorId = v.cursorId) (env : GenEnv) (conn : Option Conn) (e : EventRow)
    (q : GenPoint) :
    position (t.hand opts env conn e q).world.bus v.cursorId = position t.world.bus v.cursorId ∨
      position (t.hand opts env conn e q).world.bus v.cursorId = e.eventId :=
  (hreg.persistAck hcursor env e.eventId).imp Registered.position_eq Registered.position_eq

theorem watched_hand {env : GenEnv} {conn : Option Conn} {e x : EventRow} {q : GenPoint} :
    Watched v (t.hand opts env conn e q).world x ↔ Watched v t.world x := by
  have hlive := (sameEvents_persistAck opts env t.world.bus e.eventId).live
  simp only [Watched,PushState.hand,hlive]

theorem NoLoss.hand (h : NoLoss v t) (hcursor : opts.cursorId = v.cursorId) {env : GenEnv}
    {conn : Option Conn} {e : EventRow} {q : GenPoint}
    (hsourced : Sourced v (fun _ => True) (t.hand opts env conn e q))
    (habove : ∀ x, Watched v t.world x → x.eventId < e.eventId → ∃ y ∈ t.yielded, y.eventId = x.eventId)
    (hbatch : ∀ x, Watched v t.world x → (∃ y ∈ (t.hand opts env conn e q).yielded, y.eventId = x.eventId) ∨
      (∃ e ∈ q.batch, e.eventId = x.eventId) ∨ ∀ e ∈ q.batch, e.eventId < x.eventId) :
    NoLoss v (t.hand opts env conn e q) := by
  have hgrow : ∀ i, (∃ y ∈ t.yielded, y.eventId = i) →
      ∃ y ∈ (t.hand opts env conn e q).yielded, y.eventId = i := by
    rintro i ⟨y,hy,hyi⟩
    exact ⟨y,List.mem_append_left _ hy,hyi⟩
  refine ⟨hsourced,fun x hx hle => ?_,?_⟩
  · have hx' := watched_hand.mp hx
    rcases position_hand h.sourced.registered hcursor env conn e q with hpos | hpos
    · exact hgrow _ (h.safe x hx' (hpos ▸ hle))
    · rw [hpos] at hle
      rcases hle.lt_or_eq with hlt | heq
      · exact hgrow _ (habove x hx' hlt)
      · exact ⟨e,by simp [PushState.hand],heq.symm⟩
  · rintro _ ⟨⟩
    exact fun x hx => hbatch x (watched_hand.mp hx)

theorem NoLoss.step (h : NoLoss v t) (hcursor : opts.cursorId = v.cursorId)
    (hrows : ∀ b, a = .world b → RowsOk v t.world b) (hok : TakesInOrder v t a)
    (hstep : t.step opts cfg a = some t') : NoLoss v t' := by
  have hfan : FanOut (fun _ => True) t a := by
    cases a <;> first | trivial | exact fun _ _ _ _ _ _ => trivial
  have hsourced := h.sourced.step hcursor ⟨hrows,hfan⟩ hstep
  cases push_move hstep with
  | @world b _ hw _ hworld hyielded hgen hproduced =>
    subst hworld
    have hkeep := World.step_rows (hrows b rfl) hw
    have hpos : position t'.world.bus v.cursorId = position t.world.bus v.cursorId := by
      rw [position,position,hkeep.1]
    have hfresh : ∀ x, Watched v t'.world x → Watched v t.world x ∨ t.world.bus.eventSeq < x.eventId :=
      fun x hx => ((World.step_live hw).2 x hx.1).imp_left (fun hlive => ⟨hlive,hx.2⟩)
    refine ⟨hsourced,fun x hx hle => ?_,fun g hg x hx => ?_⟩
    · rw [hyielded]
      rw [hpos] at hle
      rcases hfresh x hx with hx' | hlt
      · exact h.safe x hx' hle
      · rcases h.sourced.reached with hstart | ⟨y,hy,hyid⟩
        · have := hx.2.1
          omega
        · obtain ⟨r,hr,hry⟩ := (h.sourced.yielded y hy).1
          have hseq := h.sourced.prov.log_le r hr
          rw [eventId_of_fixedPart hry] at hseq
          omega
    · rw [hyielded]
      rw [hgen] at hg
      rcases hfresh x hx with hx' | hlt
      · exact h.batch g hg x hx'
      · exact .inr (.inr fun e he => ((h.sourced.gen g hg).le e he).trans_lt hlt)
  | still _ hworld hyielded hproduced hgen =>
    obtain ⟨world,produced,conn,gen,yielded⟩ := t'
    obtain rfl : world = t.world := hworld
    obtain rfl : yielded = t.yielded := hyielded
    refine ⟨hsourced,h.safe,fun g hg x hx => ?_⟩
    rcases hgen with hgen | hgen
    · exact h.batch g (hgen ▸ hg) x hx
    · exact .inr (.inr (by simp [(hgen g hg).batch]))
  | read hr =>
    refine ⟨hsourced,h.safe,?_⟩
    rintro _ ⟨⟩ x hx
    exact .inr (.inr fun e he => (List.not_mem_nil he).elim)
  | @polled _ filter last hg q hbatch hreads =>
    refine ⟨hsourced,h.safe,?_⟩
    rintro _ ⟨⟩ x hx
    have hread := (h.sourced.gen _ hg).reads (filter,last) rfl
    obtain ⟨rfl,rfl⟩ := Prod.mk.inj hread
    rcases le_or_gt x.eventId (position t.world.bus v.cursorId) with hle | hlt
    · exact .inl (h.safe x hx hle)
    · obtain ⟨⟨r,hr,rfl⟩,-,hmatch⟩ := hx
      rw [hbatch]
      rcases pollSelect_cover (n := pushBatchSize) hr hlt hmatch with hmem | hall
      · exact .inr (.inl ⟨r,hmem,rfl⟩)
      · exact .inr (.inr hall)
  | @batch env e p q hg hbatch hreads =>
    have hcover := h.batch p hg
    have hsorted := (h.sourced.gen p hg).sorted
    rw [hbatch] at hcover hsorted
    refine h.hand hcursor hsourced (fun x hx hlt => ?_) (fun x hx => ?_)
    · rcases hcover x hx with hy | ⟨z,hz,hzx⟩ | hall
      · exact hy
      · rcases List.mem_cons.mp hz with rfl | hz
        · omega
        · have := (List.pairwise_cons.mp hsorted).1 z hz
          omega
      · have := hall e List.mem_cons_self
        omega
    · rcases hcover x hx with ⟨y,hy,hyx⟩ | ⟨z,hz,hzx⟩ | hall
      · exact .inl ⟨y,List.mem_append_left _ hy,hyx⟩
      · rcases List.mem_cons.mp hz with rfl | hz
        · exact .inl ⟨z,by simp [PushState.hand],hzx⟩
        · exact .inr (.inl ⟨z,hz,hzx⟩)
      · exact .inr (.inr fun z hz => hall z (List.mem_cons_of_mem _ hz))
  | @frame env c frame client e hg hconn hnext hres =>
    refine h.hand hcursor hsourced (fun x hx hlt => ?_) (fun x hx => .inr (.inr (by simp [GenPoint.batch])))
    obtain ⟨⟨r,hr,rfl⟩,hstart,hmatch⟩ := hx
    exact hok e (PushState.taking_eq hg hconn hnext hres) r hr hstart hmatch hlt

theorem Once.hand (h : Once v t) {env : GenEnv} {conn : Option Conn} {e : EventRow} {q : GenPoint}
    (hsourced : Sourced v (fun _ => True) (t.hand opts env conn e q))
    (habove : ∀ y ∈ t.yielded, y.eventId < e.eventId) (hbatch : ∀ x ∈ q.batch, e.eventId < x.eventId) :
    Once v (t.hand opts env conn e q) := by
  refine ⟨hsourced,?_,?_⟩
  · refine List.pairwise_append.mpr ⟨h.sorted,List.pairwise_singleton _ _,fun y hy x hx => ?_⟩
    rw [List.mem_singleton.mp hx]
    exact habove y hy
  · rintro _ ⟨⟩ x hx y hy
    rcases List.mem_append.mp hy with hy | hy
    · exact (habove y hy).trans (hbatch x hx)
    · rw [List.mem_singleton.mp hy]
      exact hbatch x hx

theorem Once.position_le (h : Once v t) (hcursor : opts.cursorId = v.cursorId) (env : GenEnv)
    (conn : Option Conn) {e : EventRow} (q : GenPoint) (hstart : v.startId < e.eventId)
    (habove : ∀ y ∈ t.yielded, y.eventId < e.eventId) :
    position t.world.bus v.cursorId ≤ position (t.hand opts env conn e q).world.bus v.cursorId := by
  rcases position_hand h.sourced.registered hcursor env conn e q with hpos | hpos
  · exact hpos.ge
  · rw [hpos]
    rcases h.sourced.reached with hreach | ⟨y,hy,hyid⟩
    · exact hreach.trans_le hstart.le
    · exact hyid ▸ (habove y hy).le

theorem Once.le_position (h : Once v t) (hlanded : AckLanded v t) :
    ∀ y ∈ t.yielded, y.eventId ≤ position t.world.bus v.cursorId := by
  intro y hy
  have hsorted := h.sorted
  obtain ⟨ys,last,hlast⟩ := List.eq_nil_or_concat' t.yielded |>.resolve_left (List.ne_nil_of_mem hy)
  have hposition := hlanded last (by rw [hlast]; exact List.getLast?_concat)
  rw [hlast] at hy hsorted
  rw [hposition]
  rcases List.mem_append.mp hy with hy | hy
  · exact ((List.pairwise_append.mp hsorted).2.2 y hy last (List.mem_singleton_self last)).le
  · exact (List.mem_singleton.mp hy ▸ le_rfl)

theorem Once.step (h : Once v t) (hcursor : opts.cursorId = v.cursorId)
    (hrows : ∀ b, a = .world b → RowsOk v t.world b) (hok : TakesAboveCursor v t a)
    (hstep : t.step opts cfg a = some t') :
    Once v t' ∧ position t.world.bus v.cursorId ≤ position t'.world.bus v.cursorId := by
  have hfan : FanOut (fun _ => True) t a := by
    cases a <;> first | trivial | exact fun _ _ _ _ _ _ => trivial
  have hsourced := h.sourced.step hcursor ⟨hrows,hfan⟩ hstep
  cases push_move hstep with
  | @world b _ hw _ hworld hyielded hgen hproduced =>
    subst hworld
    have hkeep := World.step_rows (hrows b rfl) hw
    refine ⟨⟨hsourced,hyielded ▸ h.sorted,fun g hg => ?_⟩,?_⟩
    · rw [hyielded]
      exact h.batch g (hgen ▸ hg)
    · rw [position,position,hkeep.1]
  | still _ hworld hyielded hproduced hgen =>
    obtain ⟨world,produced,conn,gen,yielded⟩ := t'
    obtain rfl : world = t.world := hworld
    obtain rfl : yielded = t.yielded := hyielded
    refine ⟨⟨hsourced,h.sorted,fun g hg => ?_⟩,le_rfl⟩
    rcases hgen with hgen | hgen
    · exact h.batch g (hgen ▸ hg)
    · simp [(hgen g hg).batch]
  | read hr =>
    refine ⟨⟨hsourced,h.sorted,?_⟩,le_rfl⟩
    rintro _ ⟨⟩ e he
    exact (List.not_mem_nil he).elim
  | @polled _ filter last hg q hbatch hreads =>
    refine ⟨⟨hsourced,h.sorted,?_⟩,le_rfl⟩
    rintro _ ⟨⟩ e he
    have hread := (h.sourced.gen _ hg).reads (filter,last) rfl
    obtain ⟨rfl,rfl⟩ := Prod.mk.inj hread
    have hlast := (mem_pollSelect (hbatch ▸ he)).2.1
    exact fun y hy => (h.le_position (hok.2 _ hg rfl) y hy).trans_lt hlast
  | @batch env e p q hg hbatch hreads =>
    have hmem : e ∈ p.batch := hbatch ▸ List.mem_cons_self
    have habove := h.batch p hg e hmem
    have hsorted := (h.sourced.gen p hg).sorted
    rw [hbatch] at hsorted
    exact ⟨h.hand hsourced habove (List.pairwise_cons.mp hsorted).1,
      h.position_le hcursor env t.conn q ((h.sourced.gen p hg).above e hmem) habove⟩
  | @frame env c frame client e hg hconn hnext hres =>
    obtain ⟨hlanded,hposition⟩ := hok.1 e (PushState.taking_eq hg hconn hnext hres)
    have habove : ∀ y ∈ t.yielded, y.eventId < e.eventId :=
      fun y hy => (h.le_position hlanded y hy).trans_lt hposition
    have hmem : frame ∈ c.frames := mem_frames.mpr (.inr (.inr (mem_next hnext).1))
    have hstart := (h.sourced.resolved (h.sourced.conn c hconn) hmem hres).2.1
    exact ⟨h.hand hsourced habove (by simp [GenPoint.batch]),
      h.position_le hcursor env _ _ hstart habove⟩

end Contract

end WickedBus
