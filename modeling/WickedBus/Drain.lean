import WickedBus.Ordering
import WickedBus.Paging

namespace WickedBus

open GuardedRun
open WickedBus.Filter (Text)

inductive OnStale where
  | recover | fail
  deriving DecidableEq, Repr

structure DrainOpts where
  cursorId : String
  batchSize : ℕ
  noAck : Bool
  idleTimeoutMs : Option ℚ
  onStale : OnStale
  deriving DecidableEq, Repr

inductive DrainPhase where
  | begin
  | selectCursor
  | selectMin (cursor : CursorRow)
  | selectFilter (cursor : CursorRow)
  | selectEvents (filter : Text)
  | recoverFromStale (lastEventId oldest : ℤ)
  | deliver (events : List EventRow)
  | ackSelect (event : EventRow) (rest : List EventRow)
  | ackUpdate (event : EventRow) (rest : List EventRow)
  | waiting
  | ended
  | threw (err : StatementError)
  deriving DecidableEq, Repr

structure Drain where
  phase : DrainPhase
  startId : ℤ
  floor : ℤ
  idleDeadline : Option ℚ
  written : List EventRow
  emptyPoll : Option Db

def Drain.start : Drain := ⟨.begin,0,0,none,[],none⟩

structure DrainEnv where
  failure : Option SqliteError
  now : ℤ
  stopping : Bool
  deriving DecidableEq, Repr

def DrainEnv.statement {α : Type} (env : DrainEnv) (x : Except StatementError α) : Except StatementError α :=
  match env.failure with
  | some e => .error (.sqlite e)
  | none => x

def Drain.goto (d : Drain) (phase : DrainPhase) : Drain := { d with phase := phase }

def DrainOpts.deadline (opts : DrainOpts) (env : DrainEnv) : Option ℚ :=
  opts.idleTimeoutMs.map (fun ms => (env.now : ℚ) + ms)

def Drain.pollThrew (opts : DrainOpts) (d : Drain) : StatementError → Drain
  | .bus (.cursorBehindTtlWindow lastEventId oldest) =>
    if opts.onStale = .recover then d.goto (.recoverFromStale lastEventId oldest)
    else d.goto (.threw (.bus (.cursorBehindTtlWindow lastEventId oldest)))
  | err => d.goto (.threw err)

def Drain.queueEmpty (env : DrainEnv) (db : Db) (d : Drain) : Drain :=
  let d := { d with emptyPoll := some db }
  match d.idleDeadline with
  | none => d.goto .ended
  | some deadline => if deadline ≤ (env.now : ℚ) then d.goto .ended else d.goto .waiting

def drainStep (opts : DrainOpts) (env : DrainEnv) (db : Db) (d : Drain) : Option (Drain × Db) :=
  match d.phase with
  | .begin =>
    match env.statement (.ok (db.cursors.get? opts.cursorId)) with
    | .error err => some (d.goto (.threw err),db)
    | .ok cursor =>
      let floor := (cursor.map CursorRow.lastEventId).getD 0
      some ({ d with
        phase := .selectCursor
        startId := floor
        floor := floor
        idleDeadline := opts.deadline env },db)
  | .selectCursor =>
    match env.statement (ofBus (pollCursor db opts.cursorId)) with
    | .error err => some (d.pollThrew opts err,db)
    | .ok cursor => some (d.goto (.selectMin cursor),db)
  | .selectMin cursor =>
    match env.statement (ofBus (pollWindow db cursor)) with
    | .error err => some (d.pollThrew opts err,db)
    | .ok _ => some (d.goto (.selectFilter cursor),db)
  | .selectFilter cursor =>
    match env.statement (ofBus (pollFilter db cursor)) with
    | .error err => some (d.pollThrew opts err,db)
    | .ok filter => some (d.goto (.selectEvents filter),db)
  | .selectEvents filter =>
    match env.statement (.ok (pollSelect db filter d.floor (effectiveBatchSize opts.batchSize))) with
    | .error err => some (d.pollThrew opts err,db)
    | .ok [] => some (d.queueEmpty env db,db)
    | .ok (event :: rest) => some (d.goto (.deliver (event :: rest)),db)
  | .recoverFromStale _ oldest =>
    match env.statement (ofBus (reanchorCursor db opts.cursorId (oldest - 1) env.now)) with
    | .error err => some (d.goto (.threw err),db)
    | .ok db' => some ({ d with phase := .selectCursor, floor := oldest - 1 },db')
  | .deliver [] => some ({ d with
      phase := .selectCursor
      idleDeadline := if opts.idleTimeoutMs.isSome then opts.deadline env else d.idleDeadline },db)
  | .deliver (event :: rest) => some ({ d with
      phase := if opts.noAck then .deliver rest else .ackSelect event rest
      floor := event.eventId
      written := d.written ++ [event] },db)
  | .ackSelect event rest =>
    match env.statement (ofBus (pollCursor db opts.cursorId)) with
    | .error err => some (d.goto (.threw err),db)
    | .ok _ => some (d.goto (.ackUpdate event rest),db)
  | .ackUpdate event rest =>
    match env.statement (ofBus (moveCursor db opts.cursorId event.eventId env.now)) with
    | .error err => some (d.goto (.threw err),db)
    | .ok db' => some (d.goto (.deliver rest),db')
  | .waiting => some (d.goto (if env.stopping then .ended else .selectCursor),db)
  | .ended => none
  | .threw _ => none

structure DrainSystem where
  world : World
  drain : Drain

inductive DrainAction where
  | world (a : Action)
  | drain (env : DrainEnv)
  deriving DecidableEq, Repr

def DrainSystem.start (w : World) : DrainSystem := ⟨w,.start⟩

def DrainSystem.step (opts : DrainOpts) (t : DrainSystem) : DrainAction → Option DrainSystem
  | .world a => (t.world.step a).map (fun w => { t with world := w })
  | .drain env => (drainStep opts env t.world.bus t.drain).map
      (fun r => ⟨{ t.world with bus := r.2 },r.1⟩)

def RecoversForward (filter : Text) (db : Db) (d : Drain) : Prop :=
  ∀ lastEventId oldest, d.phase = .recoverFromStale lastEventId oldest →
    ∀ x ∈ db.events, x.matchesSql filter = true → d.floor < x.eventId

def DrainOk (opts : DrainOpts) (filter : Text) (t : DrainSystem) : DrainAction → Prop
  | .world a => ∀ w, t.world.step a = some w →
      w.bus.cursors.get? opts.cursorId = t.world.bus.cursors.get? opts.cursorId
  | .drain _ => opts.noAck = true → RecoversForward filter t.world.bus t.drain

structure Writes (filter : Text) (db : Db) (d : Drain) : Prop where
  sorted : d.written.Pairwise (fun a b => a.eventId < b.eventId)
  le : ∀ y ∈ d.written, y.eventId ≤ db.eventSeq
  bound : d.floor ≤ d.startId ∨ d.floor ≤ db.eventSeq
  fresh : ∀ y ∈ d.written, ∀ x ∈ db.live, x.matchesSql filter = true → d.floor < x.eventId →
    y.eventId < x.eventId
  complete : ∀ x ∈ db.live, x.matchesSql filter = true → d.startId < x.eventId → x.eventId ≤ d.floor →
    ∃ y ∈ d.written, y.eventId = x.eventId
  drained : ∀ db₀ ∈ d.emptyPoll, ∀ x ∈ db₀.events, x.matchesSql filter = true → d.startId < x.eventId →
    ∃ y ∈ d.written, y.eventId = x.eventId

structure Delivers (filter : Text) (db : Db) (d : Drain) (batch : List EventRow) : Prop where
  sorted : batch.Pairwise (fun a b => a.eventId < b.eventId)
  above : ∀ e ∈ batch, d.floor < e.eventId
  le : ∀ e ∈ batch, e.eventId ≤ db.eventSeq
  after : ∀ y ∈ d.written, ∀ e ∈ batch, y.eventId < e.eventId
  cover : ∀ x ∈ db.live, x.matchesSql filter = true → d.floor < x.eventId →
    (∃ e ∈ batch, e.eventId = x.eventId) ∨ ∀ e ∈ batch, e.eventId < x.eventId

def DrainPhase.synced : DrainPhase → Bool
  | .begin | .ackSelect _ _ | .ackUpdate _ _ | .ended | .threw _ => false
  | _ => true

def DrainPhase.begun : DrainPhase → Bool
  | .begin | .threw _ => false
  | _ => true

def PhaseAt (opts : DrainOpts) (filter : Text) (db : Db) (d : Drain) : DrainPhase → Prop
  | .begin => d.written = [] ∧ d.emptyPoll = none
  | .selectMin cursor | .selectFilter cursor =>
    (opts.noAck = false → cursor.lastEventId = d.floor) ∧ HasFilter filter db cursor.subscriptionId
  | .selectEvents f => f = filter
  | .recoverFromStale _ oldest => (opts.noAck = false → d.floor < oldest - 1) ∧ oldest ≤ db.eventSeq ∧
      ∀ x ∈ db.live, oldest ≤ x.eventId
  | .deliver batch => Delivers filter db d batch
  | .ackSelect event rest | .ackUpdate event rest => event.eventId = d.floor ∧ Delivers filter db d rest
  | .waiting | .ended => d.emptyPoll.isSome
  | _ => True

structure DrainAt (opts : DrainOpts) (filter : Text) (startId : ℤ) (db : Db) (d : Drain) : Prop where
  writes : Writes filter db d
  placed : ∃ last, Placed opts.cursorId filter db last ∧
    (d.phase.synced = true → opts.noAck = false → last = d.floor) ∧ (d.phase = .begin → last = startId)
  begun : d.phase.begun = true → d.startId = startId
  phase : PhaseAt opts filter db d d.phase

section World

variable {opts : DrainOpts} {filter : Text} {w w' : World} {d : Drain} {a : Action} {batch : List EventRow}
  {startId : ℤ}

theorem Writes.world (h : Writes filter w.bus d) (hstep : w.step a = some w') : Writes filter w'.bus d := by
  obtain ⟨hseq,hlive⟩ := World.step_live hstep
  refine ⟨h.sorted,fun y hy => (h.le y hy).trans hseq,h.bound.imp_right hseq.trans',
    fun y hy x hx hmatch hfloor => ?_,fun x hx hmatch hstart hfloor => ?_,h.drained⟩
  · rcases hlive x hx with hold | hnew
    · exact h.fresh y hy x hold hmatch hfloor
    · exact (h.le y hy).trans_lt hnew
  · rcases hlive x hx with hold | hnew
    · exact h.complete x hold hmatch hstart hfloor
    · have := h.bound
      omega

theorem Delivers.world (h : Delivers filter w.bus d batch) (hstep : w.step a = some w') :
    Delivers filter w'.bus d batch := by
  obtain ⟨hseq,hlive⟩ := World.step_live hstep
  refine ⟨h.sorted,h.above,fun e he => (h.le e he).trans hseq,h.after,fun x hx hmatch hfloor => ?_⟩
  rcases hlive x hx with hold | hnew
  · exact h.cover x hold hmatch hfloor
  · exact .inr fun e he => (h.le e he).trans_lt hnew

theorem PhaseAt.world {phase : DrainPhase} (hstep : w.step a = some w') (h : PhaseAt opts filter w.bus d phase) :
    PhaseAt opts filter w'.bus d phase := by
  cases phase with
  | selectMin cursor | selectFilter cursor => exact ⟨h.1,World.step_filter hstep h.2⟩
  | recoverFromStale lastEventId oldest =>
    obtain ⟨hseq,hlive⟩ := World.step_live hstep
    refine ⟨h.1,h.2.1.trans hseq,fun x hx => ?_⟩
    rcases hlive x hx with hold | hnew
    · exact h.2.2 x hold
    · exact h.2.1.trans hnew.le
  | deliver batch => exact Delivers.world h hstep
  | ackSelect event rest | ackUpdate event rest => exact ⟨h.1,Delivers.world h.2 hstep⟩
  | begin | selectEvents f | waiting | ended => exact h
  | selectCursor | threw err => trivial

theorem DrainAt.world (h : DrainAt opts filter startId w.bus d) (hstep : w.step a = some w')
    (hrow : w'.bus.cursors.get? opts.cursorId = w.bus.cursors.get? opts.cursorId) :
    DrainAt opts filter startId w'.bus d := by
  obtain ⟨last,hplaced,hsync,hbegin⟩ := h.placed
  obtain ⟨c,hc,hlast,hfilter⟩ := hplaced.cursor
  exact ⟨h.writes.world hstep,⟨last,⟨c,hrow.trans hc,hlast,World.step_filter hstep hfilter⟩,hsync,hbegin⟩,
    h.begun,h.phase.world hstep⟩

end World

section Step

variable {opts : DrainOpts} {env : DrainEnv} {filter : Text} {db db' : Db} {d d' : Drain} {e : EventRow}
  {batch rest : List EventRow} {startId pos now : ℤ} {err : StatementError} {p : DrainPhase}

theorem DrainEnv.statement_ok {α : Type} {x : Except StatementError α} {a : α} (h : env.statement x = .ok a) :
    x = .ok a := by
  unfold DrainEnv.statement at h
  split at h
  · cases h
  · exact h

theorem DrainEnv.statement_error {α : Type} {x : Except StatementError α}
    (h : env.statement x = .error err) : (∃ s, err = .sqlite s) ∨ x = .error err := by
  unfold DrainEnv.statement at h
  split at h
  · exact .inl ⟨_,(Except.error.inj h).symm⟩
  · exact .inr h

theorem Writes.same (h : Writes filter db d) (hsame : SameEvents db db') : Writes filter db' d :=
  ⟨h.sorted,fun y hy => hsame.eventSeq ▸ h.le y hy,hsame.eventSeq ▸ h.bound,
    fun y hy x hx => h.fresh y hy x (hsame.live ▸ hx),fun x hx => h.complete x (hsame.live ▸ hx),h.drained⟩

theorem Delivers.same (h : Delivers filter db d batch) (hsame : SameEvents db db') :
    Delivers filter db' d batch :=
  ⟨h.sorted,h.above,fun e he => hsame.eventSeq ▸ h.le e he,h.after,fun x hx => h.cover x (hsame.live ▸ hx)⟩

theorem Writes.goto (h : Writes filter db d) (p : DrainPhase) : Writes filter db (d.goto p) :=
  ⟨h.sorted,h.le,h.bound,h.fresh,h.complete,h.drained⟩

theorem Delivers.goto (h : Delivers filter db d batch) (p : DrainPhase) : Delivers filter db (d.goto p) batch :=
  ⟨h.sorted,h.above,h.le,h.after,h.cover⟩

theorem Writes.deliver (h : Writes filter db d) (hb : Delivers filter db d (e :: rest)) (p : DrainPhase) :
    Writes filter db { d with phase := p, floor := e.eventId, written := d.written ++ [e] } := by
  have habove := hb.above e List.mem_cons_self
  have hhead : ∀ x ∈ db.live, x.matchesSql filter = true → d.floor < x.eventId → e.eventId ≤ x.eventId := by
    intro x hx hmatch hfloor
    rcases hb.cover x hx hmatch hfloor with ⟨y,hy,hid⟩ | hall
    · rcases List.mem_cons.mp hy with rfl | hy
      · exact hid.le
      · exact hid ▸ ((List.pairwise_cons.mp hb.sorted).1 y hy).le
    · exact (hall e List.mem_cons_self).le
  refine ⟨?_,?_,.inr (hb.le e List.mem_cons_self),?_,?_,?_⟩
  · refine List.pairwise_append.mpr ⟨h.sorted,List.pairwise_singleton _ _,fun y hy x hx => ?_⟩
    rw [List.mem_singleton.mp hx]
    exact hb.after y hy e List.mem_cons_self
  · intro y hy
    rcases List.mem_append.mp hy with hy | hy
    · exact h.le y hy
    · rw [List.mem_singleton.mp hy]
      exact hb.le e List.mem_cons_self
  · intro y hy x hx hmatch hfloor
    rcases List.mem_append.mp hy with hy | hy
    · exact h.fresh y hy x hx hmatch (habove.trans hfloor)
    · rw [List.mem_singleton.mp hy]
      exact hfloor
  · intro x hx hmatch hstart hfloor
    rcases le_or_gt x.eventId d.floor with hle | hlt
    · obtain ⟨y,hy,hid⟩ := h.complete x hx hmatch hstart hle
      exact ⟨y,List.mem_append_left _ hy,hid⟩
    · exact ⟨e,List.mem_append_right _ List.mem_cons_self,le_antisymm (hhead x hx hmatch hlt) hfloor⟩
  · intro db₀ hdb₀ x hx hmatch hstart
    obtain ⟨y,hy,hid⟩ := h.drained db₀ hdb₀ x hx hmatch hstart
    exact ⟨y,List.mem_append_left _ hy,hid⟩

theorem Delivers.tail (hb : Delivers filter db d (e :: rest)) (p : DrainPhase) :
    Delivers filter db { d with phase := p, floor := e.eventId, written := d.written ++ [e] } rest := by
  obtain ⟨hhead,hrest⟩ := List.pairwise_cons.mp hb.sorted
  refine ⟨hrest,hhead,fun x hx => hb.le x (List.mem_cons_of_mem _ hx),?_,?_⟩
  · intro y hy x hx
    rcases List.mem_append.mp hy with hy | hy
    · exact hb.after y hy x (List.mem_cons_of_mem _ hx)
    · rw [List.mem_singleton.mp hy]
      exact hhead x hx
  · intro x hx hmatch hfloor
    rcases hb.cover x hx hmatch ((hb.above e List.mem_cons_self).trans hfloor) with ⟨y,hy,hid⟩ | hall
    · rcases List.mem_cons.mp hy with rfl | hy
      · exact absurd hid hfloor.ne
      · exact .inl ⟨y,hy,hid⟩
    · exact .inr fun y hy => hall y (List.mem_cons_of_mem _ hy)

theorem Writes.select (h : Writes filter db d) (n : ℕ) :
    Delivers filter db d (pollSelect db filter d.floor n) := by
  refine ⟨pollSelect_sorted _ _ _ _,fun e he => (mem_pollSelect he).2.1,
    fun e he => db.events_le_seq e (mem_pollSelect he).1,fun y hy e he => ?_,?_⟩
  · obtain ⟨hmem,habove,hmatch⟩ := mem_pollSelect he
    exact h.fresh y hy e.fixedPart (mem_live hmem) hmatch habove
  · rintro _ ⟨y,hy,rfl⟩ hmatch hfloor
    have hrow : y.matchesSql filter = true := hmatch
    exact (pollSelect_cover hy hfloor hrow).imp_left fun hmem => ⟨y,hmem,rfl⟩

theorem effectiveBatchSize_pos (n : ℕ) : 0 < effectiveBatchSize n := by
  unfold effectiveBatchSize
  split_ifs <;> omega

theorem Writes.empty (h : Writes filter db d)
    (hempty : pollSelect db filter d.floor (effectiveBatchSize opts.batchSize) = []) :
    Writes filter db { d with emptyPoll := some db } := by
  have hnone : matchingRows db filter d.floor = [] :=
    (List.take_eq_nil_iff.mp hempty).resolve_left (effectiveBatchSize_pos _).ne'
  refine ⟨h.sorted,h.le,h.bound,h.fresh,h.complete,fun db₀ hdb₀ x hx hmatch hstart => ?_⟩
  cases hdb₀
  refine h.complete x.fixedPart (mem_live hx) hmatch hstart (not_lt.mp fun hlt => ?_)
  have hmem := mem_matchingRows.mpr ⟨hx,hlt,hmatch⟩
  rw [hnone] at hmem
  cases hmem

theorem Writes.recover {oldest : ℤ} (h : Writes filter db d) (hbound : oldest ≤ db.eventSeq)
    (hleast : ∀ x ∈ db.live, oldest ≤ x.eventId)
    (hforward : ∀ x ∈ db.live, x.matchesSql filter = true → d.floor < x.eventId)
    (p : DrainPhase) : Writes filter db { d with phase := p, floor := oldest - 1 } := by
  refine ⟨h.sorted,h.le,.inr (by show oldest - 1 ≤ db.eventSeq; omega),fun y hy x hx hmatch _ => ?_,
    fun x hx _ _ hfloor => ?_,h.drained⟩
  · exact h.fresh y hy x hx hmatch (hforward x hx hmatch)
  · have hle : x.eventId ≤ oldest - 1 := hfloor
    have := hleast x hx
    omega

theorem DrainAt.goto (h : DrainAt opts filter startId db d) (hbegun : d.phase.begun = true) (hp : p ≠ .begin)
    (hsync : p.synced = true → d.phase.synced = true) (hphase : PhaseAt opts filter db d p) :
    DrainAt opts filter startId db (d.goto p) := by
  obtain ⟨last,hplaced,hlast,-⟩ := h.placed
  refine ⟨h.writes.goto p,⟨last,hplaced,fun hs => hlast (hsync hs),fun heq => absurd heq hp⟩,
    fun _ => h.begun hbegun,?_⟩
  cases p with
  | deliver batch => exact Delivers.goto hphase _
  | ackSelect event rest | ackUpdate event rest => exact ⟨hphase.1,Delivers.goto hphase.2 _⟩
  | begin => exact absurd rfl hp
  | selectCursor | threw err => trivial
  | selectMin cursor | selectFilter cursor | selectEvents f | recoverFromStale last oldest | waiting | ended =>
    exact hphase

theorem DrainAt.threw (h : DrainAt opts filter startId db d) (err : StatementError) :
    DrainAt opts filter startId db (d.goto (.threw err)) := by
  obtain ⟨last,hplaced,-,-⟩ := h.placed
  exact ⟨h.writes.goto _,⟨last,hplaced,by simp [Drain.goto,DrainPhase.synced],by simp [Drain.goto]⟩,
    by simp [Drain.goto,DrainPhase.begun],trivial⟩

theorem pollThrew_plain (h : ∀ last oldest, err ≠ .bus (.cursorBehindTtlWindow last oldest)) :
    d.pollThrew opts err = d.goto (.threw err) := by
  unfold Drain.pollThrew
  split
  · exact absurd rfl (h _ _)
  · rfl

theorem statement_plain {α : Type} {x : Except BusError α} (h : env.statement (ofBus x) = .error err)
    (hx : ∀ b, x = .error b → ∃ m, b = .cursorNotFound m) (last oldest : ℤ) :
    err ≠ .bus (.cursorBehindTtlWindow last oldest) := by
  rintro rfl
  rcases DrainEnv.statement_error h with ⟨s,hs⟩ | hb
  · cases hs
  · obtain ⟨b,hb,hx'⟩ := ofBus_error hb
    obtain ⟨m,rfl⟩ := hx b hx'
    cases hb

theorem DrainAt.begin (h : DrainAt opts filter startId db d) (hd : d.phase = .begin) (deadline : Option ℚ) :
    DrainAt opts filter startId db { d with
      phase := .selectCursor
      startId := ((db.cursors.get? opts.cursorId).map CursorRow.lastEventId).getD 0
      floor := ((db.cursors.get? opts.cursorId).map CursorRow.lastEventId).getD 0
      idleDeadline := deadline } := by
  obtain ⟨last,hplaced,-,hstart⟩ := h.placed
  obtain ⟨c,hc,hlast,hfilter⟩ := hplaced.cursor
  have hphase := h.phase
  rw [hd] at hphase
  obtain ⟨hwritten,hempty⟩ := hphase
  have hfloor : ((db.cursors.get? opts.cursorId).map CursorRow.lastEventId).getD 0 = last := by
    rw [hc,← hlast]
    rfl
  rw [hfloor]
  refine ⟨⟨h.writes.sorted,h.writes.le,.inl le_rfl,?_,?_,?_⟩,⟨last,hplaced,fun _ _ => rfl,by simp⟩,
    fun _ => hstart hd,trivial⟩
  · intro y hy
    rw [hwritten] at hy
    cases hy
  · intro x _ _ hlow hhigh
    exact absurd hlow (not_lt.mpr hhigh)
  · intro db₀ hdb₀
    rw [hempty] at hdb₀
    cases hdb₀

theorem DrainAt.queueEmpty (h : DrainAt opts filter startId db d) (hd : d.phase = .selectEvents filter)
    (hempty : pollSelect db filter d.floor (effectiveBatchSize opts.batchSize) = []) :
    DrainAt opts filter startId db (d.queueEmpty env db) := by
  obtain ⟨last,hplaced,hlast,-⟩ := h.placed
  have hwrites := h.writes.empty hempty
  have hpos := hlast (by rw [hd]; rfl)
  have hstart := h.begun (by rw [hd]; rfl)
  have hnext : ∀ p, p = .ended ∨ p = .waiting →
      DrainAt opts filter startId db ({ d with emptyPoll := some db }.goto p) := by
    rintro p (rfl | rfl) <;>
      exact ⟨hwrites.goto _,⟨last,hplaced,fun _ => hpos,by simp [Drain.goto]⟩,fun _ => hstart,rfl⟩
  unfold Drain.queueEmpty
  dsimp only
  split
  · exact hnext _ (.inl rfl)
  · split_ifs
    · exact hnext _ (.inl rfl)
    · exact hnext _ (.inr rfl)

theorem DrainAt.recover {lastEventId oldest : ℤ} (h : DrainAt opts filter startId db d)
    (hd : d.phase = .recoverFromStale lastEventId oldest)
    (hok : opts.noAck = true → RecoversForward filter db d)
    (hmove : moveCursor db opts.cursorId (oldest - 1) now = .ok db') :
    DrainAt opts filter startId db' { d with phase := .selectCursor, floor := oldest - 1 } := by
  have hphase := h.phase
  rw [hd] at hphase
  obtain ⟨hgap,hbound,hleast⟩ := hphase
  obtain ⟨last,hplaced,-,-⟩ := h.placed
  have hforward : ∀ x ∈ db.live, x.matchesSql filter = true → d.floor < x.eventId := by
    rintro x hx hmatch
    cases hack : opts.noAck with
    | false =>
      have := hgap hack
      have := hleast x hx
      omega
    | true =>
      obtain ⟨y,hy,rfl⟩ := hx
      exact hok hack lastEventId oldest hd y hy hmatch
  exact ⟨(h.writes.recover hbound hleast hforward _).same (moveCursor_sameEvents hmove),
    ⟨oldest - 1,hplaced.move hmove,fun _ _ => rfl,by simp⟩,fun _ => h.begun (by rw [hd]; rfl),trivial⟩

theorem DrainAt.delivered (h : DrainAt opts filter startId db d) (hd : d.phase = .deliver (e :: rest)) :
    DrainAt opts filter startId db { d with
      phase := if opts.noAck then .deliver rest else .ackSelect e rest
      floor := e.eventId
      written := d.written ++ [e] } := by
  have hphase := h.phase
  rw [hd] at hphase
  obtain ⟨last,hplaced,-,-⟩ := h.placed
  have hstart := h.begun (by rw [hd]; rfl)
  cases hack : opts.noAck with
  | false =>
    exact ⟨h.writes.deliver hphase _,⟨last,hplaced,by simp [DrainPhase.synced],by simp⟩,fun _ => hstart,
      rfl,hphase.tail _⟩
  | true =>
    exact ⟨h.writes.deliver hphase _,⟨last,hplaced,by simp [hack],by simp⟩,fun _ => hstart,hphase.tail _⟩

theorem DrainAt.acked (h : DrainAt opts filter startId db d) (hd : d.phase = .ackUpdate e rest)
    (hmove : moveCursor db opts.cursorId e.eventId now = .ok db') :
    DrainAt opts filter startId db' (d.goto (.deliver rest)) := by
  have hphase := h.phase
  rw [hd] at hphase
  obtain ⟨hfloor,hbatch⟩ := hphase
  obtain ⟨last,hplaced,-,-⟩ := h.placed
  have hsame := moveCursor_sameEvents hmove
  exact ⟨(h.writes.goto _).same hsame,⟨e.eventId,hplaced.move hmove,fun _ _ => hfloor,by simp [Drain.goto]⟩,
    fun _ => h.begun (by rw [hd]; rfl),(hbatch.same hsame).goto _⟩

theorem DrainAt.step (h : DrainAt opts filter startId db d)
    (hok : opts.noAck = true → RecoversForward filter db d)
    (hstep : drainStep opts env db d = some (d',db')) : DrainAt opts filter startId db' d' := by
  have hphase := h.phase
  cases hd : d.phase with
  | begin =>
    simp only [drainStep,hd] at hstep
    split at hstep
    · cases hstep
      exact h.threw _
    · rename_i cursor hread
      cases hstep
      cases DrainEnv.statement_ok hread
      exact h.begin hd _
  | selectCursor =>
    simp only [drainStep,hd] at hstep
    split at hstep
    · rename_i err hread
      cases hstep
      rw [pollThrew_plain (statement_plain hread fun b hb => pollCursor_error hb)]
      exact h.threw _
    · rename_i cursor hread
      cases hstep
      obtain ⟨last,hplaced,hlast,-⟩ := h.placed
      obtain ⟨hpos,hfilter⟩ := hplaced.pollCursor (ofBus_ok (DrainEnv.statement_ok hread))
      exact h.goto (by rw [hd]; rfl) (by simp) (fun _ => by rw [hd]; rfl)
        ⟨fun hack => hpos.trans (hlast (by rw [hd]; rfl) hack),hfilter⟩
  | selectMin cursor =>
    rw [hd] at hphase
    simp only [drainStep,hd] at hstep
    split at hstep
    · rename_i err hread
      cases hstep
      rcases DrainEnv.statement_error hread with ⟨s,rfl⟩ | hb
      · exact h.threw _
      · obtain ⟨b,rfl,hwindow⟩ := ofBus_error hb
        obtain ⟨oldest,rfl,hgap,hleast⟩ := pollWindow_error hwindow
        unfold Drain.pollThrew
        split_ifs
        · exact h.goto (by rw [hd]; rfl) (by simp) (fun _ => by rw [hd]; rfl)
            ⟨fun hack => hphase.1 hack ▸ hgap,hleast.bound,hleast.least⟩
        · exact h.threw _
    · cases hstep
      exact h.goto (by rw [hd]; rfl) (by simp) (fun _ => by rw [hd]; rfl) hphase
  | selectFilter cursor =>
    rw [hd] at hphase
    simp only [drainStep,hd] at hstep
    split at hstep
    · rename_i err hread
      cases hstep
      rw [pollThrew_plain (statement_plain hread fun b hb => pollFilter_error hb)]
      exact h.threw _
    · rename_i f hread
      cases hstep
      have hfilter := ofBus_ok (DrainEnv.statement_ok hread)
      obtain ⟨s,hs,htext⟩ := hphase.2
      rw [pollFilter,hs] at hfilter
      exact h.goto (by rw [hd]; rfl) (by simp) (fun _ => by rw [hd]; rfl) ((Except.ok.inj hfilter).symm.trans htext)
  | selectEvents f =>
    rw [hd] at hphase
    obtain rfl : f = filter := hphase
    simp only [drainStep,hd] at hstep
    split at hstep
    · rename_i err hread
      cases hstep
      rw [pollThrew_plain]
      · exact h.threw _
      · rintro last oldest rfl
        rcases DrainEnv.statement_error hread with ⟨s,hs⟩ | hb
        · cases hs
        · cases hb
    · rename_i hread
      cases hstep
      exact h.queueEmpty hd (Except.ok.inj (DrainEnv.statement_ok hread))
    · rename_i event rest hread
      cases hstep
      have hbatch := h.writes.select (effectiveBatchSize opts.batchSize)
      rw [Except.ok.inj (DrainEnv.statement_ok hread)] at hbatch
      exact h.goto (by rw [hd]; rfl) (by simp) (fun _ => by rw [hd]; rfl) hbatch
  | recoverFromStale last oldest =>
    simp only [drainStep,hd] at hstep
    split at hstep
    · cases hstep
      exact h.threw _
    · rename_i db₁ hread
      cases hstep
      exact h.recover hd hok (reanchorCursor_ok (ofBus_ok (DrainEnv.statement_ok hread)))
  | deliver events =>
    cases events with
    | nil =>
      simp only [drainStep,hd] at hstep
      cases hstep
      obtain ⟨last,hplaced,hlast,-⟩ := h.placed
      have hw := h.writes
      exact ⟨⟨hw.sorted,hw.le,hw.bound,hw.fresh,hw.complete,hw.drained⟩,
        ⟨last,hplaced,fun _ => hlast (by rw [hd]; rfl),by simp⟩,fun _ => h.begun (by rw [hd]; rfl),trivial⟩
    | cons event rest =>
      simp only [drainStep,hd] at hstep
      cases hstep
      exact h.delivered hd
  | ackSelect event rest =>
    rw [hd] at hphase
    simp only [drainStep,hd] at hstep
    split at hstep
    · cases hstep
      exact h.threw _
    · cases hstep
      exact h.goto (by rw [hd]; rfl) (by simp) (by simp [DrainPhase.synced]) hphase
  | ackUpdate event rest =>
    simp only [drainStep,hd] at hstep
    split at hstep
    · cases hstep
      exact h.threw _
    · rename_i db₁ hread
      cases hstep
      exact h.acked hd (ofBus_ok (DrainEnv.statement_ok hread))
  | waiting =>
    simp only [drainStep,hd] at hstep
    cases hstep
    rw [hd] at hphase
    split_ifs
    · exact h.goto (by rw [hd]; rfl) (by simp) (by simp [DrainPhase.synced]) hphase
    · exact h.goto (by rw [hd]; rfl) (by simp) (fun _ => by rw [hd]; rfl) trivial
  | ended => simp [drainStep,hd] at hstep
  | threw err => simp [drainStep,hd] at hstep

end Step

theorem DrainAt.start {opts : DrainOpts} {filter : Text} {db : Db} {c : CursorRow}
    (hcursor : db.cursors.get? opts.cursorId = some c) (hfilter : HasFilter filter db c.subscriptionId) :
    DrainAt opts filter c.lastEventId db .start where
  writes := ⟨.nil,by simp [Drain.start],.inl le_rfl,by simp [Drain.start],
    fun _ _ _ hlow hhigh => absurd hlow (not_lt.mpr hhigh),by simp [Drain.start]⟩
  placed := ⟨c.lastEventId,⟨c,hcursor,rfl,hfilter⟩,by simp [Drain.start,DrainPhase.synced],fun _ => rfl⟩
  begun := by simp [Drain.start,DrainPhase.begun]
  phase := ⟨rfl,rfl⟩

theorem DrainAt.run {opts : DrainOpts} {filter : Text} {startId : ℤ} {t t' : DrainSystem}
    {as : List DrainAction} (hrun : Run (DrainSystem.step opts) (DrainOk opts filter) t as t')
    (h : DrainAt opts filter startId t.world.bus t.drain) :
    DrainAt opts filter startId t'.world.bus t'.drain := by
  refine hrun.invariant (I := fun t => DrainAt opts filter startId t.world.bus t.drain) ?_ h
  intro u a u' hu hok hstep
  cases a with
  | world a =>
    obtain ⟨w,hw,rfl⟩ := Option.map_eq_some_iff.mp hstep
    exact hu.world hw (hok w hw)
  | drain env =>
    obtain ⟨r,hr,rfl⟩ := Option.map_eq_some_iff.mp hstep
    exact hu.step hok hr

theorem drain_in_order {opts : DrainOpts} {filter : Text} {w : World} {c : CursorRow}
    (hcursor : w.bus.cursors.get? opts.cursorId = some c) (hfilter : HasFilter filter w.bus c.subscriptionId)
    {as : List DrainAction} {t : DrainSystem}
    (hrun : Run (DrainSystem.step opts) (DrainOk opts filter) (.start w) as t) :
    t.drain.written.Pairwise (fun a b => a.eventId < b.eventId) ∧
      (t.drain.phase = .ended → ∃ db, t.drain.emptyPoll = some db ∧
        ∀ x ∈ db.events, x.matchesSql filter = true → c.lastEventId < x.eventId →
          ∃ y ∈ t.drain.written, y.eventId = x.eventId) := by
  have h : DrainAt opts filter c.lastEventId t.world.bus t.drain := .run hrun (.start hcursor hfilter)
  refine ⟨h.writes.sorted,fun hended => ?_⟩
  have hphase := h.phase
  rw [hended] at hphase
  obtain ⟨db,hdb⟩ := Option.isSome_iff_exists.mp hphase
  have hstart := h.begun (by rw [hended]; rfl)
  exact ⟨db,hdb,fun x hx hmatch hlow => h.writes.drained db hdb x hx hmatch (hstart ▸ hlow)⟩

def drainSteps (n : ℕ) : List DrainAction := List.replicate n (.drain ⟨none,5000,false⟩)

def drainBacklog : List Action :=
  [.bus (.insertSubscription ⟨"s1","p",.subscriber,"wicked.*".toList,none,0,none⟩),
    .bus (.insertCursor ⟨"c1","s1",0,none,0,none⟩),.bus (.emit expiredSample "u"),
    .bus (.emit { expiredSample with idempotencyKey := "k2", expiresAt := 9000 } "u")]

def peekOpts : DrainOpts := ⟨"c1",100,true,none,.recover⟩

def sweepMidDrain : List DrainAction :=
  drainSteps 8 ++ [.world (.bus (.sweep ⟨some "discard",none,false,some 3000,none,none⟩ 0))] ++ drainSteps 8

theorem drain_repeats_without_ack :
    ∃ (w : World) (t : DrainSystem), Run World.step (fun _ _ => True) (.start .empty .empty) drainBacklog w ∧
      Run (DrainSystem.step peekOpts) (fun _ _ => True) (.start w) sweepMidDrain t ∧
      t.drain.written.map EventRow.eventId = [1,2,2] := by
  have hreach : (exec World.step (.start .empty .empty) drainBacklog).any (fun w =>
      (exec (DrainSystem.step peekOpts) (.start w) sweepMidDrain).any (fun t =>
        decide (t.drain.written.map EventRow.eventId = [1,2,2]))) = true := by decide +kernel
  obtain ⟨w,hw,hobs⟩ := (Option.any_eq_true _ _).mp hreach
  obtain ⟨t,ht,hwritten⟩ := (Option.any_eq_true _ _).mp hobs
  exact ⟨w,t,run_of_exec hw,run_of_exec ht,of_decide_eq_true hwritten⟩

def staysForward (opts : DrainOpts) (filter : Text) (t : DrainSystem) : DrainAction → Bool
  | .world a => (t.world.step a).all (fun w =>
      decide (w.bus.cursors.get? opts.cursorId = t.world.bus.cursors.get? opts.cursorId))
  | .drain _ =>
    match t.drain.phase with
    | .recoverFromStale _ _ =>
      t.world.bus.events.rows.all (fun x => !x.matchesSql filter || decide (t.drain.floor < x.eventId))
    | _ => true

theorem drainOk_of_staysForward {opts : DrainOpts} {filter : Text} {t : DrainSystem} {a : DrainAction}
    (h : staysForward opts filter t a = true) : DrainOk opts filter t a := by
  cases a with
  | world a =>
    intro w hw
    have hall : (t.world.step a).all (fun w =>
        decide (w.bus.cursors.get? opts.cursorId = t.world.bus.cursors.get? opts.cursorId)) = true := h
    rw [hw] at hall
    exact of_decide_eq_true hall
  | drain env =>
    intro _ lastEventId oldest hphase x hx hmatch
    simp only [staysForward,hphase,List.all_eq_true,Bool.or_eq_true,Bool.not_eq_true',decide_eq_true_eq] at h
    exact (h x hx).resolve_left (by simp [hmatch])

def sweptBacklog : List Action :=
  drainBacklog ++ [.bus (.emit (storedSample "k3" "wicked.run" 1000 9000) "u")]

-- without acks and one row a page; the sweep makes the first poll stale
def recoverThenDrain : List DrainAction :=
  drainSteps 1 ++ [.world (.bus (.sweep ⟨some "discard",none,false,some 3000,none,none⟩ 0))] ++ drainSteps 19

theorem drain_in_order_sample :
    ∃ t : DrainSystem, t.drain.phase = .ended ∧ t.drain.written.map EventRow.eventId = [2,3] ∧
      t.drain.written.Pairwise (fun a b => a.eventId < b.eventId) ∧
      (t.drain.phase = .ended → ∃ db, t.drain.emptyPoll = some db ∧
        ∀ x ∈ db.events, x.matchesSql "wicked.*".toList = true → 0 < x.eventId →
          ∃ y ∈ t.drain.written, y.eventId = x.eventId) := by
  have hreach : (exec World.step (.start .empty .empty) sweptBacklog).any (fun w =>
      decide (w.bus.cursors.get? "c1" = some ⟨"c1","s1",0,none,0,none⟩) &&
      decide (w.bus.subscriptions.get? "s1" = some ⟨"s1","p",.subscriber,"wicked.*".toList,none,0,none⟩) &&
      (exec (guarded (fun t a => staysForward { peekOpts with batchSize := 1 } "wicked.*".toList t a = true)
        (DrainSystem.step { peekOpts with batchSize := 1 })) (.start w) recoverThenDrain).any
        (fun t => decide (t.drain.phase = .ended) &&
          decide (t.drain.written.map EventRow.eventId = [2,3]))) = true := by decide +kernel
  obtain ⟨w,-,hobs⟩ := (Option.any_eq_true _ _).mp hreach
  simp only [Bool.and_eq_true,decide_eq_true_eq] at hobs
  obtain ⟨⟨hcursor,hsub⟩,hobs⟩ := hobs
  obtain ⟨t,ht,hobs⟩ := (Option.any_eq_true _ _).mp hobs
  simp only [Bool.and_eq_true,decide_eq_true_eq] at hobs
  exact ⟨t,hobs.1,hobs.2,@drain_in_order { peekOpts with batchSize := 1 } _ w _ hcursor ⟨_,hsub,rfl⟩ _ t
    ((run_of_guarded ht).mono fun _ _ h => drainOk_of_staysForward h)⟩

end WickedBus
