import WickedBus.Drain

namespace WickedBus

open GuardedRun
open WickedBus.Filter (Text)

structure StreamOpts where
  cursorId : String
  batchSize : ℕ
  noAck : Bool
  onStale : OnStale
  deriving DecidableEq, Repr

inductive StreamPhase where
  | selectCursor
  | selectMin (cursor : CursorRow)
  | selectFilter (cursor : CursorRow)
  | selectEvents (filter : Text) (lastEventId : ℤ)
  | deliver (events : List EventRow)
  | ackSelect (event : EventRow) (rest : List EventRow)
  | ackUpdate (event : EventRow) (rest : List EventRow)
  | caught (err : StatementError)
  | recoverFromStale (oldest : ℤ)
  | waiting
  | ended
  | threw (err : StatementError)
  deriving DecidableEq, Repr

inductive StreamLine where
  | event (row : EventRow)
  | acked (eventId : ℤ)
  | reanchored (floor : ℤ)
  | failed (err : StatementError)
  | started
  deriving DecidableEq, Repr

structure StreamMove where
  phase : StreamPhase
  bus : Db
  lines : List StreamLine

def StatementError.fatal : StatementError → Bool
  | .bus (.cursorBehindTtlWindow _ _) | .bus (.cursorNotFound _) => true
  | _ => false

def caughtStep (onStale : OnStale) (db : Db) : StatementError → StreamMove
  | .bus (.cursorBehindTtlWindow lastEventId oldest) =>
    if onStale = .recover then ⟨.recoverFromStale oldest,db,[]⟩
    else ⟨.threw (.bus (.cursorBehindTtlWindow lastEventId oldest)),db,
      [.failed (.bus (.cursorBehindTtlWindow lastEventId oldest))]⟩
  | err => ⟨if err.fatal then .threw err else .waiting,db,[.failed err]⟩

def streamStep (opts : StreamOpts) (env : DrainEnv) (db : Db) : StreamPhase → Option StreamMove
  | .selectCursor =>
    match env.statement (ofBus (pollCursor db opts.cursorId)) with
    | .error err => some ⟨.caught err,db,[]⟩
    | .ok cursor => some ⟨.selectMin cursor,db,[]⟩
  | .selectMin cursor =>
    match env.statement (ofBus (pollWindow db cursor)) with
    | .error err => some ⟨.caught err,db,[]⟩
    | .ok _ => some ⟨.selectFilter cursor,db,[]⟩
  | .selectFilter cursor =>
    match env.statement (ofBus (pollFilter db cursor)) with
    | .error err => some ⟨.caught err,db,[]⟩
    | .ok filter => some ⟨.selectEvents filter cursor.lastEventId,db,[]⟩
  | .selectEvents filter lastEventId =>
    match env.statement (.ok (pollSelect db filter lastEventId (effectiveBatchSize opts.batchSize))) with
    | .error err => some ⟨.caught err,db,[]⟩
    | .ok events => some ⟨.deliver events,db,[]⟩
  | .deliver [] => some ⟨.waiting,db,[]⟩
  | .deliver (event :: rest) =>
    some ⟨if opts.noAck then .deliver rest else .ackSelect event rest,db,[.event event]⟩
  | .ackSelect event rest =>
    match env.statement (ofBus (pollCursor db opts.cursorId)) with
    | .error err => some ⟨.caught err,db,[]⟩
    | .ok _ => some ⟨.ackUpdate event rest,db,[]⟩
  | .ackUpdate event rest =>
    match env.statement (ofBus (moveCursor db opts.cursorId event.eventId env.now)) with
    | .error err => some ⟨.caught err,db,[]⟩
    | .ok db' => some ⟨.deliver rest,db',[.acked event.eventId]⟩
  | .caught err => some (caughtStep opts.onStale db err)
  | .recoverFromStale oldest =>
    match env.statement (ofBus (reanchorCursor db opts.cursorId (oldest - 1) env.now)) with
    | .error err => some ⟨.threw err,db,[.failed err]⟩
    | .ok db' => some ⟨.waiting,db',[.reanchored (oldest - 1)]⟩
  | .waiting => some ⟨if env.stopping then .ended else .selectCursor,db,[]⟩
  | .ended | .threw _ => none

structure StreamSystem where
  world : World
  phase : StreamPhase
  lines : List StreamLine

inductive StreamAction where
  | world (a : Action)
  | stream (env : DrainEnv)
  | restart
  deriving DecidableEq, Repr

def StreamSystem.start (w : World) : StreamSystem := ⟨w,.selectCursor,[]⟩

def StreamSystem.moved (t : StreamSystem) (m : StreamMove) : StreamSystem :=
  ⟨{ t.world with bus := m.bus },m.phase,t.lines ++ m.lines⟩

def StreamSystem.step (opts : StreamOpts) (t : StreamSystem) : StreamAction → Option StreamSystem
  | .world a => (t.world.step a).map (fun w => { t with world := w })
  | .stream env => (streamStep opts env t.world.bus t.phase).map t.moved
  | .restart => some (t.moved ⟨.selectCursor,t.world.bus,[.started]⟩)

def OwnsCursor (opts : StreamOpts) (t : StreamSystem) : StreamAction → Prop
  | .world a => ∀ w, t.world.step a = some w →
      w.bus.cursors.get? opts.cursorId = t.world.bus.cursors.get? opts.cursorId
  | _ => True

def StreamLine.printed? : StreamLine → Option EventRow
  | .event row => some row
  | _ => none

def printed (lines : List StreamLine) : List EventRow := lines.filterMap StreamLine.printed?

def StreamLine.interrupts : StreamLine → Bool
  | .failed _ | .started => true
  | _ => false

def StreamLine.loopEvent : StreamLine → LoopEvent
  | .event row => .invoked row.eventId
  | .acked eventId => .acked eventId
  | .reanchored floor => .reanchored floor
  | .failed _ => .stopped
  | .started => .started

def traceOf (lines : List StreamLine) : List LoopEvent := lines.map StreamLine.loopEvent

def Unbroken (lines : List StreamLine) : Prop := ∀ l ∈ lines, l.interrupts = false

def Awaiting (e : EventRow) : StreamPhase → Prop
  | .ackSelect event _ | .ackUpdate event _ => event = e
  | .caught err => ∀ lastEventId oldest, err ≠ .bus (.cursorBehindTtlWindow lastEventId oldest)
  | _ => False

def Matching (filter : Text) (events : List EventRow) : Prop := ∀ e ∈ events, e.matchesSql filter = true

def StreamPhaseAt (filter : Text) (db : Db) (lines : List StreamLine) (last : ℤ) : StreamPhase → Prop
  | .selectMin cursor | .selectFilter cursor => cursor.lastEventId = last ∧ HasFilter filter db cursor.subscriptionId
  | .selectEvents f lastEventId => f = filter ∧ lastEventId = last
  | .deliver batch => BatchAt filter db (traceOf lines) last batch ∧ Matching filter batch
  | .ackSelect event rest | .ackUpdate event rest =>
    BatchAt filter db (traceOf lines) last (event :: rest) ∧ Matching filter rest ∧ .event event ∈ lines
  | .caught err => ∀ lastEventId oldest, err = .bus (.cursorBehindTtlWindow lastEventId oldest) →
      Behind db last lastEventId oldest
  | .recoverFromStale oldest => ∃ lastEventId, Behind db last lastEventId oldest
  | _ => True

structure StreamAt (opts : StreamOpts) (filter : Text) (startId : ℤ) (t : StreamSystem) (last : ℤ) : Prop where
  told : Told opts.cursorId filter t.world.bus (traceOf t.lines) last
  above : startId ≤ last
  bound : last = startId ∨ last ≤ t.world.bus.eventSeq
  complete : ∀ x ∈ t.world.bus.live, x.matchesSql filter = true → startId < x.eventId → x.eventId ≤ last →
    ∃ e ∈ printed t.lines, e.eventId = x.eventId
  rising : ∀ seg, seg <:+: t.lines → Unbroken seg →
    (printed seg).Pairwise (fun a b => a.eventId < b.eventId)
  settled : ∀ seg, seg <:+ t.lines → Unbroken seg → ∀ e ∈ printed seg, e.eventId ≤ last ∨ Awaiting e t.phase
  sound : Matching filter (printed t.lines)
  phase : StreamPhaseAt filter t.world.bus t.lines last t.phase

section Lines

variable {lines seg : List StreamLine} {l : StreamLine} {e : EventRow}

theorem mem_printed : e ∈ printed lines ↔ .event e ∈ lines := by
  refine List.mem_filterMap.trans ⟨?_,fun h => ⟨_,h,rfl⟩⟩
  rintro ⟨l,hl,he⟩
  cases l <;> cases he
  exact hl

theorem printed_append (lines more : List StreamLine) : printed (lines ++ more) = printed lines ++ printed more :=
  List.filterMap_append

theorem traceOf_append (lines more : List StreamLine) : traceOf (lines ++ more) = traceOf lines ++ traceOf more :=
  List.map_append

theorem invoked_traceOf {i : ℤ} : .invoked i ∈ traceOf lines ↔ ∃ e ∈ printed lines, e.eventId = i := by
  refine List.mem_map.trans ⟨?_,?_⟩
  · rintro ⟨l,hl,he⟩
    cases l <;> cases he
    exact ⟨_,mem_printed.mpr hl,rfl⟩
  · rintro ⟨e,he,rfl⟩
    exact ⟨_,mem_printed.mp he,rfl⟩

theorem suffix_snoc (h : seg <:+ lines ++ [l]) (hunbroken : Unbroken seg) : seg = [] ∨
    ∃ stem, stem <:+ lines ∧ Unbroken stem ∧ l.interrupts = false ∧ seg = stem ++ [l] := by
  rcases List.suffix_concat_iff.mp h with rfl | ⟨stem,rfl,hstem⟩
  · exact .inl rfl
  · exact .inr ⟨stem,hstem,fun x hx => hunbroken x (List.mem_append_left _ hx),
      hunbroken l (List.mem_append_right _ (List.mem_singleton.mpr rfl)),rfl⟩

theorem rising_snoc
    (hrising : ∀ seg, seg <:+: lines → Unbroken seg → (printed seg).Pairwise (fun a b => a.eventId < b.eventId))
    (hnext : l.interrupts = false → ∀ e ∈ l.printed?, ∀ seg, seg <:+ lines → Unbroken seg →
      ∀ y ∈ printed seg, y.eventId < e.eventId) :
    ∀ seg, seg <:+: lines ++ [l] → Unbroken seg → (printed seg).Pairwise (fun a b => a.eventId < b.eventId) := by
  intro seg hseg hunbroken
  rcases List.infix_concat_iff.mp hseg with hsuffix | hinfix
  · rcases suffix_snoc hsuffix hunbroken with rfl | ⟨stem,hstem,hwhole,hquiet,rfl⟩
    · exact .nil
    · rw [printed_append]
      refine List.pairwise_append.mpr ⟨hrising stem hstem.isInfix hwhole,?_,fun y hy e he => ?_⟩
      · cases l <;> first | exact .nil | exact List.pairwise_singleton _ _
      · obtain ⟨x,hx,hprinted⟩ := List.mem_filterMap.mp he
        rw [List.mem_singleton.mp hx] at hprinted
        exact hnext hquiet e hprinted stem hstem hwhole y hy
  · exact hrising seg hinfix hunbroken

end Lines

inductive StreamEffect (opts : StreamOpts) (env : DrainEnv) (db : Db) : StreamPhase → StreamMove → Prop
  | failed {p : StreamPhase} {err : StatementError}
      (plain : ∀ lastEventId oldest, err ≠ .bus (.cursorBehindTtlWindow lastEventId oldest)) :
      StreamEffect opts env db p ⟨.caught err,db,[]⟩
  | behind {cursor : CursorRow} {oldest : ℤ} (gap : cursor.lastEventId < oldest - 1) (least : Oldest db oldest) :
      StreamEffect opts env db (.selectMin cursor)
        ⟨.caught (.bus (.cursorBehindTtlWindow cursor.lastEventId oldest)),db,[]⟩
  | selected {cursor : CursorRow} (found : pollCursor db opts.cursorId = .ok cursor) :
      StreamEffect opts env db .selectCursor ⟨.selectMin cursor,db,[]⟩
  | inside (cursor : CursorRow) : StreamEffect opts env db (.selectMin cursor) ⟨.selectFilter cursor,db,[]⟩
  | filtered {cursor : CursorRow} {filter : Text} (found : pollFilter db cursor = .ok filter) :
      StreamEffect opts env db (.selectFilter cursor) ⟨.selectEvents filter cursor.lastEventId,db,[]⟩
  | read (filter : Text) (lastEventId : ℤ) : StreamEffect opts env db (.selectEvents filter lastEventId)
      ⟨.deliver (pollSelect db filter lastEventId (effectiveBatchSize opts.batchSize)),db,[]⟩
  | delivered : StreamEffect opts env db (.deliver []) ⟨.waiting,db,[]⟩
  | print (event : EventRow) (rest : List EventRow) : StreamEffect opts env db (.deliver (event :: rest))
      ⟨if opts.noAck then .deliver rest else .ackSelect event rest,db,[.event event]⟩
  | acking (event : EventRow) (rest : List EventRow) :
      StreamEffect opts env db (.ackSelect event rest) ⟨.ackUpdate event rest,db,[]⟩
  | acked {db' : Db} {event : EventRow} (rest : List EventRow)
      (moved : moveCursor db opts.cursorId event.eventId env.now = .ok db') :
      StreamEffect opts env db (.ackUpdate event rest) ⟨.deliver rest,db',[.acked event.eventId]⟩
  | caught (err : StatementError) : StreamEffect opts env db (.caught err) (caughtStep opts.onStale db err)
  | refused (oldest : ℤ) (err : StatementError) :
      StreamEffect opts env db (.recoverFromStale oldest) ⟨.threw err,db,[.failed err]⟩
  | reanchored {db' : Db} {oldest : ℤ} (moved : moveCursor db opts.cursorId (oldest - 1) env.now = .ok db') :
      StreamEffect opts env db (.recoverFromStale oldest) ⟨.waiting,db',[.reanchored (oldest - 1)]⟩
  | waited : StreamEffect opts env db .waiting ⟨if env.stopping then .ended else .selectCursor,db,[]⟩

theorem streamStep_effect {opts : StreamOpts} {env : DrainEnv} {db : Db} {p : StreamPhase} {m : StreamMove}
    (hstep : streamStep opts env db p = some m) : StreamEffect opts env db p m := by
  cases p with
  | selectCursor =>
    simp only [streamStep] at hstep
    split at hstep <;> rename_i hread <;> cases hstep
    · exact .failed (statement_plain hread fun b hb => pollCursor_error hb)
    · exact .selected (ofBus_ok (DrainEnv.statement_ok hread))
  | selectMin cursor =>
    simp only [streamStep] at hstep
    split at hstep <;> rename_i hread <;> cases hstep
    · rcases DrainEnv.statement_error hread with ⟨s,rfl⟩ | hb
      · exact .failed (fun _ _ h => by cases h)
      · obtain ⟨b,rfl,hwindow⟩ := ofBus_error hb
        obtain ⟨oldest,rfl,hgap,hleast⟩ := pollWindow_error hwindow
        exact .behind hgap hleast
    · exact .inside cursor
  | selectFilter cursor =>
    simp only [streamStep] at hstep
    split at hstep <;> rename_i hread <;> cases hstep
    · exact .failed (statement_plain hread fun b hb => pollFilter_error hb)
    · exact .filtered (ofBus_ok (DrainEnv.statement_ok hread))
  | selectEvents filter lastEventId =>
    simp only [streamStep] at hstep
    split at hstep <;> rename_i hread <;> cases hstep
    · rcases DrainEnv.statement_error hread with ⟨s,rfl⟩ | hb
      · exact .failed (fun _ _ h => by cases h)
      · cases hb
    · cases DrainEnv.statement_ok hread
      exact .read filter lastEventId
  | deliver events =>
    cases events with
    | nil =>
      cases hstep
      exact .delivered
    | cons event rest =>
      cases hstep
      exact .print event rest
  | ackSelect event rest =>
    simp only [streamStep] at hstep
    split at hstep <;> rename_i hread <;> cases hstep
    · exact .failed (statement_plain hread fun b hb => pollCursor_error hb)
    · exact .acking event rest
  | ackUpdate event rest =>
    simp only [streamStep] at hstep
    split at hstep <;> rename_i hread <;> cases hstep
    · exact .failed (statement_plain hread fun b hb => moveCursor_error hb)
    · exact .acked rest (ofBus_ok (DrainEnv.statement_ok hread))
  | caught err =>
    cases hstep
    exact .caught err
  | recoverFromStale oldest =>
    simp only [streamStep] at hstep
    split at hstep <;> rename_i hread <;> cases hstep
    · exact .refused oldest _
    · exact .reanchored (reanchorCursor_ok (ofBus_ok (DrainEnv.statement_ok hread)))
  | waiting =>
    cases hstep
    exact .waited
  | ended | threw err => cases hstep

section Step

variable {opts : StreamOpts} {env : DrainEnv} {filter : Text} {t t' : StreamSystem} {m : StreamMove}
  {startId last now : ℤ} {p : StreamPhase} {e : EventRow} {rest : List EventRow} {db' : Db} {err : StatementError}

theorem StreamPhaseAt.world {w w' : World} {lines : List StreamLine} {a : Action} (hstep : w.step a = some w')
    (h : StreamPhaseAt filter w.bus lines last p) : StreamPhaseAt filter w'.bus lines last p := by
  have hbatch : ∀ batch, BatchAt filter w.bus (traceOf lines) last batch →
      BatchAt filter w'.bus (traceOf lines) last batch := by
    intro batch hb
    obtain ⟨hseq,hlive⟩ := World.step_live hstep
    refine ⟨hb.sorted,hb.above,fun x hx => (hb.le x hx).trans hseq,fun x hx hmatch hgap => ?_,hb.after⟩
    rcases hlive x hx with hold | hnew
    · exact hb.cover x hold hmatch hgap
    · exact .inr fun y hy => (hb.le y hy).trans_lt hnew
  cases p with
  | selectMin cursor | selectFilter cursor => exact ⟨h.1,World.step_filter hstep h.2⟩
  | deliver batch => exact ⟨hbatch batch h.1,h.2⟩
  | ackSelect event rest | ackUpdate event rest => exact ⟨hbatch _ h.1,h.2⟩
  | caught err => exact fun lastEventId oldest herr => Behind.world hstep (h lastEventId oldest herr)
  | recoverFromStale oldest =>
    obtain ⟨lastEventId,hbehind⟩ := h
    exact ⟨lastEventId,Behind.world hstep hbehind⟩
  | selectEvents f lastEventId => exact h
  | selectCursor | waiting | ended | threw err => trivial

theorem StreamAt.world (h : StreamAt opts filter startId t last) {a : Action} {w : World}
    (hstep : t.world.step a = some w)
    (hrow : w.bus.cursors.get? opts.cursorId = t.world.bus.cursors.get? opts.cursorId) :
    StreamAt opts filter startId { t with world := w } last := by
  obtain ⟨hseq,hlive⟩ := World.step_live hstep
  obtain ⟨c,hc,hlast,hfilter⟩ := h.told.placed.cursor
  refine ⟨⟨⟨c,hrow.trans hc,hlast,World.step_filter hstep hfilter⟩,h.told.order,h.told.moved,fun i hi => ?_⟩,
    h.above,h.bound.imp_right hseq.trans',fun x hx hmatch hlow hhigh => ?_,h.rising,h.settled,h.sound,
    h.phase.world hstep⟩
  · obtain ⟨hle,hplace⟩ := h.told.invoked i hi
    refine ⟨hle.trans hseq,hplace.imp_right fun hclear x hx hmatch hgap => ?_⟩
    rcases hlive x hx with hold | hnew
    · exact hclear x hold hmatch hgap
    · exact hle.trans hnew.le
  · rcases hlive x hx with hold | hnew
    · exact h.complete x hold hmatch hlow hhigh
    · have := h.bound
      omega

theorem StreamAt.quiet (h : StreamAt opts filter startId t last)
    (hphase : StreamPhaseAt filter t.world.bus t.lines last p) (hawait : ∀ e, Awaiting e t.phase → Awaiting e p) :
    StreamAt opts filter startId (t.moved ⟨p,t.world.bus,[]⟩) last := by
  simp only [StreamSystem.moved,List.append_nil]
  exact ⟨h.told,h.above,h.bound,h.complete,h.rising,
    fun seg hseg hunbroken e he => (h.settled seg hseg hunbroken e he).imp_right (hawait e),
    h.sound,hphase⟩

theorem StreamAt.interrupted (h : StreamAt opts filter startId t last) {l : StreamLine} (hl : l.interrupts = true)
    (hphase : ∀ lines, StreamPhaseAt filter t.world.bus lines last p) :
    StreamAt opts filter startId (t.moved ⟨p,t.world.bus,[l]⟩) last := by
  have hsilent : printed [l] = [] := by
    cases l <;> first | rfl | cases hl
  have htold : Told opts.cursorId filter t.world.bus (traceOf (t.lines ++ [l])) last := by
    rw [traceOf_append]
    refine h.told.still (SameRows.refl _) fun x hx => ?_
    rw [List.mem_singleton.mp hx]
    cases l <;> first | rfl | cases hl
  refine ⟨htold,h.above,h.bound,fun x hx hmatch hlow hhigh => ?_,?_,fun seg hseg hunbroken => ?_,?_,hphase _⟩
  · obtain ⟨e,he,hid⟩ := h.complete x hx hmatch hlow hhigh
    exact ⟨e,by rw [StreamSystem.moved,printed_append]; exact List.mem_append_left _ he,hid⟩
  · exact rising_snoc h.rising fun hquiet => absurd hl (Bool.eq_false_iff.mp hquiet)
  · rcases suffix_snoc hseg hunbroken with rfl | ⟨stem,-,-,hquiet,-⟩
    · exact fun e he => absurd he List.not_mem_nil
    · exact absurd hl (Bool.eq_false_iff.mp hquiet)
  · rw [StreamSystem.moved,printed_append,hsilent,List.append_nil]
    exact h.sound

theorem StreamAt.print (h : StreamAt opts filter startId t last) (hphase : t.phase = .deliver (e :: rest)) :
    StreamAt opts filter startId (t.moved ⟨.ackSelect e rest,t.world.bus,[.event e]⟩) last := by
  have hpoint := h.phase
  rw [hphase] at hpoint
  obtain ⟨hbatch,hmatching⟩ := hpoint
  have hsettled : ∀ seg, seg <:+ t.lines → Unbroken seg → ∀ y ∈ printed seg, y.eventId ≤ last := by
    intro seg hseg hunbroken y hy
    refine (h.settled seg hseg hunbroken y hy).resolve_right fun hawait => ?_
    rw [hphase] at hawait
    exact hawait
  have habove := hbatch.above e List.mem_cons_self
  obtain ⟨htold,hnext⟩ := h.told.invoke hbatch
  have htrace : traceOf (t.lines ++ [.event e]) = traceOf t.lines ++ [.invoked e.eventId] := traceOf_append _ _
  refine ⟨by rw [StreamSystem.moved,htrace]; exact htold,h.above,h.bound,fun x hx hmatch hlow hhigh => ?_,?_,
    fun seg hseg hunbroken y hy => ?_,fun y hy => ?_,?_⟩
  · obtain ⟨y,hy,hid⟩ := h.complete x hx hmatch hlow hhigh
    exact ⟨y,by rw [StreamSystem.moved,printed_append]; exact List.mem_append_left _ hy,hid⟩
  · refine rising_snoc h.rising fun _ f hf seg hseg hunbroken y hy => ?_
    cases hf
    exact (hsettled seg hseg hunbroken y hy).trans_lt habove
  · rcases suffix_snoc hseg hunbroken with rfl | ⟨stem,hstem,hwhole,-,rfl⟩
    · cases hy
    · rw [printed_append] at hy
      rcases List.mem_append.mp hy with hy | hy
      · exact .inl (hsettled stem hstem hwhole y hy)
      · cases List.mem_singleton.mp hy
        exact .inr rfl
  · rw [StreamSystem.moved,printed_append] at hy
    rcases List.mem_append.mp hy with hy | hy
    · exact h.sound y hy
    · cases List.mem_singleton.mp hy
      exact hmatching e List.mem_cons_self
  · refine ⟨?_,fun y hy => hmatching y (List.mem_cons_of_mem _ hy),
      List.mem_append_right _ (List.mem_singleton.mpr rfl)⟩
    rw [StreamSystem.moved,htrace]
    exact hnext

theorem StreamAt.ack (h : StreamAt opts filter startId t last) (hphase : t.phase = .ackUpdate e rest)
    (hmove : moveCursor t.world.bus opts.cursorId e.eventId now = .ok db') :
    StreamAt opts filter startId (t.moved ⟨.deliver rest,db',[.acked e.eventId]⟩) e.eventId := by
  have hpoint := h.phase
  rw [hphase] at hpoint
  obtain ⟨hbatch,hmatching,hprinted⟩ := hpoint
  have habove := hbatch.above e List.mem_cons_self
  have hsame := moveCursor_sameEvents hmove
  have htrace : traceOf (t.lines ++ [.acked e.eventId]) = traceOf t.lines ++ [.acked e.eventId] := traceOf_append _ _
  have hkept : printed (t.lines ++ [.acked e.eventId]) = printed t.lines := by
    rw [printed_append]
    exact List.append_nil _
  refine ⟨?_,h.above.trans habove.le,.inr (hsame.eventSeq ▸ hbatch.le e List.mem_cons_self),
    fun x hx hmatch hlow hhigh => ?_,rising_snoc h.rising (fun _ f hf => absurd hf (Option.not_mem_none f)),
    fun seg hseg hunbroken y hy => ?_,?_,?_⟩
  · rw [StreamSystem.moved,htrace]
    exact h.told.reposition habove.le hmove (by simp) (by simp [Moved])
  · rw [StreamSystem.moved,hkept]
    have hx' : x ∈ t.world.bus.live := hsame.live ▸ hx
    rcases le_or_gt x.eventId last with hle | hlt
    · exact h.complete x hx' hmatch hlow hle
    · exact ⟨e,mem_printed.mpr hprinted,(hbatch.head_least x hx' hmatch hlt).antisymm hhigh⟩
  · rcases suffix_snoc hseg hunbroken with rfl | ⟨stem,hstem,hwhole,-,rfl⟩
    · cases hy
    · rw [printed_append] at hy
      have hold := h.settled stem hstem hwhole y ((List.mem_append.mp hy).resolve_right (List.not_mem_nil))
      rw [hphase] at hold
      rcases hold with hle | heq
      · exact .inl (hle.trans habove.le)
      · exact .inl (congrArg EventRow.eventId heq).ge
  · rw [StreamSystem.moved,hkept]
    exact h.sound
  · show BatchAt _ _ (traceOf (t.lines ++ [.acked e.eventId])) _ _ ∧ _
    rw [htrace]
    exact ⟨hbatch.tail.same hsame (by simp),hmatching⟩

theorem StreamAt.reanchor {oldest : ℤ} (h : StreamAt opts filter startId t last)
    (hphase : t.phase = .recoverFromStale oldest)
    (hmove : moveCursor t.world.bus opts.cursorId (oldest - 1) now = .ok db') :
    StreamAt opts filter startId (t.moved ⟨.waiting,db',[.reanchored (oldest - 1)]⟩) (oldest - 1) := by
  have hpoint := h.phase
  rw [hphase] at hpoint
  obtain ⟨lastEventId,hbehind⟩ := hpoint
  have hsame := moveCursor_sameEvents hmove
  have hbound := hbehind.bound
  have hseq : db'.eventSeq = t.world.bus.eventSeq := hsame.eventSeq
  refine ⟨?_,h.above.trans hbehind.gap.le,.inr (by show oldest - 1 ≤ db'.eventSeq; omega),
    fun x hx hmatch hlow hhigh => ?_,rising_snoc h.rising (fun _ f hf => absurd hf (Option.not_mem_none f)),
    fun seg hseg hunbroken y hy => ?_,?_,trivial⟩
  · rw [StreamSystem.moved,traceOf_append]
    exact h.told.reposition hbehind.gap.le hmove (by simp [traceOf,StreamLine.loopEvent])
      (by simp [Moved,traceOf,StreamLine.loopEvent])
  · have := hbehind.oldest x (hsame.live ▸ hx)
    omega
  · rcases suffix_snoc hseg hunbroken with rfl | ⟨stem,hstem,hwhole,-,rfl⟩
    · cases hy
    · rw [printed_append] at hy
      have hold := h.settled stem hstem hwhole y ((List.mem_append.mp hy).resolve_right (List.not_mem_nil))
      rw [hphase] at hold
      exact .inl ((hold.resolve_right id).trans hbehind.gap.le)
  · rw [StreamSystem.moved,printed_append]
    exact fun y hy => h.sound y ((List.mem_append.mp hy).resolve_right List.not_mem_nil)

theorem StreamAt.plain (h : StreamAt opts filter startId t last)
    (hplain : ∀ lastEventId oldest, err ≠ .bus (.cursorBehindTtlWindow lastEventId oldest)) :
    StreamAt opts filter startId (t.moved ⟨.caught err,t.world.bus,[]⟩) last :=
  h.quiet (fun lastEventId oldest heq => absurd heq (hplain lastEventId oldest)) fun _ _ => hplain

theorem StreamAt.caught (h : StreamAt opts filter startId t last) (hphase : t.phase = .caught err) :
    StreamAt opts filter startId (t.moved (caughtStep opts.onStale t.world.bus err)) last := by
  have hpoint := h.phase
  rw [hphase] at hpoint
  unfold caughtStep
  split
  · rename_i lastEventId oldest
    split_ifs
    · refine h.quiet ⟨lastEventId,hpoint lastEventId oldest rfl⟩ fun e hawait => ?_
      rw [hphase] at hawait
      exact hawait lastEventId oldest rfl
    · exact h.interrupted rfl fun _ => trivial
  · refine h.interrupted rfl fun _ => ?_
    split_ifs <;> trivial

theorem StreamAt.stream (h : StreamAt opts filter startId t last) (hack : opts.noAck = false)
    (heffect : StreamEffect opts env t.world.bus t.phase m) :
    ∃ last', StreamAt opts filter startId (t.moved m) last' := by
  obtain ⟨w,p,lines⟩ := t
  have hpoint := h.phase
  cases heffect with
  | failed hplain => exact ⟨last,h.plain hplain⟩
  | behind hgap hleast =>
    refine ⟨last,h.quiet (fun lastEventId oldest heq => ?_) fun _ => False.elim⟩
    cases heq
    exact ⟨hpoint.1,hpoint.1 ▸ hgap,hleast.bound,hleast.least⟩
  | selected hfound => exact ⟨last,h.quiet (h.told.placed.pollCursor hfound) fun _ => id⟩
  | inside cursor => exact ⟨last,h.quiet hpoint fun _ => id⟩
  | filtered hfound =>
    obtain ⟨s,hs,htext⟩ := hpoint.2
    rw [pollFilter,hs] at hfound
    exact ⟨last,h.quiet ⟨(Except.ok.inj hfound).symm.trans htext,hpoint.1⟩ fun _ => id⟩
  | read f lastEventId =>
    obtain ⟨rfl,rfl⟩ := hpoint
    exact ⟨lastEventId,h.quiet ⟨h.told.select _,fun e he => (mem_pollSelect he).2.2⟩ fun _ => id⟩
  | delivered => exact ⟨last,h.quiet trivial fun _ => id⟩
  | print event rest =>
    rw [hack]
    exact ⟨last,h.print rfl⟩
  | acking event rest => exact ⟨last,h.quiet hpoint fun _ => id⟩
  | acked rest hmoved => exact ⟨_,h.ack rfl hmoved⟩
  | caught err => exact ⟨last,h.caught rfl⟩
  | refused oldest err => exact ⟨last,h.interrupted rfl fun _ => trivial⟩
  | reanchored hmoved => exact ⟨_,h.reanchor rfl hmoved⟩
  | waited =>
    refine ⟨last,h.quiet ?_ fun _ => False.elim⟩
    split_ifs <;> trivial

end Step

theorem StreamAt.start {opts : StreamOpts} {filter : Text} {w : World} {c : CursorRow}
    (hcursor : w.bus.cursors.get? opts.cursorId = some c) (hfilter : HasFilter filter w.bus c.subscriptionId) :
    StreamAt opts filter c.lastEventId (.start w) c.lastEventId where
  told := ⟨⟨c,hcursor,rfl,hfilter⟩,.nil,by simp [StreamSystem.start,traceOf,Moved],
    by simp [StreamSystem.start,traceOf]⟩
  above := le_rfl
  bound := .inl rfl
  complete := fun _ _ _ hlow hhigh => absurd hlow (not_lt.mpr hhigh)
  rising := fun seg hseg _ => by
    rw [List.eq_nil_of_infix_nil hseg]
    exact .nil
  settled := fun seg hseg _ e he => by
    rw [List.eq_nil_of_suffix_nil hseg] at he
    cases he
  sound := fun e he => absurd he List.not_mem_nil
  phase := trivial

theorem StreamAt.step {opts : StreamOpts} {filter : Text} {startId last : ℤ} {t t' : StreamSystem} {a : StreamAction}
    (hack : opts.noAck = false) (h : StreamAt opts filter startId t last) (hok : OwnsCursor opts t a)
    (hstep : t.step opts a = some t') : ∃ last', StreamAt opts filter startId t' last' := by
  cases a with
  | world a =>
    obtain ⟨w,hw,rfl⟩ := Option.map_eq_some_iff.mp hstep
    exact ⟨last,h.world hw (hok w hw)⟩
  | stream env =>
    obtain ⟨m,hm,rfl⟩ := Option.map_eq_some_iff.mp hstep
    exact h.stream hack (streamStep_effect hm)
  | restart =>
    cases hstep
    exact ⟨last,h.interrupted rfl fun _ => trivial⟩

theorem StreamAt.run {opts : StreamOpts} {filter : Text} {startId : ℤ} {t t' : StreamSystem} {as : List StreamAction}
    (hack : opts.noAck = false) (hrun : Run (StreamSystem.step opts) (OwnsCursor opts) t as t')
    (h : ∃ last, StreamAt opts filter startId t last) : ∃ last, StreamAt opts filter startId t' last :=
  hrun.invariant (I := fun t => ∃ last, StreamAt opts filter startId t last)
    (fun _ _ _ ⟨_,hu⟩ hok hstep => hu.step hack hok hstep) h

structure Streamed (opts : StreamOpts) (filter : Text) (startId : ℤ) (t : StreamSystem) : Prop where
  sound : Matching filter (printed t.lines)
  ordered : (printed t.lines).Pairwise (fun a b => a.eventId ≤ b.eventId)
  rising : ∀ seg, seg <:+: t.lines → Unbroken seg → (printed seg).Pairwise (fun a b => a.eventId < b.eventId)
  once : ∀ pre post k, t.lines = pre ++ .acked k :: post → ∀ e ∈ printed post, k < e.eventId
  complete : ∀ x ∈ t.world.bus.events, x.matchesSql filter = true → startId < x.eventId →
    (∃ e ∈ printed t.lines, x.eventId ≤ e.eventId) ∨
      (∃ cur, t.world.bus.cursors.get? opts.cursorId = some cur ∧ x.eventId ≤ cur.lastEventId) →
    ∃ e ∈ printed t.lines, e.eventId = x.eventId

theorem printed_ordered {lines : List StreamLine} (h : (traceOf lines).Pairwise Before) :
    (printed lines).Pairwise (fun a b => a.eventId ≤ b.eventId) := by
  refine List.pairwise_filterMap.mpr ((List.pairwise_map.mp h).imp fun {l m} hlm a ha b hb => ?_)
  cases l <;> cases ha
  cases m <;> cases hb
  exact hlm

theorem StreamAt.streamed {opts : StreamOpts} {filter : Text} {startId last : ℤ} {t : StreamSystem}
    (h : StreamAt opts filter startId t last) : Streamed opts filter startId t := by
  refine ⟨h.sound,printed_ordered h.told.order,h.rising,fun pre post k hlines e he => ?_,
    fun x hx hmatch hlow hcovered => ?_⟩
  · have horder := h.told.order
    rw [hlines,traceOf_append] at horder
    have hlater := (List.pairwise_cons.mp (List.pairwise_append.mp horder).2.1).1
    exact hlater (.invoked e.eventId) (invoked_traceOf.mpr ⟨e,he,rfl⟩)
  · rcases le_or_gt x.eventId last with hle | hlt
    · exact h.complete x.fixedPart (mem_live hx) hmatch hlow hle
    · rcases hcovered with ⟨e,he,hxe⟩ | ⟨cur,hcur,hxcur⟩
      · rcases (h.told.invoked e.eventId (invoked_traceOf.mpr ⟨e,he,rfl⟩)).2 with hpast | hclear
        · exact absurd (hxe.trans hpast) (not_le.mpr hlt)
        · exact ⟨e,he,(hclear x.fixedPart (mem_live hx) hmatch hlt).antisymm hxe⟩
      · obtain ⟨c,hc,hlast,-⟩ := h.told.placed.cursor
        rw [hc] at hcur
        cases hcur
        exact absurd (hlast ▸ hxcur) (not_le.mpr hlt)

theorem stream_in_order {opts : StreamOpts} (hack : opts.noAck = false) {filter : Text} {w : World} {c : CursorRow}
    (hcursor : w.bus.cursors.get? opts.cursorId = some c) (hfilter : HasFilter filter w.bus c.subscriptionId)
    {as : List StreamAction} {t : StreamSystem}
    (hrun : Run (StreamSystem.step opts) (OwnsCursor opts) (.start w) as t) :
    Streamed opts filter c.lastEventId t := by
  obtain ⟨last,h⟩ := StreamAt.run hack hrun ⟨_,.start hcursor hfilter⟩
  exact h.streamed

def Shelved (filter : Text) (shelf : Finset ℤ) (db : Db) : Prop :=
  ∀ k ∈ shelf, ∃ x ∈ db.events, x.eventId = k ∧ x.matchesSql filter = true

def KeepsShelf (opts : StreamOpts) (filter : Text) (shelf : Finset ℤ) (t : StreamSystem) (a : StreamAction) : Prop :=
  OwnsCursor opts t a ∧ ∀ t', t.step opts a = some t' → Shelved filter shelf t'.world.bus

def StuckPhase (filter : Text) (shelf : Finset ℤ) (bound : ℤ) (db : Db) (last : ℤ) : StreamPhase → Prop
  | .selectMin cursor | .selectFilter cursor => cursor.lastEventId = last ∧ HasFilter filter db cursor.subscriptionId
  | .selectEvents f lastEventId => f = filter ∧ lastEventId = last
  | .deliver batch => ∀ e ∈ batch, e.eventId ≤ bound
  | .caught err => ∀ lastEventId oldest, err = .bus (.cursorBehindTtlWindow lastEventId oldest) →
      ∀ k ∈ shelf, oldest ≤ k
  | .recoverFromStale oldest => ∀ k ∈ shelf, oldest ≤ k
  | .ackSelect _ _ | .ackUpdate _ _ => False
  | _ => True

structure Stuck (opts : StreamOpts) (filter : Text) (shelf : Finset ℤ) (bound : ℤ) (t : StreamSystem) (last : ℤ) :
    Prop where
  placed : Placed opts.cursorId filter t.world.bus last
  below : ∀ k ∈ shelf, last < k
  shelved : Shelved filter shelf t.world.bus
  page : ∀ e ∈ printed t.lines, e.eventId ≤ bound
  phase : StuckPhase filter shelf bound t.world.bus last t.phase

section NoAck

variable {opts : StreamOpts} {env : DrainEnv} {filter : Text} {shelf : Finset ℤ} {bound last : ℤ} {t t' : StreamSystem}
  {db : Db} {e : EventRow} {n : ℕ} {m : StreamMove}

theorem page_le (hfull : n ≤ shelf.card) (hbelow : ∀ k ∈ shelf, last < k) (hbound : ∀ k ∈ shelf, k ≤ bound)
    (hshelved : Shelved filter shelf db) (he : e ∈ pollSelect db filter last n) : e.eventId ≤ bound := by
  by_contra hlt
  have hbefore : ∀ k ∈ shelf, k < e.eventId := fun k hk => (hbound k hk).trans_lt (not_le.mp hlt)
  have hselected : insert e.eventId shelf ⊆ ((pollSelect db filter last n).map EventRow.eventId).toFinset := by
    intro k hk
    rw [List.mem_toFinset,List.mem_map]
    rcases Finset.mem_insert.mp hk with rfl | hk
    · exact ⟨e,he,rfl⟩
    · obtain ⟨x,hx,rfl,hmatch⟩ := hshelved k hk
      rcases pollSelect_cover hx (hbelow _ hk) hmatch with hmem | hall
      · exact ⟨x,hmem,rfl⟩
      · exact absurd (hall e he) (hbefore _ hk).not_gt
  have hfresh : e.eventId ∉ shelf := fun hk => (hbefore _ hk).false
  have hcard := (Finset.card_le_card hselected).trans (List.toFinset_card_le _)
  rw [Finset.card_insert_of_notMem hfresh,List.length_map] at hcard
  have hlength : (pollSelect db filter last n).length ≤ n := List.length_take_le _ _
  omega

theorem StuckPhase.world {w w' : World} {p : StreamPhase} {a : Action} (hstep : w.step a = some w')
    (h : StuckPhase filter shelf bound w.bus last p) : StuckPhase filter shelf bound w'.bus last p := by
  cases p with
  | selectMin cursor | selectFilter cursor => exact ⟨h.1,World.step_filter hstep h.2⟩
  | _ => exact h

theorem Stuck.goto {p : StreamPhase} {lines : List StreamLine} (h : Stuck opts filter shelf bound t last)
    (hlines : printed lines = []) (hphase : StuckPhase filter shelf bound t.world.bus last p) :
    Stuck opts filter shelf bound (t.moved ⟨p,t.world.bus,lines⟩) last := by
  refine ⟨h.placed,h.below,h.shelved,?_,hphase⟩
  rw [StreamSystem.moved,printed_append,hlines,List.append_nil]
  exact h.page

theorem Stuck.plain {err : StatementError} (h : Stuck opts filter shelf bound t last)
    (hplain : ∀ lastEventId oldest, err ≠ .bus (.cursorBehindTtlWindow lastEventId oldest)) :
    Stuck opts filter shelf bound (t.moved ⟨.caught err,t.world.bus,[]⟩) last :=
  h.goto rfl fun lastEventId oldest heq => absurd heq (hplain lastEventId oldest)

theorem Stuck.caught {err : StatementError} (h : Stuck opts filter shelf bound t last)
    (hphase : t.phase = .caught err) :
    Stuck opts filter shelf bound (t.moved (caughtStep opts.onStale t.world.bus err)) last := by
  have hpoint := h.phase
  rw [hphase] at hpoint
  unfold caughtStep
  split
  · split_ifs
    · exact h.goto rfl (hpoint _ _ rfl)
    · exact h.goto rfl trivial
  · refine h.goto rfl ?_
    split_ifs <;> trivial

theorem Stuck.stream (h : Stuck opts filter shelf bound t last) (hack : opts.noAck = true)
    (hfull : effectiveBatchSize opts.batchSize ≤ shelf.card) (hbound : ∀ k ∈ shelf, k ≤ bound)
    (heffect : StreamEffect opts env t.world.bus t.phase m)
    (hshelved : Shelved filter shelf m.bus) : ∃ last', Stuck opts filter shelf bound (t.moved m) last' := by
  obtain ⟨w,p,lines⟩ := t
  have hpoint := h.phase
  cases heffect with
  | failed hplain => exact ⟨last,h.plain hplain⟩
  | behind hgap hleast =>
    refine ⟨last,h.goto rfl fun lastEventId oldest heq k hk => ?_⟩
    cases heq
    obtain ⟨x,hx,rfl,-⟩ := h.shelved k hk
    exact hleast.least x.fixedPart (mem_live hx)
  | selected hfound => exact ⟨last,h.goto rfl (h.placed.pollCursor hfound)⟩
  | inside cursor => exact ⟨last,h.goto rfl hpoint⟩
  | filtered hfound =>
    obtain ⟨s,hs,htext⟩ := hpoint.2
    rw [pollFilter,hs] at hfound
    exact ⟨last,h.goto rfl ⟨(Except.ok.inj hfound).symm.trans htext,hpoint.1⟩⟩
  | read f lastEventId =>
    obtain ⟨rfl,rfl⟩ := hpoint
    exact ⟨lastEventId,h.goto rfl fun e he => page_le hfull h.below hbound h.shelved he⟩
  | delivered => exact ⟨last,h.goto rfl trivial⟩
  | print event rest =>
    rw [hack]
    refine ⟨last,h.placed,h.below,h.shelved,?_,fun y hy => hpoint y (List.mem_cons_of_mem _ hy)⟩
    rw [StreamSystem.moved,printed_append]
    intro y hy
    rcases List.mem_append.mp hy with hy | hy
    · exact h.page y hy
    · cases List.mem_singleton.mp hy
      exact hpoint event List.mem_cons_self
  | acking event rest => exact absurd hpoint id
  | acked rest hmoved => exact absurd hpoint id
  | caught err => exact ⟨last,h.caught rfl⟩
  | refused oldest err => exact ⟨last,h.goto rfl trivial⟩
  | @reanchored db' oldest hmoved =>
    refine ⟨oldest - 1,h.placed.move hmoved,fun k hk => ?_,hshelved,?_,trivial⟩
    · have := hpoint k hk
      omega
    · rw [StreamSystem.moved,printed_append]
      exact fun y hy => h.page y ((List.mem_append.mp hy).resolve_right List.not_mem_nil)
  | waited =>
    refine ⟨last,h.goto rfl ?_⟩
    split_ifs <;> trivial

theorem Stuck.step (h : Stuck opts filter shelf bound t last) (hack : opts.noAck = true)
    (hfull : effectiveBatchSize opts.batchSize ≤ shelf.card) (hbound : ∀ k ∈ shelf, k ≤ bound) {a : StreamAction}
    (hok : KeepsShelf opts filter shelf t a) (hstep : t.step opts a = some t') :
    ∃ last', Stuck opts filter shelf bound t' last' := by
  have hshelved := hok.2 t' hstep
  cases a with
  | world a =>
    obtain ⟨w,hw,rfl⟩ := Option.map_eq_some_iff.mp hstep
    obtain ⟨c,hc,hlast,hfilter⟩ := h.placed.cursor
    have hplaced : Placed opts.cursorId filter w.bus last :=
      ⟨⟨c,(hok.1 w hw).trans hc,hlast,World.step_filter hw hfilter⟩⟩
    exact ⟨last,hplaced,h.below,hshelved,h.page,h.phase.world hw⟩
  | stream env =>
    obtain ⟨m,hm,rfl⟩ := Option.map_eq_some_iff.mp hstep
    exact h.stream hack hfull hbound (streamStep_effect hm) hshelved
  | restart =>
    cases hstep
    exact ⟨last,h.goto rfl trivial⟩

end NoAck

theorem no_ack_repeats_page {opts : StreamOpts} (hack : opts.noAck = true) {filter : Text} {w : World} {c : CursorRow}
    (hcursor : w.bus.cursors.get? opts.cursorId = some c) (hfilter : HasFilter filter w.bus c.subscriptionId)
    {shelf : Finset ℤ} {bound : ℤ} (hfull : effectiveBatchSize opts.batchSize ≤ shelf.card)
    (hshelf : ∀ k ∈ shelf, c.lastEventId < k ∧ k ≤ bound) (hshelved : Shelved filter shelf w.bus)
    {as : List StreamAction} {t : StreamSystem}
    (hrun : Run (StreamSystem.step opts) (KeepsShelf opts filter shelf) (.start w) as t) :
    ∀ e ∈ printed t.lines, e.eventId ≤ bound := by
  have hstart : Stuck opts filter shelf bound (.start w) c.lastEventId :=
    ⟨⟨c,hcursor,rfl,hfilter⟩,fun k hk => (hshelf k hk).1,hshelved,fun e he => absurd he List.not_mem_nil,trivial⟩
  obtain ⟨last,h⟩ := hrun.invariant (I := fun t => ∃ last, Stuck opts filter shelf bound t last)
    (fun _ _ _ ⟨_,hu⟩ hok hstep => hu.step hack hfull (fun k hk => (hshelf k hk).2) hok hstep) ⟨_,hstart⟩
  exact h.page

def StreamAction.own : StreamAction → Bool
  | .world _ => false
  | _ => true

theorem ownsCursor_of_own {opts : StreamOpts} (t : StreamSystem) (a : StreamAction) (h : a.own = true) :
    OwnsCursor opts t a := by
  cases a with
  | world a => cases h
  | _ => trivial

def streamSteps (n : ℕ) : List StreamAction := List.replicate n (.stream ⟨none,5000,false⟩)

def failedAck : List StreamAction :=
  streamSteps 5 ++ [.stream ⟨some ⟨"SQLITE_BUSY","database is locked"⟩,5000,false⟩] ++ streamSteps 13

def streamOpts (batchSize : ℕ) (noAck : Bool) : StreamOpts := ⟨"c1",batchSize,noAck,.recover⟩

theorem stream_in_order_sample : ∃ t : StreamSystem, (printed t.lines).map EventRow.eventId = [1,1,2] ∧
    Streamed (streamOpts 100 false) "wicked.*".toList 0 t := by
  have hreach : (exec World.step (.start .empty .empty) drainBacklog).any (fun w =>
      decide (w.bus.cursors.get? "c1" = some ⟨"c1","s1",0,none,0,none⟩) &&
      decide (w.bus.subscriptions.get? "s1" = some ⟨"s1","p",.subscriber,"wicked.*".toList,none,0,none⟩) &&
      (exec (guarded (fun _ a => a.own = true) (StreamSystem.step (streamOpts 100 false))) (.start w) failedAck).any
        (fun t => decide ((printed t.lines).map EventRow.eventId = [1,1,2]))) = true := by decide +kernel
  obtain ⟨w,-,hobs⟩ := (Option.any_eq_true _ _).mp hreach
  simp only [Bool.and_eq_true,decide_eq_true_eq] at hobs
  obtain ⟨⟨hcursor,hsub⟩,hobs⟩ := hobs
  obtain ⟨t,ht,hprinted⟩ := (Option.any_eq_true _ _).mp hobs
  exact ⟨t,of_decide_eq_true hprinted,@stream_in_order (streamOpts 100 false) rfl _ w _ hcursor ⟨_,hsub,rfl⟩ _ t
    ((run_of_guarded ht).mono ownsCursor_of_own)⟩

instance (filter : Text) (shelf : Finset ℤ) (db : Db) : Decidable (Shelved filter shelf db) :=
  inferInstanceAs (Decidable (∀ k ∈ shelf, ∃ x ∈ db.events.rows, x.eventId = k ∧ x.matchesSql filter = true))

theorem no_ack_repeats_page_sample : ∃ t : StreamSystem, (printed t.lines).map EventRow.eventId = [1,1] ∧
    ∀ e ∈ printed t.lines, e.eventId ≤ 1 := by
  have hreach : (exec World.step (.start .empty .empty) drainBacklog).any (fun w =>
      decide (w.bus.cursors.get? "c1" = some ⟨"c1","s1",0,none,0,none⟩) &&
      decide (w.bus.subscriptions.get? "s1" = some ⟨"s1","p",.subscriber,"wicked.*".toList,none,0,none⟩) &&
      decide (Shelved "wicked.*".toList {1} w.bus) &&
      (exec (guarded (fun t a => a.own = true ∧ ∀ t' ∈ t.step (streamOpts 1 true) a,
          Shelved "wicked.*".toList {1} t'.world.bus) (StreamSystem.step (streamOpts 1 true)))
        (.start w) (streamSteps 14)).any
        (fun t => decide ((printed t.lines).map EventRow.eventId = [1,1]))) = true := by decide +kernel
  obtain ⟨w,-,hobs⟩ := (Option.any_eq_true _ _).mp hreach
  simp only [Bool.and_eq_true,decide_eq_true_eq] at hobs
  obtain ⟨⟨⟨hcursor,hsub⟩,hshelf⟩,hobs⟩ := hobs
  obtain ⟨t,ht,hprinted⟩ := (Option.any_eq_true _ _).mp hobs
  exact ⟨t,of_decide_eq_true hprinted,@no_ack_repeats_page (streamOpts 1 true) rfl _ w _ hcursor ⟨_,hsub,rfl⟩ {1} 1
    (by decide) (by decide) hshelf _ t ((run_of_guarded ht).mono fun t a h =>
      ⟨ownsCursor_of_own t a h.1,h.2⟩)⟩

end WickedBus
