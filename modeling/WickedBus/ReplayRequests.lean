import WickedBus.Snapshots
import WickedBus.Stopping

namespace WickedBus

open GuardedRun Trace

inductive ReplayMark where
  | requested (dlId : ℤ)
  | started (dlId : ℤ)
  deriving DecidableEq, Repr

structure ReplayLog where
  host : Host
  marks : List ReplayMark

def LoopEvent.startsReplay : LoopEvent → Option ReplayMark
  | .replayed dlId => some (.started dlId)
  | _ => none

def requestsReplay : HostAction → List ReplayMark
  | .world (.bus (.replayDeadLetter dlId _)) => [.requested dlId]
  | _ => []

def foreignDrain : HostAction → Bool
  | .world (.bus (.failReplay _ _)) => true
  | _ => false

def ReplayLog.step (cfg : SubscriberConfig) (r : ReplayLog) (a : HostAction) : Option ReplayLog :=
  if foreignDrain a then none
  else (r.host.step cfg a).map (fun h =>
    ⟨h,r.marks ++ requestsReplay a ++ (h.trace.drop r.host.trace.length).filterMap LoopEvent.startsReplay⟩)

def ReplayLog.start (w : World) : ReplayLog := ⟨.idle w,[]⟩

def Marked (db : Db) (dlId : ℤ) : Prop :=
  ∀ row ∈ db.deadLetters, row.dlId = dlId → row.replayRequestedAt.isSome = true

def Unserved (marks : List ReplayMark) (dlId : ℤ) : Prop := Since (.requested dlId) (.started dlId) marks

def RequestsKept (r : ReplayLog) : Prop :=
  ∀ dlId, Unserved r.marks dlId → Marked r.host.world.bus dlId

def ClearsMarker (cfg : SubscriberConfig) (env : TickEnv) (db : Db) (row : DeadLetterRow) (err : Thrown) : Prop :=
  env.failure = none ∧ (err.message.bind cfg.bind).isSome = true ∧ ∃ d ∈ db.deadLetters, d.dlId = row.dlId

def ReplayOk (cfg : SubscriberConfig) (r : ReplayLog) : HostAction → Prop
  | .resume i env => ∀ s ∈ r.host.sub, ∀ row err, s.ticks[i]? = some (.replayCaught row err) →
      ClearsMarker cfg env r.host.world.bus row err → ¬ Unserved r.marks row.dlId
  | _ => True

structure KeepsMarks (db db' : Db) : Prop where
  seq : db.deadLetterSeq ≤ db'.deadLetterSeq
  marked : ∀ dlId ≤ db.deadLetterSeq, Marked db dlId → Marked db' dlId

section Marks

variable {db db' : Db} {dlId now : ℤ}

theorem keepsMarks_of_same (hrows : db'.deadLetters = db.deadLetters) (hseq : db'.deadLetterSeq = db.deadLetterSeq) :
    KeepsMarks db db' where
  seq := hseq.ge
  marked _ _ h row hrow := h row (hrows ▸ hrow)

theorem keepsMarks_frame (h : Db.Frame db db') : KeepsMarks db db' :=
  keepsMarks_of_same h.deadLetters h.deadLetterSeq

theorem keepsMarks_append {row : DeadLetterRow} (h : row.dlId = db.deadLetterSeq + 1) :
    KeepsMarks db (appendDeadLetter db row h) where
  seq := (Int.lt_succ db.deadLetterSeq).le
  marked dlId hle hmarked r hr hid := by
    rcases KeyedTable.mem_insertOrIgnore.mp hr with hr | ⟨rfl,-⟩
    · exact hmarked r hr hid
    · omega

theorem keepsMarks_delete (db : Db) (dlId : ℤ) : KeepsMarks db (deleteDeadLetter db dlId) where
  seq := le_rfl
  marked _ _ h row hrow := h row (KeyedTable.mem_filter.mp hrow).1

theorem mem_updated {f : DeadLetterRow → DeadLetterRow} {hf : ∀ d, (f d).dlId = d.dlId} {row : DeadLetterRow}
    (h : row ∈ (updateDeadLetter db dlId f hf).deadLetters) :
    (row.dlId = dlId ∧ ∃ old ∈ db.deadLetters, f old = row) ∨ (row.dlId ≠ dlId ∧ row ∈ db.deadLetters) := by
  simp only [updateDeadLetter,KeyedTable.mem_map] at h
  obtain ⟨old,hold,rfl⟩ := h
  split_ifs with hid
  · exact .inl ⟨(hf old).trans hid,old,hold,rfl⟩
  · exact .inr ⟨hid,hold⟩

theorem replayDeadLetter_marks (h : replayDeadLetter db dlId now = .ok db') :
    KeepsMarks db db' ∧ Marked db' dlId ∧ dlId ≤ db.deadLetterSeq := by
  have hrow : dlId ≤ db.deadLetterSeq := by
    unfold replayDeadLetter at h
    split_ifs at h with hnone
    obtain ⟨row,hget⟩ := Option.isSome_iff_exists.mp (Option.isSome_iff_ne_none.mpr (by simpa using hnone))
    obtain ⟨hmem,rfl⟩ := KeyedTable.get?_eq_some.mp hget
    exact db.deadLetters_le_seq row hmem
  rw [replayDeadLetter_ok h]
  refine ⟨⟨le_rfl,fun d _ hmarked row hr hid => ?_⟩,fun row hr hid => ?_,hrow⟩
  · rcases mem_updated hr with ⟨-,old,-,rfl⟩ | ⟨-,hold⟩
    · rfl
    · exact hmarked row hold hid
  · rcases mem_updated hr with ⟨-,old,-,rfl⟩ | ⟨hne,-⟩
    · rfl
    · exact absurd hid hne

theorem recordReplayFailure_marks (db : Db) (dlId : ℤ) (lastError : Option String) :
    (∀ d ≠ dlId, Marked db d → Marked (recordReplayFailure db dlId lastError) d) ∧
      (Marked (recordReplayFailure db dlId lastError) dlId ↔ ∀ row ∈ db.deadLetters, row.dlId ≠ dlId) := by
  refine ⟨fun d hne hmarked row hr hid => ?_,fun hmarked row hrow hid => ?_,fun hnone row hr hid => ?_⟩
  · rcases mem_updated hr with ⟨hd,-⟩ | ⟨-,hold⟩
    · exact absurd (hid.symm.trans hd) hne
    · exact hmarked row hold hid
  · obtain ⟨r,hr,hrid,hcleared,-⟩ := recordReplayFailure_mem hrow lastError
    rw [hid] at hr hrid
    have hset := hmarked r hr hrid
    rw [hcleared] at hset
    cases hset
  · rcases mem_updated hr with ⟨-,old,hold,rfl⟩ | ⟨hne,-⟩
    · exact absurd hid (hnone old hold)
    · exact absurd hid hne

theorem KeepsMarks.refl (db : Db) : KeepsMarks db db := keepsMarks_of_same rfl rfl

theorem KeepsMarks.trans {a b c : Db} (hab : KeepsMarks a b) (hbc : KeepsMarks b c) : KeepsMarks a c where
  seq := hab.seq.trans hbc.seq
  marked dlId hle h := hbc.marked dlId (hle.trans hab.seq) (hab.marked dlId hle h)

theorem deregisterOne_marks (now : ℤ) (db : Db) (sub : SubscriptionRow) : KeepsMarks db (deregisterOne now db sub) := by
  unfold deregisterOne
  cases sub.role <;> exact keepsMarks_of_same rfl rfl

theorem deregisterAll_marks (now : ℤ) (db : Db) (subs : List SubscriptionRow) :
    KeepsMarks db (subs.foldl (deregisterOne now) db) := by
  induction subs generalizing db with
  | nil => exact .refl db
  | cons sub subs ih => exact (deregisterOne_marks now db sub).trans (ih _)

theorem busOp_marks {op : BusOp} (h : op.apply db = some db') (hown : ∀ dlId e, op ≠ .failReplay dlId e) :
    KeepsMarks db db' := by
  cases op with
  | emit params uuid => exact keepsMarks_frame (emit_frame (toOption_eq_some.mp h))
  | sweep config clock =>
    obtain ⟨⟨_,result⟩,hr,rfl⟩ := Option.map_eq_some_iff.mp h
    obtain ⟨policy,capDays,-,-,rfl⟩ := runSweep_ok (toOption_eq_some.mp hr)
    exact keepsMarks_frame (sweepTransaction_frame _ _ _ _ _).1
  | insertSubscription row =>
    rw [insertSubscription_ok h]
    exact keepsMarks_of_same rfl rfl
  | insertCursor row =>
    rw [insertCursor_ok h]
    exact keepsMarks_of_same rfl rfl
  | deregister id now =>
    obtain ⟨sub,rfl⟩ := deregister_ok (toOption_eq_some.mp h)
    exact deregisterOne_marks now db sub
  | deregisterByPlugin plugin role now =>
    obtain ⟨subs,rfl⟩ := deregisterByPlugin_ok (toOption_eq_some.mp h)
    exact deregisterAll_marks now db subs
  | moveCursor cursorId pos now =>
    rw [moveCursor_ok (toOption_eq_some.mp h)]
    exact keepsMarks_of_same rfl rfl
  | replayCursor cursorId pos =>
    cases h
    exact keepsMarks_of_same rfl rfl
  | upsertDeliveryAttempt row =>
    rw [upsertDeliveryAttempt_ok h]
    exact keepsMarks_of_same rfl rfl
  | deleteDeliveryAttempt cursorId eventId =>
    cases h
    exact keepsMarks_of_same rfl rfl
  | moveToDeadLetter cursorId subscriptionId event attempts reason now =>
    rw [moveToDeadLetter_ok h]
    exact keepsMarks_append rfl
  | replayDeadLetter dlId now => exact (replayDeadLetter_marks (toOption_eq_some.mp h)).1
  | dropDeadLetter dlId =>
    rw [dropDeadLetter_ok (toOption_eq_some.mp h)]
    exact keepsMarks_delete db dlId
  | failReplay dlId lastError => exact absurd rfl (hown dlId lastError)

theorem sweeperStep_marks (env : StepEnv) (cfg : PassConfig) (db : Db) (archive : Archive) (ph : Phase) :
    KeepsMarks db (sweeperStep env cfg db archive ph).bus := by
  rcases sweeperStep_bus env cfg db archive ph with h | ⟨ids,-,h⟩ | ⟨moved,-,h⟩ <;> rw [h] <;>
    exact keepsMarks_of_same rfl rfl

theorem World.step_marks {w w' : World} {a : Action} (h : w.step a = some w')
    (hown : foreignDrain (.world a) = false) : KeepsMarks w.bus w'.bus := by
  cases a with
  | bus op =>
    obtain ⟨db,hop,rfl⟩ := Option.map_eq_some_iff.mp h
    refine busOp_marks hop fun dlId e heq => ?_
    rw [heq] at hown
    cases hown
  | beginSweep p config clock =>
    obtain ⟨cfg,-,-,rfl⟩ := World.step_begin h
    exact .refl _
  | sweep p env =>
    obtain ⟨s,-,rfl⟩ := World.step_sweep h
    exact sweeperStep_marks env s.cfg w.bus w.archive s.phase
  | crash p =>
    cases h
    exact .refl _

end Marks

section Tick

variable {cfg : SubscriberConfig} {env : TickEnv} {stopping : Bool} {sleep : ℕ} {db : Db} {p : TickPoint}

theorem throwIn_marks (db : Db) (work : Work) (handled : Bool) (e : StatementError) :
    KeepsMarks db (throwIn db work handled e).bus := by
  unfold throwIn
  split_ifs <;> exact .refl db

theorem tickStep_marks (hp : ∀ row err, p ≠ .replayCaught row err) :
    KeepsMarks db (tickStep cfg env stopping sleep db p).bus := by
  cases p with
  | replayCaught row err => exact absurd rfl (hp row err)
  | replayDelete row =>
    simp only [tickStep]
    split
    · exact .refl db
    · rename_i hstatement
      obtain ⟨-,hdelete⟩ := statement_ok hstatement
      obtain rfl := Except.ok.inj hdelete
      exact keepsMarks_delete db row.dlId
  | deadLetter work reason =>
    simp only [tickStep]
    split
    · exact .refl db
    · split
      · exact .refl db
      · rename_i hstatement
        rw [moveToDeadLetter_ok (foreignKey_ok (statement_ok hstatement).2)]
        exact keepsMarks_append rfl
  | deleteAttempt work handled =>
    simp only [tickStep]
    split
    · exact throwIn_marks db work handled _
    · rename_i hstatement
      obtain rfl := Except.ok.inj (statement_ok hstatement).2
      exact keepsMarks_of_same rfl rfl
  | ackUpdate work handled =>
    simp only [tickStep]
    split
    · exact throwIn_marks db work handled _
    · rename_i hstatement
      rw [moveCursor_ok (ofBus_ok (statement_ok hstatement).2)]
      exact keepsMarks_of_same rfl rfl
  | upsertAttempt work message =>
    simp only [tickStep]
    split
    · exact .refl db
    · split
      · exact .refl db
      · rename_i hstatement
        rw [upsertDeliveryAttempt_ok (foreignKey_ok (statement_ok hstatement).2)]
        exact keepsMarks_of_same rfl rfl
  | reanchor lastEventId oldest =>
    simp only [tickStep]
    split
    · exact .refl db
    · rename_i hstatement
      rw [moveCursor_ok (reanchorCursor_ok (ofBus_ok (statement_ok hstatement).2))]
      exact keepsMarks_of_same rfl rfl
  | ackSelect work handled =>
    simp only [tickStep]
    split
    · exact throwIn_marks db work handled _
    · exact .refl db
  | _ =>
    simp only [↓tickStep_batch,tickStep]
    repeat' split
    all_goals exact .refl db

theorem replayCaught_marks {row : DeadLetterRow} {err : Thrown} :
    (ClearsMarker cfg env db row err ∧ (tickStep cfg env stopping sleep db (.replayCaught row err)).events = [] ∧
      (∀ d ≠ row.dlId, Marked db d → Marked (tickStep cfg env stopping sleep db (.replayCaught row err)).bus d) ∧
      ¬ Marked (tickStep cfg env stopping sleep db (.replayCaught row err)).bus row.dlId ∧
      (tickStep cfg env stopping sleep db (.replayCaught row err)).bus.deadLetterSeq = db.deadLetterSeq) ∨
    (¬ ClearsMarker cfg env db row err ∧
      KeepsMarks db (tickStep cfg env stopping sleep db (.replayCaught row err)).bus) := by
  cases hbind : err.message.bind cfg.bind with
  | none =>
    refine .inr ⟨fun h => ?_,?_⟩
    · rw [ClearsMarker,hbind] at h
      cases h.2.1
    · simp only [tickStep,hbind]
      exact .refl db
  | some lastError =>
    cases hfailure : env.failure with
    | some e =>
      refine .inr ⟨fun h => ?_,?_⟩
      · rw [ClearsMarker,hfailure] at h
        cases h.1
      · simp only [tickStep,hbind,TickEnv.statement,hfailure]
        exact .refl db
    | none =>
      have hstep : tickStep cfg env stopping sleep db (.replayCaught row err) =
          goto (recordReplayFailure db row.dlId lastError) .drained := by
        simp only [tickStep,hbind,TickEnv.statement,hfailure]
      obtain ⟨hothers,hown⟩ := recordReplayFailure_marks db row.dlId lastError
      rw [hstep]
      by_cases hrow : ∃ d ∈ db.deadLetters, d.dlId = row.dlId
      · left
        refine ⟨⟨hfailure,by rw [hbind]; rfl,hrow⟩,rfl,hothers,fun hmarked => ?_,rfl⟩
        obtain ⟨d,hd,hid⟩ := hrow
        exact hown.mp hmarked d hd hid
      · refine .inr ⟨fun h => hrow h.2.2,⟨le_rfl,fun d _ hmarked => ?_⟩⟩
        by_cases hd : d = row.dlId
        · subst hd
          exact hown.mpr fun r hr hid => hrow ⟨r,hr,hid⟩
        · exact hothers d hd hmarked

end Tick

section Requests

variable {cfg : SubscriberConfig} {r r' : ReplayLog} {a : HostAction} {marks : List ReplayMark} {dlId d : ℤ}

theorem unserved_started {es : List LoopEvent} (h : Unserved (marks ++ es.filterMap LoopEvent.startsReplay) d) :
    Unserved marks d := by
  obtain ⟨before,after,heq,hafter⟩ := h
  rcases append_split heq with ⟨rest,rfl,rfl⟩ | ⟨pre,-,hpre⟩
  · exact ⟨before,rest,rfl,fun h => hafter (List.mem_append_left _ h)⟩
  · have hmem : ReplayMark.requested d ∈ es.filterMap LoopEvent.startsReplay := by
      rw [hpre]
      exact List.mem_append_right _ List.mem_cons_self
    obtain ⟨e,-,he⟩ := List.mem_filterMap.mp hmem
    cases e <;> cases he

theorem unserved_requested (h : Unserved (marks ++ [.requested dlId]) d) : d = dlId ∨ Unserved marks d := by
  by_cases hd : d = dlId
  · exact .inl hd
  · exact .inr ((since_append (by simpa using hd) (by simp)).mp h)

theorem requestsReplay_cases (a : HostAction) : requestsReplay a = [] ∨
    ∃ dlId now, a = .world (.bus (.replayDeadLetter dlId now)) ∧ requestsReplay a = [.requested dlId] := by
  cases a with
  | world a =>
    cases a with
    | bus op =>
      cases op with
      | replayDeadLetter dlId now => exact .inr ⟨dlId,now,rfl,rfl⟩
      | _ => exact .inl rfl
    | _ => exact .inl rfl
  | _ => exact .inl rfl

def RequestsBelow (r : ReplayLog) : Prop :=
  ∀ d, Unserved r.marks d → d ≤ r.host.world.bus.deadLetterSeq

theorem ReplayLog.step_eq (h : r.step cfg a = some r') : foreignDrain a = false ∧
    r.host.step cfg a = some r'.host ∧ ∃ es : List LoopEvent,
      es = r'.host.trace.drop r.host.trace.length ∧
      r'.marks = r.marks ++ requestsReplay a ++ es.filterMap LoopEvent.startsReplay := by
  unfold ReplayLog.step at h
  split_ifs at h with hforeign
  obtain ⟨host,hhost,rfl⟩ := Option.map_eq_some_iff.mp h
  exact ⟨Bool.eq_false_iff.mpr hforeign,hhost,_,rfl,rfl⟩

inductive ReplayStep (cfg : SubscriberConfig) (r : ReplayLog) (a : HostAction) (r' : ReplayLog) : Prop
  | request (dlId now : ℤ) (action : a = .world (.bus (.replayDeadLetter dlId now)))
      (keeps : KeepsMarks r.host.world.bus r'.host.world.bus) (marked : Marked r'.host.world.bus dlId)
      (below : dlId ≤ r.host.world.bus.deadLetterSeq)
      (marks : ∀ d, Unserved r'.marks d → d = dlId ∨ Unserved r.marks d)
  | keep (keeps : KeepsMarks r.host.world.bus r'.host.world.bus)
      (marks : ∀ d, Unserved r'.marks d → Unserved r.marks d) (ok : ReplayOk cfg r a)
  | clear (row : DeadLetterRow) (ok : ReplayOk cfg r a ↔ ¬ Unserved r.marks row.dlId)
      (others : ∀ d ≠ row.dlId, Marked r.host.world.bus d → Marked r'.host.world.bus d)
      (cleared : ¬ Marked r'.host.world.bus row.dlId)
      (seq : r'.host.world.bus.deadLetterSeq = r.host.world.bus.deadLetterSeq) (marks : r'.marks = r.marks)

theorem ReplayLog.step_resume {i : ℕ} {env : TickEnv} (h : r.step cfg (.resume i env) = some r') :
    ReplayStep cfg r (.resume i env) r' := by
  obtain ⟨-,hhost,es,hes,hmarks⟩ := ReplayLog.step_eq h
  obtain ⟨s,hs,hresume⟩ := Option.bind_eq_some_iff.mp hhost
  split at hresume
  · cases hresume
  · rename_i p hp
    split_ifs at hresume
    have hhost' := Option.some.inj hresume
    have hbus : r'.host.world.bus = (tickStep cfg env s.stopping s.fresh r.host.world.bus p).bus := by
      rw [← hhost']
      rfl
    have hevents : es = (tickStep cfg env s.stopping s.fresh r.host.world.bus p).events := by
      rw [hes,← hhost']
      exact List.drop_left
    have hmarks' : ∀ d, Unserved r'.marks d → Unserved r.marks d := by
      intro d hd
      rw [hmarks,show requestsReplay (.resume i env) = [] from rfl,List.append_nil] at hd
      exact unserved_started hd
    have hok : (∀ row err, p = .replayCaught row err → ¬ ClearsMarker cfg env r.host.world.bus row err) →
        ReplayOk cfg r (.resume i env) := by
      intro hnot s' hs' row err hpoint hclears
      obtain rfl := Option.some.inj (hs.symm.trans hs')
      exact absurd hclears (hnot row err (Option.some.inj (hp.symm.trans hpoint)))
    by_cases hcaught : ∃ row err, p = .replayCaught row err
    · obtain ⟨row,err,rfl⟩ := hcaught
      rcases @replayCaught_marks cfg env s.stopping s.fresh r.host.world.bus row err with
        ⟨hclears,hquiet,hothers,hcleared,hseq⟩ | ⟨hnot,hkeeps⟩
      · rw [← hbus] at hothers hcleared hseq
        refine .clear row ⟨fun h => h s hs row err hp hclears,fun hun s' hs' row' err' hpoint _ => ?_⟩ hothers hcleared
          hseq ?_
        · obtain rfl := Option.some.inj (hs.symm.trans hs')
          cases Option.some.inj (hp.symm.trans hpoint)
          exact hun
        · rw [hmarks,hevents,hquiet]
          simp [requestsReplay]
      · refine .keep (hbus ▸ hkeeps) hmarks' (hok fun row' err' heq => ?_)
        cases heq
        exact hnot
    · refine .keep (hbus ▸ tickStep_marks fun row err heq => hcaught ⟨row,err,heq⟩) hmarks' (hok fun row err heq => ?_)
      exact absurd ⟨row,err,heq⟩ hcaught

theorem ReplayLog.step_cases (h : r.step cfg a = some r') : ReplayStep cfg r a r' := by
  have hkeep : ∀ host : Host, r'.host = host → host.world.bus = r.host.world.bus → requestsReplay a = [] →
      ReplayOk cfg r a → ReplayStep cfg r a r' := by
    rintro host rfl hbus hnone hok
    obtain ⟨-,-,es,-,hmarks⟩ := ReplayLog.step_eq h
    refine .keep (hbus ▸ .refl _) (fun d hd => ?_) hok
    rw [hmarks,hnone,List.append_nil] at hd
    exact unserved_started hd
  obtain ⟨hforeign,hhost,es,hes,hmarks⟩ := ReplayLog.step_eq h
  cases a with
  | resume i env => exact r.step_resume h
  | world a =>
    obtain ⟨w,hw,hhost'⟩ := Option.map_eq_some_iff.mp hhost
    have hbus : r'.host.world = w := by rw [← hhost']
    have hkeeps : KeepsMarks r.host.world.bus r'.host.world.bus := hbus ▸ World.step_marks hw hforeign
    rcases requestsReplay_cases (.world a) with hnone | ⟨dlId,now,haction,hrequest⟩
    · refine .keep hkeeps (fun d hd => ?_) trivial
      rw [hmarks,hnone,List.append_nil] at hd
      exact unserved_started hd
    · have hop : a = .bus (.replayDeadLetter dlId now) := HostAction.world.inj haction
      rw [hop] at hw
      obtain ⟨db,hdb,rfl⟩ := Option.map_eq_some_iff.mp hw
      obtain ⟨-,hmarked,hbelow⟩ := replayDeadLetter_marks (toOption_eq_some.mp hdb)
      refine .request dlId now haction hkeeps (hbus ▸ hmarked) hbelow fun d hd => ?_
      rw [hmarks,hrequest] at hd
      exact unserved_requested (unserved_started hd)
  | fire timer =>
    obtain ⟨s,-,hfire⟩ := Option.bind_eq_some_iff.mp hhost
    obtain ⟨s',-,hhost'⟩ := Option.map_eq_some_iff.mp hfire
    exact hkeep _ hhost'.symm rfl rfl trivial
  | stop =>
    obtain ⟨s,-,hstop⟩ := Option.bind_eq_some_iff.mp hhost
    split_ifs at hstop <;> exact hkeep _ (Option.some.inj hstop).symm rfl rfl trivial
  | crash => exact hkeep _ (Option.some.inj hhost).symm rfl rfl trivial
  | start =>
    simp only [Host.step] at hhost
    split_ifs at hhost
    exact hkeep _ (Option.some.inj hhost).symm rfl rfl trivial

theorem ReplayStep.below (h : ReplayStep cfg r a r') (hbelow : RequestsBelow r) : RequestsBelow r' := by
  intro d hd
  cases h with
  | request dlId now action keeps marked below marks =>
    rcases marks d hd with rfl | hold
    · exact below.trans keeps.seq
    · exact (hbelow d hold).trans keeps.seq
  | keep keeps marks ok => exact (hbelow d (marks d hd)).trans keeps.seq
  | clear row ok others cleared seq marks =>
    rw [seq]
    exact hbelow d (marks ▸ hd)

theorem ReplayStep.kept_iff (h : ReplayStep cfg r a r') (hbelow : RequestsBelow r) (hkept : RequestsKept r) :
    RequestsKept r' ↔ ReplayOk cfg r a := by
  cases h with
  | request dlId now action keeps marked below marks =>
    subst action
    refine iff_of_true (fun d hd => ?_) trivial
    rcases marks d hd with rfl | hold
    · exact marked
    · exact keeps.marked d (hbelow d hold) (hkept d hold)
  | keep keeps marks ok =>
    exact iff_of_true (fun d hd => keeps.marked d (hbelow d (marks d hd)) (hkept d (marks d hd))) ok
  | clear row ok others cleared seq marks =>
    rw [ok]
    constructor
    · exact fun hkept' hun => cleared (hkept' row.dlId (marks ▸ hun))
    · intro hserved d hd
      have hold : Unserved r.marks d := marks ▸ hd
      exact others d (fun heq => hserved (heq ▸ hold)) (hkept d hold)

end Requests

theorem replay_requests_kept_iff (cfg : SubscriberConfig) (w : World) (as : List HostAction) (r : ReplayLog) :
    (Run (ReplayLog.step cfg) (ReplayOk cfg) (.start w) as r → RequestsKept r) ∧
    (Run (ReplayLog.step cfg) (ReplayOk cfg) (.start w) as r ↔
      Run (ReplayLog.step cfg) (fun s a => ∀ s' ∈ s.step cfg a, RequestsKept s') (.start w) as r) := by
  have hstart : RequestsBelow (.start w) ∧ RequestsKept (.start w) :=
    ⟨fun d h => absurd (mem_of_since h) List.not_mem_nil,fun d h => absurd (mem_of_since h) List.not_mem_nil⟩
  have hok : ∀ s a s', RequestsBelow s ∧ RequestsKept s → ReplayOk cfg s a → s.step cfg a = some s' →
      RequestsBelow s' ∧ RequestsKept s' := by
    intro s a s' hs hok hstep
    have hcases := s.step_cases hstep
    exact ⟨hcases.below hs.1,(hcases.kept_iff hs.1 hs.2).mpr hok⟩
  have hstays : ∀ s a s', RequestsBelow s ∧ RequestsKept s → (∀ u ∈ s.step cfg a, RequestsKept u) →
      s.step cfg a = some s' → RequestsBelow s' ∧ RequestsKept s' :=
    fun s a s' hs hkept hstep => ⟨(s.step_cases hstep).below hs.1,hkept s' hstep⟩
  refine ⟨fun hrun => (hrun.invariant hok hstart).2,fun hrun => ?_,fun hrun => ?_⟩
  · refine hrun.strengthen hok (fun s a _ hs hguard _ s' hstep => ?_) hstart
    exact (hok s a s' hs hguard hstep).2
  · refine hrun.strengthen hstays (fun s a s' hs hkept hstep => ?_) hstart
    exact ((s.step_cases hstep).kept_iff hs.1 hs.2).mp (hkept s' hstep)

def servedLast (r : ReplayLog) : HostAction → Bool
  | .resume i _ =>
    match r.host.sub.bind (fun s => s.ticks[i]?) with
    | some (.replayCaught row _) => decide (r.marks.getLast? = some (.started row.dlId))
    | _ => true
  | _ => true

theorem replayOk_of_servedLast {cfg : SubscriberConfig} {r : ReplayLog} {a : HostAction}
    (h : servedLast r a = true) : ReplayOk cfg r a := by
  cases a with
  | resume i env =>
    intro s hs row err hpoint _ hunserved
    have hsub : r.host.sub = some s := hs
    simp only [servedLast,hsub,Option.bind_some,hpoint,decide_eq_true_eq] at h
    obtain ⟨marks,hmarks⟩ := List.getLast?_eq_some_iff.mp h
    rw [Unserved,hmarks] at hunserved
    exact not_since_reset (by simp) hunserved
  | _ => trivial

def requestedBefore : List HostAction :=
  [.world (.bus (.replayDeadLetter 1 6)),.start,.fire 0,settle failed,settle failed,settle failed]

theorem replay_requests_kept_sample :
    ∃ r, Run (ReplayLog.step sampleSubscriber) (ReplayOk sampleSubscriber) (.start (World.start parkedDb .empty))
        requestedBefore r ∧
      r.marks = [.requested 1,.started 1] ∧ ¬ Marked r.host.world.bus 1 ∧ RequestsKept r := by
  have hexec : (exec (guarded (fun r a => servedLast r a = true) (ReplayLog.step sampleSubscriber))
      (.start (World.start parkedDb .empty)) requestedBefore).any (fun r =>
        decide (r.marks = [.requested 1,.started 1]) &&
        r.host.world.bus.deadLetters.rows.any (fun d => decide (d.dlId = 1) && d.replayRequestedAt.isNone)) =
      true := by decide +kernel
  obtain ⟨r,hr,hobs⟩ := (Option.any_eq_true _ _).mp hexec
  simp only [Bool.and_eq_true,decide_eq_true_eq,List.any_eq_true,Option.isNone_iff_eq_none] at hobs
  obtain ⟨hmarks,row,hrow,hid,hcleared⟩ := hobs
  have hrun : Run (ReplayLog.step sampleSubscriber) (ReplayOk sampleSubscriber)
      (.start (World.start parkedDb .empty)) requestedBefore r :=
    (run_of_guarded hr).mono fun _ _ h => replayOk_of_servedLast h
  refine ⟨r,hrun,hmarks,fun hmarked => ?_,(replay_requests_kept_iff _ _ _ _).1 hrun⟩
  have hset := hmarked row hrow hid
  rw [hcleared] at hset
  cases hset

def requestedInFlight : List HostAction :=
  [.start,.fire 0,settle failed,.world (.bus (.replayDeadLetter 1 6)),settle failed,settle failed]

theorem replay_request_lost :
    ∃ r, Run (ReplayLog.step sampleSubscriber) (fun _ _ => True) (.start (World.start parkedDb .empty))
        requestedInFlight r ∧
      r.marks = [.started 1,.requested 1] ∧ ¬ RequestsKept r := by
  have hexec : (exec (ReplayLog.step sampleSubscriber) (.start (World.start parkedDb .empty))
      requestedInFlight).any (fun r => decide (r.marks = [.started 1,.requested 1]) &&
        r.host.world.bus.deadLetters.rows.any (fun d => decide (d.dlId = 1) && d.replayRequestedAt.isNone)) =
      true := by decide +kernel
  obtain ⟨r,hr,hobs⟩ := (Option.any_eq_true _ _).mp hexec
  simp only [Bool.and_eq_true,decide_eq_true_eq,List.any_eq_true,Option.isNone_iff_eq_none] at hobs
  obtain ⟨hmarks,row,hrow,hid,hcleared⟩ := hobs
  refine ⟨r,run_of_exec hr,hmarks,fun hkept => ?_⟩
  have hunserved : Unserved r.marks 1 := ⟨[.started 1],[],hmarks,List.not_mem_nil⟩
  have hset := hkept 1 hunserved row hrow hid
  rw [hcleared] at hset
  cases hset

end WickedBus
