import WickedBus.EmitSteps

namespace WickedBus

open GuardedRun

section Rows

variable {db db' : Db} {params : NewEvent} {uuid : String}

theorem keyHolder_some {key : String} {holder : EventRow} (h : keyHolder db key = some holder) :
    holder ∈ db.events ∧ holder.idempotencyKey = key :=
  ⟨List.mem_of_find?_eq_some h,by simpa using List.find?_some h⟩

theorem keyHolder_none {key : String} (h : keyHolder db key = none) :
    ∀ e ∈ db.events, e.idempotencyKey ≠ key := by
  intro e he
  simpa using List.find?_eq_none.mp h e he

def renameRow (eventId : ℤ) (key : String) (e : EventRow) : EventRow :=
  if e.eventId = eventId then { e with idempotencyKey := key } else e

theorem mem_renameKey {eventId : ℤ} {key : String} {e : EventRow} :
    e ∈ (renameKey db eventId key).events ↔ ∃ old ∈ db.events, renameRow eventId key old = e := by
  simp [renameKey,renameRow]

theorem insertEvent_free (h : insertEvent db params = .ok db') :
    keyHolder db params.idempotencyKey = none := by
  unfold insertEvent at h
  split_ifs at h with hroom htaken
  simpa using htaken

theorem emitParamsInto_cases (h : emitParamsInto db params uuid = .ok db') :
    (keyHolder db params.idempotencyKey = none ∧ db' = appendEvent db params) ∨
    ∃ holder, keyHolder db params.idempotencyKey = some holder ∧
      holder.dedupExpiresAt < params.emittedAt ∧
      (∀ e ∈ db.events, e.idempotencyKey = params.idempotencyKey → e.eventId = holder.eventId) ∧
      db' = appendEvent (renameKey db holder.eventId (releasedKey holder uuid)) params := by
  have hroom := (emitParamsInto_ok h).1
  cases hholder : keyHolder db params.idempotencyKey with
  | none =>
    have hinsert : insertEvent db params = .ok (appendEvent db params) := by
      simp [insertEvent,not_le.mpr hroom,hholder]
    simp only [emitParamsInto,hinsert,Except.ok.injEq] at h
    exact .inl ⟨rfl,h.symm⟩
  | some holder =>
    have hinsert : insertEvent db params = .error (.duplicateEvent none params.idempotencyKey) := by
      simp [insertEvent,not_le.mpr hroom,hholder]
    simp only [emitParamsInto,hinsert,releaseExpiredKey,hholder] at h
    split_ifs at h with hopen htaken
    right
    simp only at h
    split at h
    · cases h
    · refine ⟨holder,rfl,not_le.mp hopen,fun e he hkey => ?_,(insertEvent_ok h).2⟩
      by_contra hother
      have hkept : e ∈ (renameKey db holder.eventId (releasedKey holder uuid)).events :=
        mem_renameKey.mpr ⟨e,he,if_neg hother⟩
      exact keyHolder_none (insertEvent_free h) e hkept hkey

def keepRow (e : EventRow) : EventRow := e

structure Rewrites (db db' : Db) (row : EventRow) (rename : EventRow → EventRow) : Prop where
  rows : ∀ e, e ∈ db'.events ↔ e = row ∨ ∃ old ∈ db.events, rename old = e
  renamed : ∀ old ∈ db.events, rename old = old ∨ (old.idempotencyKey = row.idempotencyKey ∧
    old.dedupExpiresAt < row.emittedAt ∧ ∃ key, rename old = { old with idempotencyKey := key })

theorem emit_rewrites (h : emitParamsInto db params uuid = .ok db') :
    ∃ rename, Rewrites db db' (params.row (db.eventSeq + 1)) rename := by
  rcases emitParamsInto_cases h with ⟨-,rfl⟩ | ⟨holder,hholder,hopen,-,rfl⟩
  · refine ⟨keepRow,fun e => ?_,fun old _ => .inl rfl⟩
    rw [mem_appendEvent,or_comm]
    simp [keepRow]
  · obtain ⟨hmem,hkey⟩ := keyHolder_some hholder
    refine ⟨renameRow holder.eventId (releasedKey holder uuid),fun e => ?_,fun old hold => ?_⟩
    · rw [mem_appendEvent,mem_renameKey,or_comm]
      rfl
    · unfold renameRow
      split_ifs with hid
      · obtain rfl := KeyedTable.eq_of_key hold hmem hid
        exact .inr ⟨hkey,hopen,_,rfl⟩
      · exact .inl rfl

end Rows

section Phases

variable {host : EmitHost} {call : EmitCall} {env : EmitStepEnv} {db : Db} {phase : EmitPhase}

def Accepts (host : EmitHost) (call : EmitCall) (v : Validated) : Prop :=
  validateEvent host.parsesToObject host.maxPayloadBytes call.event = .ok v

def Describes (host : EmitHost) (call : EmitCall) (params : NewEvent) : Prop :=
  ∃ v emittedAt registry, Accepts host call v ∧
    params = emitParams host.config v.event ⟨emittedAt,call.keyUuid,call.releaseUuid,call.ctx,registry⟩

def PhaseOk (host : EmitHost) (call : EmitCall) : EmitPhase → Prop
  | .getSchema p | .casPut p _ => Accepts host call p.validated
  | .insert _ params | .releaseKey _ params | .lookup params => Describes host call params
  | _ => True

theorem phaseOk_fail (e : EmitError) : PhaseOk host call (fail e) := trivial

theorem phaseOk_insert {p : Prepared} (h : Accepts host call p.validated) (registry : RegistryResult) :
    PhaseOk host call (p.insert host call registry) :=
  ⟨p.validated,p.emittedAt,registry,h,rfl⟩

theorem phaseOk_sqlError {params : NewEvent} (h : Describes host call params) (e : SqlError) :
    PhaseOk host call (afterSqlError params e) := by
  cases e with
  | unique => exact h
  | full code => trivial
  | other message => trivial

theorem phaseOk_beforeInsert (h : PhaseOk host call phase) :
    PhaseOk host call (beforeInsert host call env phase) := by
  cases phase with
  | validate =>
    simp only [beforeInsert]
    split
    · exact phaseOk_fail _
    · exact phaseOk_fail _
    · rename_i hv
      split
      · exact hv
      · exact phaseOk_fail _
  | getSchema p =>
    simp only [beforeInsert]
    repeat' split
    all_goals first | exact phaseOk_fail _ | exact phaseOk_insert h _ | exact h
  | casPut p schema =>
    simp only [beforeInsert]
    repeat' split
    all_goals first | exact phaseOk_fail _ | exact phaseOk_insert h _
  | _ => exact h

theorem phaseOk_advance (h : PhaseOk host call phase) :
    PhaseOk host call (emitAdvance host call env db phase).next := by
  cases phase with
  | validate | getSchema p | casPut p schema => exact phaseOk_beforeInsert h
  | insert bindable params =>
    simp only [emitAdvance]
    split
    · trivial
    · exact h
    · exact phaseOk_sqlError h _
  | releaseKey bindable params =>
    simp only [emitAdvance]
    split
    · trivial
    · exact phaseOk_sqlError h _
  | lookup params =>
    simp only [emitAdvance]
    split <;> exact phaseOk_fail _
  | reopen code => exact phaseOk_fail _
  | done outcome => trivial

end Phases

structure Written (host : EmitHost) (call : EmitCall) (before after : World) (eventId : ℤ)
    (key : String) : Prop where
  above : before.bus.eventSeq < eventId
  fresh : ∀ r ∈ before.log, r.eventId < eventId
  row : ∃ event row rename, call.event = some event ∧ key = orDefault event.idempotencyKey call.keyUuid ∧
    row.eventId = eventId ∧ row.idempotencyKey = key ∧
    row.expiresAt = row.emittedAt + event.ttlHours.getD host.config.ttlHours * 3600000 ∧
    Rewrites before.bus after.bus row rename

def Untouched (s : World × World) : Prop := s.2.bus.events = s.1.bus.events

def OutcomeOk (host : EmitHost) (r : Emitter) : Prop :=
  match r.phase with
  | .done (.returned eventId key) => ∃ earlier before after, r.steps = earlier ++ [(before,after)] ∧
      (∀ s ∈ earlier, Untouched s) ∧ Written host r.call before after eventId key
  | _ => ∀ s ∈ r.steps, Untouched s

structure EmitInvariant (host : EmitHost) (t : EmitSystem) : Prop where
  prov : Provenance t.world
  phase : ∀ p r, t.emitters p = some r → PhaseOk host r.call r.phase
  outcome : ∀ p r, t.emitters p = some r → OutcomeOk host r

section Atomic

variable {host : EmitHost} {t t' : EmitSystem}

theorem outcomeOk_of_untouched {r : Emitter} (hphase : r.phase.returned = false)
    (h : ∀ s ∈ r.steps, Untouched s) : OutcomeOk host r := by
  unfold OutcomeOk
  split
  · rename_i hdone
    rw [hdone] at hphase
    cases hphase
  · exact h

theorem OutcomeOk.untouched {r : Emitter} (h : OutcomeOk host r) (hphase : r.phase.returned = false) :
    ∀ s ∈ r.steps, Untouched s := by
  unfold OutcomeOk at h
  split at h
  · rename_i hdone
    rw [hdone] at hphase
    cases hphase
  · exact h

theorem running_not_returned {phase : EmitPhase} (h : phase.running = true) : phase.returned = false := by
  cases phase with
  | done outcome => cases h
  | _ => rfl

theorem written_of_commit {w w' : World} {call : EmitCall} {params : NewEvent} (hprov : Provenance w)
    (hdesc : Describes host call params)
    (hemit : emitParamsInto w.bus params call.releaseUuid = .ok w'.bus) :
    Written host call w w' w'.bus.eventSeq params.idempotencyKey := by
  obtain ⟨v,emittedAt,registry,haccepts,hparams⟩ := hdesc
  obtain ⟨event,hevent,hkey,httl⟩ := validateEvent_ok haccepts
  obtain ⟨rename,hrewrites⟩ := emit_rewrites hemit
  have hseq := emit_eventSeq hemit
  refine ⟨by omega,fun r hr => ?_,event,_,rename,hevent,?_,hseq.symm,rfl,?_,hrewrites⟩
  · have := hprov.log_le r hr
    omega
  · rw [hparams,← hkey]
    rfl
  · rw [hparams,← httl]
    rfl

theorem emitters_update {p q : ℕ} {next : Option Emitter} {r : Emitter}
    (h : Function.update t.emitters p next q = some r) : next = some r ∨ t.emitters q = some r :=
  (update_eq_some h).imp And.right And.right

theorem EmitInvariant.start (db : Db) (archive : Archive) : EmitInvariant host (.start db archive) where
  prov := .start db archive
  phase p r h := by cases h
  outcome p r h := by cases h

theorem EmitInvariant.advance (h : EmitInvariant host t) {p : ℕ} {env : EmitStepEnv} {r : Emitter}
    (hr : t.emitters p = some r) (hrun : r.phase.running = true) {world : World}
    (hworld : world = { t.world with
      bus := (emitAdvance host r.call env t.world.bus r.phase).bus
      log := t.world.log ++ (emitAdvance host r.call env t.world.bus r.phase).accepted }) :
    OutcomeOk host (r.advance env (emitAdvance host r.call env t.world.bus r.phase).next t.world world) := by
  have hearlier := (h.outcome p r hr).untouched (running_not_returned hrun)
  rcases @emitAdvance_cases host r.call env t.world.bus r.phase hrun with ⟨hbus,-,hnext⟩ | hcommit
  · refine outcomeOk_of_untouched hnext fun s hs => ?_
    rcases List.mem_append.mp hs with hs | hs
    · exact hearlier s hs
    · obtain rfl := List.mem_singleton.mp hs
      show world.bus.events = t.world.bus.events
      rw [hworld]
      exact congrArg Db.events hbus
  · obtain ⟨bindable,params,hphase,hemit,hnext,-⟩ := hcommit.source
    have hdesc : Describes host r.call params := by
      have hok := h.phase p r hr
      rcases hphase with hphase | hphase <;> rw [hphase] at hok <;> exact hok
    have hbus : (emitAdvance host r.call env t.world.bus r.phase).bus = world.bus := by rw [hworld]
    rw [hbus] at hemit hnext
    unfold OutcomeOk Emitter.advance
    rw [hnext]
    exact ⟨r.steps,t.world,world,rfl,hearlier,written_of_commit h.prov hdesc hemit⟩

theorem EmitInvariant.step (h : EmitInvariant host t) {a : EmitAction}
    (hstep : t.step host a = some t') : EmitInvariant host t' := by
  have hprov : Provenance t'.world := by
    rcases EmitSystem.step_world hstep with hsame | ⟨b,hb,-⟩
    · exact hsame ▸ h.prov
    · exact h.prov.step hb
  cases a with
  | world b =>
    obtain ⟨w,hw,rfl⟩ := Option.map_eq_some_iff.mp hstep
    exact ⟨hprov,h.phase,h.outcome⟩
  | call p call =>
    obtain rfl := EmitSystem.step_call hstep
    refine ⟨hprov,fun q r hr => ?_,fun q r hr => ?_⟩
    · rcases emitters_update hr with hr | hr
      · cases hr
        trivial
      · exact h.phase q r hr
    · rcases emitters_update hr with hr | hr
      · cases hr
        exact fun s hs => absurd hs List.not_mem_nil
      · exact h.outcome q r hr
  | crash p =>
    cases hstep
    refine ⟨hprov,fun q r hr => ?_,fun q r hr => ?_⟩
    · rcases emitters_update hr with hr | hr
      · cases hr
      · exact h.phase q r hr
    · rcases emitters_update hr with hr | hr
      · cases hr
      · exact h.outcome q r hr
  | emit p env =>
    obtain ⟨r,_,_,hr,hrun,rfl,rfl,rfl⟩ := EmitSystem.step_emit hstep
    refine ⟨hprov,fun q s hs => ?_,fun q s hs => ?_⟩
    · rcases emitters_update hs with hs | hs
      · cases hs
        exact phaseOk_advance (h.phase p r hr)
      · exact h.phase q s hs
    · rcases emitters_update hs with hs | hs
      · cases hs
        exact h.advance hr hrun rfl
      · exact h.outcome q s hs

end Atomic

theorem emit_atomic {host : EmitHost} {db : Db} {archive : Archive} {as : List EmitAction}
    {t : EmitSystem} (hrun : Run (EmitSystem.step host) (fun _ _ => True) (.start db archive) as t)
    {p : ℕ} {r : Emitter} (hr : t.emitters p = some r) :
    (∀ error, r.phase = .done (.threw error) → ∀ s ∈ r.steps, s.2.bus.events = s.1.bus.events) ∧
      ∀ eventId key, r.phase = .done (.returned eventId key) →
        ∃ earlier before after, r.steps = earlier ++ [(before,after)] ∧
          (∀ s ∈ earlier, s.2.bus.events = s.1.bus.events) ∧
          Written host r.call before after eventId key := by
  have h : EmitInvariant host t :=
    hrun.invariant (fun _ _ _ (ht : EmitInvariant host _) _ hs => ht.step hs) (.start db archive)
  have hok := h.outcome p r hr
  refine ⟨fun error hdone => ?_,fun eventId key hdone => ?_⟩
  · exact hok.untouched (by rw [hdone]; rfl)
  · unfold OutcomeOk at hok
    rw [hdone] at hok
    exact hok

def EmitPhase.outcome : EmitPhase → Option EmitOutcome
  | .done outcome => some outcome
  | _ => none

theorem outcome_some {phase : EmitPhase} {outcome : EmitOutcome} (h : phase.outcome = some outcome) :
    phase = .done outcome := by
  cases phase with
  | done o =>
    cases h
    rfl
  | _ => cases h

def sampleHost : EmitHost := ⟨⟨72,24⟩,1048576,268435456,fun _ => false,id⟩

def sampleInput : EventInput where
  keys := ["event_type","domain","payload","idempotency_key"]
  eventType := .text "wicked.run.done".toList
  domain := .text "wicked-testing".toList
  subdomain := .undefined
  payload := .object (some "{}")
  schemaVersion := .undefined
  idempotencyKey := some "k"
  ttlHours := none
  metadata := none
  correlationId := none
  sessionId := none
  parentEventId := none
  producerId := none
  stringifiable := true
  bindable := true

def sampleCall : EmitCall := ⟨some sampleInput,"u1","u2",⟨none,none,none,none⟩⟩

def noFaults : TransactionFaults := ⟨none,none,none,none⟩

def emitOverExpiredKey : List EmitAction :=
  [.world (.bus (.emit { expiredSample with idempotencyKey := "k" } "u")),.call 0 sampleCall] ++
    List.replicate 4 (.emit 0 ⟨2000,none,none,noFaults⟩)

theorem emit_atomic_over_expired_key :
    ∃ t r, Run (EmitSystem.step sampleHost) (fun _ _ => True) (.start .empty .empty) emitOverExpiredKey t ∧
      t.emitters 0 = some r ∧ r.phase = .done (.returned 2 "k") ∧
      ∃ earlier before after, r.steps = earlier ++ [(before,after)] ∧
        Written sampleHost r.call before after 2 "k" := by
  have hexec : (exec (EmitSystem.step sampleHost) (.start .empty .empty) emitOverExpiredKey).any (fun t =>
      (t.emitters 0).any (fun r => decide (r.phase.outcome = some (.returned 2 "k")))) = true := by
    decide +kernel
  obtain ⟨t,ht,hobs⟩ := (Option.any_eq_true _ _).mp hexec
  obtain ⟨r,hr,hobs⟩ := (Option.any_eq_true _ _).mp hobs
  have hrun := run_of_exec ht
  have hdone : r.phase = .done (.returned 2 "k") := outcome_some (of_decide_eq_true hobs)
  obtain ⟨earlier,before,after,hsteps,-,hwritten⟩ := (emit_atomic hrun hr).2 2 "k" hdone
  exact ⟨t,r,hrun,hr,hdone,earlier,before,after,hsteps,hwritten⟩

end WickedBus
