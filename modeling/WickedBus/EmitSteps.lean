import WickedBus.Tiered
import WickedBus.Validate

namespace WickedBus

open GuardedRun
open WickedBus.Filter (Text)

structure SchemaRow where
  version : ℤ
  payloadMaxBytes : ℕ
  payloadOversize : String
  deriving DecidableEq, Repr

structure EmitHost where
  config : EmitConfig
  maxPayloadBytes : ℕ
  objectMaxBytes : ℕ
  parsesToObject : String → Bool
  sha256 : String → String

structure EmitCall where
  event : Option EventInput
  keyUuid : String
  releaseUuid : String
  ctx : CausalityContext
  deriving DecidableEq, Repr

inductive SqlError where
  | unique
  | full (code : String)
  | other (message : String)
  deriving DecidableEq, Repr

structure TransactionFaults where
  select : Option SqlError
  update : Option SqlError
  insert : Option SqlError
  commit : Option SqlError
  deriving DecidableEq, Repr

structure EmitStepEnv where
  now : ℤ
  schema : Option SchemaRow
  fault : Option SqlError
  transaction : TransactionFaults
  deriving DecidableEq, Repr

inductive EmitOutcome where
  | returned (eventId : ℤ) (idempotencyKey : String)
  | threw (error : EmitError)
  deriving DecidableEq, Repr

structure Prepared where
  validated : Validated
  emittedAt : ℤ

inductive EmitPhase where
  | validate
  | getSchema (p : Prepared)
  | casPut (p : Prepared) (schema : SchemaRow)
  | insert (bindable : Bool) (params : NewEvent)
  | releaseKey (bindable : Bool) (params : NewEvent)
  | lookup (params : NewEvent)
  | reopen (sqliteError : String)
  | done (outcome : EmitOutcome)

def casReference (sha : String) : String := "\x7b\"$cas\":\"" ++ sha ++ "\"\x7d"

def Prepared.insert (p : Prepared) (host : EmitHost) (call : EmitCall) (registry : RegistryResult) :
    EmitPhase :=
  .insert p.validated.bindable
    (emitParams host.config p.validated.event ⟨p.emittedAt,call.keyUuid,call.releaseUuid,call.ctx,registry⟩)

def SqlError.text : SqlError → String
  | .unique => "SQLITE_CONSTRAINT_UNIQUE"
  | .full code => code
  | .other message => message

def fail (e : EmitError) : EmitPhase := .done (.threw e)

def runInsert (fault : Option SqlError) (bindable : Bool) (db : Db) (params : NewEvent) :
    Except SqlError Db :=
  match fault with
  | some e => .error e
  | none =>
    if bindable then
      match insertEvent db params with
      | .ok db' => .ok db'
      | .error .diskFull => .error (.full "SQLITE_FULL")
      | .error _ => .error .unique
    else .error (.other "SQLite3 cannot bind the value")

def failing (fault : Option SqlError) : Except SqlError Unit :=
  match fault with
  | some e => .error e
  | none => .ok ()

def releaseAndInsert (faults : TransactionFaults) (bindable : Bool) (params : NewEvent) (uuid : String)
    (db : Db) : Except SqlError Db := do
  failing faults.select
  match keyHolder db params.idempotencyKey with
  | none => throw .unique
  | some holder =>
    if (params.emittedAt : ℚ) ≤ holder.dedupExpiresAt then throw .unique
    failing faults.update
    if (keyHolder db (releasedKey holder uuid)).isSome then throw .unique
    let inserted ← runInsert faults.insert bindable
      (renameKey db holder.eventId (releasedKey holder uuid)) params
    failing faults.commit
    pure inserted

def transaction (body : Db → Except SqlError Db) (db : Db) : Db × Option SqlError :=
  match body db with
  | .ok db' => (db',none)
  | .error e => (db,some e)

def afterSqlError (params : NewEvent) : SqlError → EmitPhase
  | .unique => .lookup params
  | .full code => .reopen code
  | .other message => fail (.thrown message)

def duplicateError (db : Db) (key : String) : EmitError :=
  .duplicateEvent ("Duplicate idempotency_key: " ++ key) ((keyHolder db key).map EventRow.eventId) key

structure EmitResult where
  next : EmitPhase
  bus : Db
  accepted : List EventRow

def EmitResult.commit (params : NewEvent) (db db' : Db) : EmitResult :=
  ⟨.done (.returned db'.eventSeq params.idempotencyKey),db',[params.row (db.eventSeq + 1)]⟩

def beforeInsert (host : EmitHost) (call : EmitCall) (env : EmitStepEnv) : EmitPhase → EmitPhase
  | .validate =>
    match env.fault, validateEvent host.parsesToObject host.maxPayloadBytes call.event with
    | some e, _ => fail (.thrown e.text)
    | none, .error e => fail e
    | none, .ok v =>
      if call.event.any EventInput.stringifiable then .getSchema ⟨v,env.now⟩
      else fail (.thrown "metadata cannot be serialised")
  | .getSchema p =>
    match env.fault, env.schema with
    | some e, _ => fail (.thrown e.text)
    | none, none => p.insert host call ⟨p.validated.payload,none,none⟩
    | none, some schema =>
      if p.validated.payload.utf8ByteSize ≤ schema.payloadMaxBytes then
        p.insert host call ⟨p.validated.payload,some schema.version,none⟩
      else if schema.payloadOversize = "strict" then
        fail (.payloadTooLarge ("payload exceeds registry cap for " ++
          String.ofList p.validated.event.eventType.val) p.validated.payload.utf8ByteSize
          schema.payloadMaxBytes)
      else if schema.payloadOversize = "cas-auto" then .casPut p schema
      else p.insert host call ⟨p.validated.payload,some schema.version,none⟩
  | .casPut p schema =>
    if host.objectMaxBytes < p.validated.payload.utf8ByteSize then
      fail (.payloadTooLarge ("CAS object exceeds " ++ toString host.objectMaxBytes ++ "-byte cap")
        p.validated.payload.utf8ByteSize host.objectMaxBytes)
    else
      match env.fault with
      | some e => fail (.thrown e.text)
      | none =>
        let sha := host.sha256 p.validated.payload
        p.insert host call ⟨casReference sha,some schema.version,some sha⟩
  | phase => phase

def emitAdvance (host : EmitHost) (call : EmitCall) (env : EmitStepEnv) (db : Db) (phase : EmitPhase) :
    EmitResult :=
  match phase with
  | .validate | .getSchema _ | .casPut _ _ => ⟨beforeInsert host call env phase,db,[]⟩
  | .insert bindable params =>
    match runInsert env.fault bindable db params with
    | .ok db' => .commit params db db'
    | .error .unique => ⟨.releaseKey bindable params,db,[]⟩
    | .error e => ⟨afterSqlError params e,db,[]⟩
  | .releaseKey bindable params =>
    match transaction (releaseAndInsert env.transaction bindable params call.releaseUuid) db with
    | (db',none) => .commit params db db'
    | (db',some e) => ⟨afterSqlError params e,db',[]⟩
  | .lookup params =>
    match env.fault with
    | some e => ⟨fail (.thrown e.text),db,[]⟩
    | none => ⟨fail (duplicateError db params.idempotencyKey),db,[]⟩
  | .reopen code => ⟨fail (.diskFull "Database disk is full" code),db,[]⟩
  | .done outcome => ⟨.done outcome,db,[]⟩

structure Emitter where
  call : EmitCall
  phase : EmitPhase
  prepared : Option (Bool × NewEvent)
  faulted : Bool
  steps : List (World × World)

def Emitter.begin (call : EmitCall) : Emitter := ⟨call,.validate,none,false,[]⟩

def EmitPhase.running : EmitPhase → Bool
  | .done _ => false
  | _ => true

def EmitPhase.prepared : EmitPhase → Option (Bool × NewEvent)
  | .insert bindable params | .releaseKey bindable params => some (bindable,params)
  | _ => none

def TransactionFaults.any (faults : TransactionFaults) : Bool :=
  faults.select.isSome || faults.update.isSome || faults.insert.isSome || faults.commit.isSome

def EmitStepEnv.faulty (env : EmitStepEnv) : Bool := env.fault.isSome || env.transaction.any

def Emitter.advance (r : Emitter) (env : EmitStepEnv) (next : EmitPhase) (before after : World) :
    Emitter :=
  ⟨r.call,next,next.prepared.or r.prepared,r.faulted || env.faulty,r.steps ++ [(before,after)]⟩

structure EmitSystem where
  world : World
  emitters : ℕ → Option Emitter

inductive EmitAction where
  | world (a : Action)
  | call (p : ℕ) (call : EmitCall)
  | emit (p : ℕ) (env : EmitStepEnv)
  | crash (p : ℕ)
  deriving DecidableEq, Repr

def EmitSystem.start (db : Db) (archive : Archive) : EmitSystem := ⟨.start db archive,fun _ => none⟩

def EmitSystem.step (host : EmitHost) (t : EmitSystem) : EmitAction → Option EmitSystem
  | .world a => (t.world.step a).map (fun w => { t with world := w })
  | .call p call =>
    if (t.emitters p).any (fun r => r.phase.running) then none
    else some { t with emitters := Function.update t.emitters p (some (Emitter.begin call)) }
  | .emit p env =>
    match t.emitters p with
    | none => none
    | some r =>
      if r.phase.running then
        let result := emitAdvance host r.call env t.world.bus r.phase
        let world := { t.world with bus := result.bus, log := t.world.log ++ result.accepted }
        some {
          world := world
          emitters := Function.update t.emitters p (some (r.advance env result.next t.world world)) }
      else none
  | .crash p => some { t with emitters := Function.update t.emitters p none }

section Statements

variable {db db' : Db} {params : NewEvent} {bindable : Bool} {uuid : String}

theorem runInsert_ok {fault : Option SqlError} (h : runInsert fault bindable db params = .ok db') :
    insertEvent db params = .ok db' := by
  unfold runInsert at h
  repeat' split at h
  all_goals cases h
  assumption

theorem emitParamsInto_of_insert (h : insertEvent db params = .ok db') :
    emitParamsInto db params uuid = .ok db' := by
  simp only [emitParamsInto,h]

theorem releaseAndInsert_ok {faults : TransactionFaults}
    (h : releaseAndInsert faults bindable params uuid db = .ok db') :
    ∃ holder, keyHolder db params.idempotencyKey = some holder ∧
      holder.dedupExpiresAt < params.emittedAt ∧
      keyHolder db (releasedKey holder uuid) = none ∧
      insertEvent (renameKey db holder.eventId (releasedKey holder uuid)) params = .ok db' := by
  have hselect : failing faults.select = .ok () := by
    cases hsel : failing faults.select with
    | error e => simp [releaseAndInsert,hsel,bind,Except.bind] at h
    | ok _ => rfl
  cases hholder : keyHolder db params.idempotencyKey with
  | none => simp [releaseAndInsert,hselect,hholder,bind,Except.bind,throw,throwThe,MonadExceptOf.throw] at h
  | some holder =>
    simp only [releaseAndInsert,hselect,hholder,bind,Except.bind,throw,throwThe,MonadExceptOf.throw,pure,
      Except.pure] at h
    split_ifs at h with hopen htaken
    · split at h <;> cases h
    · cases hins : runInsert faults.insert bindable
        (renameKey db holder.eventId (releasedKey holder uuid)) params with
      | error e =>
        simp only [hins] at h
        split at h <;> cases h
      | ok inserted =>
        simp only [hins] at h
        repeat' split at h
        all_goals cases h
        exact ⟨holder,rfl,not_le.mp hopen,by simpa using htaken,runInsert_ok hins⟩

theorem emitParamsInto_of_release {faults : TransactionFaults}
    (h : releaseAndInsert faults bindable params uuid db = .ok db') :
    emitParamsInto db params uuid = .ok db' := by
  obtain ⟨holder,hholder,hopen,hfree,hinsert⟩ := releaseAndInsert_ok h
  have hroom : db.eventSeq < maxSafeInteger := (insertEvent_ok hinsert).1
  have htaken : insertEvent db params = .error (.duplicateEvent none params.idempotencyKey) := by
    simp only [insertEvent,not_le.mpr hroom,if_false,hholder,Option.isSome_some,if_true]
  have hrelease : releaseExpiredKey db params.idempotencyKey params.emittedAt uuid =
      some (renameKey db holder.eventId (releasedKey holder uuid)) := by
    simp only [releaseExpiredKey,hholder,not_le.mpr hopen,hfree,Option.isSome_none,if_false,
      Bool.false_eq_true]
  simp only [emitParamsInto,htaken,hrelease,hinsert]

end Statements

section Advance

variable {host : EmitHost} {call : EmitCall} {env : EmitStepEnv} {db : Db} {phase : EmitPhase}

def EmitPhase.returned : EmitPhase → Bool
  | .done (.returned _ _) => true
  | _ => false

theorem beforeInsert_returned (hphase : phase.running = true) :
    (beforeInsert host call env phase).returned = false := by
  cases phase with
  | done outcome => cases hphase
  | validate | getSchema p | casPut p schema =>
    simp only [beforeInsert]
    repeat' split
    all_goals rfl
  | _ => rfl

theorem afterSqlError_returned (params : NewEvent) (e : SqlError) :
    (afterSqlError params e).returned = false := by
  cases e <;> rfl

structure Commits (call : EmitCall) (db : Db) (phase : EmitPhase) (result : EmitResult) : Prop where
  source : ∃ bindable params, (phase = .insert bindable params ∨ phase = .releaseKey bindable params) ∧
    emitParamsInto db params call.releaseUuid = .ok result.bus ∧
    result.next = .done (.returned result.bus.eventSeq params.idempotencyKey) ∧
    result.accepted = [params.row (db.eventSeq + 1)]

theorem emitAdvance_cases (hphase : phase.running = true) :
    ((emitAdvance host call env db phase).bus = db ∧ (emitAdvance host call env db phase).accepted = [] ∧
      (emitAdvance host call env db phase).next.returned = false) ∨
    Commits call db phase (emitAdvance host call env db phase) := by
  cases phase with
  | done outcome => cases hphase
  | validate | getSchema p | casPut p schema => exact .inl ⟨rfl,rfl,beforeInsert_returned hphase⟩
  | insert bindable params =>
    simp only [emitAdvance]
    split
    · rename_i db' hinsert
      right
      exact ⟨bindable,params,.inl rfl,emitParamsInto_of_insert (runInsert_ok hinsert),rfl,rfl⟩
    · exact .inl ⟨rfl,rfl,rfl⟩
    · exact .inl ⟨rfl,rfl,afterSqlError_returned params _⟩
  | releaseKey bindable params =>
    simp only [emitAdvance,transaction]
    cases hbody : releaseAndInsert env.transaction bindable params call.releaseUuid db with
    | ok db' =>
      right
      exact ⟨bindable,params,.inr rfl,emitParamsInto_of_release hbody,rfl,rfl⟩
    | error e => exact .inl ⟨rfl,rfl,afterSqlError_returned params e⟩
  | lookup params =>
    simp only [emitAdvance]
    split <;> exact .inl ⟨rfl,rfl,rfl⟩
  | reopen code => exact .inl ⟨rfl,rfl,rfl⟩

theorem EmitSystem.step_call {t t' : EmitSystem} {p : ℕ} (hstep : t.step host (.call p call) = some t') :
    t' = { t with emitters := Function.update t.emitters p (some (.begin call)) } := by
  simp only [EmitSystem.step] at hstep
  split_ifs at hstep
  exact (Option.some.inj hstep).symm

theorem EmitSystem.step_emit {t t' : EmitSystem} {p : ℕ} (hstep : t.step host (.emit p env) = some t') :
    ∃ r result world, t.emitters p = some r ∧ r.phase.running = true ∧
      result = emitAdvance host r.call env t.world.bus r.phase ∧
      world = { t.world with bus := result.bus, log := t.world.log ++ result.accepted } ∧
      t' = ⟨world,Function.update t.emitters p (some (r.advance env result.next t.world world))⟩ := by
  simp only [EmitSystem.step] at hstep
  split at hstep
  · cases hstep
  · rename_i r hr
    split_ifs at hstep with hrun
    exact ⟨r,_,_,hr,hrun,rfl,rfl,(Option.some.inj hstep).symm⟩

theorem EmitSystem.step_world {t t' : EmitSystem} {a : EmitAction} (hstep : t.step host a = some t') :
    t'.world = t.world ∨ ∃ b, t.world.step b = some t'.world ∧
      (a = .world b ∨ ∃ params uuid, b = .bus (.emit params uuid)) := by
  cases a with
  | world b =>
    obtain ⟨w,hw,rfl⟩ := Option.map_eq_some_iff.mp hstep
    exact .inr ⟨b,hw,.inl rfl⟩
  | call p call =>
    obtain rfl := EmitSystem.step_call hstep
    exact .inl rfl
  | crash p =>
    cases hstep
    exact .inl rfl
  | emit p env =>
    obtain ⟨r,_,_,-,hrun,rfl,rfl,rfl⟩ := EmitSystem.step_emit hstep
    rcases @emitAdvance_cases host r.call env t.world.bus r.phase hrun with ⟨hbus,hacc,-⟩ | hcommit
    · left
      show World.mk _ _ _ _ = t.world
      rw [hbus,hacc,List.append_nil]
    · right
      obtain ⟨bindable,params,-,hemit,-,hacc⟩ := hcommit.source
      refine ⟨.bus (.emit params r.call.releaseUuid),?_,.inr ⟨_,_,rfl⟩⟩
      simp only [World.step,BusOp.apply,toOption_eq_some.mpr hemit,Option.map_some,hacc,acceptedRows]

theorem EmitSystem.run_world {ok : EmitSystem → EmitAction → Prop} {as : List EmitAction}
    {t₀ t : EmitSystem} (hrun : Run (EmitSystem.step host) ok t₀ as t) :
    ∃ bs, Run World.step (fun _ _ => True) t₀.world bs t.world := by
  induction hrun with
  | nil => exact ⟨[],.nil⟩
  | snoc _ _ hstep ih =>
    obtain ⟨bs,hbs⟩ := ih
    rcases EmitSystem.step_world hstep with hsame | ⟨b,hb,-⟩
    · exact ⟨bs,hsame ▸ hbs⟩
    · exact ⟨bs ++ [b],.snoc hbs trivial hb⟩

end Advance

section Steps

variable {host : EmitHost} {w w' : World} {t t' : EmitSystem}

structure Shrinks (w w' : World) : Prop where
  log : w'.log = w.log
  rows : ∀ e ∈ w'.bus.events, e ∈ w.bus.events

theorem World.step_shrinks {a : Action} (hstep : w.step a = some w') :
    (∃ params uuid, a = .bus (.emit params uuid) ∧ emitParamsInto w.bus params uuid = .ok w'.bus ∧
      w'.log = w.log ++ [params.row (w.bus.eventSeq + 1)]) ∨
    ((∀ params uuid, a ≠ .bus (.emit params uuid)) ∧ Shrinks w w') := by
  cases a with
  | bus op =>
    obtain ⟨db,hop,rfl⟩ := Option.map_eq_some_iff.mp hstep
    cases op with
    | emit params uuid => exact .inl ⟨params,uuid,rfl,toOption_eq_some.mp hop,rfl⟩
    | _ =>
      right
      refine ⟨fun params uuid h => (by cases h),List.append_nil _,fun e he => ?_⟩
      rcases busOp_cases hop with ⟨params,uuid,h,-⟩ | ⟨config,clock,result,-,hr⟩ | hsame
      · cases h
      · obtain ⟨policy,capDays,-,-,hdb⟩ := runSweep_ok hr
        rw [show db = _ from hdb] at he
        exact (mem_sweepTransaction.mp he).1
      · exact hsame.events ▸ he
  | beginSweep p config clock =>
    right
    obtain ⟨cfg,-,-,rfl⟩ := World.step_begin hstep
    exact ⟨fun params uuid h => (by cases h),rfl,fun e he => he⟩
  | sweep p env =>
    right
    obtain ⟨s,hs,rfl⟩ := World.step_sweep hstep
    refine ⟨fun params uuid h => (by cases h),rfl,fun e he => ?_⟩
    have he' : e ∈ (sweeperStep env s.cfg w.bus w.archive s.phase).bus.events := he
    rcases sweeperStep_bus env s.cfg w.bus w.archive s.phase with h | ⟨ids,-,h⟩ | ⟨moved,-,h⟩
    · exact h ▸ he'
    · exact (mem_deleteFromLive.mp (h ▸ he')).1
    · exact (mem_deleteFromLive.mp (h ▸ he')).1
  | crash p =>
    cases hstep
    exact .inr ⟨fun params uuid h => (by cases h),rfl,fun e he => he⟩

theorem EmitSystem.step_shrinks {a : EmitAction} (hstep : t.step host a = some t') :
    (∃ params uuid, emitParamsInto t.world.bus params uuid = .ok t'.world.bus ∧
      t'.world.log = t.world.log ++ [params.row (t.world.bus.eventSeq + 1)] ∧
      (a = .world (.bus (.emit params uuid)) ∨ ∃ p env r bindable, a = .emit p env ∧
        t.emitters p = some r ∧ r.phase.prepared = some (bindable,params))) ∨
    (Shrinks t.world t'.world ∧ ((∃ b, a = .world b ∧ t.world.step b = some t'.world ∧
      ∀ params uuid, b ≠ .bus (.emit params uuid)) ∨ t'.world.bus.events = t.world.bus.events)) := by
  cases a with
  | world b =>
    obtain ⟨w,hw,rfl⟩ := Option.map_eq_some_iff.mp hstep
    rcases World.step_shrinks hw with ⟨params,uuid,rfl,hemit,hlog⟩ | ⟨hne,hshrinks⟩
    · exact .inl ⟨params,uuid,hemit,hlog,.inl rfl⟩
    · exact .inr ⟨hshrinks,.inl ⟨b,rfl,hw,hne⟩⟩
  | call p call =>
    obtain rfl := EmitSystem.step_call hstep
    exact .inr ⟨⟨rfl,fun e he => he⟩,.inr rfl⟩
  | crash p =>
    cases hstep
    exact .inr ⟨⟨rfl,fun e he => he⟩,.inr rfl⟩
  | emit p env =>
    obtain ⟨r,_,_,hr,hrun,rfl,rfl,rfl⟩ := EmitSystem.step_emit hstep
    rcases @emitAdvance_cases host r.call env t.world.bus r.phase hrun with ⟨hbus,hacc,-⟩ | hcommit
    · right
      refine ⟨⟨?_,fun e he => ?_⟩,.inr (congrArg Db.events hbus)⟩
      · show t.world.log ++ _ = t.world.log
        rw [hacc,List.append_nil]
      · exact hbus ▸ he
    · left
      obtain ⟨bindable,params,hphase,hemit,-,hacc⟩ := hcommit.source
      refine ⟨params,r.call.releaseUuid,hemit,?_,.inr ⟨p,env,r,bindable,rfl,hr,?_⟩⟩
      · show t.world.log ++ _ = t.world.log ++ _
        rw [hacc]
      · rcases hphase with hphase | hphase <;> rw [hphase] <;> rfl

theorem EmitSystem.step_grows {a : EmitAction} (hstep : t.step host a = some t') :
    t.world.bus.eventSeq ≤ t'.world.bus.eventSeq ∧ ∀ x ∈ t.world.log, x ∈ t'.world.log := by
  rcases EmitSystem.step_world hstep with hsame | ⟨b,hb,-⟩
  · rw [hsame]
    exact ⟨le_rfl,fun x hx => hx⟩
  · refine ⟨(World.step_live hb).1,fun x hx => ?_⟩
    rcases World.step_shrinks hb with ⟨params,uuid,-,-,hlog⟩ | ⟨-,hshrinks⟩
    · exact hlog ▸ List.mem_append_left _ hx
    · exact hshrinks.log ▸ hx

theorem EmitSystem.step_emitter {a : EmitAction} (hstep : t.step host a = some t') {p : ℕ} {r : Emitter}
    (hr : t'.emitters p = some r) :
    t.emitters p = some r ∨ (∃ call, a = .call p call ∧ r = .begin call) ∨
      ∃ env s, a = .emit p env ∧ t.emitters p = some s ∧ s.phase.running = true ∧ r.call = s.call ∧
        r.phase = (emitAdvance host s.call env t.world.bus s.phase).next := by
  cases a with
  | world b =>
    obtain ⟨w,hw,rfl⟩ := Option.map_eq_some_iff.mp hstep
    exact .inl hr
  | call q call =>
    obtain rfl := EmitSystem.step_call hstep
    rcases update_eq_some hr with ⟨rfl,hnext⟩ | ⟨-,hr⟩
    · cases hnext
      exact .inr (.inl ⟨call,rfl,rfl⟩)
    · exact .inl hr
  | crash q =>
    cases hstep
    rcases update_eq_some hr with ⟨-,hnext⟩ | ⟨-,hr⟩
    · cases hnext
    · exact .inl hr
  | emit q env =>
    obtain ⟨s,_,_,hs,hrun,rfl,rfl,rfl⟩ := EmitSystem.step_emit hstep
    rcases update_eq_some hr with ⟨rfl,hnext⟩ | ⟨-,hr⟩
    · cases hnext
      exact .inr (.inr ⟨env,s,rfl,hs,hrun,rfl,rfl⟩)
    · exact .inl hr

end Steps

end WickedBus
