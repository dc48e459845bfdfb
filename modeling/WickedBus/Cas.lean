import WickedBus.CasGc
import WickedBus.EmitAtomic

namespace WickedBus

structure CasPut where
  sha : String
  time : ℤ
  reused : Bool
  deriving DecidableEq, Repr

structure CasState where
  system : EmitSystem
  files : CasFiles
  clock : ℤ
  gc : Option GcRun
  puts : ℕ → Option CasPut
  offloads : List (ℤ × String)

inductive CasAction where
  | system (clock : ℤ) (a : EmitAction)
  | startGc (clock : ℤ) (opts : GcOpts)
  | gc (clock : ℤ) (env : GcEnv)
  | stopGc
  deriving DecidableEq

def offloadContent (host : EmitHost) (env : EmitStepEnv) : EmitPhase → Option String
  | .casPut p _ =>
    if host.objectMaxBytes < p.validated.payload.utf8ByteSize ∨ env.fault.isSome then none
    else some p.validated.payload
  | _ => none

def putBy (host : EmitHost) (t : EmitSystem) : EmitAction → Option (ℕ × String)
  | .emit p env => (t.emitters p).bind (fun r => (offloadContent host env r.phase).map (Prod.mk p))
  | _ => none

def serialised (host : EmitHost) (call : EmitCall) : Option String :=
  (validateEvent host.parsesToObject host.maxPayloadBytes call.event).toOption.map Validated.payload

def offloadsOf (content : Option String) (rows : List EventRow) : List (ℤ × String) :=
  (rows.filter (fun e => e.payloadCasSha.isSome)).filterMap (fun e => content.map (Prod.mk e.eventId))

def offloadedBy (host : EmitHost) (t : EmitSystem) : EmitAction → List (ℤ × String)
  | .emit p env =>
    match t.emitters p with
    | none => []
    | some r =>
      offloadsOf (serialised host r.call) (emitAdvance host r.call env t.world.bus r.phase).accepted
  | _ => []

def CasState.afterPut (t : CasState) (host : CasHost) (clock : ℤ) : Option (ℕ × String) → CasState
  | none => t
  | some (p,content) =>
    { t with
      files := t.files.put (host.sha256 content) content clock
      puts := Function.update t.puts p
        (some ⟨host.sha256 content,clock,(t.files.get? (host.sha256 content)).isSome⟩) }

def CasState.onSystem (t : CasState) (host : CasHost) (clock : ℤ) (a : EmitAction) (s : EmitSystem) :
    CasState :=
  { t.afterPut host clock (putBy host.toEmitHost t.system a) with
    system := s
    clock := clock
    offloads := t.offloads ++ offloadedBy host.toEmitHost t.system a }

def GcIdle (gc : Option GcRun) : Prop := ∀ g ∈ gc, g.phase.running = false

instance (gc : Option GcRun) : Decidable (GcIdle gc) :=
  inferInstanceAs (Decidable (∀ g ∈ gc, g.phase.running = false))

def CasState.gcStep (t : CasState) (host : CasHost) (env : GcEnv) (g : GcRun) : GcStep :=
  WickedBus.gcStep host env t.system.world.bus t.system.world.archive t.files g

def CasState.onGc (t : CasState) (clock : ℤ) (r : GcStep) : CasState :=
  { t with clock := clock, gc := some r.run, files := r.files }

def CasState.step (host : CasHost) (t : CasState) : CasAction → Option CasState
  | .system clock a => (t.system.step host.toEmitHost a).map (t.onSystem host clock a)
  | .startGc clock opts =>
    if GcIdle t.gc then some { t with clock := clock, gc := some (.begin opts clock) } else none
  | .gc clock env =>
    match t.gc with
    | none => none
    | some g =>
      if g.phase.running then
        some (t.onGc clock (t.gcStep host env g))
      else none
  | .stopGc => some { t with gc := none }

def CasState.start (db : Db) (archive : Archive) (files : CasFiles) (clock : ℤ) : CasState :=
  ⟨.start db archive,files,clock,none,fun _ => none,[]⟩

section Offload

variable {host : EmitHost} {call : EmitCall} {env : EmitStepEnv} {db : Db} {phase : EmitPhase}

def Refers (host : EmitHost) (content : String) (params : NewEvent) : Prop :=
  params.payload = casReference (host.sha256 content) ∧
    params.payloadCasSha = some (host.sha256 content)

theorem offloadContent_some {content : String} (h : offloadContent host env phase = some content) :
    ∃ p schema, phase = .casPut p schema ∧ content = p.validated.payload := by
  cases phase with
  | casPut p schema =>
    simp only [offloadContent] at h
    split_ifs at h
    cases h
    exact ⟨p,schema,rfl,rfl⟩
  | _ => cases h

theorem offloadContent_of_prepared {q : Bool × NewEvent} (h : phase.prepared = some q) :
    offloadContent host env phase = none := by
  cases phase with
  | casPut p schema => cases h
  | _ => rfl

theorem afterSqlError_prepared (params : NewEvent) (e : SqlError) :
    (afterSqlError params e).prepared = none := by
  cases e <;> rfl

theorem emitAdvance_prepared {q : Bool × NewEvent}
    (h : (emitAdvance host call env db phase).next.prepared = some q) :
    phase.prepared = some q ∨ q.2.payloadCasSha = none ∨
      ∃ content, offloadContent host env phase = some content ∧ Refers host content q.2 := by
  cases phase with
  | validate =>
    simp only [emitAdvance,beforeInsert] at h
    repeat' split at h
    all_goals cases h
  | getSchema p =>
    simp only [emitAdvance,beforeInsert] at h
    repeat' split at h
    all_goals cases h
    all_goals exact .inr (.inl rfl)
  | casPut p schema =>
    simp only [emitAdvance,beforeInsert] at h
    split at h
    · cases h
    · rename_i hfits
      split at h
      · cases h
      · rename_i hfault
        cases h
        refine .inr (.inr ⟨p.validated.payload,?_,rfl,rfl⟩)
        rw [offloadContent,if_neg]
        simp [hfits,hfault]
  | insert bindable params =>
    simp only [emitAdvance] at h
    split at h
    · cases h
    · exact .inl h
    · rw [afterSqlError_prepared] at h
      cases h
  | releaseKey bindable params =>
    simp only [emitAdvance] at h
    split at h
    · cases h
    · rw [afterSqlError_prepared] at h
      cases h
  | lookup params =>
    simp only [emitAdvance] at h
    split at h <;> cases h
  | reopen code => cases h
  | done outcome => cases h

theorem serialised_of_offload {content : String} (hphase : PhaseOk host call phase)
    (h : offloadContent host env phase = some content) : serialised host call = some content := by
  obtain ⟨p,schema,rfl,rfl⟩ := offloadContent_some h
  have haccepts : validateEvent host.parsesToObject host.maxPayloadBytes call.event = .ok p.validated :=
    hphase
  rw [serialised,haccepts]
  rfl

end Offload

section State

variable {host : CasHost} {t t' : CasState} {clock : ℤ} {a : EmitAction} {s : EmitSystem}

@[simp] theorem CasState.onSystem_system : (t.onSystem host clock a s).system = s := rfl

@[simp] theorem CasState.onSystem_clock : (t.onSystem host clock a s).clock = clock := rfl

@[simp] theorem CasState.onSystem_offloads : (t.onSystem host clock a s).offloads =
    t.offloads ++ offloadedBy host.toEmitHost t.system a := rfl

@[simp] theorem CasState.onSystem_gc : (t.onSystem host clock a s).gc = t.gc := by
  unfold CasState.onSystem CasState.afterPut
  split <;> rfl

theorem CasState.onSystem_files_none (h : putBy host.toEmitHost t.system a = none) :
    (t.onSystem host clock a s).files = t.files ∧ (t.onSystem host clock a s).puts = t.puts := by
  unfold CasState.onSystem
  rw [h]
  exact ⟨rfl,rfl⟩

theorem CasState.onSystem_files_some {p : ℕ} {content : String}
    (h : putBy host.toEmitHost t.system a = some (p,content)) :
    (t.onSystem host clock a s).files = t.files.put (host.sha256 content) content clock ∧
      (t.onSystem host clock a s).puts = Function.update t.puts p
        (some ⟨host.sha256 content,clock,(t.files.get? (host.sha256 content)).isSome⟩) := by
  unfold CasState.onSystem
  rw [h]
  exact ⟨rfl,rfl⟩

theorem CasState.onSystem_extends (t : CasState) (host : CasHost) (clock : ℤ) (a : EmitAction)
    (s : EmitSystem) : ContentStore.Extends t.files (t.onSystem host clock a s).files := by
  cases h : putBy host.toEmitHost t.system a with
  | none =>
    rw [(CasState.onSystem_files_none h).1]
    exact .refl _
  | some q =>
    rw [(@CasState.onSystem_files_some host t clock a s q.1 q.2 h).1]
    exact ContentStore.extends_put _ _ _ _

theorem CasState.gcStep_frame (t : CasState) (host : CasHost) (env : GcEnv) (g : GcRun) :
    GcFrame g (t.gcStep host env g).run :=
  WickedBus.gcStep_frame

theorem CasState.gcStep_subset (t : CasState) (host : CasHost) (env : GcEnv) (g : GcRun) :
    ∀ f ∈ (t.gcStep host env g).files, f ∈ t.files := by
  intro f hf
  rcases @gcStep_files host env t.system.world.bus t.system.world.archive t.files g with
    hsame | ⟨name,size,names,shards,-,herase⟩
  · exact hsame ▸ hf
  · exact (ContentStore.mem_erase.mp (herase ▸ hf)).1

theorem putBy_some {t : EmitSystem} {host : EmitHost} {p : ℕ} {content : String}
    (h : putBy host t a = some (p,content)) :
    ∃ env r, a = .emit p env ∧ t.emitters p = some r ∧ offloadContent host env r.phase = some content := by
  cases a with
  | emit q env =>
    obtain ⟨r,hr,hput⟩ := Option.bind_eq_some_iff.mp h
    obtain ⟨c,hc,heq⟩ := Option.map_eq_some_iff.mp hput
    cases heq
    exact ⟨env,r,rfl,hr,hc⟩
  | _ => cases h

theorem putBy_emit {t : EmitSystem} {host : EmitHost} {p : ℕ} {env : EmitStepEnv} {r : Emitter}
    (hr : t.emitters p = some r) :
    putBy host t (.emit p env) = (offloadContent host env r.phase).map (Prod.mk p) := by
  simp only [putBy,hr,Option.bind_some]

end State

def SlotZero : CasAction → Prop
  | .system _ (.call p _) => p = 0
  | .system _ (.world (.beginSweep _ _ _)) => False
  | _ => True

instance : ∀ a, Decidable (SlotZero a)
  | .system _ (.call p _) => inferInstanceAs (Decidable (p = 0))
  | .system _ (.world b) => by cases b <;> unfold SlotZero <;> infer_instance
  | .system _ (.emit _ _) | .system _ (.crash _) | .startGc _ _ | .gc _ _ | .stopGc =>
    inferInstanceAs (Decidable True)

theorem CasState.step_startGc {host : CasHost} {t t' : CasState} {clock : ℤ} {opts : GcOpts}
    (hstep : t.step host (.startGc clock opts) = some t') :
    t' = { t with clock := clock, gc := some (.begin opts clock) } := by
  simp only [CasState.step] at hstep
  split_ifs at hstep
  exact (Option.some.inj hstep).symm

theorem CasState.step_gc {host : CasHost} {t t' : CasState} {clock : ℤ} {env : GcEnv}
    (hstep : t.step host (.gc clock env) = some t') :
    ∃ g, t.gc = some g ∧ g.phase.running = true ∧ t' = t.onGc clock (t.gcStep host env g) := by
  simp only [CasState.step] at hstep
  split at hstep
  · cases hstep
  · rename_i g hg
    split_ifs at hstep with hrun
    exact ⟨g,hg,hrun,(Option.some.inj hstep).symm⟩

structure OnlySlotZero (t : CasState) : Prop where
  emitters : ∀ p, p ≠ 0 → t.system.emitters p = none
  sweepers : ∀ p, t.system.world.sweepers p = none

theorem World.step_idle {w w' : World} {a : Action} (h : ∀ p, w.sweepers p = none)
    (hbegin : ∀ p config clock, a ≠ .beginSweep p config clock) (hstep : w.step a = some w') :
    ∀ p, w'.sweepers p = none := by
  cases a with
  | bus op =>
    obtain ⟨db,hop,rfl⟩ := Option.map_eq_some_iff.mp hstep
    exact h
  | beginSweep p config clock => exact absurd rfl (hbegin p config clock)
  | sweep p env =>
    simp only [World.step,h p] at hstep
    cases hstep
  | crash p =>
    cases hstep
    intro q
    refine Option.eq_none_iff_forall_ne_some.mpr fun s hs => ?_
    rcases update_eq_some hs with ⟨-,hnext⟩ | ⟨-,hs⟩
    · cases hnext
    · exact absurd ((h q).symm.trans hs) (by simp)

theorem OnlySlotZero.start {db : Db} {archive : Archive} {files : CasFiles} (clock : ℤ) :
    OnlySlotZero (.start db archive files clock) := ⟨fun _ _ => rfl,fun _ => rfl⟩

theorem OnlySlotZero.step {host : CasHost} {t t' : CasState} {a : CasAction} (h : OnlySlotZero t)
    (hok : SlotZero a) (hstep : t.step host a = some t') : OnlySlotZero t' := by
  cases a with
  | system clock a =>
    obtain ⟨s,hs,rfl⟩ := Option.map_eq_some_iff.mp hstep
    refine ⟨fun p hp => Option.eq_none_iff_forall_ne_some.mpr fun r hr => ?_,?_⟩
    · rcases EmitSystem.step_emitter hs hr with hr | ⟨call,rfl,-⟩ | ⟨env,r',rfl,hr,-⟩
      · exact absurd ((h.emitters p hp).symm.trans hr) (by simp)
      · exact hp hok
      · exact absurd ((h.emitters p hp).symm.trans hr) (by simp)
    · rcases EmitSystem.step_world hs with hsame | ⟨b,hb,rfl | ⟨params,uuid,rfl⟩⟩
      · exact fun p => (congrArg (World.sweepers · p) hsame).trans (h.sweepers p)
      · refine World.step_idle h.sweepers ?_ hb
        rintro p config time rfl
        exact hok
      · exact World.step_idle h.sweepers (by rintro p config time ⟨⟩) hb
  | startGc clock opts =>
    obtain rfl := CasState.step_startGc hstep
    exact ⟨h.emitters,h.sweepers⟩
  | gc clock env =>
    obtain ⟨g,-,-,rfl⟩ := CasState.step_gc hstep
    exact ⟨h.emitters,h.sweepers⟩
  | stopGc =>
    cases hstep
    exact ⟨h.emitters,h.sweepers⟩

def sampleSha : String := "44136fa355b3678a1146ad16f7e8649e94fb4fc21fe77e8310c060f61caaff8a"

def sampleCasHost : CasHost where
  config := sampleHost.config
  maxPayloadBytes := sampleHost.maxPayloadBytes
  objectMaxBytes := sampleHost.objectMaxBytes
  parsesToObject := sampleHost.parsesToObject
  sha256 := fun _ => sampleSha
  extractCas := fun payload => if payload = casReference sampleSha then some sampleSha else none

theorem sampleSha_ne (content : String) : sampleCasHost.sha256 content ≠ "" :=
  show sampleSha ≠ "" by decide

def casAutoSchema : SchemaRow := ⟨1,0,"cas-auto"⟩

def weekMs : ℤ := 604800000

def emitUntilInsert (clock : ℤ) : List CasAction :=
  .system clock (.call 0 sampleCall) ::
    List.replicate 3 (.system clock (.emit 0 ⟨clock,some casAutoSchema,none,noFaults⟩))

def insertStep (clock : ℤ) : CasAction := .system clock (.emit 0 ⟨clock,some casAutoSchema,none,noFaults⟩)

def gcSteps (clock : ℤ) (n : ℕ) : List CasAction := List.replicate n (.gc clock ⟨none⟩)

end WickedBus
