import WickedBus.Cas
import WickedBus.Snapshots

namespace WickedBus

open GuardedRun
open WickedBus.Filter (Text)

structure CasContract (host : CasHost) (contents : Set String) : Prop where
  collisionFree : Set.InjOn host.sha256 contents
  digest : ∀ c ∈ contents, host.sha256 c ≠ ""
  extract : ∀ c ∈ contents, host.extractCas (casReference (host.sha256 c)) = some (host.sha256 c)

structure Quiet (t : EmitSystem) : Prop where
  emitters : ∀ p r, t.emitters p = some r → r.phase.running = false
  sweepers : ∀ p, t.world.sweepers p = none

def EmitAction.deadLettered : EmitAction → Option EventRow
  | .world b => b.deadLettered
  | _ => none

def EmitAction.calling : EmitAction → Option EmitCall
  | .call _ c => some c
  | _ => none

def OperationOk (host : EmitHost) (contents : Set String) (t : EmitSystem) (a : EmitAction) : Prop :=
  (∀ event ∈ a.deadLettered, event ∈ t.world.bus.events) ∧
    ∀ call ∈ a.calling, ∀ c ∈ serialised host call, c ∈ contents

def SequentialOk (host : CasHost) (contents : Set String) (t : CasState) : CasAction → Prop
  | .system _ a => GcIdle t.gc ∧ OperationOk host.toEmitHost contents t.system a
  | .startGc _ opts => opts.allowMissingBuckets = [] ∧ Quiet t.system
  | _ => True

structure GcAlone (host : CasHost) (t : CasState) (g : GcRun) : Prop where
  allow : g.opts.allowMissingBuckets = []
  quiet : Quiet t.system
  covers : ∀ sha ∈ allRefs host t.system.world.bus t.system.world.archive, sha ∈ g.shas ∨
    sha ∈ pendingRefs host t.system.world.bus t.system.world.archive g.phase
  unlinking : ∀ name, g.phase.unlinking = some name → name ∉ g.shas

structure Offloaded (host : CasHost) (contents : Set String) (log : List EventRow) (o : ℤ × String) :
    Prop where
  content : o.2 ∈ contents
  row : ∃ r ∈ log, r.eventId = o.1 ∧ r.payload = casReference (host.sha256 o.2) ∧
    r.payloadCasSha = some (host.sha256 o.2)

def Backed (host : CasHost) (files : CasFiles) (r : Emitter) (params : NewEvent) : Prop :=
  ∃ c, serialised host.toEmitHost r.call = some c ∧ Refers host.toEmitHost c params ∧
    ContentStore.Has files (host.sha256 c)

structure CasSafe (host : CasHost) (contents : Set String) (t : CasState) : Prop where
  emit : EmitInvariant host.toEmitHost t.system
  addressed : ContentStore.Addressed host.sha256 contents t.files
  calls : ∀ p r, t.system.emitters p = some r → ∀ c ∈ serialised host.toEmitHost r.call, c ∈ contents
  waiting : ∀ p r q, t.system.emitters p = some r → r.phase.prepared = some q →
    q.2.payloadCasSha = none ∨ Backed host t.files r q.2
  kept : ∀ x, Kept t.system.world x → x.fixedPart ∈ t.system.world.logged
  deadLetters : ∀ d ∈ t.system.world.bus.deadLetters, ∃ r ∈ t.system.world.log,
    r.eventId = d.eventId ∧ r.payload = d.payload
  offloads : ∀ o ∈ t.offloads, Offloaded host contents t.system.world.log o
  stored : ∀ o ∈ t.offloads, Present t.system.world o.1 → ContentStore.Has t.files (host.sha256 o.2)
  gc : ∀ g ∈ t.gc, g.phase.running = true → GcAlone host t g

section Traces

variable {host : CasHost} {contents : Set String} {t : CasState} {o : ℤ × String}

theorem CasSafe.row_of_kept (h : CasSafe host contents t) (ho : o ∈ t.offloads) {x : EventRow}
    (hx : Kept t.system.world x) (hid : x.eventId = o.1) :
    x.payload = casReference (host.sha256 o.2) ∧ x.payloadCasSha = some (host.sha256 o.2) := by
  obtain ⟨r,hr,hrid,hpayload,hsha⟩ := (h.offloads o ho).row
  have hfix : x.fixedPart = r.fixedPart :=
    h.emit.prov.logged_unique (h.kept x hx) ⟨r,hr,rfl⟩ (hid.trans hrid.symm)
  exact ⟨(payload_of_fixedPart hfix).trans hpayload,(payloadCasSha_of_fixedPart hfix).trans hsha⟩

theorem CasSafe.payload_of_deadLetter (h : CasSafe host contents t) (ho : o ∈ t.offloads)
    {d : DeadLetterRow} (hd : d ∈ t.system.world.bus.deadLetters) (hid : d.eventId = o.1) :
    d.payload = casReference (host.sha256 o.2) := by
  obtain ⟨r,hr,hrid,hpayload,-⟩ := (h.offloads o ho).row
  obtain ⟨s,hs,hsid,hspayload⟩ := h.deadLetters d hd
  have hfix : s.fixedPart = r.fixedPart := h.emit.prov.logged_unique ⟨s,hs,rfl⟩ ⟨r,hr,rfl⟩
    (hsid.trans (hid.trans hrid.symm))
  exact hspayload.symm.trans ((payload_of_fixedPart hfix).trans hpayload)

theorem CasSafe.referenced (h : CasSafe host contents t) (hhost : CasContract host contents)
    (hquiet : Quiet t.system) (ho : o ∈ t.offloads) (hp : Present t.system.world o.1) :
    host.sha256 o.2 ∈ allRefs host t.system.world.bus t.system.world.archive := by
  have hne := hhost.digest o.2 (h.offloads o ho).content
  simp only [allRefs,List.mem_append]
  rcases hp with ⟨x,hx,hid⟩ | ⟨d,hd,hid⟩
  · have href := (h.row_of_kept ho hx hid).2
    cases hx with
    | live he => exact .inl (.inl (.inl (mem_casRefs.mpr ⟨hne,x,he,href⟩)))
    | archived he => exact .inl (.inl (.inr (mem_casRefs.mpr ⟨hne,x,he,href⟩)))
    | @warm name _ hname he =>
      have hlisted : name ∈ listBuckets t.system.world.archive :=
        mem_listBuckets.mpr ⟨he.imp fun b hb => ⟨hb.1,hb.2.1⟩,hname⟩
      exact .inr (mem_bucketRefs.mpr ⟨hne,name,hlisted,x,he,href⟩)
    | @held p s _ hs he => exact absurd ((hquiet.sweepers p).symm.trans hs) (by simp)
  · have hextract := hhost.extract o.2 (h.offloads o ho).content
    rw [← h.payload_of_deadLetter ho hd hid] at hextract
    exact .inl (.inr (mem_deadLetterRefs.mpr ⟨hne,d,hd,hextract⟩))

end Traces

section Committed

variable {host : EmitHost} {t s : EmitSystem} {a : EmitAction} {o : ℤ × String}

theorem EmitSystem.step_log (hstep : t.step host a = some s) : ∀ r ∈ t.world.log, r ∈ s.world.log := by
  intro r hr
  rcases EmitSystem.step_shrinks hstep with ⟨params,uuid,-,hlog,-⟩ | ⟨hshrinks,-⟩
  · exact hlog ▸ List.mem_append_left _ hr
  · exact hshrinks.log ▸ hr

theorem EmitSystem.step_kept (hstep : t.step host a = some s) {x : EventRow} (hx : Kept s.world x) :
    KeptBefore t.world x ∨ (t.world.bus.eventSeq < x.eventId ∧ x.fixedPart ∈ s.world.logged) := by
  rcases EmitSystem.step_world hstep with hsame | ⟨b,hb,-⟩
  · exact .inl (Kept.before (hsame ▸ hx))
  · exact hx.step hb

theorem EmitSystem.step_deadLetters (hstep : t.step host a = some s) {d : DeadLetterRow}
    (hd : d ∈ s.world.bus.deadLetters) : (∃ r ∈ t.world.bus.deadLetters, SameSnapshot r d) ∨
      ∃ event, a.deadLettered = some event ∧ event.eventId = d.eventId ∧ event.payload = d.payload := by
  rcases EmitSystem.step_world hstep with hsame | ⟨b,hb,rfl | ⟨params,uuid,rfl⟩⟩
  · exact .inl ⟨d,hsame ▸ hd,rfl,rfl⟩
  · exact World.step_deadLetters hb hd
  · rcases World.step_deadLetters hb hd with hold | ⟨event,hevent,-⟩
    · exact .inl hold
    · cases hevent

theorem EmitSystem.step_present (hstep : t.step host a = some s)
    (hlive : ∀ event ∈ a.deadLettered, event ∈ t.world.bus.events) {i : ℤ} (hi : i ≤ t.world.bus.eventSeq)
    (h : Present s.world i) : Present t.world i := by
  rcases h with ⟨x,hx,rfl⟩ | ⟨d,hd,rfl⟩
  · rcases EmitSystem.step_kept hstep hx with ⟨y,hy,hfix⟩ | ⟨hnew,-⟩
    · exact .inl ⟨y,hy,eventId_of_fixedPart hfix⟩
    · omega
  · rcases EmitSystem.step_deadLetters hstep hd with ⟨r,hr,hid,-⟩ | ⟨event,hevent,hid,-⟩
    · exact .inr ⟨r,hr,hid⟩
    · exact .inl ⟨event,.live (hlive event hevent),hid⟩

theorem offloadedBy_mem (hstep : t.step host a = some s) (h : o ∈ offloadedBy host t a) :
    ∃ p r q, t.emitters p = some r ∧ r.phase.prepared = some q ∧ q.2.payloadCasSha ≠ none ∧
      serialised host r.call = some o.2 ∧ o.1 = t.world.bus.eventSeq + 1 ∧ q.2.row o.1 ∈ s.world.log := by
  cases a with
  | emit p env =>
    cases hr : t.emitters p with
    | none =>
      simp only [offloadedBy,hr] at h
      cases h
    | some r =>
      simp only [EmitSystem.step,hr] at hstep
      split_ifs at hstep with hrun
      cases hstep
      simp only [offloadedBy,hr,offloadsOf,List.mem_filterMap,List.mem_filter] at h
      obtain ⟨e,⟨he,hsha⟩,hcontent⟩ := h
      obtain ⟨c,hc,rfl⟩ := Option.map_eq_some_iff.mp hcontent
      rcases @emitAdvance_cases host r.call env t.world.bus r.phase hrun with ⟨-,hacc,-⟩ | hcommit
      · rw [hacc] at he
        cases he
      · obtain ⟨bindable,params,hphase,-,-,hacc⟩ := hcommit.source
        have hlog := he
        rw [hacc] at he
        obtain rfl := List.mem_singleton.mp he
        refine ⟨p,r,(bindable,params),hr,?_,?_,hc,rfl,List.mem_append_right _ hlog⟩
        · rcases hphase with hphase | hphase <;> rw [hphase] <;> rfl
        · exact Option.isSome_iff_ne_none.mp hsha
  | _ => cases h

end Committed

section System

variable {host : CasHost} {contents : Set String} {t : CasState} {clock : ℤ} {a : EmitAction}
  {s : EmitSystem}

theorem Backed.mono {files files' : CasFiles} {r r' : Emitter} {params : NewEvent}
    (h : Backed host files r params) (hext : ContentStore.Extends files files')
    (hcall : r'.call = r.call) : Backed host files' r' params := by
  obtain ⟨c,hc,hrefers,hhas⟩ := h
  exact ⟨c,hcall ▸ hc,hrefers,hhas.mono hext⟩

theorem CasSafe.addressed_onSystem (h : CasSafe host contents t) :
    ContentStore.Addressed host.sha256 contents (t.onSystem host clock a s).files := by
  cases hput : putBy host.toEmitHost t.system a with
  | none =>
    rw [(CasState.onSystem_files_none hput).1]
    exact h.addressed
  | some q =>
    obtain ⟨p,content⟩ := q
    obtain ⟨env,r,-,hr,hcontent⟩ := putBy_some hput
    rw [(CasState.onSystem_files_some hput).1]
    exact h.addressed.put (h.calls p r hr content (serialised_of_offload (h.emit.phase p r hr) hcontent))

theorem CasSafe.waiting_onSystem (h : CasSafe host contents t)
    (hstep : t.system.step host.toEmitHost a = some s) {p : ℕ} {r : Emitter} {q : Bool × NewEvent}
    (hr : s.emitters p = some r) (hprep : r.phase.prepared = some q) :
    q.2.payloadCasSha = none ∨ Backed host (t.onSystem host clock a s).files r q.2 := by
  have hext := t.onSystem_extends host clock a s
  rcases EmitSystem.step_emitter hstep hr with hr | ⟨call,rfl,rfl⟩ | ⟨env,r₀,rfl,hr₀,-,hcall,hphase⟩
  · exact (h.waiting p r q hr hprep).imp_right fun hb => hb.mono hext rfl
  · cases hprep
  · rw [hphase] at hprep
    rcases emitAdvance_prepared hprep with hsame | hnone | ⟨content,hcontent,hrefers⟩
    · exact (h.waiting p r₀ q hr₀ hsame).imp_right fun hb => hb.mono hext hcall
    · exact .inl hnone
    · have hput : putBy host.toEmitHost t.system (.emit p env) = some (p,content) := by
        rw [putBy_emit hr₀,hcontent]
        rfl
      have hserialised := serialised_of_offload (h.emit.phase p r₀ hr₀) hcontent
      refine .inr ⟨content,hcall ▸ hserialised,hrefers,?_⟩
      rw [(CasState.onSystem_files_some hput).1]
      exact ContentStore.has_put _ _ _ _

theorem CasSafe.backed_offload (h : CasSafe host contents t)
    (hstep : t.system.step host.toEmitHost a = some s) {o : ℤ × String}
    (ho : o ∈ offloadedBy host.toEmitHost t.system a) :
    Offloaded host contents s.world.log o ∧ ContentStore.Has t.files (host.sha256 o.2) := by
  obtain ⟨p,r,q,hr,hprep,hsome,hcontent,hid,hlog⟩ := offloadedBy_mem hstep ho
  obtain ⟨c,hc,hrefers,hhas⟩ := (h.waiting p r q hr hprep).resolve_left hsome
  obtain rfl : c = o.2 := Option.some.inj (hc.symm.trans hcontent)
  exact ⟨⟨h.calls p r hr _ hcontent,_,hlog,rfl,hrefers.1,hrefers.2⟩,hhas⟩

theorem CasSafe.onSystem (h : CasSafe host contents t)
    (hok : SequentialOk host contents t (.system clock a))
    (hstep : t.system.step host.toEmitHost a = some s) :
    CasSafe host contents (t.onSystem host clock a s) := by
  obtain ⟨hidle,hlive,hcalls⟩ := hok
  have hext := t.onSystem_extends host clock a s
  have hlog := EmitSystem.step_log hstep
  refine ⟨h.emit.step hstep,h.addressed_onSystem,fun p r hr => ?_,fun p r q hr hprep => ?_,fun x hx => ?_,
    fun d hd => ?_,fun o ho => ?_,fun o ho hp => ?_,fun g hg hrun => ?_⟩
  · rcases EmitSystem.step_emitter hstep hr with hr | ⟨call,rfl,rfl⟩ | ⟨env,r₀,-,hr₀,-,hcall,-⟩
    · exact h.calls p r hr
    · exact hcalls call rfl
    · exact hcall ▸ h.calls p r₀ hr₀
  · exact h.waiting_onSystem hstep hr hprep
  · rcases EmitSystem.step_kept hstep hx with ⟨y,hy,hfix⟩ | ⟨-,hnew⟩
    · obtain ⟨r,hr,hrfix⟩ := h.kept y hy
      exact ⟨r,hlog r hr,hrfix.trans hfix⟩
    · exact hnew
  · rcases EmitSystem.step_deadLetters hstep hd with ⟨d₀,hd₀,hid,hpayload⟩ | ⟨event,hevent,hid,hpayload⟩
    · obtain ⟨r,hr,hrid,hrpayload⟩ := h.deadLetters d₀ hd₀
      exact ⟨r,hlog r hr,hrid.trans hid,hrpayload.trans hpayload⟩
    · obtain ⟨r,hr,hfix⟩ := h.kept event (.live (hlive event hevent))
      exact ⟨r,hlog r hr,(eventId_of_fixedPart hfix).trans hid,(payload_of_fixedPart hfix).trans hpayload⟩
  · rcases List.mem_append.mp ho with ho | ho
    · obtain ⟨hcontent,r,hr,hrow⟩ := h.offloads o ho
      exact ⟨hcontent,r,hlog r hr,hrow⟩
    · exact (h.backed_offload hstep ho).1
  · rcases List.mem_append.mp ho with ho | ho
    · obtain ⟨r,hr,hrid,-⟩ := (h.offloads o ho).row
      have hi : o.1 ≤ t.system.world.bus.eventSeq := hrid ▸ h.emit.prov.log_le r hr
      exact (h.stored o ho (EmitSystem.step_present hstep hlive hi hp)).mono hext
    · exact (h.backed_offload hstep ho).2.mono hext
  · rw [CasState.onSystem_gc] at hg
    exact absurd (hidle g hg) (by simp [hrun])

end System

section Gc

variable {host : CasHost} {contents : Set String} {t t' : CasState} {g : GcRun} {clock : ℤ} {env : GcEnv}

theorem collected_all {name : String} {phase : GcPhase} {db : Db} {archive : Archive}
    (h : phase.unlinking = some name) : pendingRefs host db archive phase = [] := by
  cases phase with
  | unlink _ _ _ _ => rfl
  | _ => cases h

theorem CasSafe.stored_gc (h : CasSafe host contents t) (hhost : CasContract host contents)
    (halone : GcAlone host t g) {o : ℤ × String} (ho : o ∈ t.offloads)
    (hp : Present t.system.world o.1) :
    ContentStore.Has (t.gcStep host env g).files (host.sha256 o.2) := by
  have hhas := h.stored o ho hp
  rcases @gcStep_files host env t.system.world.bus t.system.world.archive t.files g with
    hsame | ⟨name,size,names,shards,hphase,herase⟩
  · exact hsame ▸ hhas
  · have hname : g.phase.unlinking = some name := by rw [hphase]; rfl
    have hlive := halone.covers _ (h.referenced hhost halone.quiet ho hp)
    rw [collected_all hname] at hlive
    refine herase ▸ hhas.erase ?_
    rintro heq
    exact halone.unlinking name hname (heq ▸ hlive.resolve_right List.not_mem_nil)

theorem GcAlone.step (halone : GcAlone host t g)
    (hrun : (t.gcStep host env g).run.phase.running = true) :
    GcAlone host (t.onGc clock (t.gcStep host env g)) (t.gcStep host env g).run := by
  refine ⟨?_,halone.quiet,fun sha hsha => ?_,fun name hname => ?_⟩
  · exact (t.gcStep_frame host env g).opts ▸ halone.allow
  · exact gcStep_pending halone.allow hrun (halone.covers sha hsha)
  · obtain ⟨hcond,hshas,-⟩ := gcStep_condemned hname
    exact hshas.symm ▸ hcond.live

theorem CasSafe.onGc (h : CasSafe host contents t) (hhost : CasContract host contents)
    (hg : t.gc = some g) (hrun : g.phase.running = true) :
    CasSafe host contents (t.onGc clock (t.gcStep host env g)) := by
  have halone := h.gc g hg hrun
  refine ⟨h.emit,h.addressed.subset (t.gcStep_subset host env g),h.calls,fun p r q hr hprep => ?_,h.kept,
    h.deadLetters,h.offloads,fun o ho hp => h.stored_gc hhost halone ho hp,?_⟩
  · have hdone := halone.quiet.emitters p r hr
    cases hphase : r.phase with
    | done outcome =>
      rw [hphase] at hprep
      cases hprep
    | _ =>
      rw [hphase] at hdone
      cases hdone
  · rintro _ ⟨⟩ hnext
    exact halone.step hnext

end Gc

section Run

variable {host : CasHost} {contents : Set String} {t t' : CasState}

theorem CasSafe.start (clock : ℤ) :
    CasSafe host contents (.start .empty .empty .empty clock) where
  emit := .start _ _
  addressed := ContentStore.addressed_empty
  calls p r hr := by cases hr
  waiting p r q hr := by cases hr
  kept x hx := by
    cases hx with
    | live he => exact absurd he (KeyedTable.not_mem_empty _)
    | archived he => exact absurd he (KeyedTable.not_mem_empty _)
    | warm hname he =>
      obtain ⟨b,hb,-⟩ := he
      exact absurd hb (KeyedTable.not_mem_empty _)
    | held hs he => cases hs
  deadLetters d hd := absurd hd (KeyedTable.not_mem_empty _)
  offloads o ho := by cases ho
  stored o ho := by cases ho
  gc g hg := by cases hg

theorem CasSafe.startGc (h : CasSafe host contents t) {clock : ℤ} {opts : GcOpts}
    (hallow : opts.allowMissingBuckets = []) (hquiet : Quiet t.system) :
    CasSafe host contents { t with clock := clock, gc := some (.begin opts clock) } := by
  refine ⟨h.emit,h.addressed,h.calls,h.waiting,h.kept,h.deadLetters,h.offloads,h.stored,?_⟩
  rintro _ ⟨⟩ -
  exact ⟨hallow,hquiet,fun sha hsha => .inr hsha,fun name hname => by cases hname⟩

theorem CasSafe.step (h : CasSafe host contents t) (hhost : CasContract host contents) {a : CasAction}
    (hok : SequentialOk host contents t a) (hstep : t.step host a = some t') :
    CasSafe host contents t' := by
  cases a with
  | system clock a =>
    obtain ⟨s,hs,rfl⟩ := Option.map_eq_some_iff.mp hstep
    exact h.onSystem hok hs
  | startGc clock opts =>
    obtain rfl := CasState.step_startGc hstep
    exact h.startGc hok.1 hok.2
  | gc clock env =>
    obtain ⟨g,hg,hrun,rfl⟩ := CasState.step_gc hstep
    exact h.onGc hhost hg hrun
  | stopGc =>
    cases hstep
    exact ⟨h.emit,h.addressed,h.calls,h.waiting,h.kept,h.deadLetters,h.offloads,h.stored,
      fun g hg => by cases hg⟩

end Run

inductive Snapshot (w : World) (eventId : ℤ) : String → Prop
  | live {e : EventRow} (he : e ∈ w.bus.events) (hid : e.eventId = eventId) : Snapshot w eventId e.payload
  | archived {e : EventRow} (he : e ∈ w.bus.archiveRows) (hid : e.eventId = eventId) :
      Snapshot w eventId e.payload
  | warm {name : Text} {e : EventRow} (hname : name ∈ listBuckets w.archive)
      (he : Holds w.archive name e) (hid : e.eventId = eventId) : Snapshot w eventId e.payload
  | deadLetter {d : DeadLetterRow} (hd : d ∈ w.bus.deadLetters) (hid : d.eventId = eventId) :
      Snapshot w eventId d.payload

theorem Snapshot.origin {w : World} {eventId : ℤ} {payload : String} (h : Snapshot w eventId payload) :
    (∃ x, Kept w x ∧ x.eventId = eventId ∧ x.payload = payload) ∨
      ∃ d ∈ w.bus.deadLetters, d.eventId = eventId ∧ d.payload = payload := by
  cases h with
  | @live e he hid => exact .inl ⟨e,.live he,hid,rfl⟩
  | @archived e he hid => exact .inl ⟨e,.archived he,hid,rfl⟩
  | @warm name e hname he hid => exact .inl ⟨e,.warm (mem_listBuckets.mp hname).2 he,hid,rfl⟩
  | @deadLetter d hd hid => exact .inr ⟨d,hd,hid,rfl⟩

theorem CasSafe.snapshot {host : CasHost} {contents : Set String} {t : CasState}
    (h : CasSafe host contents t) {o : ℤ × String} (ho : o ∈ t.offloads) {payload : String}
    (hs : Snapshot t.system.world o.1 payload) :
    payload = casReference (host.sha256 o.2) ∧ Present t.system.world o.1 := by
  rcases hs.origin with ⟨x,hx,hid,rfl⟩ | ⟨d,hd,hid,rfl⟩
  · exact ⟨(h.row_of_kept ho hx hid).1,.inl ⟨x,hx,hid⟩⟩
  · exact ⟨h.payload_of_deadLetter ho hd hid,.inr ⟨d,hd,hid⟩⟩

theorem offloads_survive_gc {host : CasHost} {contents : Set String} (hhost : CasContract host contents)
    {clock : ℤ} {as : List CasAction} {t : CasState}
    (hrun : Run (CasState.step host) (SequentialOk host contents) (.start .empty .empty .empty clock) as t)
    {eventId : ℤ} {content : String} (ho : (eventId,content) ∈ t.offloads) {payload : String}
    (hs : Snapshot t.system.world eventId payload) :
    payload = casReference (host.sha256 content) ∧
      ContentStore.read t.files (host.sha256 content) = some content := by
  have h : CasSafe host contents t := hrun.invariant
    (fun _ _ _ (ht : CasSafe host contents _) hok hs => ht.step hhost hok hs) (.start clock)
  obtain ⟨hpayload,hpresent⟩ := h.snapshot ho hs
  have hhas := h.stored _ ho hpresent
  exact ⟨hpayload,h.addressed.read hhost.collisionFree (h.offloads _ ho).content hhas⟩

def SampleOk (t : CasState) : CasAction → Prop
  | .system _ a => GcIdle t.gc ∧ (∀ event ∈ a.deadLettered, event ∈ t.system.world.bus.events) ∧
      ∀ call ∈ a.calling, ∀ c ∈ serialised sampleHost call, c = "{}"
  | .startGc _ opts => opts.allowMissingBuckets = [] ∧
      ∀ r ∈ t.system.emitters 0, r.phase.running = false
  | _ => True

instance (t : CasState) : ∀ a, Decidable (SampleOk t a)
  | .system _ a => inferInstanceAs (Decidable (GcIdle t.gc ∧
      (∀ event ∈ a.deadLettered, event ∈ t.system.world.bus.events) ∧
      ∀ call ∈ a.calling, ∀ c ∈ serialised sampleHost call, c = "{}"))
  | .startGc _ opts => inferInstanceAs (Decidable (opts.allowMissingBuckets = [] ∧
      ∀ r ∈ t.system.emitters 0, r.phase.running = false))
  | .gc _ _ | .stopGc => inferInstanceAs (Decidable True)

theorem OnlySlotZero.quiet {t : CasState} (h : OnlySlotZero t)
    (hzero : ∀ r ∈ t.system.emitters 0, r.phase.running = false) : Quiet t.system := by
  refine ⟨fun p r hr => ?_,h.sweepers⟩
  by_cases hp : p = 0
  · subst hp
    exact hzero r hr
  · exact absurd ((h.emitters p hp).symm.trans hr) (by simp)

theorem OnlySlotZero.sequentialOk {t : CasState} {a : CasAction} (h : OnlySlotZero t)
    (hok : SampleOk t a) : SequentialOk sampleCasHost {"{}"} t a := by
  cases a with
  | system clock a => exact hok
  | startGc clock opts => exact ⟨hok.1,h.quiet hok.2⟩
  | gc clock env => trivial
  | stopGc => trivial

theorem sampleContract : CasContract sampleCasHost {"{}"} where
  collisionFree := Set.injOn_singleton _ _
  digest c _ := sampleSha_ne c
  extract _ _ := by
    show (if casReference sampleSha = casReference sampleSha then some sampleSha else none) = some sampleSha
    exact if_pos rfl

def offloadedSample : EventRow where
  eventId := 1
  eventType := "wicked.run.done".toList
  domain := "wicked-testing".toList
  subdomain := []
  payload := casReference sampleSha
  schemaVersion := "1.0.0"
  idempotencyKey := "k"
  emittedAt := 0
  expiresAt := 259200000
  dedupExpiresAt := 86400000
  metadata := none
  parentEventId := none
  sessionId := none
  correlationId := none
  producerId := none
  originNodeId := none
  registrySchemaVersion := some 1
  payloadCasSha := some sampleSha

def busStep (clock : ℤ) (op : BusOp) : CasAction := .system clock (.world (.bus op))

def archivedThenCollected : List CasAction :=
  [busStep 0 (.insertSubscription ⟨"s1","wicked-testing",.subscriber,"wicked.*".toList,none,0,none⟩),
    busStep 0 (.insertCursor ⟨"c1","s1",0,none,0,none⟩)] ++
  emitUntilInsert 0 ++
  [insertStep 0,
    busStep 1 (.moveToDeadLetter "c1" "s1" offloadedSample 4 (some "boom") 1),
    busStep weekMs (.sweep ⟨some "archive",none,true,none,none,none⟩ weekMs),
    .startGc weekMs ⟨some 0,none,[],false⟩] ++
  gcSteps weekMs 10

theorem offloads_survive_gc_after_archive :
    ∃ t : CasState, Snapshot t.system.world 1 (casReference sampleSha) ∧
      t.system.world.bus.events.rows = [] ∧ (∃ g ∈ t.gc, g.phase = .returned 1) ∧
      ContentStore.read t.files sampleSha = some "{}" := by
  have hexec : (exec (guarded (fun t a => SlotZero a ∧ SampleOk t a) (CasState.step sampleCasHost))
      (.start .empty .empty .empty 0) archivedThenCollected).any (fun t =>
        decide (t.offloads = [(1,"{}")]) && decide (t.system.world.bus.events.rows = []) &&
        decide (offloadedSample ∈ t.system.world.bus.archiveRows) &&
        decide (∃ g ∈ t.gc, g.phase = .returned 1)) = true := by
    decide +kernel
  obtain ⟨t,ht,hobs⟩ := (Option.any_eq_true _ _).mp hexec
  simp only [Bool.and_eq_true,decide_eq_true_eq] at hobs
  obtain ⟨⟨⟨hoffloads,hempty⟩,harchived⟩,hgc⟩ := hobs
  have hrun := @Run.strengthen _ _ (CasState.step sampleCasHost) _ (SequentialOk sampleCasHost {"{}"})
    OnlySlotZero (fun _ _ _ h hok hs => h.step hok.1 hs) (fun _ _ _ h hok _ => h.sequentialOk hok.2) _ _ _
    (run_of_guarded ht) (.start 0)
  have hsnapshot : Snapshot t.system.world 1 (casReference sampleSha) := .archived harchived rfl
  have ho : (1,"{}") ∈ t.offloads := hoffloads ▸ List.mem_singleton_self _
  exact ⟨t,hsnapshot,hempty,hgc,(offloads_survive_gc sampleContract hrun ho hsnapshot).2⟩

end WickedBus
