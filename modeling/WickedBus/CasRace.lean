import WickedBus.Cas

namespace WickedBus

open GuardedRun

def CasState.Waiting (t : CasState) (p : ℕ) (sha : String) : Prop :=
  ∃ r q, t.system.emitters p = some r ∧ r.phase.prepared = some q ∧ q.2.payloadCasSha = some sha

def CasState.liveRefs (t : CasState) : List String := casRefs t.system.world.bus.events.rows

def GcRun.withRefs (g : GcRun) (refs : List String) : GcRun := { g with shas := g.shas ++ refs }

def InsertTimely (grace : ℚ) (t : CasState) (clock : ℤ) : EmitAction → Prop
  | .world (.bus (.emit params _)) => params.payloadCasSha = none
  | .emit p _ => ∀ r ∈ t.system.emitters p, ∀ q ∈ r.phase.prepared, q.2.payloadCasSha ≠ none →
      ∀ put ∈ t.puts p, (clock : ℚ) - put.time < grace
  | _ => True

def Timely (grace : ℚ) (t : CasState) : CasAction → Prop
  | .system clock a => t.clock ≤ clock ∧ InsertTimely grace t clock a
  | .startGc clock opts => t.clock ≤ clock ∧ grace ≤ opts.graceMs ∧ ∀ now ∈ opts.now, now ≤ clock
  | .gc clock _ => t.clock ≤ clock
  | .stopGc => True

def FreshReuse (host : CasHost) (grace : ℚ) (t : CasState) : CasAction → Prop
  | .system _ a => ∀ q ∈ putBy host.toEmitHost t.system a, ∀ g ∈ t.gc, g.phase.collected = true →
      ¬ Condemned g t.files (host.sha256 q.2)
  | .gc clock _ => ∀ g ∈ t.gc, g.phase = .readEvents → ∀ p sha put, t.Waiting p sha →
      t.puts p = some put → put.reused = true → (clock : ℚ) - put.time < grace →
        ¬ Condemned (g.withRefs t.liveRefs) t.files sha
  | _ => True

structure CasState.Safe (t : CasState) (sha : String) : Prop where
  named : sha ≠ ""
  has : ContentStore.Has t.files sha
  spared : ∀ g ∈ t.gc, g.phase.collected = true → ¬ Condemned g t.files sha

structure CasState.Keeps (t : CasState) (put : CasPut) : Prop where
  safe : t.Safe put.sha
  fresh : put.reused = false → ∃ f ∈ t.files, f.key = put.sha ∧ f.time = put.time

structure RaceSafe (grace : ℚ) (t : CasState) : Prop where
  now : ∀ g ∈ t.gc, g.now ≤ t.clock
  within : ∀ g ∈ t.gc, grace ≤ g.opts.graceMs
  live : ∀ e ∈ t.system.world.bus.events, ∀ sha, e.payloadCasSha = some sha → t.Safe sha
  waiting : ∀ p sha, t.Waiting p sha → ∃ put, t.puts p = some put ∧ put.sha = sha ∧
    ((t.clock : ℚ) - put.time < grace → t.Keeps put)
  unlinking : ∀ g ∈ t.gc, ∀ name, g.phase.unlinking = some name → Condemned g t.files name

section System

variable {host : CasHost} {grace : ℚ} {t : CasState} {clock : ℤ} {a : EmitAction} {s : EmitSystem}
  {sha : String}

theorem Condemned.mono {g : GcRun} {files files' : CasFiles} {name : String} (h : Condemned g files name)
    (hmem : ∀ f ∈ files, f ∈ files') : Condemned g files' name :=
  ⟨h.live,h.wet,h.old.imp fun f hf => ⟨hmem f hf.1,hf.2⟩⟩

theorem Condemned.old_file {g : GcRun} {files files' : CasFiles} {name : String}
    (h : Condemned g files' name) (hext : ContentStore.Extends files files')
    (hhas : ContentStore.Has files name) : Condemned g files name := by
  obtain ⟨f,hf,rfl,hold⟩ := h.old
  exact ⟨h.live,h.wet,f,hext.old f hf hhas,rfl,hold⟩

theorem CasState.Safe.onSystem (h : t.Safe sha) : (t.onSystem host clock a s).Safe sha := by
  have hext := t.onSystem_extends host clock a s
  refine ⟨h.named,h.has.mono hext,fun g hg hcollected hcond => ?_⟩
  rw [CasState.onSystem_gc] at hg
  exact h.spared g hg hcollected (hcond.old_file hext h.has)

theorem CasState.Keeps.onSystem {put : CasPut} (h : t.Keeps put) :
    (t.onSystem host clock a s).Keeps put := by
  refine ⟨h.safe.onSystem,fun hreused => ?_⟩
  obtain ⟨f,hf,hkey,htime⟩ := h.fresh hreused
  exact ⟨f,(t.onSystem_extends host clock a s).mem f hf,hkey,htime⟩

theorem puts_of_waiting {p : ℕ} {r : Emitter} {q : Bool × NewEvent} (hr : t.system.emitters p = some r)
    (hprep : r.phase.prepared = some q) : (t.onSystem host clock a s).puts p = t.puts p := by
  cases hput : putBy host.toEmitHost t.system a with
  | none => rw [(CasState.onSystem_files_none hput).2]
  | some c =>
    obtain ⟨p',content⟩ := c
    rw [(CasState.onSystem_files_some hput).2]
    obtain ⟨env,r',-,hr',hcontent⟩ := putBy_some hput
    refine Function.update_of_ne ?_ _ _
    rintro rfl
    cases hr.symm.trans hr'
    rw [offloadContent_of_prepared hprep] at hcontent
    cases hcontent

theorem inGrace_of_recent {g : GcRun} {f : Blob String String} (hgrace : 0 < grace)
    (hwithin : grace ≤ g.opts.graceMs) (h : g.now ≤ f.time) : g.inGrace f := by
  have : (g.now : ℚ) ≤ f.time := by exact_mod_cast h
  unfold GcRun.inGrace
  linarith

theorem RaceSafe.keepsNew (h : RaceSafe grace t) (hgrace : 0 < grace) (hsha : ∀ c, host.sha256 c ≠ "")
    (htime : t.clock ≤ clock) (hreuse : FreshReuse host grace t (.system clock a)) {p : ℕ}
    {content : String} (hput : putBy host.toEmitHost t.system a = some (p,content)) :
    (t.onSystem host clock a s).Keeps
      ⟨host.sha256 content,clock,(t.files.get? (host.sha256 content)).isSome⟩ := by
  have hfiles := (@CasState.onSystem_files_some host t clock a s p content hput).1
  have hext := t.onSystem_extends host clock a s
  have hhas : ContentStore.Has (t.onSystem host clock a s).files (host.sha256 content) := by
    rw [hfiles]
    exact ContentStore.has_put _ _ _ _
  refine ⟨⟨hsha content,hhas,fun g hg hcollected hcond => ?_⟩,fun hreused => ?_⟩
  · rw [CasState.onSystem_gc] at hg
    by_cases hold : ContentStore.Has t.files (host.sha256 content)
    · exact hreuse _ hput g hg hcollected (hcond.old_file hext hold)
    · obtain ⟨f,hf,hkey,hexpired⟩ := hcond.old
      rw [hfiles] at hf
      rcases ContentStore.mem_put.mp hf with hf | ⟨rfl,-⟩
      · exact hold ⟨f,hf,hkey⟩
      · exact hexpired (inGrace_of_recent hgrace (h.within g hg) ((h.now g hg).trans htime))
  · have hnew : ¬ ContentStore.Has t.files (host.sha256 content) := by
      rw [ContentStore.has_iff]
      exact ne_true_of_eq_false hreused
    refine ⟨⟨host.sha256 content,content,clock⟩,?_,rfl,rfl⟩
    rw [hfiles]
    exact ContentStore.mem_put.mpr (.inr ⟨rfl,hnew⟩)

theorem RaceSafe.onSystem (h : RaceSafe grace t) (hgrace : 0 < grace) (hsha : ∀ c, host.sha256 c ≠ "")
    (htime : Timely grace t (.system clock a)) (hreuse : FreshReuse host grace t (.system clock a))
    (hstep : t.system.step host.toEmitHost a = some s) : RaceSafe grace (t.onSystem host clock a s) := by
  have hclock : (t.clock : ℚ) ≤ clock := by exact_mod_cast htime.1
  refine ⟨fun g hg => ?_,fun g hg => ?_,fun e he sha href => ?_,fun p sha hwait => ?_,
    fun g hg name hname => ?_⟩
  · rw [CasState.onSystem_gc] at hg
    exact (h.now g hg).trans htime.1
  · rw [CasState.onSystem_gc] at hg
    exact h.within g hg
  · rcases EmitSystem.step_shrinks hstep with ⟨params,uuid,hemit,-,hsource⟩ | ⟨hshrinks,-⟩
    · have hlive : e.fixedPart ∈ s.world.bus.live := mem_live he
      rw [emit_live hemit] at hlive
      rcases hlive with hnew | ⟨old,hold,hfix⟩
      · have hparams : params.payloadCasSha = some sha := (payloadCasSha_of_fixedPart hnew).symm.trans href
        rcases hsource with rfl | ⟨p,env,r,bindable,rfl,hr,hprep⟩
        · exact absurd (htime.2.symm.trans hparams) (by simp)
        · obtain ⟨put,hput,rfl,hkeeps⟩ := h.waiting p sha ⟨r,_,hr,hprep,hparams⟩
          have hdelay := htime.2 r hr _ hprep (by simp [hparams]) put hput
          exact (hkeeps (by linarith)).safe.onSystem
      · exact (h.live old hold sha ((payloadCasSha_of_fixedPart hfix).trans href)).onSystem
    · exact (h.live e (hshrinks.rows e he) sha href).onSystem
  · obtain ⟨r',q,hr',hprep,href⟩ := hwait
    have hstays : ∀ r, t.system.emitters p = some r → r.phase.prepared = some q →
        ∃ put, (t.onSystem host clock a s).puts p = some put ∧ put.sha = sha ∧
          ((clock : ℚ) - put.time < grace → (t.onSystem host clock a s).Keeps put) := by
      intro r hr hprep
      obtain ⟨put,hput,hname,hkeeps⟩ := h.waiting p sha ⟨r,q,hr,hprep,href⟩
      exact ⟨put,(puts_of_waiting hr hprep).trans hput,hname,fun hlt => (hkeeps (by linarith)).onSystem⟩
    rcases EmitSystem.step_emitter hstep hr' with hr | ⟨call,rfl,rfl⟩ | ⟨env,r,rfl,hr,-,-,hphase⟩
    · exact hstays r' hr hprep
    · cases hprep
    · rw [hphase] at hprep
      rcases emitAdvance_prepared hprep with hsame | hnone | ⟨content,hcontent,-,hrefers⟩
      · exact hstays r hr hsame
      · exact absurd (hnone.symm.trans href) (by simp)
      · have hput : putBy host.toEmitHost t.system (.emit p env) = some (p,content) := by
          rw [putBy_emit hr,hcontent]
          rfl
        refine ⟨_,?_,Option.some.inj (hrefers.symm.trans href),fun _ =>
          h.keepsNew hgrace hsha htime.1 hreuse hput⟩
        rw [(CasState.onSystem_files_some hput).2,Function.update_self]
  · rw [CasState.onSystem_gc] at hg
    exact (h.unlinking g hg name hname).mono (t.onSystem_extends host clock a s).mem

end System

section Gc

variable {host : CasHost} {grace : ℚ} {t : CasState} {g : GcRun} {clock : ℤ} {env : GcEnv} {sha : String}

theorem GcFrame.inGrace {g g' : GcRun} (h : GcFrame g g') (f : Blob String String) :
    g'.inGrace f ↔ g.inGrace f := by
  unfold GcRun.inGrace
  rw [h.opts,h.now]

theorem GcFrame.condemned {g g' : GcRun} (h : GcFrame g g') {files files' : CasFiles} {name : String}
    (hfiles : ∀ f ∈ files', f ∈ files) (hcond : Condemned g' files' name) : Condemned g files name := by
  refine ⟨fun hsha => hcond.live (h.shas name hsha),h.opts ▸ hcond.wet,?_⟩
  obtain ⟨f,hf,hkey,hold⟩ := hcond.old
  exact ⟨f,hfiles f hf,hkey,fun hgrace => hold ((h.inGrace f).mpr hgrace)⟩

theorem RaceSafe.gc_keeps (h : RaceSafe grace t) (hg : t.gc = some g) (hsafe : t.Safe sha)
    {f : Blob String String} (hf : f ∈ t.files) (hkey : f.key = sha) :
    f ∈ (t.gcStep host env g).files := by
  rcases @gcStep_files host env t.system.world.bus t.system.world.archive t.files g with
    hsame | ⟨name,size,names,shards,hphase,herase⟩
  · exact hsame ▸ hf
  · have hcond : Condemned g t.files name := h.unlinking g hg name (by rw [hphase]; rfl)
    have hcollected : g.phase.collected = true := by rw [hphase]; rfl
    refine herase ▸ ContentStore.mem_erase.mpr ⟨hf,?_⟩
    rintro rfl
    exact hsafe.spared g hg hcollected (hkey ▸ hcond)

theorem RaceSafe.safe_gc (h : RaceSafe grace t) (hg : t.gc = some g) (hsafe : t.Safe sha)
    (hread : g.phase = .readEvents → ¬ Condemned (g.withRefs t.liveRefs) t.files sha) :
    (t.onGc clock (t.gcStep host env g)).Safe sha := by
  obtain ⟨f,hf,hkey⟩ := hsafe.has
  refine ⟨hsafe.named,⟨f,h.gc_keeps hg hsafe hf hkey,hkey⟩,?_⟩
  rintro _ ⟨⟩ hcollected hcond
  have hsubset := t.gcStep_subset host env g
  rcases gcStep_collected hcollected with hbefore | ⟨hphase,hrefs⟩
  · exact hsafe.spared g hg hbefore (gcStep_frame.condemned hsubset hcond)
  · have hframe : GcFrame (g.withRefs t.liveRefs) (t.gcStep host env g).run := by
      refine ⟨gcStep_frame.opts,gcStep_frame.now,fun x hx => ?_⟩
      exact (List.mem_append.mp hx).elim (gcStep_frame.shas x) (hrefs x)
    exact hread hphase (hframe.condemned hsubset hcond)

theorem RaceSafe.onGc (h : RaceSafe grace t) (hg : t.gc = some g) (htime : t.clock ≤ clock)
    (hreuse : FreshReuse host grace t (.gc clock env)) :
    RaceSafe grace (t.onGc clock (t.gcStep host env g)) := by
  have hclock : (t.clock : ℚ) ≤ clock := by exact_mod_cast htime
  have hframe := t.gcStep_frame host env g
  refine ⟨?_,?_,fun e he sha href => ?_,fun p sha hwait => ?_,?_⟩
  · rintro _ ⟨⟩
    exact hframe.now ▸ (h.now g hg).trans htime
  · rintro _ ⟨⟩
    exact hframe.opts ▸ h.within g hg
  · have hsafe := h.live e he sha href
    refine h.safe_gc hg hsafe fun _ hcond => hcond.live (List.mem_append_right _ ?_)
    exact mem_casRefs.mpr ⟨hsafe.named,e,he,href⟩
  · obtain ⟨put,hput,rfl,hkeeps⟩ := h.waiting p sha hwait
    refine ⟨put,hput,rfl,fun hlt => ?_⟩
    have hkept : t.Keeps put := hkeeps (lt_of_le_of_lt (sub_le_sub_right hclock _) hlt)
    refine ⟨h.safe_gc hg hkept.safe fun hphase hcond => ?_,fun hreused => ?_⟩
    · cases hreused : put.reused with
      | true => exact hreuse g hg hphase p put.sha put hwait hput hreused hlt hcond
      | false =>
        obtain ⟨f,hf,hkey,htime'⟩ := hkept.fresh hreused
        obtain ⟨f',hf',hkey',hexpired⟩ := hcond.old
        obtain rfl := KeyedTable.eq_of_key hf hf' (hkey.trans hkey'.symm)
        have hnow : (g.now : ℚ) ≤ t.clock := by exact_mod_cast h.now g hg
        have hwithin := h.within g hg
        refine hexpired ?_
        show (g.now : ℚ) - f.time < g.opts.graceMs
        rw [htime']
        have hlt' : (clock : ℚ) - put.time < grace := hlt
        linarith
    · obtain ⟨f,hf,hkey,htime'⟩ := hkept.fresh hreused
      exact ⟨f,h.gc_keeps hg hkept.safe hf hkey,hkey,htime'⟩
  · rintro _ ⟨⟩ name hname
    obtain ⟨hcond,hshas,hfiles⟩ := gcStep_condemned hname
    obtain ⟨f,hf,hkey,hexpired⟩ := hcond.old
    refine ⟨hshas.symm ▸ hcond.live,hframe.opts.symm ▸ hcond.wet,f,?_,hkey,?_⟩
    · show f ∈ (t.gcStep host env g).files
      rw [show (t.gcStep host env g).files = t.files from hfiles]
      exact hf
    · exact fun hgrace => hexpired ((hframe.inGrace f).mp hgrace)

end Gc

section Run

variable {host : CasHost} {grace : ℚ} {t t' : CasState}

theorem RaceSafe.start {db : Db} {archive : Archive} {files : CasFiles} {clock : ℤ}
    (hrefs : ∀ e ∈ db.events, ∀ sha, e.payloadCasSha = some sha → sha ≠ "" ∧ ContentStore.Has files sha) :
    RaceSafe grace (.start db archive files clock) where
  now g hg := by cases hg
  within g hg := by cases hg
  live e he sha href := ⟨(hrefs e he sha href).1,(hrefs e he sha href).2,fun g hg => by cases hg⟩
  waiting p sha hwait := by
    obtain ⟨r,q,hr,-⟩ := hwait
    cases hr
  unlinking g hg := by cases hg

theorem RaceSafe.startGc (h : RaceSafe grace t) {clock : ℤ} {opts : GcOpts}
    (htime : Timely grace t (.startGc clock opts)) :
    RaceSafe grace { t with clock := clock, gc := some (.begin opts clock) } := by
  obtain ⟨hclock,hgrace,hnow⟩ := htime
  have hle : (t.clock : ℚ) ≤ clock := by exact_mod_cast hclock
  have hsafe : ∀ sha, t.Safe sha →
      CasState.Safe { t with clock := clock, gc := some (.begin opts clock) } sha := by
    refine fun sha hsafe => ⟨hsafe.named,hsafe.has,?_⟩
    rintro _ ⟨⟩ hcollected
    cases hcollected
  refine ⟨?_,?_,fun e he sha href => hsafe sha (h.live e he sha href),fun p sha hwait => ?_,?_⟩
  · rintro _ ⟨⟩
    show opts.now.getD clock ≤ clock
    cases hn : opts.now with
    | none => exact le_rfl
    | some now => exact hnow now hn
  · rintro _ ⟨⟩
    exact hgrace
  · obtain ⟨put,hput,rfl,hkeeps⟩ := h.waiting p sha hwait
    refine ⟨put,hput,rfl,fun hlt => ?_⟩
    have hkept : t.Keeps put := hkeeps (lt_of_le_of_lt (sub_le_sub_right hle _) hlt)
    exact ⟨hsafe _ hkept.safe,hkept.fresh⟩
  · rintro _ ⟨⟩ name hname
    cases hname

theorem RaceSafe.stopGc (h : RaceSafe grace t) : RaceSafe grace { t with gc := none } where
  now g hg := by cases hg
  within g hg := by cases hg
  live e he sha href :=
    have hsafe := h.live e he sha href
    ⟨hsafe.named,hsafe.has,fun g hg => by cases hg⟩
  waiting p sha hwait := by
    obtain ⟨put,hput,hname,hkeeps⟩ := h.waiting p sha hwait
    refine ⟨put,hput,hname,fun hlt => ?_⟩
    have hkept : t.Keeps put := hkeeps hlt
    exact ⟨⟨hkept.safe.named,hkept.safe.has,fun g hg => by cases hg⟩,hkept.fresh⟩
  unlinking g hg := by cases hg

theorem RaceSafe.step (h : RaceSafe grace t) (hgrace : 0 < grace) (hsha : ∀ c, host.sha256 c ≠ "")
    {a : CasAction} (htime : Timely grace t a) (hreuse : FreshReuse host grace t a)
    (hstep : t.step host a = some t') : RaceSafe grace t' := by
  cases a with
  | system clock a =>
    obtain ⟨s,hs,rfl⟩ := Option.map_eq_some_iff.mp hstep
    exact h.onSystem hgrace hsha htime hreuse hs
  | startGc clock opts =>
    obtain rfl := CasState.step_startGc hstep
    exact h.startGc htime
  | gc clock env =>
    obtain ⟨g,hg,-,rfl⟩ := CasState.step_gc hstep
    exact h.onGc hg htime hreuse
  | stopGc =>
    cases hstep
    exact h.stopGc

end Run

theorem live_blobs_survive_gc {host : CasHost} {grace : ℚ} {db : Db} {archive : Archive}
    {files : CasFiles} {clock : ℤ} {as : List CasAction} {t : CasState} (hgrace : 0 < grace)
    (hsha : ∀ c, host.sha256 c ≠ "")
    (hrefs : ∀ e ∈ db.events, ∀ sha, e.payloadCasSha = some sha → sha ≠ "" ∧ ContentStore.Has files sha)
    (hrun : Run (CasState.step host) (fun t a => Timely grace t a ∧ FreshReuse host grace t a)
      (.start db archive files clock) as t)
    {e : EventRow} (he : e ∈ t.system.world.bus.events) {sha : String}
    (href : e.payloadCasSha = some sha) : (ContentStore.read t.files sha).isSome = true := by
  have h : RaceSafe grace t := hrun.invariant
    (fun _ _ _ (ht : RaceSafe grace _) hok hs => ht.step hgrace hsha hok.1 hok.2 hs) (.start hrefs)
  exact (h.live e he sha href).has.read

instance (grace : ℚ) (t : CasState) (clock : ℤ) : ∀ a, Decidable (InsertTimely grace t clock a)
  | .world (.bus op) => by cases op <;> unfold InsertTimely <;> infer_instance
  | .world (.beginSweep _ _ _) | .world (.sweep _ _) | .world (.crash _) | .call _ _ | .crash _ =>
    inferInstanceAs (Decidable True)
  | .emit p _ => inferInstanceAs (Decidable (∀ r ∈ t.system.emitters p, ∀ q ∈ r.phase.prepared,
      q.2.payloadCasSha ≠ none → ∀ put ∈ t.puts p, (clock : ℚ) - put.time < grace))

instance (grace : ℚ) (t : CasState) : ∀ a, Decidable (Timely grace t a)
  | .system clock a => inferInstanceAs (Decidable (t.clock ≤ clock ∧ InsertTimely grace t clock a))
  | .startGc clock opts => inferInstanceAs (Decidable (t.clock ≤ clock ∧ grace ≤ opts.graceMs ∧
      ∀ now ∈ opts.now, now ≤ clock))
  | .gc clock _ => inferInstanceAs (Decidable (t.clock ≤ clock))
  | .stopGc => inferInstanceAs (Decidable True)

def weeklyGc : GcOpts := ⟨some 7,none,[],false⟩

instance (g : GcRun) (files : CasFiles) (name : String) : Decidable (Condemned g files name) :=
  decidable_of_iff (name ∉ g.shas ∧ g.opts.dryRun = false ∧
      ∃ f ∈ files.rows, f.key = name ∧ ¬ g.inGrace f)
    ⟨fun h => ⟨h.1,h.2.1,h.2.2⟩,fun h => ⟨h.live,h.wet,h.old⟩⟩

def SoleReuse (host : CasHost) (t : CasState) : CasAction → Prop
  | .system _ a => ∀ q ∈ putBy host.toEmitHost t.system a, ∀ g ∈ t.gc, g.phase.collected = true →
      ¬ Condemned g t.files (host.sha256 q.2)
  | .gc _ _ => ∀ g ∈ t.gc, g.phase = .readEvents → t.system.emitters 0 = none
  | _ => True

instance (host : CasHost) (t : CasState) : ∀ a, Decidable (SoleReuse host t a)
  | .system _ a => inferInstanceAs (Decidable (∀ q ∈ putBy host.toEmitHost t.system a, ∀ g ∈ t.gc,
      g.phase.collected = true → ¬ Condemned g t.files (host.sha256 q.2)))
  | .gc _ _ => inferInstanceAs (Decidable (∀ g ∈ t.gc, g.phase = .readEvents → t.system.emitters 0 = none))
  | .startGc _ _ | .stopGc => inferInstanceAs (Decidable True)

theorem OnlySlotZero.freshReuse {host : CasHost} {grace : ℚ} {t : CasState} {a : CasAction}
    (h : OnlySlotZero t) (hok : SoleReuse host t a) : FreshReuse host grace t a := by
  cases a with
  | system clock a => exact hok
  | gc clock env =>
    rintro g hg hphase p sha put ⟨r,q,hr,-⟩
    by_cases hp : p = 0
    · subst hp
      exact absurd ((hok g hg hphase).symm.trans hr) (by simp)
    · exact absurd ((h.emitters p hp).symm.trans hr) (by simp)
  | startGc clock opts => trivial
  | stopGc => trivial

def youngOrphanReused : List CasAction :=
  emitUntilInsert 0 ++ [.system 1 (.crash 0),.startGc 1000 weeklyGc] ++ gcSteps 1000 6 ++
    emitUntilInsert 1000 ++ gcSteps 1000 4 ++ [insertStep 1000]

theorem live_blobs_survive_gc_reusing_young_orphan :
    ∃ t : CasState, ∃ e ∈ t.system.world.bus.events, e.payloadCasSha = some sampleSha ∧
      (∃ g ∈ t.gc, g.phase = .returned 0) ∧ (ContentStore.read t.files sampleSha).isSome = true := by
  have hexec : (exec (guarded (fun t a => SlotZero a ∧ Timely weekMs t a ∧ SoleReuse sampleCasHost t a)
      (CasState.step sampleCasHost)) (.start .empty .empty .empty 0) youngOrphanReused).any (fun t =>
        t.system.world.bus.events.rows.any (fun e => decide (e.payloadCasSha = some sampleSha ∧
          ∃ g ∈ t.gc, g.phase = .returned 0))) = true := by
    decide +kernel
  obtain ⟨t,ht,hobs⟩ := (Option.any_eq_true _ _).mp hexec
  obtain ⟨e,he,hobs⟩ := List.any_eq_true.mp hobs
  obtain ⟨href,hgc⟩ := of_decide_eq_true hobs
  have hrun := @Run.strengthen _ _ (CasState.step sampleCasHost) _
    (fun t a => Timely weekMs t a ∧ FreshReuse sampleCasHost weekMs t a) OnlySlotZero
    (fun _ _ _ h hok hs => h.step hok.1 hs) (fun _ _ _ h hok _ => ⟨hok.2.1,h.freshReuse hok.2.2⟩) _ _ _
    (run_of_guarded ht) (.start 0)
  exact ⟨t,e,he,href,hgc,live_blobs_survive_gc (by decide) sampleSha_ne
    (fun _ he => absurd he (KeyedTable.not_mem_empty _)) hrun he href⟩

def orphanReused : List CasAction :=
  emitUntilInsert 0 ++ [.system 1 (.crash 0),.startGc (2 * weekMs) weeklyGc] ++
    gcSteps (2 * weekMs) 6 ++ emitUntilInsert (2 * weekMs) ++ gcSteps (2 * weekMs) 3 ++
    [insertStep (2 * weekMs)]

theorem reused_orphan_is_unlinked :
    ∃ t e, Run (CasState.step sampleCasHost) (Timely weekMs) (.start .empty .empty .empty 0) orphanReused t ∧
      e ∈ t.system.world.bus.events ∧ e.payloadCasSha = some sampleSha ∧
      ContentStore.read t.files sampleSha = none := by
  have hexec : (exec (guarded (Timely weekMs) (CasState.step sampleCasHost)) (.start .empty .empty .empty 0)
      orphanReused).any (fun t => t.system.world.bus.events.rows.any (fun e =>
        decide (e.payloadCasSha = some sampleSha ∧ ContentStore.read t.files sampleSha = none))) = true := by
    decide +kernel
  obtain ⟨t,ht,hobs⟩ := (Option.any_eq_true _ _).mp hexec
  obtain ⟨e,he,hobs⟩ := List.any_eq_true.mp hobs
  obtain ⟨href,hmissing⟩ := of_decide_eq_true hobs
  exact ⟨t,e,run_of_guarded ht,he,href,hmissing⟩

end WickedBus
