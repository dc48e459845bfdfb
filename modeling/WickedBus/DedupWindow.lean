import WickedBus.EmitAtomic
import WickedBus.Gap

namespace WickedBus

open GuardedRun

structure Removal where
  row : EventRow
  now : ℤ
  deriving DecidableEq

structure DedupState where
  system : EmitSystem
  removed : List Removal

def removalTime (w : World) : EmitAction → ℤ
  | .world (.bus (.sweep config clock)) => config.now.getD clock
  | .world (.sweep p _) => (w.sweepers p).elim 0 (fun s => s.cfg.now)
  | _ => 0

def removals (db db' : Db) (now : ℤ) : List Removal :=
  (goneRows db db').map (fun e => ⟨e,now⟩)

def DedupState.step (host : EmitHost) (t : DedupState) (a : EmitAction) : Option DedupState :=
  (t.system.step host a).map (fun s => {
    system := s
    removed := t.removed ++ removals t.system.world.bus s.world.bus (removalTime t.system.world a) })

def DedupState.start (archive : Archive) : DedupState := ⟨.start .empty archive,[]⟩

def EmitHost.dedupMs (host : EmitHost) : ℚ := host.config.dedupTtlHours * 3600000

def OnTime (t : DedupState) (params : NewEvent) : Prop :=
  ∀ r ∈ t.removed, r.row.idempotencyKey = params.idempotencyKey → params.emittedAt < r.now →
    r.row.dedupExpiresAt < params.emittedAt

def DedupOk (host : EmitHost) (t : DedupState) : EmitAction → Prop
  | .world (.bus (.emit params _)) =>
    params.dedupExpiresAt = params.emittedAt + host.dedupMs ∧ OnTime t params
  | .world b => ∀ e ∈ removedBy t.system.world b,
      e.dedupExpiresAt < removalTime t.system.world (.world b)
  | .emit p _ => ∀ r ∈ t.system.emitters p, ∀ q ∈ r.phase.prepared, OnTime t q.2
  | _ => True

theorem emitParams_dedup (host : EmitHost) (event : EmitEvent) (env : EmitEnv) :
    (emitParams host.config event env).dedupExpiresAt =
      (emitParams host.config event env).emittedAt + host.dedupMs := rfl

section Removals

variable {db db' : Db} {now : ℤ} {r : Removal} {e : EventRow}

theorem mem_removals : r ∈ removals db db' now ↔
    r.row ∈ db.events ∧ r.now = now ∧ ∀ x ∈ db'.events, x.eventId ≠ r.row.eventId := by
  obtain ⟨row,time⟩ := r
  simp only [removals,List.mem_map,mem_goneRows,Removal.mk.injEq]
  constructor
  · rintro ⟨e,⟨he,hgone⟩,rfl,rfl⟩
    exact ⟨he,rfl,hgone⟩
  · rintro ⟨he,rfl,hgone⟩
    exact ⟨row,⟨he,hgone⟩,rfl,rfl⟩

theorem kept_or_removed (hrows : ∀ x ∈ db'.events, x ∈ db.events) (he : e ∈ db.events) :
    e ∈ db'.events ∨ ⟨e,now⟩ ∈ removals db db' now := by
  by_cases h : ∃ x ∈ db'.events, x.eventId = e.eventId
  · obtain ⟨x,hx,hid⟩ := h
    obtain rfl := KeyedTable.eq_of_key (hrows x hx) he hid
    exact .inl hx
  · exact .inr (mem_removals.mpr ⟨he,rfl,fun x hx hid => h ⟨x,hx,hid⟩⟩)

theorem removals_emit {params : NewEvent} {uuid : String}
    (h : emitParamsInto db params uuid = .ok db') : removals db db' now = [] := by
  rw [List.eq_nil_iff_forall_not_mem]
  intro r hr
  obtain ⟨hrow,-,hgone⟩ := mem_removals.mp hr
  have hlive : r.row.fixedPart ∈ db'.live := by
    rw [emit_live h]
    exact Set.mem_insert_of_mem _ (mem_live hrow)
  obtain ⟨x,hx,hfix⟩ := hlive
  exact hgone x hx (eventId_of_fixedPart hfix)

end Removals

def Claimed (x : EventRow) (t : DedupState) : Prop :=
  (∃ h ∈ t.system.world.bus.events, h.idempotencyKey = x.idempotencyKey ∧
    x.dedupExpiresAt ≤ h.dedupExpiresAt) ∨
  ∃ r ∈ t.removed, r.row.idempotencyKey = x.idempotencyKey ∧ x.dedupExpiresAt ≤ r.row.dedupExpiresAt

structure Guarded (host : EmitHost) (t : DedupState) : Prop where
  emit : EmitInvariant host t.system
  width : ∀ x ∈ t.system.world.log, x.dedupExpiresAt = x.emittedAt + host.dedupMs
  closed : ∀ r ∈ t.removed, r.row.dedupExpiresAt < r.now
  claimed : ∀ x ∈ t.system.world.log, Claimed x t
  ordered : t.system.world.log.Pairwise
    (fun x y => x.idempotencyKey = y.idempotencyKey → x.dedupExpiresAt < y.emittedAt)

section Guarded

variable {host : EmitHost} {t t' : DedupState}

theorem Guarded.start (archive : Archive) : Guarded host (.start archive) where
  emit := .start .empty archive
  width _ hx := absurd hx List.not_mem_nil
  closed _ hr := absurd hr List.not_mem_nil
  claimed _ hx := absurd hx List.not_mem_nil
  ordered := .nil

theorem Guarded.shrink (h : Guarded host t) {s : EmitSystem} {now : ℤ} (hs : EmitInvariant host s)
    (hshrinks : Shrinks t.system.world s.world)
    (hclosed : ∀ r ∈ removals t.system.world.bus s.world.bus now, r.row.dedupExpiresAt < r.now) :
    Guarded host ⟨s,t.removed ++ removals t.system.world.bus s.world.bus now⟩ := by
  refine ⟨hs,?_,fun r hr => ?_,fun x hx => ?_,?_⟩
  · exact hshrinks.log.symm ▸ h.width
  · rcases List.mem_append.mp hr with hr | hr
    · exact h.closed r hr
    · exact hclosed r hr
  · rcases h.claimed x (hshrinks.log ▸ hx) with ⟨holder,hholder,hkey,hle⟩ | ⟨r,hr,hkey,hle⟩
    · rcases @kept_or_removed t.system.world.bus s.world.bus now holder hshrinks.rows hholder with hkept | hgone
      · exact .inl ⟨holder,hkept,hkey,hle⟩
      · exact .inr ⟨⟨holder,now⟩,List.mem_append_right _ hgone,hkey,hle⟩
    · exact .inr ⟨r,List.mem_append_left _ hr,hkey,hle⟩
  · exact hshrinks.log.symm ▸ h.ordered

theorem Guarded.reused (h : Guarded host t) {params : NewEvent} {uuid : String} {db : Db}
    (hemit : emitParamsInto t.system.world.bus params uuid = .ok db) (htime : OnTime t params)
    {x : EventRow} (hx : x ∈ t.system.world.log) (hkey : x.idempotencyKey = params.idempotencyKey) :
    x.dedupExpiresAt < params.emittedAt := by
  rcases h.claimed x hx with ⟨holder,hholder,hheld,hle⟩ | ⟨r,hr,hheld,hle⟩
  · rcases emitParamsInto_cases hemit with ⟨hnone,-⟩ | ⟨other,hother,hopen,hsole,-⟩
    · exact absurd (hheld.trans hkey) (keyHolder_none hnone holder hholder)
    · have hid := hsole holder hholder (hheld.trans hkey)
      rw [KeyedTable.eq_of_key hholder (keyHolder_some hother).1 hid] at hle
      exact lt_of_le_of_lt hle hopen
  · refine lt_of_le_of_lt hle ?_
    rcases lt_or_ge params.emittedAt r.now with hearly | hlate
    · exact htime r hr (hheld.trans hkey) hearly
    · exact (h.closed r hr).trans_le (by exact_mod_cast hlate)

theorem Guarded.emitted (h : Guarded host t) (hwidth : 0 ≤ host.dedupMs) {s : EmitSystem} {now : ℤ}
    (hs : EmitInvariant host s) {params : NewEvent} {uuid : String}
    (hemit : emitParamsInto t.system.world.bus params uuid = .ok s.world.bus)
    (hlog : s.world.log = t.system.world.log ++ [params.row (t.system.world.bus.eventSeq + 1)])
    (hdedup : params.dedupExpiresAt = params.emittedAt + host.dedupMs) (htime : OnTime t params) :
    Guarded host ⟨s,t.removed ++ removals t.system.world.bus s.world.bus now⟩ := by
  obtain ⟨rename,hrewrites⟩ := emit_rewrites hemit
  have hreused := fun x hx => @Guarded.reused host t h params uuid _ hemit htime x hx
  have hnew : params.row (t.system.world.bus.eventSeq + 1) ∈ s.world.bus.events :=
    (hrewrites.rows _).mpr (.inl rfl)
  have hge : (params.emittedAt : ℚ) ≤ params.dedupExpiresAt := by
    rw [hdedup]
    linarith
  rw [removals_emit hemit,List.append_nil]
  refine ⟨hs,fun x hx => ?_,h.closed,fun x hx => ?_,?_⟩
  · rw [hlog] at hx
    rcases List.mem_append.mp hx with hx | hx
    · exact h.width x hx
    · rw [List.mem_singleton.mp hx]
      exact hdedup
  · rw [hlog] at hx
    rcases List.mem_append.mp hx with hx | hx
    · by_cases hkey : x.idempotencyKey = params.idempotencyKey
      · exact .inl ⟨_,hnew,hkey.symm,((hreused x hx hkey).trans_le hge).le⟩
      · refine (h.claimed x hx).imp_left fun ⟨holder,hholder,hheld,hle⟩ => ?_
        rcases hrewrites.renamed holder hholder with hkept | ⟨hrenamed,-⟩
        · exact ⟨holder,(hrewrites.rows _).mpr (.inr ⟨holder,hholder,hkept⟩),hheld,hle⟩
        · exact absurd (hheld.symm.trans hrenamed) hkey
    · rw [List.mem_singleton.mp hx]
      exact .inl ⟨_,hnew,rfl,le_rfl⟩
  · show s.world.log.Pairwise _
    rw [hlog]
    refine List.pairwise_append.mpr ⟨h.ordered,List.pairwise_singleton _ _,fun x hx y hy hkey => ?_⟩
    rw [List.mem_singleton.mp hy] at hkey ⊢
    exact hreused x hx hkey

theorem Guarded.step (h : Guarded host t) (hwidth : 0 ≤ host.dedupMs) {a : EmitAction}
    (hok : DedupOk host t a) (hstep : t.step host a = some t') : Guarded host t' := by
  obtain ⟨s,hs,rfl⟩ := Option.map_eq_some_iff.mp hstep
  have hinv := h.emit.step hs
  rcases EmitSystem.step_shrinks hs with ⟨params,uuid,hemit,hlog,hsource⟩ | ⟨hshrinks,hsource⟩
  · rcases hsource with rfl | ⟨p,env,r,bindable,rfl,hr,hprepared⟩
    · exact h.emitted hwidth hinv hemit hlog hok.1 hok.2
    · have hdesc : Describes host r.call params := by
        have hphase := h.emit.phase p r hr
        cases hph : r.phase with
        | insert b ps | releaseKey b ps =>
          rw [hph] at hphase hprepared
          cases hprepared
          exact hphase
        | _ =>
          rw [hph] at hprepared
          cases hprepared
      obtain ⟨v,emittedAt,registry,-,hparams⟩ := hdesc
      refine h.emitted hwidth hinv hemit hlog ?_ (hok r hr (bindable,params) hprepared)
      rw [hparams]
      exact emitParams_dedup host v.event _
  · refine h.shrink hinv hshrinks fun r hr => ?_
    obtain ⟨hrow,hnow,hgone⟩ := mem_removals.mp hr
    rcases hsource with ⟨b,rfl,hb,hne⟩ | hsame
    · have hremoved : r.row ∈ removedBy t.system.world b := by
        by_contra hkept
        obtain ⟨x,hx,hfix⟩ := (World.step_removed hb hrow).mpr hkept
        exact hgone x hx (eventId_of_fixedPart hfix)
      rw [hnow]
      cases b with
      | bus op =>
        cases op with
        | emit params uuid => exact absurd rfl (hne params uuid)
        | _ => exact hok r.row hremoved
      | _ => exact hok r.row hremoved
    · exact absurd rfl (hgone r.row (hsame.symm ▸ hrow))

end Guarded

def Refuses (w : World) (r : Emitter) (bindable : Bool) (refused : Prop) : Prop :=
  r.faulted = false → bindable = true → w.bus.eventSeq < maxSafeInteger → refused

def Settles (r : Emitter) (w : World) : Prop :=
  match r.phase with
  | .validate | .getSchema _ | .casPut _ _ => r.prepared = none
  | .insert bindable params | .releaseKey bindable params => r.prepared = some (bindable,params)
  | .lookup params => ∃ bindable, r.prepared = some (bindable,params)
  | .reopen _ => ∃ q, r.prepared = some q ∧ Refuses w r q.1 False
  | .done (.returned eventId _) => ∃ q, r.prepared = some q ∧ q.2.row eventId ∈ w.log
  | .done (.threw error) => ∀ q, r.prepared = some q → Refuses w r q.1 (∃ holder,
      error = .duplicateEvent ("Duplicate idempotency_key: " ++ q.2.idempotencyKey) holder
        q.2.idempotencyKey)

def EmitPhase.early : EmitPhase → Bool
  | .validate | .getSchema _ | .casPut _ _ => true
  | _ => false

section Errors

variable {db : Db} {params : NewEvent} {bindable : Bool} {e : SqlError}

def Excused (db : Db) (faulty bindable : Bool) : SqlError → Prop
  | .unique => True
  | _ => faulty = true ∨ bindable = false ∨ maxSafeInteger ≤ db.eventSeq

theorem excused_of_faulty {faulty : Bool} (h : faulty = true) : Excused db faulty bindable e := by
  cases e with
  | unique => trivial
  | full code => exact .inl h
  | other message => exact .inl h

theorem runInsert_error {fault : Option SqlError} {faulty : Bool} (hfaulty : fault.isSome = true → faulty = true)
    (h : runInsert fault bindable db params = .error e) : Excused db faulty bindable e := by
  cases fault with
  | some _ => exact excused_of_faulty (hfaulty rfl)
  | none =>
    cases bindable with
    | false =>
      cases h
      exact .inr (.inl rfl)
    | true =>
      simp only [runInsert,if_true] at h
      split at h
      · cases h
      · rename_i hfull
        cases h
        refine .inr (.inr ?_)
        by_contra hroom
        simp only [insertEvent,hroom,if_false] at hfull
        split at hfull <;> cases hfull
      · cases h
        trivial

theorem failing_error {fault : Option SqlError} (h : failing fault = .error e) : fault.isSome = true := by
  cases fault with
  | none => cases h
  | some _ => rfl

theorem releaseAndInsert_error {faults : TransactionFaults} {uuid : String} {faulty : Bool}
    (hfaulty : faults.any = true → faulty = true)
    (h : releaseAndInsert faults bindable params uuid db = .error e) : Excused db faulty bindable e := by
  have hany : ∀ fault ∈ [faults.select,faults.update,faults.insert,faults.commit],
      fault.isSome = true → faulty = true := by
    intro fault hmem hsome
    refine hfaulty ?_
    simp only [List.mem_cons,List.not_mem_nil,or_false] at hmem
    rcases hmem with rfl | rfl | rfl | rfl <;> simp [TransactionFaults.any,hsome]
  simp only [releaseAndInsert,bind,Except.bind,throw,throwThe,MonadExceptOf.throw,pure,Except.pure] at h
  split at h
  · rename_i hselect
    exact excused_of_faulty (hany faults.select (by simp) (failing_error hselect))
  · split at h
    · cases h
      trivial
    · rename_i holder _
      split_ifs at h
      · cases h
        trivial
      · split at h
        · rename_i hupdate
          exact excused_of_faulty (hany faults.update (by simp) (failing_error hupdate))
        · cases h
          trivial
      · split at h
        · rename_i hupdate
          exact excused_of_faulty (hany faults.update (by simp) (failing_error hupdate))
        · split at h
          · rename_i hinsert
            cases h
            exact @runInsert_error (renameKey db _ _) params bindable _ _ faulty
              (hany faults.insert (by simp)) hinsert
          · split at h
            · rename_i hcommit
              exact excused_of_faulty (hany faults.commit (by simp) (failing_error hcommit))
            · cases h

end Errors

section Settles

variable {host : EmitHost} {w w' : World} {r : Emitter} {env : EmitStepEnv}

theorem Refuses.mono {bindable : Bool} {refused : Prop} (h : Refuses w r bindable refused)
    (hseq : w.bus.eventSeq ≤ w'.bus.eventSeq) : Refuses w' r bindable refused :=
  fun hfaulted hbind hroom => h hfaulted hbind (hseq.trans_lt hroom)

theorem Settles.mono (h : Settles r w) (hseq : w.bus.eventSeq ≤ w'.bus.eventSeq)
    (hlog : ∀ x ∈ w.log, x ∈ w'.log) : Settles r w' := by
  unfold Settles at h ⊢
  split at h
  · exact h
  · exact h
  · exact h
  · exact h
  · exact h
  · exact h
  · obtain ⟨q,hq,hrefuses⟩ := h
    exact ⟨q,hq,hrefuses.mono hseq⟩
  · obtain ⟨q,hq,hmem⟩ := h
    exact ⟨q,hq,hlog _ hmem⟩
  · exact fun q hq => (h q hq).mono hseq

theorem settles_sqlError {before : World} {bindable : Bool} {params : NewEvent} {e : SqlError}
    (hprepared : r.prepared = some (bindable,params)) (he : Excused w.bus env.faulty bindable e) :
    Settles (r.advance env (afterSqlError params e) before w) w := by
  have hnever : (env.faulty = true ∨ bindable = false ∨ maxSafeInteger ≤ w.bus.eventSeq) →
      ∀ next refused, Refuses w (r.advance env next before w) bindable refused := by
    intro hcause next refused hfaulted hbind hroom
    have hclean : env.faulty = false := (Bool.or_eq_false_iff.mp hfaulted).2
    rcases hcause with hfaulty | hunbound | hfull
    · exact absurd (hfaulty.symm.trans hclean) (by decide)
    · exact absurd (hunbound.symm.trans hbind) (by decide)
    · exact absurd hroom (not_lt.mpr hfull)
  cases e with
  | unique => exact ⟨bindable,hprepared⟩
  | full code => exact ⟨_,hprepared,hnever he _ _⟩
  | other message =>
    intro q hq
    cases hprepared.symm.trans hq
    exact hnever he _ _

theorem settles_beforeInsert {before : World} (hearly : r.phase.early = true) (hnone : r.prepared = none) :
    Settles (r.advance env (beforeInsert host r.call env r.phase) before w) w := by
  have hfail : ∀ e, Settles (r.advance env (fail e) before w) w := by
    intro e q hq
    exact absurd (hnone.symm.trans hq) (by simp)
  cases hph : r.phase with
  | validate | getSchema p | casPut p schema =>
    simp only [beforeInsert]
    repeat' split
    all_goals first | exact hfail _ | exact hnone | rfl
  | _ =>
    rw [hph] at hearly
    cases hearly

theorem settles_commit {before : World} {bindable : Bool} {params : NewEvent}
    (hprepared : r.prepared = some (bindable,params)) {eventId : ℤ} (hrow : params.row eventId ∈ w.log) :
    Settles (r.advance env (.done (.returned eventId params.idempotencyKey)) before w) w :=
  ⟨_,hprepared,hrow⟩

theorem Settles.advance (h : Settles r w) (hrun : r.phase.running = true) {world : World}
    (hworld : world = { w with
      bus := (emitAdvance host r.call env w.bus r.phase).bus
      log := w.log ++ (emitAdvance host r.call env w.bus r.phase).accepted }) :
    Settles (r.advance env (emitAdvance host r.call env w.bus r.phase).next w world) world := by
  rcases @emitAdvance_cases host r.call env w.bus r.phase hrun with ⟨hbus,hacc,hnext⟩ | hcommit
  · have hsame : world = w := by
      rw [hworld,hbus,hacc,List.append_nil]
    rw [hsame]
    cases hph : r.phase with
    | validate | getSchema p | casPut p schema =>
      have hnone : r.prepared = none := by simpa only [Settles,hph] using h
      have hbefore := @settles_beforeInsert host w r env w (by rw [hph]; rfl) hnone
      rw [hph] at hbefore
      exact hbefore
    | insert bindable params =>
      have hprepared : r.prepared = some (bindable,params) := by simpa only [Settles,hph] using h
      rw [hph] at hnext
      simp only [emitAdvance] at hnext ⊢
      split
      · rename_i hins
        rw [hins] at hnext
        cases hnext
      · rfl
      · rename_i e _ hins
        exact settles_sqlError hprepared (runInsert_error (fun hf => by simp [EmitStepEnv.faulty,hf]) hins)
    | releaseKey bindable params =>
      have hprepared : r.prepared = some (bindable,params) := by simpa only [Settles,hph] using h
      rw [hph] at hnext
      simp only [emitAdvance,transaction] at hnext ⊢
      cases hbody : releaseAndInsert env.transaction bindable params r.call.releaseUuid w.bus with
      | ok db =>
        rw [hbody] at hnext
        cases hnext
      | error e =>
        exact settles_sqlError hprepared
          (releaseAndInsert_error (fun hf => by simp [EmitStepEnv.faulty,hf]) hbody)
    | lookup params =>
      obtain ⟨bindable,hprepared⟩ : ∃ bindable, r.prepared = some (bindable,params) := by
        simpa only [Settles,hph] using h
      simp only [emitAdvance]
      split
      · rename_i e hfault
        intro q _ hfaulted
        have hclean : env.faulty = false := (Bool.or_eq_false_iff.mp hfaulted).2
        simp [EmitStepEnv.faulty,hfault] at hclean
      · intro q hq _ _ _
        cases hprepared.symm.trans hq
        exact ⟨_,rfl⟩
    | reopen code =>
      obtain ⟨q,hprepared,hrefuses⟩ : ∃ q, r.prepared = some q ∧ Refuses w r q.1 False := by
        simpa only [Settles,hph] using h
      intro q' hq hfaulted hbind hroom
      cases hprepared.symm.trans hq
      exact (hrefuses (Bool.or_eq_false_iff.mp hfaulted).1 hbind hroom).elim
    | done outcome =>
      rw [hph] at hrun
      cases hrun
  · obtain ⟨bindable,params,hphase,hemit,hnext,hacc⟩ := hcommit.source
    have hprepared : r.prepared = some (bindable,params) := by
      rcases hphase with hphase | hphase <;> simpa only [Settles,hphase] using h
    rw [hnext]
    refine settles_commit hprepared ?_
    rw [hworld,emit_eventSeq hemit,hacc]
    exact List.mem_append_right _ (List.mem_singleton_self _)

end Settles

structure DedupInvariant (host : EmitHost) (t : DedupState) : Prop where
  guarded : Guarded host t
  settles : ∀ p r, t.system.emitters p = some r → Settles r t.system.world

section Window

variable {host : EmitHost}

theorem EmitSystem.step_settles {t t' : EmitSystem} {a : EmitAction} (hstep : t.step host a = some t')
    (h : ∀ p r, t.emitters p = some r → Settles r t.world) :
    ∀ p r, t'.emitters p = some r → Settles r t'.world := by
  obtain ⟨hseq,hlog⟩ := EmitSystem.step_grows hstep
  intro q s hs
  cases a with
  | world b =>
    obtain ⟨w,hw,rfl⟩ := Option.map_eq_some_iff.mp hstep
    exact (h q s hs).mono hseq hlog
  | call p call =>
    obtain rfl := EmitSystem.step_call hstep
    rcases emitters_update hs with hnew | hold
    · cases hnew
      rfl
    · exact h q s hold
  | crash p =>
    cases hstep
    rcases emitters_update hs with hnew | hold
    · cases hnew
    · exact h q s hold
  | emit p env =>
    obtain ⟨r,_,_,hr,hrun,rfl,rfl,rfl⟩ := EmitSystem.step_emit hstep
    rcases emitters_update hs with hnew | hold
    · cases hnew
      exact (h p r hr).advance hrun rfl
    · exact (h q s hold).mono hseq hlog

theorem DedupInvariant.start (archive : Archive) : DedupInvariant host (.start archive) where
  guarded := .start archive
  settles p r h := by cases h

theorem DedupInvariant.step {t t' : DedupState} (h : DedupInvariant host t) (hwidth : 0 ≤ host.dedupMs)
    {a : EmitAction} (hok : DedupOk host t a) (hstep : t.step host a = some t') :
    DedupInvariant host t' := by
  refine ⟨h.guarded.step hwidth hok hstep,?_⟩
  obtain ⟨s,hs,rfl⟩ := Option.map_eq_some_iff.mp hstep
  exact EmitSystem.step_settles hs h.settles

theorem pairwise_or {α : Type} {R : α → α → Prop} {l : List α} (h : l.Pairwise R) {a b : α} (ha : a ∈ l)
    (hb : b ∈ l) (hne : a ≠ b) : R a b ∨ R b a := by
  have hsymm : Std.Symm (fun x y => R x y ∨ R y x) := ⟨fun _ _ => Or.symm⟩
  have hboth : l.Pairwise (fun x y => R x y ∨ R y x) := h.imp Or.inl
  exact hboth.forall ha hb hne

theorem Guarded.apart {t : DedupState} (h : Guarded host t) (hwidth : 0 ≤ host.dedupMs) {x y : EventRow}
    (hx : x ∈ t.system.world.log) (hy : y ∈ t.system.world.log)
    (hkey : y.idempotencyKey = x.idempotencyKey) (hafter : x.emittedAt < y.emittedAt) :
    x.emittedAt + host.dedupMs < y.emittedAt := by
  have hne : x ≠ y := fun heq => absurd hafter (heq ▸ lt_irrefl _)
  rcases pairwise_or h.ordered hx hy hne with hbefore | hbehind
  · rw [← h.width x hx]
    exact hbefore hkey.symm
  · have hwindow := hbehind hkey
    rw [h.width y hy] at hwindow
    have hcast : (x.emittedAt : ℚ) < y.emittedAt := by exact_mod_cast hafter
    linarith

end Window

theorem dedup_window {host : EmitHost} {archive : Archive} {as : List EmitAction} {t : DedupState}
    (hrun : Run (DedupState.step host) (DedupOk host) (.start archive) as t) {x : EventRow}
    (hx : x ∈ t.system.world.log) {p : ℕ} {r : Emitter} (hr : t.system.emitters p = some r)
    {bindable : Bool} {params : NewEvent} (hprepared : r.prepared = some (bindable,params))
    (hkey : params.idempotencyKey = x.idempotencyKey) (hafter : x.emittedAt < params.emittedAt)
    (hwithin : params.emittedAt ≤ x.emittedAt + host.dedupMs) {outcome : EmitOutcome}
    (hdone : r.phase = .done outcome) :
    ∃ error, outcome = .threw error ∧ (r.faulted = false → bindable = true →
      t.system.world.bus.eventSeq < maxSafeInteger → ∃ holder,
        error = .duplicateEvent ("Duplicate idempotency_key: " ++ params.idempotencyKey) holder
          params.idempotencyKey) := by
  have hwidth : 0 ≤ host.dedupMs := by
    have hcast : (x.emittedAt : ℚ) < params.emittedAt := by exact_mod_cast hafter
    linarith
  have h : DedupInvariant host t :=
    hrun.invariant (fun _ _ _ (ht : DedupInvariant host _) hok hs => ht.step hwidth hok hs)
      (.start archive)
  have hsettles := h.settles p r hr
  simp only [Settles,hdone] at hsettles
  cases outcome with
  | returned eventId key =>
    obtain ⟨q,hq,hrow⟩ := hsettles
    cases hprepared.symm.trans hq
    exact absurd hwithin (not_le.mpr (h.guarded.apart hwidth hx hrow hkey hafter))
  | threw error => exact ⟨error,rfl,hsettles _ hprepared⟩

def callWith (input : EventInput) : EmitCall := { sampleCall with event := some input }

def emitAt (p : ℕ) (now : ℤ) (steps : ℕ) : List EmitAction :=
  List.replicate steps (.emit p ⟨now,none,none,noFaults⟩)

def emitTwice (input : EventInput) : List EmitAction :=
  .call 0 (callWith input) :: emitAt 0 1000 3 ++ .call 1 (callWith input) :: emitAt 1 4000 5

def NothingRemoved (t : DedupState) (a : EmitAction) : Prop :=
  t.removed = [] ∧ ∀ b, a ≠ .world b

instance : ∀ t a, Decidable (NothingRemoved t a)
  | t, .world b => .isFalse (fun h => h.2 b rfl)
  | t, .call _ _ | t, .emit _ _ | t, .crash _ =>
    decidable_of_iff (t.removed = []) ⟨fun h => ⟨h,fun _ => by simp⟩,And.left⟩

theorem dedupOk_of_nothing {host : EmitHost} {t : DedupState} {a : EmitAction} (h : NothingRemoved t a) :
    DedupOk host t a := by
  cases a with
  | world b => exact absurd rfl (h.2 b)
  | emit p env =>
    intro r _ q _ removal hmem
    rw [h.1] at hmem
    cases hmem
  | call p call => trivial
  | crash p => trivial

theorem dedup_window_sample :
    ∃ t r x, Run (DedupState.step sampleHost) (DedupOk sampleHost) (.start .empty) (emitTwice sampleInput) t ∧
      x ∈ t.system.world.log ∧ x.idempotencyKey = "k" ∧ t.system.emitters 1 = some r ∧
      ∃ error holder, r.phase = .done (.threw error) ∧
        error = .duplicateEvent ("Duplicate idempotency_key: " ++ "k") holder "k" := by
  have hexec : (exec (guarded NothingRemoved (DedupState.step sampleHost)) (.start .empty)
      (emitTwice sampleInput)).any (fun t => decide (t.system.world.bus.eventSeq < maxSafeInteger) &&
        t.system.world.log.any (fun x => decide (x.idempotencyKey = "k") && decide (x.emittedAt = 1000)) &&
        (t.system.emitters 1).any (fun r => r.phase.outcome.isSome && decide (r.faulted = false) &&
          r.prepared.any (fun q => q.1 && decide (q.2.idempotencyKey = "k") &&
            decide (q.2.emittedAt = 4000)))) = true := by decide +kernel
  obtain ⟨t,ht,hobs⟩ := (Option.any_eq_true _ _).mp hexec
  simp only [Bool.and_eq_true,decide_eq_true_eq,List.any_eq_true] at hobs
  obtain ⟨⟨hroom,x,hx,hxkey,hxtime⟩,hemitter⟩ := hobs
  obtain ⟨r,hr,hobs⟩ := (Option.any_eq_true _ _).mp hemitter
  simp only [Bool.and_eq_true,decide_eq_true_eq] at hobs
  obtain ⟨⟨hsome,hfaulted⟩,hprep⟩ := hobs
  obtain ⟨outcome,houtcome⟩ := Option.isSome_iff_exists.mp hsome
  obtain ⟨⟨bindable,params⟩,hprepared,hobs⟩ := (Option.any_eq_true _ _).mp hprep
  simp only [Bool.and_eq_true,decide_eq_true_eq] at hobs
  obtain ⟨⟨hbind,hkey⟩,htime⟩ := hobs
  have hrun : Run (DedupState.step sampleHost) (DedupOk sampleHost) (.start .empty) (emitTwice sampleInput) t :=
    (run_of_guarded ht).mono (fun _ _ => dedupOk_of_nothing)
  have hwithin : (params.emittedAt : ℚ) ≤ x.emittedAt + sampleHost.dedupMs := by
    rw [htime,hxtime]
    decide +kernel
  obtain ⟨error,rfl,hrefused⟩ := dedup_window hrun hx hr hprepared (hkey.trans hxkey.symm)
    (by rw [htime,hxtime]; decide) hwithin (outcome_some houtcome)
  obtain ⟨holder,herror⟩ := hrefused hfaulted hbind hroom
  rw [hkey] at herror
  exact ⟨t,r,x,hrun,hx,hxkey,hr,error,holder,outcome_some houtcome,herror⟩

def shortLived : EventInput := { sampleInput with ttlHours := some (1 / 3600) }

def retainSweep : SweepConfig := ⟨some "retain",none,false,some 3000,none,none⟩

def emitSweepEmit : List EmitAction :=
  .call 0 (callWith shortLived) :: emitAt 0 1000 3 ++ .world (.bus (.sweep retainSweep 0)) ::
    .call 1 (callWith shortLived) :: emitAt 1 4000 3

theorem dedup_window_reopened :
    ∃ t r x params, Run (DedupState.step sampleHost) (fun _ _ => True) (.start .empty) emitSweepEmit t ∧
      sampleHost.config.dedupTtlHours ≤ sampleHost.config.ttlHours ∧
      x ∈ t.system.world.log ∧ t.system.emitters 1 = some r ∧ r.prepared = some (true,params) ∧
      params.idempotencyKey = x.idempotencyKey ∧ x.emittedAt < params.emittedAt ∧
      params.emittedAt ≤ x.emittedAt + sampleHost.dedupMs ∧
      r.phase = .done (.returned 2 "k") := by
  have hexec : (exec (DedupState.step sampleHost) (.start .empty) emitSweepEmit).any (fun t =>
      (t.system.emitters 1).any (fun r => r.prepared.any (fun q => q.1 &&
        t.system.world.log.any (fun x => decide (q.2.idempotencyKey = x.idempotencyKey) &&
          decide (x.emittedAt < q.2.emittedAt) && decide (q.2.emittedAt ≤ x.emittedAt + sampleHost.dedupMs)) &&
        decide (r.phase.outcome = some (.returned 2 "k"))))) = true := by decide +kernel
  obtain ⟨t,ht,hobs⟩ := (Option.any_eq_true _ _).mp hexec
  obtain ⟨r,hr,hobs⟩ := (Option.any_eq_true _ _).mp hobs
  obtain ⟨⟨bindable,params⟩,hprepared,hobs⟩ := (Option.any_eq_true _ _).mp hobs
  simp only [Bool.and_eq_true,decide_eq_true_eq,List.any_eq_true] at hobs
  obtain ⟨⟨rfl,x,hx,⟨hkey,hafter⟩,hwithin⟩,houtcome⟩ := hobs
  exact ⟨t,r,x,params,run_of_exec ht,by decide,hx,hr,hprepared,hkey,hafter,hwithin,outcome_some houtcome⟩

end WickedBus
