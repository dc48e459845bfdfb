import WickedBus.AtLeastOnce

namespace WickedBus

open GuardedRun

def Sweeper.deletes (s : Sweeper) (db : Db) : List ℤ :=
  match s.phase with
  | .discardOwed ids => ids
  | .deleteLive moved => deletableIds db moved (retainOwed s.cfg)
  | _ => []

def goneRows (db db' : Db) : List EventRow :=
  db.events.rows.filter (fun e => !db'.events.rows.any (fun r => r.eventId = e.eventId))

theorem mem_goneRows {db db' : Db} {e : EventRow} :
    e ∈ goneRows db db' ↔ e ∈ db.events ∧ ∀ x ∈ db'.events, x.eventId ≠ e.eventId := by
  simp only [goneRows,List.mem_filter,KeyedTable.mem_rows,Bool.not_eq_true',List.any_eq_false,
    decide_eq_true_eq]

def removedBy (w : World) : Action → Set EventRow
  | .bus (.sweep config clock) => {e | ∃ policy capDays, resolveUnackedPolicy config = .ok policy ∧
      resolveRetentionCapDays config = .ok capDays ∧
      e ∈ sweptEvents w.bus (config.now.getD clock) policy capDays}
  | .sweep p _ => {e | e ∈ w.bus.events ∧ ∃ s ∈ w.sweepers p, e.eventId ∈ s.deletes w.bus}
  | _ => ∅

def GapOk (w : World) (a : Action) : Prop :=
  ∀ e ∈ removedBy w a, (∃ cursorId, Owes w.bus cursorId e) →
    ∀ x ∈ w.bus.events, x.eventId < e.eventId → x ∈ removedBy w a

def GoneBelow (n : ℤ) (w : World) : Prop :=
  n ≤ w.bus.eventSeq ∧ ∀ x ∈ w.bus.live, n < x.eventId

section Removal

variable {w w' : World} {a : Action} {e : EventRow} {n : ℤ}

theorem Sweeper.live_step (s : Sweeper) (env : StepEnv) (db : Db) (archive : Archive) :
    (sweeperStep env s.cfg db archive s.phase).bus.live = {x ∈ db.live | x.eventId ∉ s.deletes db} := by
  obtain ⟨cfg,ph⟩ := s
  cases ph with
  | discardOwed ids => exact live_deleteFromLive db ids none
  | deleteLive moved => exact live_deleteFromLive db moved (retainOwed cfg)
  | _ =>
    rcases sweeperStep_bus env cfg db archive _ with h | ⟨ids,hph,-⟩ | ⟨moved,hph,-⟩
    · rw [h]
      simp [Sweeper.deletes]
    · cases hph
    · cases hph

theorem BusOp.removed {op : BusOp} {db : Db} (hop : op.apply w.bus = some db) (he : e ∈ w.bus.events) :
    e.fixedPart ∈ db.live ↔ e ∉ removedBy w (.bus op) := by
  rcases busOp_cases hop with ⟨params,uuid,rfl,hemit⟩ | ⟨config,clock,result,rfl,hr⟩ | hsame
  · refine iff_of_true ?_ (Set.notMem_empty e)
    rw [emit_live hemit]
    exact Set.mem_insert_of_mem _ (mem_live he)
  · obtain ⟨policy,capDays,hpolicy,hcap,rfl⟩ := runSweep_ok hr
    constructor
    · rintro ⟨r,hr,hfix⟩ ⟨policy',capDays',hpolicy',hcap',hswept⟩
      obtain ⟨hlive,hkept⟩ := mem_sweepTransaction.mp hr
      obtain rfl := KeyedTable.eq_of_key hlive he (eventId_of_fixedPart hfix)
      cases hpolicy.symm.trans hpolicy'
      cases hcap.symm.trans hcap'
      exact hkept hswept
    · intro hkept
      exact mem_live (mem_sweepTransaction.mpr
        ⟨he,fun hswept => hkept ⟨policy,capDays,hpolicy,hcap,hswept⟩⟩)
  · refine iff_of_true (hsame.live.symm ▸ mem_live he) ?_
    cases op with
    | sweep config clock =>
      rintro ⟨policy,capDays,hpolicy,hcap,hswept⟩
      obtain ⟨⟨db',result⟩,hr,heq⟩ := Option.map_eq_some_iff.mp hop
      obtain ⟨policy',capDays',hpolicy',hcap',hdb⟩ := runSweep_ok (toOption_eq_some.mp hr)
      cases hpolicy.symm.trans hpolicy'
      cases hcap.symm.trans hcap'
      have hmem : e ∈ db'.events := by
        rw [show db' = db from heq,hsame.events]
        exact he
      rw [hdb] at hmem
      exact (mem_sweepTransaction.mp hmem).2 hswept
    | _ => exact Set.notMem_empty e

theorem World.step_removed (hstep : w.step a = some w') (he : e ∈ w.bus.events) :
    e.fixedPart ∈ w'.bus.live ↔ e ∉ removedBy w a := by
  cases a with
  | bus op =>
    obtain ⟨db,hop,rfl⟩ := Option.map_eq_some_iff.mp hstep
    exact BusOp.removed hop he
  | sweep p env =>
    obtain ⟨s,hs,rfl⟩ := World.step_sweep hstep
    show e.fixedPart ∈ (sweeperStep env s.cfg w.bus w.archive s.phase).bus.live ↔ _
    rw [s.live_step]
    constructor
    · rintro ⟨-,hkept⟩ ⟨-,s',hs',hdel⟩
      cases hs.symm.trans hs'
      exact hkept hdel
    · intro hkept
      exact ⟨mem_live he,fun hdel => hkept ⟨he,s,hs,hdel⟩⟩
  | beginSweep p config clock =>
    obtain ⟨cfg,-,-,rfl⟩ := World.step_begin hstep
    exact iff_of_true (mem_live he) (Set.notMem_empty e)
  | crash p =>
    cases hstep
    exact iff_of_true (mem_live he) (Set.notMem_empty e)

theorem GoneBelow.step (h : GoneBelow n w) (hstep : w.step a = some w') : GoneBelow n w' := by
  obtain ⟨hseq,hfresh⟩ := World.step_live hstep
  refine ⟨h.1.trans hseq,fun x hx => ?_⟩
  rcases hfresh x hx with hold | hnew
  · exact h.2 x hold
  · exact lt_of_le_of_lt h.1 hnew

theorem goneBelow_of_removed (hok : GapOk w a) (hstep : w.step a = some w')
    (hremoved : e ∈ removedBy w a) (he : e ∈ w.bus.events) (howed : ∃ cursorId, Owes w.bus cursorId e) :
    GoneBelow e.eventId w' := by
  have hle := w.bus.events_le_seq e he
  obtain ⟨hseq,hfresh⟩ := World.step_live hstep
  refine ⟨hle.trans hseq,fun x hx => ?_⟩
  rcases hfresh x hx with ⟨y,hy,rfl⟩ | hnew
  · have hkept := (World.step_removed hstep hy).mp hx
    show e.eventId < y.eventId
    by_contra hlt
    rcases lt_or_eq_of_le (not_lt.mp hlt) with hlt | heq
    · exact hkept (hok e hremoved howed y hy hlt)
    · exact hkept (KeyedTable.eq_of_key he hy heq.symm ▸ hremoved)
  · exact lt_of_le_of_lt hle hnew

theorem poll_behind (h : GoneBelow n w) {c : CursorRow} (hc : c ∈ w.bus.cursors)
    (hactive : c.deregisteredAt = none) (hlast : c.lastEventId < n) {oldest : ℤ}
    (hmin : w.bus.events.minKey? = some oldest) (batchSize : ℕ) (after : Option ℤ) :
    poll w.bus c.cursorId batchSize after = .error (.cursorBehindTtlWindow c.lastEventId oldest) := by
  obtain ⟨⟨x,hx,rfl⟩,-⟩ := KeyedTable.minKey?_eq_some.mp hmin
  have habove : n < x.eventId := h.2 x.fixedPart (mem_live hx)
  have hbehind : c.lastEventId < x.eventId - 1 := by omega
  have hcursor : pollCursor w.bus c.cursorId = .ok c := pollCursor_ok.mpr ⟨hc,rfl,hactive⟩
  simp only [poll,hcursor,pollWindow,hmin,hbehind,if_true,bind,Except.bind]

end Removal

theorem gap_is_reported {as : List Action} {w w' t : World} {a : Action} {e : EventRow}
    {cursorId : String} (hok : GapOk w a) (hstep : w.step a = some w') (he : e ∈ w.bus.events) (howed : Owes w.bus cursorId e)
    (hgone : e.fixedPart ∉ w'.bus.live) (hrun : Run World.step GapOk w' as t)
    {c : CursorRow} (hc : c ∈ t.bus.cursors) (hcursor : c.cursorId = cursorId)
    (hlast : c.lastEventId < e.eventId) (batchSize : ℕ) (after : Option ℤ) :
    (∀ rows, poll t.bus cursorId batchSize after = .ok rows → ∀ x ∈ rows, x.eventId ≤ e.eventId) ∧
      (c.deregisteredAt = none → ∀ oldest, t.bus.events.minKey? = some oldest →
        poll t.bus cursorId batchSize after = .error (.cursorBehindTtlWindow c.lastEventId oldest)) := by
  have hremoved : e ∈ removedBy w a := by
    by_contra hkept
    exact hgone ((World.step_removed hstep he).mpr hkept)
  have h : GoneBelow e.eventId t :=
    hrun.invariant (fun _ _ _ (ht : GoneBelow _ _) _ hs => ht.step hs)
      (goneBelow_of_removed hok hstep hremoved he ⟨cursorId,howed⟩)
  subst hcursor
  refine ⟨fun rows hpoll x hx => ?_,fun hactive oldest hmin => ?_⟩
  · obtain ⟨d,filter,hcursor,hrows⟩ := poll_ok hpoll
    obtain ⟨hd,hdk,hactive⟩ := pollCursor_ok.mp hcursor
    obtain rfl := KeyedTable.eq_of_key hd hc hdk
    have hlive : ∃ oldest, t.bus.events.minKey? = some oldest := by
      refine Option.ne_none_iff_exists'.mp fun hnone => ?_
      exact KeyedTable.minKey?_eq_none.mp hnone x (mem_pollSelect (hrows ▸ hx)).1
    obtain ⟨oldest,hmin⟩ := hlive
    rw [poll_behind h hc hactive hlast hmin] at hpoll
    cases hpoll
  · exact poll_behind h hc hactive hlast hmin batchSize after

def longLived : NewEvent := { expiredSample with idempotencyKey := "k-1", expiresAt := 90000 }

def laterEvent : NewEvent := { expiredSample with idempotencyKey := "k-3", expiresAt := 90000 }

def discardConfig : SweepConfig := ⟨some "discard",none,false,some 3000,none,none⟩

def discardSweep : Action := .bus (.sweep discardConfig 0)

theorem gap_is_reported_sample :
    ∃ w w' t : World, w.step discardSweep = some w' ∧ expiredSample.row 1 ∈ w.bus.events ∧
      Run World.step GapOk w' [.bus (.emit laterEvent "u")] t ∧
      poll t.bus "c1" 100 none = .error (.cursorBehindTtlWindow 0 2) := by
  have hreach : (exec World.step (.start .empty .empty)
      (registeredWorld ++ [.bus (.emit expiredSample "u")])).any (fun w =>
        decide (w.bus.events.rows = [expiredSample.row 1]) &&
        decide (sampleCursor ∈ w.bus.cursors) && decide (sampleSubscription ∈ w.bus.subscriptions) &&
        (w.step discardSweep).any (fun w' => decide (w'.bus.events.rows = []) &&
          (w'.step (.bus (.emit laterEvent "u"))).any (fun t => decide (sampleCursor ∈ t.bus.cursors) &&
            decide (t.bus.events.minKey? = some 2)))) = true := by decide +kernel
  obtain ⟨w,-,hobs⟩ := (Option.any_eq_true _ _).mp hreach
  simp only [Bool.and_eq_true,decide_eq_true_eq] at hobs
  obtain ⟨⟨⟨hrows,hcursor⟩,hsub⟩,hnext⟩ := hobs
  obtain ⟨w',hw',hnext⟩ := (Option.any_eq_true _ _).mp hnext
  simp only [Bool.and_eq_true,decide_eq_true_eq] at hnext
  obtain ⟨hempty,hlater⟩ := hnext
  obtain ⟨t,ht,hobs⟩ := (Option.any_eq_true _ _).mp hlater
  simp only [Bool.and_eq_true,decide_eq_true_eq] at hobs
  have he : expiredSample.row 1 ∈ w.bus.events := by
    rw [← KeyedTable.mem_rows,hrows]
    exact List.mem_singleton_self _
  have hnone : ∀ x, x ∉ w'.bus.live := by
    rintro _ ⟨x,hx,rfl⟩
    rw [← KeyedTable.mem_rows,hempty] at hx
    cases hx
  have hok : GapOk w discardSweep := by
    intro x _ _ y hy _
    by_contra hkept
    exact hnone _ ((World.step_removed hw' hy).mpr hkept)
  have howed : Owes w.bus "c1" (expiredSample.row 1) :=
    .inl ⟨sampleCursor,hcursor,rfl,rfl,by decide,sampleSubscription,hsub,rfl,rfl,by decide +kernel⟩
  have hrun : Run World.step GapOk w' [.bus (.emit laterEvent "u")] t :=
    .snoc .nil (fun x hx => absurd hx (Set.notMem_empty x)) ht
  exact ⟨w,w',t,hw',he,hrun,(gap_is_reported hok hw' he howed (hnone _) hrun hobs.1 rfl (by decide) 100 none).2
    rfl 2 hobs.2⟩

def gapBehindCursor : List Action :=
  registeredWorld ++ [.bus (.emit longLived "u"),.bus (.emit expiredSample "u")]

theorem gap_is_silent :
    ∃ w w' t : World, Run World.step (fun _ _ => True) (World.start .empty .empty) gapBehindCursor w ∧
      w.step discardSweep = some w' ∧ expiredSample.row 2 ∈ w.bus.events ∧
      Owes w.bus "c1" (expiredSample.row 2) ∧ (expiredSample.row 2).fixedPart ∉ w'.bus.live ∧
      Run World.step (fun _ _ => True) w' [.bus (.emit laterEvent "u")] t ∧
      sampleCursor ∈ t.bus.cursors ∧ sampleCursor.lastEventId < (expiredSample.row 2).eventId ∧
      poll t.bus "c1" 100 none = .ok [longLived.row 1,laterEvent.row 3] := by
  have hreach : (exec World.step (.start .empty .empty) gapBehindCursor).any (fun w =>
      decide (expiredSample.row 2 ∈ w.bus.events) && decide (sampleCursor ∈ w.bus.cursors) &&
      decide (sampleSubscription ∈ w.bus.subscriptions) &&
      (w.step discardSweep).any (fun w' => decide (w'.bus.events.rows = [longLived.row 1]) &&
        (exec World.step w' [.bus (.emit laterEvent "u")]).any (fun t =>
          decide (sampleCursor ∈ t.bus.cursors) &&
          decide ((poll t.bus "c1" 100 none).toOption = some [longLived.row 1,laterEvent.row 3])))) =
        true := by decide +kernel
  obtain ⟨w,hw,hobs⟩ := (Option.any_eq_true _ _).mp hreach
  simp only [Bool.and_eq_true,decide_eq_true_eq] at hobs
  obtain ⟨⟨⟨he,hcursor⟩,hsub⟩,hnext⟩ := hobs
  obtain ⟨w',hw',hnext⟩ := (Option.any_eq_true _ _).mp hnext
  simp only [Bool.and_eq_true,decide_eq_true_eq] at hnext
  obtain ⟨hleft,hlater⟩ := hnext
  obtain ⟨t,ht,hobs⟩ := (Option.any_eq_true _ _).mp hlater
  simp only [Bool.and_eq_true,decide_eq_true_eq] at hobs
  refine ⟨w,w',t,run_of_exec hw,hw',he,?_,?_,run_of_exec ht,hobs.1,by decide,toOption_eq_some.mp hobs.2⟩
  · exact .inl ⟨sampleCursor,hcursor,rfl,rfl,by decide,sampleSubscription,hsub,rfl,rfl,by decide +kernel⟩
  · rintro ⟨x,hx,hfix⟩
    rw [← KeyedTable.mem_rows,hleft] at hx
    obtain rfl := List.mem_singleton.mp hx
    exact absurd (eventId_of_fixedPart hfix) (by decide)

end WickedBus
