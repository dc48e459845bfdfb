import WickedBus.Tiered

namespace WickedBus

open GuardedRun

section Recheck

variable {w w' : World} {p : ℕ} {cfg : PassConfig} {moved : List ℤ} {e : EventRow}

theorem deleteLive_bus {env : StepEnv} (hs : w.sweepers p = some ⟨cfg,.deleteLive moved⟩)
    (hstep : w.step (.sweep p env) = some w') :
    w'.bus = deleteFromLive w.bus moved (retainOwed cfg) := by
  simp only [World.step,hs] at hstep
  cases hstep
  rfl

theorem owedAtDelete_of_owes {db : Db} {ids : List ℤ} {now : ℤ} {capDays : ℚ} {cursorId : String}
    (he : e ∈ db.events) (hexp : e.expired now = true) (hid : e.eventId ∈ ids)
    (hown : Owes db cursorId e) (hcap : e.overCap now capDays = false) :
    e.eventId ∈ owedAtDelete db ids now capDays := by
  refine List.mem_map.mpr ⟨⟨e.eventId,cursorId,false⟩,List.mem_filter.mpr ⟨?_,by simpa using hid⟩,rfl⟩
  exact mem_owedPairs.mpr ⟨e,⟨he,hexp⟩,hown,rfl,hcap.symm⟩

theorem Provenance.owed_kept (h : Provenance w) (hs : w.sweepers p = some ⟨cfg,.deleteLive moved⟩)
    (hretain : cfg.policy = .retain) (he : e ∈ w.bus.events) {cursorId : String}
    (hown : Owes w.bus cursorId e) (hcap : e.overCap cfg.now cfg.capDays = false) :
    e ∈ (deleteFromLive w.bus moved (retainOwed cfg)).events := by
  refine mem_deleteFromLive.mpr ⟨he,fun hdel => ?_⟩
  rw [retainOwed,if_pos hretain] at hdel
  obtain ⟨hid,hnot⟩ := List.mem_filter.mp hdel
  have hexp : e.expired cfg.now = true := h.moved_expired hs he hid
  exact of_decide_eq_true hnot (owedAtDelete_of_owes he hexp hid hown hcap)

theorem retain_recheck {db : Db} {archive : Archive} {as : List Action} {env : StepEnv}
    (hrun : Run World.step (fun _ _ => True) (World.start db archive) as w)
    (hs : w.sweepers p = some ⟨cfg,.deleteLive moved⟩) (hretain : cfg.policy = .retain)
    (hstep : w.step (.sweep p env) = some w') (he : e ∈ w.bus.events) (hgone : e ∉ w'.bus.events) :
    ¬ ∃ cursorId, Owes w.bus cursorId e ∧ e.overCap cfg.now cfg.capDays = false := by
  rintro ⟨cursorId,hown,hcap⟩
  rw [deleteLive_bus hs hstep] at hgone
  exact hgone (((Provenance.start db archive).run hrun).owed_kept hs hretain he hown hcap)

end Recheck

def sampleEnv : StepEnv := ⟨5000,some 4096,false,false⟩

def sampleSweepConfig : SweepConfig := ⟨none,none,false,some 3000,none,none⟩

def sampleCfg : PassConfig := ⟨3000,.retain,30,5000,10 * 1024 * 1024 * 1024⟩

def doneSample : NewEvent := storedSample "k2" "wicked.run.done" 1000 2000

-- both events are in the batch when a subscriber registers that is owed the second of them
def lateRegistration : List Action :=
  [.bus (.emit expiredSample "u"),.bus (.emit doneSample "u"),.beginSweep 0 sampleSweepConfig 0] ++
    List.replicate 19 (.sweep 0 sampleEnv) ++
  [.bus (.insertSubscription ⟨"s1","p",.subscriber,"wicked.run.done".toList,none,0,none⟩),
    .bus (.insertCursor ⟨"c1","s1",0,none,0,none⟩)]

theorem retain_recheck_sample :
    ∃ w w' : World, w.sweepers 0 = some ⟨sampleCfg,.deleteLive [1,2]⟩ ∧
      w.step (.sweep 0 sampleEnv) = some w' ∧ w.bus.events.rows.map EventRow.eventId = [1,2] ∧
      w'.bus.events.rows = [doneSample.row 2] ∧
      ¬ ∃ cursorId, Owes w.bus cursorId (expiredSample.row 1) ∧
        (expiredSample.row 1).overCap 3000 30 = false := by
  have hreach : (exec World.step (.start .empty .empty) lateRegistration).any (fun w =>
      decide (w.sweepers 0 = some ⟨sampleCfg,.deleteLive [1,2]⟩) &&
      decide (w.bus.events.rows.map EventRow.eventId = [1,2]) && decide (expiredSample.row 1 ∈ w.bus.events) &&
      (w.step (.sweep 0 sampleEnv)).any (fun w' => decide (w'.bus.events.rows = [doneSample.row 2]))) =
      true := by decide +kernel
  obtain ⟨w,hw,hobs⟩ := (Option.any_eq_true _ _).mp hreach
  simp only [Bool.and_eq_true,decide_eq_true_eq] at hobs
  obtain ⟨⟨⟨hs,hlive⟩,he⟩,hnext⟩ := hobs
  obtain ⟨w',hstep,hleft⟩ := (Option.any_eq_true _ _).mp hnext
  have hleft := of_decide_eq_true hleft
  have hgone : expiredSample.row 1 ∉ w'.bus.events := by
    rw [← KeyedTable.mem_rows,hleft]
    decide
  exact ⟨w,w',hs,hstep,hlive,hleft,retain_recheck (run_of_exec hw) hs rfl hstep he hgone⟩

end WickedBus
