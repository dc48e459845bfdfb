import WickedBus.Custody

namespace WickedBus

open GuardedRun

def DurableOk (w : World) : Action → Prop
  | .bus op => YearsOk w (.bus op) ∧ op.isSweep = false
  | .beginSweep _ config _ => resolveUnackedPolicy config ≠ .ok .discard
  | _ => True

instance : ∀ w a, Decidable (DurableOk w a)
  | _, .bus _ => inferInstanceAs (Decidable (_ ∧ _))
  | _, .beginSweep _ _ _ => inferInstanceAs (Decidable (_ ≠ _))
  | _, .sweep _ _ => inferInstanceAs (Decidable True)
  | _, .crash _ => inferInstanceAs (Decidable True)

theorem DurableOk.years {w : World} {a : Action} (h : DurableOk w a) : YearsOk w a := by
  cases a with
  | bus op => exact h.1
  | _ => trivial

def Stored (archive : Archive) (i : ℤ) : Prop :=
  ∃ name e, bucketFileRe name = true ∧ Holds archive name e ∧ e.eventId = i

structure Durability (w : World) : Prop where
  custody : Custody w
  policy : ∀ p s, w.sweepers p = some s →
    s.cfg.policy ≠ .discard ∧ ∀ ids, s.phase ≠ .discardOwed ids
  moved : ∀ p s, w.sweepers p = some s → ∀ i ∈ s.phase.moved, Stored w.archive i
  durable : ∀ x ∈ w.logged, x ∈ w.bus.live ∨ Stored w.archive x.eventId

section Durability

variable {w w' : World}

theorem Durability.start : Durability (World.start .empty .empty) where
  custody := .start
  policy p s h := by cases h
  moved p s h := by cases h
  durable x hx := by
    obtain ⟨r,hr,-⟩ := hx
    cases hr

theorem Stored.mono {archive archive' : Archive}
    (h : ∀ name e, Holds archive name e → Holds archive' name e) {i : ℤ} (hi : Stored archive i) :
    Stored archive' i := by
  obtain ⟨name,e,hre,he,rfl⟩ := hi
  exact ⟨name,e,hre,h name e he,rfl⟩

theorem Durability.step_bus (h : Durability w) {op : BusOp} (hok : DurableOk w (.bus op))
    (hstep : w.step (.bus op) = some w') : Durability w' := by
  have hcust := h.custody.step hok.years hstep
  obtain ⟨db,hop,rfl⟩ := Option.map_eq_some_iff.mp hstep
  refine ⟨hcust,h.policy,h.moved,fun x hx => ?_⟩
  rcases bus_live hop hok.2 x hx with ⟨hlog,hlive⟩ | hlive
  · exact (h.durable x hlog).imp_left hlive
  · exact .inl hlive

theorem Durability.step_sweep (h : Durability w) {p : ℕ} {env : StepEnv}
    (hstep : w.step (.sweep p env) = some w') : Durability w' := by
  have hcust := h.custody.step_sweep hstep
  obtain ⟨s,hs,rfl⟩ := World.step_sweep hstep
  have hmono : ∀ name e, Holds w.archive name e →
      Holds (sweeperStep env s.cfg w.bus w.archive s.phase).archive name e :=
    fun name e => sweeperStep_holds env s.cfg w.bus w.archive s.phase
  refine ⟨hcust,?_,?_,?_⟩
  · intro q t ht
    rcases update_eq_some ht with ⟨rfl,hnext⟩ | ⟨-,ht⟩
    · obtain ⟨ph,hph,rfl⟩ := Option.map_eq_some_iff.mp hnext
      refine ⟨(h.policy q s hs).1,?_⟩
      rintro ids rfl
      exact (h.policy q s hs).1 (sweeperStep_discard hph).1
    · exact h.policy q t ht
  · intro q t ht i hi
    rcases update_eq_some ht with ⟨rfl,hnext⟩ | ⟨-,ht⟩
    · obtain ⟨ph,hph,rfl⟩ := Option.map_eq_some_iff.mp hnext
      rcases sweeperStep_moved hph i hi with hi | ⟨wr,hwr,e,he,rfl⟩
      · exact (h.moved q s hs i hi).mono hmono
      · obtain ⟨x,hx,hk⟩ := h.custody.copied q s hs wr hwr e he
        exact ⟨_,x,h.custody.targets q s hs _ (Writing.bucketName_target hwr),hmono _ x hx,hk⟩
    · exact (h.moved q t ht i hi).mono hmono
  · intro x hx
    rcases h.durable x hx with hlive | hst
    · rcases sweeperStep_bus env s.cfg w.bus w.archive s.phase with hb | ⟨ids,hph,-⟩ | ⟨mv,hph,hb⟩
      · exact .inl (by rw [hb]; exact hlive)
      · exact absurd hph ((h.policy p s hs).2 ids)
      · rw [hb,live_deleteFromLive]
        by_cases hdel : x.eventId ∈ deletableIds w.bus mv (retainOwed s.cfg)
        · refine .inr ((h.moved p s hs _ ?_).mono hmono)
          rw [hph]
          exact deletableIds_subset _ _ _ _ hdel
        · exact .inl ⟨hlive,hdel⟩
    · exact .inr (hst.mono hmono)

theorem Durability.replace (h : Durability w) (p : ℕ) {next : Option Sweeper}
    (hcust : Custody { w with sweepers := Function.update w.sweepers p next })
    (hnext : ∀ s, next = some s → s.phase = .collectCursors ∧ s.cfg.policy ≠ .discard) :
    Durability { w with sweepers := Function.update w.sweepers p next } := by
  refine ⟨hcust,?_,?_,h.durable⟩
  · intro q t ht
    rcases update_eq_some ht with ⟨-,ht⟩ | ⟨-,ht⟩
    · obtain ⟨hph,hpol⟩ := hnext t ht
      exact ⟨hpol,by simp [hph]⟩
    · exact h.policy q t ht
  · intro q t ht i hi
    rcases update_eq_some ht with ⟨-,ht⟩ | ⟨-,ht⟩
    · rw [(hnext t ht).1] at hi
      cases hi
    · exact h.moved q t ht i hi

theorem Durability.step (h : Durability w) {a : Action} (hok : DurableOk w a)
    (hstep : w.step a = some w') : Durability w' := by
  cases a with
  | bus op => exact h.step_bus hok hstep
  | sweep p env => exact h.step_sweep hstep
  | beginSweep p config clock =>
    have hcust := h.custody.step hok.years hstep
    obtain ⟨cfg,-,hcfg,rfl⟩ := World.step_begin hstep
    refine h.replace p hcust ?_
    rintro _ ⟨⟩
    exact ⟨rfl,fun hd => hok (by rw [(passConfig_ok hcfg).1,hd])⟩
  | crash p =>
    have hcust := h.custody.step hok.years hstep
    cases hstep
    exact h.replace p hcust (by rintro _ ⟨⟩)

theorem tiered_durability {as : List Action}
    (hrun : Run World.step DurableOk (World.start .empty .empty) as w) {r : EventRow}
    (hr : r ∈ w.log) :
    (∃ e ∈ w.bus.events, e.fixedPart = r.fixedPart) ∨
      ∃ name ∈ listBuckets w.archive, ∃ e, Holds w.archive name e ∧ e.fixedPart = r.fixedPart := by
  have h : Durability w := hrun.invariant (fun _ _ _ ht hok hs => ht.step hok hs) .start
  rcases h.durable _ ⟨r,hr,rfl⟩ with hlive | ⟨name,e,hre,he,hid⟩
  · exact .inl hlive
  · have ⟨b,hb,hbn,_⟩ := he
    exact .inr ⟨name,mem_listBuckets.mpr ⟨⟨b,hb,hbn⟩,hre⟩,e,he,
      h.custody.prov.logged_unique (h.custody.bucketLogged name e he) ⟨r,hr,rfl⟩ hid⟩

end Durability

def modernSample : NewEvent := { expiredSample with emittedAt := 1700000000000, expiresAt := 1700000001000 }

def modernSweepConfig : SweepConfig := ⟨some "archive",none,false,some 1700000002000,none,none⟩

def copiedNotDeleted : List Action :=
  [.bus (.emit modernSample "u"),.beginSweep 0 modernSweepConfig 0] ++
    List.replicate 15 (.sweep 0 ⟨1700000003000,some 4096,false,false⟩) ++ [.crash 0]

theorem tiered_durability_after_crash :
    ∃ w : World, w.sweepers 0 = none ∧ modernSample.row 1 ∈ w.bus.events ∧
      (listBuckets w.archive).length = 1 ∧
      ((∃ e ∈ w.bus.events, e.fixedPart = (modernSample.row 1).fixedPart) ∨
        ∃ name ∈ listBuckets w.archive, ∃ e, Holds w.archive name e ∧
          e.fixedPart = (modernSample.row 1).fixedPart) := by
  have hreach : (exec (guarded DurableOk World.step) (.start .empty .empty) copiedNotDeleted).any
      (fun w => decide (w.sweepers 0 = none) && decide (modernSample.row 1 ∈ w.bus.events) &&
        decide ((listBuckets w.archive).length = 1) && decide (modernSample.row 1 ∈ w.log)) = true := by
    decide +kernel
  obtain ⟨w,hw,hobs⟩ := (Option.any_eq_true _ _).mp hreach
  simp only [Bool.and_eq_true,decide_eq_true_eq] at hobs
  exact ⟨w,hobs.1.1.1,hobs.1.1.2,hobs.1.2,tiered_durability (run_of_guarded hw) hobs.2⟩

end WickedBus
