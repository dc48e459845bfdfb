import WickedBus.Tiered

namespace WickedBus

open GuardedRun
open WickedBus.Filter (Text)

def ValidYear (timestampMs : ℤ) : Prop :=
  1000 ≤ CivilDate.utcYear timestampMs ∧ CivilDate.utcYear timestampMs ≤ 9999

instance (t : ℤ) : Decidable (ValidYear t) := inferInstanceAs (Decidable (_ ∧ _))

def YearsOk (w : World) : Action → Prop
  | .bus op => ∀ r ∈ acceptedRows w.bus op, ValidYear r.emittedAt
  | _ => True

instance : ∀ w a, Decidable (YearsOk w a)
  | w, .bus op => inferInstanceAs (Decidable (∀ r ∈ acceptedRows w.bus op, ValidYear r.emittedAt))
  | _, .beginSweep _ _ _ => inferInstanceAs (Decidable True)
  | _, .sweep _ _ => inferInstanceAs (Decidable True)
  | _, .crash _ => inferInstanceAs (Decidable True)

structure Custody (w : World) : Prop where
  prov : Provenance w
  years : ∀ r ∈ w.log, ValidYear r.emittedAt
  bucketLogged : ∀ name e, Holds w.archive name e → e.fixedPart ∈ w.logged
  targets : ∀ p s, w.sweepers p = some s → ∀ n ∈ s.phase.targets, bucketFileRe n = true
  copied : ∀ p s, w.sweepers p = some s → ∀ wr, s.phase.copying = some wr →
    ∀ e ∈ wr.events, ∃ x, Holds w.archive wr.bucketName x ∧ x.eventId = e.eventId

section Custody

variable {w w' : World}

theorem Custody.start : Custody (World.start .empty .empty) where
  prov := .start _ _
  years r hr := by cases hr
  bucketLogged name e h := by
    obtain ⟨b,hb,-⟩ := h
    exact absurd hb (KeyedTable.not_mem_empty b)
  targets p s h := by cases h
  copied p s h := by cases h

theorem sweeperStep_holds (env : StepEnv) (cfg : PassConfig) (db : Db) (archive : Archive) (ph : Phase)
    {name : Text} {e : EventRow} (h : Holds archive name e) :
    Holds (sweeperStep env cfg db archive ph).archive name e := by
  rcases sweeperStep_archive env cfg db archive ph with hsame | ⟨w,-,hins⟩
  · exact (hsame name e).mpr h
  · exact holds_insertRows hins h

theorem Writing.bucketName_target {ph : Phase} {wr : Writing} (h : ph.copying = some wr) :
    wr.bucketName ∈ ph.targets := by
  cases ph <;> cases h <;> exact List.mem_cons_self

theorem Custody.held_month (h : Custody w) {p : ℕ} {s : Sweeper} (hs : w.sweepers p = some s) :
    ∀ e ∈ s.phase.held, MonthText (monthKey e.emittedAt) := by
  intro e he
  obtain ⟨r,hr,hre⟩ := (h.prov.held p s hs e he).1
  rw [← emittedAt_of_fixedPart hre]
  exact monthText_monthKey (h.years r hr).1 (h.years r hr).2

theorem logged_grow {op : BusOp} :
    w.logged ⊆ {x | ∃ r ∈ w.log ++ acceptedRows w.bus op, r.fixedPart = x} := by
  rintro x ⟨r,hr,rfl⟩
  exact ⟨r,List.mem_append_left _ hr,rfl⟩

theorem bus_live {op : BusOp} {db : Db} (hop : op.apply w.bus = some db) (hsweep : op.isSweep = false) :
    ∀ x, (∃ r ∈ w.log ++ acceptedRows w.bus op, r.fixedPart = x) →
      x ∈ w.logged ∧ (x ∈ w.bus.live → x ∈ db.live) ∨ x ∈ db.live := by
  rcases busOp_cases hop with ⟨params,uuid,rfl,he⟩ | ⟨config,clock,_,rfl,-⟩ | hs
  · rintro x ⟨r,hr,rfl⟩
    rw [emit_live he]
    rcases List.mem_append.mp hr with hr | hr
    · exact .inl ⟨⟨r,hr,rfl⟩,Set.mem_insert_of_mem _⟩
    · rw [List.mem_singleton.mp hr]
      exact .inr (Set.mem_insert _ _)
  · cases hsweep
  · have hacc : acceptedRows w.bus op = [] := by
      cases op with
      | emit params uuid =>
        have := emit_eventSeq (toOption_eq_some.mp hop)
        have := hs.eventSeq
        omega
      | _ => rfl
    rw [hacc,List.append_nil,hs.live]
    exact fun x hx => .inl ⟨hx,id⟩

theorem Custody.replace (h : Custody w) (p : ℕ) {next : Option Sweeper}
    (hprov : Provenance { w with sweepers := Function.update w.sweepers p next })
    (hnext : ∀ s, next = some s → s.phase = .collectCursors) :
    Custody { w with sweepers := Function.update w.sweepers p next } := by
  refine ⟨hprov,h.years,h.bucketLogged,?_,?_⟩
  · intro q t ht n hn
    rcases update_eq_some ht with ⟨-,ht⟩ | ⟨-,ht⟩
    · rw [hnext t ht] at hn
      cases hn
    · exact h.targets q t ht n hn
  · intro q t ht wr hwr
    rcases update_eq_some ht with ⟨-,ht⟩ | ⟨-,ht⟩
    · rw [hnext t ht] at hwr
      cases hwr
    · exact h.copied q t ht wr hwr

theorem Custody.step_sweep (h : Custody w) {p : ℕ} {env : StepEnv}
    (hstep : w.step (.sweep p env) = some w') : Custody w' := by
  have hprov := h.prov.step hstep
  obtain ⟨s,hs,rfl⟩ := World.step_sweep hstep
  have hmono : ∀ name e, Holds w.archive name e →
      Holds (sweeperStep env s.cfg w.bus w.archive s.phase).archive name e :=
    fun name e => sweeperStep_holds env s.cfg w.bus w.archive s.phase
  refine ⟨hprov,h.years,?_,?_,?_⟩
  · intro name e he
    rcases sweeperStep_archive env s.cfg w.bus w.archive s.phase with hsame | ⟨wr,hph,hins⟩
    · exact h.bucketLogged name e ((hsame name e).mp he)
    · rcases holds_of_insertRows hins he with he | ⟨-,he⟩
      · exact h.bucketLogged name e he
      · exact (h.prov.held p s hs e (by rw [hph]; exact List.mem_append_left _ he)).1
  · intro q t ht
    rcases update_eq_some ht with ⟨rfl,hnext⟩ | ⟨-,ht⟩
    · obtain ⟨ph,hph,rfl⟩ := Option.map_eq_some_iff.mp hnext
      exact sweeperStep_targets hph (h.held_month hs) (h.targets q s hs)
    · exact h.targets q t ht
  · intro q t ht wr hwr e he
    rcases update_eq_some ht with ⟨rfl,hnext⟩ | ⟨-,ht⟩
    · obtain ⟨ph,hph,rfl⟩ := Option.map_eq_some_iff.mp hnext
      rcases sweeperStep_copying hph hwr with hc | ⟨-,hins⟩
      · obtain ⟨x,hx,hk⟩ := h.copied q s hs wr hc e he
        exact ⟨x,hmono _ x hx,hk⟩
      · exact stored_insertRows hins he
    · obtain ⟨x,hx,hk⟩ := h.copied q t ht wr hwr e he
      exact ⟨x,hmono _ x hx,hk⟩

theorem Custody.step (h : Custody w) {a : Action} (hok : YearsOk w a) (hstep : w.step a = some w') :
    Custody w' := by
  cases a with
  | bus op =>
    have hprov := h.prov.step hstep
    obtain ⟨db,hop,rfl⟩ := Option.map_eq_some_iff.mp hstep
    refine ⟨hprov,?_,fun n e he => logged_grow (h.bucketLogged n e he),h.targets,h.copied⟩
    intro r hr
    rcases List.mem_append.mp hr with hr | hr
    · exact h.years r hr
    · exact hok r hr
  | sweep p env => exact h.step_sweep hstep
  | beginSweep p config clock =>
    have hprov := h.prov.step hstep
    obtain ⟨cfg,-,-,rfl⟩ := World.step_begin hstep
    exact h.replace p hprov (by rintro _ ⟨⟩; rfl)
  | crash p =>
    have hprov := h.prov.step hstep
    cases hstep
    exact h.replace p hprov (by rintro _ ⟨⟩)

end Custody

end WickedBus
