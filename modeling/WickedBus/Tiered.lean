import WickedBus.Bus
import WickedBus.SweepV2

namespace WickedBus

structure Sweeper where
  cfg : PassConfig
  phase : Phase
  deriving DecidableEq

structure World where
  bus : Db
  archive : Archive
  sweepers : ℕ → Option Sweeper
  log : List EventRow

inductive Action where
  | bus (op : BusOp)
  | beginSweep (p : ℕ) (config : SweepConfig) (clock : ℤ)
  | sweep (p : ℕ) (env : StepEnv)
  | crash (p : ℕ)
  deriving DecidableEq, Repr

def acceptedRows (db : Db) : BusOp → List EventRow
  | .emit params _ => [params.row (db.eventSeq + 1)]
  | _ => []

def World.step (w : World) : Action → Option World
  | .bus op =>
    (op.apply w.bus).map (fun db => { w with bus := db, log := w.log ++ acceptedRows w.bus op })
  | .beginSweep p config clock =>
    match w.sweepers p, passConfig config clock with
    | none, .ok cfg =>
      some { w with sweepers := Function.update w.sweepers p (some ⟨cfg,.collectCursors⟩) }
    | _, _ => none
  | .sweep p env =>
    match w.sweepers p with
    | none => none
    | some s =>
      let r := sweeperStep env s.cfg w.bus w.archive s.phase
      some { w with
        bus := r.bus
        archive := r.archive
        sweepers := Function.update w.sweepers p (r.next.map (Sweeper.mk s.cfg)) }
  | .crash p => some { w with sweepers := Function.update w.sweepers p none }

def World.start (db : Db) (archive : Archive) : World := ⟨db,archive,fun _ => none,db.events.rows⟩

section Inversion

variable {w w' : World} {p : ℕ}

theorem World.step_begin {config : SweepConfig} {clock : ℤ}
    (h : w.step (.beginSweep p config clock) = some w') :
    ∃ cfg, w.sweepers p = none ∧ passConfig config clock = .ok cfg ∧
      w' = { w with sweepers := Function.update w.sweepers p (some ⟨cfg,.collectCursors⟩) } := by
  simp only [World.step] at h
  split at h <;> cases h
  rename_i cfg hnone hcfg
  exact ⟨cfg,hnone,hcfg,rfl⟩

theorem World.step_sweep {env : StepEnv} (h : w.step (.sweep p env) = some w') :
    ∃ s, w.sweepers p = some s ∧ w' = { w with
      bus := (sweeperStep env s.cfg w.bus w.archive s.phase).bus
      archive := (sweeperStep env s.cfg w.bus w.archive s.phase).archive
      sweepers := Function.update w.sweepers p
        ((sweeperStep env s.cfg w.bus w.archive s.phase).next.map (Sweeper.mk s.cfg)) } := by
  simp only [World.step] at h
  split at h <;> cases h
  rename_i s hs
  exact ⟨s,hs,rfl⟩

end Inversion

def World.logged (w : World) : Set EventRow := {x | ∃ r ∈ w.log, r.fixedPart = x}

structure Provenance (w : World) : Prop where
  log_le : ∀ r ∈ w.log, r.eventId ≤ w.bus.eventSeq
  log_unique : ∀ r ∈ w.log, ∀ s ∈ w.log, r.eventId = s.eventId → r.fixedPart = s.fixedPart
  live : w.bus.live ⊆ w.logged
  held : ∀ p s, w.sweepers p = some s → ∀ e ∈ s.phase.held,
    e.fixedPart ∈ w.logged ∧ e.expired s.cfg.now = true
  moved : ∀ p s, w.sweepers p = some s → ∀ i ∈ s.phase.moved,
    ∃ r ∈ w.log, r.eventId = i ∧ r.expired s.cfg.now = true

theorem mem_live {db : Db} {e : EventRow} (h : e ∈ db.events) : e.fixedPart ∈ db.live := ⟨e,h,rfl⟩

theorem expired_of_fixedPart {e r : EventRow} (h : e.fixedPart = r.fixedPart) (now : ℤ) :
    e.expired now = r.expired now := by
  simp only [EventRow.expired,expiresAt_of_fixedPart h]

theorem mem_deleteFromLive {db : Db} {ids : List ℤ} {ro : Option (ℤ × ℚ)} {e : EventRow} :
    e ∈ (deleteFromLive db ids ro).events ↔ e ∈ db.events ∧ e.eventId ∉ deletableIds db ids ro := by
  simp [deleteFromLive]

theorem live_deleteFromLive (db : Db) (ids : List ℤ) (ro : Option (ℤ × ℚ)) :
    (deleteFromLive db ids ro).live = {x ∈ db.live | x.eventId ∉ deletableIds db ids ro} := by
  rw [deleteFromLive,Db.live_deleteEvents (fun e => rfl)]
  simp

theorem deletableIds_subset (db : Db) (ids : List ℤ) (ro : Option (ℤ × ℚ)) :
    ∀ i ∈ deletableIds db ids ro, i ∈ ids := by
  intro i hi
  cases ro with
  | none => exact hi
  | some r => exact (List.mem_filter.mp hi).1

theorem update_eq_some {α : Type} {f : ℕ → Option α} {p q : ℕ} {next : Option α} {s : α}
    (h : Function.update f p next q = some s) : q = p ∧ next = some s ∨ q ≠ p ∧ f q = some s := by
  by_cases hq : q = p
  · subst hq
    exact .inl ⟨rfl,by simpa using h⟩
  · exact .inr ⟨hq,by simpa [Function.update_of_ne hq] using h⟩

inductive BusEffect (db db' : Db) : BusOp → Prop
  | emit (params : NewEvent) (uuid : String)
      (live : db'.live = insert (params.row (db.eventSeq + 1)).fixedPart db.live)
      (eventSeq : db'.eventSeq = db.eventSeq + 1) (bound : db'.eventSeq ≤ maxSafeInteger)
      (frame : Db.Frame db db') : BusEffect db db' (.emit params uuid)
  | shrink {op : BusOp} (accepted : acceptedRows db op = []) (live : db'.live ⊆ db.live)
      (eventSeq : db'.eventSeq = db.eventSeq) : BusEffect db db' op

theorem busEffect {db db' : Db} {op : BusOp} (h : op.apply db = some db') : BusEffect db db' op := by
  rcases busOp_cases h with ⟨params,uuid,rfl,he⟩ | ⟨config,clock,result,rfl,hr⟩ | hs
  · exact .emit params uuid (emit_live he) (emit_eventSeq he) (emit_eventSeq_le he) (emit_frame he)
  · obtain ⟨policy,capDays,-,-,rfl⟩ := runSweep_ok hr
    refine .shrink rfl ?_ (sweepTransaction_frame _ _ _ _ _).2
    rintro _ ⟨e,he,rfl⟩
    exact mem_live (mem_sweepTransaction.mp he).1
  · cases op with
    | emit params uuid =>
      have he := toOption_eq_some.mp h
      have := emit_eventSeq he
      have := hs.eventSeq
      omega
    | _ => exact .shrink rfl hs.live.subset hs.eventSeq

section Provenance

variable {w w' : World}

theorem Provenance.start (db : Db) (archive : Archive) : Provenance (World.start db archive) where
  log_le r hr := db.events_le_seq r hr
  log_unique r hr s hs h := by rw [KeyedTable.eq_of_key (t := db.events) hr hs h]
  live := by
    rintro _ ⟨e,he,rfl⟩
    exact ⟨e,he,rfl⟩
  held p s h := by cases h
  moved p s h := by cases h

theorem Provenance.logged_unique (h : Provenance w) {x y : EventRow} (hx : x.fixedPart ∈ w.logged)
    (hy : y.fixedPart ∈ w.logged) (hid : x.eventId = y.eventId) : x.fixedPart = y.fixedPart := by
  obtain ⟨r,hr,hrx⟩ := hx
  obtain ⟨s,hs,hsy⟩ := hy
  rw [← hrx,← hsy]
  refine h.log_unique r hr s hs ?_
  rw [eventId_of_fixedPart hrx,eventId_of_fixedPart hsy,hid]

theorem Provenance.moved_expired (h : Provenance w) {p : ℕ} {s : Sweeper} (hs : w.sweepers p = some s)
    {e : EventRow} (he : e ∈ w.bus.events) (hi : e.eventId ∈ s.phase.moved) :
    e.expired s.cfg.now = true := by
  obtain ⟨r,hr,hri,hexp⟩ := h.moved p s hs _ hi
  rw [← hexp]
  exact expired_of_fixedPart (h.logged_unique (h.live (mem_live he)) ⟨r,hr,rfl⟩ hri.symm) _

theorem Provenance.step_bus (h : Provenance w) {op : BusOp} (hstep : w.step (.bus op) = some w') :
    Provenance w' := by
  obtain ⟨db,hop,rfl⟩ := Option.map_eq_some_iff.mp hstep
  have hgrow : w.logged ⊆ {x | ∃ r ∈ w.log ++ acceptedRows w.bus op, r.fixedPart = x} := by
    rintro x ⟨r,hr,rfl⟩
    exact ⟨r,List.mem_append_left _ hr,rfl⟩
  have hheld : ∀ p s, w.sweepers p = some s → ∀ e ∈ s.phase.held,
      e.fixedPart ∈ {x | ∃ r ∈ w.log ++ acceptedRows w.bus op, r.fixedPart = x} ∧
        e.expired s.cfg.now = true := fun p s hs e he =>
    ⟨hgrow (h.held p s hs e he).1,(h.held p s hs e he).2⟩
  have hmoved : ∀ p s, w.sweepers p = some s → ∀ i ∈ s.phase.moved,
      ∃ r ∈ w.log ++ acceptedRows w.bus op, r.eventId = i ∧ r.expired s.cfg.now = true := by
    intro p s hs i hi
    obtain ⟨r,hr,hri⟩ := h.moved p s hs i hi
    exact ⟨r,List.mem_append_left _ hr,hri⟩
  cases busEffect hop with
  | emit params uuid hlive hseq =>
    have hnew : acceptedRows w.bus (.emit params uuid) = [params.row (w.bus.eventSeq + 1)] := rfl
    refine ⟨?_,?_,?_,hheld,hmoved⟩
    · intro r hr
      rw [hseq]
      rcases List.mem_append.mp hr with hr | hr
      · have := h.log_le r hr
        omega
      · rw [List.mem_singleton.mp hr]
        exact le_rfl
    · intro r hr s hs hid
      rw [hnew] at hr hs
      rcases List.mem_append.mp hr with hr | hr <;> rcases List.mem_append.mp hs with hs | hs
      · exact h.log_unique r hr s hs hid
      · have := h.log_le r hr
        rw [List.mem_singleton.mp hs,NewEvent.row_eventId] at hid
        omega
      · have := h.log_le s hs
        rw [List.mem_singleton.mp hr,NewEvent.row_eventId] at hid
        omega
      · rw [List.mem_singleton.mp hr,List.mem_singleton.mp hs]
    · rw [hlive]
      refine Set.insert_subset ⟨_,List.mem_append_right _ List.mem_cons_self,rfl⟩ ?_
      exact h.live.trans hgrow
  | shrink hacc hlive hseq =>
    rw [hacc,List.append_nil] at *
    exact ⟨fun r hr => hseq ▸ h.log_le r hr,h.log_unique,hlive.trans h.live,h.held,h.moved⟩

theorem Provenance.sameEvents (h : Provenance w) {db : Db} (hsame : SameEvents w.bus db) :
    Provenance { w with bus := db } :=
  ⟨fun r hr => hsame.eventSeq ▸ h.log_le r hr,h.log_unique,hsame.live ▸ h.live,h.held,h.moved⟩

theorem Provenance.forget (h : Provenance w) (p : ℕ) (cfg : PassConfig) (next : Option Phase)
    (hheld : ∀ ph, next = some ph → ∀ e ∈ ph.held,
      e.fixedPart ∈ w.logged ∧ e.expired cfg.now = true)
    (hmoved : ∀ ph, next = some ph → ∀ i ∈ ph.moved,
      ∃ r ∈ w.log, r.eventId = i ∧ r.expired cfg.now = true)
    {db : Db} (hdb : db.live ⊆ w.bus.live) (hseq : db.eventSeq = w.bus.eventSeq) (archive : Archive) :
    Provenance ⟨db,archive,Function.update w.sweepers p (next.map (Sweeper.mk cfg)),w.log⟩ := by
  refine ⟨fun r hr => hseq ▸ h.log_le r hr,h.log_unique,hdb.trans h.live,?_,?_⟩
  · intro q s hs
    rcases update_eq_some hs with ⟨rfl,hnext⟩ | ⟨-,hs⟩
    · obtain ⟨ph,hph,rfl⟩ := Option.map_eq_some_iff.mp hnext
      exact hheld ph hph
    · exact h.held q s hs
  · intro q s hs
    rcases update_eq_some hs with ⟨rfl,hnext⟩ | ⟨-,hs⟩
    · obtain ⟨ph,hph,rfl⟩ := Option.map_eq_some_iff.mp hnext
      exact hmoved ph hph
    · exact h.moved q s hs

theorem sweeperStep_live (env : StepEnv) (cfg : PassConfig) (db : Db) (archive : Archive) (ph : Phase) :
    (sweeperStep env cfg db archive ph).bus.live ⊆ db.live ∧
      (sweeperStep env cfg db archive ph).bus.eventSeq = db.eventSeq := by
  rcases sweeperStep_bus env cfg db archive ph with h | ⟨ids,-,h⟩ | ⟨moved,-,h⟩
  · rw [h]
    exact ⟨subset_rfl,rfl⟩
  · rw [h,live_deleteFromLive]
    exact ⟨Set.sep_subset _ _,rfl⟩
  · rw [h,live_deleteFromLive]
    exact ⟨Set.sep_subset _ _,rfl⟩

theorem World.step_live (hstep : w.step a = some w') : w.bus.eventSeq ≤ w'.bus.eventSeq ∧
    ∀ x ∈ w'.bus.live, x ∈ w.bus.live ∨ w.bus.eventSeq < x.eventId := by
  cases a with
  | bus op =>
    obtain ⟨db,hop,rfl⟩ := Option.map_eq_some_iff.mp hstep
    cases busEffect hop with
    | emit params uuid live eventSeq bound =>
      refine ⟨by show w.bus.eventSeq ≤ db.eventSeq; omega,fun x hx => ?_⟩
      have hx' : x ∈ db.live := hx
      rw [live] at hx'
      rcases hx' with rfl | hx'
      · exact .inr (Int.lt_succ _)
      · exact .inl hx'
    | shrink accepted live eventSeq => exact ⟨eventSeq.ge,fun x hx => .inl (live hx)⟩
  | beginSweep p config clock =>
    obtain ⟨cfg,-,-,rfl⟩ := World.step_begin hstep
    exact ⟨le_rfl,fun x hx => .inl hx⟩
  | sweep p env =>
    obtain ⟨s,hs,rfl⟩ := World.step_sweep hstep
    have hlive := sweeperStep_live env s.cfg w.bus w.archive s.phase
    exact ⟨hlive.2.ge,fun x hx => .inl (hlive.1 hx)⟩
  | crash p =>
    cases hstep
    exact ⟨le_rfl,fun x hx => .inl hx⟩

theorem Provenance.step (h : Provenance w) {a : Action} (hstep : w.step a = some w') :
    Provenance w' := by
  cases a with
  | bus op => exact h.step_bus hstep
  | beginSweep p config clock =>
    obtain ⟨cfg,-,-,rfl⟩ := World.step_begin hstep
    exact h.forget p cfg (some .collectCursors) (by rintro _ ⟨⟩ e he; cases he)
      (by rintro _ ⟨⟩ i hi; cases hi) subset_rfl rfl w.archive
  | sweep p env =>
    obtain ⟨s,hs,rfl⟩ := World.step_sweep hstep
    have hlive := sweeperStep_live env s.cfg w.bus w.archive s.phase
    refine h.forget p s.cfg _ ?_ ?_ hlive.1 hlive.2 _
    · intro ph hph e he
      rcases sweeperStep_held hph e he with he | ⟨he,hexp⟩
      · exact h.held p s hs e he
      · exact ⟨h.live (mem_live he),hexp⟩
    · intro ph hph i hi
      rcases sweeperStep_moved hph i hi with hi | ⟨wr,hwr,e,he,rfl⟩
      · exact h.moved p s hs i hi
      · obtain ⟨⟨r,hr,hre⟩,hexp⟩ := h.held p s hs e (Phase.copying_held hwr e he)
        exact ⟨r,hr,eventId_of_fixedPart hre,by rw [expired_of_fixedPart hre,hexp]⟩
  | crash p =>
    cases hstep
    exact h.forget p (PassConfig.mk 0 .retain 0 0 0) none (by simp) (by simp) subset_rfl rfl w.archive

theorem Provenance.run {ok : World → Action → Prop} {as : List Action}
    (hrun : GuardedRun.Run World.step ok w as w') (h : Provenance w) : Provenance w' :=
  hrun.invariant (fun _ _ _ ht _ hs => ht.step hs) h

end Provenance

end WickedBus
