import WickedBus.Gap
import WickedBus.Report

namespace WickedBus

open GuardedRun
open WickedBus.Filter (Text)

def owesRow (db : Db) (c : CursorRow) (e : EventRow) : Bool :=
  decide (c.deregisteredAt = none) &&
    (decide (c.lastEventId < e.eventId) && (db.subscriptions.get? c.subscriptionId).any
        (fun s => decide (s.deregisteredAt = none) && e.matchesSql s.eventTypeFilter) ||
      db.deliveryAttempts.rows.any (fun d => d.cursorId = c.cursorId ∧ d.eventId = e.eventId))

def lostPairs (db db' : Db) : List (EventRow × String) :=
  (goneRows db db').flatMap (fun e => (db.cursors.rows.filter (owesRow db · e)).map (fun c => (e,c.cursorId)))

def endReport (memo : PassMemo) (cfg : PassConfig) (db : Db) : Phase → List OwedPair
  | .writeGroups _ moved => reportedPairs cfg moved memo.owedPairs
  | .deleteLive moved => reportedPairs cfg moved (pairsNow cfg db moved memo.owedPairs)
  | _ => reportedPairs cfg [] memo.owedPairs

structure WatchedPass where
  cfg : PassConfig
  point : PassPoint
  lost : List (EventRow × String)
  reported : List OwedPair

structure LossState where
  world : World
  passes : ℕ → Option WatchedPass

inductive LossAction where
  | world (a : Action)
  | fail (p : ℕ)

def bucketFailure : Phase → Option (Option Phase)
  | .groupEvents g =>
    match g.todo with
    | [] => none
    | ev :: _ => if (g.cache.lookup (monthKey ev.emittedAt)).isSome then none else some none
  | .readMeta g latest => some (some (.statBucket g latest))
  | .statBucket g latest => some (some (.groupEvents (g.assign latest)))
  | .sealLatest g latest =>
    some ((nextSuffixedName latest (bucketPrefix g.month)).map (fun name => .groupEvents (g.assign name)))
  | .openBucket _ | .createEvents _ | .createMeta _ | .setCreatedAt _ | .setMinEventId _ | .setMaxEventId _
  | .insertBatch _ | .readRange _ | .writeRange _ _ _ => some none
  | _ => none

def WatchedPass.sweep (pass : WatchedPass) (env : StepEnv) (w w' : World) : WatchedPass where
  cfg := pass.cfg
  point := pass.point.next pass.cfg env w.bus w.archive
  lost := pass.lost ++ lostPairs w.bus w'.bus
  reported := match pass.point with
    | .running phase memo => endReport memo pass.cfg w.bus phase
    | .ended _ => pass.reported

def WatchedPass.fail (pass : WatchedPass) (next : Option Phase) : WatchedPass :=
  match pass.point, next with
  | .running _ memo, some phase => { pass with point := .running phase memo }
  | .running _ _, none => { pass with point := .ended .threw }
  | .ended _, _ => pass

def watchPasses (passes : ℕ → Option WatchedPass) (w w' : World) : Action → ℕ → Option WatchedPass
  | .bus _ => passes
  | .beginSweep p _ _ =>
    Function.update passes p ((w'.sweepers p).map (fun s => ⟨s.cfg,.begin,[],[]⟩))
  | .sweep p env => Function.update passes p ((passes p).map (fun pass => pass.sweep env w w'))
  | .crash p => Function.update passes p none

def LossState.step (t : LossState) : LossAction → Option LossState
  | .world a => (t.world.step a).map (fun w => ⟨w,watchPasses t.passes t.world w a⟩)
  | .fail p =>
    match t.world.sweepers p with
    | none => none
    | some s => (bucketFailure s.phase).map (fun next => {
        world := { t.world with sweepers := Function.update t.world.sweepers p (next.map (Sweeper.mk s.cfg)) }
        passes := Function.update t.passes p ((t.passes p).map (fun pass => pass.fail next)) })

def LossState.start (db : Db) (archive : Archive) : LossState := ⟨.start db archive,fun _ => none⟩

def named (pairs : List OwedPair) (x : EventRow × String) : Bool :=
  pairs.any (fun q => q.eventId = x.1.eventId ∧ q.cursorId = x.2)

def StepNamed (w : World) (env : StepEnv) (pass : WatchedPass) : Prop :=
  match pass.point with
  | .ended _ => True
  | .running phase memo =>
    (pass.cfg.policy = .retain ∨
      ∀ x ∈ lostPairs w.bus (sweeperStep env pass.cfg w.bus w.archive phase).bus, named memo.owedPairs x = true) ∧
    (pass.point.next pass.cfg env w.bus w.archive = .ended .threw → pass.lost = [])

def LossOk (t : LossState) : LossAction → Prop
  | .world (.sweep p env) => ∀ pass ∈ t.passes p, StepNamed t.world env pass
  | .fail p => ∀ s ∈ t.world.sweepers p, bucketFailure s.phase = some none → ∀ pass ∈ t.passes p, pass.lost = []
  | _ => True

instance (w : World) (env : StepEnv) (pass : WatchedPass) : Decidable (StepNamed w env pass) := by
  unfold StepNamed
  cases pass.point <;> infer_instance

instance : ∀ t a, Decidable (LossOk t a)
  | t, .world (.sweep p env) => inferInstanceAs (Decidable (∀ pass ∈ t.passes p, StepNamed t.world env pass))
  | t, .fail p => inferInstanceAs (Decidable (∀ s ∈ t.world.sweepers p, bucketFailure s.phase = some none →
      ∀ pass ∈ t.passes p, pass.lost = []))
  | _, .world (.bus _) | _, .world (.beginSweep _ _ _) | _, .world (.crash _) => .isTrue trivial

def Named (pass : WatchedPass) : Prop :=
  match pass.point with
  | .running phase memo =>
    (∀ ids, phase = .discardOwed ids → pass.cfg.policy = .discard) ∧
      (pass.lost = [] ∨ (phase.collecting = false ∧ pass.cfg.policy = .discard ∧
        ∀ x ∈ pass.lost, named memo.owedPairs x = true))
  | .ended .threw => pass.lost = []
  | .ended (.returned r) =>
    (∃ moved, LinesOf (passFate pass.cfg moved) pass.reported r.unacked.cursors) ∧
      ∀ x ∈ pass.lost, named pass.reported x = true

section Pairs

variable {db db' : Db} {cfg : PassConfig} {e : EventRow} {k : String} {x : EventRow × String}

theorem owesRow_iff : (∃ c ∈ db.cursors, owesRow db c e = true ∧ c.cursorId = k) ↔ Owes db k e := by
  simp only [owesRow,Bool.and_eq_true,Bool.or_eq_true,decide_eq_true_eq,Option.any_eq_true,
    List.any_eq_true,KeyedTable.mem_rows,KeyedTable.get?_eq_some,Owes]
  constructor
  · rintro ⟨c,hc,⟨hactive,⟨hlast,s,⟨hs,hsub⟩,hsactive,hmatch⟩ | ⟨d,hd,hdc,hde⟩⟩,rfl⟩
    · exact .inl ⟨c,hc,rfl,hactive,hlast,s,hs,hsub,hsactive,hmatch⟩
    · exact .inr ⟨d,hd,hdc,hde,c,hc,rfl,hactive⟩
  · rintro (⟨c,hc,rfl,hactive,hlast,s,hs,hsub,hsactive,hmatch⟩ | ⟨d,hd,hdc,hde,c,hc,rfl,hactive⟩)
    · exact ⟨c,hc,⟨hactive,.inl ⟨hlast,s,⟨hs,hsub⟩,hsactive,hmatch⟩⟩,rfl⟩
    · exact ⟨c,hc,⟨hactive,.inr ⟨d,hd,hdc,hde⟩⟩,rfl⟩

theorem mem_lostPairs : x ∈ lostPairs db db' ↔ x.1 ∈ goneRows db db' ∧ Owes db x.2 x.1 := by
  obtain ⟨e,k⟩ := x
  simp only [lostPairs,List.mem_flatMap,List.mem_map,List.mem_filter,KeyedTable.mem_rows,Prod.mk.injEq,
    ← owesRow_iff]
  constructor
  · rintro ⟨e,hgone,c,⟨hc,howes⟩,rfl,rfl⟩
    exact ⟨hgone,c,hc,howes,rfl⟩
  · rintro ⟨hgone,c,hc,howes,rfl⟩
    exact ⟨e,hgone,c,⟨hc,howes⟩,rfl,rfl⟩

theorem lostPairs_self (db : Db) : lostPairs db db = [] := by
  rw [List.eq_nil_iff_forall_not_mem]
  intro x hx
  obtain ⟨hlive,hgone⟩ := mem_goneRows.mp (mem_lostPairs.mp hx).1
  exact hgone x.1 hlive rfl

theorem named_mono {pairs pairs' : List OwedPair} (h : named pairs x = true) (hsub : ∀ q ∈ pairs, q ∈ pairs') :
    named pairs' x = true := by
  obtain ⟨q,hq,hx⟩ := List.any_eq_true.mp h
  exact List.any_eq_true.mpr ⟨q,hsub q hq,hx⟩

theorem named_reported {pairs : List OwedPair} {moved : List ℤ} (h : named pairs x = true)
    (hmoved : cfg.policy = .archive → x.1.eventId ∈ moved) : named (reportedPairs cfg moved pairs) x = true := by
  unfold reportedPairs
  split_ifs with hpolicy
  · obtain ⟨q,hq,hx⟩ := List.any_eq_true.mp h
    refine List.any_eq_true.mpr ⟨q,List.mem_filter.mpr ⟨hq,?_⟩,hx⟩
    rw [(of_decide_eq_true hx).1]
    exact decide_eq_true (hmoved hpolicy)
  · exact h

theorem deletable_overCap {moved : List ℤ} (hpolicy : cfg.policy = .retain) (he : e ∈ db.events)
    (hexp : e.expired cfg.now = true) (howes : Owes db k e)
    (hdel : e.eventId ∈ deletableIds db moved (retainOwed cfg)) : e.overCap cfg.now cfg.capDays = true := by
  rw [retainOwed,if_pos hpolicy] at hdel
  obtain ⟨hmoved,hfree⟩ := List.mem_filter.mp hdel
  by_contra hcap
  refine of_decide_eq_true hfree (List.mem_map.mpr ⟨⟨e.eventId,k,e.overCap cfg.now cfg.capDays⟩,?_,rfl⟩)
  refine List.mem_filter.mpr ⟨mem_owedPairs.mpr ⟨e,⟨he,hexp⟩,howes,rfl,rfl⟩,?_⟩
  simpa [hmoved] using hcap

theorem named_retain {moved : List ℤ} {pairs : List OwedPair} (hpolicy : cfg.policy = .retain)
    (he : x.1 ∈ db.events) (hexp : x.1.expired cfg.now = true) (howes : Owes db x.2 x.1)
    (hdel : x.1.eventId ∈ deletableIds db moved (retainOwed cfg)) :
    named (pairsNow cfg db moved pairs) x = true := by
  have hcap := deletable_overCap hpolicy he hexp howes hdel
  by_cases hknown : named pairs x = true
  · exact named_mono hknown fun q hq => List.mem_append_left _ hq
  · refine List.any_eq_true.mpr ⟨⟨x.1.eventId,x.2,x.1.overCap cfg.now cfg.capDays⟩,?_,by simp⟩
    refine List.mem_append_right _ (List.mem_filter.mpr ⟨?_,?_⟩)
    · rw [seenAtDelete,if_pos hpolicy]
      refine List.mem_filter.mpr ⟨mem_owedPairs.mpr ⟨x.1,⟨he,hexp⟩,howes,rfl,rfl⟩,?_⟩
      exact decide_eq_true (deletableIds_subset db moved _ _ hdel)
    · rw [Bool.and_eq_true,Bool.not_eq_true']
      exact ⟨hcap,Bool.eq_false_iff.mpr hknown⟩

end Pairs

section Sweep

variable {w w' : World} {env : StepEnv} {pass : WatchedPass} {phase : Phase} {memo : PassMemo}

theorem returned_lines {cfg : PassConfig} {db : Db} {r : TieredResult}
    (h : passEnd memo cfg db phase = .returned r) :
    ∃ moved, LinesOf (passFate cfg moved) (endReport memo cfg db phase) r.unacked.cursors := by
  cases phase with
  | selectCandidates held =>
    cases h
    exact ⟨[],report_lines _ _ _ _⟩
  | writeGroups groups moved =>
    cases h
    exact ⟨moved,report_lines _ _ _ _⟩
  | deleteLive moved =>
    cases h
    exact ⟨moved,report_lines _ _ _ _⟩
  | _ => cases h

theorem named_endReport {cfg : PassConfig} {db : Db} {x : EventRow × String} (h : named memo.owedPairs x = true)
    (hpolicy : cfg.policy ≠ .archive) : named (endReport memo cfg db phase) x = true := by
  have hkeep : ∀ moved pairs, (∀ q ∈ memo.owedPairs, q ∈ pairs) →
      named (reportedPairs cfg moved pairs) x = true := fun moved pairs hsub =>
    named_reported (named_mono h hsub) fun harchive => absurd harchive hpolicy
  cases phase with
  | deleteLive moved => exact hkeep moved _ fun q hq => List.mem_append_left _ hq
  | _ => exact hkeep _ _ fun q hq => hq

theorem deleteLive_named {moved : List ℤ} (hphase : phase = .deleteLive moved)
    (hbus : w'.bus = deleteFromLive w.bus moved (retainOwed pass.cfg))
    (hexp : ∀ e ∈ w.bus.events, e.eventId ∈ moved → e.expired pass.cfg.now = true)
    (hok : pass.cfg.policy = .retain ∨ ∀ x ∈ lostPairs w.bus w'.bus, named memo.owedPairs x = true) :
    ∀ x ∈ lostPairs w.bus w'.bus, named (endReport memo pass.cfg w.bus phase) x = true := by
  intro x hx
  subst hphase
  obtain ⟨hgone,howes⟩ := mem_lostPairs.mp hx
  obtain ⟨hlive,hdropped⟩ := mem_goneRows.mp hgone
  have hdel : x.1.eventId ∈ deletableIds w.bus moved (retainOwed pass.cfg) := by
    by_contra hkept
    exact hdropped x.1 (by rw [hbus]; exact mem_deleteFromLive.mpr ⟨hlive,hkept⟩) rfl
  have hmoved := deletableIds_subset w.bus moved _ _ hdel
  have hcovers : named (pairsNow pass.cfg w.bus moved memo.owedPairs) x = true := by
    rcases hok with hretain | hknown
    · exact named_retain hretain hlive (hexp x.1 hlive hmoved) howes hdel
    · exact named_mono (hknown x hx) fun q hq => List.mem_append_left _ hq
  exact named_reported hcovers fun _ => hmoved

theorem Named.sweep (h : Named pass) (hpoint : pass.point = .running phase memo) (hok : StepNamed w env pass)
    (hbus : w'.bus = (sweeperStep env pass.cfg w.bus w.archive phase).bus)
    (hexp : ∀ e ∈ w.bus.events, e.eventId ∈ phase.moved → e.expired pass.cfg.now = true) :
    Named (pass.sweep env w w') := by
  simp only [Named,hpoint] at h
  simp only [StepNamed,hpoint,← hbus,PassPoint.next] at hok
  obtain ⟨hdrop,hlost⟩ := h
  cases hnext : (sweeperStep env pass.cfg w.bus w.archive phase).next with
  | none =>
    simp only [hnext] at hok
    simp only [Named,WatchedPass.sweep,hpoint,PassPoint.next,hnext]
    have hnew : ∀ x ∈ lostPairs w.bus w'.bus, named (endReport memo pass.cfg w.bus phase) x = true := by
      rcases sweeperStep_bus env pass.cfg w.bus w.archive phase with hsame | ⟨ids,rfl,-⟩ | ⟨moved,rfl,hdel⟩
      · rw [hbus,hsame,lostPairs_self]
        exact fun x hx => absurd hx List.not_mem_nil
      · cases hnext
      · exact deleteLive_named rfl (hbus.trans hdel) hexp hok.1
    cases hend : passEnd memo pass.cfg w.bus phase with
    | threw =>
      rw [hend] at hok
      show pass.lost ++ _ = []
      rw [hok.2 rfl,List.nil_append]
      rcases sweeperStep_bus env pass.cfg w.bus w.archive phase with hsame | ⟨ids,rfl,-⟩ | ⟨moved,rfl,-⟩
      · rw [hbus,hsame,lostPairs_self]
      · cases hnext
      · cases hend
    | returned r =>
      refine ⟨returned_lines hend,fun x hx => ?_⟩
      rcases List.mem_append.mp hx with hx | hx
      · rcases hlost with hnil | ⟨-,hpolicy,hknown⟩
        · rw [hnil] at hx
          cases hx
        · exact named_endReport (hknown x hx) (by rw [hpolicy]; decide)
      · exact hnew x hx
  | some next =>
    simp only [Named,WatchedPass.sweep,hpoint,PassPoint.next,hnext]
    refine ⟨fun ids hids => (sweeperStep_discard (hids ▸ hnext)).1,?_⟩
    rcases sweeperStep_bus env pass.cfg w.bus w.archive phase with hsame | ⟨ids,rfl,-⟩ | ⟨moved,rfl,-⟩
    · rw [hbus,hsame,lostPairs_self,List.append_nil]
      refine hlost.imp_right fun h => ⟨collecting_step hnext h.1,h.2.1,fun x hx => ?_⟩
      rw [note_owedPairs memo w.bus h.1]
      exact h.2.2 x hx
    · right
      have hpolicy := hdrop ids rfl
      refine ⟨collecting_step hnext rfl,hpolicy,fun x hx => ?_⟩
      rw [note_owedPairs memo w.bus rfl]
      rcases List.mem_append.mp hx with hx | hx
      · rcases hlost with hnil | ⟨-,-,hknown⟩
        · rw [hnil] at hx
          cases hx
        · exact hknown x hx
      · exact hok.1.resolve_left (by rw [hpolicy]; decide) x hx
    · cases hnext

end Sweep

theorem bucketFailure_keeps {ph ph' : Phase} (h : bucketFailure ph = some (some ph')) :
    (∀ e ∈ ph'.held, e ∈ ph.held) ∧ ph'.moved = [] ∧ ph'.collecting = false ∧ ph.collecting = false ∧
      ∀ ids, ph' ≠ .discardOwed ids := by
  cases ph with
  | groupEvents g =>
    simp only [bucketFailure] at h
    (repeat' split at h) <;> cases h
  | readMeta g latest =>
    cases h
    exact ⟨fun e he => he,rfl,rfl,rfl,fun ids => by simp⟩
  | statBucket g latest =>
    cases h
    exact ⟨fun e he => Grouping.mem_rows_assign.mp he,rfl,rfl,rfl,fun ids => by simp⟩
  | sealLatest g latest =>
    obtain ⟨name,-,rfl⟩ := Option.map_eq_some_iff.mp (Option.some.inj h)
    exact ⟨fun e he => Grouping.mem_rows_assign.mp he,rfl,rfl,rfl,fun ids => by simp⟩
  | _ => cases h

theorem Provenance.fail {w : World} (h : Provenance w) {p : ℕ} {s : Sweeper} (hs : w.sweepers p = some s)
    {next : Option Phase} (hnext : bucketFailure s.phase = some next) :
    Provenance { w with sweepers := Function.update w.sweepers p (next.map (Sweeper.mk s.cfg)) } := by
  refine h.forget p s.cfg next ?_ ?_ subset_rfl rfl w.archive
  · rintro ph rfl e he
    exact h.held p s hs e ((bucketFailure_keeps hnext).1 e he)
  · rintro ph rfl i hi
    rw [(bucketFailure_keeps hnext).2.1] at hi
    cases hi

structure LossInvariant (t : LossState) : Prop where
  prov : Provenance t.world
  synced : ∀ p pass, t.passes p = some pass → ∀ phase memo, pass.point = .running phase memo →
    t.world.sweepers p = some ⟨pass.cfg,phase⟩
  rest : ∀ p pass, t.passes p = some pass → ∀ result, pass.point = .ended result → t.world.sweepers p = none
  named : ∀ p pass, t.passes p = some pass → Named pass

section System

variable {t t' : LossState}

theorem LossInvariant.start (db : Db) (archive : Archive) : LossInvariant (.start db archive) where
  prov := .start db archive
  synced p pass h := by cases h
  rest p pass h := by cases h
  named p pass h := by cases h

theorem LossInvariant.update (h : LossInvariant t) {w : World} (hprov : Provenance w) {p : ℕ}
    {sweeper : Option Sweeper} {next : Option WatchedPass}
    (hsweepers : w.sweepers = Function.update t.world.sweepers p sweeper)
    (hsynced : ∀ pass, next = some pass → ∀ phase memo, pass.point = .running phase memo →
      sweeper = some ⟨pass.cfg,phase⟩)
    (hrest : ∀ pass, next = some pass → ∀ result, pass.point = .ended result → sweeper = none)
    (hnamed : ∀ pass, next = some pass → Named pass) :
    LossInvariant ⟨w,Function.update t.passes p next⟩ := by
  refine ⟨hprov,fun q pass hq => ?_,fun q pass hq => ?_,fun q pass hq => ?_⟩
  · rcases update_eq_some hq with ⟨rfl,hnext⟩ | ⟨hne,hold⟩
    · rw [hsweepers,Function.update_self]
      exact hsynced pass hnext
    · rw [hsweepers,Function.update_of_ne hne]
      exact h.synced q pass hold
  · rcases update_eq_some hq with ⟨rfl,hnext⟩ | ⟨hne,hold⟩
    · rw [hsweepers,Function.update_self]
      exact hrest pass hnext
    · rw [hsweepers,Function.update_of_ne hne]
      exact h.rest q pass hold
  · rcases update_eq_some hq with ⟨rfl,hnext⟩ | ⟨-,hold⟩
    · exact hnamed pass hnext
    · exact h.named q pass hold

theorem LossInvariant.watches (h : LossInvariant t) {p : ℕ} {s : Sweeper} (hs : t.world.sweepers p = some s)
    {pass : WatchedPass} (hpass : t.passes p = some pass) :
    pass.cfg = s.cfg ∧ ∃ memo, pass.point = .running s.phase memo := by
  cases hpoint : pass.point with
  | ended result =>
    have hnone := h.rest p pass hpass result hpoint
    rw [hs] at hnone
    cases hnone
  | running phase memo =>
    have hsync := h.synced p pass hpass phase memo hpoint
    rw [hs] at hsync
    cases hsync
    exact ⟨rfl,memo,rfl⟩

theorem LossInvariant.fail (h : LossInvariant t) {p : ℕ} (hok : LossOk t (.fail p))
    (hstep : t.step (.fail p) = some t') : LossInvariant t' := by
  simp only [LossState.step] at hstep
  split at hstep
  · cases hstep
  · rename_i s hs
    obtain ⟨next,hnext,rfl⟩ := Option.map_eq_some_iff.mp hstep
    have hprov := h.prov.fail hs hnext
    have hpass : ∀ pass, (t.passes p).map (fun pass => pass.fail next) = some pass →
        ∃ old memo, t.passes p = some old ∧ old.cfg = s.cfg ∧ old.point = .running s.phase memo ∧
          pass = old.fail next := by
      intro pass hmap
      obtain ⟨old,hold,rfl⟩ := Option.map_eq_some_iff.mp hmap
      obtain ⟨hcfg,memo,hpoint⟩ := h.watches hs hold
      exact ⟨old,memo,hold,hcfg,hpoint,rfl⟩
    refine h.update hprov rfl ?_ ?_ ?_
    · intro pass hmap phase memo hrun
      obtain ⟨old,m,-,hcfg,hpoint,rfl⟩ := hpass pass hmap
      cases next with
      | none =>
        simp only [WatchedPass.fail,hpoint] at hrun
        cases hrun
      | some ph =>
        simp only [WatchedPass.fail,hpoint] at hrun ⊢
        cases hrun
        rw [hcfg]
        rfl
    · intro pass hmap result hend
      obtain ⟨old,m,-,hcfg,hpoint,rfl⟩ := hpass pass hmap
      cases next with
      | none => rfl
      | some ph =>
        simp only [WatchedPass.fail,hpoint] at hend
        cases hend
    · intro pass hmap
      obtain ⟨old,m,hold,hcfg,hpoint,rfl⟩ := hpass pass hmap
      have hnamed := h.named p old hold
      cases next with
      | none =>
        simp only [Named,WatchedPass.fail,hpoint]
        exact hok s hs hnext old hold
      | some ph =>
        obtain ⟨-,-,hcol,hearly,hkeeps⟩ := bucketFailure_keeps hnext
        simp only [Named,hpoint] at hnamed
        simp only [Named,WatchedPass.fail,hpoint]
        refine ⟨fun ids hids => absurd hids (hkeeps ids),hnamed.2.imp_right fun hknown => ?_⟩
        exact ⟨hcol,hknown.2⟩

theorem LossInvariant.step (h : LossInvariant t) {a : LossAction} (hok : LossOk t a)
    (hstep : t.step a = some t') : LossInvariant t' := by
  cases a with
  | fail p => exact h.fail hok hstep
  | world a =>
    obtain ⟨w,hw,rfl⟩ := Option.map_eq_some_iff.mp hstep
    have hprov := h.prov.step hw
    cases a with
    | bus op =>
      obtain ⟨db,-,rfl⟩ := Option.map_eq_some_iff.mp hw
      exact ⟨hprov,h.synced,h.rest,h.named⟩
    | beginSweep p config clock =>
      simp only [World.step] at hw
      split at hw <;> cases hw
      refine h.update hprov rfl ?_ ?_ ?_
      · intro pass hmap phase memo hrun
        simp only [Function.update_self,Option.map_some,Option.some.injEq] at hmap
        subst hmap
        cases hrun
        rfl
      · intro pass hmap result hend
        simp only [Function.update_self,Option.map_some,Option.some.injEq] at hmap
        subst hmap
        cases hend
      · intro pass hmap
        simp only [Function.update_self,Option.map_some,Option.some.injEq] at hmap
        subst hmap
        exact ⟨fun ids hids => (by cases hids),.inl rfl⟩
    | sweep p env =>
      simp only [World.step] at hw
      split at hw <;> cases hw
      rename_i s hs
      refine h.update hprov rfl ?_ ?_ ?_
      · intro pass hmap phase memo hrun
        obtain ⟨old,hold,rfl⟩ := Option.map_eq_some_iff.mp hmap
        obtain ⟨hcfg,m,hpoint⟩ := h.watches hs hold
        simp only [WatchedPass.sweep,hpoint,hcfg,PassPoint.next] at hrun ⊢
        split at hrun <;> cases hrun
        rename_i hnext
        rw [hnext]
        rfl
      · intro pass hmap result hend
        obtain ⟨old,hold,rfl⟩ := Option.map_eq_some_iff.mp hmap
        obtain ⟨hcfg,m,hpoint⟩ := h.watches hs hold
        simp only [WatchedPass.sweep,hpoint,hcfg,PassPoint.next] at hend
        split at hend <;> cases hend
        rename_i hnext
        rw [hnext]
        rfl
      · intro pass hmap
        obtain ⟨old,hold,rfl⟩ := Option.map_eq_some_iff.mp hmap
        obtain ⟨hcfg,m,hpoint⟩ := h.watches hs hold
        refine (h.named p old hold).sweep hpoint (hok old hold) (by rw [hcfg]) fun e he hi => ?_
        rw [hcfg]
        exact h.prov.moved_expired hs he hi
    | crash p =>
      cases hw
      exact h.update hprov rfl (fun pass hmap => by cases hmap) (fun pass hmap => by cases hmap)
        (fun pass hmap => by cases hmap)

end System

theorem loss_is_named {db : Db} {archive : Archive} {as : List LossAction} {t : LossState}
    (hrun : Run LossState.step LossOk (.start db archive) as t) {p : ℕ} {pass : WatchedPass}
    (hpass : t.passes p = some pass) {result : PassEnd} (hend : pass.point = .ended result) {e : EventRow}
    {cursorId : String} (hlost : (e,cursorId) ∈ pass.lost) :
    ∃ r, result = .returned r ∧
      (∃ moved, LinesOf (passFate pass.cfg moved) pass.reported r.unacked.cursors) ∧
      ∃ q ∈ pass.reported, q.eventId = e.eventId ∧ q.cursorId = cursorId := by
  have h : LossInvariant t :=
    hrun.invariant (fun _ _ _ (ht : LossInvariant _) hok hs => ht.step hok hs) (.start db archive)
  have hnamed := h.named p pass hpass
  simp only [Named,hend] at hnamed
  cases result with
  | threw =>
    rw [show pass.lost = [] from hnamed] at hlost
    cases hlost
  | returned r =>
    obtain ⟨hlines,hall⟩ := hnamed
    obtain ⟨q,hq,hx⟩ := List.any_eq_true.mp (hall _ hlost)
    exact ⟨r,rfl,hlines,q,hq,of_decide_eq_true hx⟩

def discardOwedEvent : List Action :=
  registeredWorld ++ [.bus (.emit expiredSample "u"),.beginSweep 0 discardConfig 0] ++
    List.replicate 7 (.sweep 0 sampleEnv)

theorem loss_is_named_discard :
    ∃ t pass r, Run LossState.step LossOk (.start .empty .empty) (discardOwedEvent.map .world) t ∧
      t.passes 0 = some pass ∧ (expiredSample.row 1,"c1") ∈ pass.lost ∧ pass.point = .ended (.returned r) ∧
      ∃ q ∈ pass.reported, q.eventId = 1 ∧ q.cursorId = "c1" := by
  have hexec : (exec (guarded LossOk LossState.step) (.start .empty .empty)
      (discardOwedEvent.map .world)).any (fun t =>
      (t.passes 0).any (fun pass => decide ((expiredSample.row 1,"c1") ∈ pass.lost) &&
        pass.point.result.isSome)) = true := by decide +kernel
  obtain ⟨t,ht,hobs⟩ := (Option.any_eq_true _ _).mp hexec
  obtain ⟨pass,hpass,hobs⟩ := (Option.any_eq_true _ _).mp hobs
  simp only [Bool.and_eq_true,decide_eq_true_eq] at hobs
  obtain ⟨r,hr⟩ := Option.isSome_iff_exists.mp hobs.2
  have hrun := run_of_guarded ht
  obtain ⟨-,-,-,hcounted⟩ := loss_is_named hrun hpass (point_ended hr) hobs.1
  exact ⟨t,pass,r,hrun,hpass,hobs.1,point_ended hr,hcounted⟩

def archiveConfig : SweepConfig := ⟨some "archive",none,false,some 3000,none,none⟩

def registerDuringPass : List Action :=
  [.bus (.emit expiredSample "u"),.beginSweep 0 archiveConfig 0] ++ List.replicate 8 (.sweep 0 sampleEnv) ++
    registeredWorld ++ List.replicate 11 (.sweep 0 sampleEnv)

theorem loss_is_unnamed :
    ∃ t pass r, Run LossState.step (fun _ _ => True) (.start .empty .empty)
        (registerDuringPass.map .world) t ∧
      t.passes 0 = some pass ∧ (expiredSample.row 1,"c1") ∈ pass.lost ∧ pass.point = .ended (.returned r) ∧
      r.unacked.cursors = [] ∧ r.unacked.counts = [(.archived,0)] := by
  have hexec : (exec LossState.step (.start .empty .empty) (registerDuringPass.map .world)).any (fun t =>
      (t.passes 0).any (fun pass => decide ((expiredSample.row 1,"c1") ∈ pass.lost) &&
        pass.point.result.any (fun r => decide (r.unacked.cursors = []) &&
          decide (r.unacked.counts = [(.archived,0)])))) = true := by decide +kernel
  obtain ⟨t,ht,hobs⟩ := (Option.any_eq_true _ _).mp hexec
  obtain ⟨pass,hpass,hobs⟩ := (Option.any_eq_true _ _).mp hobs
  simp only [Bool.and_eq_true,decide_eq_true_eq] at hobs
  obtain ⟨r,hr,hreport⟩ := (Option.any_eq_true _ _).mp hobs.2
  simp only [Bool.and_eq_true,decide_eq_true_eq] at hreport
  exact ⟨t,pass,r,run_of_exec ht,hpass,hobs.1,point_ended hr,hreport.1,hreport.2⟩

end WickedBus
