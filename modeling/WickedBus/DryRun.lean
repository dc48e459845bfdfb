import WickedBus.AtLeastOnce
import WickedBus.Report

namespace WickedBus

open GuardedRun

inductive Changed where
  | eventsDeleted (count : ℤ)
  | eventsMoved (count : ℤ)
  deriving DecidableEq

structure CleanupResult where
  changed : Changed
  unackedPolicy : UnackedPolicy
  unacked : UnackedReport
  deriving DecidableEq

def dryVerb (policy : UnackedPolicy) (tiered : Bool) : Disposition :=
  if policy = .retain then .retained
  else if policy = .archive ∨ tiered = true then .archived
  else .discarded

def dryMoved (db : Db) (now : ℤ) (batch : ℕ) (held : List ℤ) : List ℤ :=
  ((((db.events.rows.filter (EventRow.expired now)).take (batch + held.length)).map EventRow.eventId).filter
    (fun i => decide (i ∉ held))).take batch

def dryFate (policy : UnackedPolicy) (tiered : Bool) (moved : Option (List ℤ)) (p : OwedPair) : Fate :=
  if ¬ (policy = .retain ∧ p.overCap = true) then ⟨dryVerb policy tiered,.unackedPolicy⟩
  else if moved.any (fun ids => decide (p.eventId ∉ ids)) then ⟨.retained,.retentionCapPending⟩
  else ⟨.archived,.retentionCap⟩

def dryRun (db : Db) (config : SweepConfig) (tiered : Bool) (now : ℤ) : Except BusError CleanupResult := do
  let policy ← resolveUnackedPolicy config
  let capDays ← resolveRetentionCapDays config
  let pairs := owedPairsWithCap db now capDays (collectOwedExpired db now)
  let held := heldIds policy pairs
  let expired := (db.events.rows.filter (EventRow.expired now)).length
  let moved := if tiered then some (dryMoved db now (config.sweepBatchSize.getD defaultBatchSize) held) else none
  pure {
    changed := match moved with
      | some ids => .eventsMoved ids.length
      | none => .eventsDeleted ((expired : ℤ) - held.length)
    unackedPolicy := policy
    unacked := buildUnackedReport pairs (dryFate policy tiered moved) policy capDays }

def SweepResult.cleanup (r : SweepResult) : CleanupResult := ⟨.eventsDeleted r.eventsDeleted,r.unackedPolicy,r.unacked⟩

def TieredResult.cleanup (r : TieredResult) : CleanupResult := ⟨.eventsMoved r.eventsMoved,r.unackedPolicy,r.unacked⟩

def PassEnd.cleanup : PassEnd → Option CleanupResult
  | .returned result => some result.cleanup
  | .threw => none

inductive RealPass (db : Db) (archive : Archive) (config : SweepConfig) (clock : ℤ) (env : ℕ → StepEnv) :
    Bool → Option CleanupResult → Prop
  | inDatabase {db' : Db} {r : SweepResult} (h : runSweep db config clock = .ok (db',r)) :
    RealPass db archive config clock env false (some r.cleanup)
  | tiered {cfg : PassConfig} {n : ℕ} {result : PassEnd} (hcfg : passConfig config clock = .ok cfg)
    (h : (Pass.after cfg env ⟨.begin,db,archive⟩ n).point = .ended result) :
    RealPass db archive config clock env true result.cleanup

def firstBatch (db : Db) (now : ℤ) (batch : ℕ) : List EventRow :=
  (db.events.rows.filter (EventRow.expired now)).take batch

def DryRunOk (db : Db) (cfg : PassConfig) : Bool → Prop
  | false => True
  | true =>
    match cfg.policy with
    | .retain => True
    | .archive => ∀ e ∈ owedEvents db cfg.now, e ∈ firstBatch db cfg.now cfg.batchSize
    | .discard => owedEvents db cfg.now = ∅

def Phase.batch (ph : Phase) : List ℤ := ph.pending.map EventRow.eventId ++ ph.copied

def Phase.selected : Phase → Bool
  | .collectCursors | .collectOwed _ _ | .collectAttempts _ | .readPairs _ | .discardOwed _
  | .selectCandidates _ => false
  | _ => true

def Drops (db : Db) (cfg : PassConfig) : Prop := cfg.policy = .discard ∧ owedPairsNow cfg db ≠ []

def batchIds (db : Db) (cfg : PassConfig) : List ℤ := (candidates db cfg (owedNow db cfg)).map EventRow.eventId

structure Undisturbed (db : Db) (cfg : PassConfig) (bus : Db) (ph : Phase) : Prop where
  bus : bus = db
  onTrack : OnTrack db cfg ph
  keeps : ∀ ids, ph ≠ .discardOwed ids
  batch : ph.selected = true → ph.batch.Perm (batchIds db cfg)

def Alone (db : Db) (cfg : PassConfig) (t : Pass) : Prop :=
  match t.point with
  | .running ph memo =>
    if ph.collecting then t.bus = db ∧ OnTrack db cfg ph
    else memo.owedPairs = owedPairsNow cfg db ∧ (Drops db cfg ∨ Undisturbed db cfg t.bus ph)
  | .ended (.returned r) => ∃ moved, r.unackedPolicy = cfg.policy ∧ r.eventsMoved = moved.length ∧
      r.unacked = reportFor cfg moved (owedPairsNow cfg db) ∧
      (Drops db cfg ∨ moved.Perm (batchIds db cfg))
  | .ended .threw => True

section Alone

variable {env : StepEnv} {cfg : PassConfig} {db bus : Db} {archive : Archive} {ph ph' : Phase}

theorem keeps_step {ids : List ℤ} (h : (sweeperStep env cfg db archive ph).next = some ph')
    (hph : ph.collecting = false) : ph' ≠ .discardOwed ids := by
  rintro rfl
  obtain ⟨-,owed,rfl,-⟩ := sweeperStep_discard h
  cases hph

theorem batch_select {held : List ℤ}
    (h : (sweeperStep env cfg db archive (.selectCandidates held)).next = some ph') :
    ph'.batch = (candidates db cfg held).map EventRow.eventId := by
  simp only [sweeperStep] at h
  split at h
  · cases h
  · rename_i ev rest hc
    cases h
    simp [Phase.batch,Phase.pending,Phase.held,Grouping.rows,rowsOf,Phase.copied,Phase.moved,Phase.copying,hc]

theorem batch_insert (w : Writing) : (Phase.readRange w).batch.Perm (Phase.insertBatch w).batch := by
  simp only [Phase.batch,Phase.pending,Phase.held,Writing.rows,Phase.copied,Phase.moved,Phase.copying,
    Option.map_some,Option.getD_some,Option.map_none,Option.getD_none,List.map_append,List.append_nil]
  rw [← List.append_assoc,List.append_assoc (w.events.map EventRow.eventId)]
  exact List.perm_append_comm

theorem batch_step (h : (sweeperStep env cfg db archive ph).next = some ph') (hlocked : env.locked = false)
    (hph : ph.selected = true) : ph'.batch.Perm ph.batch := by
  rcases sweeperStep_pending h with ⟨held,rfl,-⟩ | ⟨w,rfl,rfl⟩ | ⟨hpending,hcopied⟩
  · cases hph
  · exact batch_insert w
  · have hperm : ph'.pending.Perm ph.pending := by
      rcases hpending with hperm | ⟨hlock,-⟩
      · exact hperm
      · exact absurd (hlocked.symm.trans hlock) (by decide)
    unfold Phase.batch
    rw [hcopied]
    exact (hperm.map _).append_right _

theorem selected_step (h : (sweeperStep env cfg db archive ph).next = some ph')
    (hph : ph'.selected = true) : ph.selected = true ∨ ∃ held, ph = .selectCandidates held := by
  cases ph with
  | collectCursors | collectAttempts owed | discardOwed ids =>
    cases h
    cases hph
  | collectOwed cursors owed => cases cursors <;> cases h <;> cases hph
  | readPairs owed =>
    simp only [sweeperStep] at h
    split at h <;> cases h <;> cases hph
  | selectCandidates held => exact .inr ⟨held,rfl⟩
  | _ => exact .inl rfl

theorem pairsNow_known {pairs : List OwedPair} (moved : List ℤ)
    (h : cfg.policy = .retain → ∀ p ∈ owedPairsNow cfg db, knownPair pairs p = true) :
    pairsNow cfg db moved pairs = pairs := by
  unfold pairsNow seenAtDelete
  split_ifs with hpolicy
  · rw [List.filter_eq_nil_iff.mpr,List.append_nil]
    intro p hp
    simp [h hpolicy p (List.mem_filter.mp hp).1]
  · exact List.append_nil pairs

theorem Undisturbed.step (h : Undisturbed db cfg bus ph)
    (hnext : (sweeperStep env cfg bus archive ph).next = some ph') (hlocked : env.locked = false)
    (hph : ph.collecting = false) : Undisturbed db cfg (sweeperStep env cfg bus archive ph).bus ph' := by
  obtain rfl := h.bus
  have hkeeps : ∀ ids, ph' ≠ .discardOwed ids := fun ids => keeps_step hnext hph
  refine ⟨?_,sweeperStep_onTrack hnext hkeeps h.keeps h.onTrack,hkeeps,fun hsel => ?_⟩
  · rcases sweeperStep_bus env cfg bus archive ph with hbus | ⟨ids,hdrop,-⟩ | ⟨moved,rfl,-⟩
    · exact hbus
    · exact absurd hdrop (h.keeps ids)
    · cases hnext
  · rcases selected_step hnext hsel with hold | ⟨held,rfl⟩
    · exact (batch_step hnext hlocked hold).trans (h.batch hold)
    · rw [batch_select hnext,show held = owedNow bus cfg from h.onTrack]
      exact .refl _

theorem passEnd_alone {memo : PassMemo} {r : TieredResult} (hmemo : memo.owedPairs = owedPairsNow cfg db)
    (hcase : Drops db cfg ∨ Undisturbed db cfg bus ph)
    (hnext : (sweeperStep env cfg bus archive ph).next = none)
    (hend : passEnd memo cfg bus ph = .returned r) :
    ∃ moved, r.unackedPolicy = cfg.policy ∧ r.eventsMoved = moved.length ∧
      r.unacked = reportFor cfg moved (owedPairsNow cfg db) ∧
      (Drops db cfg ∨ moved.Perm (batchIds db cfg)) := by
  have hpairs : ∀ moved, pairsNow cfg bus moved memo.owedPairs = owedPairsNow cfg db := by
    intro moved
    rw [hmemo]
    refine pairsNow_known moved fun hretain p hp => ?_
    rcases hcase with ⟨hdiscard,-⟩ | hsame
    · exact absurd (hretain.symm.trans hdiscard) (by decide)
    · exact knownPair_self (hsame.bus ▸ hp)
  cases ph with
  | selectCandidates held =>
    cases hend
    refine ⟨[],rfl,rfl,by rw [← hmemo]; rfl,hcase.imp_right fun hsame => ?_⟩
    have hnone : candidates bus cfg held = [] := by
      simp only [sweeperStep] at hnext
      split at hnext
      · assumption
      · cases hnext
    rw [show held = owedNow db cfg from hsame.onTrack,hsame.bus] at hnone
    rw [batchIds,hnone]
    exact .refl _
  | writeGroups groups moved =>
    cases hend
    refine ⟨moved,rfl,rfl,by rw [← hmemo]; rfl,hcase.imp_right fun hsame => ?_⟩
    have hbatch := hsame.batch rfl
    rcases groups with _ | ⟨⟨name,events⟩,rest⟩
    · simpa [Phase.batch,Phase.pending,Phase.held,rowsOf,Phase.copied,Phase.moved,Phase.copying] using hbatch
    · simp only [sweeperStep] at hnext
      (repeat' split at hnext) <;> cases hnext
  | deleteLive moved =>
    cases hend
    refine ⟨moved,rfl,rfl,congrArg (reportFor cfg moved) (hpairs moved),hcase.imp_right fun hsame => ?_⟩
    have hbatch := hsame.batch rfl
    simpa [Phase.batch,Phase.pending,Phase.held,Phase.copied,Phase.moved,Phase.copying] using hbatch
  | _ => cases hend

theorem Alone.step {t : Pass} (h : Alone db cfg t) (hlocked : env.locked = false) :
    Alone db cfg (t.step cfg env) := by
  obtain ⟨point,bus,archive⟩ := t
  cases point with
  | ended result => exact h
  | running ph memo =>
    simp only [Alone] at h
    split_ifs at h with hcol
    · obtain ⟨rfl,htrack⟩ := h
      cases ph with
      | collectCursors => exact ⟨rfl,rfl⟩
      | collectOwed cursors owed => cases cursors <;> exact ⟨rfl,htrack⟩
      | collectAttempts owed => exact ⟨rfl,htrack⟩
      | readPairs owed =>
        obtain rfl := htrack
        by_cases hdrop : cfg.policy = .discard ∧ idsOf (owedPairsNow cfg bus) ≠ []
        · have hnext : (sweeperStep env cfg bus archive (.readPairs (collectOwedExpired bus cfg.now))).next =
              some (.discardOwed (idsOf (owedPairsNow cfg bus))) := congrArg StepResult.next (if_pos hdrop)
          simp only [Alone,Pass.step,PassPoint.next,hnext]
          exact ⟨rfl,.inl ⟨hdrop.1,fun hnil => hdrop.2 (by rw [hnil]; rfl)⟩⟩
        · have hnext : (sweeperStep env cfg bus archive (.readPairs (collectOwedExpired bus cfg.now))).next =
              some (.selectCandidates (owedNow bus cfg)) := congrArg StepResult.next (if_neg hdrop)
          have hbus : (sweeperStep env cfg bus archive (.readPairs (collectOwedExpired bus cfg.now))).bus =
              bus := (congrArg StepResult.bus (if_neg hdrop)).trans rfl
          simp only [Alone,Pass.step,PassPoint.next,hnext]
          exact ⟨rfl,.inr ⟨hbus,rfl,fun _ => by simp,fun hsel => by cases hsel⟩⟩
      | _ => cases hcol
    · obtain ⟨hmemo,hcase⟩ := h
      have hph : ph.collecting = false := by simpa using hcol
      cases hnext : (sweeperStep env cfg bus archive ph).next with
      | none =>
        simp only [Alone,Pass.step,PassPoint.next,hnext]
        cases hend : passEnd memo cfg bus ph with
        | threw => trivial
        | returned r => exact passEnd_alone hmemo hcase hnext hend
      | some next =>
        simp only [Alone,Pass.step,PassPoint.next,hnext,collecting_step hnext hph]
        exact ⟨(note_owedPairs memo bus hph).trans hmemo,
          hcase.imp_right fun hsame => hsame.step hnext hlocked hph⟩

theorem Alone.after {t : Pass} (h : Alone db cfg t) {env : ℕ → StepEnv} (hlocked : ∀ n, (env n).locked = false)
    (n : ℕ) : Alone db cfg (t.after cfg env n) := by
  induction n with
  | zero => exact h
  | succ n ih => exact ih.step (hlocked n)

theorem alone_begin (db : Db) (archive : Archive) : Alone db cfg ⟨.begin,db,archive⟩ := ⟨rfl,trivial⟩

end Alone

section Agreement

variable {db : Db} {cfg : PassConfig} {config : SweepConfig}

theorem dryMoved_eq (db : Db) (cfg : PassConfig) (held : List ℤ) :
    dryMoved db cfg.now cfg.batchSize held = (candidates db cfg held).map EventRow.eventId := by
  simp only [dryMoved,candidates,List.map_take]
  rw [← List.map_take,List.filter_map]
  rfl

theorem dryFate_retain {moved batch : List ℤ} (hperm : moved.Perm batch) (p : OwedPair)
    (hpolicy : cfg.policy = .retain) :
    passFate cfg moved p = dryFate cfg.policy true (some batch) p := by
  simp only [passFate,dryFate,hpolicy,true_and,dryVerb,if_true,Option.any_some,decide_eq_true_eq,hperm.mem_iff]
  cases p.overCap <;> by_cases hmem : p.eventId ∈ batch <;> simp [hmem]

theorem dryFate_inDatabase (policy : UnackedPolicy) (p : OwedPair) :
    dryFate policy false none p = sweepFate policy p := by
  unfold dryFate sweepFate
  by_cases hcap : policy = .retain ∧ p.overCap = true
  · simp [hcap]
  · rw [if_pos hcap,if_neg hcap]
    cases policy <;> rfl

theorem owedIds_iff {P : ℤ → Prop} : (∀ p ∈ owedPairsNow cfg db, P p.eventId) ↔
    ∀ e ∈ owedEvents db cfg.now, P e.eventId := by
  simp only [owedPairsNow,mem_owedPairs]
  constructor
  · rintro h e ⟨hexp,cursorId,howes⟩
    exact h ⟨e.eventId,cursorId,e.overCap cfg.now cfg.capDays⟩ ⟨e,hexp,howes,rfl,rfl⟩
  · rintro h p ⟨e,hexp,howes,hid,-⟩
    exact hid ▸ h e ⟨hexp,p.cursorId,howes⟩

theorem owedPairsNow_nil : owedPairsNow cfg db = [] ↔ owedEvents db cfg.now = ∅ := by
  rw [List.eq_nil_iff_forall_not_mem,Set.eq_empty_iff_forall_notMem]
  exact @owedIds_iff db cfg (fun _ => False)

theorem report_filter_ne {fateOf : OwedPair → Fate} {policy : UnackedPolicy} {capDays : ℚ}
    {pairs : List OwedPair} {kept : OwedPair → Bool}
    (h : buildUnackedReport pairs fateOf policy capDays =
      buildUnackedReport (pairs.filter kept) fateOf policy capDays) : ∀ p ∈ pairs, kept p = true := by
  intro p hp
  by_contra hdropped
  have hall := report_lines pairs fateOf policy capDays
  have hsome := report_lines (pairs.filter kept) fateOf policy capDays
  rw [← h] at hsome
  obtain ⟨l,hl,hcovers⟩ := hall.complete p hp
  have hcount := (hall.describes l hl).count.symm.trans (hsome.describes l hl).count
  rw [List.countP_eq_length_filter,List.countP_eq_length_filter,List.filter_comm] at hcount
  exact hdropped (List.length_filter_eq_length_iff.mp hcount.symm p (List.mem_filter.mpr ⟨hp,hcovers⟩))

theorem report_fate_eq {f g : OwedPair → Fate} {policy : UnackedPolicy} {capDays : ℚ} {pairs : List OwedPair}
    (h : buildUnackedReport pairs f policy capDays = buildUnackedReport pairs g policy capDays)
    {p : OwedPair} (hp : p ∈ pairs) : ∃ q ∈ pairs, q.cursorId = p.cursorId ∧ f p = g q := by
  have hf := report_lines pairs f policy capDays
  have hg := report_lines pairs g policy capDays
  rw [← h] at hg
  obtain ⟨l,hl,hcovers⟩ := hf.complete p hp
  obtain ⟨q,hq,hqcovers,-⟩ := (hg.describes l hl).oldest
  simp only [ReportLine.covers_iff] at hcovers hqcovers
  exact ⟨q,hq,hqcovers.1.symm.trans hcovers.1,hcovers.2.symm.trans hqcovers.2⟩

theorem candidates_nil (db : Db) (cfg : PassConfig) :
    candidates db cfg [] = firstBatch db cfg.now cfg.batchSize := by
  simp [candidates,firstBatch,List.take_take]

theorem mem_firstBatch {e : EventRow} (he : e ∈ db.events) :
    e.eventId ∈ (firstBatch db cfg.now cfg.batchSize).map EventRow.eventId ↔
      e ∈ firstBatch db cfg.now cfg.batchSize := by
  constructor
  · intro h
    obtain ⟨x,hx,hid⟩ := List.mem_map.mp h
    have hlive : x ∈ db.events := (List.mem_filter.mp (List.mem_of_mem_take hx)).1
    exact KeyedTable.eq_of_key hlive he hid ▸ hx
  · exact fun h => List.mem_map_of_mem h

theorem mem_heldIds {policy : UnackedPolicy} {now : ℤ} {capDays : ℚ} {e : EventRow} (he : e ∈ db.events) :
    e.eventId ∈ heldIds policy (owedPairsWithCap db now capDays (collectOwedExpired db now)) ↔
      policy = .retain ∧ e ∈ owedEvents db now \ overCapEvents now capDays := by
  unfold heldIds
  split_ifs with hp
  · simp only [idsOf,List.mem_eraseDups,List.mem_map,List.mem_filter,mem_owedPairs,hp,true_and]
    constructor
    · rintro ⟨p,⟨⟨r,hr,hown,hrk,hcap⟩,hover⟩,hpk⟩
      obtain rfl := KeyedTable.eq_of_key hr.1 he (hrk.trans hpk)
      refine ⟨⟨hr,p.cursorId,hown⟩,fun hover' => ?_⟩
      rw [hcap,show r.overCap now capDays = true from hover'] at hover
      cases hover
    · rintro ⟨⟨hexp,cursorId,hown⟩,hover⟩
      refine ⟨⟨e.eventId,cursorId,e.overCap now capDays⟩,⟨⟨e,hexp,hown,rfl,rfl⟩,?_⟩,rfl⟩
      exact Bool.not_eq_true' _ ▸ Bool.eq_false_iff.mpr hover
  · simp [hp]

theorem nodup_eraseDups (l : List ℤ) : l.eraseDups.Nodup := by
  induction hlen : l.length using Nat.strong_induction_on generalizing l with
  | _ n ih =>
    cases l with
    | nil => exact List.nodup_nil
    | cons a l =>
      rw [List.eraseDups_cons]
      refine List.nodup_cons.mpr ⟨by simp,ih _ ?_ _ rfl⟩
      rw [← hlen]
      exact Nat.lt_succ_of_le (List.length_filter_le _ _)

theorem nodup_heldIds (policy : UnackedPolicy) (pairs : List OwedPair) : (heldIds policy pairs).Nodup := by
  unfold heldIds
  split_ifs
  · exact nodup_eraseDups _
  · exact List.nodup_nil

theorem heldIds_live {policy : UnackedPolicy} {now : ℤ} {capDays : ℚ} {i : ℤ}
    (h : i ∈ heldIds policy (owedPairsWithCap db now capDays (collectOwedExpired db now))) :
    ∃ e ∈ db.events, e.eventId = i := by
  unfold heldIds at h
  split_ifs at h
  · simp only [idsOf,List.mem_eraseDups,List.mem_map,List.mem_filter,mem_owedPairs] at h
    obtain ⟨p,⟨⟨e,he,-,hid,-⟩,-⟩,rfl⟩ := h
    exact ⟨e,he.1,hid⟩
  · cases h

theorem swept_or_held {policy : UnackedPolicy} {now : ℤ} {capDays : ℚ} {e : EventRow} (he : e ∈ db.events) :
    (e.expired now = true ∧ e ∉ sweptEvents db now policy capDays) ↔
      policy = .retain ∧ e ∈ owedEvents db now \ overCapEvents now capDays := by
  cases policy with
  | retain =>
    simp only [sweptEvents,true_and]
    constructor
    · rintro ⟨hexp,hkept⟩
      by_contra hfree
      exact hkept ⟨⟨he,hexp⟩,hfree⟩
    · exact fun h => ⟨h.1.1.2,fun hswept => hswept.2 h⟩
  | archive => exact iff_of_false (fun h => h.2 ⟨he,h.1⟩) (fun h => by cases h.1)
  | discard => exact iff_of_false (fun h => h.2 ⟨he,h.1⟩) (fun h => by cases h.1)

theorem expired_count (db : Db) (now : ℤ) (policy : UnackedPolicy) (capDays : ℚ) (archiveMode : Bool) :
    (db.events.rows.filter (EventRow.expired now)).length =
      (sweepTransaction db now policy capDays archiveMode).2.eventsDeleted +
        (heldIds policy (owedPairsWithCap db now capDays (collectOwedExpired db now))).length := by
  have hdeleted : (sweepTransaction db now policy capDays archiveMode).2.eventsDeleted =
      (db.events.rows.filter (sweepDeletes policy now (collectOwedExpired db now)
        (cappedIds policy (owedPairsWithCap db now capDays (collectOwedExpired db now))))).length := by
    simp only [sweepTransaction]
    split_ifs <;> rfl
  set deletes := sweepDeletes policy now (collectOwedExpired db now)
    (cappedIds policy (owedPairsWithCap db now capDays (collectOwedExpired db now))) with hdeletes
  have hswept : ∀ e ∈ db.events, deletes e = true ↔ e ∈ sweptEvents db now policy capDays :=
    fun e he => sweepDeletes_iff he
  have hexpired : ∀ e ∈ sweptEvents db now policy capDays, e.expired now = true := by
    intro e he
    cases policy
    · exact he.1.2
    · exact he.2
    · exact he.2
  have hheld : (((db.events.rows.filter (EventRow.expired now)).filter (fun e => !deletes e)).map
      EventRow.eventId).Perm (heldIds policy (owedPairsWithCap db now capDays (collectOwedExpired db now))) := by
    have hsub := (List.filter_sublist (p := fun e => !deletes e)).trans
      (List.filter_sublist (l := db.events.rows) (p := EventRow.expired now))
    refine (List.perm_ext_iff_of_nodup ?_ (nodup_heldIds _ _)).mpr fun i => ?_
    · exact List.pairwise_map.mpr ((db.events.sorted.sublist hsub).imp ne_of_lt)
    · simp only [List.mem_map,List.mem_filter,KeyedTable.mem_rows,Bool.not_eq_true',and_assoc]
      constructor
      · rintro ⟨e,he,hexp,hkept,rfl⟩
        refine (mem_heldIds he).mpr ((swept_or_held he).mp ⟨hexp,fun hmem => ?_⟩)
        rw [(hswept e he).mpr hmem] at hkept
        cases hkept
      · intro hi
        obtain ⟨e,he,rfl⟩ := heldIds_live hi
        obtain ⟨hexp,hkept⟩ := (swept_or_held he).mpr ((mem_heldIds he).mp hi)
        exact ⟨e,he,hexp,Bool.eq_false_iff.mpr fun hdel => hkept ((hswept e he).mp hdel),rfl⟩
  rw [List.length_eq_length_filter_add deletes,hdeleted,← hheld.length_eq,List.length_map,List.filter_filter]
  congr 2
  refine List.filter_congr fun e he => ?_
  cases hdel : deletes e with
  | false => rfl
  | true => exact hexpired e ((hswept e (KeyedTable.mem_rows.mp he)).mp hdel)

theorem passConfig_fields {clock : ℤ} (h : passConfig config clock = .ok cfg) :
    cfg.now = config.now.getD clock ∧ cfg.batchSize = config.sweepBatchSize.getD defaultBatchSize := by
  obtain ⟨hpolicy,hcap⟩ := passConfig_ok h
  simp only [passConfig,hpolicy,hcap,bind,Except.bind,pure,Except.pure,Except.ok.injEq] at h
  rw [← h]
  exact ⟨rfl,rfl⟩

def dryMovedIds (db : Db) (cfg : PassConfig) (tiered : Bool) : Option (List ℤ) :=
  if tiered then some (batchIds db cfg) else none

def dryChanged (db : Db) (cfg : PassConfig) : Option (List ℤ) → Changed
  | some ids => .eventsMoved ids.length
  | none => .eventsDeleted
      (((db.events.rows.filter (EventRow.expired cfg.now)).length : ℤ) - (owedNow db cfg).length)

def prediction (db : Db) (cfg : PassConfig) (tiered : Bool) : CleanupResult where
  changed := dryChanged db cfg (dryMovedIds db cfg tiered)
  unackedPolicy := cfg.policy
  unacked := buildUnackedReport (owedPairsNow cfg db)
    (dryFate cfg.policy tiered (dryMovedIds db cfg tiered)) cfg.policy cfg.capDays

theorem dryRun_eq {clock : ℤ} (h : passConfig config clock = .ok cfg) (db : Db) (tiered : Bool) :
    dryRun db config tiered cfg.now = .ok (prediction db cfg tiered) := by
  obtain ⟨hpolicy,hcap⟩ := passConfig_ok h
  obtain ⟨-,hbatch⟩ := passConfig_fields h
  simp only [dryRun,hpolicy,hcap,← hbatch,bind,Except.bind,pure,Except.pure,dryMoved_eq]
  cases tiered <;> rfl

theorem inDatabase_agrees {clock : ℤ} (h : passConfig config clock = .ok cfg) {db' : Db} {r : SweepResult}
    (hrun : runSweep db config clock = .ok (db',r)) : prediction db cfg false = r.cleanup := by
  obtain ⟨hpolicy,hcap⟩ := passConfig_ok h
  obtain ⟨hnow,-⟩ := passConfig_fields h
  simp only [runSweep,hpolicy,hcap,← hnow,bind,Except.bind,pure,Except.pure,Except.ok.injEq] at hrun
  have hr : (sweepTransaction db cfg.now cfg.policy cfg.capDays config.archiveMode).2 = r :=
    congrArg Prod.snd hrun
  have hcount := expired_count db cfg.now cfg.policy cfg.capDays config.archiveMode
  have hfate : dryFate cfg.policy false none = sweepFate cfg.policy := funext (dryFate_inDatabase cfg.policy)
  have hchanged : dryChanged db cfg none = .eventsDeleted r.eventsDeleted := by
    rw [← hr,dryChanged,hcount]
    exact congrArg Changed.eventsDeleted (by rw [Nat.cast_add]; exact add_sub_cancel_right _ _)
  rw [← hr] at hchanged ⊢
  show CleanupResult.mk (dryChanged db cfg none) _ (buildUnackedReport _ (dryFate cfg.policy false none) _ _) = _
  rw [hchanged,hfate]
  rfl

theorem moved_agrees {r : TieredResult} {moved : List ℤ} (hmoved : r.eventsMoved = moved.length)
    (hperm : moved.Perm (batchIds db cfg)) : (prediction db cfg true).changed = r.cleanup.changed := by
  show Changed.eventsMoved (batchIds db cfg).length = .eventsMoved r.eventsMoved
  rw [hmoved,hperm.length_eq]

theorem archive_iff {moved : List ℤ} (hpolicy : cfg.policy = .archive) (hperm : moved.Perm (batchIds db cfg)) :
    (∀ p ∈ owedPairsNow cfg db, p.eventId ∈ moved) ↔
      ∀ e ∈ owedEvents db cfg.now, e ∈ firstBatch db cfg.now cfg.batchSize := by
  have hbatch : batchIds db cfg = (firstBatch db cfg.now cfg.batchSize).map EventRow.eventId := by
    rw [batchIds,show owedNow db cfg = [] from if_neg (by rw [hpolicy]; decide),candidates_nil]
  rw [@owedIds_iff db cfg (fun i => i ∈ moved)]
  refine forall_congr' fun e => forall_congr' fun he => ?_
  rw [hperm.mem_iff,hbatch,mem_firstBatch he.1.1]

theorem tiered_agrees {r : TieredResult} {moved : List ℤ} (hpolicy : r.unackedPolicy = cfg.policy)
    (hmoved : r.eventsMoved = moved.length) (hreport : r.unacked = reportFor cfg moved (owedPairsNow cfg db))
    (hcase : Drops db cfg ∨ moved.Perm (batchIds db cfg)) :
    prediction db cfg true = r.cleanup ↔ DryRunOk db cfg true := by
  have hsplit : prediction db cfg true = r.cleanup ↔
      (prediction db cfg true).changed = r.cleanup.changed ∧
        (prediction db cfg true).unacked = reportFor cfg moved (owedPairsNow cfg db) := by
    rw [← hreport]
    constructor
    · exact fun h => ⟨congrArg CleanupResult.changed h,congrArg CleanupResult.unacked h⟩
    · rintro ⟨hchanged,hunacked⟩
      rw [CleanupResult.mk.injEq]
      exact ⟨hchanged,hpolicy.symm,hunacked⟩
  rw [hsplit]
  cases hp : cfg.policy with
  | retain =>
    have hperm := hcase.resolve_left fun hdrop => absurd (hp.symm.trans hdrop.1) (by decide)
    have hfate : passFate cfg moved = dryFate cfg.policy true (some (batchIds db cfg)) := by
      rw [hp]
      funext p
      rw [dryFate_retain hperm p hp,hp]
    refine iff_of_true ⟨moved_agrees hmoved hperm,?_⟩ (by simp only [DryRunOk,hp])
    rw [reportFor,hfate,reportedPairs,if_neg (by rw [hp]; decide)]
    rfl
  | archive =>
    have hperm := hcase.resolve_left fun hdrop => absurd (hp.symm.trans hdrop.1) (by decide)
    have hfate : passFate cfg moved = dryFate cfg.policy true (some (batchIds db cfg)) := by
      funext p
      simp [passFate,dryFate,dryVerb,hp]
    have hok : DryRunOk db cfg true ↔ ∀ p ∈ owedPairsNow cfg db, p.eventId ∈ moved := by
      simp only [DryRunOk,hp]
      exact (archive_iff hp hperm).symm
    rw [hok,reportFor,hfate,reportedPairs,if_pos hp]
    constructor
    · rintro ⟨-,hunacked⟩ p hmem
      exact of_decide_eq_true (report_filter_ne hunacked p hmem)
    · intro hall
      refine ⟨moved_agrees hmoved hperm,?_⟩
      rw [List.filter_eq_self.mpr fun p hmem => decide_eq_true (hall p hmem)]
      rfl
  | discard =>
    have hok : DryRunOk db cfg true ↔ owedPairsNow cfg db = [] := by
      simp only [DryRunOk,hp]
      exact owedPairsNow_nil.symm
    rw [hok,reportFor,reportedPairs,if_neg (by rw [hp]; decide)]
    constructor
    · rintro ⟨-,hunacked⟩
      rw [List.eq_nil_iff_forall_not_mem]
      intro p hmem
      obtain ⟨q,-,-,hfate⟩ := report_fate_eq hunacked hmem
      simp [passFate,dryFate,dryVerb,hp] at hfate
    · intro hnil
      have hperm := hcase.resolve_left fun hdrop => hdrop.2 hnil
      refine ⟨moved_agrees hmoved hperm,?_⟩
      show buildUnackedReport (owedPairsNow cfg db) _ _ _ = _
      rw [hnil]
      rfl

end Agreement

theorem dry_run_predicts {db : Db} {archive : Archive} {config : SweepConfig} {clock : ℤ} {cfg : PassConfig}
    {env : ℕ → StepEnv} {tiered : Bool} (hcfg : passConfig config clock = .ok cfg)
    (hlocked : ∀ n, (env n).locked = false) :
    ∃ dry, dryRun db config tiered cfg.now = .ok dry ∧
      (∃ result, RealPass db archive config clock env tiered result) ∧
      ∀ real, RealPass db archive config clock env tiered (some real) → (dry = real ↔ DryRunOk db cfg tiered) := by
  refine ⟨prediction db cfg tiered,dryRun_eq hcfg db tiered,?_,fun real hreal => ?_⟩
  · cases tiered with
    | false =>
      obtain ⟨hpolicy,hcap⟩ := passConfig_ok hcfg
      have hrun : runSweep db config clock = .ok (sweepTransaction db (config.now.getD clock) cfg.policy
          cfg.capDays config.archiveMode) := by
        simp only [runSweep,hpolicy,hcap]
        rfl
      exact ⟨_,.inDatabase hrun⟩
    | true =>
      obtain ⟨n,result,hend⟩ := Pass.ends cfg ⟨.begin,db,archive⟩ env
      exact ⟨_,.tiered hcfg hend⟩
  · cases tiered with
    | false =>
      cases hreal with
      | inDatabase hrun => exact iff_of_true (inDatabase_agrees hcfg hrun) trivial
    | true =>
      generalize hsome : some real = expected at hreal
      cases hreal with
      | @tiered cfg' n result hcfg' hend =>
        cases hcfg.symm.trans hcfg'
        have halone := (@alone_begin cfg db archive).after hlocked n
        cases result with
        | threw => cases hsome
        | returned r =>
          cases hsome
          simp only [Alone,hend] at halone
          obtain ⟨moved,hpolicy,hmoved,hreport,hcase⟩ := halone
          exact tiered_agrees hpolicy hmoved hreport hcase

def cleanupConfig (policy : String) : SweepConfig := ⟨some policy,none,false,some 3000,none,none⟩

def owedBacklog : List Action := registeredWorld ++ [.bus (.emit expiredSample "u")]

theorem dry_run_predicts_archive :
    ∃ db dry real, (owedEvents db 3000).Nonempty ∧
      dryRun db (cleanupConfig "archive") true 3000 = .ok dry ∧
      RealPass db .empty (cleanupConfig "archive") 0 (fun _ => sampleEnv) true (some real) ∧ dry = real := by
  have hreach : (exec World.step (.start .empty .empty) owedBacklog).any (fun w =>
      decide (w.bus.events.rows = [expiredSample.row 1]) && decide (sampleCursor ∈ w.bus.cursors) &&
      decide (sampleSubscription ∈ w.bus.subscriptions) &&
      ((Pass.after ⟨3000,.archive,30,5000,10 * 1024 * 1024 * 1024⟩ (fun _ => sampleEnv)
        ⟨.begin,w.bus,.empty⟩ 20).point.result).isSome) = true := by decide +kernel
  obtain ⟨w,-,hobs⟩ := (Option.any_eq_true _ _).mp hreach
  simp only [Bool.and_eq_true,decide_eq_true_eq] at hobs
  obtain ⟨⟨⟨hrows,hcursor⟩,hsub⟩,hsome⟩ := hobs
  obtain ⟨r,hr⟩ := Option.isSome_iff_exists.mp hsome
  have hcfg : passConfig (cleanupConfig "archive") 0 = .ok ⟨3000,.archive,30,5000,10 * 1024 * 1024 * 1024⟩ := by
    decide +kernel
  have hlive : expiredSample.row 1 ∈ w.bus.events := by
    rw [← KeyedTable.mem_rows,hrows]
    exact List.mem_singleton_self _
  have howed : expiredSample.row 1 ∈ owedEvents w.bus 3000 :=
    ⟨⟨hlive,by decide +kernel⟩,"c1",
      .inl ⟨sampleCursor,hcursor,rfl,rfl,by decide,sampleSubscription,hsub,rfl,rfl,by decide +kernel⟩⟩
  have hok : DryRunOk w.bus ⟨3000,.archive,30,5000,10 * 1024 * 1024 * 1024⟩ true := by
    intro e he
    have hmem := KeyedTable.mem_rows.mpr he.1.1
    rw [hrows] at hmem
    rw [List.mem_singleton.mp hmem,firstBatch,hrows]
    decide +kernel
  have hreal : RealPass w.bus .empty (cleanupConfig "archive") 0 (fun _ => sampleEnv) true (some r.cleanup) :=
    .tiered hcfg (point_ended hr)
  obtain ⟨dry,hdry,-,hagree⟩ := @dry_run_predicts w.bus .empty (cleanupConfig "archive") 0 _
    (fun _ => sampleEnv) true hcfg (fun _ => rfl)
  exact ⟨w.bus,dry,r.cleanup,⟨_,howed⟩,hdry,hreal,(hagree _ hreal).mpr hok⟩

theorem dry_run_misreports_discard :
    ∃ db dry real, dryRun db (cleanupConfig "discard") true 3000 = .ok dry ∧
      RealPass db .empty (cleanupConfig "discard") 0 (fun _ => sampleEnv) true (some real) ∧
      dry.changed = .eventsMoved 1 ∧ real.changed = .eventsMoved 0 ∧
      dry.unacked.counts = [(.discarded,0),(.archived,1)] ∧ real.unacked.counts = [(.discarded,1)] := by
  have hreach : (exec World.step (.start .empty .empty) owedBacklog).any (fun w =>
      (dryRun w.bus (cleanupConfig "discard") true 3000).toOption.any (fun dry =>
        decide (dry.changed = .eventsMoved 1) &&
        decide (dry.unacked.counts = [(.discarded,0),(.archived,1)])) &&
      ((Pass.after ⟨3000,.discard,30,5000,10 * 1024 * 1024 * 1024⟩ (fun _ => sampleEnv)
        ⟨.begin,w.bus,.empty⟩ 8).point.result).any (fun r =>
          decide (r.cleanup.changed = .eventsMoved 0) &&
          decide (r.cleanup.unacked.counts = [(.discarded,1)]))) = true := by decide +kernel
  obtain ⟨w,-,hobs⟩ := (Option.any_eq_true _ _).mp hreach
  simp only [Bool.and_eq_true] at hobs
  obtain ⟨dry,hdry,hpredicted⟩ := (Option.any_eq_true _ _).mp hobs.1
  obtain ⟨r,hr,hdone⟩ := (Option.any_eq_true _ _).mp hobs.2
  simp only [Bool.and_eq_true,decide_eq_true_eq] at hpredicted hdone
  have hcfg : passConfig (cleanupConfig "discard") 0 = .ok ⟨3000,.discard,30,5000,10 * 1024 * 1024 * 1024⟩ := by
    decide +kernel
  exact ⟨w.bus,dry,r.cleanup,toOption_eq_some.mp hdry,.tiered hcfg (point_ended hr),
    hpredicted.1,hdone.1,hpredicted.2,hdone.2⟩

end WickedBus
