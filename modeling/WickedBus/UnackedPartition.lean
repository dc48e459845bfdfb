import WickedBus.Foundation.AssocMap
import WickedBus.Foundation.Tally
import WickedBus.NamedLoss

namespace WickedBus

open GuardedRun
open WickedBus.Filter (Text)

def eventIds (pairs : List OwedPair) : Finset ℤ := Tally.ids OwedPair.eventId pairs

def pairsOf (cursorId : String) (pairs : List OwedPair) : List OwedPair :=
  pairs.filter (fun p => p.cursorId = cursorId)

def disposedTo (fateOf : OwedPair → Fate) (d : Disposition) (pairs : List OwedPair) : List OwedPair :=
  pairs.filter (fun p => (fateOf p).disposition = d)

def UnackedReport.countOf (r : UnackedReport) (d : Disposition) : ℕ := (r.counts.lookup d).getD 0

def UnackedReport.linesOf (r : UnackedReport) (cursorId : String) : List ReportLine :=
  r.cursors.filter (fun l => l.cursorId = cursorId)

def Distinct (pairs : List OwedPair) : Prop :=
  pairs.Pairwise (fun p q => ¬ (p.eventId = q.eventId ∧ p.cursorId = q.cursorId))

def ByEvent (fateOf : OwedPair → Fate) (pairs : List OwedPair) : Prop :=
  ∀ p ∈ pairs, ∀ q ∈ pairs, p.eventId = q.eventId → (fateOf p).disposition = (fateOf q).disposition

structure Partitions (fateOf : OwedPair → Fate) (pairs : List OwedPair) (r : UnackedReport) : Prop where
  once : ∀ p ∈ pairs, r.cursors.countP (fun l => l.covers fateOf p) = 1
  counted : ∀ l ∈ r.cursors, l.count = pairs.countP (fun p => l.covers fateOf p)
  balance : ∀ cursorId, ((r.linesOf cursorId).map ReportLine.count).sum = (pairsOf cursorId pairs).length
  oldest : ∀ l ∈ r.cursors, IsLeast {i | ∃ p ∈ pairs, l.covers fateOf p = true ∧ p.eventId = i} l.oldestEventId
  newest : ∀ l ∈ r.cursors, IsGreatest {i | ∃ p ∈ pairs, l.covers fateOf p = true ∧ p.eventId = i} l.newestEventId
  dispositions : ∀ d, r.countOf d = (eventIds (disposedTo fateOf d pairs)).card
  total : ByEvent fateOf pairs → (r.counts.map Prod.snd).sum = (eventIds pairs).card

section Report

variable {fateOf : OwedPair → Fate} {pairs : List OwedPair} {lines : List ReportLine} {policy : UnackedPolicy}

theorem LinesOf.once (h : LinesOf fateOf pairs lines) {p : OwedPair} (hp : p ∈ pairs) :
    lines.countP (fun l => l.covers fateOf p) = 1 := by
  refine Tally.countP_eq_one (h.distinct.imp ?_) (h.complete p hp)
  rintro a b hne ⟨ha,hb⟩
  simp only [ReportLine.covers_iff] at ha hb
  exact hne (by rw [ha.1,ha.2,hb.1,hb.2])

theorem LinesOf.balance (h : LinesOf fateOf pairs lines) (cursorId : String) :
    ((lines.filter (fun l => l.cursorId = cursorId)).map ReportLine.count).sum = (pairsOf cursorId pairs).length := by
  have hcount : (lines.filter (fun l => l.cursorId = cursorId)).map ReportLine.count =
      (lines.filter (fun l => l.cursorId = cursorId)).map
        (fun l => (pairsOf cursorId pairs).countP (fun p => l.covers fateOf p)) := by
    refine List.map_congr_left fun l hl => ?_
    obtain ⟨hl,hcursor⟩ := List.mem_filter.mp hl
    rw [(h.describes l hl).count,pairsOf,List.countP_filter]
    refine List.countP_congr fun p _ => ?_
    simp only [ReportLine.covers_iff,Bool.and_eq_true,decide_eq_true_eq] at hcursor ⊢
    constructor
    · exact fun hcovers => ⟨hcovers,hcovers.1.symm.trans hcursor⟩
    · exact And.left
  rw [hcount]
  refine Tally.sum_countP_of_one fun p hp => ?_
  obtain ⟨hp,hcursor⟩ := List.mem_filter.mp hp
  rw [List.countP_filter,← h.once hp]
  refine List.countP_congr fun l _ => ?_
  simp only [ReportLine.covers_iff,Bool.and_eq_true,decide_eq_true_eq] at hcursor ⊢
  constructor
  · exact And.left
  · exact fun hcovers => ⟨hcovers,hcovers.1.trans hcursor⟩

theorem ReportLine.Describes.isLeast {l : ReportLine} (h : l.Describes fateOf pairs) :
    IsLeast {i | ∃ p ∈ pairs, l.covers fateOf p = true ∧ p.eventId = i} l.oldestEventId := by
  refine ⟨h.oldest,?_⟩
  rintro i ⟨p,hp,hcovers,rfl⟩
  exact (h.within p hp hcovers).1

theorem ReportLine.Describes.isGreatest {l : ReportLine} (h : l.Describes fateOf pairs) :
    IsGreatest {i | ∃ p ∈ pairs, l.covers fateOf p = true ∧ p.eventId = i} l.newestEventId := by
  refine ⟨h.newest,?_⟩
  rintro i ⟨p,hp,hcovers,rfl⟩
  exact (h.within p hp hcovers).2

theorem addToCounts_keys (fateOf : OwedPair → Fate) (counts : List (Disposition × List ℤ)) (p : OwedPair)
    (h : (counts.map Prod.fst).Nodup) : ((addToCounts fateOf counts p).map Prod.fst).Nodup := by
  unfold addToCounts
  split_ifs with hany
  · have hkeys : (counts.map (fun c => if c.1 = (fateOf p).disposition then (c.1,c.2.insert p.eventId) else c)).map
        Prod.fst = counts.map Prod.fst := by
      rw [List.map_map]
      refine List.map_congr_left fun c _ => ?_
      simp only [Function.comp_apply]
      split_ifs <;> rfl
    rw [hkeys]
    exact h
  · rw [List.map_append,List.nodup_append]
    refine ⟨h,List.nodup_singleton _,fun d hd d' hd' heq => ?_⟩
    obtain ⟨c,hc,rfl⟩ := List.mem_map.mp hd
    rw [List.map_singleton,List.mem_singleton] at hd'
    exact hany (List.any_eq_true.mpr ⟨c,hc,decide_eq_true (heq.trans hd')⟩)

theorem counts_nodup (pairs : List OwedPair) (fateOf : OwedPair → Fate) (policy : UnackedPolicy) (capDays : ℚ) :
    ((buildUnackedReport pairs fateOf policy capDays).counts.map Prod.fst).Nodup := by
  have hfold : ((pairs.foldl (addToCounts fateOf) [(policy.verb,[])]).map Prod.fst).Nodup := by
    induction pairs using List.reverseRecOn with
    | nil => exact List.nodup_singleton _
    | append_singleton pairs p ih =>
      rw [List.foldl_append]
      exact addToCounts_keys fateOf _ p ih
  rw [buildUnackedReport,List.map_map]
  exact hfold

theorem report_countOf (pairs : List OwedPair) (fateOf : OwedPair → Fate) (policy : UnackedPolicy) (capDays : ℚ)
    (d : Disposition) : (buildUnackedReport pairs fateOf policy capDays).countOf d =
      (eventIds (disposedTo fateOf d pairs)).card := by
  unfold UnackedReport.countOf
  cases hlookup : (buildUnackedReport pairs fateOf policy capDays).counts.lookup d with
  | some n => exact ((report_counts pairs fateOf policy capDays d n).mp (AssocMap.mem_of_lookup hlookup)).2
  | none =>
    have hnone : disposedTo fateOf d pairs = [] := by
      rw [disposedTo,List.filter_eq_nil_iff]
      intro p hp hd
      have hmem := (report_counts pairs fateOf policy capDays d _).mpr ⟨.inr ⟨p,hp,of_decide_eq_true hd⟩,rfl⟩
      rw [List.lookup_eq_none_iff] at hlookup
      simpa using hlookup _ hmem
    rw [hnone]
    rfl

theorem report_total {capDays : ℚ} (h : ByEvent fateOf pairs) :
    ((buildUnackedReport pairs fateOf policy capDays).counts.map Prod.snd).sum = (eventIds pairs).card := by
  set r := buildUnackedReport pairs fateOf policy capDays
  have hvalues : r.counts.map Prod.snd =
      (r.counts.map Prod.fst).map (fun d => (eventIds (disposedTo fateOf d pairs)).card) := by
    rw [List.map_map]
    exact List.map_congr_left fun c hc => ((report_counts pairs fateOf policy capDays c.1 c.2).mp hc).2
  rw [hvalues]
  refine Tally.sum_card_tags (counts_nodup pairs fateOf policy capDays) (fun p hp => ?_) h
  exact List.mem_map.mpr ⟨_,(report_counts pairs fateOf policy capDays _ _).mpr ⟨.inr ⟨p,hp,rfl⟩,rfl⟩,rfl⟩

theorem report_partitions (pairs : List OwedPair) (fateOf : OwedPair → Fate) (policy : UnackedPolicy)
    (capDays : ℚ) : Partitions fateOf pairs (buildUnackedReport pairs fateOf policy capDays) := by
  have h := report_lines pairs fateOf policy capDays
  exact ⟨fun p hp => h.once hp,fun l hl => (h.describes l hl).count,h.balance,
    fun l hl => (h.describes l hl).isLeast,fun l hl => (h.describes l hl).isGreatest,
    report_countOf pairs fateOf policy capDays,report_total⟩

end Report

section Caps

variable {cfg : PassConfig} {log : List EventRow} {pairs : List OwedPair} {db : Db} {now : ℤ} {capDays : ℚ}

def CapOf (log : List EventRow) (cfg : PassConfig) (q : OwedPair) : Prop :=
  ∃ e ∈ log, e.eventId = q.eventId ∧ q.overCap = e.overCap cfg.now cfg.capDays

structure OwedOnce (log : List EventRow) (cfg : PassConfig) (pairs : List OwedPair) : Prop where
  distinct : Distinct pairs
  cap : ∀ q ∈ pairs, CapOf log cfg q

theorem OwedOnce.mono {log' : List EventRow} (h : OwedOnce log cfg pairs) (hlog : log ⊆ log') :
    OwedOnce log' cfg pairs := by
  refine ⟨h.distinct,fun q hq => ?_⟩
  obtain ⟨e,he,hid,hcap⟩ := h.cap q hq
  exact ⟨e,hlog he,hid,hcap⟩

theorem OwedOnce.filter (h : OwedOnce log cfg pairs) (p : OwedPair → Bool) : OwedOnce log cfg (pairs.filter p) :=
  ⟨h.distinct.filter p,fun q hq => h.cap q (List.mem_of_mem_filter hq)⟩

theorem OwedOnce.nil : OwedOnce log cfg [] := ⟨.nil,fun _ hq => absurd hq List.not_mem_nil⟩

theorem overCap_of_fixedPart {e r : EventRow} (h : e.fixedPart = r.fixedPart) (now : ℤ) (capDays : ℚ) :
    e.overCap now capDays = r.overCap now capDays := by
  simp only [EventRow.overCap,emittedAt_of_fixedPart h]

theorem owedOnce_owedPairs {w : World} (h : Provenance w) (cfg : PassConfig) (owed : OwedTable) :
    OwedOnce w.log cfg (owedPairsWithCap w.bus cfg.now cfg.capDays owed) := by
  refine ⟨owedPairs_distinct _ _ _ _,fun q hq => ?_⟩
  obtain ⟨o,-,hq⟩ := List.mem_filterMap.mp hq
  obtain ⟨e,he,rfl⟩ := Option.map_eq_some_iff.mp hq
  obtain ⟨hlive,hid⟩ := KeyedTable.get?_eq_some.mp he
  obtain ⟨r,hr,hfixed⟩ := h.live (mem_live hlive)
  exact ⟨r,hr,(eventId_of_fixedPart hfixed).trans hid,(overCap_of_fixedPart hfixed _ _).symm⟩

theorem owedOnce_pairsNow {w : World} (h : Provenance w) {moved : List ℤ} (hpairs : OwedOnce w.log cfg pairs) :
    OwedOnce w.log cfg (pairsNow cfg w.bus moved pairs) := by
  have hseen : OwedOnce w.log cfg (seenAtDelete cfg w.bus moved) := by
    unfold seenAtDelete
    split_ifs
    · exact (owedOnce_owedPairs h cfg _).filter _
    · exact .nil
  have hextra := hseen.filter (fun p => p.overCap && !knownPair pairs p)
  refine ⟨List.pairwise_append.mpr ⟨hpairs.distinct,hextra.distinct,fun q hq p hp hsame => ?_⟩,fun q hq => ?_⟩
  · obtain ⟨-,hnew⟩ := List.mem_filter.mp hp
    rw [Bool.and_eq_true,Bool.not_eq_true'] at hnew
    have hknown : knownPair pairs p = true := List.any_eq_true.mpr ⟨q,hq,decide_eq_true hsame⟩
    rw [hknown] at hnew
    cases hnew.2
  · rcases List.mem_append.mp hq with hq | hq
    · exact hpairs.cap q hq
    · exact hextra.cap q hq

theorem owedOnce_endReport {w : World} (h : Provenance w) {memo : PassMemo} {phase : Phase}
    (hpairs : OwedOnce w.log cfg memo.owedPairs) : OwedOnce w.log cfg (endReport memo cfg w.bus phase) := by
  have hreported : ∀ moved pairs, OwedOnce w.log cfg pairs → OwedOnce w.log cfg (reportedPairs cfg moved pairs) := by
    intro moved pairs hkept
    unfold reportedPairs
    split_ifs
    · exact hkept.filter _
    · exact hkept
  cases phase with
  | deleteLive moved => exact hreported _ _ (owedOnce_pairsNow h hpairs)
  | _ => exact hreported _ _ hpairs

theorem OwedOnce.overCap_eq (h : OwedOnce log cfg pairs)
    (hlog : ∀ r ∈ log, ∀ s ∈ log, r.eventId = s.eventId → r.fixedPart = s.fixedPart) {p q : OwedPair}
    (hp : p ∈ pairs) (hq : q ∈ pairs) (hid : p.eventId = q.eventId) : p.overCap = q.overCap := by
  obtain ⟨r,hr,hrid,hrcap⟩ := h.cap p hp
  obtain ⟨s,hs,hsid,hscap⟩ := h.cap q hq
  have hsame := hlog r hr s hs (hrid.trans (hid.trans hsid.symm))
  rw [hrcap,hscap,overCap_of_fixedPart hsame]

theorem byEvent_passFate (h : ∀ p ∈ pairs, ∀ q ∈ pairs, p.eventId = q.eventId → p.overCap = q.overCap)
    (moved : List ℤ) : ByEvent (passFate cfg moved) pairs := by
  intro p hp q hq hid
  simp only [passFate,h p hp q hq hid,hid]

theorem byEvent_sweepFate (policy : UnackedPolicy) :
    ByEvent (sweepFate policy) (owedPairsWithCap db now capDays (collectOwedExpired db now)) := by
  intro p hp q hq hid
  obtain ⟨e,he,-,hep,hecap⟩ := mem_owedPairs.mp hp
  obtain ⟨f,hf,-,hfq,hfcap⟩ := mem_owedPairs.mp hq
  have hsame : e = f := KeyedTable.eq_of_key he.1 hf.1 (hep.trans (hid.trans hfq.symm))
  simp only [sweepFate,hecap,hfcap,hsame]

theorem card_owedEvents (db : Db) (now : ℤ) (capDays : ℚ) :
    (eventIds (owedPairsWithCap db now capDays (collectOwedExpired db now))).card = (owedEvents db now).ncard := by
  have himage : (eventIds (owedPairsWithCap db now capDays (collectOwedExpired db now)) : Set ℤ) =
      EventRow.eventId '' owedEvents db now := by
    ext i
    simp only [Finset.mem_coe,eventIds,Tally.mem_ids,mem_owedPairs,Set.mem_image]
    constructor
    · rintro ⟨p,⟨e,he,howes,hid,-⟩,rfl⟩
      exact ⟨e,⟨he,p.cursorId,howes⟩,hid⟩
    · rintro ⟨e,⟨he,k,howes⟩,rfl⟩
      exact ⟨⟨e.eventId,k,e.overCap now capDays⟩,⟨e,he,howes,rfl,rfl⟩,rfl⟩
  have hinj : Set.InjOn EventRow.eventId (owedEvents db now) := fun e he f hf hid =>
    KeyedTable.eq_of_key he.1.1 hf.1.1 hid
  rw [← hinj.ncard_image,← himage,Set.ncard_coe_finset]

end Caps

def Accounted (log : List EventRow) (pass : WatchedPass) : Prop :=
  match pass.point with
  | .running _ memo => OwedOnce log pass.cfg memo.owedPairs
  | .ended .threw => True
  | .ended (.returned r) => OwedOnce log pass.cfg pass.reported ∧ ∃ moved, r.unacked =
      buildUnackedReport pass.reported (passFate pass.cfg moved) pass.cfg.policy pass.cfg.capDays

structure ReportInvariant (t : LossState) : Prop where
  prov : Provenance t.world
  accounted : ∀ p pass, t.passes p = some pass → Accounted t.world.log pass

section Passes

variable {t t' : LossState} {w w' : World} {env : StepEnv} {pass : WatchedPass} {phase : Phase} {memo : PassMemo}

theorem note_owedPairs_cases (memo : PassMemo) (cfg : PassConfig) (env : StepEnv) (bus : Db) (next phase : Phase) :
    (memo.note cfg env bus next phase).owedPairs = memo.owedPairs ∨
      ∃ owed, (memo.note cfg env bus next phase).owedPairs = owedPairsWithCap bus cfg.now cfg.capDays owed := by
  cases phase with
  | readPairs owed => exact .inr ⟨owed,rfl⟩
  | collectCursors | collectOwed cursors owed | collectAttempts owed => exact .inl rfl
  | _ => exact .inl (note_owedPairs memo bus rfl)

theorem returned_report {cfg : PassConfig} {db : Db} {r : TieredResult}
    (h : passEnd memo cfg db phase = .returned r) : ∃ moved, r.unacked =
      buildUnackedReport (endReport memo cfg db phase) (passFate cfg moved) cfg.policy cfg.capDays := by
  cases phase with
  | selectCandidates held =>
    cases h
    exact ⟨[],rfl⟩
  | writeGroups groups moved | deleteLive moved =>
    cases h
    exact ⟨moved,rfl⟩
  | _ => cases h

theorem Accounted.mono {log log' : List EventRow} (h : Accounted log pass) (hlog : log ⊆ log') :
    Accounted log' pass := by
  unfold Accounted at h ⊢
  split at h
  · exact h.mono hlog
  · trivial
  · exact ⟨h.1.mono hlog,h.2⟩

theorem Accounted.sweep (h : Accounted w.log pass) (hprov : Provenance w) :
    Accounted w.log (pass.sweep env w w') := by
  cases hpoint : pass.point with
  | ended result =>
    simp only [Accounted,hpoint] at h
    simp only [Accounted,WatchedPass.sweep,hpoint,PassPoint.next]
    exact h
  | running phase memo =>
    simp only [Accounted,hpoint] at h
    simp only [Accounted,WatchedPass.sweep,hpoint,PassPoint.next]
    cases hnext : (sweeperStep env pass.cfg w.bus w.archive phase).next with
    | some next =>
      show OwedOnce w.log pass.cfg (memo.note pass.cfg env w.bus next phase).owedPairs
      rcases note_owedPairs_cases memo pass.cfg env w.bus next phase with hsame | ⟨owed,hread⟩
      · rw [hsame]
        exact h
      · rw [hread]
        exact owedOnce_owedPairs hprov pass.cfg owed
    | none =>
      cases hend : passEnd memo pass.cfg w.bus phase with
      | threw => trivial
      | returned r => exact ⟨owedOnce_endReport hprov h,returned_report hend⟩

theorem Accounted.fail {log : List EventRow} (h : Accounted log pass) (next : Option Phase) :
    Accounted log (pass.fail next) := by
  unfold WatchedPass.fail
  split
  · rename_i hpoint
    simp only [Accounted,hpoint] at h
    exact h
  · trivial
  · exact h

theorem ReportInvariant.start (db : Db) (archive : Archive) : ReportInvariant (.start db archive) :=
  ⟨.start db archive,fun p pass h => by cases h⟩

theorem ReportInvariant.step (h : ReportInvariant t) {a : LossAction} (hstep : t.step a = some t') :
    ReportInvariant t' := by
  cases a with
  | fail p =>
    simp only [LossState.step] at hstep
    split at hstep
    · cases hstep
    · rename_i s hs
      obtain ⟨next,hnext,rfl⟩ := Option.map_eq_some_iff.mp hstep
      refine ⟨h.prov.fail hs hnext,fun q pass hq => ?_⟩
      rcases update_eq_some hq with ⟨rfl,hfail⟩ | ⟨-,hold⟩
      · obtain ⟨old,hold,rfl⟩ := Option.map_eq_some_iff.mp hfail
        exact (h.accounted q old hold).fail next
      · exact h.accounted q pass hold
  | world a =>
    obtain ⟨w,hw,rfl⟩ := Option.map_eq_some_iff.mp hstep
    have hprov := h.prov.step hw
    refine ⟨hprov,fun q pass hq => ?_⟩
    cases a with
    | bus op =>
      obtain ⟨db,-,rfl⟩ := Option.map_eq_some_iff.mp hw
      exact (h.accounted q pass hq).mono (List.subset_append_left _ _)
    | beginSweep p config clock =>
      simp only [World.step] at hw
      split at hw <;> cases hw
      rcases update_eq_some hq with ⟨rfl,hnew⟩ | ⟨-,hold⟩
      · obtain ⟨s,-,rfl⟩ := Option.map_eq_some_iff.mp hnew
        exact .nil
      · exact h.accounted q pass hold
    | sweep p env =>
      simp only [World.step] at hw
      split at hw <;> cases hw
      rcases update_eq_some hq with ⟨rfl,hswept⟩ | ⟨-,hold⟩
      · obtain ⟨old,hold,rfl⟩ := Option.map_eq_some_iff.mp hswept
        exact (h.accounted q old hold).sweep h.prov
      · exact h.accounted q pass hold
    | crash p =>
      cases hw
      rcases update_eq_some hq with ⟨-,hnone⟩ | ⟨-,hold⟩
      · cases hnone
      · exact h.accounted q pass hold

end Passes

theorem unacked_partition {ok : LossState → LossAction → Prop} {db : Db} {archive : Archive}
    {as : List LossAction} {t : LossState} (hrun : Run LossState.step ok (.start db archive) as t) :
    (∀ pairs fateOf policy capDays, Partitions fateOf pairs (buildUnackedReport pairs fateOf policy capDays)) ∧
      (∀ db now policy capDays archiveMode, let r := (sweepTransaction db now policy capDays archiveMode).2.unacked
        (r.counts.map Prod.snd).sum = (owedEvents db now).ncard) ∧
      ∀ p pass r, t.passes p = some pass → pass.point = .ended (.returned r) →
        Distinct pass.reported ∧ (∃ moved, Partitions (passFate pass.cfg moved) pass.reported r.unacked) ∧
          (r.unacked.counts.map Prod.snd).sum = (eventIds pass.reported).card := by
  refine ⟨report_partitions,fun db now policy capDays archiveMode => ?_,fun p pass r hpass hend => ?_⟩
  · rw [← card_owedEvents db now capDays]
    exact report_total (byEvent_sweepFate policy)
  · have h : ReportInvariant t :=
      hrun.invariant (fun _ _ _ (ht : ReportInvariant _) _ hs => ht.step hs) (.start db archive)
    have haccounted := h.accounted p pass hpass
    simp only [Accounted,hend] at haccounted
    obtain ⟨honce,moved,hreport⟩ := haccounted
    rw [hreport]
    refine ⟨honce.distinct,⟨moved,report_partitions _ _ _ _⟩,report_total (byEvent_passFate ?_ moved)⟩
    exact fun p hp q hq hid => honce.overCap_eq h.prov.log_unique hp hq hid

def retainOwedEvent : List Action :=
  registeredWorld ++ [.bus (.emit expiredSample "u"),.beginSweep 0 sampleSweepConfig 0] ++
    List.replicate 6 (.sweep 0 sampleEnv)

theorem unacked_partition_retain :
    ∃ t pass r, Run LossState.step (fun _ _ => True) (.start .empty .empty) (retainOwedEvent.map .world) t ∧
      t.passes 0 = some pass ∧ pass.point = .ended (.returned r) ∧ pass.reported = [⟨1,"c1",false⟩] ∧
      r.unacked.counts = [(.retained,1)] ∧ (r.unacked.counts.map Prod.snd).sum = (eventIds pass.reported).card := by
  have hexec : (exec LossState.step (.start .empty .empty) (retainOwedEvent.map .world)).any (fun t =>
      (t.passes 0).any (fun pass => decide (pass.reported = [⟨1,"c1",false⟩]) &&
        pass.point.result.any (fun r => decide (r.unacked.counts = [(.retained,1)])))) = true := by decide +kernel
  obtain ⟨t,ht,hobs⟩ := (Option.any_eq_true _ _).mp hexec
  obtain ⟨pass,hpass,hobs⟩ := (Option.any_eq_true _ _).mp hobs
  simp only [Bool.and_eq_true,decide_eq_true_eq] at hobs
  obtain ⟨r,hr,hcounts⟩ := (Option.any_eq_true _ _).mp hobs.2
  have hrun := run_of_exec ht
  have hend := point_ended hr
  obtain ⟨-,-,hpasses⟩ := unacked_partition hrun
  exact ⟨t,pass,r,hrun,hpass,hend,hobs.1,of_decide_eq_true hcounts,(hpasses 0 pass r hpass hend).2.2⟩

end WickedBus
