import WickedBus.Cadence
import WickedBus.Tiered

namespace WickedBus

open GuardedRun

def Db.archivedParts (db : Db) : Set EventRow := {x | ∃ a ∈ db.archiveRows, a.fixedPart = x}

def KeepsAll (_ : World) : Action → Prop
  | .bus (.sweep config _) => config.archiveMode = true ∧ resolveUnackedPolicy config ≠ .ok .discard
  | .bus _ => True
  | _ => False

structure Separated (w : World) : Prop where
  provenance : Provenance w
  apart : ∀ a ∈ w.bus.archiveRows, ∀ e ∈ w.bus.events, a.eventId ≠ e.eventId
  accepted : w.bus.archivedParts ⊆ w.logged
  numbered : w.log.map EventRow.eventId = (List.range w.log.length).map (fun n : ℕ => (n : ℤ) + 1)
  counted : w.bus.eventSeq = w.log.length

section Step

variable {w w' : World} {db : Db} {op : BusOp} {a : Action}

theorem archivedParts_of_table {db db' : Db} (h : db'.eventsArchive = db.eventsArchive) :
    db'.archivedParts = db.archivedParts := by
  simp only [Db.archivedParts,Db.archiveRows,h]

theorem acceptedRows_same {db db' : Db} {op : BusOp} (hop : op.apply db = some db') (hsame : SameEvents db db') :
    acceptedRows db op = [] := by
  cases op with
  | emit params uuid =>
    have hseq := emit_eventSeq (toOption_eq_some.mp hop)
    have := hsame.eventSeq
    omega
  | _ => rfl

theorem emit_table {db' : Db} {params : NewEvent} {uuid : String} (h : emitParamsInto db params uuid = .ok db') :
    db'.eventsArchive = db.eventsArchive := by
  obtain ⟨-,rfl | ⟨_,_,rfl⟩⟩ := emitParamsInto_ok h <;> rfl

theorem sweeperStep_table (env : StepEnv) (cfg : PassConfig) (db : Db) (archive : Archive) (ph : Phase) :
    (sweeperStep env cfg db archive ph).bus.eventsArchive = db.eventsArchive := by
  rcases sweeperStep_bus env cfg db archive ph with h | ⟨ids,-,h⟩ | ⟨moved,-,h⟩ <;> rw [h] <;> rfl

theorem archivedId_le (h : Provenance w) (haccepted : w.bus.archivedParts ⊆ w.logged) {x : EventRow}
    (hx : x ∈ w.bus.archiveRows) : x.eventId ≤ w.bus.eventSeq := by
  obtain ⟨r,hr,hfix⟩ := haccepted ⟨x,hx,rfl⟩
  rw [← eventId_of_fixedPart hfix]
  exact h.log_le r hr

theorem Separated.start (archive : Archive) : Separated (World.start .empty archive) where
  provenance := .start _ _
  apart x hx := absurd hx (KeyedTable.not_mem_empty x)
  accepted := by
    rintro _ ⟨x,hx,rfl⟩
    exact absurd hx (KeyedTable.not_mem_empty x)
  numbered := rfl
  counted := rfl

theorem Separated.emitted (h : Separated w) {params : NewEvent} {uuid : String}
    (he : emitParamsInto w.bus params uuid = .ok db) :
    Separated { w with bus := db, log := w.log ++ acceptedRows w.bus (.emit params uuid) } := by
  have hstep : w.step (.bus (.emit params uuid)) =
      some { w with bus := db, log := w.log ++ acceptedRows w.bus (.emit params uuid) } :=
    Option.map_eq_some_iff.mpr ⟨db,toOption_eq_some.mpr he,rfl⟩
  have hnew : acceptedRows w.bus (.emit params uuid) = [params.row (w.bus.eventSeq + 1)] := rfl
  have hrows : db.archiveRows = w.bus.archiveRows := by rw [Db.archiveRows,Db.archiveRows,emit_table he]
  refine ⟨h.provenance.step hstep,?_,?_,?_,?_⟩
  · intro x hx e hlive
    have hx' : x ∈ w.bus.archiveRows := hrows ▸ hx
    have hle := archivedId_le h.provenance h.accepted hx'
    have hparts : e.fixedPart ∈ db.live := mem_live hlive
    rw [emit_live he] at hparts
    rcases hparts with hfresh | ⟨old,hold,hfix⟩
    · have hid : e.eventId = w.bus.eventSeq + 1 := eventId_of_fixedPart hfresh
      omega
    · rw [← eventId_of_fixedPart hfix]
      exact h.apart x hx' old hold
  · show db.archivedParts ⊆ _
    rw [archivedParts_of_table (emit_table he)]
    refine h.accepted.trans ?_
    rintro x ⟨r,hr,hfix⟩
    exact ⟨r,List.mem_append_left _ hr,hfix⟩
  · show (w.log ++ _).map _ = _
    rw [hnew,List.map_append,h.numbered,List.length_append,List.length_singleton,List.range_succ,List.map_append]
    simp [h.counted]
  · show db.eventSeq = _
    rw [emit_eventSeq he,h.counted,hnew]
    simp

theorem Separated.swept (h : Separated w) (now : ℤ) (policy : UnackedPolicy) (capDays : ℚ) (archiveMode : Bool) :
    Separated { w with bus := sweptAt policy capDays archiveMode w.bus now } := by
  have hrows : ∀ x, x ∈ (sweptAt policy capDays archiveMode w.bus now).archiveRows →
      x ∈ w.bus.archiveRows ∨ x ∈ sweptEvents w.bus now policy capDays := fun x hx =>
    (mem_archiveRows_sweptAt.mp hx).imp_right fun hx => (mem_archivedEvents_iff.mp hx.1).1
  obtain ⟨-,hseq⟩ := sweepTransaction_frame w.bus now policy capDays archiveMode
  refine ⟨?_,?_,?_,h.numbered,hseq.trans h.counted⟩
  · refine ⟨fun r hr => (h.provenance.log_le r hr).trans hseq.ge,h.provenance.log_unique,?_,h.provenance.held,
      h.provenance.moved⟩
    rintro _ ⟨e,he,rfl⟩
    exact h.provenance.live (mem_live (mem_sweptAt.mp he).1)
  · intro x hx e he hid
    obtain ⟨hlive,hkept⟩ := mem_sweptAt.mp he
    rcases hrows x hx with hx | hx
    · exact h.apart x hx e hlive hid
    · obtain rfl := KeyedTable.eq_of_key (mem_sweptEvents_live hx) hlive hid
      exact hkept hx
  · rintro _ ⟨x,hx,rfl⟩
    rcases hrows x hx with hx | hx
    · exact h.accepted ⟨x,hx,rfl⟩
    · exact h.provenance.live (mem_live (mem_sweptEvents_live hx))

theorem Separated.same (h : Separated w) (hsame : SameEvents w.bus db) : Separated { w with bus := db } := by
  refine ⟨h.provenance.sameEvents hsame,?_,?_,h.numbered,hsame.eventSeq.trans h.counted⟩
  · intro x hx e he
    have hx' : x ∈ w.bus.archiveRows := by rwa [Db.archiveRows,← hsame.eventsArchive]
    exact h.apart x hx' e (hsame.events ▸ he)
  · show db.archivedParts ⊆ _
    rw [archivedParts_of_table hsame.eventsArchive]
    exact h.accepted

theorem Separated.step_bus (h : Separated w) (hop : op.apply w.bus = some db) :
    Separated { w with bus := db, log := w.log ++ acceptedRows w.bus op } := by
  rcases busOp_cases hop with ⟨params,uuid,rfl,he⟩ | ⟨config,clock,result,rfl,hr⟩ | hsame
  · exact h.emitted he
  · obtain ⟨policy,capDays,-,-,rfl⟩ := runSweep_ok hr
    have hnone : acceptedRows w.bus (.sweep config clock) = [] := rfl
    rw [hnone,List.append_nil]
    exact h.swept _ policy capDays config.archiveMode
  · rw [acceptedRows_same hop hsame,List.append_nil]
    exact h.same hsame

theorem Separated.step (h : Separated w) (hstep : w.step a = some w') : Separated w' := by
  have hprov := h.provenance.step hstep
  cases a with
  | bus op =>
    obtain ⟨db,hop,rfl⟩ := Option.map_eq_some_iff.mp hstep
    exact h.step_bus hop
  | beginSweep p config clock =>
    obtain ⟨cfg,-,-,rfl⟩ := World.step_begin hstep
    exact ⟨hprov,h.apart,h.accepted,h.numbered,h.counted⟩
  | sweep p env =>
    obtain ⟨s,hs,rfl⟩ := World.step_sweep hstep
    have htable := sweeperStep_table env s.cfg w.bus w.archive s.phase
    obtain ⟨hlive,hseq⟩ := sweeperStep_live env s.cfg w.bus w.archive s.phase
    refine ⟨hprov,?_,?_,h.numbered,hseq.trans h.counted⟩
    · intro x hx e he hid
      have hx' : x ∈ w.bus.archiveRows := by
        have hrows : x ∈ (sweeperStep env s.cfg w.bus w.archive s.phase).bus.archiveRows := hx
        rwa [Db.archiveRows,htable] at hrows
      obtain ⟨old,hold,hfix⟩ := hlive (mem_live he)
      exact h.apart x hx' old hold (hid.trans (eventId_of_fixedPart hfix).symm)
    · show Db.archivedParts (sweeperStep env s.cfg w.bus w.archive s.phase).bus ⊆ _
      rw [archivedParts_of_table htable]
      exact h.accepted
  | crash p =>
    cases hstep
    exact ⟨hprov,h.apart,h.accepted,h.numbered,h.counted⟩

end Step

theorem archive_separated {ok : World → Action → Prop} {archive : Archive} {as : List Action} {w : World}
    (hrun : Run World.step ok (World.start .empty archive) as w) : Separated w :=
  hrun.invariant (fun _ _ _ (ht : Separated _) _ hs => ht.step hs) (.start archive)

structure Conserved (w : World) : Prop where
  separated : Separated w
  kept : w.logged ⊆ w.bus.live ∪ w.bus.archivedParts

section Conserved

variable {w w' : World} {a : Action}

theorem sweptAt_keeps {db : Db} {now : ℤ} {policy : UnackedPolicy} {capDays : ℚ} {e : EventRow}
    (hpolicy : policy ≠ .discard) (hapart : ∀ a ∈ db.archiveRows, ∀ e ∈ db.events, a.eventId ≠ e.eventId)
    (he : e ∈ db.events) : e ∈ (sweptAt policy capDays true db now).events ∨
      e ∈ (sweptAt policy capDays true db now).archiveRows := by
  by_cases hswept : e ∈ sweptEvents db now policy capDays
  · right
    have hcopied : e ∈ copiedEvents db policy true := by
      by_cases howed : e ∈ OwedBySome db
      · exact .inr ⟨hpolicy,howed⟩
      · exact .inl ⟨rfl,howed⟩
    exact mem_archiveRows_sweptAt.mpr
      (.inr ⟨mem_archivedEvents_iff.mpr ⟨hswept,hcopied⟩,fun a ha => hapart a ha e he⟩)
  · exact .inl (mem_sweptAt.mpr ⟨he,hswept⟩)

theorem Conserved.step (h : Conserved w) (hok : KeepsAll w a) (hstep : w.step a = some w') : Conserved w' := by
  refine ⟨h.separated.step hstep,?_⟩
  cases a with
  | bus op =>
    obtain ⟨db,hop,rfl⟩ := Option.map_eq_some_iff.mp hstep
    rintro x ⟨r,hr,rfl⟩
    rcases busOp_cases hop with ⟨params,uuid,rfl,he⟩ | ⟨config,clock,result,rfl,hsweep⟩ | hsame
    · show r.fixedPart ∈ db.live ∪ db.archivedParts
      rw [emit_live he,archivedParts_of_table (emit_table he)]
      rcases List.mem_append.mp hr with hr | hr
      · exact (h.kept ⟨r,hr,rfl⟩).imp_left .inr
      · rw [List.mem_singleton.mp hr]
        exact .inl (.inl rfl)
    · obtain ⟨policy,capDays,hpolicy,-,rfl⟩ := runSweep_ok hsweep
      obtain ⟨hmode,hkeeps⟩ := hok
      rw [hmode]
      have hold : r ∈ w.log := by simpa [acceptedRows] using hr
      rcases h.kept ⟨r,hold,rfl⟩ with ⟨e,he,hfix⟩ | ⟨y,hy,hfix⟩
      · rw [← hfix]
        have hnot : policy ≠ .discard := fun hd => hkeeps (hd ▸ hpolicy)
        exact (sweptAt_keeps hnot h.separated.apart he).imp (fun he => ⟨e,he,rfl⟩) (fun he => ⟨e,he,rfl⟩)
      · exact .inr ⟨y,mem_archiveRows_sweptAt.mpr (.inl hy),hfix⟩
    · show r.fixedPart ∈ db.live ∪ db.archivedParts
      rw [hsame.live,archivedParts_of_table hsame.eventsArchive]
      refine h.kept ⟨r,?_,rfl⟩
      rwa [acceptedRows_same hop hsame,List.append_nil] at hr
  | _ => exact hok.elim

theorem Conserved.start (archive : Archive) : Conserved (World.start .empty archive) where
  separated := .start archive
  kept := by
    rintro x ⟨r,hr,rfl⟩
    cases hr

theorem Separated.exclusive (h : Separated w) {r : EventRow} (hlive : r.fixedPart ∈ w.bus.live) :
    r.fixedPart ∉ w.bus.archivedParts := by
  rintro ⟨x,hx,hfix⟩
  obtain ⟨e,he,hfix'⟩ := hlive
  exact h.apart x hx e he ((eventId_of_fixedPart hfix).trans (eventId_of_fixedPart hfix').symm)

theorem ids_nodup (t : EventTable) : (t.rows.map EventRow.eventId).Nodup :=
  (List.pairwise_map.mpr t.sorted).imp ne_of_lt

theorem Separated.log_nodup (h : Separated w) : (w.log.map EventRow.eventId).Nodup := by
  rw [h.numbered]
  exact List.nodup_range.map fun a b hab => by simpa using hab

theorem Conserved.ids_perm (h : Conserved w) :
    (w.bus.events.rows.map EventRow.eventId ++ w.bus.archiveRows.rows.map EventRow.eventId).Perm
      (w.log.map EventRow.eventId) := by
  refine (List.perm_ext_iff_of_nodup ?_ h.separated.log_nodup).mpr fun i => ?_
  · refine List.nodup_append.mpr ⟨ids_nodup _,ids_nodup _,?_⟩
    intro i hi j hj hij
    obtain ⟨e,he,rfl⟩ := List.mem_map.mp hi
    obtain ⟨x,hx,rfl⟩ := List.mem_map.mp hj
    exact h.separated.apart x hx e he hij.symm
  · simp only [List.mem_append,List.mem_map,KeyedTable.mem_rows]
    constructor
    · rintro (⟨e,he,rfl⟩ | ⟨x,hx,rfl⟩)
      · obtain ⟨r,hr,hfix⟩ := h.separated.provenance.live (mem_live he)
        exact ⟨r,hr,eventId_of_fixedPart hfix⟩
      · obtain ⟨r,hr,hfix⟩ := h.separated.accepted ⟨x,hx,rfl⟩
        exact ⟨r,hr,eventId_of_fixedPart hfix⟩
    · rintro ⟨r,hr,rfl⟩
      rcases h.kept ⟨r,hr,rfl⟩ with ⟨e,he,hfix⟩ | ⟨x,hx,hfix⟩
      · exact .inl ⟨e,he,eventId_of_fixedPart hfix⟩
      · exact .inr ⟨x,hx,eventId_of_fixedPart hfix⟩

end Conserved

theorem archive_mode_conserves {archive : Archive} {as : List Action} {w : World}
    (hrun : Run World.step KeepsAll (World.start .empty archive) as w) :
    w.bus.live ∪ w.bus.archivedParts = w.logged ∧
      Disjoint w.bus.live w.bus.archivedParts ∧
      w.bus.events.rows.length + w.bus.archiveRows.rows.length = w.log.length := by
  have h : Conserved w :=
    hrun.invariant (fun _ _ _ (ht : Conserved _) hok hs => ht.step hok hs) (.start archive)
  refine ⟨?_,?_,?_⟩
  · exact (Set.union_subset h.separated.provenance.live h.separated.accepted).antisymm h.kept
  · rw [Set.disjoint_left]
    rintro _ ⟨e,he,rfl⟩
    exact h.separated.exclusive (mem_live he)
  · simpa using h.ids_perm.length_eq

def archiveSweep : Action := .bus (.sweep ⟨some "archive",none,true,some 3000,none,none⟩ 0)

def reusedAfterArchive : List Action :=
  [] ++ [.bus (.emit expiredSample "u")] ++ [archiveSweep] ++ [.bus (.emit expiredSample "u")]

theorem run_reusedAfterArchive : ∃ w : World,
    Run World.step KeepsAll (World.start .empty .empty) reusedAfterArchive w ∧
      w.bus.archiveRows.rows.length = 1 := by
  have hreach : ((World.start .empty .empty).step (.bus (.emit expiredSample "u"))).any (fun w =>
      (w.step archiveSweep).any (fun w => (w.step (.bus (.emit expiredSample "u"))).any (fun w =>
        decide (w.bus.archiveRows.rows.length = 1)))) = true := by decide +kernel
  obtain ⟨w₁,h₁,hreach⟩ := (Option.any_eq_true _ _).mp hreach
  obtain ⟨w₂,h₂,hreach⟩ := (Option.any_eq_true _ _).mp hreach
  obtain ⟨w,h₃,hreach⟩ := (Option.any_eq_true _ _).mp hreach
  have hemitted : Run World.step KeepsAll (World.start .empty .empty)
      ([] ++ [.bus (.emit expiredSample "u")]) w₁ := .snoc .nil trivial h₁
  have hswept : Run World.step KeepsAll (World.start .empty .empty)
      ([] ++ [.bus (.emit expiredSample "u")] ++ [archiveSweep]) w₂ := .snoc hemitted ⟨rfl,by decide⟩ h₂
  exact ⟨w,.snoc hswept trivial h₃,of_decide_eq_true hreach⟩

theorem archive_separated_sample : ∃ w : World,
    Run World.step KeepsAll (World.start .empty .empty) reusedAfterArchive w ∧ Separated w := by
  obtain ⟨w,hrun,-⟩ := run_reusedAfterArchive
  exact ⟨w,hrun,archive_separated hrun⟩

theorem archive_mode_conserves_sample : ∃ w : World,
    Run World.step KeepsAll (World.start .empty .empty) reusedAfterArchive w ∧
      w.bus.events.rows.length + 1 = w.log.length := by
  obtain ⟨w,hrun,hone⟩ := run_reusedAfterArchive
  exact ⟨w,hrun,hone ▸ (archive_mode_conserves hrun).2.2⟩

end WickedBus
