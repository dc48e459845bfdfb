import WickedBus.Foundation.Schedule
import WickedBus.Sweep

namespace WickedBus

def sweptAt (policy : UnackedPolicy) (capDays : ℚ) (archiveMode : Bool) (db : Db) (now : ℤ) : Db :=
  (sweepTransaction db now policy capDays archiveMode).1

def deletedAt (policy : UnackedPolicy) (capDays : ℚ) (archiveMode : Bool) (db : Db) (now : ℤ) : ℕ :=
  (sweepTransaction db now policy capDays archiveMode).2.eventsDeleted

def sweepTicks (config : SweepConfig) : Db → List ℤ → Except BusError (Db × ℕ)
  | db, [] => pure (db,0)
  | db, clock :: clocks => do
    let (swept,result) ← runSweep db config clock
    let (final,deleted) ← sweepTicks config swept clocks
    pure (final,result.eventsDeleted + deleted)

section Monotone

variable {db : Db} {t u : ℤ} {policy : UnackedPolicy} {capDays : ℚ} {archiveMode : Bool} {e : EventRow}

theorem EventRow.expired_mono (htu : t ≤ u) (h : e.expired t = true) : e.expired u = true := by
  have hcast : (t : ℚ) ≤ u := by exact_mod_cast htu
  simp only [EventRow.expired,decide_eq_true_eq] at h ⊢
  exact h.trans_le hcast

theorem overCapEvents_mono (htu : t ≤ u) (h : e ∈ overCapEvents t capDays) : e ∈ overCapEvents u capDays := by
  have hcast : (t : ℚ) ≤ u := by exact_mod_cast htu
  simp only [overCapEvents,EventRow.overCap,Set.mem_ofPred_eq,decide_eq_true_eq] at h ⊢
  linarith

theorem expiredEvents_mono (htu : t ≤ u) (h : e ∈ expiredEvents db t) : e ∈ expiredEvents db u :=
  ⟨h.1,EventRow.expired_mono htu h.2⟩

theorem mem_sweptAt : e ∈ (sweptAt policy capDays archiveMode db t).events ↔
    e ∈ db.events ∧ e ∉ sweptEvents db t policy capDays :=
  mem_sweepTransaction

theorem owes_sweptAt {cursorId : String} :
    Owes (sweptAt policy capDays archiveMode db t) cursorId e ↔ Owes db cursorId e := by
  obtain ⟨h,-⟩ := sweepTransaction_frame db t policy capDays archiveMode
  rw [Owes,Owes,sweptAt,h.cursors,h.subscriptions,h.deliveryAttempts]

theorem expiredEvents_sweptAt (he : e ∈ (sweptAt policy capDays archiveMode db t).events) :
    e ∈ expiredEvents (sweptAt policy capDays archiveMode db t) u ↔ e ∈ expiredEvents db u :=
  and_congr_left fun _ => iff_of_true he (mem_sweptAt.mp he).1

theorem owedEvents_sweptAt (he : e ∈ (sweptAt policy capDays archiveMode db t).events) :
    e ∈ owedEvents (sweptAt policy capDays archiveMode db t) u ↔ e ∈ owedEvents db u :=
  and_congr (expiredEvents_sweptAt he) (exists_congr fun _ => owes_sweptAt)

theorem heldEvents_sweptAt (he : e ∈ (sweptAt policy capDays archiveMode db t).events) :
    e ∈ heldEvents (sweptAt policy capDays archiveMode db t) u policy capDays ↔
      e ∈ heldEvents db u policy capDays := by
  simp only [heldEvents,Set.mem_ofPred_eq,Set.mem_sdiff,owedEvents_sweptAt he]

theorem sweptEvents_mono (htu : t ≤ u) (h : e ∈ sweptEvents db t policy capDays) :
    e ∈ sweptEvents db u policy capDays := by
  obtain ⟨hexp,hheld⟩ := mem_sweptEvents.mp h
  refine mem_sweptEvents.mpr ⟨expiredEvents_mono htu hexp,?_⟩
  rintro ⟨hretain,⟨⟨-,howes⟩,hcap⟩⟩
  refine hheld ⟨hretain,⟨hexp,howes⟩,fun hover => hcap ?_⟩
  exact overCapEvents_mono htu hover

theorem sweptEvents_sweptAt (he : e ∈ (sweptAt policy capDays archiveMode db t).events) :
    e ∈ sweptEvents (sweptAt policy capDays archiveMode db t) u policy capDays ↔
      e ∈ sweptEvents db u policy capDays := by
  rw [mem_sweptEvents,mem_sweptEvents,expiredEvents_sweptAt he,heldEvents_sweptAt he]

end Monotone

def OwedBySome (db : Db) : Set EventRow := {e | ∃ cursorId, Owes db cursorId e}

def copiedEvents (db : Db) (policy : UnackedPolicy) (archiveMode : Bool) : Set EventRow :=
  {e | (archiveMode = true ∧ e ∉ OwedBySome db) ∨ (policy ≠ .discard ∧ e ∈ OwedBySome db)}

section Archive

variable {db : Db} {t u : ℤ} {policy : UnackedPolicy} {capDays : ℚ} {archiveMode : Bool} {e : EventRow}

theorem mem_owedEvents : e ∈ owedEvents db t ↔ e ∈ expiredEvents db t ∧ e ∈ OwedBySome db := Iff.rfl

theorem mem_archivedOwed : e ∈ archivedOwed db t policy capDays ↔
    e ∈ sweptEvents db t policy capDays ∧ policy ≠ .discard ∧ e ∈ OwedBySome db := by
  rw [mem_sweptEvents]
  cases policy <;> simp only [archivedOwed,heldEvents,Set.mem_inter_iff,Set.mem_ofPred_eq,Set.mem_sdiff,
    mem_owedEvents,Set.mem_empty_iff_false,ne_eq,reduceCtorEq,not_true,not_false_iff] <;> tauto

theorem mem_archivedEvents_iff : e ∈ archivedEvents db t policy capDays archiveMode ↔
    e ∈ sweptEvents db t policy capDays ∧ e ∈ copiedEvents db policy archiveMode := by
  have hunowed : (archiveMode = true ∧ e ∈ expiredEvents db t \ owedEvents db t) ↔
      e ∈ sweptEvents db t policy capDays ∧ archiveMode = true ∧ e ∉ OwedBySome db := by
    rw [mem_sweptEvents]
    simp only [heldEvents,Set.mem_sdiff,mem_owedEvents,Set.mem_ofPred_eq]
    tauto
  rw [archivedEvents,Set.mem_union,Set.mem_ofPred_eq,hunowed,mem_archivedOwed,← and_or_left]
  exact Iff.rfl

theorem mem_sweptEvents_live (h : e ∈ sweptEvents db t policy capDays) : e ∈ db.events :=
  (mem_sweptEvents.mp h).1.1

theorem sweptEvents_split (htu : t ≤ u) : sweptEvents db u policy capDays =
    sweptEvents db t policy capDays ∪ sweptEvents (sweptAt policy capDays archiveMode db t) u policy capDays := by
  ext e
  constructor
  · intro h
    by_cases hearly : e ∈ sweptEvents db t policy capDays
    · exact .inl hearly
    · exact .inr ((sweptEvents_sweptAt (mem_sweptAt.mpr ⟨mem_sweptEvents_live h,hearly⟩)).mpr h)
  · rintro (h | h)
    · exact sweptEvents_mono htu h
    · exact (sweptEvents_sweptAt (mem_sweptEvents_live h)).mp h

theorem sweptEvents_disjoint : Disjoint (sweptEvents db t policy capDays)
    (sweptEvents (sweptAt policy capDays archiveMode db t) u policy capDays) := by
  rw [Set.disjoint_left]
  intro e hearly hlate
  exact (mem_sweptAt.mp (mem_sweptEvents_live hlate)).2 hearly

theorem owedBySome_sweptAt : OwedBySome (sweptAt policy capDays archiveMode db t) = OwedBySome db := by
  ext e
  exact exists_congr fun _ => owes_sweptAt

theorem archivedEvents_split (htu : t ≤ u) : archivedEvents db u policy capDays archiveMode =
    archivedEvents db t policy capDays archiveMode ∪
      archivedEvents (sweptAt policy capDays archiveMode db t) u policy capDays archiveMode := by
  ext e
  simp only [Set.mem_union,mem_archivedEvents_iff,copiedEvents,owedBySome_sweptAt,
    @sweptEvents_split db t u policy capDays archiveMode htu]
  exact or_and_right

theorem archivedOwed_split (htu : t ≤ u) : archivedOwed db u policy capDays =
    archivedOwed db t policy capDays ∪ archivedOwed (sweptAt policy capDays archiveMode db t) u policy capDays := by
  ext e
  simp only [Set.mem_union,mem_archivedOwed,owedBySome_sweptAt,
    @sweptEvents_split db t u policy capDays archiveMode htu]
  exact or_and_right

end Archive

section Absorption

variable {db : Db} {t u : ℤ} {policy : UnackedPolicy} {capDays : ℚ} {archiveMode : Bool} {e : EventRow}

theorem mem_archiveRows_sweptAt : e ∈ (sweptAt policy capDays archiveMode db t).archiveRows ↔
    e ∈ db.archiveRows ∨ (e ∈ archivedEvents db t policy capDays archiveMode ∧
      ∀ a ∈ db.archiveRows, a.eventId ≠ e.eventId) :=
  mem_sweepTransaction_archiveRows

theorem archiveTable_sweptAt : (sweptAt policy capDays archiveMode db t).eventsArchive.isSome = true ↔
    db.eventsArchive.isSome = true ∨ archiveMode = true ∨ (archivedOwed db t policy capDays).Nonempty := by
  obtain ⟨db₄,-,htable,hdb,-⟩ := sweepTransaction_takes db t policy capDays archiveMode
  rw [sweptAt,hdb,← htable]
  exact Iff.rfl

theorem deletedAt_eq_ncard :
    deletedAt policy capDays archiveMode db t = (sweptEvents db t policy capDays).ncard := by
  obtain ⟨db₄,htakes,-,-,hcount⟩ := sweepTransaction_takes db t policy capDays archiveMode
  rw [deletedAt,hcount,htakes.events,← ncard_of_nodup (db.events.nodup_rows.filter _)]
  congr 1
  ext e
  simp only [List.mem_filter,KeyedTable.mem_rows,Set.mem_ofPred_eq]
  constructor
  · rintro ⟨he,hdelete⟩
    exact (sweepDeletes_iff he).mp hdelete
  · intro he
    have hlive := mem_sweptEvents_live he
    exact ⟨hlive,(sweepDeletes_iff hlive).mpr he⟩

theorem sweptEvents_finite : (sweptEvents db t policy capDays).Finite :=
  (List.finite_toSet db.events.rows).subset fun _ he => mem_sweptEvents_live he

theorem Db.eq_of_frame {a b : Db} (h : Db.Frame a b) (hevents : a.events = b.events)
    (hseq : a.eventSeq = b.eventSeq) (harchive : a.eventsArchive = b.eventsArchive) : a = b := by
  obtain ⟨hs,hc,hd,hl,hq⟩ := h
  cases a
  cases b
  dsimp only at *
  subst hs hc hd hl hq hevents hseq harchive
  rfl

theorem eventsArchive_eq {a b : Db} (hsome : a.eventsArchive.isSome = true ↔ b.eventsArchive.isSome = true)
    (hrows : ∀ e, e ∈ a.archiveRows ↔ e ∈ b.archiveRows) : a.eventsArchive = b.eventsArchive := by
  have hrows' : a.archiveRows = b.archiveRows := KeyedTable.ext_mem hrows
  unfold Db.archiveRows at hrows'
  cases ha : a.eventsArchive <;> cases hb : b.eventsArchive <;> simp_all

theorem archiveRows_absorb (htu : t ≤ u) : e ∈ (sweptAt policy capDays archiveMode
    (sweptAt policy capDays archiveMode db t) u).archiveRows ↔
      e ∈ (sweptAt policy capDays archiveMode db u).archiveRows := by
  rw [mem_archiveRows_sweptAt,mem_archiveRows_sweptAt,mem_archiveRows_sweptAt,
    @archivedEvents_split db t u policy capDays archiveMode htu,Set.mem_union]
  constructor
  · rintro ((h | ⟨h,hfresh⟩) | ⟨h,hfresh⟩)
    · exact .inl h
    · exact .inr ⟨.inl h,hfresh⟩
    · exact .inr ⟨.inr h,fun a ha => hfresh a (mem_archiveRows_sweptAt.mpr (.inl ha))⟩
  · rintro (h | ⟨h | h,hfresh⟩)
    · exact .inl (.inl h)
    · exact .inl (.inr ⟨h,hfresh⟩)
    · refine .inr ⟨h,fun a ha hid => ?_⟩
      rcases mem_archiveRows_sweptAt.mp ha with ha | ⟨ha,-⟩
      · exact hfresh a ha hid
      · have hswept := (mem_archivedEvents_iff.mp ha).1
        have hlate := mem_sweptAt.mp (mem_sweptEvents_live (mem_archivedEvents_iff.mp h).1)
        obtain rfl := KeyedTable.eq_of_key (mem_sweptEvents_live hswept) hlate.1 hid
        exact hlate.2 hswept

theorem sweptAt_absorb (policy : UnackedPolicy) (capDays : ℚ) (archiveMode : Bool) (db : Db) (htu : t ≤ u) :
    sweptAt policy capDays archiveMode (sweptAt policy capDays archiveMode db t) u =
      sweptAt policy capDays archiveMode db u := by
  obtain ⟨hearly,hearlySeq⟩ := sweepTransaction_frame db t policy capDays archiveMode
  obtain ⟨hlate,hlateSeq⟩ := sweepTransaction_frame (sweptAt policy capDays archiveMode db t) u policy
    capDays archiveMode
  obtain ⟨hone,honeSeq⟩ := sweepTransaction_frame db u policy capDays archiveMode
  have htwo := hearly.trans hlate
  have hframe : Db.Frame (sweptAt policy capDays archiveMode (sweptAt policy capDays archiveMode db t) u)
      (sweptAt policy capDays archiveMode db u) :=
    ⟨hone.subscriptions.trans htwo.subscriptions.symm,hone.cursors.trans htwo.cursors.symm,
      hone.deliveryAttempts.trans htwo.deliveryAttempts.symm,hone.deadLetters.trans htwo.deadLetters.symm,
      hone.deadLetterSeq.trans htwo.deadLetterSeq.symm⟩
  refine Db.eq_of_frame hframe (KeyedTable.ext_mem fun e => ?_)
    ((hlateSeq.trans hearlySeq).trans honeSeq.symm) (eventsArchive_eq ?_ fun e => archiveRows_absorb htu)
  · rw [mem_sweptAt,mem_sweptAt,mem_sweptAt,@sweptEvents_split db t u policy capDays archiveMode htu,
      Set.mem_union,not_or,and_assoc]
  · rw [archiveTable_sweptAt,archiveTable_sweptAt,archiveTable_sweptAt,
      @archivedOwed_split db t u policy capDays archiveMode htu,Set.union_nonempty]
    tauto

theorem deletedAt_add (htu : t ≤ u) : deletedAt policy capDays archiveMode db t +
    deletedAt policy capDays archiveMode (sweptAt policy capDays archiveMode db t) u =
      deletedAt policy capDays archiveMode db u := by
  rw [deletedAt_eq_ncard,deletedAt_eq_ncard,deletedAt_eq_ncard,
    @sweptEvents_split db t u policy capDays archiveMode htu,
    Set.ncard_union_eq sweptEvents_disjoint sweptEvents_finite sweptEvents_finite]

theorem sweep_absorbs (policy : UnackedPolicy) (capDays : ℚ) (archiveMode : Bool) :
    Schedule.Absorbs (sweptAt policy capDays archiveMode) (deletedAt policy capDays archiveMode) :=
  ⟨fun db _ _ htu => sweptAt_absorb policy capDays archiveMode db htu,fun _ _ _ htu => deletedAt_add htu⟩

end Absorption

theorem sweepTicks_ok {config : SweepConfig} {policy : UnackedPolicy} {capDays : ℚ}
    (hpolicy : resolveUnackedPolicy config = .ok policy)
    (hcap : resolveRetentionCapDays config = .ok capDays) (db : Db) (clocks : List ℤ) :
    sweepTicks config db clocks =
      .ok ((clocks.map config.now.getD).foldl (sweptAt policy capDays config.archiveMode) db,
        Schedule.total (sweptAt policy capDays config.archiveMode)
          (deletedAt policy capDays config.archiveMode) db (clocks.map config.now.getD)) := by
  induction clocks generalizing db with
  | nil => rfl
  | cons clock clocks ih =>
    simp only [sweepTicks,runSweep_eq hpolicy hcap,bind,Except.bind]
    rw [← sweptAt,ih]
    rfl

theorem sweep_cadence {db : Db} {config : SweepConfig} {clocks : List ℤ} {last : ℤ}
    (hsorted : (clocks ++ [last]).Pairwise (· ≤ ·)) :
    sweepTicks config db (clocks ++ [last]) =
      (runSweep db config last).map (fun r => (r.1,r.2.eventsDeleted)) := by
  cases hpolicy : resolveUnackedPolicy config with
  | error error =>
    cases clocks <;> simp [sweepTicks,runSweep,hpolicy,bind,Except.bind,Except.map]
  | ok policy =>
    cases hcap : resolveRetentionCapDays config with
    | error error =>
      cases clocks <;> simp [sweepTicks,runSweep,hpolicy,hcap,bind,Except.bind,Except.map]
    | ok capDays =>
      have hmono : ((clocks.map config.now.getD) ++ [config.now.getD last]).Pairwise (· ≤ ·) := by
        rw [← List.map_singleton,← List.map_append]
        refine hsorted.map _ fun a b hab => ?_
        cases config.now with
        | none => exact hab
        | some now => exact le_rfl
      have habsorbs := sweep_absorbs policy capDays config.archiveMode
      rw [sweepTicks_ok hpolicy hcap,List.map_append,List.map_singleton,habsorbs.foldl db hmono,
        habsorbs.total db hmono,runSweep_eq hpolicy hcap]
      rfl

theorem sweep_cadence_sample :
    sweepTicks ⟨some "archive",none,true,none,none,none⟩ owedSample ([1500,2500] ++ [3000]) =
      (runSweep owedSample ⟨some "archive",none,true,none,none,none⟩ 3000).map
        (fun r => (r.1,r.2.eventsDeleted)) :=
  sweep_cadence (by decide)

end WickedBus
