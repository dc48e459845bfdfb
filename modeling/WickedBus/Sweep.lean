import WickedBus.Emit
import WickedBus.Retention

namespace WickedBus

structure SweepResult where
  eventsDeleted : ℕ
  unackedPolicy : UnackedPolicy
  unacked : UnackedReport
  deriving DecidableEq, Repr

def cappedIds (policy : UnackedPolicy) (pairs : List OwedPair) : List ℤ :=
  if policy = .retain then ((pairs.filter OwedPair.overCap).map OwedPair.eventId).eraseDups else []

def notOwed (owed : OwedTable) (e : EventRow) : Bool :=
  !owed.rows.any (fun o => o.eventId = e.eventId)

def sweepFate (policy : UnackedPolicy) (p : OwedPair) : Fate :=
  if policy = .retain ∧ p.overCap = true then ⟨.archived,.retentionCap⟩
  else ⟨policy.verb,.unackedPolicy⟩

def createArchiveTable (db : Db) : Db :=
  { db with eventsArchive := some (db.eventsArchive.getD .empty) }

def archiveWhere (db : Db) (p : EventRow → Bool) : Db :=
  { db with eventsArchive := db.eventsArchive.map (·.insertAll (db.events.rows.filter p)) }

def sweepDeletes (policy : UnackedPolicy) (now : ℤ) (owed : OwedTable) (capped : List ℤ)
    (e : EventRow) : Bool :=
  match policy with
  | .retain => e.expired now && (notOwed owed e || decide (e.eventId ∈ capped))
  | _ => e.expired now

def sweepTransaction (db : Db) (now : ℤ) (policy : UnackedPolicy) (capDays : ℚ)
    (archiveMode : Bool) : Db × SweepResult :=
  let owed := collectOwedExpired db now
  let pairs := owedPairsWithCap db now capDays owed
  let capped := cappedIds policy pairs
  let owedCount := (pairs.map OwedPair.eventId).eraseDups.length
  let archivesOwed := policy = .archive ∧ 0 < owedCount
  let db₁ := if archiveMode = true ∨ archivesOwed ∨ 0 < capped.length then createArchiveTable db
    else db
  let db₂ := if archiveMode then archiveWhere db₁ (fun e => e.expired now && notOwed owed e) else db₁
  let db₃ := if archivesOwed then archiveWhere db₂ (fun e => !notOwed owed e) else db₂
  let db₄ := if 0 < capped.length then archiveWhere db₃ (fun e => decide (e.eventId ∈ capped)) else db₃
  let deletes := sweepDeletes policy now owed capped
  (db₄.deleteEvents deletes,
    ⟨(db₄.events.rows.filter deletes).length,policy,
      buildUnackedReport pairs (sweepFate policy) policy capDays⟩)

def runSweep (db : Db) (config : SweepConfig) (clock : ℤ) : Except BusError (Db × SweepResult) := do
  let policy ← resolveUnackedPolicy config
  let capDays ← resolveRetentionCapDays config
  pure (sweepTransaction db (config.now.getD clock) policy capDays config.archiveMode)

def sweptEvents (db : Db) (now : ℤ) (policy : UnackedPolicy) (capDays : ℚ) : Set EventRow :=
  match policy with
  | .retain => expiredEvents db now \ (owedEvents db now \ overCapEvents now capDays)
  | _ => expiredEvents db now

def archivedOwed (db : Db) (now : ℤ) (policy : UnackedPolicy) (capDays : ℚ) : Set EventRow :=
  match policy with
  | .archive => owedEvents db now
  | .retain => owedEvents db now ∩ overCapEvents now capDays
  | .discard => ∅

def archivedEvents (db : Db) (now : ℤ) (policy : UnackedPolicy) (capDays : ℚ)
    (archiveMode : Bool) : Set EventRow :=
  {e | archiveMode = true ∧ e ∈ expiredEvents db now \ owedEvents db now} ∪
    archivedOwed db now policy capDays

section Membership

variable {db : Db} {now : ℤ} {capDays : ℚ} {e : EventRow}

theorem notOwed_iff (he : e ∈ db.events) :
    notOwed (collectOwedExpired db now) e = false ↔ e ∈ owedEvents db now := by
  simp only [notOwed,Bool.not_eq_false',List.any_eq_true,decide_eq_true_eq,KeyedTable.mem_rows,
    mem_collectOwedExpired]
  constructor
  · rintro ⟨o,⟨r,hr,hrk,hown⟩,hok⟩
    obtain rfl := KeyedTable.eq_of_key hr.1 he (hrk.trans hok)
    exact ⟨hr,o.cursorId,hown⟩
  · rintro ⟨hexp,cursorId,hown⟩
    exact ⟨⟨e.eventId,cursorId⟩,⟨e,hexp,rfl,hown⟩,rfl⟩

theorem mem_cappedIds {policy : UnackedPolicy} (he : e ∈ db.events) :
    e.eventId ∈ cappedIds policy (owedPairsWithCap db now capDays (collectOwedExpired db now)) ↔
      policy = .retain ∧ e ∈ owedEvents db now ∩ overCapEvents now capDays := by
  unfold cappedIds
  split_ifs with hp
  · simp only [List.mem_eraseDups,List.mem_map,List.mem_filter,mem_owedPairs,hp,true_and]
    constructor
    · rintro ⟨p,⟨⟨r,hr,hown,hrk,hcap⟩,hover⟩,hpk⟩
      obtain rfl := KeyedTable.eq_of_key hr.1 he (hrk.trans hpk)
      exact ⟨⟨hr,p.cursorId,hown⟩,hcap.symm.trans hover⟩
    · rintro ⟨⟨hexp,cursorId,hown⟩,hover⟩
      exact ⟨⟨e.eventId,cursorId,e.overCap now capDays⟩,⟨⟨e,hexp,hown,rfl,rfl⟩,hover⟩,rfl⟩
  · simp [hp]

theorem sweepDeletes_iff {policy : UnackedPolicy} (he : e ∈ db.events) :
    sweepDeletes policy now (collectOwedExpired db now)
        (cappedIds policy (owedPairsWithCap db now capDays (collectOwedExpired db now))) e = true ↔
      e ∈ sweptEvents db now policy capDays := by
  cases policy with
  | retain =>
    simp only [sweepDeletes,sweptEvents,Bool.and_eq_true,Bool.or_eq_true,decide_eq_true_eq,
      mem_cappedIds he,true_and,Set.mem_sdiff,not_and,not_not,← Bool.not_eq_false (notOwed _ _),
      notOwed_iff he]
    refine and_congr ⟨fun h => ⟨he,h⟩,fun h => h.2⟩ ?_
    constructor
    · rintro (hno | ⟨-,hcap⟩) ho
      · exact absurd ho hno
      · exact hcap
    · intro h
      by_cases ho : e ∈ owedEvents db now
      · exact .inr ⟨ho,h ho⟩
      · exact .inl ho
  | archive => exact ⟨fun h => ⟨he,h⟩,fun h => h.2⟩
  | discard => exact ⟨fun h => ⟨he,h⟩,fun h => h.2⟩

end Membership

structure ArchiveGrows (db db' : Db) (added : Set EventRow) : Prop where
  frame : Db.Frame db db'
  events : db'.events = db.events
  eventSeq : db'.eventSeq = db.eventSeq
  live : ∀ e ∈ added, e ∈ db.events
  rows : ∀ e, e ∈ db'.archiveRows ↔ e ∈ db.archiveRows ∨ e ∈ added

structure ArchiveTakes (db db' : Db) (added : Set EventRow) : Prop where
  frame : Db.Frame db db'
  events : db'.events = db.events
  eventSeq : db'.eventSeq = db.eventSeq
  live : ∀ e ∈ added, e ∈ db.events
  rows : ∀ e, e ∈ db'.archiveRows ↔
    e ∈ db.archiveRows ∨ (e ∈ added ∧ ∀ a ∈ db.archiveRows, a.eventId ≠ e.eventId)

section Archiving

variable {db db' : Db} {added : Set EventRow}

theorem ArchiveTakes.grows (h : ArchiveTakes db db' added)
    (hfresh : ∀ a ∈ db.archiveRows, ∀ e ∈ db.events, a.eventId ≠ e.eventId) :
    ArchiveGrows db db' added := by
  refine ⟨h.frame,h.events,h.eventSeq,h.live,fun e => (h.rows e).trans (or_congr_right ?_)⟩
  exact and_iff_left_of_imp fun he a ha => hfresh a ha e (h.live e he)

theorem archiveTakes_create (db : Db) (c : Prop) [Decidable c] :
    ArchiveTakes db (if c then createArchiveTable db else db) ∅ := by
  split_ifs
  · exact ⟨⟨rfl,rfl,rfl,rfl,rfl⟩,rfl,rfl,by simp,by simp [createArchiveTable,Db.archiveRows]⟩
  · exact ⟨.refl db,rfl,rfl,by simp,by simp⟩

theorem archiveRows_archiveWhere (h : db.eventsArchive.isSome) (p : EventRow → Bool) :
    (archiveWhere db p).archiveRows = db.archiveRows.insertAll (db.events.rows.filter p) := by
  obtain ⟨t,ht⟩ := Option.isSome_iff_exists.mp h
  simp [archiveWhere,Db.archiveRows,ht]

theorem ArchiveTakes.archiveWhere {more : Set EventRow} (h : ArchiveTakes db db' added)
    {p : EventRow → Bool} (hmore : ∀ e ∈ more, e ∈ db.events)
    (hp : ∀ e ∈ db.events, p e = true ↔ e ∈ more) (hsome : db'.eventsArchive.isSome) :
    ArchiveTakes db (archiveWhere db' p) (added ∪ more) := by
  refine ⟨h.frame.trans ⟨rfl,rfl,rfl,rfl,rfl⟩,h.events,h.eventSeq,?_,?_⟩
  · rintro e (he | he)
    · exact h.live e he
    · exact hmore e he
  · intro e
    have hdistinct : (db.events.rows.filter p).Pairwise (fun a b => a.eventId ≠ b.eventId) :=
      (db.events.sorted.imp ne_of_lt).filter p
    rw [archiveRows_archiveWhere hsome,h.events,KeyedTable.mem_insertAll hdistinct]
    simp only [List.mem_filter,KeyedTable.mem_rows,Set.mem_union]
    constructor
    · rintro (he | ⟨⟨he,hpe⟩,hfresh⟩)
      · exact ((h.rows e).mp he).imp_right (And.imp_left .inl)
      · exact .inr ⟨.inr ((hp e he).mp hpe),fun a ha => hfresh a ((h.rows a).mpr (.inl ha))⟩
    · rintro (he | ⟨he,hfresh⟩)
      · exact .inl ((h.rows e).mpr (.inl he))
      · by_cases hin : e ∈ added
        · exact .inl ((h.rows e).mpr (.inr ⟨hin,hfresh⟩))
        · have he := he.resolve_left hin
          refine .inr ⟨⟨hmore e he,(hp e (hmore e he)).mpr he⟩,fun y hy hk => ?_⟩
          rcases (h.rows y).mp hy with hy | ⟨hy,-⟩
          · exact hfresh y hy hk
          · exact hin (KeyedTable.eq_of_key (h.live y hy) (hmore e he) hk ▸ hy)

theorem ArchiveTakes.archiveWhen (h : ArchiveTakes db db' added) (more : Set EventRow)
    {p : EventRow → Bool} (hmore : ∀ e ∈ more, e ∈ db.events)
    {c : Prop} [Decidable c] (hc : ¬ c → more = ∅)
    (hp : c → ∀ e ∈ db.events, p e = true ↔ e ∈ more) (hsome : c → db'.eventsArchive.isSome) :
    ArchiveTakes db (if c then WickedBus.archiveWhere db' p else db') (added ∪ more) := by
  split_ifs with hcond
  · exact h.archiveWhere hmore (hp hcond) (hsome hcond)
  · rw [hc hcond,Set.union_empty]
    exact h

theorem eventsArchive_archiveWhen (db : Db) (c : Prop) [Decidable c] (p : EventRow → Bool) :
    (if c then archiveWhere db p else db).eventsArchive.isSome = db.eventsArchive.isSome := by
  split_ifs <;> simp [archiveWhere]

end Archiving

theorem owedPairs_distinct (db : Db) (now : ℤ) (capDays : ℚ) (owed : OwedTable) :
    (owedPairsWithCap db now capDays owed).Pairwise
      (fun p q => ¬ (p.eventId = q.eventId ∧ p.cursorId = q.cursorId)) := by
  unfold owedPairsWithCap
  refine List.Pairwise.filterMap _ ?_ owed.nodup_rows
  rintro ⟨i,k⟩ ⟨j,l⟩ hne p hp q hq
  obtain ⟨_,-,rfl⟩ := Option.map_eq_some_iff.mp hp
  obtain ⟨_,-,rfl⟩ := Option.map_eq_some_iff.mp hq
  rintro ⟨hid,hcursor⟩
  exact hne (by rw [OwedRow.mk.injEq]; exact ⟨hid,hcursor⟩)

theorem owedPairs_nodup (db : Db) (now : ℤ) (capDays : ℚ) (owed : OwedTable) :
    (owedPairsWithCap db now capDays owed).Nodup := by
  refine (owedPairs_distinct db now capDays owed).imp ?_
  rintro p q hne rfl
  exact hne ⟨rfl,rfl⟩

section Counting

variable {db : Db} {now : ℤ} {capDays : ℚ}

theorem eraseDups_length_pos {l : List ℤ} : 0 < l.eraseDups.length ↔ ∃ i, i ∈ l := by
  simp [List.length_pos_iff_exists_mem]

theorem owedCount_pos :
    0 < ((owedPairsWithCap db now capDays (collectOwedExpired db now)).map
      OwedPair.eventId).eraseDups.length ↔ (owedEvents db now).Nonempty := by
  simp only [eraseDups_length_pos,List.mem_map,mem_owedPairs]
  constructor
  · rintro ⟨_,p,⟨e,he,hown,_⟩,_⟩
    exact ⟨e,he,p.cursorId,hown⟩
  · rintro ⟨e,he,cursorId,hown⟩
    exact ⟨_,⟨e.eventId,cursorId,e.overCap now capDays⟩,⟨e,he,hown,rfl,rfl⟩,rfl⟩

theorem capped_pos {policy : UnackedPolicy} :
    0 < (cappedIds policy (owedPairsWithCap db now capDays (collectOwedExpired db now))).length ↔
      policy = .retain ∧ (owedEvents db now ∩ overCapEvents now capDays).Nonempty := by
  rw [List.length_pos_iff_exists_mem]
  constructor
  · rintro ⟨i,hi⟩
    have hmem : ∃ e ∈ db.events, e.eventId = i := by
      unfold cappedIds at hi
      split_ifs at hi
      · simp only [List.mem_eraseDups,List.mem_map,List.mem_filter,mem_owedPairs] at hi
        obtain ⟨p,⟨⟨e,he,-,hk,-⟩,-⟩,rfl⟩ := hi
        exact ⟨e,he.1,hk⟩
      · simp at hi
    obtain ⟨e,he,rfl⟩ := hmem
    obtain ⟨hp,hcap⟩ := (mem_cappedIds he).mp hi
    exact ⟨hp,e,hcap⟩
  · rintro ⟨hp,e,hcap⟩
    exact ⟨e.eventId,(mem_cappedIds hcap.1.1.1).mpr ⟨hp,hcap⟩⟩

theorem ncard_of_nodup {l : List EventRow} (h : l.Nodup) : {e | e ∈ l}.ncard = l.length := by
  rw [← List.coe_toFinset,Set.ncard_coe_finset,List.toFinset_card_of_nodup h]

end Counting

structure SweepSpec (db db' : Db) (now : ℤ) (policy : UnackedPolicy) (capDays : ℚ)
    (archiveMode : Bool) (result : SweepResult) : Prop where
  live : ∀ e, e ∈ db'.events ↔ e ∈ db.events ∧ e ∉ sweptEvents db now policy capDays
  archive : ∀ e, e ∈ db'.archiveRows ↔
    e ∈ db.archiveRows ∨ e ∈ archivedEvents db now policy capDays archiveMode
  archiveTable : db'.eventsArchive.isSome = true ↔ db.eventsArchive.isSome = true ∨
    archiveMode = true ∨ (archivedOwed db now policy capDays).Nonempty
  frame : Db.Frame db db'
  eventSeq : db'.eventSeq = db.eventSeq
  eventsDeleted : result.eventsDeleted = (sweptEvents db now policy capDays).ncard
  unackedPolicy : result.unackedPolicy = policy
  retentionCapDays : result.unacked.retentionCapDays = capDays
  report : ∃ pairs : List OwedPair, pairs.Nodup ∧
    (∀ p, p ∈ pairs ↔ ∃ e ∈ expiredEvents db now, Owes db p.cursorId e ∧ e.eventId = p.eventId ∧
      p.overCap = e.overCap now capDays) ∧
    LinesOf (sweepFate policy) pairs result.unacked.cursors ∧
    result.unacked.cursors.Pairwise ReportLine.before ∧
    ∀ d n, (d,n) ∈ result.unacked.counts ↔
      (d = policy.verb ∨ ∃ p ∈ pairs, (sweepFate policy p).disposition = d) ∧
        n = ((pairs.filter (fun p => (sweepFate policy p).disposition = d)).map
          OwedPair.eventId).toFinset.card

theorem sweepTransaction_takes (db : Db) (now : ℤ) (policy : UnackedPolicy) (capDays : ℚ)
    (archiveMode : Bool) :
    ∃ db₄, ArchiveTakes db db₄ (archivedEvents db now policy capDays archiveMode) ∧
      (db₄.eventsArchive.isSome = true ↔ db.eventsArchive.isSome = true ∨ archiveMode = true ∨
        (archivedOwed db now policy capDays).Nonempty) ∧
      (sweepTransaction db now policy capDays archiveMode).1 =
        db₄.deleteEvents (sweepDeletes policy now (collectOwedExpired db now)
          (cappedIds policy (owedPairsWithCap db now capDays (collectOwedExpired db now)))) ∧
      (sweepTransaction db now policy capDays archiveMode).2.eventsDeleted =
        (db₄.events.rows.filter (sweepDeletes policy now (collectOwedExpired db now)
          (cappedIds policy (owedPairsWithCap db now capDays (collectOwedExpired db now))))).length := by
  have howedPos := @owedCount_pos db now capDays
  have hcapPos := @capped_pos db now capDays policy
  set owed := collectOwedExpired db now with howed
  set pairs := owedPairsWithCap db now capDays owed with hpairs
  set capped := cappedIds policy pairs with hcapped
  set archivesOwed : Prop := policy = .archive ∧ 0 < (pairs.map OwedPair.eventId).eraseDups.length
    with harchivesOwed
  set creates : Prop := archiveMode = true ∨ archivesOwed ∨ 0 < capped.length with hcreates
  set db₁ := if creates then createArchiveTable db else db with hdb₁
  have hsome₁ : creates → db₁.eventsArchive.isSome := by
    intro hc
    simp [hdb₁,hc,createArchiveTable]
  have h₁ : ArchiveTakes db db₁ ∅ := archiveTakes_create db creates
  have h₂ := h₁.archiveWhen {e | archiveMode = true ∧ e ∈ expiredEvents db now \ owedEvents db now}
    (c := archiveMode = true) (p := fun e => e.expired now && notOwed owed e)
    (fun e he => he.2.1.1) (fun hc => by simp [hc])
    (fun hc e he => by
      simp only [Bool.and_eq_true,Set.mem_ofPred_eq,hc,true_and,Set.mem_sdiff,
        ← notOwed_iff he,Bool.not_eq_false,← howed]
      exact and_congr_left fun _ => ⟨fun h => ⟨he,h⟩,fun h => h.2⟩)
    (fun hc => hsome₁ (.inl hc))
  set db₂ := if archiveMode = true then archiveWhere db₁ (fun e => e.expired now && notOwed owed e)
    else db₁ with hdb₂
  have hsome₂ : db₂.eventsArchive.isSome = db₁.eventsArchive.isSome := eventsArchive_archiveWhen ..
  have h₃ := h₂.archiveWhen {e | policy = .archive ∧ e ∈ owedEvents db now}
    (c := archivesOwed) (p := fun e => !notOwed owed e)
    (fun e he => he.2.1.1)
    (fun hc => by
      ext e
      simp only [Set.mem_ofPred_eq,Set.mem_empty_iff_false,iff_false]
      exact fun h => hc ⟨h.1,howedPos.mpr ⟨e,h.2⟩⟩)
    (fun hc e he => by simp [hc.1,← notOwed_iff he,← howed])
    (fun hc => by rw [hsome₂]; exact hsome₁ (.inr (.inl hc)))
  set db₃ := if archivesOwed then archiveWhere db₂ (fun e => !notOwed owed e) else db₂ with hdb₃
  have hsome₃ : db₃.eventsArchive.isSome = db₁.eventsArchive.isSome :=
    (eventsArchive_archiveWhen ..).trans hsome₂
  have h₄ := h₃.archiveWhen
    {e | policy = .retain ∧ e ∈ owedEvents db now ∩ overCapEvents now capDays}
    (c := 0 < capped.length) (p := fun e => decide (e.eventId ∈ capped))
    (fun e he => he.2.1.1.1)
    (fun hc => by
      ext e
      simp only [Set.mem_ofPred_eq,Set.mem_empty_iff_false,iff_false]
      exact fun h => hc (hcapPos.mpr ⟨h.1,e,h.2⟩))
    (fun hc e he => by rw [decide_eq_true_eq]; exact mem_cappedIds he)
    (fun hc => by rw [hsome₃]; exact hsome₁ (.inr (.inr hc)))
  refine ⟨_,?_,?_,rfl,rfl⟩
  · convert h₄ using 1
    ext e
    cases policy <;>
      simp [archivedEvents,archivedOwed,or_comm]
  · rw [eventsArchive_archiveWhen,hsome₃,hdb₁]
    have hc : creates ↔ archiveMode = true ∨ (archivedOwed db now policy capDays).Nonempty := by
      rw [hcreates,harchivesOwed,howedPos,hcapPos]
      cases policy <;> simp [archivedOwed]
    split_ifs with h
    · simp [createArchiveTable,hc.mp h]
    · have hn := hc.not.mp h
      rw [or_iff_left hn]

theorem sweepTransaction_spec (db : Db) (now : ℤ) (policy : UnackedPolicy) (capDays : ℚ)
    (archiveMode : Bool) (hfresh : ∀ a ∈ db.archiveRows, ∀ e ∈ db.events, a.eventId ≠ e.eventId) :
    SweepSpec db (sweepTransaction db now policy capDays archiveMode).1 now policy capDays archiveMode
      (sweepTransaction db now policy capDays archiveMode).2 := by
  obtain ⟨db₄,htakes,htable,hdb,hcount⟩ := sweepTransaction_takes db now policy capDays archiveMode
  have hgrow := htakes.grows hfresh
  have hdeletes : ∀ e ∈ db.events, sweepDeletes policy now (collectOwedExpired db now)
      (cappedIds policy (owedPairsWithCap db now capDays (collectOwedExpired db now))) e = true ↔
        e ∈ sweptEvents db now policy capDays := fun e he => sweepDeletes_iff he
  set deletes := sweepDeletes policy now (collectOwedExpired db now)
    (cappedIds policy (owedPairsWithCap db now capDays (collectOwedExpired db now)))
  have hswept : ∀ e ∈ sweptEvents db now policy capDays, e ∈ db.events := by
    intro e he
    cases policy
    · exact he.1.1
    · exact he.1
    · exact he.1
  rw [hdb]
  refine ⟨?_,?_,htable,?_,hgrow.eventSeq,?_,rfl,rfl,?_⟩
  · intro e
    rw [Db.mem_deleteEvents,hgrow.events]
    exact and_congr_right fun he => by rw [← hdeletes e he,Bool.not_eq_true]
  · exact hgrow.rows
  · exact hgrow.frame.trans ⟨rfl,rfl,rfl,rfl,rfl⟩
  · rw [hcount,hgrow.events,← ncard_of_nodup (db.events.nodup_rows.filter _)]
    congr 1
    ext e
    simp only [List.mem_filter,KeyedTable.mem_rows,Set.mem_ofPred_eq]
    exact ⟨fun ⟨he,hd⟩ => (hdeletes e he).mp hd,
      fun he => ⟨hswept e he,(hdeletes e (hswept e he)).mpr he⟩⟩
  · exact ⟨_,owedPairs_nodup _ _ _ _,fun p => mem_owedPairs,report_lines _ _ _ _,
      report_sorted _ _ _ _,report_counts _ _ _ _⟩

theorem runSweep_eq {db : Db} {config : SweepConfig} {clock : ℤ} {policy : UnackedPolicy}
    {capDays : ℚ} (hpolicy : resolveUnackedPolicy config = .ok policy)
    (hcap : resolveRetentionCapDays config = .ok capDays) :
    runSweep db config clock =
      .ok (sweepTransaction db (config.now.getD clock) policy capDays config.archiveMode) := by
  simp only [runSweep,hpolicy,hcap]
  rfl

theorem runSweep_spec {db : Db} {config : SweepConfig} {clock : ℤ} {policy : UnackedPolicy}
    {capDays : ℚ} (hpolicy : resolveUnackedPolicy config = .ok policy)
    (hcap : resolveRetentionCapDays config = .ok capDays)
    (hfresh : ∀ a ∈ db.archiveRows, ∀ e ∈ db.events, a.eventId ≠ e.eventId) :
    ∃ db' result, runSweep db config clock = .ok (db',result) ∧
      SweepSpec db db' (config.now.getD clock) policy capDays config.archiveMode result :=
  ⟨_,_,runSweep_eq hpolicy hcap,sweepTransaction_spec db _ policy capDays _ hfresh⟩

def expiredSample : NewEvent where
  eventType := "wicked.run".toList
  domain := "ci".toList
  subdomain := []
  payload := "{}"
  schemaVersion := "1.0.0"
  idempotencyKey := "k1"
  emittedAt := 1000
  expiresAt := 2000
  dedupExpiresAt := 1500
  metadata := none
  registrySchemaVersion := none
  payloadCasSha := none
  correlationId := none
  sessionId := none
  parentEventId := none
  producerId := none

def expiredDb : Db := appendEvent .empty expiredSample

def storedSample (key eventType : String) (emittedAt : ℤ) (expiresAt : ℚ) : NewEvent :=
  { expiredSample with
    eventType := eventType.toList, idempotencyKey := key, emittedAt := emittedAt, expiresAt := expiresAt }

-- 2 is owed by its attempt alone, 3 owed, 4 owed past the cap, 5 not owed, 6 not expired
def sweepSample : Db :=
  { ([storedSample "k1" "wicked.run" 1000 2000,storedSample "k2" "other.run" 3400000000 3410000000,
      storedSample "k3" "wicked.run" 3400000000 3410000000,storedSample "k4" "wicked.run" 2000 3000,
      storedSample "k5" "other.run" 3000 4000,
      storedSample "k6" "wicked.run" 3400000000 3500000000].foldl appendEvent .empty).deleteEvents
        (fun e => e.eventId = 1) with
    subscriptions := KeyedTable.insertOrIgnore .empty ⟨"s1","p",.subscriber,"wicked.*".toList,none,0,none⟩
    cursors := KeyedTable.insertOrIgnore .empty ⟨"c1","s1",2,none,0,none⟩
    deliveryAttempts := KeyedTable.insertOrIgnore .empty ⟨"c1",2,1,3405000000,some "handler failed"⟩
    eventsArchive := some (KeyedTable.insertOrIgnore .empty
      ((storedSample "k1" "wicked.run" 1000 2000).row 1)) }

def sampleSweep (policy : String) : SweepConfig :=
  ⟨some policy,some (.finite 20),true,some 3456000000,none,none⟩

def SweepsTo (policyText : String) (policy : UnackedPolicy) (live archived : List ℤ) : Prop :=
  ∃ db' result, runSweep sweepSample (sampleSweep policyText) 0 = .ok (db',result) ∧
    db'.events.rows.map EventRow.eventId = live ∧ db'.archiveRows.rows.map EventRow.eventId = archived ∧
    SweepSpec sweepSample db' 3456000000 policy 20 true result

theorem sweepsTo {policyText : String} {policy : UnackedPolicy} {live archived : List ℤ}
    (hspec : ∃ db' result, runSweep sweepSample (sampleSweep policyText) 0 = .ok (db',result) ∧
      SweepSpec sweepSample db' 3456000000 policy 20 true result)
    (hids : (runSweep sweepSample (sampleSweep policyText) 0).toOption.map (fun r =>
      (r.1.events.rows.map EventRow.eventId,r.1.archiveRows.rows.map EventRow.eventId)) = some (live,archived)) :
    SweepsTo policyText policy live archived := by
  obtain ⟨db',result,hrun,hspec⟩ := hspec
  rw [hrun] at hids
  obtain ⟨rfl,rfl⟩ := Prod.mk.inj (Option.some.inj hids)
  exact ⟨db',result,hrun,rfl,rfl,hspec⟩

theorem sweepSample_fresh : ∀ a ∈ sweepSample.archiveRows, ∀ e ∈ sweepSample.events, a.eventId ≠ e.eventId := by
  have hrows : ∀ a ∈ sweepSample.archiveRows.rows, ∀ e ∈ sweepSample.events.rows, a.eventId ≠ e.eventId := by
    decide +kernel
  exact hrows

theorem runSweep_spec_sample :
    SweepsTo "retain" .retain [2,3,6] [1,4,5] ∧ SweepsTo "archive" .archive [6] [1,2,3,4,5] ∧
      SweepsTo "discard" .discard [6] [1,5] :=
  ⟨sweepsTo (runSweep_spec (by decide) (by decide +kernel) sweepSample_fresh) (by decide +kernel),
    sweepsTo (runSweep_spec (by decide) (by decide +kernel) sweepSample_fresh) (by decide +kernel),
    sweepsTo (runSweep_spec (by decide) (by decide +kernel) sweepSample_fresh) (by decide +kernel)⟩

theorem sweepTransaction_events (db : Db) (now : ℤ) (policy : UnackedPolicy) (capDays : ℚ)
    (archiveMode : Bool) :
    (sweepTransaction db now policy capDays archiveMode).1.events =
      db.events.filter (fun e => !sweepDeletes policy now (collectOwedExpired db now)
        (cappedIds policy (owedPairsWithCap db now capDays (collectOwedExpired db now))) e) := by
  simp only [sweepTransaction]
  split_ifs <;> rfl

theorem sweepTransaction_frame (db : Db) (now : ℤ) (policy : UnackedPolicy) (capDays : ℚ)
    (archiveMode : Bool) :
    Db.Frame db (sweepTransaction db now policy capDays archiveMode).1 ∧
      (sweepTransaction db now policy capDays archiveMode).1.eventSeq = db.eventSeq := by
  simp only [sweepTransaction]
  split_ifs <;> exact ⟨⟨rfl,rfl,rfl,rfl,rfl⟩,rfl⟩

theorem mem_sweepTransaction {db : Db} {now : ℤ} {policy : UnackedPolicy} {capDays : ℚ}
    {archiveMode : Bool} {e : EventRow} :
    e ∈ (sweepTransaction db now policy capDays archiveMode).1.events ↔
      e ∈ db.events ∧ e ∉ sweptEvents db now policy capDays := by
  rw [sweepTransaction_events,KeyedTable.mem_filter,Bool.not_eq_true']
  exact and_congr_right fun he => by rw [← sweepDeletes_iff he,Bool.not_eq_true]

def heldEvents (db : Db) (now : ℤ) (policy : UnackedPolicy) (capDays : ℚ) : Set EventRow :=
  {e | policy = .retain ∧ e ∈ owedEvents db now \ overCapEvents now capDays}

section ArchiveMode

variable {db : Db} {now : ℤ} {policy : UnackedPolicy} {capDays : ℚ} {e : EventRow}

theorem mem_sweptEvents :
    e ∈ sweptEvents db now policy capDays ↔
      e ∈ expiredEvents db now ∧ e ∉ heldEvents db now policy capDays := by
  cases policy <;> simp [sweptEvents,heldEvents]

theorem mem_archivedEvents (he : e ∈ sweptEvents db now policy capDays) :
    e ∈ archivedEvents db now policy capDays true ↔ ¬ (policy = .discard ∧ e ∈ owedEvents db now) := by
  obtain ⟨hexp,hheld⟩ := mem_sweptEvents.mp he
  cases policy with
  | retain =>
    have hcap : e ∈ owedEvents db now → e ∈ overCapEvents now capDays := by
      intro howed
      by_contra hcap
      exact hheld ⟨rfl,howed,hcap⟩
    simp only [archivedEvents,archivedOwed,Set.mem_union,Set.mem_ofPred_eq,true_and,Set.mem_sdiff,hexp,
      Set.mem_inter_iff,reduceCtorEq,false_and,not_false_iff,iff_true]
    by_cases howed : e ∈ owedEvents db now
    · exact .inr ⟨howed,hcap howed⟩
    · exact .inl howed
  | archive =>
    simp only [archivedEvents,archivedOwed,Set.mem_union,Set.mem_ofPred_eq,true_and,Set.mem_sdiff,hexp,
      reduceCtorEq,false_and,not_false_iff,iff_true]
    exact (em _).symm
  | discard => simp [archivedEvents,archivedOwed,hexp]

theorem mem_sweepTransaction_archiveRows {archiveMode : Bool} :
    e ∈ (sweepTransaction db now policy capDays archiveMode).1.archiveRows ↔ e ∈ db.archiveRows ∨
      (e ∈ archivedEvents db now policy capDays archiveMode ∧
        ∀ a ∈ db.archiveRows, a.eventId ≠ e.eventId) := by
  obtain ⟨db₄,htakes,-,hdb,-⟩ := sweepTransaction_takes db now policy capDays archiveMode
  rw [hdb,← htakes.rows]
  exact Iff.rfl

structure ArchiveModeOk (db : Db) (now : ℤ) (policy : UnackedPolicy) (capDays : ℚ) : Prop where
  copied : policy = .discard → ∀ e ∈ owedEvents db now, e ∈ db.archiveRows
  unclashed : ∀ e ∈ expiredEvents db now, e ∉ heldEvents db now policy capDays →
    ∀ a ∈ db.archiveRows, a.eventId = e.eventId → a = e

theorem archive_mode_keeps_iff {config : SweepConfig} {clock : ℤ}
    (hpolicy : resolveUnackedPolicy config = .ok policy)
    (hcap : resolveRetentionCapDays config = .ok capDays) (hmode : config.archiveMode = true) :
    (∀ db' result, runSweep db config clock = .ok (db',result) →
      ∀ e ∈ db.events, e ∉ db'.events → e ∈ db'.archiveRows) ↔
      ArchiveModeOk db (config.now.getD clock) policy capDays := by
  set now := config.now.getD clock
  have hkeeps : (∀ db' result, runSweep db config clock = .ok (db',result) →
      ∀ e ∈ db.events, e ∉ db'.events → e ∈ db'.archiveRows) ↔
      ∀ e ∈ db.events, e ∈ sweptEvents db now policy capDays → e ∈ db.archiveRows ∨
        (e ∈ archivedEvents db now policy capDays true ∧
          ∀ a ∈ db.archiveRows, a.eventId ≠ e.eventId) := by
    rw [runSweep_eq hpolicy hcap,hmode]
    constructor
    · intro h e he hswept
      refine mem_sweepTransaction_archiveRows.mp (h _ _ rfl e he fun hin => ?_)
      exact (mem_sweepTransaction.mp hin).2 hswept
    · intro h db' result hrun e he hgone
      obtain rfl := congrArg Prod.fst (Except.ok.inj hrun)
      refine mem_sweepTransaction_archiveRows.mpr (h e he ?_)
      by_contra hswept
      exact hgone (mem_sweepTransaction.mpr ⟨he,hswept⟩)
  rw [hkeeps]
  constructor
  · intro h
    refine ⟨?_,?_⟩
    · rintro hdiscard e he
      have hswept : e ∈ sweptEvents db now policy capDays :=
        mem_sweptEvents.mpr ⟨he.1,by simp [heldEvents,hdiscard]⟩
      rcases h e he.1.1 hswept with hin | ⟨hcopied,-⟩
      · exact hin
      · exact absurd ⟨hdiscard,he⟩ ((mem_archivedEvents hswept).mp hcopied)
    · intro e he hheld a ha hk
      rcases h e he.1 (mem_sweptEvents.mpr ⟨he,hheld⟩) with hin | ⟨-,hfresh⟩
      · exact KeyedTable.eq_of_key ha hin hk
      · exact absurd hk (hfresh a ha)
  · intro h e he hswept
    obtain ⟨hexp,hheld⟩ := mem_sweptEvents.mp hswept
    by_cases hdropped : policy = .discard ∧ e ∈ owedEvents db now
    · exact .inl (h.copied hdropped.1 e hdropped.2)
    · by_cases hclash : ∃ a ∈ db.archiveRows, a.eventId = e.eventId
      · obtain ⟨a,ha,hk⟩ := hclash
        exact .inl (h.unclashed e hexp hheld a ha hk ▸ ha)
      · push Not at hclash
        exact .inr ⟨(mem_archivedEvents hswept).mpr hdropped,hclash⟩

end ArchiveMode

theorem archive_mode_keeps_sample :
    (∀ db' result, runSweep (appendEvent .empty expiredSample) ⟨none,none,true,none,none,none⟩ 3000 =
        .ok (db',result) → ∀ e ∈ (appendEvent .empty expiredSample).events, e ∉ db'.events →
          e ∈ db'.archiveRows) ↔
      ArchiveModeOk (appendEvent .empty expiredSample) 3000 .retain 30 :=
  @archive_mode_keeps_iff _ _ _ ⟨none,none,true,none,none,none⟩ 3000 (by decide) (by decide +kernel) rfl

def owedSample : Db :=
  { appendEvent .empty expiredSample with
    subscriptions := KeyedTable.insertOrIgnore .empty ⟨"s1","p",.subscriber,"wicked.*".toList,none,0,none⟩
    cursors := KeyedTable.insertOrIgnore .empty ⟨"c1","s1",0,none,0,none⟩ }

theorem archive_mode_discards_owed :
    ∃ db' result, runSweep owedSample ⟨some "discard",none,true,none,none,none⟩ 3000 = .ok (db',result) ∧
      expiredSample.row 1 ∈ owedSample.events ∧ expiredSample.row 1 ∉ db'.events ∧
      expiredSample.row 1 ∉ db'.archiveRows := by
  refine ⟨_,_,@runSweep_eq _ _ _ .discard 30 (by decide) (by decide +kernel),?_,?_,?_⟩
  all_goals
    rw [← KeyedTable.mem_rows]
    decide +kernel

end WickedBus
