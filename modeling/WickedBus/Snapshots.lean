import WickedBus.EmitAtomic

namespace WickedBus

open WickedBus.Filter (Text)

inductive Kept (w : World) : EventRow → Prop
  | live {e : EventRow} (he : e ∈ w.bus.events) : Kept w e
  | archived {e : EventRow} (he : e ∈ w.bus.archiveRows) : Kept w e
  | warm {name : Text} {e : EventRow} (hname : bucketFileRe name = true) (he : Holds w.archive name e) :
      Kept w e
  | held {p : ℕ} {s : Sweeper} {e : EventRow} (hs : w.sweepers p = some s) (he : e ∈ s.phase.held) :
      Kept w e

def Present (w : World) (eventId : ℤ) : Prop :=
  (∃ x, Kept w x ∧ x.eventId = eventId) ∨ ∃ d ∈ w.bus.deadLetters, d.eventId = eventId

section Places

variable {w w' : World} {db db' : Db} {e x : EventRow}

theorem mem_archiveWhere {p : EventRow → Bool} (h : e ∈ (archiveWhere db p).archiveRows) :
    e ∈ db.archiveRows ∨ e ∈ db.events := by
  cases hrows : db.eventsArchive with
  | none =>
    simp only [archiveWhere,Db.archiveRows,hrows,Option.map_none] at h
    exact absurd h (KeyedTable.not_mem_empty e)
  | some rows =>
    simp only [archiveWhere,Db.archiveRows,hrows,Option.map_some,Option.getD_some] at h ⊢
    exact (KeyedTable.mem_or_of_mem_insertAll h).imp_right fun h => (List.mem_filter.mp h).1

structure ArchivesFrom (db db' : Db) : Prop where
  events : db'.events = db.events
  rows : ∀ e ∈ db'.archiveRows, e ∈ db.archiveRows ∨ e ∈ db.events

theorem ArchivesFrom.archiveWhen (h : ArchivesFrom db db') (c : Prop) [Decidable c]
    (p : EventRow → Bool) : ArchivesFrom db (if c then archiveWhere db' p else db') := by
  split_ifs
  · refine ⟨h.events,fun e he => ?_⟩
    rcases mem_archiveWhere he with he | he
    · exact h.rows e he
    · exact .inr (h.events ▸ he)
  · exact h

theorem archivesFrom_create (db : Db) (c : Prop) [Decidable c] :
    ArchivesFrom db (if c then createArchiveTable db else db) := by
  split_ifs
  · exact ⟨rfl,fun e he => .inl he⟩
  · exact ⟨rfl,fun e he => .inl he⟩

theorem mem_sweepTransaction_archive {now : ℤ} {policy : UnackedPolicy} {capDays : ℚ} {archiveMode : Bool}
    (h : e ∈ (sweepTransaction db now policy capDays archiveMode).1.archiveRows) :
    e ∈ db.archiveRows ∨ e ∈ db.events :=
  ((((archivesFrom_create db _).archiveWhen _ _).archiveWhen _ _).archiveWhen _ _).rows e h

theorem emit_archiveRows {params : NewEvent} {uuid : String}
    (h : emitParamsInto db params uuid = .ok db') : db'.archiveRows = db.archiveRows := by
  rcases emitParamsInto_cases h with ⟨-,rfl⟩ | ⟨holder,-,-,-,rfl⟩ <;> rfl

theorem sweeperStep_untouched (env : StepEnv) (cfg : PassConfig) (db : Db) (archive : Archive)
    (ph : Phase) : (sweeperStep env cfg db archive ph).bus.archiveRows = db.archiveRows ∧
      (sweeperStep env cfg db archive ph).bus.deadLetters = db.deadLetters := by
  rcases sweeperStep_bus env cfg db archive ph with h | ⟨ids,-,h⟩ | ⟨moved,-,h⟩ <;> rw [h] <;>
    exact ⟨rfl,rfl⟩

def KeptBefore (w : World) (x : EventRow) : Prop := ∃ y, Kept w y ∧ y.fixedPart = x.fixedPart

theorem Kept.before (h : Kept w x) : KeptBefore w x := ⟨x,h,rfl⟩

theorem Kept.step_bus {op : BusOp} (hop : op.apply w.bus = some db)
    (h : Kept { w with bus := db, log := w.log ++ acceptedRows w.bus op } x) :
    KeptBefore w x ∨ (w.bus.eventSeq < x.eventId ∧
      x.fixedPart ∈ World.logged { w with bus := db, log := w.log ++ acceptedRows w.bus op }) := by
  cases h with
  | warm hname he => exact .inl (Kept.before (.warm hname he))
  | held hs he => exact .inl (Kept.before (.held hs he))
  | live he =>
    have he' : x ∈ db.events := he
    rcases busOp_cases hop with ⟨params,uuid,rfl,hemit⟩ | ⟨config,clock,result,-,hr⟩ | hsame
    · have hlive : x.fixedPart ∈ db.live := mem_live he'
      rw [emit_live hemit] at hlive
      rcases hlive with hnew | ⟨old,hold,hfix⟩
      · right
        have hid : x.eventId = w.bus.eventSeq + 1 := eventId_of_fixedPart hnew
        exact ⟨by omega,_,List.mem_append_right _ List.mem_cons_self,hnew.symm⟩
      · exact .inl ⟨old,.live hold,hfix⟩
    · obtain ⟨policy,capDays,-,-,rfl⟩ := runSweep_ok hr
      exact .inl (Kept.before (.live (mem_sweepTransaction.mp he').1))
    · exact .inl (Kept.before (.live (hsame.events ▸ he')))
  | archived he =>
    left
    have he' : x ∈ db.archiveRows := he
    rcases busOp_cases hop with ⟨params,uuid,-,hemit⟩ | ⟨config,clock,result,-,hr⟩ | hsame
    · rw [emit_archiveRows hemit] at he'
      exact Kept.before (.archived he')
    · obtain ⟨policy,capDays,-,-,rfl⟩ := runSweep_ok hr
      exact (mem_sweepTransaction_archive he').elim (fun h => Kept.before (.archived h))
        (fun h => Kept.before (.live h))
    · rw [Db.archiveRows,hsame.eventsArchive] at he'
      exact Kept.before (.archived he')

theorem Kept.step_sweep {p : ℕ} {env : StepEnv} (hstep : w.step (.sweep p env) = some w')
    (h : Kept w' x) : Kept w x := by
  obtain ⟨s,hs,rfl⟩ := World.step_sweep hstep
  cases h with
  | live he =>
    have he' : x ∈ (sweeperStep env s.cfg w.bus w.archive s.phase).bus.events := he
    rcases sweeperStep_bus env s.cfg w.bus w.archive s.phase with h | ⟨ids,-,h⟩ | ⟨moved,-,h⟩
    · exact .live (h ▸ he')
    · exact .live (mem_deleteFromLive.mp (h ▸ he')).1
    · exact .live (mem_deleteFromLive.mp (h ▸ he')).1
  | archived he =>
    have he' : x ∈ (sweeperStep env s.cfg w.bus w.archive s.phase).bus.archiveRows := he
    rw [(sweeperStep_untouched _ _ _ _ _).1] at he'
    exact .archived he'
  | warm hname he =>
    rcases sweeperStep_archive env s.cfg w.bus w.archive s.phase with hsame | ⟨wr,hph,hins⟩
    · exact .warm hname ((hsame _ x).mp he)
    · rcases holds_of_insertRows hins he with he | ⟨-,he⟩
      · exact .warm hname he
      · refine .held hs ?_
        rw [hph]
        exact List.mem_append_left _ he
  | held ht he =>
    rcases update_eq_some ht with ⟨rfl,hnext⟩ | ⟨-,ht⟩
    · obtain ⟨ph,hph,rfl⟩ := Option.map_eq_some_iff.mp hnext
      rcases sweeperStep_held hph x he with he | ⟨he,-⟩
      · exact .held hs he
      · exact .live he
    · exact .held ht he

theorem Kept.replace {p : ℕ} {next : Option Sweeper} (hnext : ∀ s, next = some s → s.phase.held = [])
    (h : Kept { w with sweepers := Function.update w.sweepers p next } x) : Kept w x := by
  cases h with
  | live he => exact .live he
  | archived he => exact .archived he
  | warm hname he => exact .warm hname he
  | held hs he =>
    rcases update_eq_some hs with ⟨-,hs⟩ | ⟨-,hs⟩
    · rw [hnext _ hs] at he
      cases he
    · exact .held hs he

theorem Kept.step {a : Action} (hstep : w.step a = some w') (h : Kept w' x) :
    KeptBefore w x ∨ (w.bus.eventSeq < x.eventId ∧ x.fixedPart ∈ w'.logged) := by
  cases a with
  | bus op =>
    obtain ⟨db,hop,rfl⟩ := Option.map_eq_some_iff.mp hstep
    exact Kept.step_bus hop h
  | sweep p env => exact .inl (h.step_sweep hstep).before
  | beginSweep p config clock =>
    obtain ⟨cfg,-,-,rfl⟩ := World.step_begin hstep
    exact .inl (h.replace (by rintro _ ⟨⟩; rfl)).before
  | crash p =>
    cases hstep
    exact .inl (h.replace (by rintro _ ⟨⟩)).before

def SameSnapshot (d d' : DeadLetterRow) : Prop := d.eventId = d'.eventId ∧ d.payload = d'.payload

theorem deregisterOne_deadLetters (now : ℤ) (db : Db) (sub : SubscriptionRow) :
    (deregisterOne now db sub).deadLetters = db.deadLetters := by
  unfold deregisterOne
  cases sub.role <;> rfl

theorem deregisterAll_deadLetters (now : ℤ) (db : Db) (subs : List SubscriptionRow) :
    (subs.foldl (deregisterOne now) db).deadLetters = db.deadLetters := by
  induction subs generalizing db with
  | nil => rfl
  | cons sub subs ih => exact (ih _).trans (deregisterOne_deadLetters now db sub)

theorem mem_updateDeadLetter {dlId : ℤ} {f : DeadLetterRow → DeadLetterRow}
    {hf : ∀ d, (f d).dlId = d.dlId} {d : DeadLetterRow}
    (h : d ∈ (updateDeadLetter db dlId f hf).deadLetters) (hsame : ∀ r, SameSnapshot r (f r)) :
    ∃ r ∈ db.deadLetters, SameSnapshot r d := by
  simp only [updateDeadLetter,KeyedTable.mem_map] at h
  obtain ⟨r,hr,rfl⟩ := h
  refine ⟨r,hr,?_⟩
  split_ifs
  · exact hsame r
  · exact ⟨rfl,rfl⟩

def BusOp.deadLettered : BusOp → Option EventRow
  | .moveToDeadLetter _ _ event _ _ _ => some event
  | _ => none

theorem busOp_deadLetters {op : BusOp} (h : op.apply db = some db') {d : DeadLetterRow}
    (hd : d ∈ db'.deadLetters) : (∃ r ∈ db.deadLetters, SameSnapshot r d) ∨
      ∃ event, op.deadLettered = some event ∧ event.eventId = d.eventId ∧ event.payload = d.payload := by
  have hkept : db'.deadLetters = db.deadLetters → ∃ r ∈ db.deadLetters, SameSnapshot r d :=
    fun hsame => ⟨d,hsame ▸ hd,rfl,rfl⟩
  cases op with
  | emit params uuid => exact .inl (hkept (emit_frame (toOption_eq_some.mp h)).deadLetters)
  | sweep config clock =>
    obtain ⟨⟨_,result⟩,hr,rfl⟩ := Option.map_eq_some_iff.mp h
    obtain ⟨policy,capDays,-,-,rfl⟩ := runSweep_ok (toOption_eq_some.mp hr)
    exact .inl (hkept (sweepTransaction_frame _ _ _ _ _).1.deadLetters)
  | insertSubscription row =>
    rw [insertSubscription_ok h] at hd
    exact .inl ⟨d,hd,rfl,rfl⟩
  | insertCursor row =>
    rw [insertCursor_ok h] at hd
    exact .inl ⟨d,hd,rfl,rfl⟩
  | deregister id now =>
    obtain ⟨sub,rfl⟩ := deregister_ok (toOption_eq_some.mp h)
    exact .inl (hkept (deregisterOne_deadLetters now db sub))
  | deregisterByPlugin plugin role now =>
    obtain ⟨subs,rfl⟩ := deregisterByPlugin_ok (toOption_eq_some.mp h)
    exact .inl (hkept (deregisterAll_deadLetters now db subs))
  | moveCursor cursorId pos now =>
    rw [moveCursor_ok (toOption_eq_some.mp h)] at hd
    exact .inl ⟨d,hd,rfl,rfl⟩
  | replayCursor cursorId pos =>
    cases h
    exact .inl (hkept rfl)
  | upsertDeliveryAttempt row =>
    rw [upsertDeliveryAttempt_ok h] at hd
    exact .inl ⟨d,hd,rfl,rfl⟩
  | deleteDeliveryAttempt cursorId eventId =>
    cases h
    exact .inl (hkept rfl)
  | moveToDeadLetter cursorId subscriptionId event attempts reason now =>
    rw [moveToDeadLetter_ok h] at hd
    rcases KeyedTable.mem_insertOrIgnore.mp hd with hd | ⟨rfl,-⟩
    · exact .inl ⟨d,hd,rfl,rfl⟩
    · exact .inr ⟨event,rfl,rfl,rfl⟩
  | replayDeadLetter dlId now =>
    rw [replayDeadLetter_ok (toOption_eq_some.mp h)] at hd
    exact .inl (mem_updateDeadLetter hd fun _ => ⟨rfl,rfl⟩)
  | dropDeadLetter dlId =>
    rw [dropDeadLetter_ok (toOption_eq_some.mp h)] at hd
    exact .inl ⟨d,(KeyedTable.mem_filter.mp hd).1,rfl,rfl⟩
  | failReplay dlId lastError =>
    cases h
    exact .inl (mem_updateDeadLetter hd fun _ => ⟨rfl,rfl⟩)

def Action.deadLettered : Action → Option EventRow
  | .bus op => op.deadLettered
  | _ => none

theorem World.step_deadLetters {a : Action} (hstep : w.step a = some w') {d : DeadLetterRow}
    (hd : d ∈ w'.bus.deadLetters) : (∃ r ∈ w.bus.deadLetters, SameSnapshot r d) ∨
      ∃ event, a.deadLettered = some event ∧ event.eventId = d.eventId ∧ event.payload = d.payload := by
  cases a with
  | bus op =>
    obtain ⟨db,hop,rfl⟩ := Option.map_eq_some_iff.mp hstep
    exact busOp_deadLetters hop hd
  | sweep p env =>
    obtain ⟨s,hs,rfl⟩ := World.step_sweep hstep
    have hd' : d ∈ (sweeperStep env s.cfg w.bus w.archive s.phase).bus.deadLetters := hd
    rw [(sweeperStep_untouched _ _ _ _ _).2] at hd'
    exact .inl ⟨d,hd',rfl,rfl⟩
  | beginSweep p config clock =>
    obtain ⟨cfg,-,-,rfl⟩ := World.step_begin hstep
    exact .inl ⟨d,hd,rfl,rfl⟩
  | crash p =>
    cases hstep
    exact .inl ⟨d,hd,rfl,rfl⟩

end Places

end WickedBus
