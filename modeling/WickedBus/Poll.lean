import WickedBus.Schema

namespace WickedBus

open WickedBus.Filter (Text)

def pollCursor (db : Db) (cursorId : String) : Except BusError CursorRow :=
  match db.cursors.get? cursorId with
  | none => .error (.cursorNotFound "cursor not found or deregistered")
  | some cursor =>
    if cursor.deregisteredAt.isSome then .error (.cursorNotFound "cursor not found or deregistered")
    else .ok cursor

def pollWindow (db : Db) (cursor : CursorRow) : Except BusError Unit :=
  match db.events.minKey? with
  | none => .ok ()
  | some minId =>
    if cursor.lastEventId < minId - 1 then .error (.cursorBehindTtlWindow cursor.lastEventId minId)
    else .ok ()

def pollFilter (db : Db) (cursor : CursorRow) : Except BusError Text :=
  match db.subscriptions.get? cursor.subscriptionId with
  | none => .error (.cursorNotFound "subscription not found")
  | some sub => .ok sub.eventTypeFilter

def pollSelect (db : Db) (filter : Text) (lastEventId : ℤ) (batchSize : ℕ) : List EventRow :=
  (db.events.filter (fun e => decide (lastEventId < e.eventId) && e.matchesSql filter)).rows.take batchSize

def effectiveBatchSize (batchSize : ℕ) : ℕ := if batchSize = 0 then 100 else batchSize

def poll (db : Db) (cursorId : String) (batchSize : ℕ) (afterEventId : Option ℤ) :
    Except BusError (List EventRow) := do
  let cursor ← pollCursor db cursorId
  pollWindow db cursor
  let filter ← pollFilter db cursor
  pure (pollSelect db filter (afterEventId.getD cursor.lastEventId) (effectiveBatchSize batchSize))

def CursorRow.moveTo (c : CursorRow) (lastEventId now : ℤ) : CursorRow :=
  { c with lastEventId := lastEventId, ackedAt := some now }

def updateCursors (db : Db) (cursorId : String) (lastEventId now : ℤ) : Db where
  __ := db
  cursors := db.cursors.map
    (fun c => if c.cursorId = cursorId ∧ c.deregisteredAt = none then c.moveTo lastEventId now else c)
    (by intro c; split_ifs <;> rfl)

def moveCursor (db : Db) (cursorId : String) (lastEventId now : ℤ) : Except BusError Db :=
  if db.cursors.rows.any (fun c => c.cursorId = cursorId ∧ c.deregisteredAt = none) then
    .ok (updateCursors db cursorId lastEventId now)
  else .error (.cursorNotFound "cursor not found or deregistered")

def ack (db : Db) (cursorId : String) (lastEventId now : ℤ) : Except BusError Db := do
  let _ ← pollCursor db cursorId
  moveCursor db cursorId lastEventId now

def reanchorCursor (db : Db) (cursorId : String) (newLastEventId now : ℤ) : Except BusError Db :=
  if newLastEventId < 0 then .error (.invalidEventSchema "invalid cursor position")
  else moveCursor db cursorId newLastEventId now

def replayCursor (db : Db) (cursorId : String) (lastEventId : ℤ) : Db where
  __ := db
  cursors := db.cursors.map
    (fun c => if c.cursorId = cursorId then { c with lastEventId := lastEventId } else c)
    (by intro c; split_ifs <;> rfl)

def cmdReplay (db : Db) (cursorId : String) (fromEventId : ℤ) : Except BusError Db := do
  let cursor ← pollCursor db cursorId
  match db.events.minKey? with
  | some minId =>
    if fromEventId < minId then throw (.cursorBehindTtlWindow cursor.lastEventId minId)
  | none => pure ()
  pure (replayCursor db cursorId (fromEventId - 1))

theorem pollCursor_ok {db : Db} {cursorId : String} {c : CursorRow} :
    pollCursor db cursorId = .ok c ↔
      c ∈ db.cursors ∧ c.cursorId = cursorId ∧ c.deregisteredAt = none := by
  cases h : db.cursors.get? cursorId with
  | none =>
    simp only [pollCursor,h,reduceCtorEq,false_iff]
    rintro ⟨hc,hk,_⟩
    rw [KeyedTable.get?_eq_some.mpr ⟨hc,hk⟩] at h
    cases h
  | some d =>
    obtain ⟨hd,hk⟩ := KeyedTable.get?_eq_some.mp h
    cases hr : d.deregisteredAt with
    | none =>
      simp only [pollCursor,h,hr,Option.isSome_none,Bool.false_eq_true,if_false,Except.ok.injEq]
      constructor
      · rintro rfl
        exact ⟨hd,hk,hr⟩
      · rintro ⟨hc,hck,_⟩
        exact KeyedTable.eq_of_key hd hc (hk.trans hck.symm)
    | some t =>
      simp only [pollCursor,h,hr,Option.isSome_some,if_true,reduceCtorEq,false_iff]
      rintro ⟨hc,hck,hcr⟩
      rw [KeyedTable.eq_of_key hc hd (hck.trans hk.symm),hr] at hcr
      cases hcr

theorem moveCursor_ok {db db' : Db} {cursorId : String} {pos now : ℤ}
    (h : moveCursor db cursorId pos now = .ok db') : db' = updateCursors db cursorId pos now := by
  unfold moveCursor at h
  split_ifs at h
  exact (Except.ok.inj h).symm

theorem moveCursor_of_pollCursor {db : Db} {cursorId : String} {c : CursorRow} (h : pollCursor db cursorId = .ok c)
    (pos now : ℤ) : moveCursor db cursorId pos now = .ok (updateCursors db cursorId pos now) := by
  obtain ⟨hmem,hkey,hactive⟩ := pollCursor_ok.mp h
  exact if_pos (List.any_eq_true.mpr ⟨c,hmem,decide_eq_true ⟨hkey,hactive⟩⟩)

theorem moveCursor_sameEvents {db db' : Db} {cursorId : String} {pos now : ℤ}
    (h : moveCursor db cursorId pos now = .ok db') : SameEvents db db' := by
  rw [moveCursor_ok h]
  exact ⟨rfl,rfl,rfl⟩

theorem ack_ok {db db' : Db} {cursorId : String} {pos now : ℤ} (h : ack db cursorId pos now = .ok db') :
    moveCursor db cursorId pos now = .ok db' := by
  obtain ⟨_,-,hmove⟩ := bind_eq_ok.mp h
  exact hmove

theorem reanchorCursor_ok {db db' : Db} {cursorId : String} {pos now : ℤ}
    (h : reanchorCursor db cursorId pos now = .ok db') : moveCursor db cursorId pos now = .ok db' := by
  unfold reanchorCursor at h
  split_ifs at h
  exact h

theorem pollCursor_error {db : Db} {cursorId : String} {b : BusError} (h : pollCursor db cursorId = .error b) :
    ∃ m, b = .cursorNotFound m := by
  unfold pollCursor at h
  split at h
  · exact ⟨_,(Except.error.inj h).symm⟩
  · split_ifs at h
    exact ⟨_,(Except.error.inj h).symm⟩

theorem moveCursor_error {db : Db} {cursorId : String} {pos now : ℤ} {b : BusError}
    (h : moveCursor db cursorId pos now = .error b) : ∃ m, b = .cursorNotFound m := by
  unfold moveCursor at h
  split_ifs at h
  exact ⟨_,(Except.error.inj h).symm⟩

theorem pollFilter_error {db : Db} {c : CursorRow} {b : BusError} (h : pollFilter db c = .error b) :
    ∃ m, b = .cursorNotFound m := by
  unfold pollFilter at h
  split at h
  · exact ⟨_,(Except.error.inj h).symm⟩
  · cases h

theorem mem_updateCursors {db : Db} {cursorId : String} {pos now : ℤ} {c : CursorRow} :
    c ∈ (updateCursors db cursorId pos now).cursors ↔ ∃ d ∈ db.cursors,
      (if d.cursorId = cursorId ∧ d.deregisteredAt = none then d.moveTo pos now else d) = c := by
  simp [updateCursors]

theorem pollCursor_same {db db' : Db} {cursorId : String} (h : db'.cursors.get? cursorId = db.cursors.get? cursorId) :
    pollCursor db' cursorId = pollCursor db cursorId := by
  unfold pollCursor
  rw [h]

theorem pollCursor_moved {db db' : Db} {cursorId : String} {pos now : ℤ} {c : CursorRow}
    (hmove : moveCursor db cursorId pos now = .ok db') (h : pollCursor db cursorId = .ok c) :
    pollCursor db' cursorId = .ok (c.moveTo pos now) := by
  obtain ⟨hmem,hkey,hactive⟩ := pollCursor_ok.mp h
  rw [moveCursor_ok hmove]
  exact pollCursor_ok.mpr ⟨mem_updateCursors.mpr ⟨c,hmem,if_pos ⟨hkey,hactive⟩⟩,hkey,hactive⟩

theorem mem_pollSelect {db : Db} {filter : Text} {last : ℤ} {n : ℕ} {e : EventRow}
    (h : e ∈ pollSelect db filter last n) :
    e ∈ db.events ∧ last < e.eventId ∧ e.matchesSql filter = true := by
  have hm := KeyedTable.mem_filter.mp (List.mem_of_mem_take h)
  simpa only [Bool.and_eq_true,decide_eq_true_eq] using hm

theorem pollSelect_sorted (db : Db) (filter : Text) (last : ℤ) (n : ℕ) :
    (pollSelect db filter last n).Pairwise (fun a b => a.eventId < b.eventId) :=
  (KeyedTable.sorted _).sublist (List.take_sublist _ _)

theorem pollSelect_cover {db : Db} {filter : Text} {last : ℤ} {n : ℕ} {e : EventRow}
    (he : e ∈ db.events) (hlast : last < e.eventId) (hmatch : e.matchesSql filter = true) :
    e ∈ pollSelect db filter last n ∨ ∀ x ∈ pollSelect db filter last n, x.eventId < e.eventId := by
  unfold pollSelect
  set t := db.events.filter (fun e => decide (last < e.eventId) && e.matchesSql filter)
  have hmem : e ∈ t.rows := KeyedTable.mem_filter.mpr ⟨he,by simp [hlast,hmatch]⟩
  have hsorted := t.sorted
  rw [← List.take_append_drop n t.rows] at hmem hsorted
  rcases List.mem_append.mp hmem with hmem | hmem
  · exact .inl hmem
  · exact .inr fun x hx => (List.pairwise_append.mp hsorted).2.2 x hx e hmem

theorem poll_eq {db : Db} {cursorId : String} {c : CursorRow} {filter : Text} (hcursor : pollCursor db cursorId = .ok c)
    (hwindow : pollWindow db c = .ok ()) (hfilter : pollFilter db c = .ok filter) (batchSize : ℕ)
    (after : Option ℤ) : poll db cursorId batchSize after =
      .ok (pollSelect db filter (after.getD c.lastEventId) (effectiveBatchSize batchSize)) :=
  bind_eq_ok.mpr ⟨c,hcursor,bind_eq_ok.mpr ⟨(),hwindow,bind_eq_ok.mpr ⟨filter,hfilter,rfl⟩⟩⟩

theorem poll_ok {db : Db} {cursorId : String} {batchSize : ℕ} {after : Option ℤ} {rows : List EventRow}
    (h : poll db cursorId batchSize after = .ok rows) : ∃ c filter, pollCursor db cursorId = .ok c ∧
      rows = pollSelect db filter (after.getD c.lastEventId) (effectiveBatchSize batchSize) := by
  obtain ⟨c,hcursor,h⟩ := bind_eq_ok.mp h
  obtain ⟨_,-,h⟩ := bind_eq_ok.mp h
  obtain ⟨filter,-,h⟩ := bind_eq_ok.mp h
  exact ⟨c,filter,hcursor,(Except.ok.inj h).symm⟩

theorem pollWindow_error_iff {db : Db} {c : CursorRow} {b : BusError} :
    pollWindow db c = .error b ↔ ∃ minId, db.events.minKey? = some minId ∧ c.lastEventId < minId - 1 ∧
      b = .cursorBehindTtlWindow c.lastEventId minId := by
  unfold pollWindow
  cases hmin : db.events.minKey? with
  | none => simp
  | some minId =>
    by_cases hbehind : c.lastEventId < minId - 1
    · simp [hbehind,eq_comm]
    · simp [hbehind]

theorem poll_behind_iff {db : Db} {cursorId : String} {batchSize : ℕ} {after : Option ℤ} {last oldest : ℤ} :
    poll db cursorId batchSize after = .error (.cursorBehindTtlWindow last oldest) ↔
      ∃ c, pollCursor db cursorId = .ok c ∧ c.lastEventId = last ∧ db.events.minKey? = some oldest ∧
        last < oldest - 1 := by
  unfold poll
  rw [bind_eq_error]
  constructor
  · rintro (h | ⟨c,hcursor,h⟩)
    · obtain ⟨m,hm⟩ := pollCursor_error h
      cases hm
    · rcases bind_eq_error.mp h with h | ⟨_,-,h⟩
      · obtain ⟨minId,hmin,hbehind,heq⟩ := pollWindow_error_iff.mp h
        cases heq
        exact ⟨c,hcursor,rfl,hmin,hbehind⟩
      · rcases bind_eq_error.mp h with h | ⟨_,-,h⟩
        · obtain ⟨m,hm⟩ := pollFilter_error h
          cases hm
        · cases h
  · rintro ⟨c,hcursor,rfl,hmin,hbehind⟩
    exact .inr ⟨c,hcursor,bind_eq_error.mpr (.inl (pollWindow_error_iff.mpr ⟨oldest,hmin,hbehind,rfl⟩))⟩

theorem pollWindow_behind {db : Db} {cursor : CursorRow} {last oldest : ℤ}
    (h : pollWindow db cursor = .error (.cursorBehindTtlWindow last oldest)) :
    (∃ e ∈ db.events, e.eventId = oldest) ∧ ∀ e ∈ db.events, oldest ≤ e.eventId := by
  obtain ⟨minId,hmin,-,heq⟩ := pollWindow_error_iff.mp h
  cases heq
  exact KeyedTable.minKey?_eq_some.mp hmin

end WickedBus
