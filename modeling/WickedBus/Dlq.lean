import WickedBus.Schema

namespace WickedBus

def upsertDeliveryAttempt (db : Db) (row : DeliveryAttemptRow) : Option Db :=
  if (db.cursors.get? row.cursorId).isNone then none
  else some { db with deliveryAttempts := db.deliveryAttempts.upsert row }

def deleteDeliveryAttempt (db : Db) (cursorId : String) (eventId : ℤ) : Db :=
  { db with
    deliveryAttempts := db.deliveryAttempts.filter
      (fun d => !decide (d.cursorId = cursorId ∧ d.eventId = eventId)) }

def getAttempts (db : Db) (cursorId : String) (eventId : ℤ) : ℕ :=
  match db.deliveryAttempts.get? (toLex (cursorId,eventId)) with
  | none => 0
  | some row => row.attempts

def deadLetterOf (db : Db) (cursorId subscriptionId : String) (event : EventRow) (attempts : ℕ)
    (reason : Option String) (now : ℤ) : DeadLetterRow where
  dlId := db.deadLetterSeq + 1
  cursorId := cursorId
  subscriptionId := subscriptionId
  eventId := event.eventId
  eventType := event.eventType
  domain := event.domain
  subdomain := event.subdomain
  payload := event.payload
  emittedAt := event.emittedAt
  attempts := attempts
  lastError := reason
  deadLetteredAt := now
  replayRequestedAt := none

def appendDeadLetter (db : Db) (row : DeadLetterRow) (h : row.dlId = db.deadLetterSeq + 1) : Db where
  __ := db
  deadLetters := db.deadLetters.insertOrIgnore row
  deadLetterSeq := db.deadLetterSeq + 1
  deadLetters_le_seq := by
    intro d hd
    rcases KeyedTable.mem_insertOrIgnore.mp hd with hd | ⟨rfl,_⟩
    · have := db.deadLetters_le_seq d hd
      omega
    · exact h.le

def moveToDeadLetter (db : Db) (cursorId subscriptionId : String) (event : EventRow) (attempts : ℕ)
    (reason : Option String) (now : ℤ) : Option Db :=
  if (db.cursors.get? cursorId).isNone ∨ (db.subscriptions.get? subscriptionId).isNone then none
  else some (appendDeadLetter db (deadLetterOf db cursorId subscriptionId event attempts reason now) rfl)

def updateDeadLetter (db : Db) (dlId : ℤ) (f : DeadLetterRow → DeadLetterRow)
    (hf : ∀ d, (f d).dlId = d.dlId) : Db where
  __ := db
  deadLetters := db.deadLetters.map (fun d => if d.dlId = dlId then f d else d)
    (by intro d; split_ifs <;> simp [hf])
  deadLetters_le_seq := by
    intro d hd
    obtain ⟨r,hr,rfl⟩ := KeyedTable.mem_map.mp hd
    have := db.deadLetters_le_seq r hr
    split_ifs <;> simpa [hf] using this

def replayDeadLetter (db : Db) (dlId now : ℤ) : Except BusError Db :=
  if (db.deadLetters.get? dlId).isNone then .error (.cursorNotFound "dead letter row not found")
  else .ok (updateDeadLetter db dlId (fun d => { d with replayRequestedAt := some now }) (fun _ => rfl))

def deleteDeadLetter (db : Db) (dlId : ℤ) : Db where
  __ := db
  deadLetters := db.deadLetters.filter (fun d => decide (d.dlId ≠ dlId))
  deadLetters_le_seq := fun d hd => db.deadLetters_le_seq d (KeyedTable.mem_filter.mp hd).1

def dropDeadLetter (db : Db) (dlId : ℤ) : Except BusError Db :=
  if (db.deadLetters.get? dlId).isNone then .error (.cursorNotFound "dead letter row not found")
  else .ok (deleteDeadLetter db dlId)

def failReplay (db : Db) (dlId : ℤ) (lastError : String) : Db :=
  updateDeadLetter db dlId
    (fun d => { d with
      replayRequestedAt := none
      attempts := d.attempts + 1
      lastError := some lastError })
    (fun _ => rfl)

def pendingReplay (db : Db) (cursorId : String) : Option DeadLetterRow :=
  db.deadLetters.rows.find? (fun d => d.cursorId = cursorId ∧ d.replayRequestedAt.isSome)

theorem upsertDeliveryAttempt_ok {db db' : Db} {row : DeliveryAttemptRow}
    (h : upsertDeliveryAttempt db row = some db') :
    db' = { db with deliveryAttempts := db.deliveryAttempts.upsert row } := by
  unfold upsertDeliveryAttempt at h
  split_ifs at h
  exact (Option.some.inj h).symm

theorem moveToDeadLetter_ok {db db' : Db} {cursorId subscriptionId : String} {event : EventRow}
    {attempts : ℕ} {reason : Option String} {now : ℤ}
    (h : moveToDeadLetter db cursorId subscriptionId event attempts reason now = some db') :
    db' = appendDeadLetter db (deadLetterOf db cursorId subscriptionId event attempts reason now) rfl := by
  unfold moveToDeadLetter at h
  split_ifs at h
  exact (Option.some.inj h).symm

theorem replayDeadLetter_ok {db db' : Db} {dlId now : ℤ} (h : replayDeadLetter db dlId now = .ok db') :
    db' = updateDeadLetter db dlId (fun d => { d with replayRequestedAt := some now }) (fun _ => rfl) := by
  unfold replayDeadLetter at h
  split_ifs at h
  exact (Except.ok.inj h).symm

theorem dropDeadLetter_ok {db db' : Db} {dlId : ℤ} (h : dropDeadLetter db dlId = .ok db') :
    db' = deleteDeadLetter db dlId := by
  unfold dropDeadLetter at h
  split_ifs at h
  exact (Except.ok.inj h).symm

theorem getAttempts_of_mem {db : Db} {row : DeliveryAttemptRow} (h : row ∈ db.deliveryAttempts) :
    getAttempts db row.cursorId row.eventId = row.attempts := by
  have hrow : db.deliveryAttempts.get? (toLex (row.cursorId,row.eventId)) = some row :=
    KeyedTable.get?_eq_some.mpr ⟨h,rfl⟩
  simp only [getAttempts,hrow]

theorem getAttempts_le {db : Db} {cursorId : String} {e : ℤ} {n : ℕ}
    (h : ∀ row ∈ db.deliveryAttempts, row.cursorId = cursorId → row.eventId = e → row.attempts ≤ n) :
    getAttempts db cursorId e ≤ n := by
  unfold getAttempts
  split
  · exact Nat.zero_le n
  · rename_i row hrow
    obtain ⟨hmem,hkey⟩ := KeyedTable.get?_eq_some.mp hrow
    have hpair : (row.cursorId,row.eventId) = (cursorId,e) := hkey
    rw [Prod.mk.injEq] at hpair
    exact h row hmem hpair.1 hpair.2

theorem getAttempts_upsert (db : Db) (row : DeliveryAttemptRow) :
    getAttempts { db with deliveryAttempts := db.deliveryAttempts.upsert row } row.cursorId row.eventId =
      row.attempts :=
  getAttempts_of_mem (KeyedTable.mem_upsert.mpr (.inl rfl))

theorem deleteDeliveryAttempt_get (db : Db) (cursorId : String) (eventId : ℤ) :
    (deleteDeliveryAttempt db cursorId eventId).deliveryAttempts.get? (toLex (cursorId,eventId)) = none := by
  refine Option.eq_none_iff_forall_not_mem.mpr fun d hd => ?_
  obtain ⟨hmem,hkey⟩ := KeyedTable.get?_eq_some.mp hd
  have hpair : (d.cursorId,d.eventId) = (cursorId,eventId) := hkey
  rw [Prod.mk.injEq] at hpair
  simp only [deleteDeliveryAttempt,KeyedTable.mem_filter] at hmem
  simp [hpair] at hmem

end WickedBus
