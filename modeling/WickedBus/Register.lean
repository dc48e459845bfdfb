import WickedBus.Schema

namespace WickedBus

open WickedBus.Filter (Text)

inductive CursorInit where
  | oldest | latest
  deriving DecidableEq, Repr

structure RegisterOpts where
  plugin : String
  role : Role
  filter : Text
  schemaVersion : Option String
  cursorInit : Option CursorInit
  deriving DecidableEq, Repr

def insertSubscription (db : Db) (row : SubscriptionRow) : Option Db :=
  if (db.subscriptions.get? row.subscriptionId).isSome then none
  else some { db with subscriptions := db.subscriptions.insertOrIgnore row }

def insertCursor (db : Db) (row : CursorRow) : Option Db :=
  if (db.cursors.get? row.cursorId).isSome then none
  else if (db.subscriptions.get? row.subscriptionId).isNone then none
  else some { db with cursors := db.cursors.insertOrIgnore row }

def initialPosition (db : Db) (cursorInit : Option CursorInit) : ℤ :=
  if cursorInit = some .latest then db.events.maxKey?.getD 0 else 0

def subscriptionOf (opts : RegisterOpts) (subscriptionId : String) (now : ℤ) : SubscriptionRow where
  subscriptionId := subscriptionId
  plugin := opts.plugin
  role := opts.role
  eventTypeFilter := opts.filter
  schemaVersion := opts.schemaVersion
  registeredAt := now
  deregisteredAt := none

def cursorOf (cursorId subscriptionId : String) (lastEventId now : ℤ) : CursorRow where
  cursorId := cursorId
  subscriptionId := subscriptionId
  lastEventId := lastEventId
  ackedAt := none
  createdAt := now
  deregisteredAt := none

def register (db : Db) (opts : RegisterOpts) (subscriptionId cursorId : String) (now : ℤ) :
    Option Db := do
  let db' ← insertSubscription db (subscriptionOf opts subscriptionId now)
  match opts.role with
  | .provider => pure db'
  | .subscriber =>
    insertCursor db'
      (cursorOf cursorId subscriptionId (initialPosition db' opts.cursorInit) now)

def updateSubscription (db : Db) (subscriptionId : String) (now : ℤ) : Db :=
  { db with
    subscriptions := db.subscriptions.map
      (fun s => if s.subscriptionId = subscriptionId then { s with deregisteredAt := some now } else s)
      (by intro s; split_ifs <;> rfl) }

def updateCursorsOf (db : Db) (subscriptionId : String) (now : ℤ) : Db :=
  { db with
    cursors := db.cursors.map
      (fun c => if c.subscriptionId = subscriptionId ∧ c.deregisteredAt = none then
        { c with deregisteredAt := some now } else c)
      (by intro c; split_ifs <;> rfl) }

def deregisterOne (now : ℤ) (db : Db) (sub : SubscriptionRow) : Db :=
  let db' := updateSubscription db sub.subscriptionId now
  match sub.role with
  | .subscriber => updateCursorsOf db' sub.subscriptionId now
  | .provider => db'

def deregister (db : Db) (subscriptionId : String) (now : ℤ) : Except BusError Db :=
  match db.subscriptions.get? subscriptionId with
  | none => .error (.cursorNotFound "subscription not found")
  | some sub => .ok (deregisterOne now db sub)

def activeSubscriptionsOf (db : Db) (plugin : String) (role : Option Role) : List SubscriptionRow :=
  db.subscriptions.rows.filter
    (fun s => s.plugin = plugin ∧ (∀ r ∈ role, s.role = r) ∧ s.deregisteredAt = none)

def deregisterByPlugin (db : Db) (plugin : String) (role : Option Role) (now : ℤ) :
    Except BusError Db :=
  if plugin = "" then .error (.invalidEventSchema "invalid plugin")
  else
    match activeSubscriptionsOf db plugin role with
    | [] => .error (.cursorNotFound "no active subscription")
    | subs => .ok (subs.foldl (deregisterOne now) db)

theorem insertSubscription_ok {db db' : Db} {row : SubscriptionRow} (h : insertSubscription db row = some db') :
    db' = { db with subscriptions := db.subscriptions.insertOrIgnore row } := by
  unfold insertSubscription at h
  split_ifs at h
  exact (Option.some.inj h).symm

theorem insertCursor_ok {db db' : Db} {row : CursorRow} (h : insertCursor db row = some db') :
    db' = { db with cursors := db.cursors.insertOrIgnore row } := by
  unfold insertCursor at h
  split_ifs at h
  exact (Option.some.inj h).symm

theorem deregister_ok {db db' : Db} {subscriptionId : String} {now : ℤ}
    (h : deregister db subscriptionId now = .ok db') : ∃ sub, db' = deregisterOne now db sub := by
  unfold deregister at h
  split at h
  · cases h
  · exact ⟨_,(Except.ok.inj h).symm⟩

theorem deregisterByPlugin_ok {db db' : Db} {plugin : String} {role : Option Role} {now : ℤ}
    (h : deregisterByPlugin db plugin role now = .ok db') :
    ∃ subs : List SubscriptionRow, db' = subs.foldl (deregisterOne now) db := by
  unfold deregisterByPlugin at h
  split_ifs at h
  split at h
  · cases h
  · exact ⟨_,(Except.ok.inj h).symm⟩

theorem insertSubscription_sameEvents {db db' : Db} {row : SubscriptionRow}
    (h : insertSubscription db row = some db') : SameEvents db db' := by
  rw [insertSubscription_ok h]
  exact ⟨rfl,rfl,rfl⟩

theorem insertCursor_sameEvents {db db' : Db} {row : CursorRow}
    (h : insertCursor db row = some db') : SameEvents db db' := by
  rw [insertCursor_ok h]
  exact ⟨rfl,rfl,rfl⟩

theorem deregisterOne_sameEvents (now : ℤ) (db : Db) (sub : SubscriptionRow) :
    SameEvents db (deregisterOne now db sub) := by
  unfold deregisterOne
  cases sub.role <;> exact ⟨rfl,rfl,rfl⟩

theorem deregister_sameEvents {db db' : Db} {subscriptionId : String} {now : ℤ}
    (h : deregister db subscriptionId now = .ok db') : SameEvents db db' := by
  obtain ⟨sub,rfl⟩ := deregister_ok h
  exact deregisterOne_sameEvents now db sub

theorem deregisterByPlugin_sameEvents {db db' : Db} {plugin : String} {role : Option Role} {now : ℤ}
    (h : deregisterByPlugin db plugin role now = .ok db') : SameEvents db db' := by
  obtain ⟨subs,rfl⟩ := deregisterByPlugin_ok h
  exact List.foldlRecOn subs (deregisterOne now) ⟨rfl,rfl,rfl⟩
    fun _ ih sub _ => ih.trans (deregisterOne_sameEvents now _ sub)

end WickedBus
