import WickedBus.Lane

namespace WickedBus

open GuardedRun
open WickedBus.Filter (Text)

structure SameRows (db db' : Db) : Prop extends SameEvents db db' where
  cursors : db'.cursors = db.cursors
  subscriptions : db'.subscriptions = db.subscriptions

def HasFilter (filter : Text) (db : Db) (subscriptionId : String) : Prop :=
  ∃ s, db.subscriptions.get? subscriptionId = some s ∧ s.eventTypeFilter = filter

def LoopEvent.positions : LoopEvent → Bool
  | .invoked _ | .acked _ | .reanchored _ | .reported (.behindWindow _ _) => true
  | _ => false

def TickPoint.batch : TickPoint → List EventRow
  | .next batch => batch
  | .readAttempts event rest => event :: rest
  | .attempt work | .handling work | .deleteAttempt work _ | .ackSelect work _ | .ackUpdate work _
  | .caught work _ | .upsertAttempt work _ | .sleeping work _ | .woken work _ | .deadLetter work _ =>
    work.event :: work.rest
  | _ => []

inductive TickEffect (cfg : SubscriberConfig) (env : TickEnv) (db : Db) : TickPoint → TickResult → Prop
  | still {p : TickPoint} {r : TickResult} (rows : SameRows db r.bus)
      (batch : ∀ q ∈ r.next, q.batch = p.batch ∨ q.batch = [])
      (events : ∀ e ∈ r.events, e.positions = false) : TickEffect cfg env db p r
  | select (filter : Text) (lastEventId : ℤ) : TickEffect cfg env db (.selectEvents filter lastEventId)
      (goto db (.next (pollSelect db filter lastEventId (effectiveBatchSize cfg.batchSize))))
  | invoke (work : Work) : TickEffect cfg env db (.attempt work)
      ⟨some (.handling work),db,[.invoked work.event.eventId]⟩
  | ack {db' : Db} (work : Work) (handled : Bool)
      (moved : moveCursor db cfg.cursorId work.event.eventId env.now = .ok db') :
      TickEffect cfg env db (.ackUpdate work handled)
        ⟨some (.next work.rest),db',[.acked work.event.eventId]⟩
  | reanchor {db' : Db} (lastEventId oldest : ℤ)
      (moved : moveCursor db cfg.cursorId (oldest - 1) env.now = .ok db') :
      TickEffect cfg env db (.reanchor lastEventId oldest)
        ⟨some .finish,db',[.reanchored (oldest - 1),.reported (.behindWindow lastEventId (oldest - 1))]⟩

section TickEffect

variable {cfg : SubscriberConfig} {env : TickEnv} {stopping : Bool} {sleep : ℕ} {db db' : Db} {p q : TickPoint}

theorem SameRows.refl (db : Db) : SameRows db db := ⟨⟨rfl,rfl,rfl⟩,rfl,rfl⟩

theorem TickEffect.goto (h : q.batch = p.batch ∨ q.batch = []) : TickEffect cfg env db p (goto db q) :=
  .still (SameRows.refl db) (fun _ hr => Option.some.inj hr ▸ h) (by simp [WickedBus.goto])

theorem TickEffect.throwIn (work : Work) (handled : Bool) (e : StatementError) (hp : p.batch = work.event :: work.rest) :
    TickEffect cfg env db p (throwIn db work handled e) := by
  unfold WickedBus.throwIn
  split_ifs
  · exact .goto (.inl hp.symm)
  · exact .goto (.inr rfl)

theorem tickStep_effect : TickEffect cfg env db p (tickStep cfg env stopping sleep db p) := by
  cases p with
  | next batch =>
    rw [tickStep_batch]
    repeat' split
    · exact .goto (.inr rfl)
    · exact .goto (.inr rfl)
    · exact .goto (.inl rfl)
  | selectEvents filter lastEventId =>
    simp only [tickStep]
    split
    · exact .goto (.inr rfl)
    · rename_i batch hbatch
      cases (statement_ok hbatch).2
      exact .select filter lastEventId
  | attempt work =>
    simp only [tickStep]
    split_ifs
    · exact .goto (.inl rfl)
    · exact .invoke work
  | deleteAttempt work handled =>
    simp only [tickStep]
    split
    · exact .throwIn work handled _ rfl
    · rename_i db' hdb
      cases (statement_ok hdb).2
      exact .still ⟨⟨rfl,rfl,rfl⟩,rfl,rfl⟩ (fun _ hr => Option.some.inj hr ▸ .inl rfl) (by simp [goto])
  | ackSelect work handled =>
    simp only [tickStep]
    split
    · exact .throwIn work handled _ rfl
    · exact .goto (.inl rfl)
  | ackUpdate work handled =>
    simp only [tickStep]
    split
    · exact .throwIn work handled _ rfl
    · rename_i db' hdb
      exact .ack work handled (ofBus_ok (statement_ok hdb).2)
  | reanchor lastEventId oldest =>
    simp only [tickStep]
    split
    · exact .still (SameRows.refl db) (fun _ hr => Option.some.inj hr ▸ .inr rfl) (by simp [LoopEvent.positions])
    · rename_i db' hdb
      exact .reanchor lastEventId oldest (reanchorCursor_ok (ofBus_ok (statement_ok hdb).2))
  | upsertAttempt work message =>
    simp only [tickStep]
    repeat' split
    · exact .goto (.inr rfl)
    · exact .goto (.inr rfl)
    · rename_i db' hdb
      rw [upsertDeliveryAttempt_ok (foreignKey_ok (statement_ok hdb).2)]
      exact .still ⟨⟨rfl,rfl,rfl⟩,rfl,rfl⟩ (fun _ hr => Option.some.inj hr ▸ .inl rfl)
        (by simp [LoopEvent.positions])
  | deadLetter work reason =>
    simp only [tickStep]
    repeat' split
    · exact .goto (.inr rfl)
    · exact .goto (.inr rfl)
    · rename_i db' hdb
      rw [moveToDeadLetter_ok (foreignKey_ok (statement_ok hdb).2)]
      exact .still ⟨⟨rfl,rfl,rfl⟩,rfl,rfl⟩ (fun _ hr => Option.some.inj hr ▸ .inl rfl)
        (by simp [LoopEvent.positions])
  | replayDelete row =>
    simp only [tickStep]
    split
    · exact .goto (.inr rfl)
    · rename_i db' hdb
      cases (statement_ok hdb).2
      exact .still ⟨⟨rfl,rfl,rfl⟩,rfl,rfl⟩ (fun _ hr => Option.some.inj hr ▸ .inr rfl) (by simp [goto])
  | replayCaught row err =>
    simp only [tickStep]
    repeat' split
    · exact .goto (.inr rfl)
    · exact .goto (.inr rfl)
    · rename_i db' hdb
      cases (statement_ok hdb).2
      exact .still ⟨⟨rfl,rfl,rfl⟩,rfl,rfl⟩ (fun _ hr => Option.some.inj hr ▸ .inr rfl) (by simp [goto])
  | finish => exact .still (SameRows.refl db) (by simp [tickStep]) (by simp [tickStep])
  | sleeping work k => exact .goto (.inl rfl)
  | drain =>
    simp only [tickStep]
    repeat' split
    · exact .goto (.inr rfl)
    · exact .goto (.inr rfl)
    · exact .goto (.inr rfl)
    · exact .still (SameRows.refl db) (by simp [TickPoint.batch]) (by simp [LoopEvent.positions])
  | replay row =>
    simp only [tickStep]
    split <;> exact .goto (.inr rfl)
  | handling work =>
    simp only [tickStep]
    split <;> exact .still (SameRows.refl db) (by simp [TickPoint.batch]) (by simp [LoopEvent.positions])
  | catching err =>
    simp only [tickStep]
    repeat' split
    · exact .still (SameRows.refl db) (by simp [TickPoint.batch]) (by simp [LoopEvent.positions])
    · exact .goto (.inr rfl)
    · exact .still (SameRows.refl db) (by simp [TickPoint.batch]) (by simp [LoopEvent.positions])
  | drained | selectCursor | selectMin cursor | selectFilter cursor =>
    simp only [tickStep]
    repeat' split
    all_goals exact .goto (.inr rfl)
  | readAttempts event rest | caught work err | woken work completed =>
    simp only [tickStep]
    repeat' split
    all_goals first | exact .goto (.inl rfl) | exact .goto (.inr rfl)

end TickEffect

def LiveId (db : Db) (i : ℤ) : Prop := ∃ x ∈ db.live, x.eventId = i

structure Oldest (db : Db) (oldest : ℤ) : Prop where
  live : LiveId db oldest
  least : ∀ x ∈ db.live, oldest ≤ x.eventId

def ReadAt (filter : Text) (db : Db) (last : ℤ) : TickPoint → Prop
  | .selectMin cursor | .selectFilter cursor =>
    cursor.lastEventId = last ∧ HasFilter filter db cursor.subscriptionId
  | .selectEvents f lastEventId => f = filter ∧ lastEventId = last
  | _ => True

def Carries (B : ℤ → ℤ → Prop) : TickPoint → Prop
  | .catching err => ∀ lastEventId oldest,
      err = .statement (.bus (.cursorBehindTtlWindow lastEventId oldest)) → B lastEventId oldest
  | .reanchor lastEventId oldest => B lastEventId oldest
  | _ => True

section ReadAt

variable {cfg : SubscriberConfig} {env : TickEnv} {stopping : Bool} {sleep : ℕ} {db db' : Db} {p : TickPoint}
variable {filter : Text} {last : ℤ} {e : StatementError} {B : ℤ → ℤ → Prop}

theorem pollWindow_error {c : CursorRow} {b : BusError} (h : pollWindow db c = .error b) :
    ∃ oldest, b = .cursorBehindTtlWindow c.lastEventId oldest ∧ c.lastEventId < oldest - 1 ∧ Oldest db oldest := by
  obtain ⟨oldest,hmin,hgap,rfl⟩ := pollWindow_error_iff.mp h
  obtain ⟨⟨x,hx,hid⟩,hall⟩ := KeyedTable.minKey?_eq_some.mp hmin
  refine ⟨_,rfl,hgap,⟨x.fixedPart,mem_live hx,hid⟩,?_⟩
  rintro _ ⟨y,hy,rfl⟩
  exact hall y hy

theorem carries_catching {α : Type} {x : Except StatementError α} (h : env.statement x = .error e)
    (hx : ∀ b, x = .error (.bus b) → ∃ m, b = .cursorNotFound m) : Carries B (.catching (.statement e)) := by
  rintro lastEventId oldest heq
  cases heq
  rcases statement_error h with ⟨s,hs⟩ | hb
  · cases hs
  · obtain ⟨m,hm⟩ := hx _ hb
    cases hm

theorem bus_of_ok {α : Type} {a : α} :
    ∀ b, (.ok a : Except StatementError α) = .error (.bus b) → ∃ m, b = .cursorNotFound m := nofun

theorem carries_throwIn {α : Type} {x : Except StatementError α} (h : env.statement x = .error e)
    (hx : ∀ b, x = .error (.bus b) → ∃ m, b = .cursorNotFound m) {work : Work} {handled : Bool} :
    ∀ q ∈ (throwIn db work handled e).next, Carries B q := by
  intro q hq
  unfold throwIn at hq
  split_ifs at hq <;> cases hq
  · trivial
  · exact carries_catching h hx

theorem bus_of_ofBus {α : Type} {x : Except BusError α} (hx : ∀ b, x = .error b → ∃ m, b = .cursorNotFound m) :
    ∀ b, ofBus x = .error (.bus b) → ∃ m, b = .cursorNotFound m := by
  intro b hb
  obtain ⟨b',heq,hx'⟩ := ofBus_error hb
  cases heq
  exact hx b hx'

theorem tickStep_read (hcursor : ∀ c, pollCursor db cfg.cursorId = .ok c →
    c.lastEventId = last ∧ HasFilter filter db c.subscriptionId) (h : ReadAt filter db last p) :
    ∀ q ∈ (tickStep cfg env stopping sleep db p).next, ReadAt filter db last q := by
  intro q hq
  cases p with
  | selectCursor =>
    simp only [tickStep] at hq
    split at hq <;> cases hq
    · trivial
    · rename_i hc
      exact hcursor _ (ofBus_ok (statement_ok hc).2)
  | selectMin cursor =>
    simp only [tickStep] at hq
    split at hq <;> cases hq
    · trivial
    · exact h
  | selectFilter cursor =>
    simp only [tickStep] at hq
    split at hq <;> cases hq
    · trivial
    · rename_i f hf
      obtain ⟨s,hs,hfilter⟩ := h.2
      have hpoll := ofBus_ok (statement_ok hf).2
      unfold pollFilter at hpoll
      rw [hs,Except.ok.injEq] at hpoll
      exact ⟨hpoll.symm.trans hfilter,h.1⟩
  | finish => simp [tickStep] at hq
  | _ =>
    simp only [↓tickStep_batch,tickStep,throwIn] at hq
    repeat' split at hq
    all_goals cases hq; trivial

theorem tickStep_carries (hwindow : ∀ cursor oldest, p = .selectMin cursor → cursor.lastEventId < oldest - 1 →
    Oldest db oldest → B cursor.lastEventId oldest) (h : Carries B p) :
    ∀ q ∈ (tickStep cfg env stopping sleep db p).next, Carries B q := by
  intro q hq
  cases p with
  | selectCursor =>
    simp only [tickStep] at hq
    split at hq <;> cases hq
    · rename_i herr
      exact carries_catching herr (bus_of_ofBus fun _ => pollCursor_error)
    · trivial
  | selectMin cursor =>
    simp only [tickStep] at hq
    split at hq <;> cases hq
    · rename_i herr
      rintro lastEventId oldest heq
      cases heq
      rcases statement_error herr with ⟨s,hs⟩ | hb
      · cases hs
      · obtain ⟨b,hbus,hpoll⟩ := ofBus_error hb
        cases hbus
        obtain ⟨oldest',heq,hgap,holdest⟩ := pollWindow_error hpoll
        cases heq
        exact hwindow cursor _ rfl hgap holdest
    · trivial
  | selectFilter cursor =>
    simp only [tickStep] at hq
    split at hq <;> cases hq
    · rename_i herr
      exact carries_catching herr (bus_of_ofBus fun _ => pollFilter_error)
    · trivial
  | deleteAttempt work handled =>
    simp only [tickStep] at hq
    split at hq
    · rename_i herr
      exact carries_throwIn herr bus_of_ok q hq
    · cases hq; trivial
  | ackSelect work handled =>
    simp only [tickStep] at hq
    split at hq
    · rename_i herr
      exact carries_throwIn herr (bus_of_ofBus fun _ => pollCursor_error) q hq
    · cases hq; trivial
  | ackUpdate work handled =>
    simp only [tickStep] at hq
    split at hq
    · rename_i herr
      exact carries_throwIn herr (bus_of_ofBus fun _ => moveCursor_error) q hq
    · cases hq; trivial
  | catching err =>
    simp only [tickStep] at hq
    repeat' split at hq
    · cases hq; trivial
    · cases hq
      exact h _ _ rfl
    · cases hq; trivial
  | drain | replayDelete row | selectEvents f lastEventId | readAttempts event rest =>
    simp only [tickStep] at hq
    repeat' split at hq
    all_goals first
      | (cases hq; trivial)
      | (rename_i herr; cases hq; exact carries_catching herr bus_of_ok)
  | replayCaught row err =>
    simp only [tickStep] at hq
    repeat' split at hq
    · cases hq
      rintro _ _ heq
      cases heq
    · rename_i herr
      cases hq
      exact carries_catching herr bus_of_ok
    · cases hq; trivial
  | upsertAttempt work message | deadLetter work reason =>
    simp only [tickStep] at hq
    repeat' split at hq
    · cases hq
      rintro _ _ heq
      cases heq
    · rename_i herr
      cases hq
      refine carries_catching herr fun b hb => ?_
      unfold foreignKey at hb
      split at hb <;> cases hb
    · cases hq; trivial
  | reanchor lastEventId oldest =>
    simp only [tickStep] at hq
    split at hq <;> cases hq <;> trivial
  | caught work err =>
    simp only [tickStep] at hq
    repeat' split at hq
    · cases hq
      rintro _ _ heq
      cases heq
    all_goals cases hq; trivial
  | finish => simp [tickStep] at hq
  | _ =>
    simp only [↓tickStep_batch,tickStep] at hq
    repeat' split at hq
    all_goals cases hq; trivial

theorem Carries.mono {C : ℤ → ℤ → Prop} (himp : ∀ l o, B l o → C l o) (h : Carries B p) : Carries C p := by
  cases p with
  | catching err => exact fun l o heq => himp l o (h l o heq)
  | reanchor l o => exact himp l o h
  | _ => trivial

end ReadAt

end WickedBus
