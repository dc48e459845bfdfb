import WickedBus.Foundation.GuardedRun
import WickedBus.Dlq
import WickedBus.Emit
import WickedBus.Poll
import WickedBus.Register
import WickedBus.Sweep

namespace WickedBus

inductive BusOp where
  | emit (params : NewEvent) (releaseUuid : String)
  | insertSubscription (row : SubscriptionRow)
  | insertCursor (row : CursorRow)
  | deregister (subscriptionId : String) (now : ℤ)
  | deregisterByPlugin (plugin : String) (role : Option Role) (now : ℤ)
  | moveCursor (cursorId : String) (lastEventId now : ℤ)
  | replayCursor (cursorId : String) (lastEventId : ℤ)
  | upsertDeliveryAttempt (row : DeliveryAttemptRow)
  | deleteDeliveryAttempt (cursorId : String) (eventId : ℤ)
  | moveToDeadLetter (cursorId subscriptionId : String) (event : EventRow) (attempts : ℕ)
      (reason : Option String) (now : ℤ)
  | replayDeadLetter (dlId now : ℤ)
  | dropDeadLetter (dlId : ℤ)
  | failReplay (dlId : ℤ) (lastError : String)
  | sweep (config : SweepConfig) (clock : ℤ)
  deriving DecidableEq, Repr

def BusOp.apply (db : Db) : BusOp → Option Db
  | .emit params releaseUuid => (emitParamsInto db params releaseUuid).toOption
  | .insertSubscription row => WickedBus.insertSubscription db row
  | .insertCursor row => WickedBus.insertCursor db row
  | .deregister subscriptionId now => (WickedBus.deregister db subscriptionId now).toOption
  | .deregisterByPlugin plugin role now =>
    (WickedBus.deregisterByPlugin db plugin role now).toOption
  | .moveCursor cursorId lastEventId now =>
    (WickedBus.moveCursor db cursorId lastEventId now).toOption
  | .replayCursor cursorId lastEventId => some (WickedBus.replayCursor db cursorId lastEventId)
  | .upsertDeliveryAttempt row => WickedBus.upsertDeliveryAttempt db row
  | .deleteDeliveryAttempt cursorId eventId =>
    some (WickedBus.deleteDeliveryAttempt db cursorId eventId)
  | .moveToDeadLetter cursorId subscriptionId event attempts reason now =>
    WickedBus.moveToDeadLetter db cursorId subscriptionId event attempts reason now
  | .replayDeadLetter dlId now => (WickedBus.replayDeadLetter db dlId now).toOption
  | .dropDeadLetter dlId => (WickedBus.dropDeadLetter db dlId).toOption
  | .failReplay dlId lastError => some (WickedBus.failReplay db dlId lastError)
  | .sweep config clock => (runSweep db config clock).toOption.map Prod.fst

def BusOp.isSweep : BusOp → Bool
  | .sweep _ _ => true
  | _ => false

theorem toOption_eq_some {ε α : Type} {x : Except ε α} {a : α} : x.toOption = some a ↔ x = .ok a := by
  cases x <;> simp [Except.toOption]

theorem runSweep_ok {db db' : Db} {config : SweepConfig} {clock : ℤ} {result : SweepResult}
    (h : runSweep db config clock = .ok (db',result)) :
    ∃ policy capDays, resolveUnackedPolicy config = .ok policy ∧
      resolveRetentionCapDays config = .ok capDays ∧
      db' = (sweepTransaction db (config.now.getD clock) policy capDays config.archiveMode).1 := by
  obtain ⟨policy,hpolicy,h⟩ := bind_eq_ok.mp h
  obtain ⟨capDays,hcap,h⟩ := bind_eq_ok.mp h
  exact ⟨policy,capDays,hpolicy,hcap,(congrArg Prod.fst (Except.ok.inj h)).symm⟩

theorem busOp_cases {db db' : Db} {op : BusOp} (h : op.apply db = some db') :
    (∃ params uuid, op = .emit params uuid ∧ emitParamsInto db params uuid = .ok db') ∨
    (∃ config clock result, op = .sweep config clock ∧
      runSweep db config clock = .ok (db',result)) ∨
    SameEvents db db' := by
  cases op with
  | emit params uuid => exact .inl ⟨params,uuid,rfl,toOption_eq_some.mp h⟩
  | sweep config clock =>
    obtain ⟨⟨_,result⟩,hr,rfl⟩ := Option.map_eq_some_iff.mp h
    exact .inr (.inl ⟨config,clock,result,rfl,toOption_eq_some.mp hr⟩)
  | insertSubscription row => exact .inr (.inr (insertSubscription_sameEvents h))
  | insertCursor row => exact .inr (.inr (insertCursor_sameEvents h))
  | deregister id now => exact .inr (.inr (deregister_sameEvents (toOption_eq_some.mp h)))
  | deregisterByPlugin plugin role now =>
    exact .inr (.inr (deregisterByPlugin_sameEvents (toOption_eq_some.mp h)))
  | moveCursor cursorId pos now => exact .inr (.inr (moveCursor_sameEvents (toOption_eq_some.mp h)))
  | replayCursor cursorId pos =>
    cases h
    exact .inr (.inr ⟨rfl,rfl,rfl⟩)
  | upsertDeliveryAttempt row =>
    rw [upsertDeliveryAttempt_ok h]
    exact .inr (.inr ⟨rfl,rfl,rfl⟩)
  | deleteDeliveryAttempt cursorId eventId =>
    cases h
    exact .inr (.inr ⟨rfl,rfl,rfl⟩)
  | moveToDeadLetter cursorId subscriptionId event attempts reason now =>
    rw [moveToDeadLetter_ok h]
    exact .inr (.inr ⟨rfl,rfl,rfl⟩)
  | replayDeadLetter dlId now =>
    rw [replayDeadLetter_ok (toOption_eq_some.mp h)]
    exact .inr (.inr ⟨rfl,rfl,rfl⟩)
  | dropDeadLetter dlId =>
    rw [dropDeadLetter_ok (toOption_eq_some.mp h)]
    exact .inr (.inr ⟨rfl,rfl,rfl⟩)
  | failReplay dlId lastError =>
    cases h
    exact .inr (.inr ⟨rfl,rfl,rfl⟩)

theorem emit_apply {db db' : Db} {config : EmitConfig} {event : EmitEvent} {env : EmitEnv}
    {eventId : ℤ} {key : String} (h : emit db config event env = .ok (db',eventId,key)) :
    (BusOp.emit (emitParams config event env) env.releaseUuid).apply db = some db' := by
  refine toOption_eq_some.mpr ?_
  unfold emit at h
  cases he : emitParamsInto db (emitParams config event env) env.releaseUuid with
  | error e => simp [he,Except.map] at h
  | ok db₁ =>
    simp only [he,Except.map,Except.ok.injEq,Prod.mk.injEq] at h
    rw [h.1]

theorem ack_apply {db db' : Db} {cursorId : String} {pos now : ℤ}
    (h : ack db cursorId pos now = .ok db') :
    (BusOp.moveCursor cursorId pos now).apply db = some db' :=
  toOption_eq_some.mpr (ack_ok h)

theorem reanchorCursor_apply {db db' : Db} {cursorId : String} {pos now : ℤ}
    (h : reanchorCursor db cursorId pos now = .ok db') :
    (BusOp.moveCursor cursorId pos now).apply db = some db' :=
  toOption_eq_some.mpr (reanchorCursor_ok h)

theorem cmdReplay_apply {db db' : Db} {cursorId : String} {fromEventId : ℤ}
    (h : cmdReplay db cursorId fromEventId = .ok db') :
    (BusOp.replayCursor cursorId (fromEventId - 1)).apply db = some db' := by
  obtain ⟨c,-,h⟩ := bind_eq_ok.mp h
  split at h
  · split_ifs at h
    · cases h
    · simpa [BusOp.apply,pure,Except.pure] using h
  · simpa [BusOp.apply,pure,Except.pure,bind,Except.bind] using h

theorem register_run {db db' : Db} {opts : RegisterOpts} {subscriptionId cursorId : String}
    {now : ℤ} (h : register db opts subscriptionId cursorId now = some db') :
    ∃ ops, GuardedRun.exec BusOp.apply db ops = some db' := by
  obtain ⟨db₁,hs,h⟩ := Option.bind_eq_some_iff.mp h
  have h₁ : GuardedRun.exec BusOp.apply db
      [.insertSubscription (subscriptionOf opts subscriptionId now)] = some db₁ := by
    simpa [GuardedRun.exec,BusOp.apply] using hs
  cases hr : opts.role with
  | provider =>
    rw [hr] at h
    cases h
    exact ⟨_,h₁⟩
  | subscriber =>
    rw [hr] at h
    refine ⟨[.insertSubscription (subscriptionOf opts subscriptionId now)] ++ [.insertCursor
      (cursorOf cursorId subscriptionId (initialPosition db₁ opts.cursorInit) now)],?_⟩
    rw [GuardedRun.exec_snoc,h₁]
    exact h

end WickedBus
