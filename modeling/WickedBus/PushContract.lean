import WickedBus.PushOrPoll

namespace WickedBus

open GuardedRun
open WickedBus.Filter (Text)

section Guarantee

variable {db₀ : Db} {archive : Archive} {as₀ : List Action} {w₀ : World} {opts : PushOpts}
variable {cfg : DaemonConfig} {c : CursorRow} {s : SubscriptionRow}

theorem Sourced.start (Q : EventRow → Prop)
    (hreach : Run World.step (fun _ _ => True) (World.start db₀ archive) as₀ w₀)
    (hc : c ∈ w₀.bus.cursors) (hactive : c.deregisteredAt = none) (hs : s ∈ w₀.bus.subscriptions)
    (hsub : s.subscriptionId = c.subscriptionId) (hsactive : s.deregisteredAt = none) :
    Sourced (watchOf c s w₀) Q (startedPush w₀) := by
  have hreg : Registered (watchOf c s w₀) w₀.bus c.lastEventId :=
    ⟨⟨c,hc,rfl,hactive,rfl,rfl⟩,⟨s,hs,hsub,hsactive,rfl⟩⟩
  have hpos : position (startedPush w₀).world.bus (watchOf c s w₀).cursorId = c.lastEventId :=
    hreg.position_eq
  refine ⟨(Provenance.start db₀ archive).run hreach,hpos ▸ hreg,hpos.ge,.inl hpos,?_,?_,?_,?_⟩
  · exact fun r hr => (List.not_mem_nil hr).elim
  · rintro _ ⟨⟩
  · rintro _ ⟨⟩
  · exact fun y hy => (List.not_mem_nil hy).elim

def RowsKept (v : Watch) (t : PushState) : PushAction → Prop
  | .world b => RowsOk v t.world b
  | _ => True

theorem RowsKept.rowsOk {v : Watch} {t : PushState} {a : PushAction} (h : RowsKept v t a) :
    ∀ b, a = .world b → RowsOk v t.world b := by
  rintro b rfl
  exact h

theorem push_no_loss
    (hreach : Run World.step (fun _ _ => True) (World.start db₀ archive) as₀ w₀)
    (hc : c ∈ w₀.bus.cursors) (hcursor : opts.cursorId = c.cursorId) (hactive : c.deregisteredAt = none)
    (hs : s ∈ w₀.bus.subscriptions) (hsub : s.subscriptionId = c.subscriptionId)
    (hsactive : s.deregisteredAt = none) {as : List PushAction} {t : PushState}
    (hrun : Run (PushState.step opts cfg)
      (fun t a => RowsKept (watchOf c s w₀) t a ∧ TakesInOrder (watchOf c s w₀) t a)
      (startedPush w₀) as t)
    {e : EventRow} (he : e ∈ t.world.bus.events) (hmatch : e.matchesSql s.eventTypeFilter = true)
    (hid : c.lastEventId < e.eventId) {c' : CursorRow} (hc' : c' ∈ t.world.bus.cursors)
    (hck : c'.cursorId = opts.cursorId) (hle : e.eventId ≤ c'.lastEventId) :
    ∃ y ∈ t.yielded, y.fixedPart = e.fixedPart := by
  have hstart : NoLoss (watchOf c s w₀) (startedPush w₀) := by
    have hsourced := Sourced.start (fun _ => True) hreach hc hactive hs hsub hsactive
    refine ⟨hsourced,fun x hx hpos => ?_,by rintro _ ⟨⟩⟩
    rcases hsourced.reached with hreached | ⟨y,hy,-⟩
    · exact absurd hx.2.1 (not_lt.mpr (hreached ▸ hpos))
    · exact (List.not_mem_nil hy).elim
  have h : NoLoss (watchOf c s w₀) t :=
    hrun.invariant (fun _ _ _ hu hok hstep => hu.step hcursor hok.1.rowsOk hok.2 hstep) hstart
  have hpos : position t.world.bus (watchOf c s w₀).cursorId = c'.lastEventId := by
    rw [position,show (watchOf c s w₀).cursorId = c'.cursorId from (hck.trans hcursor).symm,
      KeyedTable.get?_eq_some.mpr ⟨hc',rfl⟩]
    rfl
  obtain ⟨y,hy,hye⟩ := h.safe e.fixedPart ⟨mem_live he,hid,hmatch⟩ (hpos ▸ hle)
  exact ⟨y,hy,h.sourced.prov.logged_unique (h.sourced.yielded y hy).1
    (h.sourced.prov.live (mem_live he)) hye⟩

theorem push_at_most_once
    (hreach : Run World.step (fun _ _ => True) (World.start db₀ archive) as₀ w₀)
    (hc : c ∈ w₀.bus.cursors) (hcursor : opts.cursorId = c.cursorId) (hactive : c.deregisteredAt = none)
    (hs : s ∈ w₀.bus.subscriptions) (hsub : s.subscriptionId = c.subscriptionId)
    (hsactive : s.deregisteredAt = none) {as : List PushAction} {t : PushState}
    (hrun : Run (PushState.step opts cfg)
      (fun t a => RowsKept (watchOf c s w₀) t a ∧ TakesAboveCursor (watchOf c s w₀) t a)
      (startedPush w₀) as t) :
    t.yielded.Pairwise (fun a b => a.eventId < b.eventId) ∧
      ∀ a u, RowsKept (watchOf c s w₀) t a → TakesAboveCursor (watchOf c s w₀) t a →
        t.step opts cfg a = some u →
          position t.world.bus opts.cursorId ≤ position u.world.bus opts.cursorId := by
  have hstart : Once (watchOf c s w₀) (startedPush w₀) :=
    ⟨.start (fun _ => True) hreach hc hactive hs hsub hsactive,.nil,by rintro _ ⟨⟩⟩
  have h : Once (watchOf c s w₀) t :=
    hrun.invariant (fun _ _ _ hu hok hstep => (hu.step hcursor hok.1.rowsOk hok.2 hstep).1) hstart
  refine ⟨h.sorted,fun a u hrows hok hstep => ?_⟩
  rw [hcursor]
  exact (h.step hcursor hrows.rowsOk hok hstep).2

theorem push_selects
    (hreach : Run World.step (fun _ _ => True) (World.start db₀ archive) as₀ w₀)
    (hc : c ∈ w₀.bus.cursors) (hcursor : opts.cursorId = c.cursorId) (hactive : c.deregisteredAt = none)
    (hs : s ∈ w₀.bus.subscriptions) (hsub : s.subscriptionId = c.subscriptionId)
    (hsactive : s.deregisteredAt = none) {as : List PushAction} {t : PushState}
    (hrun : Run (PushState.step opts cfg) (fun t a => RowsKept (watchOf c s w₀) t a ∧
      FanOut (fun r => r.matchesSql s.eventTypeFilter = true) t a) (startedPush w₀) as t) :
    ∀ y ∈ t.yielded, y.matchesSql s.eventTypeFilter = true := by
  have hstart := Sourced.start (PushesMatch (watchOf c s w₀)) hreach hc hactive hs hsub hsactive
  have h : Sourced (watchOf c s w₀) (PushesMatch (watchOf c s w₀)) t :=
    hrun.invariant (fun _ _ _ hu hok hstep => hu.step hcursor ⟨hok.1.rowsOk,hok.2⟩ hstep) hstart
  exact fun y hy => (h.yielded y hy).2.2.elim id id

end Guarantee

def PushAction.emitsOnly : PushAction → Bool
  | .world (.bus (.emit _ _)) => true
  | .world _ => false
  | _ => true

theorem rowsKept_of_emitsOnly {v : Watch} {t : PushState} {a : PushAction} (h : a.emitsOnly = true) :
    RowsKept v t a := by
  cases a with
  | world a =>
    cases a with
    | bus op =>
      cases op with
      | emit params uuid =>
        intro db hdb
        have hframe := emit_frame (toOption_eq_some.mp hdb)
        exact ⟨by rw [hframe.cursors],by rw [hframe.subscriptions]⟩
      | _ => cases h
    | _ => cases h
  | _ => trivial

def samplePushOpts : PushOpts := ⟨"c1","c1",none⟩

def keyedSample (key : String) : NewEvent := { expiredSample with idempotencyKey := key }

def deepSample : NewEvent := { keyedSample "k3" with eventType := "wicked.run.done".toList }

def emitStep (params : NewEvent) : PushAction := .world (.bus (.emit params "u"))

def genStepOk : PushAction := .gen ⟨false,true,7⟩

def enterPushLoop : List PushAction :=
  [.start true,.daemonRead,genStepOk,genStepOk,genStepOk,genStepOk]

def takePushed (key : String) : List PushAction :=
  [emitStep (keyedSample key),.arrive 0 0 1,.clientRead,genStepOk]

def inPollMode : List PushAction :=
  [.disconnect,genStepOk,emitStep deepSample,emitStep (keyedSample "k4"),emitStep (keyedSample "k5"),.lose 0,
    .arrive 1 0 1,genStepOk,genStepOk,.gen ⟨true,true,7⟩,genStepOk,genStepOk,genStepOk]

-- 1 waits for the catch-up, 2 and 6 are pushed, 3 matches nothing, 4 and 5 are polled and the ack of 4 fails
def pushedInOrder : List PushAction :=
  [emitStep expiredSample,.arrive 0 0 1,.start true,.daemonRead] ++ List.replicate 5 genStepOk ++
    .daemonRead :: takePushed "k2" ++ inPollMode ++ List.replicate 4 genStepOk ++
    .daemonRead :: .arrive 0 0 1 :: takePushed "k6"

def newerPushedFirst : List PushAction :=
  enterPushLoop ++ [emitStep expiredSample,emitStep (keyedSample "k2"),.arrive 1 0 1,.clientRead,genStepOk]

def framedDuringCatchUp : List PushAction :=
  [.start true,.daemonRead,emitStep expiredSample,.arrive 0 0 1,.clientRead,genStepOk,genStepOk,genStepOk,
    genStepOk,genStepOk]

def unmatchedPushed : List PushAction :=
  enterPushLoop ++ [emitStep deepSample,.arrive 0 0 1,.clientRead,genStepOk]

def sampleWatch : Watch := ⟨"c1","s1","wicked.*".toList,0,0,∅⟩

def PushSampleOk (t : PushState) (a : PushAction) : Prop :=
  a.emitsOnly = true ∧ TakesInOrder sampleWatch t a ∧ TakesAboveCursor sampleWatch t a ∧
    FanOut (fun r => r.matchesSql "wicked.*".toList = true) t a

instance (t : PushState) (a : PushAction) : Decidable (PushSampleOk t a) :=
  inferInstanceAs (Decidable (_ ∧ _ ∧ _ ∧ _))

theorem pushedInOrder_run : ∃ w t, Run World.step (fun _ _ => True) (World.start .empty .empty)
    registeredWorld w ∧ sampleCursor ∈ w.bus.cursors ∧ sampleSubscription ∈ w.bus.subscriptions ∧
    w.bus.eventSeq = 0 ∧ Run (PushState.step samplePushOpts sampleDaemonConfig) PushSampleOk (startedPush w)
      pushedInOrder t ∧ t.yielded.map EventRow.eventId = [1,2,4,5,6] ∧
    (keyedSample "k4").row 4 ∈ t.world.bus.events ∧
    ∃ c' ∈ t.world.bus.cursors, c'.cursorId = "c1" ∧ c'.lastEventId = 6 := by
  have hrun : (exec World.step (.start .empty .empty) registeredWorld).any (fun w =>
      decide (sampleCursor ∈ w.bus.cursors.rows) && decide (sampleSubscription ∈ w.bus.subscriptions.rows) &&
      decide (w.bus.eventSeq = 0) &&
      (exec (guarded PushSampleOk (PushState.step samplePushOpts sampleDaemonConfig)) (startedPush w)
        pushedInOrder).any (fun t => decide (t.yielded.map EventRow.eventId = [1,2,4,5,6]) &&
          decide ((keyedSample "k4").row 4 ∈ t.world.bus.events.rows) &&
          decide (∃ c' ∈ t.world.bus.cursors.rows, c'.cursorId = "c1" ∧ c'.lastEventId = 6))) = true := by
    decide +kernel
  obtain ⟨w,hw,hobs⟩ := (Option.any_eq_true _ _).mp hrun
  simp only [Bool.and_eq_true,decide_eq_true_eq] at hobs
  obtain ⟨⟨⟨hc,hs⟩,hseq⟩,hrun⟩ := hobs
  obtain ⟨t,ht,hobs⟩ := (Option.any_eq_true _ _).mp hrun
  simp only [Bool.and_eq_true,decide_eq_true_eq] at hobs
  exact ⟨w,t,run_of_exec hw,hc,hs,hseq,run_of_guarded ht,hobs.1.1,hobs.1.2,hobs.2⟩

theorem push_no_loss_in_order : ∃ t : PushState, t.yielded.map EventRow.eventId = [1,2,4,5,6] ∧
    (keyedSample "k4").row 4 ∈ t.world.bus.events ∧
    (∃ c' ∈ t.world.bus.cursors, c'.cursorId = "c1" ∧ c'.lastEventId = 6) ∧
    ∃ y ∈ t.yielded, y.fixedPart = ((keyedSample "k4").row 4).fixedPart := by
  obtain ⟨w,t,hreach,hc,hs,hseq,hrun,hyielded,he,c',hc',hck,hlast⟩ := pushedInOrder_run
  refine ⟨t,hyielded,he,⟨c',hc',hck,hlast⟩,?_⟩
  exact push_no_loss hreach hc rfl rfl hs rfl rfl
    (hrun.mono fun _ _ h => ⟨rowsKept_of_emitsOnly h.1,h.2.1⟩) he (by decide +kernel) (by decide) hc' hck
    (by rw [hlast]; decide)

theorem push_at_most_once_in_order : ∃ t : PushState, t.yielded.map EventRow.eventId = [1,2,4,5,6] ∧
    t.yielded.Pairwise (fun a b => a.eventId < b.eventId) := by
  obtain ⟨w,t,hreach,hc,hs,hseq,hrun,hyielded,-⟩ := pushedInOrder_run
  exact ⟨t,hyielded,(push_at_most_once hreach hc rfl rfl hs rfl rfl
    (hrun.mono fun _ _ h => ⟨rowsKept_of_emitsOnly h.1,h.2.2.1⟩)).1⟩

theorem push_selects_in_order : ∃ t : PushState, t.yielded.map EventRow.eventId = [1,2,4,5,6] ∧
    ∀ y ∈ t.yielded, y.matchesSql "wicked.*".toList = true := by
  obtain ⟨w,t,hreach,hc,hs,hseq,hrun,hyielded,-⟩ := pushedInOrder_run
  exact ⟨t,hyielded,push_selects hreach hc rfl rfl hs rfl rfl
    (hrun.mono fun _ _ h => ⟨rowsKept_of_emitsOnly h.1,h.2.2.2⟩)⟩

def PushReaches (as : List PushAction) (t : PushState) : Prop :=
  ∃ w, Run World.step (fun _ _ => True) (World.start .empty .empty) registeredWorld w ∧
    sampleCursor ∈ w.bus.cursors ∧ sampleSubscription ∈ w.bus.subscriptions ∧
    Run (PushState.step samplePushOpts sampleDaemonConfig) (fun _ _ => True) (startedPush w) as t

theorem push_reaches {as : List PushAction} {ok : PushState → Bool}
    (h : (exec World.step (.start .empty .empty) registeredWorld).any (fun w =>
      decide (sampleCursor ∈ w.bus.cursors.rows) && decide (sampleSubscription ∈ w.bus.subscriptions.rows) &&
      (exec (PushState.step samplePushOpts sampleDaemonConfig) (startedPush w) as).any ok) = true) :
    ∃ t, PushReaches as t ∧ ok t = true := by
  obtain ⟨w,hw,hobs⟩ := (Option.any_eq_true _ _).mp h
  simp only [Bool.and_eq_true,decide_eq_true_eq] at hobs
  obtain ⟨⟨hc,hs⟩,hrun⟩ := hobs
  obtain ⟨t,ht,hok⟩ := (Option.any_eq_true _ _).mp hrun
  exact ⟨t,⟨w,run_of_exec hw,hc,hs,run_of_exec ht⟩,hok⟩

theorem newer_frame_loses_older : ∃ t, PushReaches newerPushedFirst t ∧
    expiredSample.row 1 ∈ t.world.bus.events ∧
    (expiredSample.row 1).matchesSql sampleSubscription.eventTypeFilter = true ∧
    position t.world.bus "c1" = 2 ∧ t.yielded.map EventRow.eventId = [2] := by
  obtain ⟨t,ht,hok⟩ := @push_reaches newerPushedFirst (fun t =>
    decide (expiredSample.row 1 ∈ t.world.bus.events.rows) && decide (position t.world.bus "c1" = 2) &&
      decide (t.yielded.map EventRow.eventId = [2])) (by decide +kernel)
  simp only [Bool.and_eq_true,decide_eq_true_eq] at hok
  exact ⟨t,ht,hok.1.1,by decide +kernel,hok.1.2,hok.2⟩

theorem frame_repeats_catch_up : ∃ t, PushReaches framedDuringCatchUp t ∧
    t.yielded.map EventRow.eventId = [1,1] := by
  obtain ⟨t,ht,hok⟩ := @push_reaches framedDuringCatchUp
    (fun t => decide (t.yielded.map EventRow.eventId = [1,1])) (by decide +kernel)
  exact ⟨t,ht,of_decide_eq_true hok⟩

theorem push_ignores_stored_filter : ∃ t, PushReaches unmatchedPushed t ∧ samplePushOpts.filter = none ∧
    t.yielded = [deepSample.row 1] ∧
    (deepSample.row 1).matchesSql sampleSubscription.eventTypeFilter = false := by
  obtain ⟨t,ht,hok⟩ := @push_reaches unmatchedPushed
    (fun t => decide (t.yielded = [deepSample.row 1])) (by decide +kernel)
  exact ⟨t,ht,rfl,of_decide_eq_true hok,by decide +kernel⟩

end WickedBus
