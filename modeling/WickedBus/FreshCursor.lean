import WickedBus.Reanchor

namespace WickedBus

open GuardedRun

def cursorPosition (db : Db) (cursorId : String) : Option ℤ :=
  (db.cursors.get? cursorId).map CursorRow.lastEventId

def FirstPoll (cursorId : String) (w : World) (a : Action) : Prop :=
  HostAction.sweeps (.world a) = false ∧
    ∀ w', w.step a = some w' → cursorPosition w'.bus cursorId = cursorPosition w.bus cursorId

inductive FreshOk (cursorId : String) (cursorInit : Option CursorInit) (registered polled : Db) : Prop
  | latest (hinit : cursorInit = some .latest) {e : EventRow} (he : e ∈ registered.events) :
    FreshOk cursorId cursorInit registered polled
  | first {e : EventRow} (he : e ∈ polled.events) (hid : e.eventId = 1) :
    FreshOk cursorId cursorInit registered polled
  | empty (h : ∀ e, e ∉ polled.events) : FreshOk cursorId cursorInit registered polled
  | deregistered (h : ∀ c ∈ polled.cursors, c.cursorId = cursorId → c.deregisteredAt ≠ none) :
    FreshOk cursorId cursorInit registered polled

structure Numbered (db : Db) : Prop where
  eventSeq : 0 ≤ db.eventSeq
  positive : ∀ x ∈ db.live, 1 ≤ x.eventId

section Fresh

variable {w w' : World} {a : Action} {db db' : Db} {cursorId subscriptionId : String} {opts : RegisterOpts}
  {now : ℤ} {e : EventRow}

theorem Numbered.step (h : Numbered w.bus) (hstep : w.step a = some w') : Numbered w'.bus := by
  obtain ⟨hseq,hlive⟩ := World.step_live hstep
  refine ⟨h.eventSeq.trans hseq,fun x hx => ?_⟩
  rcases hlive x hx with hold | hnew
  · exact h.positive x hold
  · have := h.eventSeq
    omega

theorem Numbered.run {ok : World → Action → Prop} {as : List Action} (h : Numbered w.bus)
    (hrun : Run World.step ok w as w') : Numbered w'.bus :=
  hrun.invariant (I := fun w => Numbered w.bus) (fun _ _ _ hn _ hstep => hn.step hstep) h

theorem Numbered.one_le (h : Numbered db) (he : e ∈ db.events) : 1 ≤ e.eventId :=
  h.positive e.fixedPart (mem_live he)

theorem register_events (hreg : register db opts subscriptionId cursorId now = some db') :
    SameEvents db db' := by
  obtain ⟨db₁,hsub,hreg⟩ := Option.bind_eq_some_iff.mp hreg
  have hsame := insertSubscription_sameEvents hsub
  cases hrole : opts.role with
  | provider =>
    rw [hrole] at hreg
    cases hreg
    exact hsame
  | subscriber =>
    rw [hrole] at hreg
    exact hsame.trans (insertCursor_sameEvents hreg)

theorem insertCursor_fresh {row : CursorRow} (h : insertCursor db row = some db') :
    db'.cursors.get? row.cursorId = some row := by
  rw [insertCursor_ok h]
  unfold insertCursor at h
  split_ifs at h with hsome
  have hnone := Option.not_isSome_iff_eq_none.mp hsome
  exact KeyedTable.get?_eq_some.mpr
    ⟨KeyedTable.mem_insertOrIgnore.mpr (.inr ⟨rfl,KeyedTable.get?_eq_none.mp hnone⟩),rfl⟩

theorem register_position (hreg : register db opts subscriptionId cursorId now = some db')
    (hrole : opts.role = .subscriber) :
    cursorPosition db' cursorId = some (initialPosition db opts.cursorInit) := by
  obtain ⟨db₁,hsub,hreg⟩ := Option.bind_eq_some_iff.mp hreg
  rw [hrole] at hreg
  have hrow := insertCursor_fresh hreg
  rw [show cursorId = (cursorOf cursorId subscriptionId (initialPosition db₁ opts.cursorInit) now).cursorId from
    rfl,cursorPosition,hrow,initialPosition,(insertSubscription_sameEvents hsub).events]
  rfl

theorem initialPosition_latest (he : e ∈ db.events) :
    ∃ m ∈ db.events, initialPosition db (some .latest) = m.eventId := by
  rw [initialPosition,if_pos rfl]
  cases hmax : db.events.maxKey? with
  | none => exact absurd he (KeyedTable.maxKey?_eq_none.mp hmax e)
  | some k =>
    obtain ⟨⟨m,hm,hk⟩,-⟩ := KeyedTable.maxKey?_eq_some.mp hmax
    exact ⟨m,hm,hk.symm⟩

theorem initialPosition_zero {cursorInit : Option CursorInit}
    (h : cursorInit = some .latest → ∀ e, e ∉ db.events) : initialPosition db cursorInit = 0 := by
  unfold initialPosition
  split_ifs with hinit
  · rw [KeyedTable.maxKey?_eq_none.mpr (h hinit)]
    rfl
  · rfl

theorem Numbered.initialPosition_nonneg (h : Numbered db) (cursorInit : Option CursorInit) :
    0 ≤ initialPosition db cursorInit := by
  by_cases hlatest : cursorInit = some .latest ∧ ∃ e, e ∈ db.events
  · obtain ⟨rfl,e,he⟩ := hlatest
    obtain ⟨m,hm,hpos⟩ := initialPosition_latest he
    have := h.one_le hm
    omega
  · refine (initialPosition_zero fun hinit e he => ?_).ge
    exact hlatest ⟨hinit,e,he⟩

structure Unpolled (cursorId : String) (position : ℤ) (registered : Db) (w : World) : Prop where
  numbered : Numbered w.bus
  position : cursorPosition w.bus cursorId = some position
  kept : ∀ i, LiveId registered i → LiveId w.bus i

theorem Unpolled.step {position : ℤ} {registered : Db} (h : Unpolled cursorId position registered w)
    (hok : FirstPoll cursorId w a) (hstep : w.step a = some w') : Unpolled cursorId position registered w' where
  numbered := h.numbered.step hstep
  position := (hok.2 w' hstep).trans h.position
  kept i hi := by
    rcases World.live_or_sweep hstep (h.kept i hi) with hlive | hsweep
    · exact hlive
    · rw [hok.1] at hsweep
      cases hsweep

end Fresh

theorem fresh_cursor_not_stale_iff {as bs : List Action} {w w' : World} {opts : RegisterOpts}
    {subscriptionId cursorId : String} {now : ℤ} {db : Db}
    (hreach : Run World.step (fun _ _ => True) (.start .empty .empty) as w)
    (hreg : register w.bus opts subscriptionId cursorId now = some db) (hrole : opts.role = .subscriber)
    (hrun : Run World.step (FirstPoll cursorId) { w with bus := db } bs w') (batchSize : ℕ)
    (after : Option ℤ) :
    (∀ last oldest, poll w'.bus cursorId batchSize after ≠ .error (.cursorBehindTtlWindow last oldest)) ↔
      FreshOk cursorId opts.cursorInit w.bus w'.bus := by
  have hsame := register_events hreg
  have hnumbered : Numbered w.bus :=
    Numbered.run (w := .start .empty .empty) ⟨le_rfl,by simp [World.start,Db.live,Db.empty]⟩ hreach
  have hstart : Unpolled cursorId (initialPosition w.bus opts.cursorInit) w.bus { w with bus := db } := by
    refine ⟨⟨hsame.eventSeq ▸ hnumbered.eventSeq,?_⟩,register_position hreg hrole,fun i hi => hi.same hsame⟩
    intro x hx
    have hx' : x ∈ db.live := hx
    exact hnumbered.positive x (hsame.live ▸ hx')
  have h := hrun.invariant (fun _ _ _ h hok hstep => h.step hok hstep) hstart
  have hposition : ∀ c, pollCursor w'.bus cursorId = .ok c →
      c.lastEventId = initialPosition w.bus opts.cursorInit := by
    intro c hc
    obtain ⟨hmem,hkey,-⟩ := pollCursor_ok.mp hc
    have hpos := h.position
    rw [cursorPosition,KeyedTable.get?_eq_some.mpr ⟨hmem,hkey⟩] at hpos
    exact Option.some.inj hpos
  constructor
  · intro hnever
    by_contra hno
    have hactive : ∃ c, pollCursor w'.bus cursorId = .ok c := by
      by_contra hgone
      exact hno (.deregistered fun c hc hkey hactive => hgone ⟨c,pollCursor_ok.mpr ⟨hc,hkey,hactive⟩⟩)
    obtain ⟨c,hcursor⟩ := hactive
    have hzero : initialPosition w.bus opts.cursorInit = 0 :=
      initialPosition_zero fun hinit e he => hno (.latest hinit he)
    cases hmin : w'.bus.events.minKey? with
    | none => exact hno (.empty (KeyedTable.minKey?_eq_none.mp hmin))
    | some oldest =>
      obtain ⟨⟨x,hx,hid⟩,-⟩ := KeyedTable.minKey?_eq_some.mp hmin
      have hpositive := h.numbered.one_le hx
      have hnot : x.eventId ≠ 1 := fun hone => hno (.first hx hone)
      refine hnever _ oldest (poll_behind_iff.mpr ⟨c,hcursor,rfl,hmin,?_⟩)
      rw [hposition c hcursor]
      omega
  · intro hok last oldest hpoll
    obtain ⟨c,hcursor,rfl,hmin,hbehind⟩ := poll_behind_iff.mp hpoll
    obtain ⟨-,hbound⟩ := KeyedTable.minKey?_eq_some.mp hmin
    rw [hposition c hcursor] at hbehind
    have hzero := hnumbered.initialPosition_nonneg opts.cursorInit
    cases hok with
    | latest hinit he =>
      obtain ⟨m,hm,hpos⟩ := initialPosition_latest he
      obtain ⟨x,⟨y,hy,rfl⟩,hid⟩ := h.kept m.eventId ⟨_,mem_live hm,rfl⟩
      have hy := hbound y hy
      have hid : y.eventId = m.eventId := hid
      rw [hinit] at hbehind
      omega
    | first he hid =>
      have := hbound _ he
      omega
    | empty hempty =>
      obtain ⟨⟨x,hx,-⟩,-⟩ := KeyedTable.minKey?_eq_some.mp hmin
      exact hempty x hx
    | deregistered hgone =>
      obtain ⟨hc,hkey,hactive⟩ := pollCursor_ok.mp hcursor
      exact hgone c hc hkey hactive

def sweptFirst : List Action :=
  [.bus (.emit expiredSample "u"),
    .bus (.emit { expiredSample with idempotencyKey := "k2", expiresAt := 9000 } "u"),
    .bus (.sweep ⟨none,none,false,some 3000,none,none⟩ 0)]

def lateSubscriber : RegisterOpts := ⟨"p",.subscriber,"wicked.*".toList,none,some .oldest⟩

theorem fresh_cursor_stale :
    ∃ w db, Run World.step (fun _ _ => True) (.start .empty .empty) sweptFirst w ∧
      register w.bus lateSubscriber "s1" "c1" 4000 = some db ∧
      poll db "c1" 100 none = .error (.cursorBehindTtlWindow 0 2) := by
  have hreach : (exec World.step (.start .empty .empty) sweptFirst).any (fun w =>
      (register w.bus lateSubscriber "s1" "c1" 4000).any (fun db =>
        decide (poll db "c1" 100 none = .error (.cursorBehindTtlWindow 0 2)))) = true := by decide +kernel
  obtain ⟨w,hw,hobs⟩ := (Option.any_eq_true _ _).mp hreach
  obtain ⟨db,hreg,hpoll⟩ := (Option.any_eq_true _ _).mp hobs
  exact ⟨w,db,run_of_exec hw,hreg,of_decide_eq_true hpoll⟩

def latestSubscriber : RegisterOpts := { lateSubscriber with cursorInit := some .latest }

def afterRegistration : NewEvent := storedSample "k3" "wicked.run" 4500 9000

theorem fresh_cursor_not_stale_sample :
    ∃ w w' : World, w.bus.events.rows.map EventRow.eventId = [2] ∧
      poll w'.bus "c1" 100 none = .ok [afterRegistration.row 3] ∧
      ((∀ last oldest, poll w'.bus "c1" 100 none ≠ .error (.cursorBehindTtlWindow last oldest)) ↔
        FreshOk "c1" (some .latest) w.bus w'.bus) := by
  have hreach : (exec World.step (.start .empty .empty) sweptFirst).any (fun w =>
      decide (w.bus.events.rows.map EventRow.eventId = [2]) &&
      (register w.bus latestSubscriber "s1" "c1" 4000).any (fun db =>
        (World.step { w with bus := db } (.bus (.emit afterRegistration "u"))).any (fun w' =>
          decide (cursorPosition w'.bus "c1" = cursorPosition db "c1") &&
          decide ((poll w'.bus "c1" 100 none).toOption = some [afterRegistration.row 3])))) = true := by
    decide +kernel
  obtain ⟨w,hw,hobs⟩ := (Option.any_eq_true _ _).mp hreach
  simp only [Bool.and_eq_true,decide_eq_true_eq] at hobs
  obtain ⟨hlive,hobs⟩ := hobs
  obtain ⟨db,hreg,hobs⟩ := (Option.any_eq_true _ _).mp hobs
  obtain ⟨w',hstep,hobs⟩ := (Option.any_eq_true _ _).mp hobs
  simp only [Bool.and_eq_true,decide_eq_true_eq] at hobs
  have hfirst : FirstPoll "c1" { w with bus := db } (.bus (.emit afterRegistration "u")) :=
    ⟨rfl,fun _ hother => Option.some.inj (hstep.symm.trans hother) ▸ hobs.1⟩
  exact ⟨w,w',hlive,toOption_eq_some.mp hobs.2,
    fresh_cursor_not_stale_iff (run_of_exec hw) hreg rfl (.snoc .nil hfirst hstep) 100 none⟩

end WickedBus
