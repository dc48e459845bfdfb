import Mathlib.Data.Int.Interval
import WickedBus.AtLeastOnce

namespace WickedBus

open GuardedRun

structure Lag where
  cursorLag : ℤ
  oldestUnackedAgeMs : Option ℤ
  dlqCount : ℕ
  deriving DecidableEq, Repr

def noLag : Lag := ⟨0,none,0⟩

def maxEventId (db : Db) : ℤ := db.events.maxKey?.getD 0

def unackedEmittedAt (db : Db) (lastEventId : ℤ) : List ℤ :=
  (db.events.rows.filter (fun e => decide (lastEventId < e.eventId))).map EventRow.emittedAt

def lagOf (db : Db) (cursorId : String) (lastEventId now : ℤ) : Lag where
  cursorLag := max 0 (maxEventId db - lastEventId)
  oldestUnackedAgeMs := (unackedEmittedAt db lastEventId).min?.map (fun oldest => now - oldest)
  dlqCount := db.deadLetters.rows.countP (fun d => decide (d.cursorId = cursorId))

def computeLag (db : Db) (cursorId : String) (now : ℤ) : Lag :=
  match db.cursors.get? cursorId with
  | none => noLag
  | some cursor =>
    if (db.subscriptions.get? cursor.subscriptionId).isSome then lagOf db cursorId cursor.lastEventId now else noLag

def Outstanding (v : Watch) (t : System) (x : EventRow) : Prop := Tracked v t.world x ∧ x.eventId ∉ t.settled

structure LagCovers (v : Watch) (t : System) (lag : Lag) (now : ℤ) : Prop where
  count : ∀ ids : Finset ℤ, (∀ i ∈ ids, ∃ x, Outstanding v t x ∧ x.eventId = i) → (ids.card : ℤ) ≤ lag.cursorLag
  age : ∀ x, Outstanding v t x → ∃ age, lag.oldestUnackedAgeMs = some age ∧ now - x.emittedAt ≤ age
  caughtUp : lag.cursorLag = 0 ∨ lag.oldestUnackedAgeMs = none → ∀ x, Tracked v t.world x → x.eventId ∈ t.settled

section Rows

variable {db : Db} {e : EventRow} {v : Watch} {last low high : ℤ} {ids : Finset ℤ}

theorem le_maxEventId (he : e ∈ db.events) : e.eventId ≤ maxEventId db := by
  unfold maxEventId
  cases hmax : db.events.maxKey? with
  | none => exact absurd he (KeyedTable.maxKey?_eq_none.mp hmax e)
  | some k => exact (KeyedTable.maxKey?_eq_some.mp hmax).2 e he

theorem card_le_of_between (h : ∀ i ∈ ids, low < i ∧ i ≤ high) : (ids.card : ℤ) ≤ max 0 (high - low) := by
  have hsub : ids ⊆ Finset.Ioc low high := fun i hi => Finset.mem_Ioc.mpr (h i hi)
  have hcard := Finset.card_le_card hsub
  rw [Int.card_Ioc] at hcard
  omega

theorem oldest_le (he : e ∈ db.events) (hlast : last < e.eventId) :
    ∃ oldest, (unackedEmittedAt db last).min? = some oldest ∧ oldest ≤ e.emittedAt := by
  have hmem : e.emittedAt ∈ unackedEmittedAt db last :=
    List.mem_map_of_mem (List.mem_filter.mpr ⟨KeyedTable.mem_rows.mpr he,decide_eq_true hlast⟩)
  obtain ⟨oldest,hmin⟩ := Option.isSome_iff_exists.mp (List.isSome_min?_of_mem hmem)
  exact ⟨oldest,hmin,(List.min?_eq_some_iff.mp hmin).2 _ hmem⟩

theorem Registered.lag_eq (h : Registered v db last) (now : ℤ) :
    computeLag db v.cursorId now = lagOf db v.cursorId last now := by
  obtain ⟨⟨c,hc,hck,-,hcs,rfl⟩,⟨s,hs,hsk,-,-⟩⟩ := h
  have hcursor : db.cursors.get? v.cursorId = some c := KeyedTable.get?_eq_some.mpr ⟨hc,hck⟩
  have hsub : db.subscriptions.get? c.subscriptionId = some s :=
    KeyedTable.get?_eq_some.mpr ⟨hs,hsk.trans hcs.symm⟩
  simp only [computeLag,hcursor,hsub,Option.isSome_some,if_true]

end Rows

section Covers

variable {v : Watch} {t : System} {last : ℤ} {x : EventRow}

theorem Delivered.outstanding (h : Delivered v t last) (hx : Outstanding v t x) :
    ∃ e ∈ t.world.bus.events, e.fixedPart = x ∧ last < e.eventId := by
  rcases h.safe x hx.1 with hsettled | ⟨⟨e,he,rfl⟩,hlast⟩
  · exact absurd hsettled hx.2
  · exact ⟨e,he,rfl,hlast⟩

theorem Delivered.lagCovers (h : Delivered v t last) (now : ℤ) :
    LagCovers v t (computeLag t.world.bus v.cursorId now) now := by
  rw [h.registered.lag_eq]
  have hcount : ∀ ids : Finset ℤ, (∀ i ∈ ids, ∃ x, Outstanding v t x ∧ x.eventId = i) →
      (ids.card : ℤ) ≤ (lagOf t.world.bus v.cursorId last now).cursorLag := by
    intro ids hids
    refine card_le_of_between fun i hi => ?_
    obtain ⟨x,hx,rfl⟩ := hids i hi
    obtain ⟨e,he,rfl,hlast⟩ := h.outstanding hx
    have hmax := le_maxEventId he
    exact ⟨hlast,hmax⟩
  have hage : ∀ x, Outstanding v t x →
      ∃ age, (lagOf t.world.bus v.cursorId last now).oldestUnackedAgeMs = some age ∧ now - x.emittedAt ≤ age := by
    intro x hx
    obtain ⟨e,he,rfl,hlast⟩ := h.outstanding hx
    obtain ⟨oldest,hmin,hle⟩ := oldest_le he hlast
    exact ⟨now - oldest,by rw [lagOf,hmin,Option.map_some],sub_le_sub_left hle now⟩
  refine ⟨hcount,hage,fun hnone x hx => by_contra fun hopen => ?_⟩
  rcases hnone with hzero | hnone
  · have hone := hcount {x.eventId} fun i hi => ⟨x,⟨hx,hopen⟩,(Finset.mem_singleton.mp hi).symm⟩
    rw [Finset.card_singleton,hzero] at hone
    exact absurd hone (by decide)
  · obtain ⟨age,hage,-⟩ := hage x ⟨hx,hopen⟩
    rw [hnone] at hage
    cases hage

end Covers

theorem lag_never_underreports {db₀ : Db} {archive : Archive} {as₀ : List Action} {w₀ : World} {opts : SubscribeOpts}
    {c : CursorRow} {s : SubscriptionRow}
    (hreach : Run World.step (fun _ _ => True) (World.start db₀ archive) as₀ w₀)
    (hc : c ∈ w₀.bus.cursors) (hcursor : opts.cursorId = c.cursorId) (hactive : c.deregisteredAt = none)
    (hs : s ∈ w₀.bus.subscriptions) (hsub : s.subscriptionId = c.subscriptionId)
    (hsactive : s.deregisteredAt = none) {as : List SystemAction} {t : System}
    (hrun : Run (System.step opts) (LoopOk (watchOf c s w₀)) (System.start w₀) as t) (now : ℤ) :
    LagCovers (watchOf c s w₀) t (computeLag t.world.bus opts.cursorId now) now := by
  have hstart := Delivered.start hreach hc hactive hs hsub hsactive
  obtain ⟨last,h⟩ : ∃ last, Delivered (watchOf c s w₀) t last :=
    hrun.invariant (I := fun t => ∃ last, Delivered (watchOf c s w₀) t last)
      (fun _ _ _ ⟨_,hu⟩ hok hstep => hu.step hcursor hok hstep) ⟨_,hstart⟩
  rw [hcursor]
  exact h.lagCovers now

theorem lag_never_underreports_sample :
    ∃ (w : World) (t : System), t.settled = [] ∧ computeLag t.world.bus "c1" 6000 = ⟨1,some 5000,0⟩ ∧
      LagCovers (watchOf sampleCursor sampleSubscription w) t (computeLag t.world.bus "c1" 6000) 6000 := by
  have hreach : (exec World.step (.start .empty .empty) registeredWorld).any (fun w =>
      decide (sampleCursor ∈ w.bus.cursors) && decide (sampleSubscription ∈ w.bus.subscriptions) &&
      (exec (guarded (fun _ a => emitsOnly a = true) (System.step sampleOpts)) (.start w) crashInHandler).any
        (fun t => decide (t.settled = []) && decide (computeLag t.world.bus "c1" 6000 = ⟨1,some 5000,0⟩))) = true := by
    decide +kernel
  obtain ⟨w,hw,hobs⟩ := (Option.any_eq_true _ _).mp hreach
  simp only [Bool.and_eq_true,decide_eq_true_eq] at hobs
  obtain ⟨⟨hc,hs⟩,hrun⟩ := hobs
  obtain ⟨t,ht,hobs⟩ := (Option.any_eq_true _ _).mp hrun
  simp only [Bool.and_eq_true,decide_eq_true_eq] at hobs
  exact ⟨w,t,hobs.1,hobs.2,lag_never_underreports (run_of_exec hw) hc rfl rfl hs rfl rfl
    ((run_of_guarded ht).mono fun _ _ h => loopOk_of_emitsOnly h) 6000⟩

end WickedBus
