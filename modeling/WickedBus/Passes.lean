import WickedBus.Foundation.FirstOf
import WickedBus.Outcome

namespace WickedBus

open WickedBus.Filter (Text)

instance (point : PassPoint) : Decidable (∃ result, point = .ended result) :=
  match point with
  | .ended result => isTrue ⟨result,rfl⟩
  | .running _ _ => isFalse (by rintro ⟨_,⟨⟩⟩)

def SweepStart.final (s : SweepStart) (clock : ℕ → ℤ) : Pass := s.pass clock (Nat.find (s.pass_ends clock))

def SweepStart.next (s : SweepStart) (disk : Disk) (clock : ℕ → ℤ) : SweepStart where
  cfg := s.cfg
  disk := disk
  bus := (s.final clock).bus
  archive := (s.final clock).archive

def SweepStart.relay (s : SweepStart) (disks : ℕ → Disk) (clocks : ℕ → ℕ → ℤ) : ℕ → SweepStart
  | 0 => s
  | k + 1 => (s.relay disks clocks k).next (disks k) (clocks k)

def SweepStart.sweepable (s : SweepStart) : List EventRow :=
  (s.live.events.rows.filter (EventRow.expired s.cfg.now)).filter
    (fun e => decide (e.eventId ∉ owedNow s.bus s.cfg))

section Final

variable {s : SweepStart} {clock : ℕ → ℤ} {result : PassEnd}

theorem SweepStart.pass_stays {n : ℕ} (h : (s.pass clock n).point = .ended result) (m : ℕ) :
    s.pass clock (n + m) = s.pass clock n := by
  induction m with
  | zero => rfl
  | succ m ih =>
    show (s.pass clock (n + m)).step s.cfg _ = _
    rw [ih,Pass.step,h]

theorem SweepStart.final_eq {n : ℕ} (h : (s.pass clock n).point = .ended result) :
    s.final clock = s.pass clock n := by
  obtain ⟨first,hfirst⟩ := Nat.find_spec (s.pass_ends clock)
  obtain ⟨m,rfl⟩ := Nat.exists_eq_add_of_le (Nat.find_min' (s.pass_ends clock) ⟨result,h⟩)
  exact (pass_stays hfirst m).symm

theorem SweepStart.final_ended (s : SweepStart) (clock : ℕ → ℤ) :
    ∃ result, (s.final clock).point = .ended result ∧ s.Ended (s.final clock).bus (s.final clock).archive result := by
  obtain ⟨result,hend⟩ := Nat.find_spec (s.pass_ends clock)
  have hfollows := s.follows clock (Nat.find (s.pass_ends clock))
  simp only [Follows,hend] at hfollows
  exact ⟨result,hend,hfollows⟩

theorem SweepStart.final_moved (clock : ℕ → ℤ) (h : s.Completes) : ∃ r, (s.final clock).point = .ended (.returned r) ∧
    Archived s (s.final clock).bus (s.final clock).archive r := by
  obtain ⟨result,hend,hended⟩ := s.final_ended clock
  cases result with
  | returned r => exact ⟨r,hend,hended⟩
  | threw => exact absurd h hended.1

theorem SweepStart.final_stuck (h : ¬ s.Completes) : (s.final clock).bus = s.live := by
  obtain ⟨result,hend,hended⟩ := s.final_ended clock
  cases result with
  | returned r => exact absurd hended.completes h
  | threw => exact hended.2

end Final

section Batch

variable {s : SweepStart} {e : EventRow}

theorem mem_sweepable : e ∈ s.sweepable ↔
    e ∈ s.live.events ∧ e.expired s.cfg.now = true ∧ e.eventId ∉ owedNow s.bus s.cfg := by
  simp only [SweepStart.sweepable,List.mem_filter,KeyedTable.mem_rows,decide_eq_true_eq,and_assoc]

theorem sweepable_sorted : s.sweepable.Pairwise (fun a b => a.eventId < b.eventId) :=
  List.Pairwise.filter _ (List.Pairwise.filter _ s.live.events.sorted)

theorem batch_eq_take : s.batch = s.sweepable.take s.cfg.batchSize := by
  refine FirstOf.take_filter_overfetch ?_
  set expired := s.live.events.rows.filter (EventRow.expired s.cfg.now) with hexpired
  set held := owedNow s.bus s.cfg
  have hsorted : (expired.filter (fun e => !decide (e.eventId ∉ held))).Pairwise
      (fun a b => a.eventId < b.eventId) := List.Pairwise.filter _ (List.Pairwise.filter _ s.live.events.sorted)
  have hnodup : ((expired.filter (fun e => !decide (e.eventId ∉ held))).map EventRow.eventId).Nodup :=
    List.pairwise_map.mpr (hsorted.imp ne_of_lt)
  have hsub : (expired.filter (fun e => !decide (e.eventId ∉ held))).map EventRow.eventId ⊆ held := by
    intro i hi
    obtain ⟨e,he,rfl⟩ := List.mem_map.mp hi
    simpa using (List.mem_filter.mp he).2
  rw [← List.length_map EventRow.eventId]
  exact (List.subperm_of_subset hnodup hsub).length_le

end Batch

structure Thinned (db db' : Db) : Prop where
  events : ∀ e ∈ db'.events, e ∈ db.events
  cursors : db'.cursors = db.cursors
  subscriptions : db'.subscriptions = db.subscriptions
  deliveryAttempts : db'.deliveryAttempts = db.deliveryAttempts

section Thinned

variable {db db' : Db} {cfg : PassConfig} {e : EventRow}

theorem thinned_deleteEvents (db : Db) (p : EventRow → Bool) : Thinned db (db.deleteEvents p) :=
  ⟨fun _ he => (Db.mem_deleteEvents.mp he).1,rfl,rfl,rfl⟩

theorem Thinned.refl (db : Db) : Thinned db db := ⟨fun _ he => he,rfl,rfl,rfl⟩

theorem Thinned.trans {db'' : Db} (h : Thinned db db') (h' : Thinned db' db'') : Thinned db db'' :=
  ⟨fun e he => h.events e (h'.events e he),h'.cursors.trans h.cursors,h'.subscriptions.trans h.subscriptions,
    h'.deliveryAttempts.trans h.deliveryAttempts⟩

theorem Thinned.owes (h : Thinned db db') {cursorId : String} : Owes db' cursorId e ↔ Owes db cursorId e := by
  rw [Owes,Owes,h.cursors,h.subscriptions,h.deliveryAttempts]

theorem Thinned.owed (h : Thinned db db') (he : e ∈ db'.events) :
    e ∈ owedEvents db' cfg.now ↔ e ∈ owedEvents db cfg.now := by
  refine and_congr (and_congr_left fun _ => iff_of_true he (h.events e he)) ?_
  exact exists_congr fun cursorId => h.owes

theorem Thinned.held (h : Thinned db db') (he : e ∈ db'.events) :
    e.eventId ∈ owedNow db' cfg ↔ e.eventId ∈ owedNow db cfg := by
  rw [owedNow,owedNow,mem_heldIds he,mem_heldIds (h.events e he)]
  exact and_congr_right fun _ => and_congr_left fun _ => h.owed he

theorem live_shrinks (s : SweepStart) : Thinned s.bus s.live := by
  unfold SweepStart.live
  split_ifs
  · exact .refl _
  · exact thinned_deleteEvents _ _

theorem mem_discarded {s : SweepStart} (hpolicy : s.cfg.policy = .discard) (he : e ∈ s.bus.events) :
    e.eventId ∈ s.discarded ↔ e ∈ owedEvents s.bus s.cfg.now := by
  rw [SweepStart.discarded,if_pos hpolicy,idsOf,List.mem_eraseDups,List.mem_map]
  constructor
  · rintro ⟨p,hp,hid⟩
    obtain ⟨x,hx,howes,hxid,-⟩ := mem_owedPairs.mp hp
    obtain rfl := KeyedTable.eq_of_key hx.1 he (hxid.trans hid)
    exact ⟨hx,p.cursorId,howes⟩
  · rintro ⟨hexp,cursorId,howes⟩
    exact ⟨⟨e.eventId,cursorId,e.overCap s.cfg.now s.cfg.capDays⟩,mem_owedPairs.mpr ⟨e,hexp,howes,rfl,rfl⟩,rfl⟩

theorem mem_sweepLive {s : SweepStart} : e ∈ s.live.events ↔ e ∈ s.bus.events ∧ e.eventId ∉ s.discarded := by
  by_cases h : s.discarded = []
  · rw [s.live_eq_bus h,h]
    simp
  · rw [s.live_of_discarded h,deleteFromLive,Db.mem_deleteEvents]
    exact and_congr_right fun _ => decide_eq_false_iff_not

theorem next_discarded {s s' : SweepStart} (hcfg : s'.cfg = s.cfg) (hbus : Thinned s.live s'.bus) :
    s'.discarded = [] := by
  by_cases hpolicy : s.cfg.policy = .discard
  · by_contra hne
    obtain ⟨i,hi⟩ := List.exists_mem_of_ne_nil _ hne
    rw [SweepStart.discarded,hcfg,if_pos hpolicy,idsOf,List.mem_eraseDups,List.mem_map] at hi
    obtain ⟨p,hp,rfl⟩ := hi
    obtain ⟨x,hx,howes,-,-⟩ := mem_owedPairs.mp hp
    obtain ⟨hold,hkept⟩ := mem_sweepLive.mp (hbus.events x hx.1)
    refine hkept ((mem_discarded hpolicy hold).mpr ⟨⟨hold,hx.2⟩,p.cursorId,?_⟩)
    exact ((live_shrinks s).trans hbus).owes.mp howes
  · rw [SweepStart.discarded,hcfg,if_neg hpolicy]

end Thinned

section Next

variable {s u : SweepStart} {archive : Archive} {r : TieredResult}

theorem Archived.next_live (h : Archived s u.bus archive r) (hcfg : u.cfg = s.cfg) : u.live = u.bus := by
  refine u.live_eq_bus (next_discarded hcfg ?_)
  rw [h.live]
  exact thinned_deleteEvents _ _

theorem Archived.next_sweepable (h : Archived s u.bus archive r) (hcfg : u.cfg = s.cfg) : u.sweepable =
    s.sweepable.filter (fun e => decide (e.eventId ∉ s.movedRows.map EventRow.eventId)) := by
  have hshrinks : Thinned s.live u.bus := by
    rw [h.live]
    exact thinned_deleteEvents _ _
  have hrows : u.bus.events.rows =
      s.live.events.rows.filter (fun e => !decide (e.eventId ∈ s.movedRows.map EventRow.eventId)) := by
    rw [h.live]
    rfl
  have hheld : ∀ e ∈ u.bus.events.rows.filter (EventRow.expired s.cfg.now),
      decide (e.eventId ∉ owedNow u.bus s.cfg) = decide (e.eventId ∉ owedNow s.bus s.cfg) := by
    intro e he
    have hmem : e ∈ u.bus.events := (List.mem_filter.mp he).1
    exact decide_eq_decide.mpr (not_congr (((live_shrinks s).trans hshrinks).held hmem))
  rw [SweepStart.sweepable,h.next_live hcfg,hcfg,List.filter_congr hheld,hrows,SweepStart.sweepable,
    List.filter_comm (EventRow.expired s.cfg.now),
    List.filter_comm (fun e : EventRow => decide (e.eventId ∉ owedNow s.bus s.cfg))]
  simp only [decide_not]

end Next

end WickedBus
