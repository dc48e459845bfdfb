import WickedBus.Passes
import WickedBus.Recheck

namespace WickedBus

open WickedBus.Filter (Text)

def SweepStart.Waiting (s : SweepStart) : Prop := ∃ e ∈ s.sweepable, s.unlocked e = true

def SweepStart.BatchServes (s : SweepStart) : Prop := s.Completes ∧ ∃ e ∈ s.batch, s.unlocked e = true

instance (s : SweepStart) : Decidable s.Waiting :=
  inferInstanceAs (Decidable (∃ e ∈ s.sweepable, s.unlocked e = true))

instance (s : SweepStart) : Decidable s.BatchServes :=
  inferInstanceAs (Decidable (_ ∧ ∃ e ∈ s.batch, s.unlocked e = true))

def SweepStart.MovesOne (s : SweepStart) (clock : ℕ → ℤ) : Prop :=
  ∃ e ∈ s.sweepable, e ∉ (s.final clock).bus.events ∧
    ∃ name ∈ s.target e, CopiedTo (s.final clock).archive name e

section Single

variable {s : SweepStart} {clock : ℕ → ℤ} {e : EventRow}

theorem batch_sweepable (h : e ∈ s.batch) : e ∈ s.sweepable := by
  rw [batch_eq_take] at h
  exact List.mem_of_mem_take h

theorem Archived.gone {bus : Db} {archive : Archive} {r : TieredResult} (h : Archived s bus archive r)
    (he : e ∈ s.live.events) : e ∉ bus.events ↔ e ∈ s.movedRows := by
  rw [h.live,Db.mem_deleteEvents,decide_eq_false_iff_not,not_and,not_not]
  constructor
  · intro hmoved
    obtain ⟨x,hx,hid⟩ := List.mem_map.mp (hmoved he)
    have hlive := (mem_batch (List.mem_filter.mp hx).1).1
    rwa [← KeyedTable.eq_of_key hlive he hid]
  · exact fun hmoved _ => List.mem_map_of_mem hmoved

theorem moves_one_iff : s.MovesOne clock ↔ s.BatchServes := by
  constructor
  · rintro ⟨e,he,hgone,-⟩
    obtain ⟨hlive,-⟩ := mem_sweepable.mp he
    have hcompletes : s.Completes := by
      by_contra hstuck
      rw [SweepStart.final_stuck hstuck] at hgone
      exact hgone hlive
    obtain ⟨r,-,hmoved⟩ := SweepStart.final_moved clock hcompletes
    obtain ⟨hbatch,hunlocked⟩ := List.mem_filter.mp ((hmoved.gone hlive).mp hgone)
    exact ⟨hcompletes,e,hbatch,hunlocked⟩
  · rintro ⟨hcompletes,e,hbatch,hunlocked⟩
    obtain ⟨r,-,hmoved⟩ := SweepStart.final_moved clock hcompletes
    have hrow : e ∈ s.movedRows := List.mem_filter.mpr ⟨hbatch,hunlocked⟩
    obtain ⟨name,hname,x,hx,hid,-⟩ := hmoved.stored e hrow
    exact ⟨e,batch_sweepable hbatch,(hmoved.gone (mem_batch hbatch).1).mpr hrow,name,hname,x,hx,hid⟩

end Single

section Repeated

variable {s : SweepStart} {disks : ℕ → Disk} {clocks : ℕ → ℕ → ℤ}

def LeftOrCopied (s t : SweepStart) : Prop :=
  ∀ e ∈ s.sweepable, e ∈ t.sweepable ∨ (e ∉ t.bus.events ∧ ∃ name, CopiedTo t.archive name e)

theorem kept_next {t : SweepStart} (disk : Disk) (clock : ℕ → ℤ) (h : LeftOrCopied s t) (hserves : t.BatchServes) :
    LeftOrCopied s (t.next disk clock) ∧ (t.next disk clock).sweepable.length < t.sweepable.length := by
  obtain ⟨hcompletes,x,hx,hunlocked⟩ := hserves
  obtain ⟨r,-,hmoved⟩ := SweepStart.final_moved clock hcompletes
  have hrest := Archived.next_sweepable (u := t.next disk clock) hmoved rfl
  refine ⟨fun e he => ?_,?_⟩
  · rcases h e he with hold | ⟨hgone,name,y,hy,hid⟩
    · by_cases hrow : e ∈ t.movedRows
      · obtain ⟨name,-,y,hy,hid,-⟩ := hmoved.stored e hrow
        exact .inr ⟨(hmoved.gone (mem_sweepable.mp hold).1).mpr hrow,name,y,hy,hid⟩
      · refine .inl ?_
        rw [hrest]
        refine List.mem_filter.mpr ⟨hold,decide_eq_true fun hid => hrow ?_⟩
        obtain ⟨y,hy,hyid⟩ := List.mem_map.mp hid
        have hlive := (mem_batch (List.mem_filter.mp hy).1).1
        rwa [← KeyedTable.eq_of_key hlive (mem_sweepable.mp hold).1 hyid]
    · refine .inr ⟨fun hmem => hgone ?_,name,y,hmoved.keep name y hy,hid⟩
      have hlive : e ∈ t.live.events := by
        have hshrinks := thinned_deleteEvents t.live
          (fun e => decide (e.eventId ∈ t.movedRows.map EventRow.eventId))
        rw [← hmoved.live] at hshrinks
        exact hshrinks.events e hmem
      exact (live_shrinks t).events e hlive
  · rw [hrest]
    refine List.length_filter_lt_length_iff_exists.mpr ⟨x,batch_sweepable hx,?_⟩
    simpa using ⟨x,List.mem_filter.mpr ⟨hx,hunlocked⟩,rfl⟩

theorem relay_drains (h : ∀ k, (s.relay disks clocks k).Waiting → (s.relay disks clocks k).BatchServes) (n : ℕ) :
    (∃ k ≤ n, ¬ (s.relay disks clocks k).Waiting ∧ LeftOrCopied s (s.relay disks clocks k)) ∨
      (LeftOrCopied s (s.relay disks clocks n) ∧
        (s.relay disks clocks n).sweepable.length + n ≤ s.sweepable.length) := by
  induction n with
  | zero => exact .inr ⟨fun e he => .inl he,le_rfl⟩
  | succ n ih =>
    rcases ih with ⟨k,hk,hdone⟩ | ⟨hkept,hlen⟩
    · exact .inl ⟨k,Nat.le_succ_of_le hk,hdone⟩
    · by_cases hwaiting : (s.relay disks clocks n).Waiting
      · obtain ⟨hnext,hless⟩ := kept_next (disks n) (clocks n) hkept (h n hwaiting)
        refine .inr ⟨hnext,?_⟩
        show ((s.relay disks clocks n).next (disks n) (clocks n)).sweepable.length + (n + 1) ≤ _
        omega
      · exact .inl ⟨n,Nat.le_succ n,hwaiting,hkept⟩

end Repeated

theorem locked_bucket_delays_own_iff (s : SweepStart) (disks : ℕ → Disk) (clocks : ℕ → ℕ → ℤ) :
    (∀ k, ((s.relay disks clocks k).Waiting → (s.relay disks clocks k).MovesOne (clocks k)) ↔
      ((s.relay disks clocks k).Waiting → (s.relay disks clocks k).BatchServes)) ∧
    ((∀ k, (s.relay disks clocks k).Waiting → (s.relay disks clocks k).BatchServes) →
      ∃ k ≤ s.sweepable.length, ¬ (s.relay disks clocks k).Waiting ∧ LeftOrCopied s (s.relay disks clocks k)) := by
  refine ⟨fun k => imp_congr_right fun _ => moves_one_iff,fun h => ?_⟩
  rcases relay_drains h (s.sweepable.length) with hdone | ⟨hkept,hlen⟩
  · exact hdone
  · refine ⟨s.sweepable.length,le_rfl,?_,hkept⟩
    rintro ⟨e,he,-⟩
    have hpos := List.length_pos_of_mem he
    omega

theorem locked_not_waiting {s : SweepStart} (h : ∀ name, s.disk.locked name = true) : ¬ s.Waiting := by
  rintro ⟨e,-,hunlocked⟩
  simp [SweepStart.unlocked,h] at hunlocked

def februarySample : NewEvent :=
  { expiredSample with idempotencyKey := "k2", emittedAt := 2700000000, expiresAt := 2700000001 }

def starvedPass (batchSize : ℕ) : SweepStart where
  cfg := ⟨3000000000,.retain,30,batchSize,defaultBucketMaxBytes⟩
  disk := ⟨fun _ => some 4096,fun name => decide (name = "bus-1970-01.db".toList),fun _ => false⟩
  bus := appendEvent expiredDb februarySample
  archive := KeyedTable.insertOrIgnore .empty
    ⟨"bus-1970-01.db".toList,some .empty,some ⟨some 4000,none,none,none⟩⟩

def lockedDisk : Disk := ⟨fun _ => none,fun _ => true,fun _ => false⟩

theorem locked_bucket_delays_own_sample :
    (starvedPass 5000).Waiting ∧ ∃ k ≤ 2,
      ¬ ((starvedPass 5000).relay (fun _ => lockedDisk) (fun _ _ => 5000) k).Waiting ∧
        LeftOrCopied (starvedPass 5000) ((starvedPass 5000).relay (fun _ => lockedDisk) (fun _ _ => 5000) k) := by
  have hserves : ∀ k, ((starvedPass 5000).relay (fun _ => lockedDisk) (fun _ _ => 5000) k).Waiting →
      ((starvedPass 5000).relay (fun _ => lockedDisk) (fun _ _ => 5000) k).BatchServes := by
    intro k hwaiting
    cases k with
    | zero =>
      show (starvedPass 5000).BatchServes
      decide +kernel
    | succ k => exact absurd hwaiting (locked_not_waiting fun _ => rfl)
  have hlen : (starvedPass 5000).sweepable.length = 2 := by decide +kernel
  have hdrained := (locked_bucket_delays_own_iff (starvedPass 5000) (fun _ => lockedDisk) (fun _ _ => 5000)).2 hserves
  rw [hlen] at hdrained
  exact ⟨by decide +kernel,hdrained⟩

theorem locked_bucket_starves :
    (starvedPass 1).Waiting ∧ ¬ (starvedPass 1).MovesOne (fun _ => 5000) := by
  refine ⟨by decide +kernel,?_⟩
  rintro ⟨e,he,hgone,-⟩
  have hend : ∃ result, ((starvedPass 1).pass (fun _ => 5000) 11).point = .ended result := by decide +kernel
  obtain ⟨result,hresult⟩ := hend
  have hkept : ∀ e ∈ (starvedPass 1).sweepable, e ∈ ((starvedPass 1).pass (fun _ => 5000) 11).bus.events := by
    decide +kernel
  rw [SweepStart.final_eq hresult] at hgone
  exact hgone (hkept e he)

end WickedBus
