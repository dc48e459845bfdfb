import WickedBus.Passes
import WickedBus.Recheck

namespace WickedBus

open WickedBus.Filter (Text)

def archivedIds (archive : Archive) : Set ℤ := {i | ∃ name e, Holds archive name e ∧ e.eventId = i}

def InMonthBucket (origin archive : Archive) (e : EventRow) : Prop :=
  ∃ suffix, bucketSuffixRe suffix = true ∧ ∃ x,
    Holds archive (bucketPrefix (monthKey e.emittedAt) ++ suffix) x ∧ x.eventId = e.eventId ∧
    (x = e ∨ Holds origin (bucketPrefix (monthKey e.emittedAt) ++ suffix) x)

def SweepStart.moves (s : SweepStart) : ℕ := (s.sweepable.length + s.cfg.batchSize - 1) / s.cfg.batchSize

def SweepStart.resultAt (s : SweepStart) (clock : ℕ → ℤ) : Option TieredResult := (s.final clock).point.result

structure Swept (s t : SweepStart) (k : ℕ) : Prop where
  cfg : t.cfg = s.cfg
  rest : t.sweepable = s.sweepable.drop (k * s.cfg.batchSize)
  live : ∀ e, e ∈ t.live.events ↔ e ∈ s.live.events ∧ e ∉ s.sweepable.take (k * s.cfg.batchSize)
  openable : ∀ n, Openable t.archive n
  months : ∀ e ∈ s.sweepable.take (k * s.cfg.batchSize), InMonthBucket s.archive t.archive e
  keep : ∀ n e, Holds s.archive n e → Holds t.archive n e
  gain : ∀ n e, Holds t.archive n e → Holds s.archive n e ∨ e ∈ s.sweepable.take (k * s.cfg.batchSize)

section Month

variable {s : SweepStart} {e : EventRow} {name : Text}

theorem target_suffix (h : s.target e = some name) :
    ∃ suffix, bucketSuffixRe suffix = true ∧ name = bucketPrefix (monthKey e.emittedAt) ++ suffix := by
  rw [SweepStart.target,SweepStart.chosenBucket] at h
  split at h
  · exact ⟨dbSuffix,by decide,(Option.some.inj h).symm⟩
  · rename_i latest hlatest
    split_ifs at h
    · obtain ⟨c,hc,rfl⟩ := nextSuffixedName_some h
      exact ⟨c :: dbSuffix,bucketSuffixRe_letter hc,rfl⟩
    · obtain rfl := Option.some.inj h
      obtain ⟨-,hre,suffix,rfl⟩ := mem_bucketsOfMonth.mp (latest_spec hlatest).1
      refine ⟨suffix,?_,rfl⟩
      rcases bucket_suffix (monthText_of_start hre (List.prefix_append _ _)) hre with rfl | ⟨c,hc,rfl⟩
      · decide
      · exact bucketSuffixRe_letter hc

end Month

section Induction

variable {s t : SweepStart} {disk : Disk} {clock : ℕ → ℤ} {k : ℕ}

theorem Swept.start (hopen : ∀ n, Openable s.archive n) : Swept s s 0 where
  cfg := rfl
  rest := by rw [Nat.zero_mul,List.drop_zero]
  live e := by rw [Nat.zero_mul,List.take_zero]; simp
  openable := hopen
  months e he := by
    rw [Nat.zero_mul,List.take_zero] at he
    cases he
  keep _ _ h := h
  gain _ _ h := .inl h

theorem Swept.batch (h : Swept s t k) :
    t.batch = (s.sweepable.drop (k * s.cfg.batchSize)).take s.cfg.batchSize := by
  rw [batch_eq_take,h.rest,h.cfg]

theorem Swept.completes (h : Swept s t k) (hsplit : ∀ e ∈ t.batch, (t.target e).isSome = true) : t.Completes := by
  intro e he
  obtain ⟨name,hname⟩ := Option.isSome_iff_exists.mp (hsplit e he)
  exact ⟨name,hname,.inr (h.openable name)⟩

theorem movedRows_all (hunlocked : ∀ n, t.disk.locked n = false)
    (hsplit : ∀ e ∈ t.batch, (t.target e).isSome = true) : t.movedRows = t.batch := by
  refine List.filter_eq_self.mpr fun e he => ?_
  obtain ⟨name,hname⟩ := Option.isSome_iff_exists.mp (hsplit e he)
  rw [SweepStart.unlocked,hname,Option.any_some,hunlocked]
  rfl

theorem Swept.take_succ (h : Swept s t k) :
    s.sweepable.take ((k + 1) * s.cfg.batchSize) = s.sweepable.take (k * s.cfg.batchSize) ++ t.batch := by
  rw [h.batch,Nat.succ_mul,List.take_add]

theorem Swept.step (h : Swept s t k) (hunlocked : ∀ n, t.disk.locked n = false)
    (hsplit : ∀ e ∈ t.batch, (t.target e).isSome = true) {r : TieredResult}
    (hmoved : Archived t (t.final clock).bus (t.final clock).archive r) :
    Swept s (t.next disk clock) (k + 1) := by
  have hrows := movedRows_all hunlocked hsplit
  have hnext : (t.next disk clock).live = (t.final clock).bus :=
    Archived.next_live (u := t.next disk clock) hmoved rfl
  have htake := h.take_succ
  have hsub : ∀ e ∈ t.batch, e ∈ s.live.events := fun e he => ((h.live e).mp (mem_batch he).1).1
  refine ⟨h.cfg,?_,fun e => ?_,fun n => ?_,fun e he => ?_,fun n e he => hmoved.keep n e (h.keep n e he),
    fun n e he => ?_⟩
  · rw [Archived.next_sweepable (u := t.next disk clock) hmoved rfl,hrows,batch_eq_take,
      FirstOf.filter_not_take sweepable_sorted,h.rest,h.cfg,List.drop_drop,Nat.succ_mul]
  · rw [hnext,hmoved.live,Db.mem_deleteEvents,hrows,h.live,htake,List.mem_append,not_or,and_assoc,
      decide_eq_false_iff_not]
    refine and_congr_right fun hlive => and_congr_right fun _ => not_congr ?_
    constructor
    · intro hid
      obtain ⟨x,hx,hxid⟩ := List.mem_map.mp hid
      rwa [← KeyedTable.eq_of_key (hsub x hx) hlive hxid]
    · exact fun hmem => List.mem_map_of_mem hmem
  · rcases hmoved.tables n with hsame | hready
    · rw [Openable,show (t.next disk clock).archive = (t.final clock).archive from rfl,hsame]
      exact h.openable n
    · rw [Openable,show (t.next disk clock).archive = (t.final clock).archive from rfl,hready]
      rintro _ ⟨⟩
      rfl
  · rw [htake] at he
    rcases List.mem_append.mp he with he | he
    · obtain ⟨suffix,hsuffix,x,hx,hid,horigin⟩ := h.months e he
      exact ⟨suffix,hsuffix,x,hmoved.keep _ x hx,hid,horigin⟩
    · obtain ⟨name,hname,x,hx,hid,hor⟩ := hmoved.stored e (hrows ▸ he)
      obtain ⟨suffix,hsuffix,rfl⟩ := target_suffix hname
      refine ⟨suffix,hsuffix,x,hx,hid,?_⟩
      rcases hor with rfl | hold
      · exact .inl rfl
      · rcases h.gain _ x hold with horigin | hbefore
        · exact .inr horigin
        · have hlive := (mem_sweepable.mp (List.mem_of_mem_take hbefore)).1
          exact .inl (KeyedTable.eq_of_key hlive (hsub e he) hid)
  · rw [htake,List.mem_append]
    rcases hmoved.gain n e he with hold | ⟨hrow,-⟩
    · exact (h.gain n e hold).imp_right .inl
    · exact .inr (.inr (hrows ▸ hrow))

end Induction

def archivableEvents (db : Db) (now : ℤ) (policy : UnackedPolicy) (capDays : ℚ) : Set EventRow :=
  match policy with
  | .discard => expiredEvents db now \ owedEvents db now
  | _ => sweptEvents db now policy capDays

section Sets

variable {s : SweepStart} {e : EventRow}

theorem swept_expired {db : Db} {now : ℤ} {policy : UnackedPolicy} {capDays : ℚ}
    (h : e ∈ sweptEvents db now policy capDays) : e ∈ expiredEvents db now := by
  cases policy with
  | retain => exact h.1
  | archive => exact h
  | discard => exact h

theorem sweepable_kept (hpolicy : s.cfg.policy ≠ .discard) : e ∈ s.sweepable ↔
    e ∈ sweptEvents s.bus s.cfg.now s.cfg.policy s.cfg.capDays := by
  have hlive : s.live = s.bus := s.live_eq_bus (if_neg hpolicy)
  rw [mem_sweepable,hlive]
  by_cases he : e ∈ s.bus.events
  · have hheld := @swept_or_held s.bus s.cfg.policy s.cfg.now s.cfg.capDays e he
    have hids := @mem_heldIds s.bus s.cfg.policy s.cfg.now s.cfg.capDays e he
    have hexp : e ∈ sweptEvents s.bus s.cfg.now s.cfg.policy s.cfg.capDays → e.expired s.cfg.now = true :=
      fun h => (swept_expired h).2
    rw [owedNow,hids,← hheld]
    tauto
  · exact iff_of_false (fun h => he h.1) (fun h => he (swept_expired h).1)

theorem sweepable_discard (hpolicy : s.cfg.policy = .discard) : e ∈ s.sweepable ↔
    e ∈ expiredEvents s.bus s.cfg.now \ owedEvents s.bus s.cfg.now := by
  have hheld : owedNow s.bus s.cfg = [] := if_neg (by rw [hpolicy]; decide)
  rw [mem_sweepable,mem_sweepLive,hheld]
  by_cases he : e ∈ s.bus.events
  · rw [mem_discarded hpolicy he]
    constructor
    · exact fun h => ⟨⟨he,h.2.1⟩,h.1.2⟩
    · exact fun h => ⟨⟨he,h.2⟩,h.1.2,List.not_mem_nil⟩
  · exact iff_of_false (fun h => he h.1.1) (fun h => he h.1.1)

theorem sweepable_iff : e ∈ s.sweepable ↔
    e ∈ archivableEvents s.bus s.cfg.now s.cfg.policy s.cfg.capDays := by
  cases hpolicy : s.cfg.policy with
  | discard => exact sweepable_discard hpolicy
  | retain | archive =>
    have hkept := @sweepable_kept s e (by rw [hpolicy]; decide)
    rw [hpolicy] at hkept
    exact hkept

theorem live_rest : e ∈ s.live.events ∧ e ∉ s.sweepable ↔
    e ∈ s.bus.events ∧ e ∉ sweptEvents s.bus s.cfg.now s.cfg.policy s.cfg.capDays := by
  by_cases hpolicy : s.cfg.policy = .discard
  · rw [sweepable_discard hpolicy,mem_sweepLive]
    by_cases he : e ∈ s.bus.events
    · have howed : e ∈ owedEvents s.bus s.cfg.now → e ∈ expiredEvents s.bus s.cfg.now := fun h => h.1
      rw [mem_discarded hpolicy he,hpolicy,Set.mem_sdiff]
      show _ ↔ _ ∧ e ∉ expiredEvents s.bus s.cfg.now
      tauto
    · exact iff_of_false (fun h => he h.1.1) (fun h => he h.1)
  · rw [sweepable_kept hpolicy,s.live_eq_bus (if_neg hpolicy)]

theorem lt_moves {k : ℕ} (hbatch : 1 ≤ s.cfg.batchSize) :
    k < s.moves ↔ k * s.cfg.batchSize < s.sweepable.length := by
  rw [SweepStart.moves,← Nat.succ_le_iff,Nat.le_div_iff_mul_le hbatch,Nat.succ_mul]
  omega

end Sets

structure BatchedLikeSingle (s : SweepStart) (tier : ℕ → SweepStart) (result : ℕ → Option TieredResult)
    (swept : Db) : Prop where
  moving : ∀ k < s.moves, ∃ r ∈ result k, 0 < r.eventsMoved ∧
    r.eventsMoved = min s.cfg.batchSize (s.sweepable.length - k * s.cfg.batchSize)
  done : ∃ r ∈ result s.moves, r.eventsMoved = 0
  live : (tier (s.moves + 1)).bus.events = swept.events
  months : ∀ e ∈ archivableEvents s.bus s.cfg.now s.cfg.policy s.cfg.capDays,
    InMonthBucket s.archive (tier (s.moves + 1)).archive e
  archived : archivedIds (tier (s.moves + 1)).archive = archivedIds s.archive ∪
    EventRow.eventId '' archivableEvents s.bus s.cfg.now s.cfg.policy s.cfg.capDays

section Run

variable {s : SweepStart} {disks : ℕ → Disk} {clocks : ℕ → ℕ → ℤ}

theorem Swept.count {t : SweepStart} {k : ℕ} (h : Swept s t k) :
    t.batch.length = min s.cfg.batchSize (s.sweepable.length - k * s.cfg.batchSize) := by
  rw [h.batch,List.length_take,List.length_drop]

theorem result_of_point {t : SweepStart} {clock : ℕ → ℤ} {r : TieredResult}
    (h : (t.final clock).point = .ended (.returned r)) : t.resultAt clock = some r := by
  rw [SweepStart.resultAt,h]
  rfl

theorem relay_swept
    (hunlocked : ∀ k n, (s.relay disks clocks k).disk.locked n = false)
    (hopen : ∀ n, Openable s.archive n)
    (hsplit : ∀ k < s.moves, ∀ e ∈ (s.relay disks clocks k).batch,
      ((s.relay disks clocks k).target e).isSome = true) {k : ℕ} (hk : k ≤ s.moves) :
    Swept s (s.relay disks clocks k) k := by
  induction k with
  | zero => exact .start hopen
  | succ k ih =>
    have hswept := ih (Nat.le_of_succ_le hk)
    have hsome := hsplit k hk
    obtain ⟨r,-,hmoved⟩ := SweepStart.final_moved (clocks k) (hswept.completes hsome)
    exact hswept.step (hunlocked k) hsome hmoved

theorem Swept.last {t : SweepStart} {k : ℕ} (h : Swept s t k) (clock : ℕ → ℤ)
    (hk : s.sweepable.length ≤ k * s.cfg.batchSize) :
    ∃ r ∈ t.resultAt clock, r.eventsMoved = 0 ∧ Archived t (t.final clock).bus (t.final clock).archive r ∧
      t.movedRows = [] := by
  have hnone : t.batch = [] := by rw [h.batch,List.drop_eq_nil_of_le hk,List.take_nil]
  have hrows : t.movedRows = [] := by rw [SweepStart.movedRows,hnone]; rfl
  have hcompletes : t.Completes := by
    intro e he
    rw [hnone] at he
    cases he
  obtain ⟨r,hpoint,hmoved⟩ := SweepStart.final_moved clock hcompletes
  exact ⟨r,result_of_point hpoint,by rw [hmoved.count,hrows]; rfl,hmoved,hrows⟩

end Run

theorem batched_sweep_like_single {s : SweepStart} {disks : ℕ → Disk} {clocks : ℕ → ℕ → ℤ}
    {config : SweepConfig} {clock : ℤ} {swept : Db} {single : SweepResult}
    (hcfg : passConfig config clock = .ok s.cfg) (hrun : runSweep s.bus config clock = .ok (swept,single))
    (hbatch : 1 ≤ s.cfg.batchSize)
    (hunlocked : ∀ k n, (s.relay disks clocks k).disk.locked n = false)
    (hopen : ∀ n, Openable s.archive n)
    (hsplit : ∀ k < s.moves, ∀ e ∈ (s.relay disks clocks k).batch,
      ((s.relay disks clocks k).target e).isSome = true) :
    BatchedLikeSingle s (s.relay disks clocks) (fun k => (s.relay disks clocks k).resultAt (clocks k)) swept := by
  have hswept : ∀ k ≤ s.moves, Swept s (s.relay disks clocks k) k :=
    fun k hk => relay_swept hunlocked hopen hsplit hk
  have hend : s.sweepable.length ≤ s.moves * s.cfg.batchSize :=
    not_lt.mp fun hlt => lt_irrefl _ ((lt_moves hbatch).mpr hlt)
  have hlast := hswept s.moves le_rfl
  obtain ⟨r,hr,hzero,hmoved,hrows⟩ := hlast.last (clocks s.moves) hend
  have hall : s.sweepable.take (s.moves * s.cfg.batchSize) = s.sweepable := List.take_of_length_le hend
  refine ⟨fun k hk => ?_,⟨r,hr,hzero⟩,?_,fun e he => ?_,?_⟩
  · have hstep := hswept k hk.le
    obtain ⟨r,hpoint,hmoved⟩ := SweepStart.final_moved (clocks k) (hstep.completes (hsplit k hk))
    have hcount := hmoved.count
    rw [movedRows_all (hunlocked k) (hsplit k hk),hstep.count] at hcount
    have hleft := (lt_moves hbatch).mp hk
    exact ⟨r,result_of_point hpoint,by omega,hcount⟩
  · obtain ⟨hpolicy,hcap⟩ := passConfig_ok hcfg
    rw [runSweep_eq hpolicy hcap,← (passConfig_fields hcfg).1] at hrun
    obtain rfl := congrArg Prod.fst (Except.ok.inj hrun)
    refine KeyedTable.ext_mem fun e => ?_
    rw [mem_sweepTransaction,← live_rest]
    show e ∈ ((s.relay disks clocks s.moves).final (clocks s.moves)).bus.events ↔ _
    rw [hmoved.live,Db.mem_deleteEvents,hrows,hlast.live,hall]
    simp
  · obtain ⟨suffix,hsuffix,x,hx,hid,hor⟩ := hlast.months e (by rw [hall]; exact sweepable_iff.mpr he)
    exact ⟨suffix,hsuffix,x,hmoved.keep _ x hx,hid,hor⟩
  · ext i
    constructor
    · rintro ⟨name,e,he,rfl⟩
      rcases hmoved.gain name e he with hold | ⟨hrow,-⟩
      · rcases hlast.gain name e hold with horigin | hmem
        · exact .inl ⟨name,e,horigin,rfl⟩
        · exact .inr ⟨e,sweepable_iff.mp (hall ▸ hmem),rfl⟩
      · rw [hrows] at hrow
        cases hrow
    · rintro (⟨name,e,he,rfl⟩ | ⟨e,he,rfl⟩)
      · exact ⟨name,e,hmoved.keep name e (hlast.keep name e he),rfl⟩
      · obtain ⟨suffix,-,x,hx,hid,-⟩ := hlast.months e (by rw [hall]; exact sweepable_iff.mpr he)
        exact ⟨_,x,hmoved.keep _ x hx,hid⟩

def unlockedDisk : Disk := ⟨fun _ => none,fun _ => false,fun _ => false⟩

def fullJanuary : Disk where
  size name := if name = "bus-1970-01.db".toList then some 100 else none
  locked _ := false
  sealFails _ := false

def batchedConfig : SweepConfig := ⟨some "retain",some (.finite 20),false,some 3456000000,some 1,some 100⟩

def januaryArchive : Archive :=
  KeyedTable.insertOrIgnore .empty
    ⟨"bus-1970-01.db".toList,sweepSample.eventsArchive,some ⟨some 2000,some 1,some 1,none⟩⟩

def batchedPass : SweepStart := ⟨⟨3456000000,.retain,20,1,100⟩,fullJanuary,sweepSample,januaryArchive⟩

def batchedTier : ℕ → SweepStart := batchedPass.relay (fun _ => unlockedDisk) (fun _ _ => 3456000000)

theorem januaryArchive_openable (name : Text) : Openable januaryArchive name := by
  intro hasTables hfile
  obtain ⟨file,hget,rfl⟩ := Option.map_eq_some_iff.mp hfile
  obtain ⟨hmem,-⟩ := KeyedTable.get?_eq_some.mp hget
  rcases KeyedTable.mem_insertOrIgnore.mp hmem with hempty | ⟨rfl,-⟩
  · exact absurd hempty (KeyedTable.not_mem_empty file)
  · rfl

theorem batchedTier_one : batchedTier 1 =
    ⟨batchedPass.cfg,unlockedDisk,(batchedPass.pass (fun _ => 3456000000) 30).bus,
      (batchedPass.pass (fun _ => 3456000000) 30).archive⟩ := by
  have hend : (batchedPass.pass (fun _ => 3456000000) 30).point.result.isSome = true := by decide +kernel
  obtain ⟨r,hr⟩ := Option.isSome_iff_exists.mp hend
  show batchedPass.next unlockedDisk (fun _ => 3456000000) = _
  rw [SweepStart.next,SweepStart.final_eq (point_ended hr)]

theorem batched_sweep_like_single_sample :
    batchedPass.moves = 2 ∧ listBuckets (batchedTier 1).archive = ["bus-1970-01.db".toList,"bus-1970-01a.db".toList] ∧
      ∃ swept single, runSweep sweepSample batchedConfig 0 = .ok (swept,single) ∧
        BatchedLikeSingle batchedPass batchedTier (fun k => (batchedTier k).resultAt (fun _ => 3456000000)) swept := by
  have hmoves : batchedPass.moves = 2 := by decide +kernel
  have hpolicy : resolveUnackedPolicy batchedConfig = .ok .retain := by decide
  have hcap : resolveRetentionCapDays batchedConfig = .ok 20 := by decide +kernel
  have hcfg : passConfig batchedConfig 0 = .ok batchedPass.cfg := by decide +kernel
  have hunlocked : ∀ k n, (batchedTier k).disk.locked n = false := by
    intro k n
    cases k <;> rfl
  have hfirst : ∀ e ∈ batchedPass.batch, (batchedPass.target e).isSome = true := by decide +kernel
  have hsecond : ∀ e ∈ (batchedTier 1).batch, ((batchedTier 1).target e).isSome = true := by
    rw [batchedTier_one]
    decide +kernel
  have hsplit : ∀ k < batchedPass.moves, ∀ e ∈ (batchedTier k).batch, ((batchedTier k).target e).isSome = true := by
    intro k hk
    rw [hmoves] at hk
    interval_cases k
    · exact hfirst
    · exact hsecond
  refine ⟨hmoves,?_,_,_,runSweep_eq hpolicy hcap,?_⟩
  · rw [batchedTier_one]
    decide +kernel
  · exact batched_sweep_like_single hcfg (runSweep_eq hpolicy hcap) (by decide) hunlocked januaryArchive_openable
      hsplit

end WickedBus
