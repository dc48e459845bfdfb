import WickedBus.Outcome
import WickedBus.Recheck
import WickedBus.Foundation.Trace

namespace WickedBus

open WickedBus.Filter (Text)

def Phase.written (disk : Disk) (archive : Archive) : Phase → Option Text
  | .sealLatest _ latest =>
    if (getBucketMeta archive latest).isSome && !disk.sealFails latest then some latest else none
  | .openBucket w | .createEvents w | .createMeta w => some w.bucketName
  | .setCreatedAt w | .setMinEventId w | .setMaxEventId w | .writeRange w _ _ =>
    if (getBucketMeta archive w.bucketName).isSome then some w.bucketName else none
  | .insertBatch w => if (insertRows archive w.bucketName w.events).isSome then some w.bucketName else none
  | _ => none

def Pass.written (disk : Disk) (t : Pass) : Option Text :=
  match t.point with
  | .running phase _ => phase.written disk t.archive
  | .ended _ => none

def LockedUntouched (s : SweepStart) (clock : ℕ → ℤ) : Prop :=
  ∀ n name, s.disk.locked name = true → (s.pass clock n).written s.disk ≠ some name

def SweepStart.Reached (s : SweepStart) (e : EventRow) : Prop :=
  ∃ earlier later, s.batch = earlier ++ e :: later ∧ ∀ x ∈ earlier, (s.target x).isSome = true

def SweepStart.SealsUnlocked (s : SweepStart) : Prop :=
  ∀ e, s.Reached e → ∀ latest, s.splitBucket (monthKey e.emittedAt) = some latest →
    s.sealable latest = true → s.disk.locked latest = false

section Written

variable {disk : Disk} {cfg : PassConfig} {db : Db} {archive : Archive} {ph ph' : Phase} {name : Text}

theorem written_setMeta {n : Text} {f : BucketMeta → BucketMeta} {archive' : Archive}
    (h : setMeta archive n f = some archive') {w : Text} (hw : w = n)
    (hn : (if (getBucketMeta archive w).isSome then some w else none) ≠ some name) :
    archive'.get? name = archive.get? name := by
  subst hw
  obtain ⟨hread,rfl⟩ := setMeta_some h
  rw [if_pos hread] at hn
  exact get?_editBucket_ne fun heq => hn (congrArg some heq.symm)

theorem sweeperStep_unwritten {clock : ℤ} {memo : PassMemo} (h : ph.written disk archive ≠ some name) :
    (sweeperStep (disk.env clock (.running ph memo)) cfg db archive ph).archive.get? name = archive.get? name := by
  cases ph with
  | openBucket w => exact get?_openFile_ne fun heq => h (congrArg some heq.symm)
  | createEvents w | createMeta w => exact get?_editBucket_ne fun heq => h (congrArg some heq.symm)
  | setCreatedAt w | setMinEventId w | setMaxEventId w | writeRange w lo hi =>
    simp only [sweeperStep]
    split
    · rfl
    · rename_i hset
      exact written_setMeta hset rfl h
  | insertBatch w =>
    simp only [Phase.written] at h
    simp only [sweeperStep]
    split
    · rfl
    · rename_i hins
      rw [hins,Option.isSome_some,if_pos rfl] at h
      rw [(insertRows_some hins).2]
      exact get?_editBucket_ne fun heq => h (congrArg some heq.symm)
  | sealLatest g latest =>
    have hseal : (trySeal (disk.env clock (.running (.sealLatest g latest) memo)) archive latest).get? name =
        archive.get? name := by
      rcases trySeal_cases (disk.env clock (.running (.sealLatest g latest) memo)) archive latest with
        ⟨hsame,-⟩ | ⟨hok,hsealed⟩
      · rw [hsame]
      · refine written_setMeta hsealed rfl ?_
        simpa only [Phase.written,show disk.sealFails latest = false from hok,Bool.not_false,Bool.and_true] using h
    simp only [sweeperStep]
    split <;> exact hseal
  | collectOwed cursors owed => cases cursors <;> rfl
  | writeGroups groups moved =>
    rcases groups with _ | ⟨⟨n,events⟩,rest⟩ <;> simp only [sweeperStep] <;> split_ifs <;> rfl
  | _ => simp only [sweeperStep]; try (repeat' split) <;> rfl

theorem written_cases (h : ph.written disk archive = some name) :
    (∃ w, ph.writing = some w ∧ w.bucketName = name) ∨ ∃ g, ph = .sealLatest g name ∧
      ((getBucketMeta archive name).isSome && !disk.sealFails name) = true := by
  cases ph with
  | openBucket w | createEvents w | createMeta w => exact .inl ⟨w,rfl,Option.some.inj h⟩
  | setCreatedAt w | setMinEventId w | setMaxEventId w | writeRange w lo hi | insertBatch w =>
    simp only [Phase.written] at h
    split at h
    · exact .inl ⟨w,rfl,Option.some.inj h⟩
    · cases h
  | sealLatest g latest =>
    simp only [Phase.written] at h
    split at h
    · cases h
      rename_i hread
      exact .inr ⟨g,rfl,hread⟩
    · cases h
  | _ => cases h

end Written

theorem locked_file_unchanged {s : SweepStart} {clock : ℕ → ℤ} (h : LockedUntouched s clock) {name : Text}
    (hlocked : s.disk.locked name = true) (n : ℕ) : (s.pass clock n).archive.get? name = s.archive.get? name := by
  induction n with
  | zero => rfl
  | succ n ih =>
    rw [← ih]
    have hwritten := h n name hlocked
    show ((s.pass clock n).step s.cfg _).archive.get? name = _
    generalize s.pass clock n = t at hwritten ⊢
    obtain ⟨point,bus,archive⟩ := t
    cases point with
    | ended result => rfl
    | running ph memo => exact sweeperStep_unwritten hwritten

section Lock

variable {s : SweepStart} {clock : ℕ → ℤ} {bus : Db} {archive : Archive} {ph ph' : Phase}

theorem Grouped.reached {g : Grouping} {done rest : List EventRow} {ev : EventRow}
    (h : Grouped s g archive done) (htodo : g.todo = ev :: rest) : s.Reached ev := by
  refine ⟨done,rest,by rw [h.split,htodo],fun x hx => ?_⟩
  obtain ⟨name,hname⟩ := Option.isSome_iff_exists.mp (h.planned x hx)
  rw [SweepStart.target,(h.plan _ _ hname).1]
  rfl

theorem seals_unlocked_untouched (h : s.SealsUnlocked) : LockedUntouched s clock := by
  intro n name hlocked hwritten
  have hfollows := s.follows clock n
  generalize s.pass clock n = t at hfollows hwritten
  obtain ⟨point,bus,archive⟩ := t
  cases point with
  | ended result => cases hwritten
  | running ph memo =>
    rcases written_cases hwritten with ⟨w,hw,rfl⟩ | ⟨g,rfl,hread⟩
    · obtain ⟨-,⟨finished,hcopying⟩,-⟩ := Course.copying hfollows hw
      rw [hcopying.unlocked] at hlocked
      cases hlocked
    · obtain ⟨-,⟨done,hg⟩,hpick,hneeds⟩ := hfollows
      obtain ⟨ev,rest,htodo⟩ := List.exists_cons_of_ne_nil hpick.todo
      have hsplit := (s.chosen_next hpick.latest hneeds).2
      rw [Grouping.month_cons htodo] at hsplit
      rw [readable_of_tables hg.tables] at hread
      rw [h ev (hg.reached htodo) name hsplit hread] at hlocked
      cases hlocked

def SweepStart.remaining (s : SweepStart) : Phase → List EventRow
  | .collectCursors | .collectOwed _ _ | .collectAttempts _ | .readPairs _ | .discardOwed _
  | .selectCandidates _ => s.batch
  | .groupEvents g | .readMeta g _ | .statBucket g _ | .sealLatest g _ => g.todo
  | _ => []

inductive Chooses (s : SweepStart) (done : List EventRow) (ev : EventRow) (ph : Phase) : Prop
  | again {e : EventRow} (he : e ∈ done) (hmonth : monthKey e.emittedAt = monthKey ev.emittedAt)
  | whole (h : s.splitBucket (monthKey ev.emittedAt) = none)
  | split {g : Grouping} {latest : Text} (hph : ph = .sealLatest g latest)
    (h : s.splitBucket (monthKey ev.emittedAt) = some latest)

theorem remaining_group {g : Grouping} {env : StepEnv} (h : Course s bus archive (.groupEvents g))
    (hnext : (sweeperStep env s.cfg bus archive (.groupEvents g)).next = some ph') :
    s.remaining ph' = g.todo ∨ ∃ done ev, s.batch = done ++ ev :: s.remaining ph' ∧
      g.todo = ev :: s.remaining ph' ∧ Chooses s done ev (.groupEvents g) := by
  obtain ⟨-,done,hg⟩ := h
  have hbuckets := @bucketsOfMonth_of_tables archive s.archive g.month hg.tables
  simp only [sweeperStep,hbuckets] at hnext
  (repeat' split at hnext) <;> cases hnext
  · rename_i hnil
    exact .inl hnil.symm
  · rename_i ev rest htodo _ name hhit
    obtain ⟨-,e,he,hmonth⟩ := hg.plan _ _ hhit
    exact .inr ⟨done,ev,by rw [hg.split,htodo]; rfl,htodo,.again he hmonth⟩
  · rename_i ev rest htodo _ hmiss _ hnone
    have hsplit := (s.chosen_bare hnone).2
    rw [Grouping.month_cons htodo] at hsplit
    have hrest : s.remaining (.groupEvents (g.assign (bucketPrefix g.month ++ dbSuffix))) = rest := by
      rw [Grouping.assign_cons htodo]
      rfl
    rw [hrest]
    exact .inr ⟨done,ev,by rw [hg.split,htodo],htodo,.whole hsplit⟩
  · exact .inl rfl

theorem remaining_stat {g : Grouping} {latest : Text} {clock : ℤ} (h : Course s bus archive (.statBucket g latest))
    (hnext : (sweeperStep ⟨clock,s.disk.size latest,false,false⟩ s.cfg bus archive (.statBucket g latest)).next =
      some ph') :
    s.remaining ph' = g.todo ∨ ∃ done ev, s.batch = done ++ ev :: s.remaining ph' ∧
      g.todo = ev :: s.remaining ph' ∧ Chooses s done ev (.statBucket g latest) := by
  obtain ⟨-,⟨done,hg⟩,hpick,hopen⟩ := h
  obtain ⟨ev,rest,htodo⟩ := List.exists_cons_of_ne_nil hpick.todo
  have hneeds : s.needsNext latest = (s.disk.size latest).any (fun size => s.cfg.bucketMaxBytes ≤ size) := by
    rw [SweepStart.needsNext,decide_eq_false hopen,Bool.false_or]
  simp only [sweeperStep,← hneeds] at hnext
  split at hnext <;> cases hnext
  · exact .inl rfl
  · rename_i hsize
    have hsplit := (s.chosen_latest hpick.latest (Bool.not_eq_true _ ▸ hsize)).2
    rw [Grouping.month_cons htodo] at hsplit
    have hrest : s.remaining (.groupEvents (g.assign latest)) = rest := by
      rw [Grouping.assign_cons htodo]
      rfl
    rw [hrest]
    exact .inr ⟨done,ev,by rw [hg.split,htodo],htodo,.whole hsplit⟩

theorem remaining_seal {g : Grouping} {latest : Text} {env : StepEnv} (h : Course s bus archive (.sealLatest g latest))
    (hnext : (sweeperStep env s.cfg bus archive (.sealLatest g latest)).next = some ph') :
    ∃ done ev, s.batch = done ++ ev :: s.remaining ph' ∧ g.todo = ev :: s.remaining ph' ∧
      Chooses s done ev (.sealLatest g latest) := by
  obtain ⟨-,⟨done,hg⟩,hpick,hneeds⟩ := h
  obtain ⟨ev,rest,htodo⟩ := List.exists_cons_of_ne_nil hpick.todo
  have hsplit := (s.chosen_next hpick.latest hneeds).2
  rw [Grouping.month_cons htodo] at hsplit
  simp only [sweeperStep] at hnext
  split at hnext <;> cases hnext
  rename_i name hname
  have hrest : s.remaining (.groupEvents (g.assign name)) = rest := by
    rw [Grouping.assign_cons htodo]
    rfl
  rw [hrest]
  exact ⟨done,ev,by rw [hg.split,htodo],htodo,.split rfl hsplit⟩

theorem remaining_step {clock : ℤ} {memo : PassMemo} (h : Course s bus archive ph)
    (hnext : (sweeperStep (s.disk.env clock (.running ph memo)) s.cfg bus archive ph).next = some ph') :
    s.remaining ph' = s.remaining ph ∨ ∃ done ev, s.batch = done ++ ev :: s.remaining ph' ∧
      s.remaining ph = ev :: s.remaining ph' ∧ Chooses s done ev ph := by
  generalize henv : s.disk.env clock (.running ph memo) = env at hnext
  cases ph with
  | groupEvents g => exact remaining_group h hnext
  | statBucket g latest => exact remaining_stat h (henv ▸ hnext)
  | sealLatest g latest => exact .inr (remaining_seal h hnext)
  | selectCandidates held =>
    obtain ⟨rfl,rfl,rfl⟩ := h
    simp only [sweeperStep] at hnext
    split at hnext <;> cases hnext
    rename_i ev rest hbatch
    exact .inl hbatch.symm
  | collectOwed cursors owed => cases cursors <;> cases hnext <;> exact .inl rfl
  | collectCursors | collectAttempts owed | discardOwed ids | openBucket w | createEvents w | createMeta w =>
    cases hnext
    exact .inl rfl
  | deleteLive moved => cases hnext
  | writeGroups groups moved =>
    rcases groups with _ | ⟨⟨name,events⟩,rest⟩ <;> simp only [sweeperStep] at hnext <;>
      (repeat' split at hnext) <;> cases hnext <;> exact .inl rfl
  | _ =>
    simp only [sweeperStep] at hnext
    (repeat' split at hnext) <;> cases hnext <;> exact .inl rfl

def SweepStart.Settles (s : SweepStart) (clock : ℕ → ℤ) (e : EventRow) : Prop :=
  ∀ latest, s.splitBucket (monthKey e.emittedAt) = some latest →
    s.sealable latest = true → ∃ n, (s.pass clock n).written s.disk = some latest

def SweepStart.Settled (s : SweepStart) (clock : ℕ → ℤ) (t : Pass) : Prop :=
  match t.point with
  | .running ph _ => ∀ done, s.batch = done ++ s.remaining ph → ∀ e ∈ done, s.Settles clock e
  | .ended _ => ∀ e, s.Reached e → s.Settles clock e

theorem written_seal {n : ℕ} {g : Grouping} {latest : Text} {memo : PassMemo}
    (hpoint : (s.pass clock n).point = .running (.sealLatest g latest) memo)
    (hread : s.sealable latest = true) : (s.pass clock n).written s.disk = some latest := by
  have hfollows := s.follows clock n
  simp only [SweepStart.Follows,hpoint] at hfollows
  obtain ⟨-,⟨done,hg⟩,-⟩ := hfollows
  simp only [Pass.written,hpoint,Phase.written]
  rw [readable_of_tables hg.tables]
  exact if_pos hread

theorem Chooses.settles {n : ℕ} {done : List EventRow} {ev : EventRow} {memo : PassMemo} (h : Chooses s done ev ph)
    (hdone : ∀ e ∈ done, s.Settles clock e) (hpoint : (s.pass clock n).point = .running ph memo) :
    s.Settles clock ev := by
  intro latest hsplit hread
  cases h with
  | again he hmonth => exact hdone _ he latest (hmonth ▸ hsplit) hread
  | whole hnone => cases hnone.symm.trans hsplit
  | split hph hlatest =>
    cases hlatest.symm.trans hsplit
    exact ⟨n,written_seal (hph ▸ hpoint) hread⟩

theorem ended_remaining {env : StepEnv} (h : Course s bus archive ph)
    (hnext : (sweeperStep env s.cfg bus archive ph).next = none) :
    s.remaining ph = [] ∨ ∃ g latest done ev, ph = .sealLatest g latest ∧ s.batch = done ++ s.remaining ph ∧
      (s.remaining ph).head? = some ev ∧ s.splitBucket (monthKey ev.emittedAt) = some latest ∧ s.target ev = none := by
  cases ph with
  | sealLatest g latest =>
    obtain ⟨-,⟨done,hg⟩,hpick,hneeds⟩ := h
    obtain ⟨ev,rest,htodo⟩ := List.exists_cons_of_ne_nil hpick.todo
    obtain ⟨hchosen,hsplit⟩ := s.chosen_next hpick.latest hneeds
    have hnone : nextSuffixedName latest (bucketPrefix g.month) = none := by
      simp only [sweeperStep] at hnext
      split at hnext
      · assumption
      · cases hnext
    rw [Grouping.month_cons htodo] at hsplit
    refine .inr ⟨g,latest,done,ev,rfl,hg.split,by rw [SweepStart.remaining,htodo]; rfl,hsplit,?_⟩
    rw [SweepStart.target,← Grouping.month_cons htodo,hchosen,hnone]
  | selectCandidates held =>
    obtain ⟨rfl,rfl,rfl⟩ := h
    simp only [sweeperStep] at hnext
    split at hnext
    · rename_i hbatch
      exact .inl hbatch
    · cases hnext
  | collectOwed cursors owed => cases cursors <;> cases hnext
  | collectCursors | collectAttempts owed | discardOwed ids => cases hnext
  | readPairs owed | readMeta g latest | statBucket g latest | groupEvents g =>
    simp only [sweeperStep] at hnext
    (repeat' split at hnext) <;> cases hnext
  | _ => exact .inl rfl

theorem reached_split {done rest : List EventRow} {e ev : EventRow} (h : s.Reached e)
    (hbatch : s.batch = done ++ ev :: rest) (hnone : s.target ev = none) : e ∈ done ∨ e = ev := by
  obtain ⟨earlier,later,hsplit,hplaced⟩ := h
  rcases Trace.append_split (hbatch.symm.trans hsplit) with ⟨mid,-,hdone⟩ | ⟨mid,hearlier,hmid⟩
  · exact .inl (by rw [hdone]; simp)
  · cases mid with
    | nil => exact .inr (List.cons.inj hmid).1.symm
    | cons x mid =>
      have hev : ev ∈ earlier := by rw [hearlier,← (List.cons.inj hmid).1]; simp
      have hsome := hplaced ev hev
      rw [hnone] at hsome
      cases hsome

theorem settled_step {n : ℕ} (h : s.Settled clock (s.pass clock n)) : s.Settled clock (s.pass clock (n + 1)) := by
  have hfollows := s.follows clock n
  show s.Settled clock ((s.pass clock n).step s.cfg _)
  cases hpoint : (s.pass clock n).point with
  | ended result =>
    simp only [SweepStart.Settled,hpoint,Pass.step] at h ⊢
    exact h
  | running ph memo =>
    simp only [SweepStart.Settled,hpoint] at h
    simp only [SweepStart.Follows,hpoint] at hfollows
    cases hnext : (sweeperStep (s.disk.env (clock n) (.running ph memo)) s.cfg (s.pass clock n).bus
        (s.pass clock n).archive ph).next with
    | some next =>
      simp only [SweepStart.Settled,Pass.step,hpoint,PassPoint.next,hnext]
      rcases remaining_step hfollows hnext with hsame | ⟨done,ev,hbatch,hrest,hplaced⟩
      · rwa [hsame]
      · have hdone := h done (by rw [hrest]; exact hbatch)
        intro done' hbatch' e he
        have hsnoc : done' = done ++ [ev] := by
          refine List.append_cancel_right (?_ : done' ++ s.remaining next = (done ++ [ev]) ++ s.remaining next)
          rw [← hbatch',hbatch,List.append_assoc]
          rfl
        rw [hsnoc] at he
        rcases List.mem_append.mp he with he | he
        · exact hdone e he
        · rw [List.mem_singleton.mp he]
          exact hplaced.settles hdone hpoint
    | none =>
      simp only [SweepStart.Settled,Pass.step,hpoint,PassPoint.next,hnext]
      intro e hreached
      rcases ended_remaining hfollows hnext with hnil | ⟨g,latest,done,ev,rfl,hbatch,hhead,hsplit,hnone⟩
      · obtain ⟨earlier,later,hmem,-⟩ := hreached
        refine h s.batch (by rw [hnil,List.append_nil]) e ?_
        rw [hmem]
        simp
      · obtain ⟨rest,hrest⟩ := List.head?_eq_some_iff.mp hhead
        have hdone := h done hbatch
        rw [hrest] at hbatch
        rcases reached_split hreached hbatch hnone with he | rfl
        · exact hdone e he
        · exact Chooses.settles (.split rfl hsplit) hdone hpoint

theorem settled_pass (s : SweepStart) (clock : ℕ → ℤ) (n : ℕ) : s.Settled clock (s.pass clock n) := by
  induction n with
  | zero =>
    intro done hbatch e he
    rw [List.append_left_eq_self.mp hbatch.symm] at he
    cases he
  | succ n ih => exact settled_step ih

end Lock

theorem locked_untouched_iff (s : SweepStart) (clock : ℕ → ℤ) :
    (LockedUntouched s clock ↔ s.SealsUnlocked) ∧
      (s.SealsUnlocked → ∀ n name,s.disk.locked name = true →
        (s.pass clock n).archive.get? name = s.archive.get? name) := by
  refine ⟨⟨fun h e hreached latest hsplit hread => ?_,seals_unlocked_untouched⟩,
    fun h n name hlocked => locked_file_unchanged (seals_unlocked_untouched h) hlocked n⟩
  obtain ⟨n,result,hend⟩ := s.pass_ends clock
  have hsettled := settled_pass s clock n
  simp only [SweepStart.Settled,hend] at hsettled
  obtain ⟨k,hwritten⟩ := hsettled e hreached latest hsplit hread
  exact Bool.eq_false_iff.mpr fun hlocked => h k latest hlocked hwritten

def fullDisk (locked : Text) : Disk :=
  ⟨fun _ => some defaultBucketMaxBytes,fun name => decide (name = locked),fun _ => false⟩

def lockedSplit : SweepStart where
  cfg := sampleCfg
  disk := fullDisk "bus-1970-01.db".toList
  bus := expiredDb
  archive := KeyedTable.insertOrIgnore .empty
    ⟨"bus-1970-01.db".toList,some .empty,some ⟨some 4000,none,none,none⟩⟩

theorem locked_bucket_sealed :
    ¬ LockedUntouched lockedSplit (fun _ => 5000) ∧
      lockedSplit.disk.locked "bus-1970-01.db".toList = true ∧
      getBucketMeta lockedSplit.archive "bus-1970-01.db".toList = some ⟨some 4000,none,none,none⟩ ∧
      getBucketMeta (lockedSplit.pass (fun _ => 5000) 9).archive "bus-1970-01.db".toList =
        some ⟨some 4000,none,none,some 5000⟩ := by
  have hwritten : (lockedSplit.pass (fun _ => 5000) 8).written lockedSplit.disk = some "bus-1970-01.db".toList := by
    decide +kernel
  exact ⟨fun h => h 8 _ (by decide +kernel) hwritten,by decide +kernel,by decide +kernel,by decide +kernel⟩

end WickedBus
