import WickedBus.Buckets
import WickedBus.DryRun

namespace WickedBus

open WickedBus.Filter (Text)

structure Disk where
  size : Text → Option ℕ
  locked : Text → Bool
  sealFails : Text → Bool

def Disk.env (disk : Disk) (clock : ℤ) : PassPoint → StepEnv
  | .running (.statBucket _ latest) _ => ⟨clock,disk.size latest,false,false⟩
  | .running (.sealLatest _ latest) _ => ⟨clock,none,false,disk.sealFails latest⟩
  | .running (.writeGroups ((name,_) :: _) _) _ => ⟨clock,none,disk.locked name,false⟩
  | _ => ⟨clock,none,false,false⟩

structure SweepStart where
  cfg : PassConfig
  disk : Disk
  bus : Db
  archive : Archive

def SweepStart.pass (s : SweepStart) (clock : ℕ → ℤ) : ℕ → Pass
  | 0 => ⟨.begin,s.bus,s.archive⟩
  | n + 1 => (s.pass clock n).step s.cfg (s.disk.env (clock n) (s.pass clock n).point)

def SweepStart.discarded (s : SweepStart) : List ℤ :=
  if s.cfg.policy = .discard then idsOf (owedPairsNow s.cfg s.bus) else []

def SweepStart.live (s : SweepStart) : Db :=
  if s.discarded = [] then s.bus else deleteFromLive s.bus s.discarded none

def SweepStart.batch (s : SweepStart) : List EventRow := candidates s.live s.cfg (owedNow s.bus s.cfg)

def SweepStart.needsNext (s : SweepStart) (latest : Text) : Bool :=
  decide (Sealed s.archive latest) || (s.disk.size latest).any (fun size => s.cfg.bucketMaxBytes ≤ size)

def SweepStart.chosenBucket (s : SweepStart) (month : Text) : Option Text :=
  match (bucketsOfMonth s.archive month).getLast? with
  | none => some (bucketPrefix month ++ dbSuffix)
  | some latest => if s.needsNext latest then nextSuffixedName latest (bucketPrefix month) else some latest

def SweepStart.splitBucket (s : SweepStart) (month : Text) : Option Text :=
  (bucketsOfMonth s.archive month).getLast?.filter s.needsNext

def SweepStart.sealable (s : SweepStart) (name : Text) : Bool :=
  (getBucketMeta s.archive name).isSome && !s.disk.sealFails name

def SweepStart.target (s : SweepStart) (e : EventRow) : Option Text := s.chosenBucket (monthKey e.emittedAt)

def Openable (archive : Archive) (name : Text) : Prop :=
  ∀ hasTables ∈ tablesOf archive name, hasTables = (true,true)

def SweepStart.Writable (s : SweepStart) (name : Text) : Prop :=
  s.disk.locked name = true ∨ Openable s.archive name

instance (archive : Archive) (name : Text) : Decidable (Openable archive name) :=
  inferInstanceAs (Decidable (∀ hasTables ∈ tablesOf archive name, hasTables = (true,true)))

instance (s : SweepStart) (name : Text) : Decidable (s.Writable name) :=
  inferInstanceAs (Decidable (_ ∨ _))

def SweepStart.Completes (s : SweepStart) : Prop := ∀ e ∈ s.batch, ∃ name ∈ s.target e, s.Writable name

instance (s : SweepStart) : Decidable s.Completes :=
  inferInstanceAs (Decidable (∀ e ∈ s.batch, ∃ name ∈ s.target e, s.Writable name))

theorem SweepStart.pass_eq (s : SweepStart) (clock : ℕ → ℤ) (n : ℕ) :
    s.pass clock n =
      Pass.after s.cfg (fun i => s.disk.env (clock i) (s.pass clock i).point) ⟨.begin,s.bus,s.archive⟩ n := by
  induction n with
  | zero => rfl
  | succ n ih =>
    show (s.pass clock n).step s.cfg _ = Pass.step s.cfg _ _
    rw [← ih]

section Choice

variable {s : SweepStart} {month latest name : Text}

theorem SweepStart.chosen_bare (h : (bucketsOfMonth s.archive month).getLast? = none) :
    s.chosenBucket month = some (bucketPrefix month ++ dbSuffix) ∧ s.splitBucket month = none := by
  rw [chosenBucket,splitBucket,h]
  exact ⟨rfl,rfl⟩

theorem SweepStart.chosen_latest (h : (bucketsOfMonth s.archive month).getLast? = some latest)
    (hnext : s.needsNext latest = false) : s.chosenBucket month = some latest ∧ s.splitBucket month = none := by
  simp [chosenBucket,splitBucket,h,hnext]

theorem SweepStart.chosen_next (h : (bucketsOfMonth s.archive month).getLast? = some latest)
    (hnext : s.needsNext latest = true) :
    s.chosenBucket month = nextSuffixedName latest (bucketPrefix month) ∧ s.splitBucket month = some latest := by
  simp [chosenBucket,splitBucket,h,hnext]

theorem SweepStart.split_latest (h : s.splitBucket month = some latest) :
    (bucketsOfMonth s.archive month).getLast? = some latest ∧ s.needsNext latest = true :=
  Option.filter_eq_some_iff.mp h

end Choice

theorem names_addToGroup_eq (name : Text) (ev : EventRow) (groups : List (Text × List EventRow)) :
    (addToGroup name ev groups).map Prod.fst =
      if name ∈ groups.map Prod.fst then groups.map Prod.fst else groups.map Prod.fst ++ [name] := by
  induction groups with
  | nil => rfl
  | cons p groups ih =>
    obtain ⟨n,evs⟩ := p
    simp only [addToGroup]
    by_cases hn : n = name
    · simp [hn]
    · rw [if_neg hn,List.map_cons,ih]
      have hcons : name ∈ ((n,evs) :: groups).map Prod.fst ↔ name ∈ groups.map Prod.fst := by
        rw [List.map_cons,List.mem_cons]
        exact or_iff_right (Ne.symm hn)
      by_cases hmem : name ∈ groups.map Prod.fst
      · rw [if_pos hmem,if_pos (hcons.mpr hmem)]
        rfl
      · rw [if_neg hmem,if_neg (fun h => hmem (hcons.mp h))]
        rfl

structure Grouped (s : SweepStart) (g : Grouping) (archive : Archive) (done : List EventRow) : Prop where
  split : s.batch = done ++ g.todo
  plan : ∀ month name, g.cache.lookup month = some name →
    s.chosenBucket month = some name ∧ ∃ e ∈ done, monthKey e.emittedAt = month
  planned : ∀ e ∈ done, (g.cache.lookup (monthKey e.emittedAt)).isSome = true
  groups : ∀ p ∈ g.groups, p.2 ≠ [] ∧ ∀ e ∈ p.2, s.target e = some p.1
  names : (g.groups.map Prod.fst).Nodup
  rows : (rowsOf g.groups).Perm done
  tables : ∀ n, tablesOf archive n = tablesOf s.archive n
  holds : ∀ n e, Holds archive n e ↔ Holds s.archive n e
  sealed : ∀ n, Sealed archive n ↔ Sealed s.archive n ∨
    ((∃ e ∈ done, s.splitBucket (monthKey e.emittedAt) = some n) ∧ s.sealable n = true)

structure Picking (s : SweepStart) (g : Grouping) (latest : Text) : Prop where
  todo : g.todo ≠ []
  fresh : g.cache.lookup g.month = none
  latest : (bucketsOfMonth s.archive g.month).getLast? = some latest

section Grouping

variable {s : SweepStart} {g g' : Grouping} {archive archive' : Archive} {done rest : List EventRow}
  {ev : EventRow} {name latest n : Text}

theorem readable_of_tables (h : ∀ n, tablesOf archive n = tablesOf archive' n) :
    (getBucketMeta archive n).isSome = (getBucketMeta archive' n).isSome := by
  rw [Bool.eq_iff_iff,getBucketMeta_isSome,getBucketMeta_isSome,h]

theorem bucketsOfMonth_of_tables {month : Text} (h : ∀ n, tablesOf archive n = tablesOf archive' n) :
    bucketsOfMonth archive month = bucketsOfMonth archive' month := by
  refine List.Pairwise.eq_of_mem_iff bucketsOfMonth_sorted bucketsOfMonth_sorted fun n => ?_
  rw [mem_bucketsOfMonth,mem_bucketsOfMonth,← tablesOf_isSome,h,tablesOf_isSome]

theorem Grouped.begin (h : candidates s.live s.cfg (owedNow s.bus s.cfg) = ev :: rest) :
    Grouped s ⟨ev :: rest,[],[]⟩ s.archive [] where
  split := h
  plan _ _ h := by cases h
  planned _ h := by cases h
  groups _ h := by cases h
  names := .nil
  rows := .refl _
  tables _ := rfl
  holds _ _ := Iff.rfl
  sealed _ := ⟨.inl,fun h => h.elim id (by rintro ⟨⟨_,⟨⟩,_⟩,_⟩)⟩

theorem Grouped.put (h : Grouped s g archive done) (htodo : g.todo = ev :: rest)
    (htables : ∀ n, tablesOf archive' n = tablesOf archive n)
    (hholds : ∀ n e, Holds archive' n e ↔ Holds archive n e)
    (hsealed : ∀ n, Sealed archive' n ↔ Sealed archive n ∨
      (s.splitBucket (monthKey ev.emittedAt) = some n ∧ s.sealable n = true))
    (hname : s.target ev = some name) (hrest : g'.todo = rest) (hgroups : g'.groups = addToGroup name ev g.groups)
    (hcache : ∀ month, g'.cache.lookup month =
      (g.cache.lookup month).or (if month = monthKey ev.emittedAt then some name else none)) :
    Grouped s g' archive' (done ++ [ev]) where
  split := by rw [h.split,htodo,hrest,List.append_assoc]; rfl
  plan month m hm := by
    rw [hcache,Option.or_eq_some_iff] at hm
    rcases hm with hm | ⟨-,hm⟩
    · obtain ⟨hchosen,e,he,hmonth⟩ := h.plan month m hm
      exact ⟨hchosen,e,List.mem_append_left _ he,hmonth⟩
    · split_ifs at hm with hmonth
      cases hm
      exact ⟨hmonth ▸ hname,ev,by simp,hmonth.symm⟩
  planned e he := by
    rw [hcache,Option.isSome_or,Bool.or_eq_true]
    rcases List.mem_append.mp he with he | he
    · exact .inl (h.planned e he)
    · rw [List.mem_singleton.mp he]
      exact .inr (by simp)
  groups := by
    rw [hgroups]
    exact forall_addToGroup (P := fun n e => s.target e = some n) h.groups hname
  names := by
    rw [hgroups,names_addToGroup_eq]
    split_ifs with hmem
    · exact h.names
    · exact List.nodup_append'.mpr ⟨h.names,List.nodup_singleton _,by simpa using hmem⟩
  rows := by
    rw [hgroups]
    exact (perm_rowsOf_addToGroup name ev g.groups).trans
      ((h.rows.cons ev).trans (List.perm_append_singleton ev done).symm)
  tables n := (htables n).trans (h.tables n)
  holds n e := (hholds n e).trans (h.holds n e)
  sealed n := by
    rw [hsealed,h.sealed]
    constructor
    · rintro ((hold | ⟨⟨e,he,hsplit⟩,hread⟩) | ⟨hsplit,hread⟩)
      · exact .inl hold
      · exact .inr ⟨⟨e,List.mem_append_left _ he,hsplit⟩,hread⟩
      · exact .inr ⟨⟨ev,by simp,hsplit⟩,hread⟩
    · rintro (hold | ⟨⟨e,he,hsplit⟩,hread⟩)
      · exact .inl (.inl hold)
      · rcases List.mem_append.mp he with he | he
        · exact .inl (.inr ⟨⟨e,he,hsplit⟩,hread⟩)
        · rw [List.mem_singleton.mp he] at hsplit
          exact .inr ⟨hsplit,hread⟩

theorem Grouped.assign (h : Grouped s g archive done) (htodo : g.todo = ev :: rest)
    (htables : ∀ n, tablesOf archive' n = tablesOf archive n)
    (hholds : ∀ n e, Holds archive' n e ↔ Holds archive n e)
    (hsealed : ∀ n, Sealed archive' n ↔ Sealed archive n ∨
      (s.splitBucket g.month = some n ∧ s.sealable n = true))
    (hname : s.chosenBucket g.month = some name) : Grouped s (g.assign name) archive' (done ++ [ev]) := by
  rw [Grouping.month_cons htodo] at hsealed hname
  refine h.put htodo htables hholds hsealed hname ?_ ?_ ?_ <;> rw [Grouping.assign_cons htodo]
  exact lookup_snoc g.cache (monthKey ev.emittedAt) name

theorem Grouped.place (h : Grouped s g archive done) (htodo : g.todo = ev :: rest)
    (hhit : g.cache.lookup (monthKey ev.emittedAt) = some name) :
    Grouped s (g.place ev rest name) archive (done ++ [ev]) := by
  obtain ⟨hchosen,e,he,hmonth⟩ := h.plan _ _ hhit
  refine h.put htodo (fun _ => rfl) (fun _ _ => Iff.rfl) (fun n => ?_) hchosen rfl rfl fun month => ?_
  · refine ⟨.inl,fun hs => hs.elim id fun hnew => ?_⟩
    exact (h.sealed n).mpr (.inr ⟨⟨e,he,hmonth ▸ hnew.1⟩,hnew.2⟩)
  · show g.cache.lookup month = _
    by_cases hm : month = monthKey ev.emittedAt
    · rw [hm,hhit,Option.some_or]
    · rw [if_neg hm,Option.or_none]

theorem Grouped.fresh_sealed (h : Grouped s g archive done) (hpick : Picking s g latest) :
    Sealed archive latest ↔ Sealed s.archive latest := by
  rw [h.sealed]
  refine ⟨fun hs => hs.resolve_right ?_,.inl⟩
  rintro ⟨⟨e,he,hsplit⟩,-⟩
  obtain ⟨-,hre,hstart⟩ := mem_bucketsOfMonth.mp (latest_spec (s.split_latest hsplit).1).1
  obtain ⟨t,ht⟩ := Grouping.month_key hpick.todo
  have hlatest := hpick.latest
  rw [ht] at hlatest
  obtain ⟨-,-,hstart'⟩ := mem_bucketsOfMonth.mp (latest_spec hlatest).1
  have hplanned := h.planned e he
  rw [month_of_bucket hre hstart hstart',← ht,hpick.fresh] at hplanned
  cases hplanned

end Grouping

end WickedBus
