import WickedBus.Foundation.LastWins
import WickedBus.CrossTier

namespace WickedBus

open LastWins
open WickedBus.Filter (Text)

def warmRows (archive : Archive) : Set EventRow := {x | ∃ name ∈ listBuckets archive, Holds archive name x}

def liveRows (db : Db) : Set EventRow := {x | x ∈ db.events}

def storedAfter (db : Db) (archive : Archive) (lastEventId : ℤ) (filter : QueryFilter) : Set EventRow :=
  {x ∈ liveRows db ∪ warmRows archive | whereClause filter x = true ∧ lastEventId < x.eventId}

def spillRows (db : Db) (archive : Archive) (lastEventId : ℤ) (filter : QueryFilter) : List EventRow :=
  (bucketsCoveringRange archive lastEventId (gapEnd (probeLiveMin db filter))).flatMap
    (bucketMatches archive lastEventId filter)

section Merge

variable {db : Db} {archive : Archive} {lastEventId : ℤ} {filter : QueryFilter} {n : ℕ}
variable {ws ls : List EventRow}

theorem dedupePreferLive_distinct (ws ls : List EventRow) :
    (dedupePreferLive ws ls).Pairwise (fun a b => a.eventId ≠ b.eventId) := by
  rw [dedupePreferLive,← List.foldl_append]
  exact foldl_set_distinct _

theorem dedupe_sorted (ws ls : List EventRow) :
    ((dedupePreferLive ws ls).insertionSort (fun a b => a.eventId ≤ b.eventId)).Pairwise
      (fun a b => a.eventId < b.eventId) := by
  have htotal : Std.Total (fun a b : EventRow => a.eventId ≤ b.eventId) := ⟨fun a b => le_total _ _⟩
  have htrans : IsTrans EventRow (fun a b => a.eventId ≤ b.eventId) := ⟨fun _ _ _ => le_trans⟩
  have hle := List.pairwise_insertionSort (fun a b : EventRow => a.eventId ≤ b.eventId)
    (dedupePreferLive ws ls)
  have hne := ((List.perm_insertionSort (fun a b : EventRow => a.eventId ≤ b.eventId)
    (dedupePreferLive ws ls)).pairwise_iff (fun h => Ne.symm h)).mpr (dedupePreferLive_distinct ws ls)
  exact (hle.and hne).imp fun h => lt_of_le_of_ne h.1 h.2

theorem dedupe_firstOf (ws ls : List EventRow) (n : ℕ) :
    FirstOf EventRow.eventId {x | LastCopy EventRow.eventId (ws ++ ls) x} n
      (((dedupePreferLive ws ls).insertionSort (fun a b => a.eventId ≤ b.eventId)).take n) :=
  .of_take (dedupe_sorted ws ls) fun _ => (List.mem_insertionSort _).trans mem_dedupePreferLive

theorem mergeTiers_full (h : n ≤ ws.length) :
    FirstOf EventRow.eventId {x | LastCopy EventRow.eventId ws x} n
      (mergeTiers db lastEventId filter n ws) := by
  have hfirst := dedupe_firstOf ws [] n
  rw [List.append_nil] at hfirst
  unfold mergeTiers
  rw [Nat.sub_eq_zero_of_le h]
  exact hfirst

theorem mergeTiers_short (h : ws.length < n) :
    FirstOf EventRow.eventId
      {x | LastCopy EventRow.eventId (ws ++ (matchesAfter lastEventId filter db.events).take n) x} n
      (mergeTiers db lastEventId filter n ws) := by
  unfold mergeTiers
  simp only [Nat.sub_pos_of_lt h,if_true,Nat.sub_add_cancel h.le]
  exact dedupe_firstOf ws _ n

end Merge

structure DesignedLayout (db : Db) (archive : Archive) : Prop where
  liveSuffix : ∀ x ∈ liveRows db ∪ warmRows archive, ∀ y ∈ liveRows db, y.eventId ≤ x.eventId →
    ∃ e ∈ liveRows db, e.eventId = x.eventId
  warmPrefix : ∀ x ∈ liveRows db ∪ warmRows archive, ∀ y ∈ warmRows archive, x.eventId ≤ y.eventId →
    ∃ e ∈ warmRows archive, e.eventId = x.eventId
  agree : ∀ x ∈ liveRows db ∪ warmRows archive, ∀ y ∈ liveRows db ∪ warmRows archive,
    x.eventId = y.eventId → x = y
  buckets : ∀ n ∈ listBuckets archive, ∀ n' ∈ listBuckets archive, n < n' → ∀ e e',
    Holds archive n e → Holds archive n' e' → e.eventId < e'.eventId
  readable : Readable archive
  ranges : ∀ b ∈ archive, bucketFileRe b.name = true → ∃ m, b.bucketMeta = some m ∧
    m.minEventId = b.rows.minKey? ∧ m.maxEventId = b.rows.maxKey?
  safe : ∀ x ∈ warmRows archive, x.eventId ≤ maxSafeInteger

namespace DesignedLayout

variable {db : Db} {archive : Archive} {lastEventId : ℤ} {filter : QueryFilter} {n : ℕ}

theorem live_of_le (h : DesignedLayout db archive) {x : EventRow} (hx : x ∈ warmRows archive) {y : EventRow}
    (hy : y ∈ liveRows db) (hle : y.eventId ≤ x.eventId) : x ∈ liveRows db := by
  obtain ⟨e,he,hid⟩ := h.liveSuffix x (.inr hx) y hy hle
  rwa [h.agree x (.inr hx) e (.inl he) hid.symm]

theorem covering_iff (h : DesignedLayout db archive) {name : Text} (hname : name ∈ listBuckets archive)
    {x : EventRow} (hx : Holds archive name x) {gapStart gapStop : ℤ} (hstart : gapStart ≤ x.eventId) :
    (∃ c ∈ bucketsCoveringRange archive gapStart gapStop, c.filepath = name) ↔
      ∃ e, Holds archive name e ∧ e.eventId ≤ gapStop := by
  obtain ⟨⟨b,hb,rfl⟩,hre⟩ := mem_listBuckets.mp hname
  have hholds : ∀ e, Holds archive b.name e ↔ e ∈ b.rows := by
    intro e
    constructor
    · rintro ⟨c,hc,hcb,he⟩
      rwa [← KeyedTable.eq_of_key hc hb hcb]
    · exact fun he => ⟨b,hb,rfl,he⟩
  obtain ⟨m,hm,hmin,hmax⟩ := h.ranges b hb hre
  have hmeta : getBucketMeta archive b.name = some m := by
    rw [getBucketMeta,KeyedTable.get?_eq_some.mpr ⟨hb,rfl⟩]
    exact hm
  have hxb := (hholds x).mp hx
  obtain ⟨lo,hlo⟩ : ∃ lo, b.rows.minKey? = some lo :=
    Option.ne_none_iff_exists'.mp fun hnone => KeyedTable.minKey?_eq_none.mp hnone x hxb
  obtain ⟨⟨first,hfirst,hfirstId⟩,hleast⟩ := KeyedTable.minKey?_eq_some.mp hlo
  have htop : gapStart ≤ m.effectiveMax := by
    refine hstart.trans ?_
    unfold BucketMeta.effectiveMax
    split
    · rename_i hi _ hhi
      rw [hhi] at hmax
      exact (KeyedTable.maxKey?_eq_some.mp hmax.symm).2 x hxb
    · exact h.safe x ⟨b.name,hname,hx⟩
  have hcover : coveringBucket archive gapStart gapStop b.name =
      if lo ≤ gapStop then some ⟨b.name,some (lo,m.effectiveMax),m.sealedAt.isNone⟩ else none := by
    simp only [coveringBucket,hmeta,hmin.trans hlo,htop,true_and]
  constructor
  · rintro ⟨c,hc,hcb⟩
    obtain ⟨name',-,hc'⟩ := List.mem_filterMap.mp hc
    rw [← coveringBucket_filepath hc',hcb,hcover] at hc'
    split_ifs at hc' with hle
    exact ⟨first,(hholds first).mpr hfirst,hfirstId ▸ hle⟩
  · rintro ⟨e,he,hle⟩
    have hlo' : lo ≤ gapStop := (hleast e ((hholds e).mp he)).trans hle
    exact ⟨_,List.mem_filterMap.mpr ⟨b.name,hname,hcover.trans (if_pos hlo')⟩,rfl⟩

theorem warm_reached (h : DesignedLayout db archive) {x : EventRow} (hx : x ∈ warmRows archive)
    (hwhere : whereClause filter x = true) (hlt : lastEventId < x.eventId) :
    x ∈ spillRows db archive lastEventId filter ∨ x ∈ liveRows db := by
  obtain ⟨name,hname,hholds⟩ := hx
  by_cases hle : x.eventId ≤ gapEnd (probeLiveMin db filter)
  · obtain ⟨c,hc,rfl⟩ := (h.covering_iff hname hholds hlt.le).mpr ⟨x,hholds,hle⟩
    exact .inl (List.mem_flatMap.mpr ⟨c,hc,mem_bucketMatches.mpr ⟨hholds,hwhere,hlt⟩⟩)
  · cases hm : probeLiveMin db filter with
    | none =>
      rw [hm] at hle
      exact absurd (h.safe x ⟨name,hname,hholds⟩) hle
    | some m =>
      rw [hm] at hle
      obtain ⟨⟨y,hy,rfl⟩,-⟩ := KeyedTable.minKey?_eq_some.mp hm
      refine .inr (h.live_of_le ⟨name,hname,hholds⟩ (KeyedTable.mem_filter.mp hy).1 ?_)
      exact Int.lt_add_one_iff.mp (Int.lt_add_of_sub_right_lt (not_le.mp hle))

theorem live_below_spill (h : DesignedLayout db archive) {y z : EventRow}
    (hy : y ∈ matchesAfter lastEventId filter db.events) (hz : z ∈ spillRows db archive lastEventId filter)
    (hle : y.eventId ≤ z.eventId) : y ∈ spillRows db archive lastEventId filter := by
  obtain ⟨hlive,hwhere,hlt⟩ := mem_matchesAfter.mp hy
  obtain ⟨c,hc,hzc⟩ := List.mem_flatMap.mp hz
  obtain ⟨hzholds,-,hzlt⟩ := mem_bucketMatches.mp hzc
  have hcname := covering_filepath hc
  obtain ⟨e,⟨name,hname,hholds⟩,hid⟩ := h.warmPrefix y (.inl hlive) z ⟨_,hcname,hzholds⟩ hle
  rw [h.agree e (.inr ⟨name,hname,hholds⟩) y (.inl hlive) hid] at hholds
  have hreach : ∃ e, Holds archive name e ∧ e.eventId ≤ gapEnd (probeLiveMin db filter) := by
    obtain ⟨e,he,hstop⟩ := (h.covering_iff hcname hzholds hzlt.le).mp ⟨c,hc,rfl⟩
    rcases lt_trichotomy name c.filepath with hbefore | rfl | hafter
    · exact ⟨y,hholds,(h.buckets _ hname _ hcname hbefore y e hholds he).le.trans hstop⟩
    · exact ⟨e,he,hstop⟩
    · exact absurd (h.buckets _ hcname _ hname hafter z y hzholds hholds) (not_lt.mpr hle)
  obtain ⟨d,hd,rfl⟩ := (h.covering_iff hname hholds hlt.le).mpr hreach
  exact List.mem_flatMap.mpr ⟨d,hd,mem_bucketMatches.mpr ⟨hholds,hwhere,hlt⟩⟩

theorem mem_storedAfter (h : DesignedLayout db archive) {x : EventRow} :
    x ∈ storedAfter db archive lastEventId filter ↔
      x ∈ spillRows db archive lastEventId filter ∨ x ∈ matchesAfter lastEventId filter db.events := by
  constructor
  · rintro ⟨hx | hx,hwhere,hlt⟩
    · exact .inr (mem_matchesAfter.mpr ⟨hx,hwhere,hlt⟩)
    · exact (h.warm_reached hx hwhere hlt).imp_right fun hlive => mem_matchesAfter.mpr ⟨hlive,hwhere,hlt⟩
  · rintro (hx | hx)
    · obtain ⟨c,hc,hxc⟩ := List.mem_flatMap.mp hx
      obtain ⟨hholds,hrest⟩ := mem_bucketMatches.mp hxc
      exact ⟨.inr ⟨_,covering_filepath hc,hholds⟩,hrest⟩
    · obtain ⟨hlive,hrest⟩ := mem_matchesAfter.mp hx
      exact ⟨.inl hlive,hrest⟩

theorem fast_first (h : DesignedLayout db archive) {m : ℤ} (hm : probeLiveMin db filter = some m)
    (hle : m ≤ lastEventId) :
    FirstOf EventRow.eventId (storedAfter db archive lastEventId filter) n
      (queryLive db lastEventId filter n) := by
  refine FirstOf.of_take (matchesAfter_sorted _ _ _) fun x => ?_
  rw [mem_matchesAfter]
  constructor
  · rintro ⟨hx,hrest⟩
    exact ⟨.inl hx,hrest⟩
  · rintro ⟨hx | hx,hwhere,hlt⟩
    · exact ⟨hx,hwhere,hlt⟩
    · obtain ⟨⟨y,hy,rfl⟩,-⟩ := KeyedTable.minKey?_eq_some.mp hm
      exact ⟨h.live_of_le hx (KeyedTable.mem_filter.mp hy).1 (hle.trans hlt.le),hwhere,hlt⟩

theorem merge_full (h : DesignedLayout db archive)
    (hlen : n ≤ (spillRows db archive lastEventId filter).length) :
    FirstOf EventRow.eventId (storedAfter db archive lastEventId filter) n
      (mergeTiers db lastEventId filter n ((spillRows db archive lastEventId filter).take n)) := by
  have hsorted : (spillRows db archive lastEventId filter).Pairwise (fun a b => a.eventId < b.eventId) :=
    covering_matches_sorted h.buckets
  have hsub := List.take_sublist n (spillRows db archive lastEventId filter)
  have htake : ((spillRows db archive lastEventId filter).take n).length = n := by
    rw [List.length_take,Nat.min_eq_left hlen]
  have hcopies : ∀ z ∈ (spillRows db archive lastEventId filter).take n,
      LastCopy EventRow.eventId ((spillRows db archive lastEventId filter).take n) z := fun z hz =>
    @LastCopy.of_distinct _ _ EventRow.eventId _ _ [] ((hsorted.sublist hsub).imp ne_of_lt) hz
  have hmerged := @mergeTiers_full db lastEventId filter n
    ((spillRows db archive lastEventId filter).take n) htake.ge
  refine hmerged.of_subset (fun x hx => h.mem_storedAfter.mpr (.inl (hsub.subset hx.mem))) fun y hy hnot => ?_
  refine hmerged.below (hsorted.sublist hsub) hcopies htake fun z hz => ?_
  have hout : y ∉ (spillRows db archive lastEventId filter).take n := fun hmem => hnot (hcopies y hmem)
  have hspilled : y ∈ spillRows db archive lastEventId filter → z.eventId < y.eventId := by
    intro hmem
    rw [← List.take_append_drop n (spillRows db archive lastEventId filter)] at hmem hsorted
    exact (List.pairwise_append.mp hsorted).2.2 z hz y ((List.mem_append.mp hmem).resolve_left hout)
  rcases h.mem_storedAfter.mp hy with hmem | hmem
  · exact hspilled hmem
  · exact not_le.mp fun hle => absurd (hspilled (h.live_below_spill hmem (hsub.subset hz) hle)) (not_lt.mpr hle)

theorem merge_short (h : DesignedLayout db archive)
    (hlen : (spillRows db archive lastEventId filter).length < n) :
    FirstOf EventRow.eventId (storedAfter db archive lastEventId filter) n
      (mergeTiers db lastEventId filter n ((spillRows db archive lastEventId filter).take n)) := by
  rw [List.take_of_length_le hlen.le]
  have hlive := @matchesAfter_sorted lastEventId filter db.events
  have htake := List.take_sublist n (matchesAfter lastEventId filter db.events)
  have hcopies : ∀ z ∈ (matchesAfter lastEventId filter db.events).take n, LastCopy EventRow.eventId
      (spillRows db archive lastEventId filter ++ (matchesAfter lastEventId filter db.events).take n) z :=
    fun z hz => LastCopy.of_distinct ((hlive.sublist htake).imp ne_of_lt) hz
  have hstored : ∀ x ∈ spillRows db archive lastEventId filter ++
      (matchesAfter lastEventId filter db.events).take n, x ∈ storedAfter db archive lastEventId filter := by
    intro x hx
    exact h.mem_storedAfter.mpr ((List.mem_append.mp hx).imp_right fun hx => htake.subset hx)
  have hmerged := @mergeTiers_short db lastEventId filter n (spillRows db archive lastEventId filter) hlen
  refine hmerged.of_subset (fun x hx => hstored x hx.mem) fun y hy hnot => ?_
  have hout : y ∉ spillRows db archive lastEventId filter ++
      (matchesAfter lastEventId filter db.events).take n := by
    intro hmem
    obtain ⟨z,hz,hid⟩ := @exists_lastCopy _ _ EventRow.eventId _ _ hmem
    rw [h.agree z (hstored z hz.mem).1 y hy.1 hid] at hz
    exact hnot hz
  rw [List.mem_append,not_or] at hout
  have hmem : y ∈ matchesAfter lastEventId filter db.events := (h.mem_storedAfter.mp hy).resolve_left hout.1
  rw [← List.take_append_drop n (matchesAfter lastEventId filter db.events)] at hmem hlive
  have hdrop := (List.mem_append.mp hmem).resolve_left hout.2
  refine hmerged.below (hlive.sublist (List.sublist_append_left _ _)) hcopies ?_ fun z hz => ?_
  · have := List.length_pos_of_mem hdrop
    rw [List.length_drop] at this
    rw [List.length_take]
    omega
  · exact (List.pairwise_append.mp hlive).2.2 z hz y hdrop

theorem pollResolve_exact (h : DesignedLayout db archive) (hlast : 0 ≤ lastEventId)
    (hceil : (bucketsCoveringRange archive lastEventId (gapEnd (probeLiveMin db filter))).length ≤
      attachCeiling) :
    (∃ m, probeLiveMin db filter = some m ∧ bucketsCoveringRange archive lastEventId (m - 1) = [] ∧
      pollResolve db archive lastEventId filter n = .error (.cursorBehindTtlWindow lastEventId m)) ∨
    ∃ rows, pollResolve db archive lastEventId filter n = .ok rows ∧
      FirstOf EventRow.eventId (storedAfter db archive lastEventId filter) n rows := by
  by_cases hfast : ∃ m, probeLiveMin db filter = some m ∧ m ≤ lastEventId
  · obtain ⟨m,hm,hle⟩ := hfast
    exact .inr ⟨_,pollResolve_fast hlast hm hle,h.fast_first hm hle⟩
  · have hbehind : ∀ m ∈ probeLiveMin db filter, lastEventId < m := fun m hm =>
      not_le.mp fun hle => hfast ⟨m,hm,hle⟩
    by_cases hgap : ∃ m, probeLiveMin db filter = some m ∧ lastEventId + 1 < m ∧
        bucketsCoveringRange archive lastEventId (m - 1) = []
    · obtain ⟨m,hm,hlt,hnil⟩ := hgap
      exact .inl ⟨m,hm,hnil,pollResolve_gap hlast hm hlt hnil⟩
    · refine .inr ⟨_,pollResolve_behind h.readable hlast hbehind
        (fun m hm hlt hnil => hgap ⟨m,hm,hlt,hnil⟩),?_⟩
      rw [warmBatch,List.take_of_length_le hceil]
      rcases le_or_gt n (spillRows db archive lastEventId filter).length with hlen | hlen
      · exact h.merge_full hlen
      · exact h.merge_short hlen

end DesignedLayout

def overlapDb : Db where
  __ := Db.empty
  events := KeyedTable.empty.insertOrIgnore (expiredSample.row 2)
  eventSeq := 2
  events_le_seq := by
    intro e he
    rcases KeyedTable.mem_insertOrIgnore.mp he with he | ⟨rfl,-⟩
    · exact absurd he (KeyedTable.not_mem_empty e)
    · exact le_rfl

def overlapBucket : BucketFile where
  name := "bus-2026-01.db".toList
  events := some ((KeyedTable.empty.insertOrIgnore (expiredSample.row 1)).insertOrIgnore (expiredSample.row 2))
  bucketMeta := some ⟨none,some 1,some 2,none⟩

def overlapArchive : Archive := KeyedTable.empty.insertOrIgnore overlapBucket

theorem overlap_designed : DesignedLayout overlapDb overlapArchive := by
  have hlive : ∀ x ∈ liveRows overlapDb, x = expiredSample.row 2 := fun x hx => List.mem_singleton.mp hx
  have hbucket : ∀ b ∈ overlapArchive, b = overlapBucket := fun b hb => List.mem_singleton.mp hb
  have hheld : ∀ name x, Holds overlapArchive name x → name = overlapBucket.name ∧
      (x = expiredSample.row 1 ∨ x = expiredSample.row 2) := by
    rintro name x ⟨b,hb,rfl,hx⟩
    obtain rfl := hbucket b hb
    exact ⟨rfl,by simpa using List.mem_pair.mp hx⟩
  have hboth : expiredSample.row 2 ∈ warmRows overlapArchive :=
    ⟨overlapBucket.name,by decide,overlapBucket,List.mem_singleton_self _,rfl,List.mem_pair.mpr (.inr rfl)⟩
  have hfirst : expiredSample.row 1 ∈ warmRows overlapArchive :=
    ⟨overlapBucket.name,by decide,overlapBucket,List.mem_singleton_self _,rfl,List.mem_pair.mpr (.inl rfl)⟩
  have hstored : ∀ x ∈ liveRows overlapDb ∪ warmRows overlapArchive,
      x = expiredSample.row 1 ∨ x = expiredSample.row 2 := by
    rintro x (hx | ⟨name,-,hx⟩)
    · exact .inr (hlive x hx)
    · exact (hheld name x hx).2
  refine ⟨fun x hx y hy hle => ?_,fun x hx _ _ _ => ?_,fun x hx y hy hid => ?_,?_,?_,?_,?_⟩
  · obtain rfl := hlive y hy
    rcases hstored x hx with rfl | rfl
    · exact absurd hle (by decide)
    · exact ⟨_,hy,rfl⟩
  · rcases hstored x hx with rfl | rfl
    · exact ⟨_,hfirst,rfl⟩
    · exact ⟨_,hboth,rfl⟩
  · rcases hstored x hx with rfl | rfl <;> rcases hstored y hy with rfl | rfl
    · rfl
    · exact absurd hid (by decide)
    · exact absurd hid (by decide)
    · rfl
  · intro n _ n' _ hlt e e' he he'
    rw [(hheld n e he).1,(hheld n' e' he').1] at hlt
    exact absurd hlt (lt_irrefl _)
  · intro b hb _
    obtain rfl := hbucket b hb
    rfl
  · intro b hb _
    obtain rfl := hbucket b hb
    exact ⟨_,rfl,rfl,rfl⟩
  · rintro x ⟨name,-,hx⟩
    rcases (hheld name x hx).2 with rfl | rfl <;> decide

theorem pollResolve_exact_overlapping :
    (∃ m, probeLiveMin overlapDb noFilter = some m ∧ bucketsCoveringRange overlapArchive 0 (m - 1) = [] ∧
      pollResolve overlapDb overlapArchive 0 noFilter 1 = .error (.cursorBehindTtlWindow 0 m)) ∨
    ∃ rows, pollResolve overlapDb overlapArchive 0 noFilter 1 = .ok rows ∧
      FirstOf EventRow.eventId (storedAfter overlapDb overlapArchive 0 noFilter) 1 rows :=
  overlap_designed.pollResolve_exact (by decide) (by decide +kernel)

def LiveWins (db : Db) (archive : Archive) (lastEventId : ℤ) (filter : QueryFilter) (batchSize : ℕ) : Prop :=
  ∀ rows, pollResolve db archive lastEventId filter batchSize = .ok rows → ∀ r ∈ rows, ∀ e ∈ db.events,
    e.eventId = r.eventId → whereClause filter e = true → r = e

structure StaleBatch (db : Db) (archive : Archive) (lastEventId : ℤ) (filter : QueryFilter) (batchSize : ℕ) :
    Prop where
  position : 0 ≤ lastEventId
  behind : ∀ m ∈ probeLiveMin db filter, lastEventId < m
  full : (warmBatch db archive lastEventId filter batchSize).length = batchSize
  stale : ∃ r, LastCopy EventRow.eventId (warmBatch db archive lastEventId filter batchSize) r ∧
    ∃ e ∈ db.events, e.eventId = r.eventId ∧ whereClause filter e = true ∧ r ≠ e

section LiveWins

variable {db : Db} {archive : Archive} {lastEventId : ℤ} {filter : QueryFilter} {n : ℕ}

theorem mem_warmBatch {r : EventRow} (h : r ∈ warmBatch db archive lastEventId filter n) :
    lastEventId < r.eventId ∧ bucketsCoveringRange archive lastEventId (gapEnd (probeLiveMin db filter)) ≠ [] := by
  obtain ⟨c,hc,hr⟩ := List.mem_flatMap.mp (List.mem_of_mem_take h)
  exact ⟨(mem_bucketMatches.mp hr).2.2,List.ne_nil_of_mem (List.mem_of_mem_take hc)⟩

theorem StaleBatch.not_liveWins (h : StaleBatch db archive lastEventId filter n) (hread : Readable archive) :
    ¬ LiveWins db archive lastEventId filter n := by
  obtain ⟨r,hr,e,he,hid,hwhere,hne⟩ := h.stale
  have hgap : ∀ m ∈ probeLiveMin db filter, lastEventId + 1 < m →
      bucketsCoveringRange archive lastEventId (m - 1) ≠ [] := by
    intro m hm _ hnil
    have hcover := (mem_warmBatch hr.mem).2
    rw [Option.mem_def.mp hm] at hcover
    exact hcover hnil
  have hmem : r ∈ mergeTiers db lastEventId filter n (warmBatch db archive lastEventId filter n) :=
    (mergeTiers_full h.full.ge).mem_of_bound (fun x hx => LastCopy.mem hx) h.full.le hr
  exact fun hwins => hne (hwins _ (pollResolve_behind hread h.position h.behind hgap) r hmem e he hid hwhere)

theorem mergeTiers_liveWins (hstale : (warmBatch db archive lastEventId filter n).length = n →
      ∀ r, LastCopy EventRow.eventId (warmBatch db archive lastEventId filter n) r → ∀ e ∈ db.events,
        e.eventId = r.eventId → whereClause filter e = true → r = e)
    {r e : EventRow}
    (hr : r ∈ mergeTiers db lastEventId filter n (warmBatch db archive lastEventId filter n))
    (he : e ∈ db.events) (hid : e.eventId = r.eventId) (hwhere : whereClause filter e = true) : r = e := by
  rcases lt_or_ge (warmBatch db archive lastEventId filter n).length n with hlen | hlen
  · have hmerged := @mergeTiers_short db lastEventId filter n _ hlen
    have hcopy := hmerged.sub r hr
    have hsorted := matchesAfter_sorted lastEventId filter db.events
    have hcopies : ∀ z ∈ (matchesAfter lastEventId filter db.events).take n, LastCopy EventRow.eventId
        (warmBatch db archive lastEventId filter n ++ (matchesAfter lastEventId filter db.events).take n) z :=
      fun z hz => LastCopy.of_distinct ((hsorted.sublist (List.take_sublist _ _)).imp ne_of_lt) hz
    have hlast : lastEventId < e.eventId := by
      rw [hid]
      rcases List.mem_append.mp hcopy.mem with hmem | hmem
      · exact (mem_warmBatch hmem).1
      · exact (mem_matchesAfter.mp (List.mem_of_mem_take hmem)).2.2
    have hmem : e ∈ matchesAfter lastEventId filter db.events := mem_matchesAfter.mpr ⟨he,hwhere,hlast⟩
    by_cases htake : e ∈ (matchesAfter lastEventId filter db.events).take n
    · exact hcopy.unique (hcopies e htake) hid.symm
    · rw [← List.take_append_drop n (matchesAfter lastEventId filter db.events)] at hmem hsorted
      have hdrop := (List.mem_append.mp hmem).resolve_left htake
      have hfull : ((matchesAfter lastEventId filter db.events).take n).length = n := by
        have := List.length_pos_of_mem hdrop
        rw [List.length_drop] at this
        rw [List.length_take]
        omega
      have hbelow := hmerged.below (hsorted.sublist (List.sublist_append_left _ _)) hcopies hfull
        fun z hz => (List.pairwise_append.mp hsorted).2.2 z hz e hdrop
      exact absurd hid (hbelow.2 r hr).ne'
  · have hfull : (warmBatch db archive lastEventId filter n).length = n :=
      (List.length_take_le _ _).antisymm hlen
    exact hstale hfull r ((mergeTiers_full hlen).sub r hr) e he hid hwhere

theorem liveWins_iff (hread : Readable archive) :
    LiveWins db archive lastEventId filter n ↔ ¬ StaleBatch db archive lastEventId filter n := by
  refine ⟨fun hwins hstale => hstale.not_liveWins hread hwins,fun hfresh rows hrows r hr e he hid hwhere => ?_⟩
  rcases lt_or_ge lastEventId 0 with hneg | hlast
  · rw [pollResolve,if_pos hneg] at hrows
    cases hrows
  by_cases hfast : ∃ m, probeLiveMin db filter = some m ∧ m ≤ lastEventId
  · obtain ⟨m,hm,hle⟩ := hfast
    rw [pollResolve_fast hlast hm hle,Except.ok.injEq] at hrows
    subst hrows
    exact KeyedTable.eq_of_key (mem_matchesAfter.mp (List.mem_of_mem_take hr)).1 he hid.symm
  have hbehind : ∀ m ∈ probeLiveMin db filter, lastEventId < m := fun m hm =>
    not_le.mp fun hle => hfast ⟨m,hm,hle⟩
  by_cases hgap : ∃ m, probeLiveMin db filter = some m ∧ lastEventId + 1 < m ∧
      bucketsCoveringRange archive lastEventId (m - 1) = []
  · obtain ⟨m,hm,hlt,hnil⟩ := hgap
    rw [pollResolve_gap hlast hm hlt hnil] at hrows
    cases hrows
  · rw [pollResolve_behind hread hlast hbehind (fun m hm hlt hnil => hgap ⟨m,hm,hlt,hnil⟩),
      Except.ok.injEq] at hrows
    subst hrows
    refine mergeTiers_liveWins (fun hfull x hx y hy hxy hw => ?_) hr he hid hwhere
    by_contra hne
    exact hfresh ⟨hlast,hbehind,hfull,x,hx,y,hy,hxy,hw,hne⟩

end LiveWins

def renamedRow : EventRow :=
  { expiredSample.row 2 with
    idempotencyKey := (expiredSample.row 2).idempotencyKey ++ "#dedup-expired:2:u" }

def renamedDb : Db where
  __ := Db.empty
  events := KeyedTable.empty.insertOrIgnore renamedRow
  eventSeq := 2
  events_le_seq := by
    intro e he
    rcases KeyedTable.mem_insertOrIgnore.mp he with he | ⟨rfl,-⟩
    · exact absurd he (KeyedTable.not_mem_empty e)
    · exact le_rfl

theorem warm_copy_returned :
    ¬ ∀ db archive lastEventId filter n, Readable archive → LiveWins db archive lastEventId filter n := by
  intro hall
  have hrows : pollResolve renamedDb overlapArchive 0 noFilter 2 =
      .ok [expiredSample.row 1,expiredSample.row 2] := by decide +kernel
  have hwins := hall renamedDb overlapArchive 0 noFilter 2 overlap_designed.readable _ hrows
    (expiredSample.row 2) (by simp) renamedRow (List.mem_singleton_self _) rfl rfl
  exact absurd hwins (by decide +kernel)

theorem liveWins_with_room : LiveWins renamedDb overlapArchive 0 noFilter 3 :=
  (liveWins_iff overlap_designed.readable).mpr fun h => absurd h.full (by decide +kernel)

end WickedBus
