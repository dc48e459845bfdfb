import WickedBus.Foundation.FirstOf
import WickedBus.Foundation.LastWins
import WickedBus.Occupied
import WickedBus.Query

namespace WickedBus

open GuardedRun
open WickedBus.Filter (Text)

def World.warm (w : World) : Set EventRow :=
  {x | ∃ name ∈ listBuckets w.archive, ∃ e, Holds w.archive name e ∧ e.fixedPart = x}

def World.after (w : World) (lastEventId : ℤ) (filter : QueryFilter) : Set EventRow :=
  {x ∈ w.bus.live ∪ w.warm | whereClause filter x = true ∧ lastEventId < x.eventId}

def Exact (w : World) (lastEventId : ℤ) (filter : QueryFilter) (batchSize : ℕ) : Prop :=
  ∃ rows, pollResolve w.bus w.archive lastEventId filter batchSize = .ok rows ∧
    FirstOf EventRow.eventId (w.after lastEventId filter) batchSize (rows.map EventRow.fixedPart)

def FalseGap (w : World) (lastEventId : ℤ) (filter : QueryFilter) : Prop :=
  ∃ m, probeLiveMin w.bus filter = some m ∧ lastEventId + 1 < m ∧
    bucketsCoveringRange w.archive lastEventId (m - 1) = []

def warmBatch (db : Db) (archive : Archive) (lastEventId : ℤ) (filter : QueryFilter) (batchSize : ℕ) :
    List EventRow :=
  (((bucketsCoveringRange archive lastEventId (gapEnd (probeLiveMin db filter))).take attachCeiling).flatMap
    (bucketMatches archive lastEventId filter)).take batchSize

def Readable (archive : Archive) : Prop :=
  ∀ b ∈ archive, bucketFileRe b.name = true → b.events.isSome = true

structure Layout (w : World) : Prop where
  tiers : ∀ x ∈ w.warm, ∀ y ∈ w.bus.live, x.eventId < y.eventId
  buckets : ∀ n ∈ listBuckets w.archive, ∀ n' ∈ listBuckets w.archive, n < n' → ∀ e e',
    Holds w.archive n e → Holds w.archive n' e' → e.eventId < e'.eventId

section Covering

variable {archive : Archive} {gapStart gapStop : ℤ}

theorem coveringBucket_filepath {name : Text} {c : CoveringBucket}
    (h : coveringBucket archive gapStart gapStop name = some c) : c.filepath = name := by
  unfold coveringBucket at h
  repeat' split at h
  all_goals cases h
  all_goals rfl

theorem covering_filepath {c : CoveringBucket} (h : c ∈ bucketsCoveringRange archive gapStart gapStop) :
    c.filepath ∈ listBuckets archive := by
  obtain ⟨name,hname,hc⟩ := List.mem_filterMap.mp h
  rw [coveringBucket_filepath hc]
  exact hname

theorem covering_sorted : (bucketsCoveringRange archive gapStart gapStop).Pairwise
    (fun b c => b.filepath < c.filepath) := by
  have hnames : (listBuckets archive).Pairwise (· < ·) :=
    (List.pairwise_map.mpr archive.sorted).filter _
  refine List.pairwise_filterMap.mpr (hnames.imp ?_)
  intro n n' hlt c hc c' hc'
  rw [coveringBucket_filepath hc,coveringBucket_filepath hc']
  exact hlt

theorem covering_length : (bucketsCoveringRange archive gapStart gapStop).length ≤
    (listBuckets archive).length := List.length_filterMap_le _ _

theorem mem_bucketMatches {lastEventId : ℤ} {filter : QueryFilter} {b : CoveringBucket} {e : EventRow} :
    e ∈ bucketMatches archive lastEventId filter b ↔
      Holds archive b.filepath e ∧ whereClause filter e = true ∧ lastEventId < e.eventId := by
  unfold bucketMatches
  constructor
  · intro h
    split at h
    · cases h
    · rename_i t ht
      obtain ⟨f,hf,hft⟩ := Option.bind_eq_some_iff.mp ht
      obtain ⟨hmem,hname⟩ := KeyedTable.get?_eq_some.mp hf
      obtain ⟨he,hrest⟩ := mem_matchesAfter.mp h
      exact ⟨⟨f,hmem,hname,by rw [BucketFile.rows,hft]; exact he⟩,hrest⟩
  · rintro ⟨⟨f,hmem,hname,he⟩,hrest⟩
    rw [KeyedTable.get?_eq_some.mpr ⟨hmem,hname⟩,Option.bind_some]
    cases hev : f.events with
    | none => simp [BucketFile.rows,hev] at he
    | some t => exact mem_matchesAfter.mpr ⟨by rwa [BucketFile.rows,hev] at he,hrest⟩

theorem bucketMatches_sorted (lastEventId : ℤ) (filter : QueryFilter) (b : CoveringBucket) :
    (bucketMatches archive lastEventId filter b).Pairwise (fun x y => x.eventId < y.eventId) := by
  unfold bucketMatches
  split
  · exact .nil
  · exact matchesAfter_sorted _ _ _

theorem covering_matches_sorted {lastEventId : ℤ} {filter : QueryFilter}
    (h : ∀ n ∈ listBuckets archive, ∀ n' ∈ listBuckets archive, n < n' → ∀ e e',
      Holds archive n e → Holds archive n' e' → e.eventId < e'.eventId) :
    ((bucketsCoveringRange archive gapStart gapStop).flatMap
      (bucketMatches archive lastEventId filter)).Pairwise (fun a b => a.eventId < b.eventId) := by
  refine List.pairwise_flatMap.mpr ⟨fun c _ => bucketMatches_sorted _ _ c,?_⟩
  refine covering_sorted.imp_of_mem ?_
  intro c c' hc hc' hlt e he e' he'
  exact h _ (covering_filepath hc) _ (covering_filepath hc') hlt e e' (mem_bucketMatches.mp he).1
    (mem_bucketMatches.mp he').1

theorem flatMap_head_first {α β : Type} {f : α → List β} {lt : α → α → Prop} {as : List α} {y : β}
    (hs : as.Pairwise lt) (hy : (as.flatMap f).head? = some y) {a : α} (ha : a ∈ as) (hne : f a ≠ []) :
    ∃ b ∈ as, y ∈ f b ∧ (b = a ∨ lt b a) := by
  induction as with
  | nil => cases ha
  | cons c cs ih =>
    obtain ⟨hc,hcs⟩ := List.pairwise_cons.mp hs
    rw [List.flatMap_cons] at hy
    cases hf : f c with
    | nil =>
      rw [hf,List.nil_append] at hy
      rcases List.mem_cons.mp ha with rfl | ha
      · exact absurd hf hne
      · obtain ⟨b,hb,hrest⟩ := ih hcs hy ha
        exact ⟨b,List.mem_cons_of_mem _ hb,hrest⟩
    | cons z zs =>
      rw [hf] at hy
      cases hy
      refine ⟨c,List.mem_cons_self,by rw [hf]; exact List.mem_cons_self,?_⟩
      rcases List.mem_cons.mp ha with rfl | ha
      · exact .inl rfl
      · exact .inr (hc a ha)

end Covering

section Resolve

variable {db : Db} {archive : Archive} {lastEventId : ℤ} {filter : QueryFilter} {n : ℕ}

theorem pollResolve_fast (hlast : 0 ≤ lastEventId) {m : ℤ} (hm : probeLiveMin db filter = some m)
    (hle : m ≤ lastEventId) :
    pollResolve db archive lastEventId filter n = .ok (queryLive db lastEventId filter n) := by
  unfold pollResolve
  rw [if_neg (not_lt.mpr hlast),hm,if_pos (by simpa using hle)]

theorem pollResolve_gap (hlast : 0 ≤ lastEventId) {m : ℤ} (hm : probeLiveMin db filter = some m)
    (hlt : lastEventId + 1 < m) (hnil : bucketsCoveringRange archive lastEventId (m - 1) = []) :
    pollResolve db archive lastEventId filter n = .error (.cursorBehindTtlWindow lastEventId m) := by
  have hahead : ¬ m ≤ lastEventId := by omega
  simp only [pollResolve,hm,gapEnd,hnil,if_neg (not_lt.mpr hlast),Option.any_some,decide_eq_true_eq,
    if_neg hahead,if_pos hlt]

theorem pollResolve_behind (hread : Readable archive) (hlast : 0 ≤ lastEventId)
    (hbehind : ∀ m ∈ probeLiveMin db filter, lastEventId < m)
    (hgap : ∀ m ∈ probeLiveMin db filter, lastEventId + 1 < m →
      bucketsCoveringRange archive lastEventId (m - 1) ≠ []) :
    pollResolve db archive lastEventId filter n =
      .ok (mergeTiers db lastEventId filter n (warmBatch db archive lastEventId filter n)) := by
  have hfast : ((probeLiveMin db filter).any (fun m => decide (m ≤ lastEventId))) = false := by
    rw [Option.any_eq_false]
    exact fun m hm => by simpa using hbehind m hm
  unfold pollResolve warmBatch
  rw [if_neg (not_lt.mpr hlast),hfast,if_neg Bool.false_ne_true]
  cases hb : bucketsCoveringRange archive lastEventId (gapEnd (probeLiveMin db filter)) with
  | nil =>
    cases hm : probeLiveMin db filter with
    | none =>
      have hnone : matchesAfter lastEventId filter db.events = [] := by
        refine List.eq_nil_iff_forall_not_mem.mpr fun e he => ?_
        obtain ⟨hmem,hwhere,-⟩ := mem_matchesAfter.mp he
        exact KeyedTable.minKey?_eq_none.mp hm e (KeyedTable.mem_filter.mpr ⟨hmem,hwhere⟩)
      simp [mergeTiers,queryLive,hnone,dedupePreferLive]
    | some m =>
      rw [hm] at hb
      have hnot : ¬ lastEventId + 1 < m := fun hlt => hgap m hm hlt hb
      simp [if_neg hnot]
  | cons b bs =>
    have hopen : ∀ c ∈ (b :: bs).take attachCeiling,
        ((archive.get? c.filepath).bind BucketFile.events).isSome = true := by
      intro c hc
      have hcover := List.mem_of_mem_take hc
      rw [← hb] at hcover
      obtain ⟨⟨f,hf,hname⟩,hre⟩ := mem_listBuckets.mp (covering_filepath hcover)
      rw [KeyedTable.get?_eq_some.mpr ⟨hf,hname⟩]
      exact hread f hf (hname ▸ hre)
    have hwarm : collectWarm archive lastEventId filter n ((b :: bs).take attachCeiling) [] =
        .ok ((((b :: bs).take attachCeiling).flatMap (bucketMatches archive lastEventId filter)).take n) :=
      collectWarm_take hopen (by simp)
    simp only [hwarm]

theorem pollResolve_spill (hlast : 0 ≤ lastEventId)
    (hbehind : ∀ m ∈ probeLiveMin db filter, lastEventId < m)
    (hgap : ∀ m ∈ probeLiveMin db filter, lastEventId + 1 < m →
      bucketsCoveringRange archive lastEventId (m - 1) ≠ [])
    (hceil : (listBuckets archive).length ≤ attachCeiling)
    (hread : ∀ b ∈ archive, b.events.isSome = true) :
    pollResolve db archive lastEventId filter n =
      .ok (mergeTiers db lastEventId filter n
        (((bucketsCoveringRange archive lastEventId (gapEnd (probeLiveMin db filter))).flatMap
          (bucketMatches archive lastEventId filter)).take n)) := by
  rw [pollResolve_behind (fun b hb _ => hread b hb) hlast hbehind hgap,warmBatch,
    List.take_of_length_le (covering_length.trans hceil)]

end Resolve

section Merge

variable {db : Db} {lastEventId : ℤ} {filter : QueryFilter} {n : ℕ} {ws ls : List EventRow} {x : EventRow}

theorem mem_dedupePreferLive :
    x ∈ dedupePreferLive ws ls ↔ LastWins.LastCopy EventRow.eventId (ws ++ ls) x := by
  rw [dedupePreferLive,← List.foldl_append]
  exact LastWins.mem_foldl_set

theorem mem_mergeTiers (h : x ∈ mergeTiers db lastEventId filter n ws) :
    x ∈ ws ++ matchesAfter lastEventId filter db.events := by
  have hmem := (mem_dedupePreferLive.mp ((List.mem_insertionSort _).mp (List.mem_of_mem_take h))).mem
  rcases List.mem_append.mp hmem with hmem | hmem
  · exact List.mem_append_left _ hmem
  · split_ifs at hmem
    · exact List.mem_append_right _ (List.mem_of_mem_take hmem)
    · cases hmem

end Merge

section Tiers

variable {w : World} {lastEventId : ℤ} {filter : QueryFilter} {n : ℕ}

theorem Serial.warm_not_live (h : Serial w) (hrest : w.sweepers 0 = none) {x : EventRow}
    (hx : x ∈ w.warm) {y : EventRow} (hy : y ∈ w.bus.live) : y.eventId ≠ x.eventId := by
  obtain ⟨name,-,e,he,rfl⟩ := hx
  obtain ⟨z,hz,rfl⟩ := hy
  exact h.rest hrest name e he z hz

theorem Serial.live_pos (h : Serial w) {y : EventRow} (hy : y ∈ w.bus.live) : 0 < y.eventId := by
  obtain ⟨r,hr,rfl⟩ := h.coverage.custody.prov.live hy
  exact h.positive.2 r hr

theorem Serial.held_pos (h : Serial w) {name : Text} {e : EventRow} (he : Holds w.archive name e) :
    0 < e.eventId := by
  obtain ⟨r,hr,hre⟩ := h.coverage.custody.bucketLogged name e he
  rw [← eventId_of_fixedPart hre]
  exact h.positive.2 r hr

theorem Serial.tables_at_rest (h : Serial w) (hrest : w.sweepers 0 = none) :
    ∀ b ∈ w.archive, b.events.isSome = true := by
  intro b hb
  have htables := h.tables
  rw [hrest] at htables
  exact (htables b hb).resolve_right (by simp)

theorem Serial.warm_covering (h : Serial w) (hrest : w.sweepers 0 = none) {name : Text} {e : EventRow}
    (he : Holds w.archive name e) {gapStart gapStop : ℤ} (hstart : gapStart ≤ e.eventId)
    (hstop : e.eventId ≤ gapStop) :
    ∃ c ∈ bucketsCoveringRange w.archive gapStart gapStop, c.filepath = name := by
  obtain ⟨r,hr,hre⟩ := h.coverage.custody.bucketLogged name e he
  have hid : r.eventId = e.eventId := eventId_of_fixedPart hre
  obtain ⟨name',e',he',hid',hcover⟩ := h.coverage.warmCovered r hr
    (fun y hy => by rw [hid]; exact h.rest hrest name e he y hy) ⟨name,e,he,hid.symm⟩
  obtain rfl := h.unique name' name e' e he' he (hid'.trans hid)
  exact hcover gapStart gapStop (hid ▸ hstart) (hid ▸ hstop)

theorem sorted_fixedPart {rows : List EventRow}
    (h : rows.Pairwise (fun a b => a.eventId < b.eventId)) :
    (rows.map EventRow.fixedPart).Pairwise (fun a b => a.eventId < b.eventId) :=
  List.pairwise_map.mpr h

theorem probeLiveMin_le {db : Db} {m : ℤ} (hm : probeLiveMin db filter = some m) {y : EventRow}
    (hy : y ∈ db.live) (hwhere : whereClause filter y = true) : m ≤ y.eventId := by
  obtain ⟨e,he,rfl⟩ := hy
  exact (KeyedTable.minKey?_eq_some.mp hm).2 e (KeyedTable.mem_filter.mpr ⟨he,hwhere⟩)

theorem probeLiveMin_live {db : Db} {m : ℤ} (hm : probeLiveMin db filter = some m) :
    ∃ y ∈ db.live, y.eventId = m := by
  obtain ⟨e,he,hid⟩ := (KeyedTable.minKey?_eq_some.mp hm).1
  exact ⟨e.fixedPart,mem_live (KeyedTable.mem_filter.mp he).1,hid⟩

theorem mem_matchesAfter_live {db : Db} {x : EventRow} :
    x ∈ (matchesAfter lastEventId filter db.events).map EventRow.fixedPart ↔
      x ∈ db.live ∧ whereClause filter x = true ∧ lastEventId < x.eventId := by
  constructor
  · intro h
    obtain ⟨e,he,rfl⟩ := List.mem_map.mp h
    obtain ⟨hmem,hrest⟩ := mem_matchesAfter.mp he
    exact ⟨mem_live hmem,hrest⟩
  · rintro ⟨⟨e,he,rfl⟩,hrest⟩
    exact List.mem_map_of_mem (mem_matchesAfter.mpr ⟨he,hrest⟩)

theorem Layout.fast_exact (h : Layout w) (hlast : 0 ≤ lastEventId) {m : ℤ}
    (hm : probeLiveMin w.bus filter = some m) (hle : m ≤ lastEventId) :
    Exact w lastEventId filter n := by
  refine ⟨_,pollResolve_fast hlast hm hle,?_⟩
  rw [queryLive,List.map_take]
  refine FirstOf.of_take (sorted_fixedPart (matchesAfter_sorted _ _ _)) fun x => ?_
  rw [mem_matchesAfter_live]
  constructor
  · rintro ⟨hx,hrest⟩
    exact ⟨.inl hx,hrest⟩
  · rintro ⟨hx | hx,hrest⟩
    · exact ⟨hx,hrest⟩
    · obtain ⟨y,hy,rfl⟩ := probeLiveMin_live hm
      have := h.tiers x hx y hy
      omega

theorem Serial.held_le_gapEnd (h : Serial w) (htiers : ∀ x ∈ w.warm, ∀ y ∈ w.bus.live, x.eventId < y.eventId)
    {name : Text} (hname : name ∈ listBuckets w.archive) {e : EventRow} (he : Holds w.archive name e)
    (filter : QueryFilter) : e.eventId ≤ gapEnd (probeLiveMin w.bus filter) := by
  cases hm : probeLiveMin w.bus filter with
  | none => exact (h.held_le he).trans h.coverage.bound
  | some m =>
    obtain ⟨y,hy,rfl⟩ := probeLiveMin_live hm
    exact Int.le_sub_one_of_lt (htiers e.fixedPart ⟨name,hname,e,he,rfl⟩ y hy)

theorem Serial.mem_spill (h : Serial w) (hrest : w.sweepers 0 = none) (hlayout : Layout w)
    {x : EventRow} :
    x ∈ ((bucketsCoveringRange w.archive lastEventId (gapEnd (probeLiveMin w.bus filter))).flatMap
      (bucketMatches w.archive lastEventId filter)).map EventRow.fixedPart ↔
      x ∈ w.warm ∧ whereClause filter x = true ∧ lastEventId < x.eventId := by
  constructor
  · intro hx
    obtain ⟨e,he,rfl⟩ := List.mem_map.mp hx
    obtain ⟨c,hc,he⟩ := List.mem_flatMap.mp he
    obtain ⟨hholds,hwhere⟩ := mem_bucketMatches.mp he
    exact ⟨⟨c.filepath,covering_filepath hc,e,hholds,rfl⟩,hwhere⟩
  · rintro ⟨⟨name,hname,e,he,rfl⟩,hwhere,hlt⟩
    have hstop := h.held_le_gapEnd hlayout.tiers hname he filter
    obtain ⟨c,hc,rfl⟩ := h.warm_covering hrest he (le_of_lt hlt) hstop
    exact List.mem_map_of_mem (List.mem_flatMap.mpr ⟨c,hc,mem_bucketMatches.mpr ⟨he,hwhere,hlt⟩⟩)

theorem Layout.spill_sorted (h : Layout w) {gapStop : ℤ} :
    ((bucketsCoveringRange w.archive lastEventId gapStop).flatMap
        (bucketMatches w.archive lastEventId filter) ++
      matchesAfter lastEventId filter w.bus.events).Pairwise (fun a b => a.eventId < b.eventId) := by
  refine List.pairwise_append.mpr ⟨covering_matches_sorted h.buckets,matchesAfter_sorted _ _ _,?_⟩
  intro e he y hy
  obtain ⟨c,hc,he⟩ := List.mem_flatMap.mp he
  exact h.tiers e.fixedPart ⟨c.filepath,covering_filepath hc,e,(mem_bucketMatches.mp he).1,rfl⟩
    y.fixedPart (mem_live (mem_matchesAfter.mp hy).1)

theorem not_falseGap_spill (hgap : ¬ FalseGap w lastEventId filter) :
    ∀ m ∈ probeLiveMin w.bus filter, lastEventId + 1 < m →
      bucketsCoveringRange w.archive lastEventId (m - 1) ≠ [] :=
  fun m hm hlt hnil => hgap ⟨m,hm,hlt,hnil⟩

theorem Layout.exact (hlayout : Layout w) (h : Serial w) (hrest : w.sweepers 0 = none)
    (hceil : (listBuckets w.archive).length ≤ attachCeiling) (hlast : 0 ≤ lastEventId)
    (hgap : ¬ FalseGap w lastEventId filter) : Exact w lastEventId filter n := by
  by_cases hfast : ∃ m, probeLiveMin w.bus filter = some m ∧ m ≤ lastEventId
  · obtain ⟨m,hm,hle⟩ := hfast
    exact hlayout.fast_exact hlast hm hle
  · have hbehind : ∀ m ∈ probeLiveMin w.bus filter, lastEventId < m := fun m hm =>
      not_le.mp fun hle => hfast ⟨m,hm,hle⟩
    refine ⟨_,pollResolve_spill hlast hbehind (not_falseGap_spill hgap) hceil (h.tables_at_rest hrest),?_⟩
    rw [mergeTiers_of_sorted hlayout.spill_sorted,List.map_take]
    refine FirstOf.of_take (sorted_fixedPart hlayout.spill_sorted) fun x => ?_
    rw [List.map_append,List.mem_append,h.mem_spill hrest hlayout,mem_matchesAfter_live,or_comm,
      ← or_and_right]
    rfl

theorem falseGap_throws (hlast : 0 ≤ lastEventId) (hgap : FalseGap w lastEventId filter) :
    ¬ Exact w lastEventId filter n := by
  obtain ⟨m,hm,hlt,hnil⟩ := hgap
  rintro ⟨rows,hrows,-⟩
  rw [pollResolve_gap hlast hm hlt hnil] at hrows
  cases hrows

def noFilter : QueryFilter := ⟨none,none,none⟩

theorem whereClause_noFilter (e : EventRow) : whereClause noFilter e = true := rfl

theorem Serial.tiers_of_exact (h : Serial w) (hrest : w.sweepers 0 = none)
    (hexact : ∀ lastEventId filter n, 0 ≤ lastEventId → 0 < n →
      (Exact w lastEventId filter n ↔ ¬ FalseGap w lastEventId filter)) :
    ∀ x ∈ w.warm, ∀ y ∈ w.bus.live, x.eventId < y.eventId := by
  intro x hx y hy
  by_contra hnot
  have hne := h.warm_not_live hrest hx hy
  have hlt : y.eventId < x.eventId := by omega
  have ⟨e,he,hey⟩ := hy
  obtain ⟨m,hm⟩ : ∃ m, probeLiveMin w.bus noFilter = some m := by
    refine Option.ne_none_iff_exists'.mp fun hnone => ?_
    exact KeyedTable.minKey?_eq_none.mp hnone e (KeyedTable.mem_filter.mpr ⟨he,rfl⟩)
  have hle := probeLiveMin_le hm hy (whereClause_noFilter y)
  have hpos : 0 ≤ y.eventId := (h.live_pos hy).le
  have hgap : ¬ FalseGap w y.eventId noFilter := by
    rintro ⟨m',hm',hlt',-⟩
    rw [hm,Option.some.injEq] at hm'
    omega
  obtain ⟨rows,hrows,hfirst⟩ := (hexact y.eventId noFilter (w.bus.events.rows.length + 1) hpos
    (Nat.succ_pos _)).mpr hgap
  rw [pollResolve_fast hpos hm hle,Except.ok.injEq] at hrows
  have hlen : (rows.map EventRow.fixedPart).length < w.bus.events.rows.length + 1 := by
    have hsub : (matchesAfter y.eventId noFilter w.bus.events).length ≤ w.bus.events.rows.length :=
      List.length_filter_le _ _
    rw [List.length_map,← hrows,queryLive,List.length_take]
    omega
  have hmem := hfirst.mem_of_short hlen ⟨.inr hx,whereClause_noFilter x,hlt⟩
  rw [← hrows,queryLive,List.map_take] at hmem
  exact h.warm_not_live hrest hx (mem_matchesAfter_live.mp (List.mem_of_mem_take hmem)).1 rfl

theorem Serial.covering_all (h : Serial w) (hrest : w.sweepers 0 = none)
    (hheld : ∀ name ∈ listBuckets w.archive, ∃ e, Holds w.archive name e)
    (htiers : ∀ x ∈ w.warm, ∀ y ∈ w.bus.live, x.eventId < y.eventId) (filter : QueryFilter) :
    (listBuckets w.archive).length ≤
      (bucketsCoveringRange w.archive 0 (gapEnd (probeLiveMin w.bus filter))).length := by
  have hnodup : (listBuckets w.archive).Nodup :=
    ((List.pairwise_map.mpr w.archive.sorted).filter _).imp ne_of_lt
  rw [← List.length_map (f := CoveringBucket.filepath)]
  refine hnodup.length_le_of_subset fun name hname => ?_
  obtain ⟨e,he⟩ := hheld name hname
  obtain ⟨c,hc,rfl⟩ := h.warm_covering hrest he (h.held_pos he).le (h.held_le_gapEnd htiers hname he filter)
  exact List.mem_map_of_mem hc

-- a file beyond the ceiling is never attached, and its events have no other copy
theorem Serial.unattached (h : Serial w) (hrest : w.sweepers 0 = none) {c : CoveringBucket}
    (hc : c ∈ (bucketsCoveringRange w.archive lastEventId (gapEnd (probeLiveMin w.bus filter))).drop attachCeiling)
    {e : EventRow} (he : Holds w.archive c.filepath e) :
    e.fixedPart ∉ (mergeTiers w.bus lastEventId filter n
      (warmBatch w.bus w.archive lastEventId filter n)).map EventRow.fixedPart := by
  intro hmem
  obtain ⟨x,hx,hxe⟩ := List.mem_map.mp hmem
  have hid := eventId_of_fixedPart hxe
  rcases List.mem_append.mp (mem_mergeTiers hx) with hwarm | hlive
  · obtain ⟨b,hb,hxb⟩ := List.mem_flatMap.mp (List.mem_of_mem_take hwarm)
    have hsame := h.unique _ _ x e (mem_bucketMatches.mp hxb).1 he hid
    have hsorted : (bucketsCoveringRange w.archive lastEventId (gapEnd (probeLiveMin w.bus filter))).Pairwise
        (fun b c => b.filepath < c.filepath) := covering_sorted
    rw [← List.take_append_drop attachCeiling (bucketsCoveringRange _ _ _)] at hsorted
    exact ((List.pairwise_append.mp hsorted).2.2 b hb c hc).ne hsame
  · exact h.rest hrest c.filepath e he x (mem_matchesAfter.mp hlive).1 hid

def readableRows (w : World) (lastEventId : ℤ) (filter : QueryFilter) : List EventRow :=
  ((bucketsCoveringRange w.archive lastEventId (gapEnd (probeLiveMin w.bus filter))).take attachCeiling).flatMap
    (bucketMatches w.archive lastEventId filter) ++ matchesAfter lastEventId filter w.bus.events

theorem mergeTiers_readable : mergeTiers w.bus lastEventId filter n
    (warmBatch w.bus w.archive lastEventId filter n) ⊆ readableRows w lastEventId filter := fun _ hx =>
  (List.mem_append.mp (mem_mergeTiers hx)).elim (fun hx => List.mem_append_left _ (List.mem_of_mem_take hx))
    (fun hx => List.mem_append_right _ hx)

theorem nodup_of_firstOf {S : Set EventRow} {rows : List EventRow}
    (h : FirstOf EventRow.eventId S n (rows.map EventRow.fixedPart)) : rows.Nodup :=
  (List.pairwise_map.mp h.sorted).imp fun hlt heq => hlt.ne (by rw [heq])

theorem Serial.ceiling_of_exact (h : Serial w) (hrest : w.sweepers 0 = none)
    (hheld : ∀ name ∈ listBuckets w.archive, ∃ e, Holds w.archive name e)
    (htiers : ∀ x ∈ w.warm, ∀ y ∈ w.bus.live, x.eventId < y.eventId)
    (hexact : ∀ lastEventId filter n, 0 ≤ lastEventId → 0 < n →
      (Exact w lastEventId filter n ↔ ¬ FalseGap w lastEventId filter)) :
    (listBuckets w.archive).length ≤ attachCeiling := by
  by_contra hlong
  have hall := h.covering_all hrest hheld htiers noFilter
  generalize hcovering : bucketsCoveringRange w.archive 0 (gapEnd (probeLiveMin w.bus noFilter)) = covering at hall
  obtain ⟨c,hc⟩ : ∃ c, c ∈ covering.drop attachCeiling := by
    refine List.exists_mem_of_length_pos ?_
    rw [List.length_drop]
    omega
  have hcover := List.mem_of_mem_drop hc
  rw [← hcovering] at hc hcover
  have hgap : ¬ FalseGap w 0 noFilter := by
    rintro ⟨m,hm,-,hnil⟩
    rw [hm] at hcover
    exact List.ne_nil_of_mem hcover hnil
  have hbehind : ∀ m ∈ probeLiveMin w.bus noFilter, 0 < m := by
    intro m hm
    obtain ⟨y,hy,rfl⟩ := probeLiveMin_live hm
    exact h.live_pos hy
  obtain ⟨e,he⟩ := hheld c.filepath (covering_filepath hcover)
  -- a batch larger than everything the resolver can read is never full
  obtain ⟨rows,hrows,hfirst⟩ := (hexact 0 noFilter ((readableRows w 0 noFilter).length + 1) le_rfl
    (Nat.succ_pos _)).mpr hgap
  rw [pollResolve_behind (fun b hb _ => h.tables_at_rest hrest b hb) le_rfl hbehind (not_falseGap_spill hgap),
    Except.ok.injEq] at hrows
  rw [← hrows] at hfirst
  have hshort := Nat.lt_succ_of_le ((nodup_of_firstOf hfirst).length_le_of_subset mergeTiers_readable)
  rw [← List.length_map (f := EventRow.fixedPart)] at hshort
  have hpos := h.held_pos he
  refine h.unattached hrest hc he (hfirst.mem_of_short hshort ⟨.inr ?_,whereClause_noFilter _,hpos⟩)
  exact ⟨c.filepath,covering_filepath hcover,e,he,rfl⟩

theorem mergeTiers_singleton (db : Db) (y : EventRow) :
    mergeTiers db lastEventId filter 1 [y] = [y] := rfl

theorem Serial.buckets_of_exact (h : Serial w) (hrest : w.sweepers 0 = none)
    (hceil : (listBuckets w.archive).length ≤ attachCeiling)
    (htiers : ∀ x ∈ w.warm, ∀ y ∈ w.bus.live, x.eventId < y.eventId)
    (hexact : ∀ lastEventId filter n, 0 ≤ lastEventId → 0 < n →
      (Exact w lastEventId filter n ↔ ¬ FalseGap w lastEventId filter)) :
    ∀ n ∈ listBuckets w.archive, ∀ n' ∈ listBuckets w.archive, n < n' → ∀ e e',
      Holds w.archive n e → Holds w.archive n' e' → e.eventId < e'.eventId := by
  intro n hn n' hn' hlt e e' he he'
  by_contra hnot
  have hne : e.eventId ≠ e'.eventId := fun hid => hlt.ne (h.unique n n' e e' he he' hid)
  have hpos : 0 ≤ e'.eventId - 1 := Int.le_sub_one_of_lt (h.held_pos he')
  have hlive : ∀ m ∈ probeLiveMin w.bus noFilter, e.eventId < m := by
    intro m hm
    obtain ⟨y,hy,rfl⟩ := probeLiveMin_live hm
    exact htiers e.fixedPart ⟨n,hn,e,he,rfl⟩ y hy
  have hstop := h.held_le_gapEnd htiers hn he noFilter
  have hcover : ∃ c ∈ bucketsCoveringRange w.archive (e'.eventId - 1)
      (gapEnd (probeLiveMin w.bus noFilter)), c.filepath = n :=
    h.warm_covering hrest he (by omega) hstop
  obtain ⟨c,hc,rfl⟩ := hcover
  have hgap : ¬ FalseGap w (e'.eventId - 1) noFilter := by
    rintro ⟨m,hm,-,hnil⟩
    rw [hm] at hc
    exact List.ne_nil_of_mem hc hnil
  have hspill := pollResolve_spill (n := 1) hpos
    (fun m hm => by have := hlive m hm; omega) (not_falseGap_spill hgap) hceil (h.tables_at_rest hrest)
  obtain ⟨rows,hrows,hfirst⟩ := (hexact _ noFilter 1 hpos Nat.one_pos).mpr hgap
  have hmatch : e ∈ bucketMatches w.archive (e'.eventId - 1) noFilter c :=
    mem_bucketMatches.mpr ⟨he,whereClause_noFilter e,by omega⟩
  obtain ⟨y,hy⟩ : ∃ y, ((bucketsCoveringRange w.archive (e'.eventId - 1)
      (gapEnd (probeLiveMin w.bus noFilter))).flatMap
        (bucketMatches w.archive (e'.eventId - 1) noFilter)).head? = some y := by
    refine Option.ne_none_iff_exists'.mp fun hnone => ?_
    exact List.ne_nil_of_mem (List.mem_flatMap.mpr ⟨c,hc,hmatch⟩) (List.head?_eq_none_iff.mp hnone)
  obtain ⟨b,hb,hyb,hbc⟩ := flatMap_head_first covering_sorted hy hc (List.ne_nil_of_mem hmatch)
  have hlow : b.filepath ≠ n' := by
    rcases hbc with rfl | hbc
    · exact hlt.ne
    · exact (hbc.trans hlt).ne
  obtain ⟨tail,htail⟩ := List.head?_eq_some_iff.mp hy
  rw [hspill,htail,List.take_succ_cons,List.take_zero,mergeTiers_singleton,Except.ok.injEq] at hrows
  rw [← hrows] at hfirst
  have hy' := mem_bucketMatches.mp hyb
  have hle : y.eventId ≤ e'.eventId := hfirst.head_le (x := y.fixedPart) rfl
    (y := e'.fixedPart) ⟨.inr ⟨n',hn',e',he',rfl⟩,whereClause_noFilter _,by
      show e'.eventId - 1 < e'.eventId
      omega⟩
  have hid : y.eventId = e'.eventId := by
    have := hy'.2.2
    omega
  exact hlow (h.unique b.filepath n' y e' hy'.1 he' hid)

theorem pollResolve_exact_iff_layout {as : List Action}
    (hrun : Run World.step SerialOk (World.start .empty .empty) as w) (hrest : w.sweepers 0 = none) :
    (∀ lastEventId filter n, 0 ≤ lastEventId → 0 < n →
      (Exact w lastEventId filter n ↔ ¬ FalseGap w lastEventId filter)) ↔
        Layout w ∧ (listBuckets w.archive).length ≤ attachCeiling := by
  have h := Serial.run hrun
  constructor
  · intro hexact
    have htiers := h.tiers_of_exact hrest hexact
    have hceil := h.ceiling_of_exact hrest (fun _ => occupied_at_rest hrun hrest) htiers hexact
    exact ⟨⟨htiers,h.buckets_of_exact hrest hceil htiers hexact⟩,hceil⟩
  · rintro ⟨hlayout,hceil⟩ lastEventId filter n hlast -
    exact ⟨fun hx hgap => falseGap_throws hlast hgap hx,
      fun hgap => hlayout.exact h hrest hceil hlast hgap⟩

def World.matching (w : World) (filter : QueryFilter) : Set EventRow :=
  {x ∈ w.bus.live ∪ w.warm | whereClause filter x = true}

theorem after_eq (w : World) (lastEventId : ℤ) (filter : QueryFilter) :
    w.after lastEventId filter = {x ∈ w.matching filter | lastEventId < x.eventId} := by
  ext x
  exact and_assoc.symm

inductive PollPages (w : World) (filter : QueryFilter) (n : ℕ) : ℤ → List EventRow → Prop
  | done {last : ℤ} (h : pollResolve w.bus w.archive last filter n = .ok []) : PollPages w filter n last []
  | next {last : ℤ} {rows rest : List EventRow} {r : EventRow}
      (h : pollResolve w.bus w.archive last filter n = .ok (rows ++ [r]))
      (hrest : PollPages w filter n r.eventId rest) : PollPages w filter n last ((rows ++ [r]) ++ rest)

theorem PollPages.paged {last : ℤ} {ys : List EventRow} (hpages : PollPages w filter n last ys)
    (hexact : ∀ lastEventId, last ≤ lastEventId → Exact w lastEventId filter n) :
    FirstOf.Paged EventRow.eventId (w.matching filter) n last (ys.map EventRow.fixedPart) := by
  induction hpages with
  | @done last h =>
    obtain ⟨rows,hrows,hfirst⟩ := hexact last le_rfl
    rw [h,Except.ok.injEq] at hrows
    rw [← hrows,after_eq] at hfirst
    exact .done hfirst
  | @next last rows rest r h hrest ih =>
    obtain ⟨rows',hrows,hfirst⟩ := hexact last le_rfl
    rw [h,Except.ok.injEq] at hrows
    rw [← hrows,after_eq,List.map_append] at hfirst
    have hlt : last < r.eventId := (hfirst.sub r.fixedPart (by simp)).2
    rw [List.map_append,List.map_append]
    exact .next hfirst (ih fun lastEventId hle => hexact lastEventId (hlt.le.trans hle))

theorem Layout.pages_exact (hlayout : Layout w) (h : Serial w) (hrest : w.sweepers 0 = none)
    (hceil : (listBuckets w.archive).length ≤ attachCeiling) {last : ℤ} (hlast : 0 ≤ last) (hn : 0 < n)
    (hgap : ∀ lastEventId, last ≤ lastEventId → ¬ FalseGap w lastEventId filter) {ys : List EventRow}
    (hpages : PollPages w filter n last ys) :
    ys.Pairwise (fun a b => a.eventId < b.eventId) ∧
      ∀ x, x ∈ ys.map EventRow.fixedPart ↔ x ∈ w.after last filter := by
  have hpaged := hpages.paged fun lastEventId hle =>
    hlayout.exact h hrest hceil (hlast.trans hle) (hgap lastEventId hle)
  obtain ⟨hsorted,hmem⟩ := hpaged.exact hn
  exact ⟨(List.pairwise_map (f := EventRow.fixedPart)).mp hsorted,fun x => by rw [hmem,after_eq]; rfl⟩

def OrderedOk (w : World) : Action → Prop
  | .sweep p env => SerialOk w (.sweep p env) ∧ ∀ s ∈ w.sweepers 0,
      (∀ wr, s.phase = .insertBatch wr → ∀ n x, Holds w.archive n x → ∀ e ∈ wr.events,
        (n < wr.bucketName → x.eventId < e.eventId) ∧ (wr.bucketName < n → e.eventId < x.eventId)) ∧
      ∀ moved, s.phase = .deleteLive moved → ∀ i ∈ moved, ∀ e ∈ w.bus.events,
        e.eventId ∉ moved → i < e.eventId
  | a => SerialOk w a

theorem OrderedOk.serial {a : Action} (h : OrderedOk w a) : SerialOk w a := by
  cases a with
  | sweep p env => exact h.1
  | _ => exact h

structure Ordered (w : World) : Prop where
  serial : Serial w
  buckets : ∀ n n', n < n' → ∀ e e', Holds w.archive n e → Holds w.archive n' e' →
    e.eventId < e'.eventId
  tiers : ∀ n x, Holds w.archive n x → (∀ e ∈ w.bus.events, e.eventId ≠ x.eventId) →
    ∀ e ∈ w.bus.events, x.eventId < e.eventId

theorem Ordered.start : Ordered (World.start .empty .empty) where
  serial := .start
  buckets n n' _ e e' h := by
    obtain ⟨b,hb,-⟩ := h
    exact absurd hb (KeyedTable.not_mem_empty b)
  tiers n x h := by
    obtain ⟨b,hb,-⟩ := h
    exact absurd hb (KeyedTable.not_mem_empty b)

theorem Ordered.layout (h : Ordered w) (hrest : w.sweepers 0 = none) : Layout w where
  tiers x hx y hy := by
    obtain ⟨name,-,e,he,rfl⟩ := hx
    obtain ⟨z,hz,rfl⟩ := hy
    exact h.tiers name e he (h.serial.rest hrest name e he) z hz
  buckets n _ n' _ hlt e e' he he' := h.buckets n n' hlt e e' he he'

theorem Ordered.step_bus {w' : World} (h : Ordered w) {op : BusOp} (hok : SerialOk w (.bus op))
    (hstep : w.step (.bus op) = some w') : Ordered w' := by
  have hserial := h.serial.step hok hstep
  obtain ⟨db,hop,rfl⟩ := Option.map_eq_some_iff.mp hstep
  refine ⟨hserial,h.buckets,fun n x hx hgone e he => ?_⟩
  have hkept : ∀ y ∈ w.bus.events, y.eventId ≠ x.eventId := by
    intro y hy hid
    have hlive : y.fixedPart ∈ db.live := by
      have hlog := h.serial.coverage.custody.prov.live (mem_live hy)
      rcases bus_live hop hok.1.2 y.fixedPart (logged_grow hlog) with ⟨-,hkeep⟩ | hnew
      · exact hkeep (mem_live hy)
      · exact hnew
    obtain ⟨z,hz,hzy⟩ := hlive
    exact hgone z hz ((eventId_of_fixedPart hzy).trans hid)
  have hold : e.fixedPart ∈ w.bus.live → x.eventId < e.eventId := by
    rintro ⟨z,hz,hze⟩
    rw [← eventId_of_fixedPart hze]
    exact h.tiers n x hx hkept z hz
  cases busEffect hop with
  | emit params uuid live eventSeq bound =>
    have hmem := mem_live he
    rw [live] at hmem
    rcases hmem with heq | hmem
    · have hnew : e.eventId = w.bus.eventSeq + 1 := eventId_of_fixedPart heq
      have := h.serial.held_le hx
      omega
    · exact hold hmem
  | shrink accepted live eventSeq => exact hold (live (mem_live he))

theorem Ordered.step_sweep {w' : World} (h : Ordered w) {p : ℕ} {env : StepEnv}
    (hok : OrderedOk w (.sweep p env)) (hstep : w.step (.sweep p env) = some w') : Ordered w' := by
  have hserial := h.serial.step hok.1 hstep
  obtain ⟨⟨rfl,-⟩,horder⟩ := hok
  obtain ⟨s,hs,rfl⟩ := World.step_sweep hstep
  obtain ⟨hinsert,hdelete⟩ := horder s hs
  have hpass := h.serial.pass s hs
  refine ⟨hserial,?_,?_⟩
  · intro n n' hlt e e' he he'
    rcases sweeperStep_archive env s.cfg w.bus w.archive s.phase with hsame | ⟨wr,hph,hins⟩
    · exact h.buckets n n' hlt e e' ((hsame n e).mp he) ((hsame n' e').mp he')
    · rcases holds_of_insertRows hins he with hold | ⟨rfl,hnew⟩ <;>
        rcases holds_of_insertRows hins he' with hold' | ⟨rfl,hnew'⟩
      · exact h.buckets n n' hlt e e' hold hold'
      · exact (hinsert wr hph n e hold e' hnew').1 hlt
      · exact (hinsert wr hph n' e' hold' e hnew).2 hlt
      · exact absurd hlt (lt_irrefl _)
  · intro n x hx hgone e he
    have hlive : e ∈ w.bus.events := by
      rcases sweeperStep_bus env s.cfg w.bus w.archive s.phase with hb | ⟨ids,-,hb⟩ | ⟨moved,-,hb⟩
      · rwa [hb] at he
      · rw [hb] at he
        exact (mem_deleteFromLive.mp he).1
      · rw [hb] at he
        exact (mem_deleteFromLive.mp he).1
    have hmoved : ∀ y ∈ w.bus.events, y.eventId = x.eventId →
        ∃ moved, s.phase = .deleteLive moved ∧ x.eventId ∈ moved ∧ e.eventId ∉ moved := by
      intro y hy hid
      rcases sweeperStep_bus env s.cfg w.bus w.archive s.phase with hb | ⟨ids,hph,-⟩ | ⟨moved,hph,hb⟩
      · exact absurd hid (hgone y (by rw [hb]; exact hy))
      · exact absurd hph ((h.serial.sole.durability.policy 0 s hs).2 ids)
      · have hgone' : y ∉ (deleteFromLive w.bus moved (retainOwed s.cfg)).events := fun hmem =>
          hgone y (by rw [hb]; exact hmem) hid
        rw [hb] at he
        rw [hph] at hpass
        refine ⟨moved,hph,?_,fun hmem => (mem_deleteFromLive.mp he).2 (hpass.deletable _ hmem)⟩
        by_contra hnot
        refine hgone' (mem_deleteFromLive.mpr ⟨hy,fun hmem => hnot ?_⟩)
        rw [← hid]
        exact deletableIds_subset _ _ _ _ hmem
    by_cases hwas : ∃ y ∈ w.bus.events, y.eventId = x.eventId
    · obtain ⟨y,hy,hid⟩ := hwas
      obtain ⟨moved,hph,hmem,hnot⟩ := hmoved y hy hid
      exact hdelete moved hph _ hmem e hlive hnot
    · push Not at hwas
      rcases sweeperStep_archive env s.cfg w.bus w.archive s.phase with hsame | ⟨wr,hph,hins⟩
      · exact h.tiers n x ((hsame n x).mp hx) hwas e hlive
      · rcases holds_of_insertRows hins hx with hold | ⟨-,hnew⟩
        · exact h.tiers n x hold hwas e hlive
        · rw [hph] at hpass
          exact absurd rfl (hwas x (hpass.live x (List.mem_append_left _ hnew)))

theorem layout_of_ordered_moves {as : List Action}
    (hrun : Run World.step OrderedOk (World.start .empty .empty) as w) (hrest : w.sweepers 0 = none) :
    Layout w := by
  refine Ordered.layout (hrun.invariant (fun t a u (ht : Ordered t) hok hstep => ?_) .start) hrest
  cases a with
  | bus op => exact ht.step_bus hok hstep
  | sweep p env => exact ht.step_sweep hok hstep
  | crash p => exact hok.elim
  | beginSweep p config clock =>
    have hserial := ht.serial.step hok.serial hstep
    obtain ⟨cfg,-,-,rfl⟩ := World.step_begin hstep
    exact ⟨hserial,ht.buckets,ht.tiers⟩

end Tiers

def youngerMovedFirst : List Action :=
  [.bus (.emit lateSample "u"),.bus (.emit modernSample "u"),.beginSweep 0 modernSweepConfig 0] ++
    stepsOf 19 0

theorem pollResolve_skips_warm :
    ¬ ∀ as w, Run World.step SerialOk (World.start .empty .empty) as w → w.sweepers 0 = none →
      ∀ lastEventId filter n, 0 ≤ lastEventId → 0 < n → Exact w lastEventId filter n := by
  intro hall
  have hreach : (exec (guarded SerialOk World.step) (.start .empty .empty) youngerMovedFirst).any
      (fun w => decide (w.sweepers 0 = none) &&
        decide (pollResolve w.bus w.archive 1 noFilter 1 = .ok []) &&
        w.archive.rows.any (fun b => bucketFileRe b.name &&
          b.rows.rows.any (fun e => decide (e.eventId = 2)))) = true := by
    decide +kernel
  obtain ⟨w,hw,hobs⟩ := (Option.any_eq_true _ _).mp hreach
  simp only [Bool.and_eq_true,decide_eq_true_eq,List.any_eq_true] at hobs
  obtain ⟨⟨hrest,hpoll⟩,b,hb,hre,e,he,hid⟩ := hobs
  obtain ⟨rows,hrows,hfirst⟩ := hall _ w (run_of_guarded hw) hrest 1 noFilter 1 (by decide) (by decide)
  rw [hpoll,Except.ok.injEq] at hrows
  rw [← hrows] at hfirst
  have hwarm : e.fixedPart ∈ w.warm :=
    ⟨b.name,mem_listBuckets.mpr ⟨⟨b,hb,rfl⟩,hre⟩,e,⟨b,hb,rfl,he⟩,rfl⟩
  have hlt : 1 < e.fixedPart.eventId := by
    show 1 < e.eventId
    omega
  cases hfirst.mem_of_short (by decide) ⟨.inr hwarm,whereClause_noFilter _,hlt⟩

def olderMovedFirst : List Action :=
  [.bus (.emit modernSample "u"),.bus (.emit lateSample "u"),.beginSweep 0 modernSweepConfig 0] ++
    stepsOf 19 0

theorem pollResolve_exact_iff_layout_after_pass :
    ∃ w : World, (w.bus.events.rows.map EventRow.eventId = [2]) ∧
      (w.archive.rows.map (fun b => b.rows.rows.map EventRow.eventId) = [[1]]) ∧
      ((∀ lastEventId filter n, 0 ≤ lastEventId → 0 < n →
        (Exact w lastEventId filter n ↔ ¬ FalseGap w lastEventId filter)) ↔
          Layout w ∧ (listBuckets w.archive).length ≤ attachCeiling) := by
  have hreach : (exec (guarded SerialOk World.step) (.start .empty .empty) olderMovedFirst).any
      (fun w => decide (w.sweepers 0 = none) && decide (w.bus.events.rows.map EventRow.eventId = [2]) &&
        decide (w.archive.rows.map (fun b => b.rows.rows.map EventRow.eventId) = [[1]])) = true := by
    decide +kernel
  obtain ⟨w,hw,hobs⟩ := (Option.any_eq_true _ _).mp hreach
  simp only [Bool.and_eq_true,decide_eq_true_eq] at hobs
  exact ⟨w,hobs.1.2,hobs.2,pollResolve_exact_iff_layout (run_of_guarded hw) hobs.1.1⟩

end WickedBus
