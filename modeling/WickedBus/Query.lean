import WickedBus.Archive

namespace WickedBus

open WickedBus.Filter (Text)

structure QueryFilter where
  eventType : Option Text
  domain : Option Text
  subdomain : Option Text
  deriving DecidableEq, Repr

def wherePart (wanted : Option Text) (column : Text) : Bool :=
  match wanted with
  | none => true
  | some value => decide (value = []) || decide (column = value)

def whereClause (filter : QueryFilter) (e : EventRow) : Bool :=
  wherePart filter.eventType e.eventType && wherePart filter.domain e.domain &&
    wherePart filter.subdomain e.subdomain

def attachCeiling : ℕ := 123

def probeLiveMin (db : Db) (filter : QueryFilter) : Option ℤ :=
  (db.events.filter (whereClause filter)).minKey?

def matchesAfter (lastEventId : ℤ) (filter : QueryFilter) (t : EventTable) : List EventRow :=
  (t.filter (fun e => whereClause filter e && decide (lastEventId < e.eventId))).rows

def queryLive (db : Db) (lastEventId : ℤ) (filter : QueryFilter) (limit : ℕ) : List EventRow :=
  (matchesAfter lastEventId filter db.events).take limit

def readBucket (archive : Archive) (filepath : Text) (lastEventId : ℤ) (filter : QueryFilter)
    (limit : ℕ) : Except BusError (List EventRow) :=
  match (archive.get? filepath).bind BucketFile.events with
  | none => .error (.spillBucketUnavailable (String.ofList filepath))
  | some t => .ok ((matchesAfter lastEventId filter t).take limit)

def collectWarm (archive : Archive) (lastEventId : ℤ) (filter : QueryFilter) (batchSize : ℕ) :
    List CoveringBucket → List EventRow → Except BusError (List EventRow)
  | [], warmRows => .ok warmRows
  | b :: bs, warmRows =>
    if batchSize ≤ warmRows.length then .ok warmRows
    else
      match readBucket archive b.filepath lastEventId filter (batchSize - warmRows.length) with
      | .error e => .error e
      | .ok rows => collectWarm archive lastEventId filter batchSize bs (warmRows ++ rows)

def setById (rows : List EventRow) (r : EventRow) : List EventRow :=
  if rows.any (fun x => x.eventId = r.eventId) then
    rows.map (fun x => if x.eventId = r.eventId then r else x)
  else rows ++ [r]

def dedupePreferLive (warmRows liveRows : List EventRow) : List EventRow :=
  liveRows.foldl setById (warmRows.foldl setById [])

def gapEnd (minLive : Option ℤ) : ℤ :=
  match minLive with
  | none => maxSafeInteger
  | some m => m - 1

def mergeTiers (db : Db) (lastEventId : ℤ) (filter : QueryFilter) (batchSize : ℕ)
    (warmRows : List EventRow) : List EventRow :=
  let liveRoom := batchSize - warmRows.length
  let liveRows :=
    if 0 < liveRoom then queryLive db lastEventId filter (liveRoom + warmRows.length) else []
  ((dedupePreferLive warmRows liveRows).insertionSort (fun a b => a.eventId ≤ b.eventId)).take batchSize

def pollResolve (db : Db) (archive : Archive) (lastEventId : ℤ) (filter : QueryFilter)
    (batchSize : ℕ) : Except BusError (List EventRow) :=
  let minLive := probeLiveMin db filter
  let buckets := bucketsCoveringRange archive lastEventId (gapEnd minLive)
  if lastEventId < 0 then .error (.invalidEventSchema "lastEventId must be a non-negative integer")
  else if minLive.any (fun m => m ≤ lastEventId) then .ok (queryLive db lastEventId filter batchSize)
  else
    match buckets, minLive with
    | [], none => .ok []
    | [], some m =>
      if lastEventId + 1 < m then .error (.cursorBehindTtlWindow lastEventId m)
      else .ok (mergeTiers db lastEventId filter batchSize [])
    | b :: bs, _ =>
      match collectWarm archive lastEventId filter batchSize ((b :: bs).take attachCeiling) [] with
      | .error e => .error e
      | .ok warmRows => .ok (mergeTiers db lastEventId filter batchSize warmRows)

section Rows

variable {archive : Archive} {lastEventId : ℤ} {filter : QueryFilter} {n : ℕ}

theorem mem_matchesAfter {t : EventTable} {e : EventRow} :
    e ∈ matchesAfter lastEventId filter t ↔
      e ∈ t ∧ whereClause filter e = true ∧ lastEventId < e.eventId := by
  rw [matchesAfter,KeyedTable.mem_rows,KeyedTable.mem_filter]
  simp

theorem matchesAfter_sorted (lastEventId : ℤ) (filter : QueryFilter) (t : EventTable) :
    (matchesAfter lastEventId filter t).Pairwise (fun a b => a.eventId < b.eventId) :=
  KeyedTable.sorted _

def bucketMatches (archive : Archive) (lastEventId : ℤ) (filter : QueryFilter) (b : CoveringBucket) :
    List EventRow :=
  match (archive.get? b.filepath).bind BucketFile.events with
  | none => []
  | some t => matchesAfter lastEventId filter t

theorem collectWarm_take {bs : List CoveringBucket} {acc : List EventRow}
    (hread : ∀ b ∈ bs, ((archive.get? b.filepath).bind BucketFile.events).isSome = true)
    (hacc : acc.length ≤ n) :
    collectWarm archive lastEventId filter n bs acc =
      .ok ((acc ++ bs.flatMap (bucketMatches archive lastEventId filter)).take n) := by
  induction bs generalizing acc with
  | nil => simp [collectWarm,List.take_of_length_le hacc]
  | cons b bs ih =>
    simp only [collectWarm]
    split_ifs with hfull
    · rw [List.take_append_of_le_length (by omega),List.take_of_length_le hacc]
    · obtain ⟨t,ht⟩ := Option.isSome_iff_exists.mp (hread b List.mem_cons_self)
      have hlen : (acc ++ (matchesAfter lastEventId filter t).take (n - acc.length)).length ≤ n := by
        rw [List.length_append,List.length_take]
        omega
      simp only [readBucket,ht]
      rw [ih (fun c hc => hread c (List.mem_cons_of_mem _ hc)) hlen,List.flatMap_cons]
      have hb : bucketMatches archive lastEventId filter b = matchesAfter lastEventId filter t := by
        simp only [bucketMatches,ht]
      rw [hb]
      by_cases hshort : (matchesAfter lastEventId filter t).length ≤ n - acc.length
      · rw [List.take_of_length_le hshort,List.append_assoc]
      · push Not at hshort
        have htake : (acc ++ (matchesAfter lastEventId filter t).take (n - acc.length)).length = n := by
          rw [List.length_append,List.length_take]
          omega
        congr 1
        rw [List.take_left' htake,List.take_append,List.take_of_length_le hacc,
          List.take_append_of_le_length hshort.le]

theorem foldl_setById {xs ys : List EventRow}
    (h : (xs ++ ys).Pairwise (fun a b => a.eventId ≠ b.eventId)) : ys.foldl setById xs = xs ++ ys := by
  induction ys generalizing xs with
  | nil => simp
  | cons y ys ih =>
    have hy : xs.any (fun x => x.eventId = y.eventId) = false := by
      rw [List.any_eq_false]
      intro x hx
      simpa using (List.pairwise_append.mp h).2.2 x hx y List.mem_cons_self
    rw [List.foldl_cons,setById,hy,if_neg Bool.false_ne_true,ih (by simpa using h)]
    simp

theorem dedupePreferLive_of_sorted {xs ys : List EventRow}
    (h : (xs ++ ys).Pairwise (fun a b => a.eventId < b.eventId)) : dedupePreferLive xs ys = xs ++ ys := by
  have hne := h.imp (fun h => ne_of_lt h)
  have hxs : xs.foldl setById [] = xs := by
    have := @foldl_setById [] xs (List.pairwise_append.mp hne).1
    simpa using this
  rw [dedupePreferLive,hxs,foldl_setById hne]

theorem mergeTiers_of_sorted {db : Db} {ws : List EventRow}
    (h : (ws ++ matchesAfter lastEventId filter db.events).Pairwise
      (fun a b => a.eventId < b.eventId)) :
    mergeTiers db lastEventId filter n (ws.take n) =
      (ws ++ matchesAfter lastEventId filter db.events).take n := by
  have hsort : ∀ ms : List EventRow, List.Sublist ms (matchesAfter lastEventId filter db.events) →
      (dedupePreferLive (ws.take n) ms).insertionSort (fun a b => a.eventId ≤ b.eventId) =
        ws.take n ++ ms := by
    intro ms hms
    have hsub : (ws.take n ++ ms).Pairwise (fun a b => a.eventId < b.eventId) :=
      h.sublist ((List.take_sublist n ws).append hms)
    rw [dedupePreferLive_of_sorted hsub]
    exact List.Pairwise.insertionSort_eq (hsub.imp (fun h => le_of_lt h))
  unfold mergeTiers
  by_cases hroom : ws.length < n
  · have htake : ws.take n = ws := List.take_of_length_le hroom.le
    simp only [htake] at hsort ⊢
    rw [if_pos (by omega),Nat.sub_add_cancel hroom.le,queryLive,hsort _ (List.take_sublist _ _)]
    rw [List.take_append,List.take_append,List.take_take,Nat.min_eq_left (Nat.sub_le _ _)]
  · have hlen : (ws.take n).length = n := by
      rw [List.length_take]
      omega
    simp only [hlen,Nat.sub_self,lt_irrefl,if_false]
    rw [hsort [] (List.nil_sublist _),List.append_nil,List.take_append_of_le_length (by omega),
      List.take_take,Nat.min_self]

end Rows

end WickedBus
