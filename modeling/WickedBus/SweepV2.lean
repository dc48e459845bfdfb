import WickedBus.Archive
import WickedBus.Retention

namespace WickedBus

open WickedBus.Filter (Text)

def defaultBatchSize : ℕ := 5000

def defaultBucketMaxBytes : ℕ := 10 * 1024 * 1024 * 1024

structure PassConfig where
  now : ℤ
  policy : UnackedPolicy
  capDays : ℚ
  batchSize : ℕ
  bucketMaxBytes : ℕ
  deriving DecidableEq, Repr

def passConfig (config : SweepConfig) (clock : ℤ) : Except BusError PassConfig := do
  let policy ← resolveUnackedPolicy config
  let capDays ← resolveRetentionCapDays config
  pure ⟨config.now.getD clock,policy,capDays,config.sweepBatchSize.getD defaultBatchSize,
    config.bucketMaxBytes.getD defaultBucketMaxBytes⟩

theorem passConfig_ok {config : SweepConfig} {clock : ℤ} {cfg : PassConfig}
    (h : passConfig config clock = .ok cfg) :
    resolveUnackedPolicy config = .ok cfg.policy ∧ resolveRetentionCapDays config = .ok cfg.capDays := by
  obtain ⟨policy,hpolicy,h⟩ := bind_eq_ok.mp h
  obtain ⟨capDays,hcap,h⟩ := bind_eq_ok.mp h
  obtain rfl := Except.ok.inj h
  exact ⟨hpolicy,hcap⟩

structure Grouping where
  todo : List EventRow
  cache : List (Text × Text)
  groups : List (Text × List EventRow)
  deriving DecidableEq

structure Writing where
  bucketName : Text
  events : List EventRow
  rest : List (Text × List EventRow)
  moved : List ℤ
  deriving DecidableEq

inductive Phase where
  | collectCursors
  | collectOwed (cursors : List ActiveCursor) (owed : OwedTable)
  | collectAttempts (owed : OwedTable)
  | readPairs (owed : OwedTable)
  | discardOwed (ids : List ℤ)
  | selectCandidates (held : List ℤ)
  | groupEvents (g : Grouping)
  | readMeta (g : Grouping) (latest : Text)
  | statBucket (g : Grouping) (latest : Text)
  | sealLatest (g : Grouping) (latest : Text)
  | writeGroups (groups : List (Text × List EventRow)) (moved : List ℤ)
  | openBucket (w : Writing)
  | createEvents (w : Writing)
  | createMeta (w : Writing)
  | setCreatedAt (w : Writing)
  | setMinEventId (w : Writing)
  | setMaxEventId (w : Writing)
  | insertBatch (w : Writing)
  | readRange (w : Writing)
  | writeRange (w : Writing) (lo hi : ℤ)
  | deleteLive (moved : List ℤ)
  deriving DecidableEq

structure StepEnv where
  clock : ℤ
  fileSize : Option ℕ
  locked : Bool
  sealFails : Bool
  deriving DecidableEq, Repr

structure StepResult where
  next : Option Phase
  bus : Db
  archive : Archive

def idsOf (pairs : List OwedPair) : List ℤ := (pairs.map OwedPair.eventId).eraseDups

def heldIds (policy : UnackedPolicy) (pairs : List OwedPair) : List ℤ :=
  if policy = .retain then idsOf (pairs.filter (fun p => !p.overCap)) else []

def candidates (db : Db) (cfg : PassConfig) (held : List ℤ) : List EventRow :=
  (((db.events.rows.filter (EventRow.expired cfg.now)).take (cfg.batchSize + held.length)).filter
    (fun e => decide (e.eventId ∉ held))).take cfg.batchSize

def owedAtDelete (db : Db) (ids : List ℤ) (now : ℤ) (capDays : ℚ) : List ℤ :=
  ((owedPairsWithCap db now capDays (collectOwedExpired db now)).filter
    (fun p => decide (p.eventId ∈ ids) && !p.overCap)).map OwedPair.eventId

def deletableIds (db : Db) (ids : List ℤ) : Option (ℤ × ℚ) → List ℤ
  | none => ids
  | some (now,capDays) => ids.filter (fun i => decide (i ∉ owedAtDelete db ids now capDays))

def deleteFromLive (db : Db) (ids : List ℤ) (retainOwed : Option (ℤ × ℚ)) : Db :=
  db.deleteEvents (fun e => decide (e.eventId ∈ deletableIds db ids retainOwed))

def retainOwed (cfg : PassConfig) : Option (ℤ × ℚ) :=
  if cfg.policy = .retain then some (cfg.now,cfg.capDays) else none

def addToGroup (name : Text) (ev : EventRow) :
    List (Text × List EventRow) → List (Text × List EventRow)
  | [] => [(name,[ev])]
  | (n,evs) :: gs => if n = name then (n,evs ++ [ev]) :: gs else (n,evs) :: addToGroup name ev gs

def Grouping.assign (g : Grouping) (name : Text) : Grouping :=
  match g.todo with
  | [] => g
  | ev :: rest =>
    { todo := rest
      cache := g.cache ++ [(monthKey ev.emittedAt,name)]
      groups := addToGroup name ev g.groups }

def Grouping.place (g : Grouping) (ev : EventRow) (rest : List EventRow) (name : Text) : Grouping :=
  { g with todo := rest, groups := addToGroup name ev g.groups }

def bucketsOfMonth (archive : Archive) (month : Text) : List Text :=
  (listBuckets archive).filter (fun name => (bucketPrefix month).isPrefixOf name)

def nextSuffixedName (latest stem : Text) : Option Text :=
  match (latest.drop stem.length).take (latest.length - stem.length - 3) with
  | [] => some (stem ++ 'a' :: dbSuffix)
  | [c] => if 'a' ≤ c ∧ c < 'z' then some (stem ++ Char.ofNat (c.toNat + 1) :: dbSuffix) else none
  | _ => none

def Grouping.month (g : Grouping) : Text :=
  match g.todo with
  | [] => []
  | ev :: _ => monthKey ev.emittedAt

-- the catch around sealBucket: a seal that throws leaves the file as it was, and the pass goes on
def trySeal (env : StepEnv) (archive : Archive) (latest : Text) : Archive :=
  if env.sealFails then archive else (sealBucket archive latest env.clock none).getD archive

def Writing.finish (w : Writing) : Phase :=
  .writeGroups w.rest (w.moved ++ w.events.map EventRow.eventId)

def sweeperStep (env : StepEnv) (cfg : PassConfig) (db : Db) (archive : Archive) :
    Phase → StepResult
  | .collectCursors => ⟨some (.collectOwed (activeCursors db) .empty),db,archive⟩
  | .collectOwed [] owed => ⟨some (.collectAttempts owed),db,archive⟩
  | .collectOwed (c :: cs) owed => ⟨some (.collectOwed cs (insertOwedOf db cfg.now owed c)),db,archive⟩
  | .collectAttempts owed => ⟨some (.readPairs (insertOwedAttempts db cfg.now owed)),db,archive⟩
  | .readPairs owed =>
    let pairs := owedPairsWithCap db cfg.now cfg.capDays owed
    if cfg.policy = .discard ∧ idsOf pairs ≠ [] then ⟨some (.discardOwed (idsOf pairs)),db,archive⟩
    else ⟨some (.selectCandidates (heldIds cfg.policy pairs)),db,archive⟩
  | .discardOwed ids => ⟨some (.selectCandidates []),deleteFromLive db ids none,archive⟩
  | .selectCandidates held =>
    match candidates db cfg held with
    | [] => ⟨none,db,archive⟩
    | ev :: rest => ⟨some (.groupEvents ⟨ev :: rest,[],[]⟩),db,archive⟩
  | .groupEvents g =>
    match g.todo with
    | [] => ⟨some (.writeGroups g.groups []),db,archive⟩
    | ev :: rest =>
      match g.cache.lookup (monthKey ev.emittedAt) with
      | some name => ⟨some (.groupEvents (g.place ev rest name)),db,archive⟩
      | none =>
        match (bucketsOfMonth archive g.month).getLast? with
        | none => ⟨some (.groupEvents (g.assign (bucketPrefix g.month ++ dbSuffix))),db,archive⟩
        | some latest => ⟨some (.readMeta g latest),db,archive⟩
  | .readMeta g latest =>
    if ((getBucketMeta archive latest).bind BucketMeta.sealedAt).isSome then
      ⟨some (.sealLatest g latest),db,archive⟩
    else ⟨some (.statBucket g latest),db,archive⟩
  | .statBucket g latest =>
    if env.fileSize.any (fun size => cfg.bucketMaxBytes ≤ size) then
      ⟨some (.sealLatest g latest),db,archive⟩
    else ⟨some (.groupEvents (g.assign latest)),db,archive⟩
  | .sealLatest g latest =>
    match nextSuffixedName latest (bucketPrefix g.month) with
    | none => ⟨none,db,trySeal env archive latest⟩
    | some name => ⟨some (.groupEvents (g.assign name)),db,trySeal env archive latest⟩
  | .writeGroups [] moved =>
    if moved = [] then ⟨none,db,archive⟩ else ⟨some (.deleteLive moved),db,archive⟩
  | .writeGroups ((name,events) :: rest) moved =>
    if env.locked then ⟨some (.writeGroups rest moved),db,archive⟩
    else if (archive.get? name).isSome then ⟨some (.insertBatch ⟨name,events,rest,moved⟩),db,archive⟩
    else ⟨some (.openBucket ⟨name,events,rest,moved⟩),db,archive⟩
  | .openBucket w => ⟨some (.createEvents w),db,openFile archive w.bucketName⟩
  | .createEvents w => ⟨some (.createMeta w),db,createEventsTable archive w.bucketName⟩
  | .createMeta w => ⟨some (.setCreatedAt w),db,createMetaTable archive w.bucketName⟩
  | .setCreatedAt w =>
    match setMeta archive w.bucketName (fun m => { m with createdAt := some env.clock }) with
    | none => ⟨none,db,archive⟩
    | some archive' => ⟨some (.setMinEventId w),db,archive'⟩
  | .setMinEventId w =>
    match setMeta archive w.bucketName
      (fun m => { m with minEventId := (w.events.head?.map EventRow.eventId).or m.minEventId }) with
    | none => ⟨none,db,archive⟩
    | some archive' => ⟨some (.setMaxEventId w),db,archive'⟩
  | .setMaxEventId w =>
    match setMeta archive w.bucketName
      (fun m => { m with maxEventId := (w.events.getLast?.map EventRow.eventId).or m.maxEventId }) with
    | none => ⟨none,db,archive⟩
    | some archive' => ⟨some (.insertBatch w),db,archive'⟩
  | .insertBatch w =>
    match insertRows archive w.bucketName w.events with
    | none => ⟨none,db,archive⟩
    | some archive' => ⟨some (.readRange w),db,archive'⟩
  | .readRange w =>
    match (archive.get? w.bucketName).map BucketFile.rows with
    | none => ⟨none,db,archive⟩
    | some rows =>
      match rows.minKey?, rows.maxKey? with
      | some lo, some hi => ⟨some (.writeRange w lo hi),db,archive⟩
      | _, _ => ⟨some w.finish,db,archive⟩
  | .writeRange w lo hi =>
    match setMeta archive w.bucketName
      (fun m => { m with minEventId := some lo, maxEventId := some hi }) with
    | none => ⟨none,db,archive⟩
    | some archive' => ⟨some w.finish,db,archive'⟩
  | .deleteLive moved => ⟨none,deleteFromLive db moved (retainOwed cfg),archive⟩

theorem trySeal_cases (env : StepEnv) (archive : Archive) (latest : Text) :
    (trySeal env archive latest = archive ∧
      (env.sealFails = true ∨ sealBucket archive latest env.clock none = none)) ∨
    (env.sealFails = false ∧ sealBucket archive latest env.clock none = some (trySeal env archive latest)) := by
  unfold trySeal
  split_ifs with hfails
  · exact .inl ⟨rfl,.inl hfails⟩
  · cases hs : sealBucket archive latest env.clock none with
    | none => exact .inl ⟨rfl,.inr rfl⟩
    | some archive' => exact .inr ⟨Bool.not_eq_true _ ▸ hfails,rfl⟩

def rowsOf (groups : List (Text × List EventRow)) : List EventRow := groups.flatMap Prod.snd

def Grouping.rows (g : Grouping) : List EventRow := g.todo ++ rowsOf g.groups

def Writing.rows (w : Writing) : List EventRow := w.events ++ rowsOf w.rest

def Phase.held : Phase → List EventRow
  | .groupEvents g | .readMeta g _ | .statBucket g _ | .sealLatest g _ => g.rows
  | .writeGroups groups _ => rowsOf groups
  | .openBucket w | .createEvents w | .createMeta w | .setCreatedAt w | .setMinEventId w
  | .setMaxEventId w | .insertBatch w | .readRange w | .writeRange w _ _ => w.rows
  | _ => []

def Phase.moved : Phase → List ℤ
  | .writeGroups _ moved | .deleteLive moved => moved
  | .openBucket w | .createEvents w | .createMeta w | .setCreatedAt w | .setMinEventId w
  | .setMaxEventId w | .insertBatch w | .readRange w | .writeRange w _ _ => w.moved
  | _ => []

def Phase.copying : Phase → Option Writing
  | .readRange w | .writeRange w _ _ => some w
  | _ => none

theorem Phase.copying_held {ph : Phase} {w : Writing} (h : ph.copying = some w) :
    ∀ e ∈ w.events, e ∈ ph.held := by
  intro e he
  cases ph <;> cases h <;> exact List.mem_append_left _ he

theorem mem_rowsOf_addToGroup {name : Text} {ev e : EventRow} {groups : List (Text × List EventRow)} :
    e ∈ rowsOf (addToGroup name ev groups) ↔ e = ev ∨ e ∈ rowsOf groups := by
  induction groups with
  | nil => simp [addToGroup,rowsOf]
  | cons g gs ih =>
    obtain ⟨n,evs⟩ := g
    simp only [rowsOf] at ih
    simp only [addToGroup]
    split_ifs
    · simp only [rowsOf,List.flatMap_cons,List.mem_append,List.mem_singleton]
      tauto
    · simp only [rowsOf,List.flatMap_cons,List.mem_append,ih]
      tauto

theorem Grouping.mem_rows_assign {g : Grouping} {name : Text} {e : EventRow} :
    e ∈ (g.assign name).rows ↔ e ∈ g.rows := by
  obtain ⟨todo,cache,groups⟩ := g
  cases todo with
  | nil => rfl
  | cons ev rest =>
    simp only [Grouping.assign,Grouping.rows,List.mem_append,mem_rowsOf_addToGroup,List.mem_cons]
    tauto

theorem Grouping.mem_rows_place {g : Grouping} {ev e : EventRow} {rest : List EventRow} {name : Text}
    (h : g.todo = ev :: rest) : e ∈ (g.place ev rest name).rows ↔ e ∈ g.rows := by
  simp only [Grouping.place,Grouping.rows,List.mem_append,mem_rowsOf_addToGroup,h,List.mem_cons]
  tauto

theorem mem_candidates {db : Db} {cfg : PassConfig} {held : List ℤ} {e : EventRow}
    (h : e ∈ candidates db cfg held) : e ∈ db.events ∧ e.expired cfg.now = true := by
  have h1 := (List.mem_filter.mp (List.mem_of_mem_take h)).1
  exact List.mem_filter.mp (List.mem_of_mem_take h1)

section StepSpec

variable {env : StepEnv} {cfg : PassConfig} {db : Db} {archive : Archive} {ph ph' : Phase}

attribute [local simp] sweeperStep

theorem sweeperStep_bus (env : StepEnv) (cfg : PassConfig) (db : Db) (archive : Archive) (ph : Phase) :
    (sweeperStep env cfg db archive ph).bus = db ∨
    (∃ ids, ph = .discardOwed ids ∧
      (sweeperStep env cfg db archive ph).bus = deleteFromLive db ids none) ∨
    ∃ moved, ph = .deleteLive moved ∧
      (sweeperStep env cfg db archive ph).bus = deleteFromLive db moved (retainOwed cfg) := by
  cases ph with
  | discardOwed ids => exact .inr (.inl ⟨ids,rfl,rfl⟩)
  | deleteLive moved => exact .inr (.inr ⟨moved,rfl,rfl⟩)
  | collectOwed cursors owed => cases cursors <;> exact .inl rfl
  | writeGroups groups moved =>
    left
    rcases groups with _ | ⟨⟨name,events⟩,rest⟩ <;> simp only [sweeperStep] <;> split_ifs <;> rfl
  | _ => left; simp only [sweeperStep]; try (repeat' split) <;> rfl

theorem sweeperStep_held (h : (sweeperStep env cfg db archive ph).next = some ph') :
    ∀ e ∈ ph'.held, e ∈ ph.held ∨ (e ∈ db.events ∧ e.expired cfg.now = true) := by
  intro e he
  cases ph with
  | selectCandidates held =>
    simp only [sweeperStep] at h
    split at h
    · cases h
    · rename_i ev rest hc
      cases h
      right
      have hmem : e ∈ candidates db cfg held := by
        rw [hc]
        simpa [Phase.held,Grouping.rows,rowsOf] using he
      exact mem_candidates hmem
  | groupEvents g =>
    left
    simp only [sweeperStep] at h
    repeat' split at h
    all_goals cases h
    · simpa [Phase.held,Grouping.rows] using Or.inr he
    · rename_i hg _ _ _
      exact (Grouping.mem_rows_place hg).mp he
    · exact Grouping.mem_rows_assign.mp he
    · exact he
  | statBucket g latest =>
    left
    simp only [sweeperStep] at h
    split at h <;> cases h
    · exact he
    · exact Grouping.mem_rows_assign.mp he
  | sealLatest g latest =>
    left
    simp only [sweeperStep] at h
    split at h <;> cases h
    exact Grouping.mem_rows_assign.mp he
  | writeGroups groups moved =>
    left
    rcases groups with _ | ⟨⟨name,events⟩,rest⟩
    · simp only [sweeperStep] at h
      split at h <;> cases h
      cases he
    · simp only [sweeperStep] at h
      repeat' split at h
      all_goals
        cases h
        simp only [Phase.held,Writing.rows,rowsOf,List.flatMap_cons,List.mem_append] at he ⊢
        tauto
  | readRange w =>
    left
    simp only [sweeperStep] at h
    repeat' split at h
    all_goals cases h
    · exact he
    · exact List.mem_append_right _ he
  | writeRange w lo hi =>
    left
    simp only [sweeperStep] at h
    split at h <;> cases h
    exact List.mem_append_right _ he
  | collectOwed cursors owed => cases cursors <;> cases h <;> cases he
  | readPairs owed =>
    simp only [sweeperStep] at h
    split at h <;> cases h <;> cases he
  | readMeta g latest =>
    simp only [sweeperStep] at h
    split at h <;> cases h <;> exact .inl he
  | collectCursors | collectAttempts _ | discardOwed _ | deleteLive _ => cases h <;> cases he
  | openBucket w | createEvents w | createMeta w =>
    cases h
    exact .inl he
  | setCreatedAt w | setMinEventId w | setMaxEventId w | insertBatch w =>
    simp only [sweeperStep] at h
    split at h <;> cases h
    exact .inl he

theorem sweeperStep_moved (h : (sweeperStep env cfg db archive ph).next = some ph') :
    ∀ i ∈ ph'.moved, i ∈ ph.moved ∨ ∃ w, ph.copying = some w ∧ ∃ e ∈ w.events, e.eventId = i := by
  intro i hi
  have hfinish : ∀ w : Writing, ph.copying = some w → i ∈ w.finish.moved →
      i ∈ w.moved ∨ ∃ w, ph.copying = some w ∧ ∃ e ∈ w.events, e.eventId = i := by
    intro w hc hw
    rcases List.mem_append.mp hw with hw | hw
    · exact .inl hw
    · obtain ⟨e,he,rfl⟩ := List.mem_map.mp hw
      exact .inr ⟨w,hc,e,he,rfl⟩
  cases ph with
  | readRange w =>
    simp only [sweeperStep] at h
    repeat' split at h
    all_goals cases h
    · exact .inl hi
    · exact hfinish w rfl hi
  | writeRange w lo hi' =>
    simp only [sweeperStep] at h
    split at h <;> cases h
    exact hfinish w rfl hi
  | writeGroups groups moved =>
    left
    rcases groups with _ | ⟨⟨name,events⟩,rest⟩ <;> simp only [sweeperStep] at h <;>
      (repeat' split at h) <;> cases h <;> exact hi
  | collectOwed cursors owed => cases cursors <;> cases h <;> cases hi
  | collectCursors | collectAttempts _ | discardOwed _ | deleteLive _ => cases h <;> cases hi
  | openBucket w | createEvents w | createMeta w =>
    cases h
    exact .inl hi
  | setCreatedAt w | setMinEventId w | setMaxEventId w | insertBatch w =>
    simp only [sweeperStep] at h
    split at h <;> cases h
    exact .inl hi
  | readPairs _ | selectCandidates _ | groupEvents _ | readMeta _ _ | statBucket _ _
  | sealLatest _ _ =>
    simp only [sweeperStep] at h
    (repeat' split at h) <;> cases h <;> cases hi

theorem sweeperStep_copying {w : Writing} (h : (sweeperStep env cfg db archive ph).next = some ph')
    (hw : ph'.copying = some w) :
    ph.copying = some w ∨ (ph = .insertBatch w ∧
      insertRows archive w.bucketName w.events = some (sweeperStep env cfg db archive ph).archive) := by
  cases ph with
  | insertBatch v =>
    simp only [sweeperStep] at h ⊢
    split at h <;> cases h
    cases hw
    rename_i hins
    exact .inr ⟨rfl,by rw [hins]⟩
  | readRange v =>
    simp only [sweeperStep] at h
    (repeat' split at h) <;> cases h <;> cases hw
    exact .inl rfl
  | collectOwed cursors owed => cases cursors <;> cases h <;> cases hw
  | collectCursors | collectAttempts _ | discardOwed _ | deleteLive _ | openBucket _
  | createEvents _ | createMeta _ => cases h <;> cases hw
  | writeGroups groups moved =>
    rcases groups with _ | ⟨⟨name,events⟩,rest⟩ <;> simp only [sweeperStep] at h <;>
      (repeat' split at h) <;> cases h <;> cases hw
  | _ =>
    simp only [sweeperStep] at h
    (repeat' split at h) <;> cases h <;> cases hw

theorem sweeperStep_discard {ids : List ℤ}
    (h : (sweeperStep env cfg db archive ph).next = some (.discardOwed ids)) :
    cfg.policy = .discard ∧ ∃ owed, ph = .readPairs owed ∧
      ids = idsOf (owedPairsWithCap db cfg.now cfg.capDays owed) ∧ ids ≠ [] := by
  cases ph with
  | readPairs owed =>
    simp only [sweeperStep] at h
    split_ifs at h with hdrop <;> cases h
    exact ⟨hdrop.1,owed,rfl,rfl,hdrop.2⟩
  | collectOwed cursors owed => cases cursors <;> cases h
  | writeGroups groups moved =>
    rcases groups with _ | ⟨⟨name,events⟩,rest⟩ <;> simp only [sweeperStep] at h <;>
      (repeat' split at h) <;> cases h
  | collectCursors | collectAttempts _ | discardOwed _ | deleteLive _ | openBucket _
  | createEvents _ | createMeta _ => cases h
  | _ =>
    simp only [sweeperStep] at h
    (repeat' split at h) <;> cases h

end StepSpec

def Grouping.targets (g : Grouping) : List Text := g.cache.map Prod.snd ++ g.groups.map Prod.fst

def Writing.targets (w : Writing) : List Text := w.bucketName :: w.rest.map Prod.fst

def Phase.targets : Phase → List Text
  | .groupEvents g => g.targets
  | .readMeta g latest | .statBucket g latest | .sealLatest g latest => latest :: g.targets
  | .writeGroups groups _ => groups.map Prod.fst
  | .openBucket w | .createEvents w | .createMeta w | .setCreatedAt w | .setMinEventId w
  | .setMaxEventId w | .insertBatch w | .readRange w | .writeRange w _ _ => w.targets
  | _ => []

theorem names_addToGroup {name n : Text} {ev : EventRow} {groups : List (Text × List EventRow)}
    (h : n ∈ (addToGroup name ev groups).map Prod.fst) : n = name ∨ n ∈ groups.map Prod.fst := by
  induction groups with
  | nil => exact .inl (by simpa [addToGroup] using h)
  | cons g gs ih =>
    obtain ⟨m,evs⟩ := g
    simp only [addToGroup] at h
    split_ifs at h
    · exact .inr h
    · rcases List.mem_cons.mp h with h | h
      · exact .inr (by simp [h])
      · exact (ih h).imp_right (List.mem_cons_of_mem _)

theorem forall_addToGroup {P : Text → EventRow → Prop} {name : Text} {ev : EventRow}
    {groups : List (Text × List EventRow)} (h : ∀ p ∈ groups, p.2 ≠ [] ∧ ∀ e ∈ p.2, P p.1 e) (hev : P name ev) :
    ∀ p ∈ addToGroup name ev groups, p.2 ≠ [] ∧ ∀ e ∈ p.2, P p.1 e := by
  induction groups with
  | nil => simpa [addToGroup] using hev
  | cons q groups ih =>
    obtain ⟨n,evs⟩ := q
    obtain ⟨hq,hrest⟩ := List.forall_mem_cons.mp h
    simp only [addToGroup]
    split_ifs with hn
    · refine List.forall_mem_cons.mpr ⟨⟨by simp,fun e he => ?_⟩,hrest⟩
      rcases List.mem_append.mp he with he | he
      · exact hq.2 e he
      · rw [List.mem_singleton.mp he]
        exact hn ▸ hev
    · exact List.forall_mem_cons.mpr ⟨hq,ih hrest⟩

theorem Grouping.targets_assign {g : Grouping} {name n : Text} (h : n ∈ (g.assign name).targets) :
    n ∈ g.targets ∨ (n = name ∧ g.todo ≠ []) := by
  obtain ⟨todo,cache,groups⟩ := g
  cases todo with
  | nil => exact .inl h
  | cons ev rest =>
    simp only [Grouping.assign,Grouping.targets,List.map_append,List.map_cons,List.map_nil,
      List.mem_append,List.mem_singleton] at h ⊢
    rcases h with (h | h) | h
    · exact .inl (.inl h)
    · exact .inr ⟨h,by simp⟩
    · exact (names_addToGroup h).elim (fun h => .inr ⟨h,by simp⟩) (fun h => .inl (.inr h))

theorem nextSuffixedName_some {latest stem name : Text} (h : nextSuffixedName latest stem = some name) :
    ∃ c : Char, c.isLower = true ∧ name = stem ++ c :: dbSuffix := by
  unfold nextSuffixedName at h
  split at h
  · cases h
    exact ⟨'a',rfl,rfl⟩
  · rename_i c _
    split_ifs at h with hc
    cases h
    refine ⟨_,?_,rfl⟩
    have hlow : 97 ≤ c.toNat := hc.1
    have hhigh : c.toNat < 122 := hc.2
    generalize c.toNat = m at hlow hhigh
    interval_cases m <;> decide
  · cases h

theorem bucketSuffixRe_letter {c : Char} (h : c.isLower = true) :
    bucketSuffixRe (c :: dbSuffix) = true := by
  simp [bucketSuffixRe,h]

section Targets

variable {env : StepEnv} {cfg : PassConfig} {db : Db} {archive : Archive} {ph ph' : Phase}

theorem bucketsOfMonth_re {month n : Text} (h : n ∈ bucketsOfMonth archive month) :
    bucketFileRe n = true :=
  (mem_listBuckets.mp (List.mem_filter.mp h).1).2

theorem monthText_of_todo {g : Grouping} (hne : g.todo ≠ [])
    (hmonth : ∀ e ∈ g.rows, MonthText (monthKey e.emittedAt)) : MonthText g.month := by
  obtain ⟨todo,cache,groups⟩ := g
  cases todo with
  | nil => exact absurd rfl hne
  | cons ev rest => exact hmonth ev (by simp [Grouping.rows])

theorem Grouping.targets_place {g : Grouping} {ev : EventRow} {rest : List EventRow} {name n : Text}
    (h : n ∈ (g.place ev rest name).targets) : n ∈ g.targets ∨ n = name := by
  rcases List.mem_append.mp h with h | h
  · exact .inl (List.mem_append_left _ h)
  · exact (names_addToGroup h).elim .inr (fun h => .inl (List.mem_append_right _ h))

theorem sweeperStep_targets (h : (sweeperStep env cfg db archive ph).next = some ph')
    (hmonth : ∀ e ∈ ph.held, MonthText (monthKey e.emittedAt))
    (hre : ∀ n ∈ ph.targets, bucketFileRe n = true) : ∀ n ∈ ph'.targets, bucketFileRe n = true := by
  intro n hn
  cases ph with
  | groupEvents g =>
    simp only [sweeperStep] at h
    repeat' split at h
    all_goals cases h
    · exact hre n (List.mem_append_right _ hn)
    · rename_i hlook
      rcases Grouping.targets_place hn with hn | rfl
      · exact hre n hn
      · refine hre _ (List.mem_append_left _ ?_)
        obtain ⟨l₁,l₂,heq,-⟩ := List.lookup_eq_some_iff.mp hlook
        simp [heq]
    · rcases Grouping.targets_assign hn with hn | ⟨rfl,hne⟩
      · exact hre n hn
      · exact bucketFileRe_prefix (monthText_of_todo hne hmonth) rfl
    · rename_i hlast
      rcases List.mem_cons.mp hn with rfl | hn
      · exact bucketsOfMonth_re (List.mem_of_getLast? hlast)
      · exact hre n hn
  | readMeta g latest =>
    simp only [sweeperStep] at h
    split at h <;> cases h <;> exact hre n hn
  | statBucket g latest =>
    simp only [sweeperStep] at h
    split at h <;> cases h
    · exact hre n hn
    · rcases Grouping.targets_assign hn with hn | ⟨rfl,-⟩
      · exact hre n (List.mem_cons_of_mem _ hn)
      · exact hre n List.mem_cons_self
  | sealLatest g latest =>
    simp only [sweeperStep] at h
    split at h <;> cases h
    rename_i hname
    rcases Grouping.targets_assign hn with hn | ⟨rfl,hne⟩
    · exact hre n (List.mem_cons_of_mem _ hn)
    · obtain ⟨c,hc,rfl⟩ := nextSuffixedName_some hname
      exact bucketFileRe_prefix (monthText_of_todo hne hmonth) (bucketSuffixRe_letter hc)
  | writeGroups groups moved =>
    rcases groups with _ | ⟨⟨name,events⟩,rest⟩ <;> simp only [sweeperStep] at h <;>
      (repeat' split at h) <;> cases h
    · cases hn
    · exact hre n (List.mem_cons_of_mem _ hn)
    · exact hre n hn
    · exact hre n hn
  | readRange w =>
    simp only [sweeperStep] at h
    repeat' split at h
    all_goals cases h
    · exact hre n hn
    · exact hre n (List.mem_cons_of_mem _ hn)
  | writeRange w lo hi =>
    simp only [sweeperStep] at h
    split at h <;> cases h
    exact hre n (List.mem_cons_of_mem _ hn)
  | collectOwed cursors owed => cases cursors <;> cases h <;> cases hn
  | collectCursors | collectAttempts _ | discardOwed _ | deleteLive _ => cases h <;> cases hn
  | openBucket w | createEvents w | createMeta w =>
    cases h
    exact hre n hn
  | setCreatedAt w | setMinEventId w | setMaxEventId w | insertBatch w =>
    simp only [sweeperStep] at h
    split at h <;> cases h
    exact hre n hn
  | readPairs _ | selectCandidates _ =>
    simp only [sweeperStep] at h
    (repeat' split at h) <;> cases h <;> cases hn

theorem sweeperStep_archive (env : StepEnv) (cfg : PassConfig) (db : Db) (archive : Archive)
    (ph : Phase) :
    (∀ n e, Holds (sweeperStep env cfg db archive ph).archive n e ↔ Holds archive n e) ∨
    ∃ w, ph = .insertBatch w ∧
      insertRows archive w.bucketName w.events = some (sweeperStep env cfg db archive ph).archive := by
  cases ph with
  | insertBatch w =>
    simp only [sweeperStep]
    split
    · exact .inl fun _ _ => Iff.rfl
    · rename_i h
      exact .inr ⟨w,rfl,h⟩
  | sealLatest g latest =>
    left
    intro n e
    have hseal : Holds (trySeal env archive latest) n e ↔ Holds archive n e := by
      rcases trySeal_cases env archive latest with ⟨hsame,-⟩ | ⟨-,hsealed⟩
      · rw [hsame]
      · exact holds_setMeta hsealed
    simp only [sweeperStep]
    split <;> exact hseal
  | openBucket w => exact .inl fun _ _ => holds_openFile
  | createEvents w => exact .inl fun _ _ => holds_createEventsTable
  | createMeta w => exact .inl fun _ _ => holds_createMetaTable
  | setCreatedAt w | setMinEventId w | setMaxEventId w | writeRange w lo hi =>
    left
    intro n e
    simp only [sweeperStep]
    split
    · exact Iff.rfl
    · rename_i h
      exact holds_setMeta h
  | collectOwed cursors owed => cases cursors <;> exact .inl fun _ _ => Iff.rfl
  | writeGroups groups moved =>
    left
    rcases groups with _ | ⟨⟨name,events⟩,rest⟩ <;> simp only [sweeperStep] <;> split_ifs <;>
      exact fun _ _ => Iff.rfl
  | _ => left; intro n e; simp only [sweeperStep]; try (repeat' split) <;> exact Iff.rfl

end Targets

end WickedBus
