import WickedBus.Foundation.Catalog

namespace WickedBus.Migrate

open Catalog

def targetSchemaVersion : ℤ := 3

def eventsV1 : List Column := [
  ⟨"event_id","INTEGER PRIMARY KEY AUTOINCREMENT"⟩,
  ⟨"event_type","TEXT NOT NULL CHECK(length(event_type) <= 128)"⟩,
  ⟨"domain","TEXT NOT NULL CHECK(length(domain) <= 64)"⟩,
  ⟨"subdomain","TEXT NOT NULL DEFAULT '' CHECK(length(subdomain) <= 64)"⟩,
  ⟨"payload","TEXT NOT NULL"⟩,
  ⟨"schema_version","TEXT NOT NULL DEFAULT '1.0.0'"⟩,
  ⟨"idempotency_key","TEXT NOT NULL UNIQUE"⟩,
  ⟨"emitted_at","INTEGER NOT NULL"⟩,
  ⟨"expires_at","INTEGER NOT NULL"⟩,
  ⟨"dedup_expires_at","INTEGER NOT NULL"⟩,
  ⟨"metadata","TEXT"⟩]

def subscriptionsTable : Table := ⟨[
  ⟨"subscription_id","TEXT PRIMARY KEY"⟩,
  ⟨"plugin","TEXT NOT NULL"⟩,
  ⟨"role","TEXT NOT NULL CHECK(role IN ('provider','subscriber'))"⟩,
  ⟨"event_type_filter","TEXT NOT NULL"⟩,
  ⟨"schema_version","TEXT"⟩,
  ⟨"registered_at","INTEGER NOT NULL"⟩,
  ⟨"deregistered_at","INTEGER"⟩,
  ⟨"health_check_interval_ms","INTEGER DEFAULT 60000"⟩],[]⟩

def cursorsV1 : List Column := [
  ⟨"cursor_id","TEXT PRIMARY KEY"⟩,
  ⟨"subscription_id","TEXT NOT NULL REFERENCES subscriptions(subscription_id) ON DELETE RESTRICT"⟩,
  ⟨"last_event_id","INTEGER NOT NULL DEFAULT 0"⟩,
  ⟨"acked_at","INTEGER"⟩,
  ⟨"created_at","INTEGER NOT NULL"⟩,
  ⟨"deregistered_at","INTEGER"⟩]

def deadLettersTable : Table := ⟨[
  ⟨"dl_id","INTEGER PRIMARY KEY AUTOINCREMENT"⟩,
  ⟨"cursor_id","TEXT NOT NULL REFERENCES cursors(cursor_id) ON DELETE RESTRICT"⟩,
  ⟨"subscription_id","TEXT NOT NULL REFERENCES subscriptions(subscription_id) ON DELETE RESTRICT"⟩,
  ⟨"event_id","INTEGER NOT NULL"⟩,
  ⟨"event_type","TEXT NOT NULL"⟩,
  ⟨"domain","TEXT NOT NULL"⟩,
  ⟨"subdomain","TEXT NOT NULL DEFAULT ''"⟩,
  ⟨"payload","TEXT NOT NULL"⟩,
  ⟨"emitted_at","INTEGER NOT NULL"⟩,
  ⟨"attempts","INTEGER NOT NULL"⟩,
  ⟨"last_error","TEXT"⟩,
  ⟨"dead_lettered_at","INTEGER NOT NULL"⟩,
  ⟨"replay_requested_at","INTEGER"⟩],[]⟩

def deliveryAttemptsTable : Table := ⟨[
  ⟨"cursor_id","TEXT NOT NULL REFERENCES cursors(cursor_id) ON DELETE CASCADE"⟩,
  ⟨"event_id","INTEGER NOT NULL"⟩,
  ⟨"attempts","INTEGER NOT NULL DEFAULT 1"⟩,
  ⟨"last_attempt_at","INTEGER NOT NULL"⟩,
  ⟨"last_error","TEXT"⟩],["PRIMARY KEY (cursor_id, event_id)"]⟩

def schemaMigrationsTable : Table := ⟨[
  ⟨"version","INTEGER PRIMARY KEY"⟩,
  ⟨"applied_at","INTEGER NOT NULL"⟩,
  ⟨"description","TEXT"⟩],[]⟩

def eventsV2 : List Column := [
  ⟨"parent_event_id","INTEGER"⟩,
  ⟨"session_id","TEXT"⟩,
  ⟨"correlation_id","TEXT"⟩,
  ⟨"producer_id","TEXT"⟩,
  ⟨"origin_node_id","TEXT"⟩,
  ⟨"registry_schema_version","INTEGER"⟩,
  ⟨"payload_cas_sha","TEXT"⟩]

def cursorsV2 : List Column := [⟨"push_socket_addr","TEXT"⟩,⟨"lag_estimate","INTEGER"⟩]

def schemasTable : Table := ⟨[
  ⟨"event_type","TEXT NOT NULL"⟩,
  ⟨"version","INTEGER NOT NULL"⟩,
  ⟨"json_schema","TEXT NOT NULL"⟩,
  ⟨"retention","TEXT NOT NULL DEFAULT 'default' CHECK(retention IN ('default','forever','short'))"⟩,
  ⟨"payload_max_bytes","INTEGER NOT NULL DEFAULT 16384"⟩,
  ⟨"archive_to","TEXT NOT NULL DEFAULT 'warm' CHECK(archive_to IN ('warm','cold','none'))"⟩,
  ⟨"payload_oversize","TEXT NOT NULL DEFAULT 'warn' CHECK(payload_oversize IN ('warn','cas-auto','strict'))"⟩,
  ⟨"deprecated_at","INTEGER"⟩,
  ⟨"sunset_at","INTEGER"⟩],["PRIMARY KEY (event_type, version)"]⟩

def archiveTable : Table := ⟨[
  ⟨"event_id","INTEGER PRIMARY KEY"⟩,
  ⟨"event_type","TEXT NOT NULL"⟩,
  ⟨"domain","TEXT NOT NULL"⟩,
  ⟨"subdomain","TEXT NOT NULL DEFAULT ''"⟩,
  ⟨"payload","TEXT NOT NULL"⟩,
  ⟨"schema_version","TEXT NOT NULL DEFAULT '1.0.0'"⟩,
  ⟨"idempotency_key","TEXT NOT NULL"⟩,
  ⟨"emitted_at","INTEGER NOT NULL"⟩,
  ⟨"expires_at","INTEGER NOT NULL"⟩,
  ⟨"dedup_expires_at","INTEGER NOT NULL"⟩,
  ⟨"metadata","TEXT"⟩,
  ⟨"parent_event_id","INTEGER"⟩,
  ⟨"session_id","TEXT"⟩,
  ⟨"correlation_id","TEXT"⟩,
  ⟨"producer_id","TEXT"⟩,
  ⟨"origin_node_id","TEXT"⟩,
  ⟨"registry_schema_version","INTEGER"⟩,
  ⟨"payload_cas_sha","TEXT"⟩],[]⟩

def archiveTableDdl : Ddl := .createTable "events_archive" archiveTable

def index (name table : String) (columns : List String) : Ddl := .createIndex name ⟨table,columns,none⟩

def partialIndex (name table : String) (columns : List String) (condition : String) : Ddl :=
  .createIndex name ⟨table,columns,some condition⟩

def schemaSql : List Ddl := [
  .createTable "events" ⟨eventsV1,[]⟩,
  index "idx_events_event_type" "events" ["event_type"],
  index "idx_events_domain" "events" ["domain"],
  index "idx_events_subdomain" "events" ["subdomain"],
  index "idx_events_type_domain" "events" ["event_type","domain"],
  index "idx_events_emitted_at" "events" ["emitted_at"],
  index "idx_events_expires_at" "events" ["expires_at"],
  index "idx_events_dedup_expires_at" "events" ["dedup_expires_at"],
  .createTable "subscriptions" subscriptionsTable,
  index "idx_subscriptions_plugin" "subscriptions" ["plugin"],
  partialIndex "idx_subscriptions_active" "subscriptions" ["plugin","role"] "deregistered_at IS NULL",
  .createTable "cursors" ⟨cursorsV1,[]⟩,
  index "idx_cursors_subscription_id" "cursors" ["subscription_id"],
  partialIndex "idx_cursors_active" "cursors" ["subscription_id"] "deregistered_at IS NULL",
  .createTable "dead_letters" deadLettersTable,
  index "idx_dead_letters_cursor_id" "dead_letters" ["cursor_id"],
  index "idx_dead_letters_subscription_id" "dead_letters" ["subscription_id"],
  index "idx_dead_letters_dead_lettered_at" "dead_letters" ["dead_lettered_at"],
  index "idx_dead_letters_event_id" "dead_letters" ["event_id"],
  partialIndex "idx_dead_letters_replay_pending" "dead_letters" ["cursor_id","replay_requested_at"]
    "replay_requested_at IS NOT NULL",
  .createTable "delivery_attempts" deliveryAttemptsTable,
  index "idx_delivery_attempts_cursor_id" "delivery_attempts" ["cursor_id"],
  .createTable "schema_migrations" schemaMigrationsTable,
  .seed "schema_migrations" 1,
  .seed "schema_migrations" 2]

def migration3Ddl : List Ddl := [
  index "idx_events_correlation_id" "events" ["correlation_id"],
  index "idx_events_session_id" "events" ["session_id"],
  index "idx_events_parent_event_id" "events" ["parent_event_id"],
  .createTable "schemas" schemasTable,
  .seed "schema_migrations" 3]

def currentVersion (s : State) : ℤ := s.versions.max?.getD 0

def addArchiveColumns (s : State) : Option State :=
  if (s.tables "events_archive").isSome then s.addColumns "events_archive" eventsV2 else pure s

def applyMigration3 (s : State) : Option State := do
  let s ← s.addColumns "events" eventsV2
  let s ← s.addColumns "cursors" cursorsV2
  let s ← addArchiveColumns s
  migration3Ddl.foldlM State.apply s

def migration3Writes (s : State) : Bool :=
  s.lacksColumns "events" eventsV2 || s.lacksColumns "cursors" cursorsV2 ||
    s.lacksColumns "events_archive" eventsV2 || migration3Ddl.any s.writes

inductive OpenError where
  | sqlite
  | schemaVersionUnsupported (declared maxSupported : ℤ)
  deriving DecidableEq, Repr

inductive OpenPhase where
  | exec (todo : List Ddl)
  | migrate
  | applyMigration3
  | migrating
  | lapsed
  | recheck
  | checkSchemaVersion
  | opened
  | threw (error : OpenError)
  deriving DecidableEq, Repr

def checkSchemaVersion (s : State) : OpenPhase :=
  match s.versions.max? with
  | some v =>
    if targetSchemaVersion < v then .threw (.schemaVersionUnsupported v targetSchemaVersion) else .opened
  | none => .opened

def committed (s : State) (next : OpenPhase) : Option State → State × OpenPhase
  | some s' => (s',next)
  | none => (s,.threw .sqlite)

def openStep (s : State) (fault : Bool) : OpenPhase → State × OpenPhase
  | .opened => (s,.opened)
  | .threw e => (s,.threw e)
  | phase =>
    if fault then (s,.threw .sqlite)
    else
      match phase with
      | .exec [] => (s,.migrate)
      | .exec (d :: todo) => committed s (.exec todo) (s.apply d)
      | .migrate =>
        if targetSchemaVersion ≤ currentVersion s then (s,.checkSchemaVersion)
        else if currentVersion s < 3 then (s,.applyMigration3) else (s,.recheck)
      -- the transaction is deferred: its first read takes a snapshot, its first write the lock
      | .applyMigration3 => (s,.migrating)
      | .migrating => committed s .recheck (applyMigration3 s)
      | .lapsed => (s,.threw .sqlite)
      | .recheck => (s,.checkSchemaVersion)
      | _ => (s,checkSchemaVersion s)

def openWrites (s : State) (fault : Bool) : OpenPhase → Bool
  | .exec (d :: _) => !fault && s.writes d && (s.apply d).isSome
  | .migrating => !fault && migration3Writes s && (applyMigration3 s).isSome
  | _ => false

def eventsTable (migrated : Bool) : Table := ⟨eventsV1 ++ (if migrated then eventsV2 else []),[]⟩

def cursorsTable (migrated : Bool) : Table := ⟨cursorsV1 ++ (if migrated then cursorsV2 else []),[]⟩

def sharedTables : List (String × Table) := [
  ("subscriptions",subscriptionsTable),
  ("dead_letters",deadLettersTable),
  ("delivery_attempts",deliveryAttemptsTable),
  ("schema_migrations",schemaMigrationsTable),
  ("schemas",schemasTable)]

def tablesOf (migrated : Bool) : List (String × Table) :=
  ("events",eventsTable migrated) :: ("cursors",cursorsTable migrated) :: sharedTables

def indexesOf (ddl : List Ddl) : List (String × Index) :=
  ddl.filterMap (fun d => match d with
    | .createIndex name i => some (name,i)
    | _ => none)

def createdBy (ddl : List Ddl) : List (String × Table) :=
  ddl.filterMap (fun d => match d with
    | .createTable name table => some (name,table)
    | _ => none)

def seededBy (ddl : List Ddl) : List ℤ :=
  ddl.filterMap (fun d => match d with
    | .seed _ version => some version
    | _ => none)

structure Matches (migrated : Bool) (s : State) : Prop where
  tables : ∀ x ∈ tablesOf migrated, ∀ t, s.tables x.1 = some t → t = x.2
  indexes : ∀ x ∈ indexesOf (schemaSql ++ migration3Ddl), ∀ i, s.indexes x.1 = some i → i = x.2

def ArchiveNamed (migrated : Bool) (s : State) : Prop :=
  ∀ t, s.tables "events_archive" = some t →
    t.names = (eventsTable true).names ∨ (migrated = false ∧ t.names = (eventsTable false).names)

structure Upgradable (s : State) : Prop where
  versions : ∀ v ∈ s.versions, v < 3
  matching : Matches false s
  archive : ArchiveNamed false s

structure Current (s : State) : Prop where
  migrated : 3 ∈ s.versions
  versions : ∀ v ∈ s.versions, v ≤ 3
  matching : Matches true s
  present : ∀ x ∈ tablesOf true, (s.tables x.1).isSome = true
  indexed : ∀ x ∈ indexesOf migration3Ddl, (s.indexes x.1).isSome = true
  archive : ArchiveNamed true s

def Supported (s : State) : Prop := Upgradable s ∨ Current s

theorem mem_indexesOf {ddl : List Ddl} {name : String} {i : Index} (h : .createIndex name i ∈ ddl) :
    (name,i) ∈ indexesOf ddl :=
  List.mem_filterMap.mpr ⟨_,h,rfl⟩

theorem mem_createdBy {ddl : List Ddl} {name : String} {t : Table} (h : .createTable name t ∈ ddl) :
    (name,t) ∈ createdBy ddl :=
  List.mem_filterMap.mpr ⟨_,h,rfl⟩

theorem mem_seededBy {ddl : List Ddl} {versionTable : String} {v : ℤ} (h : .seed versionTable v ∈ ddl) :
    v ∈ seededBy ddl :=
  List.mem_filterMap.mpr ⟨_,h,rfl⟩

theorem indexes_nodup : ((indexesOf (schemaSql ++ migration3Ddl)).map Prod.fst).Nodup := by
  simp [schemaSql,migration3Ddl,indexesOf,index,partialIndex]

theorem index_unique : ∀ x ∈ indexesOf (schemaSql ++ migration3Ddl),
    ∀ y ∈ indexesOf (schemaSql ++ migration3Ddl), x.1 = y.1 → x.2 = y.2 :=
  fun _ hx _ hy hname => congrArg Prod.snd (List.inj_on_of_nodup_map indexes_nodup hx hy hname)

theorem archive_not_created : ∀ x ∈ createdBy (schemaSql ++ migration3Ddl), x.1 ≠ "events_archive" := by
  simp [schemaSql,migration3Ddl,createdBy,index,partialIndex]

theorem schemaSql_fits : ∀ x ∈ createdBy schemaSql, ∀ y ∈ tablesOf false, y.1 = x.1 → y.2 = x.2 := by
  simp [schemaSql,createdBy,index,partialIndex,tablesOf,sharedTables,eventsTable,cursorsTable]

theorem migration3_fits : ∀ x ∈ createdBy migration3Ddl, ∀ y ∈ tablesOf true, y.1 = x.1 → y.2 = x.2 := by
  simp [migration3Ddl,createdBy,index,tablesOf,sharedTables]

theorem schemaSql_covered :
    ∀ x ∈ indexesOf schemaSql, ∃ y ∈ tablesOf false, y.1 = x.2.table ∧ x.2.covered y.2 = true := by
  decide +kernel

theorem migration3_covered :
    ∀ x ∈ indexesOf migration3Ddl, ∃ y ∈ tablesOf true, y.1 = x.2.table ∧ x.2.covered y.2 = true := by
  decide +kernel

theorem tables_widened : ∀ x ∈ tablesOf false, ∃ y ∈ tablesOf true, y.1 = x.1 ∧ x.2.Widens y.2 := by
  intro x hx
  rcases List.mem_cons.mp hx with rfl | hx
  · exact ⟨_,List.mem_cons_self,rfl,⟨eventsV2,rfl⟩,rfl⟩
  · rcases List.mem_cons.mp hx with rfl | hx
    · exact ⟨_,List.mem_cons_of_mem _ List.mem_cons_self,rfl,⟨cursorsV2,rfl⟩,rfl⟩
    · exact ⟨x,List.mem_cons_of_mem _ (List.mem_cons_of_mem _ hx),rfl,.refl x.2⟩

theorem all_covered : ∀ x ∈ indexesOf (schemaSql ++ migration3Ddl),
    ∃ y ∈ tablesOf true, y.1 = x.2.table ∧ x.2.covered y.2 = true := by
  intro x hx
  rw [indexesOf,List.filterMap_append] at hx
  rcases List.mem_append.mp hx with hx | hx
  · obtain ⟨y,hy,hname,hcovered⟩ := schemaSql_covered x hx
    obtain ⟨z,hz,hsame,hwide⟩ := tables_widened y hy
    exact ⟨z,hz,hsame.trans hname,hwide.covered hcovered⟩
  · exact migration3_covered x hx

theorem schemaSql_seeds : ∀ v ∈ seededBy schemaSql, v < 3 := by decide

theorem all_seeds : ∀ v ∈ seededBy (schemaSql ++ migration3Ddl), v ≤ 3 := by decide

theorem schemaSql_inOrder : inOrder [] schemaSql = true := by
  simp [schemaSql,inOrder,index,partialIndex,Ddl.requires,Ddl.creates]

section Apply

variable {migrated : Bool} {s s' : State} {d : Ddl}

theorem grows_isSome (h : s.Grows s') {name : String} (hsome : (s.tables name).isSome = true) :
    (s'.tables name).isSome = true := by
  obtain ⟨t,ht⟩ := Option.isSome_iff_exists.mp hsome
  obtain ⟨t',ht',-⟩ := h.tables name t ht
  exact Option.isSome_iff_exists.mpr ⟨t',ht'⟩

theorem Matches.apply (h : Matches migrated s) (hd : d ∈ schemaSql ++ migration3Ddl)
    (hfits : ∀ name table, d = .createTable name table → s.tables name = none →
      ∀ x ∈ tablesOf migrated, x.1 = name → x.2 = table) (happly : s.apply d = some s') :
    Matches migrated s' := by
  rcases State.apply_cases happly with ⟨rfl,-⟩ | ⟨name,table,rfl,hnone,rfl⟩ | ⟨name,index,rfl,-,rfl⟩ | ⟨-,v,-,rfl⟩
  · exact h
  · refine ⟨fun x hx t ht => ?_,h.indexes⟩
    by_cases hname : x.1 = name
    · have htable : Function.update s.tables name (some table) x.1 = some t := ht
      rw [hname,Function.update_self] at htable
      exact (Option.some.inj htable).symm.trans (hfits name table rfl hnone x hx hname).symm
    · exact h.tables x hx t ((Function.update_of_ne hname _ _).symm.trans ht)
  · refine ⟨h.tables,fun x hx i hi => ?_⟩
    by_cases hname : x.1 = name
    · have hindex : Function.update s.indexes name (some index) x.1 = some i := hi
      rw [hname,Function.update_self] at hindex
      exact (Option.some.inj hindex).symm.trans (index_unique _ (mem_indexesOf hd) x hx hname.symm)
    · exact h.indexes x hx i ((Function.update_of_ne hname _ _).symm.trans hi)
  · exact ⟨h.tables,h.indexes⟩

theorem apply_archive (hd : d ∈ schemaSql ++ migration3Ddl) (happly : s.apply d = some s') :
    s'.tables "events_archive" = s.tables "events_archive" := by
  rcases State.apply_cases happly with ⟨rfl,-⟩ | ⟨name,table,rfl,-,rfl⟩ | ⟨name,index,-,-,rfl⟩ | ⟨-,v,-,rfl⟩
  · rfl
  · exact Function.update_of_ne (archive_not_created _ (mem_createdBy hd)).symm _ _
  · rfl
  · rfl

theorem apply_versions {bound : ℤ} (hd : ∀ v, v ∈ seededBy [d] → v ≤ bound) (h : ∀ v ∈ s.versions, v ≤ bound)
    (happly : s.apply d = some s') : ∀ v ∈ s'.versions, v ≤ bound := by
  rcases State.apply_cases happly with ⟨rfl,-⟩ | ⟨name,table,-,-,rfl⟩ | ⟨name,index,-,-,rfl⟩ | ⟨versionTable,v,rfl,rfl⟩
  · exact h
  · exact h
  · exact h
  · intro w hw
    rcases mem_addVersion.mp hw with hw | rfl
    · exact h w hw
    · exact hd w (mem_seededBy (List.mem_singleton_self _))

theorem mem_seededBy_of {ddl : List Ddl} (hd : d ∈ ddl) {v : ℤ} (hv : v ∈ seededBy [d]) : v ∈ seededBy ddl := by
  cases d with
  | seed versionTable w =>
    obtain rfl : v = w := List.mem_singleton.mp hv
    exact mem_seededBy hd
  | _ => cases hv

theorem Upgradable.apply (h : Upgradable s) (hd : d ∈ schemaSql) (happly : s.apply d = some s') :
    Upgradable s' := by
  have hall : d ∈ schemaSql ++ migration3Ddl := List.mem_append_left _ hd
  refine ⟨fun v hv => ?_,h.matching.apply hall ?_ happly,?_⟩
  · have hle := @apply_versions s s' d 2 (fun v hv => Int.le_of_lt_add_one (schemaSql_seeds v (mem_seededBy_of hd hv)))
      (fun v hv => Int.le_of_lt_add_one (h.versions v hv)) happly v hv
    omega
  · rintro name table rfl - x hx hname
    exact schemaSql_fits _ (mem_createdBy hd) x hx hname
  · intro t ht
    rw [apply_archive hall happly] at ht
    exact h.archive t ht

theorem Current.apply (h : Current s) (hd : d ∈ schemaSql ++ migration3Ddl) (happly : s.apply d = some s') :
    Current s' := by
  have hgrows := State.apply_grows happly
  refine ⟨hgrows.versions 3 h.migrated,
    apply_versions (fun v hv => all_seeds v (mem_seededBy_of hd hv)) h.versions happly,
    h.matching.apply hd ?_ happly,fun x hx => grows_isSome hgrows (h.present x hx),fun x hx => ?_,fun t ht => ?_⟩
  · rintro name table rfl hnone x hx rfl
    have hpresent := h.present x hx
    rw [hnone] at hpresent
    cases hpresent
  · obtain ⟨i,hi⟩ := Option.isSome_iff_exists.mp (h.indexed x hx)
    exact Option.isSome_iff_exists.mpr ⟨i,hgrows.indexes x.1 i hi⟩
  · rw [apply_archive hd happly] at ht
    exact h.archive t ht

theorem Supported.apply (h : Supported s) (hd : d ∈ schemaSql) (happly : s.apply d = some s') : Supported s' :=
  h.imp (fun h => h.apply hd happly) (fun h => h.apply (List.mem_append_left _ hd) happly)

theorem Matches.covers (h : Matches migrated s) {i : Index}
    (hcovered : ∃ y ∈ tablesOf migrated, y.1 = i.table ∧ i.covered y.2 = true) {t : Table}
    (ht : s.tables i.table = some t) : i.covered t = true := by
  obtain ⟨y,hy,hname,hcovers⟩ := hcovered
  rw [← hname] at ht
  rwa [h.tables y hy t ht]

theorem Supported.succeeds (h : Supported s) (hd : d ∈ schemaSql)
    (hrequires : ∀ t ∈ d.requires, (s.tables t).isSome = true) : ∃ s', s.apply d = some s' := by
  refine State.apply_succeeds hrequires ?_
  rintro name i rfl t ht
  rcases h with h | h
  · exact h.matching.covers (schemaSql_covered _ (mem_indexesOf hd)) ht
  · exact h.matching.covers (all_covered _ (mem_indexesOf (List.mem_append_left _ hd))) ht

end Apply

def widenedTables : List String := ["events","cursors","events_archive"]

theorem sharedTables_kept : ∀ x ∈ sharedTables, x.1 ∉ widenedTables := by
  simp [sharedTables,widenedTables]

theorem events_widened (migrated : Bool) :
    eventsV2.foldl addMissing (eventsTable migrated).columns = (eventsTable true).columns := by
  have hfresh : eventsV2.foldl addMissing (eventsTable false).columns = (eventsTable true).columns := by decide +kernel
  cases migrated with
  | false => exact hfresh
  | true => rw [← hfresh,foldl_addMissing_idem]

theorem cursors_widened (migrated : Bool) :
    cursorsV2.foldl addMissing (cursorsTable migrated).columns = (cursorsTable true).columns := by
  have hfresh : cursorsV2.foldl addMissing (cursorsTable false).columns = (cursorsTable true).columns := by
    decide +kernel
  cases migrated with
  | false => exact hfresh
  | true => rw [← hfresh,foldl_addMissing_idem]

theorem archiveNames_widened (migrated : Bool) :
    (eventsV2.map Column.name).foldl addMissingName (eventsTable migrated).names = (eventsTable true).names := by
  rw [Table.names,← names_foldl_addMissing,events_widened,Table.names]

section Migration

variable {migrated : Bool} {s s' : State}

theorem Matches.widen (h : Matches migrated s) (hindexes : s'.indexes = s.indexes)
    (hevents : ∀ t, s'.tables "events" = some t → t = eventsTable true)
    (hcursors : ∀ t, s'.tables "cursors" = some t → t = cursorsTable true)
    (hkept : ∀ name, name ∉ widenedTables → s'.tables name = s.tables name) : Matches true s' := by
  refine ⟨fun x hx t ht => ?_,hindexes ▸ h.indexes⟩
  rcases List.mem_cons.mp hx with rfl | hx
  · exact hevents t ht
  · rcases List.mem_cons.mp hx with rfl | hx
    · exact hcursors t ht
    · exact h.tables x (List.mem_cons_of_mem _ (List.mem_cons_of_mem _ hx)) t
        ((hkept x.1 (sharedTables_kept x hx)).symm.trans ht)

theorem Matches.events (h : Matches migrated s) {t : Table} (ht : s.tables "events" = some t) :
    t = eventsTable migrated :=
  h.tables _ List.mem_cons_self t ht

theorem Matches.cursors (h : Matches migrated s) {t : Table} (ht : s.tables "cursors" = some t) :
    t = cursorsTable migrated :=
  h.tables _ (List.mem_cons_of_mem _ List.mem_cons_self) t ht

theorem names_widened {t : Table} (ht : t.names = (eventsTable true).names ∨
    (migrated = false ∧ t.names = (eventsTable false).names)) :
    ({ t with columns := eventsV2.foldl addMissing t.columns } : Table).names = (eventsTable true).names := by
  rw [Table.names,names_foldl_addMissing,← Table.names]
  rcases ht with ht | ⟨-,ht⟩
  · rw [ht]
    exact archiveNames_widened true
  · rw [ht]
    exact archiveNames_widened false

structure ColumnsAdded (s s' : State) : Prop where
  matching : Matches true s'
  archive : ArchiveNamed true s'
  grows : s.Grows s'
  versions : s'.versions = s.versions

theorem archive_added (h : Matches true s) (harchive : ArchiveNamed migrated s) :
    ∃ s', addArchiveColumns s = some s' ∧ ColumnsAdded s s' := by
  cases ht : s.tables "events_archive" with
  | none =>
    refine ⟨s,by simp [addArchiveColumns,ht],h,fun t hsome => ?_,.refl s,rfl⟩
    exact absurd (ht.symm.trans hsome) (Option.some_ne_none t).symm
  | some t =>
    obtain ⟨s',hadd,hwide⟩ := State.addColumns_widened ht eventsV2
    refine ⟨s',by rw [addArchiveColumns,ht]; exact hadd,?_,fun u hu => .inl ?_,hwide.grows,hwide.versions⟩
    · refine h.widen hwide.indexes (fun u hu => ?_) (fun u hu => ?_) fun name hname => hwide.others name ?_
      · exact h.events ((hwide.others _ (by decide)).symm.trans hu)
      · exact h.cursors ((hwide.others _ (by decide)).symm.trans hu)
      · rintro rfl
        exact hname (by decide)
    · rw [← Option.some.inj (hwide.table.symm.trans hu)]
      exact names_widened (harchive t ht)

theorem columns_added (h : Matches migrated s) (harchive : ArchiveNamed migrated s)
    (hevents : (s.tables "events").isSome = true) (hcursors : (s.tables "cursors").isSome = true) :
    ∃ s₁ s₂ s₃, s.addColumns "events" eventsV2 = some s₁ ∧ s₁.addColumns "cursors" cursorsV2 = some s₂ ∧
      addArchiveColumns s₂ = some s₃ ∧ ColumnsAdded s s₃ := by
  obtain ⟨e,he⟩ := Option.isSome_iff_exists.mp hevents
  obtain ⟨c,hc⟩ := Option.isSome_iff_exists.mp hcursors
  obtain rfl := h.events he
  obtain rfl := h.cursors hc
  obtain ⟨s₁,hadd₁,hwide₁⟩ := State.addColumns_widened he eventsV2
  have hc₁ : s₁.tables "cursors" = some (cursorsTable migrated) := (hwide₁.others _ (by decide)).trans hc
  obtain ⟨s₂,hadd₂,hwide₂⟩ := State.addColumns_widened hc₁ cursorsV2
  have hkept : ∀ name, name ≠ "events" → name ≠ "cursors" → s₂.tables name = s.tables name :=
    fun name he hc => (hwide₂.others name hc).trans (hwide₁.others name he)
  have hmatching : Matches true s₂ := by
    refine h.widen (hwide₂.indexes.trans hwide₁.indexes) (fun t ht => ?_) (fun t ht => ?_) fun name hname => ?_
    · have htable := (hwide₂.others "events" (by decide)).symm.trans ht
      rw [hwide₁.table,events_widened] at htable
      exact (Option.some.inj htable).symm
    · have htable := hwide₂.table.symm.trans ht
      rw [cursors_widened] at htable
      exact (Option.some.inj htable).symm
    · refine hkept name ?_ ?_
      · rintro rfl
        exact hname (by decide)
      · rintro rfl
        exact hname (by decide)
  have harchive₂ : ArchiveNamed migrated s₂ := by
    intro t ht
    exact harchive t ((hkept _ (by decide) (by decide)).symm.trans ht)
  obtain ⟨s₃,hadd₃,hadded⟩ := archive_added hmatching harchive₂
  exact ⟨s₁,s₂,s₃,hadd₁,hadd₂,hadd₃,hadded.matching,hadded.archive,
    hwide₁.grows.trans (hwide₂.grows.trans hadded.grows),
    hadded.versions.trans (hwide₂.versions.trans hwide₁.versions)⟩

structure Migrated (s s' : State) (ddl : List Ddl) : Prop where
  matching : Matches true s'
  archive : ArchiveNamed true s'
  versions : ∀ v ∈ s'.versions, v ≤ 3
  grows : s.Grows s'
  settled : ∀ d ∈ ddl, s'.Settled d

theorem run_migration3 {ddl : List Ddl} (hsub : ∀ d ∈ ddl, d ∈ migration3Ddl) (h : Matches true s)
    (harchive : ArchiveNamed true s) (hversions : ∀ v ∈ s.versions, v ≤ 3)
    (hrequires : ∀ d ∈ ddl, ∀ t ∈ d.requires, (s.tables t).isSome = true) :
    ∃ s', ddl.foldlM State.apply s = some s' ∧ Migrated s s' ddl := by
  induction ddl generalizing s with
  | nil => exact ⟨s,rfl,h,harchive,hversions,.refl s,fun d hd => absurd hd List.not_mem_nil⟩
  | cons d ddl ih =>
    have hd : d ∈ migration3Ddl := hsub d List.mem_cons_self
    have hall : d ∈ schemaSql ++ migration3Ddl := List.mem_append_right _ hd
    obtain ⟨s₁,happly⟩ : ∃ s₁, s.apply d = some s₁ := by
      refine State.apply_succeeds (hrequires d List.mem_cons_self) ?_
      rintro name i rfl t ht
      exact h.covers (all_covered _ (mem_indexesOf hall)) ht
    have hgrows := State.apply_grows happly
    have hmatching : Matches true s₁ := by
      refine h.apply hall ?_ happly
      rintro name table rfl - x hx hname
      exact migration3_fits _ (mem_createdBy hd) x hx hname
    have harchive₁ : ArchiveNamed true s₁ := by
      intro t ht
      rw [apply_archive hall happly] at ht
      exact harchive t ht
    have hversions₁ := apply_versions (fun v hv => all_seeds v (mem_seededBy_of hall hv)) hversions happly
    obtain ⟨s',hrun,hmigrated⟩ := ih (fun x hx => hsub x (List.mem_cons_of_mem _ hx)) hmatching harchive₁ hversions₁
      (fun x hx t ht => grows_isSome hgrows (hrequires x (List.mem_cons_of_mem _ hx) t ht))
    refine ⟨s',by rw [List.foldlM_cons,happly]; exact hrun,hmigrated.matching,hmigrated.archive,hmigrated.versions,
      hgrows.trans hmigrated.grows,fun x hx => ?_⟩
    rcases List.mem_cons.mp hx with rfl | hx
    · exact (State.apply_settled happly).mono hmigrated.grows
    · exact hmigrated.settled x hx

theorem tables_created : ∀ x ∈ tablesOf true, ∃ y ∈ createdBy (schemaSql ++ migration3Ddl), y.1 = x.1 := by
  simp [schemaSql,migration3Ddl,createdBy,index,partialIndex,tablesOf,sharedTables]

theorem migration3_requires : ∀ d ∈ migration3Ddl, ∀ t ∈ d.requires, ∃ y ∈ createdBy schemaSql, y.1 = t := by
  simp [schemaSql,migration3Ddl,createdBy,index,partialIndex,Ddl.requires]

theorem mem_of_createdBy {ddl : List Ddl} {x : String × Table} (h : x ∈ createdBy ddl) :
    .createTable x.1 x.2 ∈ ddl := by
  obtain ⟨d,hd,hx⟩ := List.mem_filterMap.mp h
  cases d with
  | createTable name table =>
    obtain rfl := Option.some.inj hx
    exact hd
  | _ => cases hx

theorem mem_of_indexesOf {ddl : List Ddl} {x : String × Index} (h : x ∈ indexesOf ddl) :
    .createIndex x.1 x.2 ∈ ddl := by
  obtain ⟨d,hd,hx⟩ := List.mem_filterMap.mp h
  cases d with
  | createIndex name i =>
    obtain rfl := Option.some.inj hx
    exact hd
  | _ => cases hx

theorem created_present {ddl : List Ddl} (hsettled : ∀ d ∈ ddl, s.Settled d) {name : String}
    (h : ∃ y ∈ createdBy ddl, y.1 = name) : (s.tables name).isSome = true := by
  obtain ⟨y,hy,rfl⟩ := h
  exact hsettled _ (mem_of_createdBy hy)

theorem Supported.parts (h : Supported s) :
    ∃ migrated, Matches migrated s ∧ ArchiveNamed migrated s ∧ ∀ v ∈ s.versions, v ≤ 3 := by
  rcases h with h | h
  · exact ⟨false,h.matching,h.archive,fun v hv => (h.versions v hv).le⟩
  · exact ⟨true,h.matching,h.archive,h.versions⟩

theorem applyMigration3_spec (h : Supported s) (hsettled : ∀ d ∈ schemaSql, s.Settled d) :
    ∃ s', applyMigration3 s = some s' ∧ Current s' ∧ s.Grows s' := by
  obtain ⟨migrated,hmatching,harchive,hversions⟩ := h.parts
  obtain ⟨s₁,s₂,s₃,h₁,h₂,h₃,hadded⟩ := columns_added hmatching harchive
    (created_present hsettled ⟨_,mem_createdBy List.mem_cons_self,rfl⟩)
    (created_present hsettled ⟨("cursors",⟨cursorsV1,[]⟩),mem_createdBy (by simp [schemaSql]),rfl⟩)
  have hkept : ∀ d ∈ schemaSql, s₃.Settled d := fun d hd => (hsettled d hd).mono hadded.grows
  obtain ⟨s',hrun,hmigrated⟩ := run_migration3 (fun d hd => hd) hadded.matching hadded.archive
    (hadded.versions ▸ hversions) (fun d hd t ht => created_present hkept (migration3_requires d hd t ht))
  have hall : ∀ d ∈ schemaSql ++ migration3Ddl, s'.Settled d := by
    intro d hd
    rcases List.mem_append.mp hd with hd | hd
    · exact (hkept d hd).mono hmigrated.grows
    · exact hmigrated.settled d hd
  refine ⟨s',?_,⟨?_,hmigrated.versions,hmigrated.matching,?_,?_,hmigrated.archive⟩,
    hadded.grows.trans hmigrated.grows⟩
  · simp only [applyMigration3,h₁,h₂,h₃,Option.bind_eq_bind,Option.bind_some,hrun]
  · exact hmigrated.settled (.seed "schema_migrations" 3) (by simp [migration3Ddl])
  · exact fun x hx => created_present hall (tables_created x hx)
  · exact fun x hx => hmigrated.settled _ (mem_of_indexesOf hx)

end Migration

end WickedBus.Migrate
