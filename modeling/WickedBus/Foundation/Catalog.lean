import Mathlib

namespace Catalog

structure Column where
  name : String
  decl : String
  deriving DecidableEq, Repr

structure Table where
  columns : List Column
  constraints : List String
  deriving DecidableEq, Repr

structure Index where
  table : String
  columns : List String
  condition : Option String
  deriving DecidableEq, Repr

structure State where
  tables : String → Option Table
  indexes : String → Option Index
  versions : List ℤ

inductive Ddl where
  | createTable (name : String) (table : Table)
  | createIndex (name : String) (index : Index)
  | seed (versionTable : String) (version : ℤ)
  deriving DecidableEq, Repr

def Table.names (t : Table) : List String := t.columns.map Column.name

def Index.covered (i : Index) (t : Table) : Bool := i.columns.all (fun c => decide (c ∈ t.names))

def addVersion (versions : List ℤ) (version : ℤ) : List ℤ :=
  if version ∈ versions then versions else versions ++ [version]

def State.apply (s : State) : Ddl → Option State
  | .createTable name table =>
    match s.tables name with
    | some _ => some s
    | none => some { s with tables := Function.update s.tables name (some table) }
  | .createIndex name index =>
    match s.indexes name with
    | some _ => some s
    | none =>
      if (s.tables index.table).any index.covered then
        some { s with indexes := Function.update s.indexes name (some index) }
      else none
  | .seed versionTable version =>
    if (s.tables versionTable).isSome then some { s with versions := addVersion s.versions version }
    else none

def addMissing (columns : List Column) (column : Column) : List Column :=
  if column.name ∈ columns.map Column.name then columns else columns ++ [column]

def State.addColumnIfMissing (s : State) (table : String) (column : Column) : Option State :=
  (s.tables table).map (fun t =>
    { s with tables := Function.update s.tables table (some { t with columns := addMissing t.columns column }) })

def State.addColumns (s : State) (table : String) (columns : List Column) : Option State :=
  columns.foldlM (fun s column => s.addColumnIfMissing table column) s

def State.writes (s : State) : Ddl → Bool
  | .createTable name _ => (s.tables name).isNone
  | .createIndex name _ => (s.indexes name).isNone
  | .seed _ version => decide (version ∉ s.versions)

def State.lacksColumns (s : State) (table : String) (columns : List Column) : Bool :=
  (s.tables table).any (fun t => columns.any (fun c => decide (c.name ∉ t.names)))

def State.Settled (s : State) : Ddl → Prop
  | .createTable name _ => (s.tables name).isSome = true
  | .createIndex name _ => (s.indexes name).isSome = true
  | .seed _ version => version ∈ s.versions

def Ddl.requires : Ddl → List String
  | .createTable _ _ => []
  | .createIndex _ i => [i.table]
  | .seed versionTable _ => [versionTable]

def Ddl.creates : Ddl → List String
  | .createTable name _ => [name]
  | _ => []

def inOrder (created : List String) : List Ddl → Bool
  | [] => true
  | d :: ddl => d.requires.all (fun t => decide (t ∈ created)) && inOrder (created ++ d.creates) ddl

structure Table.Widens (t t' : Table) : Prop where
  columns : t.columns <+: t'.columns
  constraints : t'.constraints = t.constraints

structure State.Grows (s s' : State) : Prop where
  tables : ∀ name t, s.tables name = some t → ∃ t', s'.tables name = some t' ∧ t.Widens t'
  indexes : ∀ name i, s.indexes name = some i → s'.indexes name = some i
  versions : ∀ v ∈ s.versions, v ∈ s'.versions

section Grows

variable {s s' s'' : State} {d : Ddl}

theorem Table.Widens.refl (t : Table) : t.Widens t := ⟨List.prefix_rfl,rfl⟩

theorem Table.Widens.trans {t t' t'' : Table} (h : t.Widens t') (h' : t'.Widens t'') : t.Widens t'' :=
  ⟨h.columns.trans h'.columns,h'.constraints.trans h.constraints⟩

theorem Table.Widens.covered {t t' : Table} {i : Index} (h : t.Widens t') (hcovered : i.covered t = true) :
    i.covered t' = true := by
  simp only [Index.covered,List.all_eq_true,decide_eq_true_eq] at hcovered ⊢
  exact fun c hc => List.map_subset Column.name h.columns.subset (hcovered c hc)

theorem State.Grows.refl (s : State) : s.Grows s :=
  ⟨fun _ t ht => ⟨t,ht,.refl t⟩,fun _ _ hi => hi,fun _ hv => hv⟩

theorem State.Grows.trans (h : s.Grows s') (h' : s'.Grows s'') : s.Grows s'' := by
  refine ⟨fun name t ht => ?_,fun name i hi => h'.indexes name i (h.indexes name i hi),
    fun v hv => h'.versions v (h.versions v hv)⟩
  obtain ⟨t',ht',hwide⟩ := h.tables name t ht
  obtain ⟨t'',ht'',hwide'⟩ := h'.tables name t' ht'
  exact ⟨t'',ht'',hwide.trans hwide'⟩

theorem mem_addVersion {versions : List ℤ} {v w : ℤ} : w ∈ addVersion versions v ↔ w ∈ versions ∨ w = v := by
  unfold addVersion
  split_ifs with h
  · constructor
    · exact .inl
    · rintro (hw | rfl)
      · exact hw
      · exact h
  · simp

theorem grows_update {name : String} {table : Table}
    (h : ∀ t, s.tables name = some t → t.Widens table) :
    s.Grows { s with tables := Function.update s.tables name (some table) } := by
  refine ⟨fun other t ht => ?_,fun _ _ hi => hi,fun _ hv => hv⟩
  by_cases hname : other = name
  · subst hname
    exact ⟨table,Function.update_self ..,h t ht⟩
  · exact ⟨t,(Function.update_of_ne hname _ _).trans ht,.refl t⟩

theorem State.apply_cases (h : s.apply d = some s') :
    (s' = s ∧ s.Settled d) ∨
      (∃ name table, d = .createTable name table ∧ s.tables name = none ∧
        s' = { s with tables := Function.update s.tables name (some table) }) ∨
      (∃ name index, d = .createIndex name index ∧ s.indexes name = none ∧
        s' = { s with indexes := Function.update s.indexes name (some index) }) ∨
      ∃ versionTable v, d = .seed versionTable v ∧ s' = { s with versions := addVersion s.versions v } := by
  cases d with
  | createTable name table =>
    simp only [State.apply] at h
    split at h
    · rename_i t ht
      exact .inl ⟨(Option.some.inj h).symm,Option.isSome_iff_exists.mpr ⟨t,ht⟩⟩
    · rename_i hnone
      exact .inr (.inl ⟨name,table,rfl,hnone,(Option.some.inj h).symm⟩)
  | createIndex name index =>
    simp only [State.apply] at h
    split at h
    · rename_i i hi
      exact .inl ⟨(Option.some.inj h).symm,Option.isSome_iff_exists.mpr ⟨i,hi⟩⟩
    · rename_i hnone
      split_ifs at h
      exact .inr (.inr (.inl ⟨name,index,rfl,hnone,(Option.some.inj h).symm⟩))
  | seed versionTable v =>
    simp only [State.apply] at h
    split_ifs at h
    exact .inr (.inr (.inr ⟨versionTable,v,rfl,(Option.some.inj h).symm⟩))

theorem State.apply_settled (h : s.apply d = some s') : s'.Settled d := by
  rcases State.apply_cases h with ⟨rfl,hd⟩ | ⟨name,table,rfl,-,rfl⟩ | ⟨name,index,rfl,-,rfl⟩ | ⟨versionTable,v,rfl,rfl⟩
  · exact hd
  · simp [State.Settled]
  · simp [State.Settled]
  · exact mem_addVersion.mpr (.inr rfl)

theorem State.apply_grows (h : s.apply d = some s') : s.Grows s' := by
  rcases State.apply_cases h with ⟨rfl,-⟩ | ⟨name,table,-,hnone,rfl⟩ | ⟨name,index,-,hnone,rfl⟩ | ⟨-,v,-,rfl⟩
  · exact .refl _
  · exact grows_update fun t ht => absurd (hnone.symm.trans ht) (Option.some_ne_none t).symm
  · refine ⟨fun _ t ht => ⟨t,ht,.refl t⟩,fun other i hi => ?_,fun _ hv => hv⟩
    have hname : other ≠ name := by
      rintro rfl
      exact absurd (hnone.symm.trans hi) (Option.some_ne_none i).symm
    exact (Function.update_of_ne hname _ _).trans hi
  · exact ⟨fun _ t ht => ⟨t,ht,.refl t⟩,fun _ _ hi => hi,fun _ hv => mem_addVersion.mpr (.inl hv)⟩

theorem State.Settled.mono (h : s.Settled d) (hgrows : s.Grows s') : s'.Settled d := by
  cases d with
  | createTable name table =>
    obtain ⟨t,ht⟩ := Option.isSome_iff_exists.mp h
    obtain ⟨t',ht',-⟩ := hgrows.tables name t ht
    exact Option.isSome_iff_exists.mpr ⟨t',ht'⟩
  | createIndex name index =>
    obtain ⟨i,hi⟩ := Option.isSome_iff_exists.mp h
    exact Option.isSome_iff_exists.mpr ⟨i,hgrows.indexes name i hi⟩
  | seed versionTable v => exact hgrows.versions v h

theorem State.apply_succeeds (hrequires : ∀ t ∈ d.requires, (s.tables t).isSome = true)
    (hcovers : ∀ name index, d = .createIndex name index → ∀ t, s.tables index.table = some t →
      index.covered t = true) : ∃ s', s.apply d = some s' := by
  cases d with
  | createTable name table =>
    simp only [State.apply]
    split
    · exact ⟨_,rfl⟩
    · exact ⟨_,rfl⟩
  | createIndex name index =>
    obtain ⟨t,ht⟩ := Option.isSome_iff_exists.mp (hrequires index.table (List.mem_singleton_self _))
    have hcovered := hcovers name index rfl t ht
    simp only [State.apply]
    split
    · exact ⟨_,rfl⟩
    · exact ⟨_,if_pos (by rw [ht]; exact hcovered)⟩
  | seed versionTable v => exact ⟨_,if_pos (hrequires versionTable (List.mem_singleton_self _))⟩

theorem requires_of_inOrder {done todo : List Ddl} {created : List String}
    (h : inOrder created (done ++ d :: todo) = true) :
    ∀ t ∈ d.requires, t ∈ created ∨ ∃ table, .createTable t table ∈ done := by
  induction done generalizing created with
  | nil =>
    simp only [List.nil_append,inOrder,Bool.and_eq_true,List.all_eq_true,decide_eq_true_eq] at h
    exact fun t ht => .inl (h.1 t ht)
  | cons x done ih =>
    simp only [List.cons_append,inOrder,Bool.and_eq_true] at h
    intro t ht
    rcases ih h.2 t ht with hmem | ⟨table,hmem⟩
    · rcases List.mem_append.mp hmem with hmem | hmem
      · exact .inl hmem
      · cases x with
        | createTable name table =>
          rw [List.mem_singleton.mp hmem]
          exact .inr ⟨table,List.mem_cons_self⟩
        | _ => cases hmem
    · exact .inr ⟨table,List.mem_cons_of_mem _ hmem⟩

theorem prefix_addMissing (columns : List Column) (column : Column) : columns <+: addMissing columns column := by
  unfold addMissing
  split_ifs
  · exact List.prefix_rfl
  · exact List.prefix_append _ _

theorem prefix_foldl_addMissing (columns added : List Column) : columns <+: added.foldl addMissing columns := by
  induction added generalizing columns with
  | nil => exact List.prefix_rfl
  | cons column added ih => exact (prefix_addMissing columns column).trans (ih _)

theorem foldl_addMissing_of_mem {columns added : List Column}
    (h : ∀ column ∈ added, column.name ∈ columns.map Column.name) : added.foldl addMissing columns = columns := by
  induction added with
  | nil => rfl
  | cons column added ih =>
    rw [List.foldl_cons,addMissing,if_pos (h column List.mem_cons_self)]
    exact ih fun c hc => h c (List.mem_cons_of_mem _ hc)

theorem mem_names_foldl {columns added : List Column} {column : Column} (h : column ∈ added) :
    column.name ∈ (added.foldl addMissing columns).map Column.name := by
  induction added generalizing columns with
  | nil => cases h
  | cons first added ih =>
    rcases List.mem_cons.mp h with rfl | h
    · refine List.map_subset Column.name (prefix_foldl_addMissing _ added).subset ?_
      unfold addMissing
      split_ifs with hmem
      · exact hmem
      · simp
    · exact ih h

theorem foldl_addMissing_idem (columns added : List Column) :
    added.foldl addMissing (added.foldl addMissing columns) = added.foldl addMissing columns :=
  foldl_addMissing_of_mem fun _ h => mem_names_foldl h

theorem State.addColumns_eq {table : String} {t : Table} (ht : s.tables table = some t) (columns : List Column) :
    s.addColumns table columns = some { s with
      tables := Function.update s.tables table (some { t with columns := columns.foldl addMissing t.columns }) } := by
  induction columns generalizing s t with
  | nil =>
    have hsame : Function.update s.tables table (some t) = s.tables := by rw [← ht,Function.update_eq_self]
    rw [List.foldl_nil,hsame]
    rfl
  | cons column columns ih =>
    have hone : s.addColumnIfMissing table column = some { s with
        tables := Function.update s.tables table (some { t with columns := addMissing t.columns column }) } := by
      rw [State.addColumnIfMissing,ht]
      rfl
    rw [State.addColumns,List.foldlM_cons,hone]
    refine (ih (Function.update_self ..)).trans ?_
    simp only [Function.update_idem,List.foldl_cons]

structure Widened (s s' : State) (target : String) (t : Table) (columns : List Column) : Prop where
  table : s'.tables target = some { t with columns := columns.foldl addMissing t.columns }
  others : ∀ name, name ≠ target → s'.tables name = s.tables name
  indexes : s'.indexes = s.indexes
  versions : s'.versions = s.versions
  grows : s.Grows s'

theorem State.addColumns_widened {table : String} {t : Table} (ht : s.tables table = some t) (columns : List Column) :
    ∃ s', s.addColumns table columns = some s' ∧ Widened s s' table t columns := by
  refine ⟨_,State.addColumns_eq ht columns,Function.update_self ..,fun name hname => Function.update_of_ne hname _ _,
    rfl,rfl,grows_update fun u hu => ?_⟩
  obtain rfl := Option.some.inj (ht.symm.trans hu)
  exact ⟨prefix_foldl_addMissing _ _,rfl⟩

end Grows

def addMissingName (names : List String) (name : String) : List String :=
  if name ∈ names then names else names ++ [name]

theorem names_addMissing (columns : List Column) (column : Column) :
    (addMissing columns column).map Column.name = addMissingName (columns.map Column.name) column.name := by
  unfold addMissing addMissingName
  split_ifs <;> simp

theorem names_foldl_addMissing (columns added : List Column) :
    (added.foldl addMissing columns).map Column.name =
      (added.map Column.name).foldl addMissingName (columns.map Column.name) := by
  induction added generalizing columns with
  | nil => rfl
  | cons column added ih => rw [List.foldl_cons,ih,names_addMissing,List.map_cons,List.foldl_cons]

end Catalog
