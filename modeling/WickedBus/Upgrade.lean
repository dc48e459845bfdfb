import WickedBus.Foundation.GuardedRun
import WickedBus.Migrate

namespace WickedBus.Migrate

open Catalog

structure Upgrade where
  catalog : State
  openers : ℕ → Option OpenPhase

inductive UpgradeAction where
  | openDb (p : ℕ)
  | step (p : ℕ) (fault : Bool)
  | crash (p : ℕ)
  | archiveDdl
  | commitRows
  deriving DecidableEq, Repr

def Upgrade.commits (u : Upgrade) : UpgradeAction → Bool
  | .openDb _ | .crash _ => false
  | .step p fault => (u.openers p).any (openWrites u.catalog fault)
  | .archiveDdl => u.catalog.writes archiveTableDdl
  | .commitRows => true

def OpenPhase.interrupted : OpenPhase → OpenPhase
  | .migrating => .lapsed
  | phase => phase

def Upgrade.interrupted (u : Upgrade) (a : UpgradeAction) (p : ℕ) : Option OpenPhase :=
  (u.openers p).map (fun phase => if u.commits a then phase.interrupted else phase)

def Upgrade.step (u : Upgrade) : UpgradeAction → Option Upgrade
  | .openDb p =>
    match u.openers p with
    | none => some { u with openers := Function.update u.openers p (some (.exec schemaSql)) }
    | some _ => none
  | .step p fault =>
    (u.openers p).map (fun phase =>
      let r := openStep u.catalog fault phase
      ⟨r.1,Function.update (u.interrupted (.step p fault)) p (some r.2)⟩)
  | .crash p => some { u with openers := Function.update u.openers p none }
  | .archiveDdl => (u.catalog.apply archiveTableDdl).map (fun s => ⟨s,u.interrupted .archiveDdl⟩)
  | .commitRows => some { u with openers := u.interrupted .commitRows }

def Upgrade.start (s : State) : Upgrade := ⟨s,fun _ => none⟩

def PhaseOk (s : State) : OpenPhase → Prop
  | .exec todo => ∃ done, schemaSql = done ++ todo ∧ ∀ d ∈ done, s.Settled d
  | .migrate | .applyMigration3 | .migrating | .lapsed => ∀ d ∈ schemaSql, s.Settled d
  | .recheck | .checkSchemaVersion | .opened => (∀ d ∈ schemaSql, s.Settled d) ∧ Current s
  | .threw e => e = .sqlite

def OpenPhase.remaining : OpenPhase → ℕ
  | .exec todo => todo.length + 6
  | .migrate => 5
  | .applyMigration3 => 4
  | .migrating => 3
  | .recheck => 2
  | .checkSchemaVersion => 1
  | .lapsed | .opened | .threw _ => 0

def OpenPhase.Failing (phase : OpenPhase) : Prop := phase = .lapsed ∨ ∃ e, phase = .threw e

structure OpenStepOk (s : State) (phase : OpenPhase) (fault : Bool) (r : State × OpenPhase) : Prop where
  supported : Supported r.1
  grows : s.Grows r.1
  next : PhaseOk r.1 r.2
  advances : fault = false → ¬ phase.Failing →
    ¬ r.2.Failing ∧ (phase = .opened ∨ r.2.remaining < phase.remaining)

section Open

variable {s s' : State} {phase : OpenPhase} {fault : Bool}

theorem Current.later (h : Current s) (hgrows : s.Grows s') (hsupported : Supported s') : Current s' := by
  refine hsupported.resolve_left fun hold => ?_
  exact absurd (hold.versions 3 (hgrows.versions 3 h.migrated)) (lt_irrefl 3)

theorem PhaseOk.mono (h : PhaseOk s phase) (hgrows : s.Grows s') (hsupported : Supported s') : PhaseOk s' phase := by
  cases phase with
  | exec todo =>
    obtain ⟨done,hdone,hsettled⟩ := h
    exact ⟨done,hdone,fun d hd => (hsettled d hd).mono hgrows⟩
  | migrate => exact fun d hd => (h d hd).mono hgrows
  | applyMigration3 => exact fun d hd => (h d hd).mono hgrows
  | migrating => exact fun d hd => (h d hd).mono hgrows
  | lapsed => exact fun d hd => (h d hd).mono hgrows
  | recheck => exact ⟨fun d hd => (h.1 d hd).mono hgrows,h.2.later hgrows hsupported⟩
  | checkSchemaVersion => exact ⟨fun d hd => (h.1 d hd).mono hgrows,h.2.later hgrows hsupported⟩
  | opened => exact ⟨fun d hd => (h.1 d hd).mono hgrows,h.2.later hgrows hsupported⟩
  | threw e => exact h

theorem PhaseOk.interrupted (h : PhaseOk s phase) : PhaseOk s phase.interrupted := by
  cases phase <;> exact h

theorem currentVersion_eq_of_mem {v : ℤ} (h : currentVersion s = v) (hv : v ≠ 0) : v ∈ s.versions := by
  unfold currentVersion at h
  cases hmax : s.versions.max? with
  | none =>
    rw [hmax] at h
    exact absurd h.symm hv
  | some m =>
    rw [hmax] at h
    exact h ▸ List.max?_mem hmax

theorem Supported.current_of_version (h : Supported s) (hversion : targetSchemaVersion ≤ currentVersion s) :
    Current s := by
  refine h.resolve_left fun hold => ?_
  have hmem := @currentVersion_eq_of_mem s _ rfl (by unfold targetSchemaVersion at hversion; omega)
  have hlt := hold.versions _ hmem
  unfold targetSchemaVersion at hversion
  omega

theorem Current.check (h : Current s) : checkSchemaVersion s = .opened := by
  unfold checkSchemaVersion
  split
  · rename_i v hmax
    exact if_neg (not_lt.mpr (h.versions v (List.max?_mem hmax)))
  · rfl

theorem openStep_fault (hlive : phase ≠ .opened ∧ ∀ e, phase ≠ .threw e)
    (hfault : fault = true) : openStep s fault phase = (s,.threw .sqlite) := by
  subst hfault
  cases phase with
  | opened => exact absurd rfl hlive.1
  | threw e => exact absurd rfl (hlive.2 e)
  | _ => rfl

theorem OpenStepOk.still {next : OpenPhase} (h : Supported s) (hnext : PhaseOk s next)
    (hgoing : ¬ next.Failing) (hless : phase = .opened ∨ next.remaining < phase.remaining) :
    OpenStepOk s phase fault (s,next) :=
  ⟨h,.refl s,hnext,fun _ _ => ⟨hgoing,hless⟩⟩

theorem openStep_exec (h : Supported s) {todo : List Ddl} (hphase : PhaseOk s (.exec todo)) :
    OpenStepOk s (.exec todo) false (openStep s false (.exec todo)) := by
  obtain ⟨done,hdone,hsettled⟩ := hphase
  cases todo with
  | nil =>
    rw [List.append_nil] at hdone
    exact .still h (fun d hd => hsettled d (hdone ▸ hd)) (by simp [OpenPhase.Failing])
      (.inr (by simp [OpenPhase.remaining]))
  | cons d todo =>
    have hd : d ∈ schemaSql := hdone ▸ List.mem_append_right _ List.mem_cons_self
    have hrequires : ∀ t ∈ d.requires, (s.tables t).isSome = true := by
      intro t ht
      rcases requires_of_inOrder (hdone ▸ schemaSql_inOrder) t ht with hmem | ⟨table,hmem⟩
      · cases hmem
      · exact hsettled _ hmem
    obtain ⟨s',happly⟩ := h.succeeds hd hrequires
    have hgrows := State.apply_grows happly
    have hstep : openStep s false (.exec (d :: todo)) = (s',.exec todo) := by
      simp only [openStep,Bool.false_eq_true,if_false,happly,committed]
    rw [hstep]
    refine ⟨h.apply hd happly,hgrows,⟨done ++ [d],by rw [hdone,List.append_assoc]; rfl,fun x hx => ?_⟩,
      fun _ _ => ⟨by simp [OpenPhase.Failing],.inr (by simp [OpenPhase.remaining])⟩⟩
    rcases List.mem_append.mp hx with hx | hx
    · exact (hsettled x hx).mono hgrows
    · exact List.mem_singleton.mp hx ▸ State.apply_settled happly

theorem openStep_migrate (h : Supported s) (hsettled : ∀ d ∈ schemaSql, s.Settled d) :
    OpenStepOk s .migrate false (openStep s false .migrate) := by
  by_cases hversion : targetSchemaVersion ≤ currentVersion s
  · have hstep : openStep s false .migrate = (s,.checkSchemaVersion) := by
      simp only [openStep,Bool.false_eq_true,if_false,hversion,if_true]
    rw [hstep]
    exact .still h ⟨hsettled,h.current_of_version hversion⟩ (by simp [OpenPhase.Failing])
      (.inr (by decide))
  · have hbelow : currentVersion s < 3 := not_le.mp hversion
    have hstep : openStep s false .migrate = (s,.applyMigration3) := by
      simp only [openStep,Bool.false_eq_true,if_false,hversion,hbelow,if_true]
    rw [hstep]
    exact .still h hsettled (by simp [OpenPhase.Failing]) (.inr (by decide))

theorem openStep_migrating (h : Supported s) (hsettled : ∀ d ∈ schemaSql, s.Settled d) :
    OpenStepOk s .migrating false (openStep s false .migrating) := by
  obtain ⟨s',happly,hcurrent,hgrows⟩ := applyMigration3_spec h hsettled
  have hstep : openStep s false .migrating = (s',.recheck) := by
    simp only [openStep,Bool.false_eq_true,if_false,happly,committed]
  rw [hstep]
  exact ⟨.inr hcurrent,hgrows,⟨fun d hd => (hsettled d hd).mono hgrows,hcurrent⟩,
    fun _ _ => ⟨by simp [OpenPhase.Failing],.inr (by simp [OpenPhase.remaining])⟩⟩

theorem openStep_ok (h : Supported s) (hphase : PhaseOk s phase) (fault : Bool) :
    OpenStepOk s phase fault (openStep s fault phase) := by
  by_cases hdone : phase = .opened ∨ ∃ e, phase = .threw e
  · rcases hdone with rfl | ⟨e,rfl⟩
    · exact .still h hphase (by simp [OpenPhase.Failing]) (.inl rfl)
    · exact ⟨h,.refl s,hphase,fun _ hgoing => absurd (.inr ⟨e,rfl⟩) hgoing⟩
  · push Not at hdone
    cases fault with
    | true =>
      rw [openStep_fault hdone rfl]
      exact ⟨h,.refl s,rfl,fun hfault => Bool.noConfusion hfault⟩
    | false =>
      cases phase with
      | exec todo => exact openStep_exec h hphase
      | migrate => exact openStep_migrate h hphase
      | applyMigration3 => exact .still h hphase (by simp [OpenPhase.Failing]) (.inr (by decide))
      | migrating => exact openStep_migrating h hphase
      | lapsed => exact ⟨h,.refl s,rfl,fun _ hgoing => absurd (.inl rfl) hgoing⟩
      | recheck => exact .still h hphase (by simp [OpenPhase.Failing]) (.inr (by decide))
      | checkSchemaVersion =>
        have hstep : openStep s false .checkSchemaVersion = (s,.opened) := congrArg (Prod.mk s) hphase.2.check
        rw [hstep]
        exact .still h hphase (by simp [OpenPhase.Failing]) (.inr (by decide))
      | opened => exact absurd rfl hdone.1
      | threw e => exact absurd rfl (hdone.2 e)

theorem archiveTable_names : archiveTable.names = (eventsTable true).names := rfl

theorem tables_not_archive (migrated : Bool) : ∀ x ∈ tablesOf migrated, x.1 ≠ "events_archive" := by
  simp [tablesOf,sharedTables]

theorem archiveDdl_cases (happly : s.apply archiveTableDdl = some s') :
    s' = s ∨ s' = { s with tables := Function.update s.tables "events_archive" (some archiveTable) } := by
  rcases State.apply_cases happly with ⟨rfl,-⟩ | ⟨name,table,heq,-,rfl⟩ | ⟨name,index,heq,-,rfl⟩ | ⟨vt,v,heq,rfl⟩
  · exact .inl rfl
  · cases heq
    exact .inr rfl
  · cases heq
  · cases heq

theorem Matches.archiveDdl {migrated : Bool} (h : Matches migrated s) (happly : s.apply archiveTableDdl = some s') :
    Matches migrated s' := by
  rcases archiveDdl_cases happly with rfl | rfl
  · exact h
  · exact ⟨fun x hx t ht => h.tables x hx t
      ((Function.update_of_ne (tables_not_archive migrated x hx) _ _).symm.trans ht),h.indexes⟩

theorem ArchiveNamed.archiveDdl {migrated : Bool} (h : ArchiveNamed migrated s)
    (happly : s.apply archiveTableDdl = some s') : ArchiveNamed migrated s' := by
  rcases archiveDdl_cases happly with rfl | rfl
  · exact h
  · intro t ht
    have htable : Function.update s.tables "events_archive" (some archiveTable) "events_archive" = some t := ht
    rw [Function.update_self] at htable
    exact .inl (Option.some.inj htable ▸ archiveTable_names)

theorem Supported.archiveDdl (h : Supported s) (happly : s.apply archiveTableDdl = some s') : Supported s' := by
  have hgrows := State.apply_grows happly
  have hversions : ∀ bound, (∀ v ∈ s.versions, v ≤ bound) → ∀ v ∈ s'.versions, v ≤ bound :=
    fun bound hbound => apply_versions (fun v hv => absurd hv List.not_mem_nil) hbound happly
  rcases h with h | h
  · refine .inl ⟨fun v hv => ?_,h.matching.archiveDdl happly,h.archive.archiveDdl happly⟩
    exact Int.lt_add_one_of_le (hversions 2 (fun w hw => Int.le_of_lt_add_one (h.versions w hw)) v hv)
  · refine .inr ⟨hgrows.versions 3 h.migrated,hversions 3 h.versions,h.matching.archiveDdl happly,
      fun x hx => grows_isSome hgrows (h.present x hx),fun x hx => ?_,h.archive.archiveDdl happly⟩
    obtain ⟨i,hi⟩ := Option.isSome_iff_exists.mp (h.indexed x hx)
    exact Option.isSome_iff_exists.mpr ⟨i,hgrows.indexes x.1 i hi⟩

end Open

structure UpgradeInvariant (s : State) (u : Upgrade) : Prop where
  supported : Supported u.catalog
  grows : s.Grows u.catalog
  phases : ∀ p phase, u.openers p = some phase → PhaseOk u.catalog phase

section Upgrade

variable {s : State} {u v : Upgrade} {a : UpgradeAction}

theorem update_opener {openers : ℕ → Option OpenPhase} {p q : ℕ} {next : Option OpenPhase} {phase : OpenPhase}
    (h : Function.update openers p next q = some phase) :
    (q = p ∧ next = some phase) ∨ (q ≠ p ∧ openers q = some phase) := by
  by_cases hq : q = p
  · subst hq
    exact .inl ⟨rfl,by simpa using h⟩
  · exact .inr ⟨hq,(Function.update_of_ne hq _ _).symm.trans h⟩

theorem interrupted_eq_some {phase : OpenPhase} {p : ℕ} (h : u.interrupted a p = some phase) :
    ∃ old, u.openers p = some old ∧ (phase = old ∨ (u.commits a = true ∧ phase = old.interrupted)) := by
  obtain ⟨old,hold,rfl⟩ := Option.map_eq_some_iff.mp h
  refine ⟨old,hold,?_⟩
  split_ifs with hcommits
  · exact .inr ⟨hcommits,rfl⟩
  · exact .inl rfl

theorem UpgradeInvariant.interrupted (h : UpgradeInvariant s u) {s' : State} (hgrows : u.catalog.Grows s')
    (hsupported : Supported s') {phase : OpenPhase} {p : ℕ} (hp : u.interrupted a p = some phase) :
    PhaseOk s' phase := by
  obtain ⟨old,hold,rfl | ⟨-,rfl⟩⟩ := interrupted_eq_some hp
  · exact (h.phases p _ hold).mono hgrows hsupported
  · exact ((h.phases p old hold).mono hgrows hsupported).interrupted

theorem UpgradeInvariant.start (h : Supported s) : UpgradeInvariant s (.start s) :=
  ⟨h,.refl s,fun _ phase hp => absurd hp.symm (Option.some_ne_none phase)⟩

theorem UpgradeInvariant.step (h : UpgradeInvariant s u) (hstep : u.step a = some v) : UpgradeInvariant s v := by
  cases a with
  | openDb p =>
    simp only [Upgrade.step] at hstep
    split at hstep
    · cases hstep
      refine ⟨h.supported,h.grows,fun q phase hq => ?_⟩
      rcases update_opener hq with ⟨-,hnext⟩ | ⟨-,hq⟩
      · exact Option.some.inj hnext ▸ ⟨[],rfl,fun d hd => absurd hd List.not_mem_nil⟩
      · exact h.phases q phase hq
    · cases hstep
  | step p fault =>
    obtain ⟨phase,hp,rfl⟩ := Option.map_eq_some_iff.mp hstep
    have hok := openStep_ok h.supported (h.phases p phase hp) fault
    refine ⟨hok.supported,h.grows.trans hok.grows,fun q other hq => ?_⟩
    rcases update_opener hq with ⟨-,hnext⟩ | ⟨-,hq⟩
    · exact Option.some.inj hnext ▸ hok.next
    · exact h.interrupted hok.grows hok.supported hq
  | crash p =>
    cases hstep
    refine ⟨h.supported,h.grows,fun q phase hq => ?_⟩
    rcases update_opener hq with ⟨-,hnext⟩ | ⟨-,hq⟩
    · cases hnext
    · exact h.phases q phase hq
  | archiveDdl =>
    obtain ⟨s',happly,rfl⟩ := Option.map_eq_some_iff.mp hstep
    have hsupported := h.supported.archiveDdl happly
    have hgrows := State.apply_grows happly
    exact ⟨hsupported,h.grows.trans hgrows,fun q phase hq => h.interrupted hgrows hsupported hq⟩
  | commitRows =>
    cases hstep
    exact ⟨h.supported,h.grows,fun q phase hq => h.interrupted (.refl _) h.supported hq⟩

end Upgrade

structure Opened (s : State) : Prop where
  tables : ∀ x ∈ tablesOf true, s.tables x.1 = some x.2
  indexes : ∀ x ∈ indexesOf (schemaSql ++ migration3Ddl), s.indexes x.1 = some x.2
  archive : ∀ t, s.tables "events_archive" = some t → t.names = (eventsTable true).names
  version : currentVersion s = targetSchemaVersion ∧ 1 ∈ s.versions ∧ 2 ∈ s.versions

theorem Current.currentVersion {s : State} (h : Current s) : currentVersion s = targetSchemaVersion := by
  have hmax : s.versions.max? = some 3 := List.max?_eq_some_iff.mpr ⟨h.migrated,h.versions⟩
  rw [WickedBus.Migrate.currentVersion,hmax]
  rfl

theorem opened_of_phase {s : State} (h : PhaseOk s .opened) : Opened s := by
  obtain ⟨hsettled,hcurrent⟩ := h
  refine ⟨fun x hx => ?_,fun x hx => ?_,fun t ht => ?_,hcurrent.currentVersion,
    hsettled (.seed "schema_migrations" 1) (by simp [schemaSql]),
    hsettled (.seed "schema_migrations" 2) (by simp [schemaSql])⟩
  · obtain ⟨t,ht⟩ := Option.isSome_iff_exists.mp (hcurrent.present x hx)
    rw [ht,hcurrent.matching.tables x hx t ht]
  · have hsome : (s.indexes x.1).isSome = true := by
      rcases List.mem_append.mp (mem_of_indexesOf hx) with hd | hd
      · exact hsettled _ hd
      · exact hcurrent.indexed x (mem_indexesOf hd)
    obtain ⟨i,hi⟩ := Option.isSome_iff_exists.mp hsome
    rw [hi,hcurrent.matching.indexes x hx i hi]
  · exact (hcurrent.archive t ht).resolve_right fun hfalse => Bool.noConfusion hfalse.1

theorem openDb_converges {ok : Upgrade → UpgradeAction → Prop} {s : State} (hsupported : Supported s)
    {as : List UpgradeAction} {u : Upgrade} (hrun : GuardedRun.Run Upgrade.step ok (.start s) as u) {p : ℕ}
    (hopened : u.openers p = some .opened) : Opened u.catalog ∧ s.Grows u.catalog := by
  have h : UpgradeInvariant s u :=
    hrun.invariant (fun _ _ _ (ht : UpgradeInvariant s _) _ hs => ht.step hs) (.start hsupported)
  exact ⟨opened_of_phase (h.phases p _ hopened),h.grows⟩

def Migrates (phase : OpenPhase) : Prop := phase = .applyMigration3 ∨ phase = .migrating ∨ phase = .lapsed

def Ahead (phase : OpenPhase) : Prop := Migrates phase ∨ phase = .recheck ∨ phase = .opened

structure Refused (s : State) (u : Upgrade) : Prop where
  newer : ∃ v ∈ u.catalog.versions, targetSchemaVersion < v
  tables : ∀ name t, s.tables name = some t → u.catalog.tables name = some t
  openers : ∀ p phase, u.openers p = some phase → ¬ Ahead phase

section Newer

variable {s s' : State} {u v : Upgrade} {a : UpgradeAction} {phase : OpenPhase} {fault : Bool}

theorem le_currentVersion {v : ℤ} (hv : v ∈ s.versions) : v ≤ currentVersion s := by
  unfold currentVersion
  cases hmax : s.versions.max? with
  | none =>
    rw [List.max?_eq_none_iff.mp hmax] at hv
    cases hv
  | some m => exact (List.max?_eq_some_iff.mp hmax).2 v hv

theorem apply_tables {d : Ddl} (happly : s.apply d = some s') {name : String} {t : Table}
    (ht : s.tables name = some t) : s'.tables name = some t := by
  rcases State.apply_cases happly with ⟨rfl,-⟩ | ⟨other,table,-,hnone,rfl⟩ | ⟨other,i,-,-,rfl⟩ | ⟨vt,_,-,rfl⟩
  · exact ht
  · have hname : name ≠ other := by
      rintro rfl
      exact absurd (hnone.symm.trans ht) (Option.some_ne_none t).symm
    exact (Function.update_of_ne hname _ _).trans ht
  · exact ht
  · exact ht

structure Untouched (s s' : State) : Prop where
  versions : ∀ v ∈ s.versions, v ∈ s'.versions
  tables : ∀ name t, s.tables name = some t → s'.tables name = some t

theorem checkSchemaVersion_newer {v : ℤ} (hv : v ∈ s.versions) (hnewer : targetSchemaVersion < v) :
    ∃ m, checkSchemaVersion s = .threw (.schemaVersionUnsupported m targetSchemaVersion) := by
  unfold checkSchemaVersion
  cases hmax : s.versions.max? with
  | none =>
    rw [List.max?_eq_none_iff.mp hmax] at hv
    cases hv
  | some m => exact ⟨m,if_pos (hnewer.trans_le ((List.max?_eq_some_iff.mp hmax).2 v hv))⟩

theorem ahead_interrupted : Ahead phase.interrupted ↔ Ahead phase := by
  cases phase <;> simp [OpenPhase.interrupted,Ahead,Migrates]

theorem migrates_interrupted : Migrates phase.interrupted ↔ Migrates phase := by
  cases phase <;> simp [OpenPhase.interrupted,Migrates]

theorem openStep_newer {w : ℤ} (hw : w ∈ s.versions) (hnewer : targetSchemaVersion < w) (hphase : ¬ Ahead phase) :
    Untouched s (openStep s fault phase).1 ∧ ¬ Ahead (openStep s fault phase).2 := by
  have hsame : Untouched s s := ⟨fun _ hv => hv,fun _ _ ht => ht⟩
  cases phase with
  | threw e => exact ⟨hsame,by simp [openStep,Ahead,Migrates]⟩
  | applyMigration3 => exact absurd (.inl (.inl rfl)) hphase
  | migrating => exact absurd (.inl (.inr (.inl rfl))) hphase
  | lapsed => exact absurd (.inl (.inr (.inr rfl))) hphase
  | recheck => exact absurd (.inr (.inl rfl)) hphase
  | opened => exact absurd (.inr (.inr rfl)) hphase
  | migrate =>
    have hversion : targetSchemaVersion ≤ currentVersion s := hnewer.le.trans (le_currentVersion hw)
    cases fault <;> simp [openStep,Ahead,Migrates,hversion,hsame]
  | checkSchemaVersion =>
    obtain ⟨m,hcheck⟩ := checkSchemaVersion_newer hw hnewer
    cases fault <;> simp [openStep,Ahead,Migrates,hcheck,hsame]
  | exec todo =>
    cases fault with
    | true => exact ⟨hsame,by simp [openStep,Ahead,Migrates]⟩
    | false =>
      cases todo with
      | nil => exact ⟨hsame,by simp [openStep,Ahead,Migrates]⟩
      | cons d todo =>
        cases happly : s.apply d with
        | none => simp [openStep,Ahead,Migrates,happly,committed,hsame]
        | some s' =>
          have hgrows := State.apply_grows happly
          have htouched : Untouched s s' := ⟨hgrows.versions,fun _ _ ht => apply_tables happly ht⟩
          simp [openStep,Ahead,Migrates,happly,committed,htouched]

theorem openStep_recorded {w : ℤ} (hw : w ∈ s.versions) (hrecorded : targetSchemaVersion ≤ w)
    (hphase : ¬ Migrates phase) : ¬ Migrates (openStep s fault phase).2 := by
  cases phase with
  | applyMigration3 => exact absurd (.inl rfl) hphase
  | migrating => exact absurd (.inr (.inl rfl)) hphase
  | lapsed => exact absurd (.inr (.inr rfl)) hphase
  | migrate =>
    have hversion : targetSchemaVersion ≤ currentVersion s := hrecorded.trans (le_currentVersion hw)
    cases fault <;> simp [openStep,Migrates,hversion]
  | checkSchemaVersion =>
    have hcheck : ¬ Migrates (checkSchemaVersion s) := by
      unfold checkSchemaVersion
      repeat' split
      all_goals simp [Migrates]
    cases fault with
    | true => simp [openStep,Migrates]
    | false => exact hcheck
  | exec todo =>
    cases fault <;> cases todo with
    | nil => simp [openStep,Migrates]
    | cons d todo => cases happly : s.apply d <;> simp [openStep,Migrates,happly,committed]
  | recheck => cases fault <;> simp [openStep,Migrates]
  | opened => simp [openStep,Migrates]
  | threw e => simp [openStep,Migrates]

theorem Refused.interrupted (h : Refused s u) {p : ℕ} (hp : u.interrupted a p = some phase) : ¬ Ahead phase := by
  obtain ⟨old,hold,rfl | ⟨-,rfl⟩⟩ := interrupted_eq_some hp
  · exact h.openers p _ hold
  · exact mt ahead_interrupted.mp (h.openers p old hold)

theorem Refused.step (h : Refused s u) (hstep : u.step a = some v) : Refused s v := by
  obtain ⟨w,hw,hnewer⟩ := h.newer
  cases a with
  | openDb p =>
    simp only [Upgrade.step] at hstep
    split at hstep
    · cases hstep
      refine ⟨h.newer,h.tables,fun q phase hq => ?_⟩
      rcases update_opener hq with ⟨-,hnext⟩ | ⟨-,hq⟩
      · exact Option.some.inj hnext ▸ by simp [Ahead,Migrates]
      · exact h.openers q phase hq
    · cases hstep
  | step p fault =>
    obtain ⟨phase,hp,rfl⟩ := Option.map_eq_some_iff.mp hstep
    obtain ⟨hkept,hahead⟩ := @openStep_newer u.catalog phase fault w hw hnewer (h.openers p phase hp)
    refine ⟨⟨w,hkept.versions w hw,hnewer⟩,fun name t ht => hkept.tables name t (h.tables name t ht),
      fun q other hq => ?_⟩
    rcases update_opener hq with ⟨-,hnext⟩ | ⟨-,hq⟩
    · exact Option.some.inj hnext ▸ hahead
    · exact h.interrupted hq
  | crash p =>
    cases hstep
    refine ⟨h.newer,h.tables,fun q phase hq => ?_⟩
    rcases update_opener hq with ⟨-,hnext⟩ | ⟨-,hq⟩
    · cases hnext
    · exact h.openers q phase hq
  | archiveDdl =>
    obtain ⟨s',happly,rfl⟩ := Option.map_eq_some_iff.mp hstep
    exact ⟨⟨w,(State.apply_grows happly).versions w hw,hnewer⟩,
      fun name t ht => apply_tables happly (h.tables name t ht),fun q phase hq => h.interrupted hq⟩
  | commitRows =>
    cases hstep
    exact ⟨h.newer,h.tables,fun q phase hq => h.interrupted hq⟩

end Newer

theorem newer_refused {ok : Upgrade → UpgradeAction → Prop} {s : State} {w : ℤ} (hw : w ∈ s.versions)
    (hnewer : targetSchemaVersion < w) {as : List UpgradeAction} {u : Upgrade}
    (hrun : GuardedRun.Run Upgrade.step ok (.start s) as u) :
    (∀ p, u.openers p ≠ some .opened) ∧ ∀ name t, s.tables name = some t → u.catalog.tables name = some t := by
  have hstart : Refused s (.start s) :=
    ⟨⟨w,hw,hnewer⟩,fun _ _ ht => ht,fun _ phase hp => absurd hp.symm (Option.some_ne_none phase)⟩
  have h : Refused s u := hrun.invariant (fun _ _ _ (ht : Refused s _) _ hs => ht.step hs) hstart
  exact ⟨fun p hp => h.openers p _ hp (.inr (.inr rfl)),h.tables⟩

def Unhindered (p : ℕ) (_ : Upgrade) (a : UpgradeAction) : Prop := a ≠ .step p true ∧ a ≠ .crash p

def Disturbs (p : ℕ) (u : Upgrade) (a : UpgradeAction) : Prop :=
  u.openers p = some .migrating ∧ u.commits a = true ∧ a ≠ .step p false

structure Advancing (s : State) (p taken : ℕ) (u : Upgrade) : Prop where
  invariant : UpgradeInvariant s u
  phase : ∃ phase, u.openers p = some phase ∧ ¬ phase.Failing ∧
    (phase = .opened ∨ phase.remaining + taken ≤ schemaSql.length + 6)

section Advancing

variable {s : State} {u v : Upgrade} {a : UpgradeAction} {p taken : ℕ} {phase : OpenPhase}

theorem openers_kept (hstep : u.step a = some v) (hp : u.openers p = some phase)
    (hother : a ≠ .crash p ∧ ∀ fault, a ≠ .step p fault) :
    v.openers p = some (if u.commits a then phase.interrupted else phase) := by
  have hshared : u.interrupted a p = some (if u.commits a then phase.interrupted else phase) := by
    rw [Upgrade.interrupted,hp]
    rfl
  cases a with
  | openDb q =>
    simp only [Upgrade.step] at hstep
    split at hstep
    · rename_i hnone
      cases hstep
      have hq : p ≠ q := by
        rintro rfl
        exact absurd (hnone.symm.trans hp) (Option.some_ne_none phase).symm
      exact (Function.update_of_ne hq _ _).trans hp
    · cases hstep
  | step q fault =>
    obtain ⟨other,-,rfl⟩ := Option.map_eq_some_iff.mp hstep
    have hq : p ≠ q := by
      rintro rfl
      exact hother.2 fault rfl
    exact (Function.update_of_ne hq _ _).trans hshared
  | crash q =>
    cases hstep
    have hq : p ≠ q := by
      rintro rfl
      exact hother.1 rfl
    exact (Function.update_of_ne hq _ _).trans hp
  | archiveDdl =>
    obtain ⟨s',-,rfl⟩ := Option.map_eq_some_iff.mp hstep
    exact hshared
  | commitRows =>
    cases hstep
    exact hshared

theorem Disturbs.lapses (h : Disturbs p u a) (hok : Unhindered p u a) (hstep : u.step a = some v) :
    v.openers p = some .lapsed ∧ ∀ fault, ∃ w, v.step (.step p fault) = some w ∧
      w.openers p = some (.threw .sqlite) ∧ w.catalog = v.catalog := by
  obtain ⟨hmigrating,hcommits,hown⟩ := h
  have hlapsed : v.openers p = some .lapsed := by
    have hkept := openers_kept hstep hmigrating ⟨hok.2,fun fault heq => ?_⟩
    · rwa [hcommits] at hkept
    · cases fault with
      | true => exact hok.1 heq
      | false => exact hown heq
  refine ⟨hlapsed,fun fault => ⟨_,by rw [Upgrade.step,hlapsed]; rfl,?_⟩⟩
  cases fault <;> exact ⟨Function.update_self ..,rfl⟩

theorem interrupted_quiet (hquiet : ¬ Disturbs p u a) (hown : a ≠ .step p false) (hp : u.openers p = some phase) :
    (if u.commits a then phase.interrupted else phase) = phase := by
  split_ifs with hcommits
  · cases phase with
    | migrating => exact absurd ⟨hp,hcommits,hown⟩ hquiet
    | _ => rfl
  · rfl

theorem Advancing.step (h : Advancing s p taken u) (hok : Unhindered p u a) (hquiet : ¬ Disturbs p u a)
    (hstep : u.step a = some v) : Advancing s p (taken + [a].count (.step p false)) v := by
  obtain ⟨phase,hp,hgoing,hleft⟩ := h.phase
  refine ⟨h.invariant.step hstep,?_⟩
  by_cases ha : a = .step p false
  · subst ha
    simp only [Upgrade.step,hp,Option.map_some,Option.some.injEq] at hstep
    subst hstep
    have hstep := openStep_ok h.invariant.supported (h.invariant.phases p phase hp) false
    obtain ⟨hnext,hless⟩ := hstep.advances rfl hgoing
    refine ⟨_,Function.update_self ..,hnext,?_⟩
    rw [List.count_singleton_self]
    rcases hless with rfl | hless
    · exact .inl rfl
    · rcases hleft with rfl | hleft
      · exact absurd hless (Nat.not_lt_zero _)
      · exact .inr (by omega)
  · have hnone : [a].count (.step p false) = 0 :=
      List.count_eq_zero.mpr fun hmem => ha (List.mem_singleton.mp hmem).symm
    rw [hnone,Nat.add_zero]
    have hkept := openers_kept hstep hp ⟨hok.2,fun fault heq => ?_⟩
    · exact ⟨phase,hkept.trans (congrArg some (interrupted_quiet hquiet ha hp)),hgoing,hleft⟩
    · cases fault with
      | true => exact hok.1 heq
      | false => exact ha heq

theorem Advancing.run {bs : List UpgradeAction} {w : Upgrade}
    (hrun : GuardedRun.Run Upgrade.step (fun x a => Unhindered p x a ∧ ¬ Disturbs p x a) u bs w)
    (h : Advancing s p 0 u) : Advancing s p (bs.count (.step p false)) w := by
  induction hrun with
  | nil => exact h
  | snoc hrun hok hstep ih =>
    rw [List.count_append]
    exact ih.step hok.1 hok.2 hstep

structure Past (s : State) (p : ℕ) (u : Upgrade) : Prop where
  invariant : UpgradeInvariant s u
  phase : ∀ phase, u.openers p = some phase → ¬ Migrates phase

theorem Past.step (h : Past s p u) (hrecorded : targetSchemaVersion ∈ s.versions) (hstep : u.step a = some v) :
    Past s p v := by
  refine ⟨h.invariant.step hstep,fun next hnext => ?_⟩
  have hshared : ∀ phase, u.interrupted a p = some phase → ¬ Migrates phase := by
    intro phase hp
    obtain ⟨old,hold,rfl | ⟨-,rfl⟩⟩ := interrupted_eq_some hp
    · exact h.phase _ hold
    · exact mt migrates_interrupted.mp (h.phase old hold)
  cases a with
  | openDb q =>
    simp only [Upgrade.step] at hstep
    split at hstep
    · cases hstep
      rcases update_opener hnext with ⟨-,hnext⟩ | ⟨-,hnext⟩
      · exact Option.some.inj hnext ▸ by simp [Migrates]
      · exact h.phase next hnext
    · cases hstep
  | step q fault =>
    obtain ⟨phase,hq,rfl⟩ := Option.map_eq_some_iff.mp hstep
    rcases update_opener hnext with ⟨rfl,hsome⟩ | ⟨-,hkept⟩
    · have hmem := h.invariant.grows.versions _ hrecorded
      exact Option.some.inj hsome ▸ openStep_recorded hmem le_rfl (h.phase phase hq)
    · exact hshared next hkept
  | crash q =>
    cases hstep
    rcases update_opener hnext with ⟨-,hnext⟩ | ⟨-,hnext⟩
    · cases hnext
    · exact h.phase next hnext
  | archiveDdl =>
    obtain ⟨s',-,rfl⟩ := Option.map_eq_some_iff.mp hstep
    exact hshared next hnext
  | commitRows =>
    cases hstep
    exact hshared next hnext

end Advancing

instance (p : ℕ) (u : Upgrade) (a : UpgradeAction) : Decidable (Unhindered p u a) :=
  inferInstanceAs (Decidable (a ≠ .step p true ∧ a ≠ .crash p))

instance (p : ℕ) (u : Upgrade) (a : UpgradeAction) : Decidable (Disturbs p u a) :=
  inferInstanceAs (Decidable (u.openers p = some .migrating ∧ u.commits a = true ∧ a ≠ .step p false))

def freshCatalog : State := ⟨fun _ => none,fun _ => none,[]⟩

theorem freshCatalog_supported : Supported freshCatalog :=
  .inl ⟨fun _ hv => absurd hv List.not_mem_nil,⟨fun _ _ t ht => absurd ht.symm (Option.some_ne_none t),
    fun _ _ i hi => absurd hi.symm (Option.some_ne_none i)⟩,fun t ht => absurd ht.symm (Option.some_ne_none t)⟩

def crashedOpener : List UpgradeAction :=
  .openDb 2 :: List.replicate 9 (.step 2 false) ++ [.crash 2,.archiveDdl]

-- another opener starts and rows are committed, but not inside this one's migration
def openerAmongOthers : List UpgradeAction :=
  List.replicate 10 (.step 1 false) ++ .commitRows :: List.replicate 18 (.step 1 false) ++
    .openDb 2 :: List.replicate 5 (.step 2 false) ++ .step 1 false :: .commitRows ::
      List.replicate 9 (.step 2 false) ++ List.replicate 2 (.step 1 false)

theorem openDb_converges_sample : ∃ u : Upgrade,
    GuardedRun.Run Upgrade.step (fun _ _ => True) (.start freshCatalog)
      (crashedOpener ++ .openDb 1 :: openerAmongOthers) u ∧
      Opened u.catalog ∧ freshCatalog.Grows u.catalog := by
  have hreach : (GuardedRun.exec Upgrade.step (.start freshCatalog)
      (crashedOpener ++ .openDb 1 :: openerAmongOthers)).any (fun u =>
        decide (u.openers 1 = some .opened)) = true := by decide +kernel
  obtain ⟨u,hu,hreach⟩ := (Option.any_eq_true _ _).mp hreach
  have hrun := GuardedRun.run_of_exec hu
  exact ⟨u,hrun,openDb_converges freshCatalog_supported hrun (of_decide_eq_true hreach)⟩

def newerCatalog : State :=
  { ((schemaSql.foldlM State.apply freshCatalog).bind applyMigration3).getD freshCatalog with
    versions := [1,2,3,4] }

theorem newer_refused_sample : ∃ u : Upgrade,
    GuardedRun.Run Upgrade.step (fun _ _ => True) (.start newerCatalog)
      (.openDb 1 :: List.replicate 28 (.step 1 false)) u ∧ u.openers 1 ≠ some .opened ∧
      ∀ x ∈ tablesOf true, u.catalog.tables x.1 = some x.2 := by
  have hreach : (GuardedRun.exec Upgrade.step (.start newerCatalog)
      (.openDb 1 :: List.replicate 28 (.step 1 false))).isSome = true := by decide +kernel
  obtain ⟨u,hu⟩ := Option.isSome_iff_exists.mp hreach
  have hrun := GuardedRun.run_of_exec hu
  have htables : ∀ x ∈ tablesOf true, newerCatalog.tables x.1 = some x.2 := by decide +kernel
  obtain ⟨hrefused,hkept⟩ := @newer_refused _ newerCatalog 4 (by decide) (by decide) _ u hrun
  exact ⟨u,hrun,hrefused 1,fun x hx => hkept x.1 x.2 (htables x hx)⟩

end WickedBus.Migrate
