import WickedBus.Foundation.ContentStore
import WickedBus.EmitSteps

namespace WickedBus

open WickedBus.Filter (Text)

abbrev CasFiles := ContentStore String String

structure CasHost extends EmitHost where
  extractCas : String → Option String

def defaultGcGraceDays : ℚ := 7

structure GcOpts where
  graceDays : Option ℚ
  now : Option ℤ
  allowMissingBuckets : List Text
  dryRun : Bool
  deriving DecidableEq, Repr

def GcOpts.graceMs (opts : GcOpts) : ℚ := opts.graceDays.getD defaultGcGraceDays * 86400000

structure GcStats where
  considered : ℕ
  deleted : ℕ
  skippedInGrace : ℕ
  bytesFreed : ℕ
  deriving DecidableEq, Repr

inductive GcError where
  | incompleteBucketSet (message : String) (bucket : Text)
  | thrown
  deriving DecidableEq, Repr

inductive GcFault where
  | access | openDb | other
  deriving DecidableEq, Repr

inductive GcPhase where
  | readEvents
  | readArchive
  | readDeadLetters
  | listBuckets
  | readBuckets (todo : List Text)
  | listShards
  | walk (shards : List String)
  | walkShard (names shards : List String)
  | unlink (name : String) (size : ℕ) (names shards : List String)
  | returned (liveShas : ℕ)
  | threw (error : GcError)
  deriving DecidableEq, Repr

structure GcRun where
  opts : GcOpts
  now : ℤ
  shas : List String
  stats : GcStats
  phase : GcPhase
  deriving DecidableEq, Repr

structure GcEnv where
  fault : Option GcFault
  deriving DecidableEq, Repr

structure GcStep where
  run : GcRun
  files : CasFiles

def GcRun.begin (opts : GcOpts) (clock : ℤ) : GcRun :=
  ⟨opts,opts.now.getD clock,[],⟨0,0,0,0⟩,.readEvents⟩

def GcPhase.running : GcPhase → Bool
  | .returned _ | .threw _ => false
  | _ => true

def shardOf (sha : String) : String := String.ofList (sha.toList.take 2)

def shardsOf (files : CasFiles) : List String :=
  (files.rows.map (fun f => shardOf f.key)).eraseDups

def shardFiles (files : CasFiles) (shard : String) : List String :=
  (files.rows.map Blob.key).filter (fun name => decide (shardOf name = shard))

def casRefs (rows : List EventRow) : List String :=
  (rows.filterMap EventRow.payloadCasSha).filter (fun sha => decide (sha ≠ ""))

def deadLetterRefs (host : CasHost) (db : Db) : List String :=
  (db.deadLetters.rows.filterMap (fun d => host.extractCas d.payload)).filter (fun sha => decide (sha ≠ ""))

def GcRun.goto (g : GcRun) (phase : GcPhase) : GcRun := { g with phase := phase }

def GcRun.collect (g : GcRun) (fault : Option GcFault) (refs : List String) (next : GcPhase) : GcRun :=
  match fault with
  | some _ => g.goto (.threw .thrown)
  | none => { g with shas := g.shas ++ refs, phase := next }

def incompleteBucketSet (before : String) (name : Text) (after : String) : GcError :=
  .incompleteBucketSet (before ++ String.ofList name ++ after) name

def notReadable (name : Text) : GcError :=
  incompleteBucketSet "CAS GC requires every warm bucket to be readable; " name " is not"

def notOpened (name : Text) : GcError := incompleteBucketSet "failed to open warm bucket: " name ""

def GcRun.collectBucket (g : GcRun) (fault : Option GcFault) (archive : Archive) (name : Text)
    (todo : List Text) : GcRun :=
  if name ∈ g.opts.allowMissingBuckets then g.goto (.readBuckets todo)
  else
    match fault, archive.get? name with
    | some .access, _ | _, none => g.goto (.threw (notReadable name))
    | some .openDb, some _ => g.goto (.threw (notOpened name))
    | some .other, some _ => g.goto (.threw .thrown)
    | none, some b =>
      match b.events with
      | none => g.goto (.threw .thrown)
      | some rows => g.collect none (casRefs rows.rows) (.readBuckets todo)

def GcRun.skip (g : GcRun) (names shards : List String) : GcRun :=
  { g with
    stats := { g.stats with skippedInGrace := g.stats.skippedInGrace + 1 }
    phase := .walkShard names shards }

def GcRun.delete (g : GcRun) (size : ℕ) (names shards : List String) : GcRun :=
  { g with
    stats := { g.stats with deleted := g.stats.deleted + 1, bytesFreed := g.stats.bytesFreed + size }
    phase := .walkShard names shards }

def GcRun.consider (g : GcRun) : GcRun :=
  { g with stats := { g.stats with considered := g.stats.considered + 1 } }

def GcRun.inGrace (g : GcRun) (f : Blob String String) : Prop := (g.now : ℚ) - f.time < g.opts.graceMs

instance (g : GcRun) (f : Blob String String) : Decidable (g.inGrace f) :=
  inferInstanceAs (Decidable ((g.now : ℚ) - f.time < g.opts.graceMs))

def GcRun.check (g : GcRun) (fault : Option GcFault) (files : CasFiles) (name : String)
    (names shards : List String) : GcRun :=
  if name ∈ g.shas then g.goto (.walkShard names shards)
  else
    match fault, files.get? name with
    | none, some f =>
      if g.inGrace f then g.skip names shards
      else if g.opts.dryRun then g.delete f.content.utf8ByteSize names shards
      else g.goto (.unlink name f.content.utf8ByteSize names shards)
    | _, _ => g.goto (.walkShard names shards)

def unlinkFile (g : GcRun) (fault : Option GcFault) (files : CasFiles) (name : String) (size : ℕ)
    (names shards : List String) : GcStep :=
  match fault, files.get? name with
  | none, some _ => ⟨g.delete size names shards,files.erase name⟩
  | _, _ => ⟨g.goto (.walkShard names shards),files⟩

def GcRun.advance (g : GcRun) (host : CasHost) (env : GcEnv) (db : Db) (archive : Archive)
    (files : CasFiles) : GcRun :=
  match g.phase with
  | .readEvents => g.collect env.fault (casRefs db.events.rows) .readArchive
  | .readArchive => g.collect env.fault (casRefs db.archiveRows.rows) .readDeadLetters
  | .readDeadLetters => g.collect env.fault (deadLetterRefs host db) .listBuckets
  | .listBuckets => g.collect env.fault [] (.readBuckets (WickedBus.listBuckets archive))
  | .readBuckets [] => g.goto .listShards
  | .readBuckets (name :: todo) => g.collectBucket env.fault archive name todo
  | .listShards => g.goto (.walk (if env.fault.isSome then [] else shardsOf files))
  | .walk [] => g.goto (.returned g.shas.eraseDups.length)
  | .walk (shard :: shards) =>
    g.goto (.walkShard (if env.fault.isSome then [] else shardFiles files shard) shards)
  | .walkShard [] shards => g.goto (.walk shards)
  | .walkShard (name :: names) shards => g.consider.check env.fault files name names shards
  | _ => g

def gcStep (host : CasHost) (env : GcEnv) (db : Db) (archive : Archive) (files : CasFiles) (g : GcRun) :
    GcStep :=
  match g.phase with
  | .unlink name size names shards => unlinkFile g env.fault files name size names shards
  | _ => ⟨g.advance host env db archive files,files⟩

theorem mem_casRefs {rows : List EventRow} {sha : String} :
    sha ∈ casRefs rows ↔ sha ≠ "" ∧ ∃ e ∈ rows, e.payloadCasSha = some sha := by
  simp [casRefs,and_comm]

theorem mem_deadLetterRefs {host : CasHost} {db : Db} {sha : String} :
    sha ∈ deadLetterRefs host db ↔
      sha ≠ "" ∧ ∃ d ∈ db.deadLetters, host.extractCas d.payload = some sha := by
  simp [deadLetterRefs,KeyedTable.mem_rows,and_comm]

def bucketRefs (archive : Archive) (names : List Text) : List String :=
  names.flatMap (fun name => (archive.get? name).elim [] (fun b => casRefs b.rows.rows))

theorem mem_bucketRefs {archive : Archive} {names : List Text} {sha : String} :
    sha ∈ bucketRefs archive names ↔
      sha ≠ "" ∧ ∃ name ∈ names, ∃ e, Holds archive name e ∧ e.payloadCasSha = some sha := by
  rw [bucketRefs,List.mem_flatMap]
  constructor
  · rintro ⟨name,hname,hsha⟩
    cases hb : archive.get? name with
    | none =>
      rw [hb] at hsha
      cases hsha
    | some b =>
      rw [hb] at hsha
      obtain ⟨hmem,hkey⟩ := KeyedTable.get?_eq_some.mp hb
      obtain ⟨hne,e,he,href⟩ := mem_casRefs.mp hsha
      exact ⟨hne,name,hname,e,⟨b,hmem,hkey,he⟩,href⟩
  · rintro ⟨hne,name,hname,e,⟨b,hmem,hkey,he⟩,href⟩
    refine ⟨name,hname,?_⟩
    rw [KeyedTable.get?_eq_some.mpr ⟨hmem,hkey⟩]
    exact mem_casRefs.mpr ⟨hne,e,he,href⟩

def allRefs (host : CasHost) (db : Db) (archive : Archive) : List String :=
  casRefs db.events.rows ++ casRefs db.archiveRows.rows ++ deadLetterRefs host db ++
    bucketRefs archive (listBuckets archive)

def pendingRefs (host : CasHost) (db : Db) (archive : Archive) : GcPhase → List String
  | .readEvents => allRefs host db archive
  | .readArchive => casRefs db.archiveRows.rows ++ deadLetterRefs host db ++
      bucketRefs archive (listBuckets archive)
  | .readDeadLetters => deadLetterRefs host db ++ bucketRefs archive (listBuckets archive)
  | .listBuckets => bucketRefs archive (listBuckets archive)
  | .readBuckets todo => bucketRefs archive todo
  | _ => []

def GcPhase.collected : GcPhase → Bool
  | .readEvents => false
  | phase => phase.running

section GcSpec

variable {host : CasHost} {env : GcEnv} {db : Db} {archive : Archive} {files : CasFiles} {g : GcRun}

structure GcFrame (g g' : GcRun) : Prop where
  opts : g'.opts = g.opts
  now : g'.now = g.now
  shas : ∀ sha ∈ g.shas, sha ∈ g'.shas

theorem GcFrame.goto (g : GcRun) (phase : GcPhase) : GcFrame g (g.goto phase) := ⟨rfl,rfl,fun _ h => h⟩

theorem GcFrame.collect (g : GcRun) (fault : Option GcFault) (refs : List String) (next : GcPhase) :
    GcFrame g (g.collect fault refs next) := by
  cases fault with
  | none => exact ⟨rfl,rfl,fun _ h => List.mem_append_left _ h⟩
  | some e => exact .goto g _

theorem GcFrame.collectBucket (g : GcRun) (fault : Option GcFault) (archive : Archive) (name : Text)
    (todo : List Text) : GcFrame g (g.collectBucket fault archive name todo) := by
  unfold GcRun.collectBucket
  repeat' split
  all_goals first | exact .goto g _ | exact .collect g none _ _

theorem GcFrame.check (g : GcRun) (fault : Option GcFault) (files : CasFiles) (name : String)
    (names shards : List String) : GcFrame g (g.consider.check fault files name names shards) := by
  unfold GcRun.check
  repeat' split
  all_goals exact ⟨rfl,rfl,fun _ h => h⟩

theorem gcStep_frame : GcFrame g (gcStep host env db archive files g).run := by
  obtain ⟨opts,now,shas,stats,phase⟩ := g
  cases phase with
  | unlink name size names shards =>
    simp only [gcStep,unlinkFile]
    split <;> exact ⟨rfl,rfl,fun _ h => h⟩
  | readBuckets todo =>
    cases todo with
    | nil => exact .goto _ _
    | cons name todo => exact .collectBucket _ _ _ _ _
  | walkShard names shards =>
    cases names with
    | nil => exact .goto _ _
    | cons name names => exact .check _ _ _ _ _ _
  | walk shards => cases shards <;> exact .goto _ _
  | listShards => exact .goto _ _
  | readEvents | readArchive | readDeadLetters | listBuckets => exact .collect _ _ _ _
  | returned n | threw e => exact ⟨rfl,rfl,fun _ h => h⟩

theorem gcStep_files :
    (gcStep host env db archive files g).files = files ∨ ∃ name size names shards,
      g.phase = .unlink name size names shards ∧
        (gcStep host env db archive files g).files = files.erase name := by
  unfold gcStep
  split
  · rename_i name size names shards hphase
    unfold unlinkFile
    split
    · exact .inr ⟨name,size,names,shards,hphase,rfl⟩
    · exact .inl rfl
  · exact .inl rfl

def GcPhase.unlinking : GcPhase → Option String
  | .unlink name _ _ _ => some name
  | _ => none

structure Condemned (g : GcRun) (files : CasFiles) (name : String) : Prop where
  live : name ∉ g.shas
  wet : g.opts.dryRun = false
  old : ∃ f ∈ files, f.key = name ∧ ¬ g.inGrace f

theorem GcRun.collect_unlinking {fault : Option GcFault} {refs : List String} {next : GcPhase}
    (h : next.unlinking = none) : (g.collect fault refs next).phase.unlinking = none := by
  cases fault with
  | none => exact h
  | some e => rfl

theorem GcRun.collectBucket_unlinking {fault : Option GcFault} {name : Text} {todo : List Text} :
    (g.collectBucket fault archive name todo).phase.unlinking = none := by
  unfold GcRun.collectBucket
  repeat' split
  all_goals rfl

theorem GcRun.check_shas {fault : Option GcFault} {name : String} {names shards : List String} :
    (g.check fault files name names shards).shas = g.shas := by
  unfold GcRun.check
  repeat' split
  all_goals rfl

theorem GcRun.check_condemned {fault : Option GcFault} {name x : String} {names shards : List String}
    (h : (g.check fault files name names shards).phase.unlinking = some x) : Condemned g files x := by
  unfold GcRun.check at h
  by_cases hlive : name ∈ g.shas
  · rw [if_pos hlive] at h
    cases h
  · rw [if_neg hlive] at h
    split at h
    · rename_i f hf
      split_ifs at h with hgrace hdry <;> cases h
      obtain ⟨hmem,hkey⟩ := KeyedTable.get?_eq_some.mp hf
      exact ⟨hlive,by simpa using hdry,f,hmem,hkey,hgrace⟩
    · cases h

theorem gcStep_condemned {name : String}
    (h : (gcStep host env db archive files g).run.phase.unlinking = some name) :
    Condemned g files name ∧ (gcStep host env db archive files g).run.shas = g.shas ∧
      (gcStep host env db archive files g).files = files := by
  obtain ⟨opts,now,shas,stats,phase⟩ := g
  cases phase with
  | unlink name size names shards =>
    simp only [gcStep,unlinkFile] at h
    split at h <;> cases h
  | walkShard names shards =>
    cases names with
    | nil => cases h
    | cons name names =>
      obtain ⟨hlive,hwet,hold⟩ := GcRun.check_condemned h
      exact ⟨⟨hlive,hwet,hold⟩,GcRun.check_shas,rfl⟩
  | readBuckets todo =>
    cases todo with
    | nil => cases h
    | cons name todo => exact absurd (GcRun.collectBucket_unlinking.symm.trans h) (by simp)
  | walk shards => cases shards <;> cases h
  | readEvents | readArchive | readDeadLetters | listBuckets =>
    exact absurd ((GcRun.collect_unlinking rfl).symm.trans h) (by simp)
  | listShards | returned n | threw e => cases h

theorem GcRun.collect_pending {fault : Option GcFault} {refs later : List String} {next : GcPhase}
    (hnext : (g.collect fault refs next).phase.running = true)
    (hlater : ∀ sha ∈ later, sha ∈ pendingRefs host db archive next) {sha : String}
    (h : sha ∈ g.shas ∨ sha ∈ refs ++ later) :
    sha ∈ (g.collect fault refs next).shas ∨
      sha ∈ pendingRefs host db archive (g.collect fault refs next).phase := by
  cases fault with
  | some e => cases hnext
  | none =>
    rcases h with h | h
    · exact .inl (List.mem_append_left _ h)
    · rcases List.mem_append.mp h with h | h
      · exact .inl (List.mem_append_right _ h)
      · exact .inr (hlater sha h)

theorem GcRun.collectBucket_pending {fault : Option GcFault} {name : Text} {todo : List Text}
    (hallow : g.opts.allowMissingBuckets = [])
    (hnext : (g.collectBucket fault archive name todo).phase.running = true) {sha : String}
    (h : sha ∈ g.shas ∨ sha ∈ bucketRefs archive (name :: todo)) :
    sha ∈ (g.collectBucket fault archive name todo).shas ∨
      sha ∈ pendingRefs host db archive (g.collectBucket fault archive name todo).phase := by
  have hname : name ∉ g.opts.allowMissingBuckets := by simp [hallow]
  unfold GcRun.collectBucket at hnext ⊢
  rw [if_neg hname] at hnext ⊢
  cases hb : archive.get? name with
  | none =>
    rw [hb] at hnext
    cases fault with
    | none => cases hnext
    | some e => cases e <;> cases hnext
  | some b =>
    rw [hb] at hnext
    cases fault with
    | some e => cases e <;> cases hnext
    | none =>
      cases hevents : b.events with
      | none =>
        simp only [hevents] at hnext
        cases hnext
      | some rows =>
        simp only [hevents]
        refine GcRun.collect_pending rfl (fun _ h => h) (h.imp_right fun h => ?_)
        simpa [bucketRefs,pendingRefs,hb,BucketFile.rows,hevents] using h

theorem gcStep_pending (hallow : g.opts.allowMissingBuckets = [])
    (hnext : (gcStep host env db archive files g).run.phase.running = true) {sha : String}
    (h : sha ∈ g.shas ∨ sha ∈ pendingRefs host db archive g.phase) :
    sha ∈ (gcStep host env db archive files g).run.shas ∨
      sha ∈ pendingRefs host db archive (gcStep host env db archive files g).run.phase := by
  have hkeep : pendingRefs host db archive g.phase = [] →
      sha ∈ (gcStep host env db archive files g).run.shas := by
    intro hnil
    rw [hnil] at h
    exact gcStep_frame.shas sha (h.resolve_right List.not_mem_nil)
  obtain ⟨opts,now,shas,stats,phase⟩ := g
  cases phase with
  | readEvents =>
    refine GcRun.collect_pending hnext (fun _ h => h) (h.imp_right fun h => ?_)
    simpa only [pendingRefs,allRefs,List.append_assoc] using h
  | readArchive =>
    refine GcRun.collect_pending hnext (fun _ h => h) (h.imp_right fun h => ?_)
    simpa only [pendingRefs,List.append_assoc] using h
  | readDeadLetters => exact GcRun.collect_pending hnext (fun _ h => h) h
  | listBuckets => exact GcRun.collect_pending hnext (fun _ h => h) h
  | readBuckets todo =>
    cases todo with
    | nil => exact .inl (hkeep rfl)
    | cons name todo => exact GcRun.collectBucket_pending hallow hnext h
  | _ => exact .inl (hkeep rfl)

theorem gcStep_collected (h : (gcStep host env db archive files g).run.phase.collected = true) :
    g.phase.collected = true ∨ (g.phase = .readEvents ∧
      ∀ sha ∈ casRefs db.events.rows, sha ∈ (gcStep host env db archive files g).run.shas) := by
  obtain ⟨opts,now,shas,stats,phase⟩ := g
  obtain ⟨fault⟩ := env
  cases phase with
  | readEvents =>
    cases fault with
    | some e => cases h
    | none => exact .inr ⟨rfl,fun _ hsha => List.mem_append_right _ hsha⟩
  | returned n | threw e => cases h
  | _ => exact .inl rfl

end GcSpec

end WickedBus
