import WickedBus.Cas
import WickedBus.Foundation.Grouping
import WickedBus.Foundation.Schedule

namespace WickedBus

open WickedBus.Filter (Text)

abbrev CasFile := Blob String String

def gcAlone (host : CasHost) (db : Db) (archive : Archive) (s : GcStep) : GcStep :=
  gcStep host ⟨none⟩ db archive s.files s.run

def Leads (host : CasHost) (db : Db) (archive : Archive) (s s' : GcStep) : Prop :=
  ∃ n, (gcAlone host db archive)^[n] s = s'

def CasFile.size (f : CasFile) : ℕ := f.content.utf8ByteSize

def CasFile.shard (f : CasFile) : String := shardOf f.key

def GcRun.doomed (g : GcRun) (f : CasFile) : Bool := decide (f.key ∉ g.shas) && !decide (g.inGrace f)

def GcRun.spared (g : GcRun) (f : CasFile) : Bool := decide (f.key ∉ g.shas) && decide (g.inGrace f)

def GcRun.tally (g : GcRun) (fs : List CasFile) : GcStats :=
  ⟨fs.length,fs.countP g.doomed,fs.countP g.spared,((fs.filter g.doomed).map CasFile.size).sum⟩

def GcStats.add (a b : GcStats) : GcStats :=
  ⟨a.considered + b.considered,a.deleted + b.deleted,a.skippedInGrace + b.skippedInGrace,a.bytesFreed + b.bytesFreed⟩

def GcRun.counted (g : GcRun) (fs : List CasFile) : GcRun := { g with stats := g.stats.add (g.tally fs) }

def GcRun.remaining (g : GcRun) (fs : List CasFile) (files : CasFiles) : CasFiles :=
  if g.opts.dryRun then files else files.filter (fun f => !(decide (f ∈ fs) && g.doomed f))

section Walk

variable {host : CasHost} {db : Db} {archive : Archive} {s s' s'' : GcStep} {g : GcRun} {files : CasFiles}
  {fs more : List CasFile} {f : CasFile} {shards : List String}

theorem Leads.refl (s : GcStep) : Leads host db archive s s := ⟨0,rfl⟩

theorem Leads.trans (h : Leads host db archive s s') (h' : Leads host db archive s' s'') :
    Leads host db archive s s'' := by
  obtain ⟨n,rfl⟩ := h
  obtain ⟨m,rfl⟩ := h'
  exact ⟨m + n,Function.iterate_add_apply _ _ _ _⟩

theorem Leads.head (h : Leads host db archive (gcAlone host db archive s) s') : Leads host db archive s s' :=
  Leads.trans ⟨1,rfl⟩ h

theorem tally_cons : g.tally (f :: fs) = GcStats.add ⟨1,if g.doomed f then 1 else 0,if g.spared f then 1 else 0,
    if g.doomed f then f.size else 0⟩ (g.tally fs) := by
  cases hdoomed : g.doomed f <;> cases hspared : g.spared f <;>
    simp [GcRun.tally,GcStats.add,hdoomed,hspared,Nat.add_comm]

theorem tally_append : g.tally (fs ++ more) = (g.tally fs).add (g.tally more) := by
  simp [GcRun.tally,GcStats.add,List.countP_append]

theorem tally_perm (h : fs.Perm more) : g.tally fs = g.tally more := by
  simp only [GcRun.tally,h.length_eq,h.countP_eq,((h.filter g.doomed).map CasFile.size).sum_eq]

theorem GcStats.add_assoc (a b c : GcStats) : (a.add b).add c = a.add (b.add c) := by
  simp only [GcStats.add,Nat.add_assoc]

theorem counted_nil : g.counted [] = g := rfl

theorem counted_append : (g.counted fs).counted more = g.counted (fs ++ more) := by
  show { g with stats := (g.stats.add (g.tally fs)).add (g.tally more) } = _
  rw [GcStats.add_assoc,← tally_append]
  rfl

theorem remaining_nil : g.remaining [] files = files := by
  unfold GcRun.remaining
  split_ifs
  · rfl
  · exact KeyedTable.ext_mem fun f => by simp

theorem remaining_append : g.remaining more (g.remaining fs files) = g.remaining (fs ++ more) files := by
  unfold GcRun.remaining
  split_ifs
  · rfl
  · refine KeyedTable.ext_mem fun f => ?_
    simp only [KeyedTable.mem_filter,List.mem_append]
    by_cases hfs : f ∈ fs <;> by_cases hmore : f ∈ more <;> simp [hfs,hmore]

theorem remaining_keep (h : g.doomed f = false ∨ g.opts.dryRun = true) :
    g.remaining (f :: fs) files = g.remaining fs files := by
  unfold GcRun.remaining
  split_ifs with hdry
  · rfl
  · refine KeyedTable.ext_mem fun x => ?_
    simp only [KeyedTable.mem_filter,List.mem_cons]
    by_cases hx : x = f
    · simp [hx,h.resolve_right hdry]
    · simp [hx]

theorem remaining_erase (hmem : f ∈ files) (hdoomed : g.doomed f = true) (hwet : g.opts.dryRun = false) :
    g.remaining fs (ContentStore.erase files f.key) = g.remaining (f :: fs) files := by
  unfold GcRun.remaining
  rw [if_neg (by simp [hwet]),if_neg (by simp [hwet])]
  refine KeyedTable.ext_mem fun x => ?_
  simp only [KeyedTable.mem_filter,ContentStore.mem_erase,List.mem_cons]
  by_cases hx : x = f
  · simp [hx,hdoomed]
  · have hkey : x ∈ files → x.key ≠ f.key := fun hxmem heq => hx (KeyedTable.eq_of_key hxmem hmem heq)
    simp only [hx,false_or]
    tauto

theorem counted_cons {considered deleted skipped freed : ℕ} (hdeleted : deleted = if g.doomed f then 1 else 0)
    (hskipped : skipped = if g.spared f then 1 else 0) (hfreed : freed = if g.doomed f then f.size else 0)
    (hconsidered : considered = 1) :
    ({ g with stats := g.stats.add ⟨considered,deleted,skipped,freed⟩ } : GcRun).counted fs = g.counted (f :: fs) := by
  subst hdeleted hskipped hfreed hconsidered
  show { g with stats := (g.stats.add _).add (g.tally fs) } = _
  rw [GcStats.add_assoc,← tally_cons]
  rfl

theorem check_live {fault : Option GcFault} {name : String} {names : List String} (hlive : name ∈ g.shas) :
    g.check fault files name names shards = g.goto (.walkShard names shards) := if_pos hlive

theorem check_young {names : List String} (hlive : f.key ∉ g.shas) (hget : files.get? f.key = some f)
    (hgrace : g.inGrace f) : g.check none files f.key names shards = g.skip names shards := by
  simp only [GcRun.check,if_neg hlive,hget,if_pos hgrace]

theorem check_dry {names : List String} (hlive : f.key ∉ g.shas) (hget : files.get? f.key = some f)
    (hgrace : ¬ g.inGrace f) (hdry : g.opts.dryRun = true) :
    g.check none files f.key names shards = g.delete f.size names shards := by
  simp only [GcRun.check,if_neg hlive,hget,if_neg hgrace,if_pos hdry]
  rfl

theorem check_wet {names : List String} (hlive : f.key ∉ g.shas) (hget : files.get? f.key = some f)
    (hgrace : ¬ g.inGrace f) (hdry : ¬ g.opts.dryRun = true) :
    g.check none files f.key names shards = g.goto (.unlink f.key f.size names shards) := by
  simp only [GcRun.check,if_neg hlive,hget,if_neg hgrace,if_neg hdry]
  rfl

theorem leads_name (hmem : f ∈ files) (names shards : List String) : Leads host db archive
    ⟨g.goto (.walkShard (f.key :: names) shards),files⟩
    ⟨(g.counted [f]).goto (.walkShard names shards),g.remaining [f] files⟩ := by
  have hget : files.get? f.key = some f := KeyedTable.get?_eq_some.mpr ⟨hmem,rfl⟩
  have hcounted : g.counted [f] = { g with stats := g.stats.add ⟨1,if g.doomed f then 1 else 0,
      if g.spared f then 1 else 0,if g.doomed f then f.size else 0⟩ } := by
    rw [← counted_cons rfl rfl rfl rfl,counted_nil]
  refine Leads.head ?_
  show Leads host db archive ⟨(g.goto _).consider.check none files f.key names shards,files⟩ _
  rw [hcounted]
  by_cases hlive : f.key ∈ g.shas
  · have hdoomed : g.doomed f = false := by simp [GcRun.doomed,hlive]
    have hspared : g.spared f = false := by simp [GcRun.spared,hlive]
    have hwalking : f.key ∈ (g.goto (.walkShard (f.key :: names) shards)).consider.shas := hlive
    rw [check_live hwalking,hdoomed,hspared,remaining_keep (.inl hdoomed),remaining_nil]
    exact .refl _
  · have hwalking : f.key ∉ (g.goto (.walkShard (f.key :: names) shards)).consider.shas := hlive
    by_cases hgrace : g.inGrace f
    · have hdoomed : g.doomed f = false := by simp [GcRun.doomed,hgrace]
      have hspared : g.spared f = true := by simp [GcRun.spared,hlive,hgrace]
      rw [check_young hwalking hget hgrace,hdoomed,hspared,remaining_keep (.inl hdoomed),
        remaining_nil]
      exact .refl _
    · have hdoomed : g.doomed f = true := by simp [GcRun.doomed,hlive,hgrace]
      have hspared : g.spared f = false := by simp [GcRun.spared,hgrace]
      rw [hdoomed,hspared]
      by_cases hdry : g.opts.dryRun = true
      · rw [check_dry hwalking hget hgrace hdry,remaining_keep (.inr hdry),remaining_nil]
        exact .refl _
      · rw [check_wet hwalking hget hgrace hdry,
          ← remaining_erase hmem hdoomed (Bool.eq_false_iff.mpr hdry),remaining_nil]
        refine Leads.head ?_
        simp only [gcAlone,gcStep,GcRun.goto,unlinkFile,hget]
        exact .refl _

theorem leads_names (hmem : ∀ f ∈ fs, f ∈ files) (hnodup : fs.Nodup) (shards : List String) : Leads host db archive
    ⟨g.goto (.walkShard (fs.map Blob.key) shards),files⟩
    ⟨(g.counted fs).goto (.walkShard [] shards),g.remaining fs files⟩ := by
  induction fs generalizing g files with
  | nil =>
    rw [counted_nil,remaining_nil]
    exact .refl _
  | cons f fs ih =>
    obtain ⟨hhead,htail⟩ := List.nodup_cons.mp hnodup
    refine (leads_name (hmem f List.mem_cons_self) (fs.map Blob.key) shards).trans ?_
    have hkept : ∀ x ∈ fs, x ∈ g.remaining [f] files := by
      intro x hx
      have hxf : x ≠ f := ne_of_mem_of_not_mem hx hhead
      unfold GcRun.remaining
      split_ifs
      · exact hmem x (List.mem_cons_of_mem _ hx)
      · exact KeyedTable.mem_filter.mpr ⟨hmem x (List.mem_cons_of_mem _ hx),by simp [hxf]⟩
    have hrest := @ih (g.counted [f]) (g.remaining [f] files) hkept htail
    rw [counted_append] at hrest
    rwa [show (g.counted [f]).remaining fs (g.remaining [f] files) = g.remaining (f :: fs) files from
      remaining_append] at hrest

theorem shardFiles_eq (files : CasFiles) (shard : String) :
    shardFiles files shard = (Grouping.group CasFile.shard files.rows shard).map Blob.key := by
  rw [shardFiles,List.filter_map]
  rfl

theorem leads_shards (hnodup : shards.Nodup) : Leads host db archive ⟨g.goto (.walk shards),files⟩
    ⟨(g.counted (shards.flatMap (Grouping.group CasFile.shard files.rows))).goto (.returned g.shas.eraseDups.length),
      g.remaining (shards.flatMap (Grouping.group CasFile.shard files.rows)) files⟩ := by
  induction shards generalizing g files with
  | nil =>
    rw [List.flatMap_nil,counted_nil,remaining_nil]
    exact .head (.refl _)
  | cons shard shards ih =>
    obtain ⟨hhead,htail⟩ := List.nodup_cons.mp hnodup
    have hnames := @leads_names host db archive g files (Grouping.group CasFile.shard files.rows shard)
      (fun f hf => (Grouping.mem_group.mp hf).1) (files.nodup_rows.filter _) shards
    rw [← shardFiles_eq] at hnames
    have hothers : shards.flatMap (Grouping.group CasFile.shard
        (g.remaining (Grouping.group CasFile.shard files.rows shard) files).rows) =
        shards.flatMap (Grouping.group CasFile.shard files.rows) := by
      refine List.flatMap_congr fun other hother => ?_
      unfold GcRun.remaining
      split_ifs
      · rfl
      · have hgroup : ∀ l : List CasFile, Grouping.group CasFile.shard l other =
            l.filter (fun f => decide (f.shard = other)) := fun _ => rfl
        rw [hgroup,hgroup,KeyedTable.filter,List.filter_filter]
        refine List.filter_congr fun f _ => ?_
        by_cases hf : f.shard = other
        · have hne : f ∉ Grouping.group CasFile.shard files.rows shard :=
            fun h => hhead ((Grouping.mem_group.mp h).2.symm.trans hf ▸ hother)
          simp [hf,hne]
        · simp [hf]
    have hrest := @ih (g.counted (Grouping.group CasFile.shard files.rows shard))
      (g.remaining (Grouping.group CasFile.shard files.rows shard) files) htail
    rw [hothers,counted_append,show ∀ fs, (g.counted (Grouping.group CasFile.shard files.rows shard)).remaining fs
      (g.remaining (Grouping.group CasFile.shard files.rows shard) files) = g.remaining
        (Grouping.group CasFile.shard files.rows shard ++ fs) files from fun _ => remaining_append] at hrest
    exact .head (hnames.trans (.head hrest))

theorem leads_walk : Leads host db archive ⟨g.goto .listShards,files⟩
    ⟨(g.counted files.rows).goto (.returned g.shas.eraseDups.length),g.remaining files.rows files⟩ := by
  have hperm : ((shardsOf files).flatMap (Grouping.group CasFile.shard files.rows)).Perm files.rows :=
    Grouping.groups_perm_eraseDups CasFile.shard files.rows
  have hshards := @leads_shards host db archive g files (shardsOf files) (Grouping.nodup_eraseDups _)
  have hfiles : g.remaining ((shardsOf files).flatMap (Grouping.group CasFile.shard files.rows)) files =
      g.remaining files.rows files := by
    unfold GcRun.remaining
    simp only [hperm.mem_iff]
  rw [hfiles,GcRun.counted,tally_perm hperm] at hshards
  exact .head hshards

end Walk

def readsBucket (opts : GcOpts) (name : Text) : Bool :=
  opts.allowMissingBuckets.all (fun allowed => decide (allowed ≠ name))

def bucketsRead (archive : Archive) (opts : GcOpts) : List Text := (listBuckets archive).filter (readsBucket opts)

def gcRefs (host : CasHost) (db : Db) (archive : Archive) (opts : GcOpts) : List String :=
  casRefs db.events.rows ++ casRefs db.archiveRows.rows ++ deadLetterRefs host db ++
    bucketRefs archive (bucketsRead archive opts)

def HasEvents (archive : Archive) (name : Text) : Prop := ∃ b, archive.get? name = some b ∧ b.events.isSome = true

def marked (host : CasHost) (db : Db) (archive : Archive) (opts : GcOpts) (clock : ℤ) : GcRun :=
  ⟨opts,opts.now.getD clock,gcRefs host db archive opts,⟨0,0,0,0⟩,.listShards⟩

section Mark

variable {host : CasHost} {db : Db} {archive : Archive} {g : GcRun} {files : CasFiles} {opts : GcOpts} {clock : ℤ}
  {todo : List Text}

theorem collectBucket_skip {name : Text} (hallow : name ∈ g.opts.allowMissingBuckets) :
    g.collectBucket none archive name todo = g.goto (.readBuckets todo) := if_pos hallow

theorem collectBucket_read {name : Text} {b : BucketFile} {rows : EventTable}
    (hallow : name ∉ g.opts.allowMissingBuckets) (hb : archive.get? name = some b) (hevents : b.events = some rows) :
    g.collectBucket none archive name todo = g.collect none (casRefs rows.rows) (.readBuckets todo) := by
  simp only [GcRun.collectBucket,if_neg hallow,hb,hevents]

theorem collectBucket_missing {name : Text} (hallow : name ∉ g.opts.allowMissingBuckets)
    (hread : ¬ HasEvents archive name) :
    ∃ err, g.collectBucket none archive name todo = g.goto (.threw err) := by
  simp only [GcRun.collectBucket,if_neg hallow]
  cases hb : archive.get? name with
  | none => exact ⟨_,rfl⟩
  | some b =>
    cases hevents : b.events with
    | none =>
      simp only [hevents]
      exact ⟨_,rfl⟩
    | some rows => exact absurd ⟨b,hb,by rw [hevents]; rfl⟩ hread

theorem leads_bucket {name : Text} {s : GcStep} (h : Leads host db archive
    ⟨(g.goto (.readBuckets (name :: todo))).collectBucket none archive name todo,files⟩ s) :
    Leads host db archive ⟨g.goto (.readBuckets (name :: todo)),files⟩ s := .head h

theorem readsBucket_iff {opts : GcOpts} {name : Text} :
    readsBucket opts name = true ↔ name ∉ opts.allowMissingBuckets := by
  simp only [readsBucket,List.all_eq_true,decide_eq_true_eq]
  exact ⟨fun h hmem => h name hmem rfl,fun h allowed hmem heq => h (heq ▸ hmem)⟩

theorem leads_buckets (hread : ∀ name ∈ todo, name ∉ g.opts.allowMissingBuckets → HasEvents archive name) :
    Leads host db archive ⟨g.goto (.readBuckets todo),files⟩
      ⟨{ g with
          shas := g.shas ++ bucketRefs archive (todo.filter (readsBucket g.opts))
          phase := .listShards },files⟩ := by
  induction todo generalizing g with
  | nil =>
    simp only [List.filter_nil,bucketRefs,List.flatMap_nil,List.append_nil]
    exact .head (.refl _)
  | cons name todo ih =>
    have hrest : ∀ x ∈ todo, x ∉ g.opts.allowMissingBuckets → HasEvents archive x :=
      fun x hx => hread x (List.mem_cons_of_mem _ hx)
    refine leads_bucket ?_
    by_cases hallow : name ∈ g.opts.allowMissingBuckets
    · have hskip : name ∈ (g.goto (.readBuckets (name :: todo))).opts.allowMissingBuckets := hallow
      rw [collectBucket_skip hskip,List.filter_cons_of_neg (fun hreads => readsBucket_iff.mp hreads hallow)]
      exact ih hrest
    · obtain ⟨b,hb,hevents⟩ := hread name List.mem_cons_self hallow
      obtain ⟨rows,hrows⟩ := Option.isSome_iff_exists.mp hevents
      have hskip : name ∉ (g.goto (.readBuckets (name :: todo))).opts.allowMissingBuckets := hallow
      have hnext := @ih { g with shas := g.shas ++ casRefs rows.rows } hrest
      have hrefs : ∀ names, bucketRefs archive (name :: names) = casRefs rows.rows ++ bucketRefs archive names := by
        intro names
        rw [bucketRefs,List.flatMap_cons,hb]
        simp only [Option.elim_some,BucketFile.rows,hrows]
        rfl
      rw [collectBucket_read hskip hb hrows,List.filter_cons_of_pos (readsBucket_iff.mpr hallow),hrefs,
        ← List.append_assoc]
      exact hnext

theorem leads_unread (hmissing : ∃ name ∈ todo, name ∉ g.opts.allowMissingBuckets ∧ ¬ HasEvents archive name) :
    ∃ g' err, Leads host db archive ⟨g.goto (.readBuckets todo),files⟩ ⟨g',files⟩ ∧ g'.phase = .threw err ∧
      g'.stats = g.stats := by
  induction todo generalizing g with
  | nil =>
    obtain ⟨name,hname,-⟩ := hmissing
    cases hname
  | cons name todo ih =>
    obtain ⟨x,hx,hxallow,hxread⟩ := hmissing
    by_cases hallow : name ∈ g.opts.allowMissingBuckets
    · have hrest : x ∈ todo := (List.mem_cons.mp hx).resolve_left fun heq => hxallow (heq ▸ hallow)
      obtain ⟨g',err,hleads,hphase,hstats⟩ := @ih g ⟨x,hrest,hxallow,hxread⟩
      have hskip : name ∈ (g.goto (.readBuckets (name :: todo))).opts.allowMissingBuckets := hallow
      refine ⟨g',err,leads_bucket ?_,hphase,hstats⟩
      rw [collectBucket_skip hskip]
      exact hleads
    · have hskip : name ∉ (g.goto (.readBuckets (name :: todo))).opts.allowMissingBuckets := hallow
      by_cases hevents : HasEvents archive name
      · obtain ⟨b,hb,hsome⟩ := hevents
        obtain ⟨rows,hrows⟩ := Option.isSome_iff_exists.mp hsome
        have hrest : x ∈ todo := (List.mem_cons.mp hx).resolve_left fun heq => hxread (heq ▸ ⟨b,hb,hsome⟩)
        obtain ⟨g',err,hleads,hphase,hstats⟩ :=
          @ih { g with shas := g.shas ++ casRefs rows.rows } ⟨x,hrest,hxallow,hxread⟩
        refine ⟨g',err,leads_bucket ?_,hphase,hstats⟩
        rw [collectBucket_read hskip hb hrows]
        exact hleads
      · obtain ⟨err,herr⟩ := @collectBucket_missing archive _ todo name hskip hevents
        have hthrew : Leads host db archive ⟨g.goto (.readBuckets (name :: todo)),files⟩
            ⟨(g.goto (.readBuckets (name :: todo))).goto (.threw err),files⟩ :=
          leads_bucket (herr ▸ .refl _)
        exact ⟨_,err,hthrew,rfl,rfl⟩

theorem leads_tables : Leads host db archive ⟨.begin opts clock,files⟩
    ⟨({ marked host db archive opts clock with
        shas := casRefs db.events.rows ++ casRefs db.archiveRows.rows ++ deadLetterRefs host db } : GcRun).goto
          (.readBuckets (listBuckets archive)),files⟩ := by
  refine .head (.head (.head (.head ?_)))
  have hstep : gcAlone host db archive (gcAlone host db archive (gcAlone host db archive (gcAlone host db archive
      ⟨.begin opts clock,files⟩))) = ⟨({ marked host db archive opts clock with
        shas := ((([] ++ casRefs db.events.rows) ++ casRefs db.archiveRows.rows) ++ deadLetterRefs host db) ++ [] } :
          GcRun).goto (.readBuckets (listBuckets archive)),files⟩ := rfl
  rw [hstep,List.nil_append,List.append_nil]
  exact .refl _

end Mark

def ReadableBuckets (archive : Archive) (opts : GcOpts) : Prop :=
  ∀ name ∈ listBuckets archive, name ∉ opts.allowMissingBuckets → HasEvents archive name

def gcDoomed (host : CasHost) (db : Db) (archive : Archive) (opts : GcOpts) (now : ℤ) (f : CasFile) : Bool :=
  decide (f.key ∉ gcRefs host db archive opts) && !decide ((now : ℚ) - f.time < opts.graceMs)

def gcSpared (host : CasHost) (db : Db) (archive : Archive) (opts : GcOpts) (now : ℤ) (f : CasFile) : Bool :=
  decide (f.key ∉ gcRefs host db archive opts) && decide ((now : ℚ) - f.time < opts.graceMs)

def survivors (host : CasHost) (db : Db) (archive : Archive) (opts : GcOpts) (files : CasFiles) (now : ℤ) : CasFiles :=
  files.filter (fun f => !gcDoomed host db archive opts now f)

def removed (host : CasHost) (db : Db) (archive : Archive) (opts : GcOpts) (weight : CasFile → ℕ) (files : CasFiles)
    (now : ℤ) : ℕ :=
  Schedule.weightOf weight (gcDoomed host db archive opts now) files.rows

structure Collected (host : CasHost) (db : Db) (archive : Archive) (opts : GcOpts) (now : ℤ) (files : CasFiles)
    (s : GcStep) : Prop where
  liveShas : s.run.phase = .returned (gcRefs host db archive opts).eraseDups.length
  considered : s.run.stats.considered = files.rows.length
  deleted : s.run.stats.deleted = removed host db archive opts (fun _ => 1) files now
  skippedInGrace : s.run.stats.skippedInGrace = files.rows.countP (gcSpared host db archive opts now)
  bytesFreed : s.run.stats.bytesFreed = removed host db archive opts CasFile.size files now
  files : s.files = if opts.dryRun then files else survivors host db archive opts files now

structure Aborted (files : CasFiles) (s : GcStep) : Prop where
  threw : ∃ err, s.run.phase = .threw err
  stats : s.run.stats = ⟨0,0,0,0⟩
  files : s.files = files

theorem countP_eq_weightOf {α : Type} (p : α → Bool) (l : List α) :
    l.countP p = Schedule.weightOf (fun _ => 1) p l := by
  simp [Schedule.weightOf,List.countP_eq_length_filter]

section Completion

variable {host : CasHost} {db : Db} {archive : Archive} {files files' : CasFiles} {opts : GcOpts} {clock : ℤ}
  {s s' : GcStep}

theorem Leads.settles (h : Leads host db archive s s') (hdone : s'.run.phase.running = false) :
    ∃ n, ∀ m, n ≤ m → (gcAlone host db archive)^[m] s = s' := by
  obtain ⟨n,hn⟩ := h
  have hfixed : Function.IsFixedPt (gcAlone host db archive) s' := by
    obtain ⟨⟨opts,now,shas,stats,phase⟩,files⟩ := s'
    cases phase <;> first | rfl | cases hdone
  refine ⟨n,fun m hm => ?_⟩
  obtain ⟨k,rfl⟩ := Nat.exists_eq_add_of_le hm
  rw [Nat.add_comm,Function.iterate_add_apply,hn]
  exact hfixed.iterate k

theorem leads_collected (h : ReadableBuckets archive opts) : ∃ s, Leads host db archive ⟨.begin opts clock,files⟩ s ∧
    Collected host db archive opts (opts.now.getD clock) files s := by
  have hbuckets := @leads_buckets host db archive ({ marked host db archive opts clock with
    shas := casRefs db.events.rows ++ casRefs db.archiveRows.rows ++ deadLetterRefs host db } : GcRun) files
    (listBuckets archive) h
  have hwalk := @leads_walk host db archive (marked host db archive opts clock) files
  refine ⟨_,leads_tables.trans (hbuckets.trans hwalk),rfl,Nat.zero_add _,(Nat.zero_add _).trans ?_,Nat.zero_add _,
    Nat.zero_add _,?_⟩
  · exact countP_eq_weightOf _ _
  · show (if opts.dryRun then files else _) = _
    congr 1
    refine KeyedTable.ext_mem fun f => ?_
    simp only [survivors,KeyedTable.mem_filter]
    refine and_congr_right fun hf => ?_
    rw [decide_eq_true (KeyedTable.mem_rows.mpr hf),Bool.true_and]
    rfl

theorem leads_aborted (h : ¬ ReadableBuckets archive opts) :
    ∃ s, Leads host db archive ⟨.begin opts clock,files⟩ s ∧ Aborted files s := by
  unfold ReadableBuckets at h
  push Not at h
  obtain ⟨g,err,hleads,hphase,hstats⟩ := @leads_unread host db archive ({ marked host db archive opts clock with
    shas := casRefs db.events.rows ++ casRefs db.archiveRows.rows ++ deadLetterRefs host db } : GcRun) files
    (listBuckets archive) h
  exact ⟨_,leads_tables.trans hleads,⟨err,hphase⟩,hstats,rfl⟩

theorem Collected.done (h : Collected host db archive opts clock files s) : s.run.phase.running = false := by
  rw [h.liveShas]
  rfl

theorem Aborted.done (h : Aborted files s) : s.run.phase.running = false := by
  obtain ⟨err,herr⟩ := h.threw
  rw [herr]
  rfl

structure Finishes (host : CasHost) (db : Db) (archive : Archive) (opts : GcOpts) (clock : ℤ) (files : CasFiles)
    (s : GcStep) : Prop where
  leads : Leads host db archive ⟨.begin opts clock,files⟩ s
  done : s.run.phase.running = false

theorem Finishes.unique (h : Finishes host db archive opts clock files s)
    (h' : Finishes host db archive opts clock files s') : s = s' := by
  obtain ⟨n,hn⟩ := h.leads.settles h.done
  obtain ⟨m,hm⟩ := h'.leads.settles h'.done
  exact (hn (max n m) (le_max_left _ _)).symm.trans (hm (max n m) (le_max_right _ _))

end Completion

theorem gc_settles (host : CasHost) (db : Db) (archive : Archive) (opts : GcOpts) (clock : ℤ) (files : CasFiles) :
    ∃ s, Finishes host db archive opts clock files s ∧
      (ReadableBuckets archive opts → Collected host db archive opts (opts.now.getD clock) files s) ∧
      (¬ ReadableBuckets archive opts → Aborted files s) := by
  by_cases hread : ReadableBuckets archive opts
  · obtain ⟨s,hleads,hcollected⟩ := @leads_collected host db archive files opts clock hread
    exact ⟨s,⟨hleads,hcollected.done⟩,fun _ => hcollected,fun h => absurd hread h⟩
  · obtain ⟨s,hleads,haborted⟩ := @leads_aborted host db archive files opts clock hread
    exact ⟨s,⟨hleads,haborted.done⟩,fun h => absurd h hread,fun _ => haborted⟩

theorem gc_completes (host : CasHost) (db : Db) (archive : Archive) (opts : GcOpts) (clock : ℤ) (files : CasFiles) :
    ∃ s, Finishes host db archive opts clock files s ∧
      (∃ n, ∀ m, n ≤ m → (gcAlone host db archive)^[m] ⟨.begin opts clock,files⟩ = s) ∧
      (ReadableBuckets archive opts → Collected host db archive opts (opts.now.getD clock) files s) ∧
      (¬ ReadableBuckets archive opts → Aborted files s) := by
  obtain ⟨s,hfinishes,hcollected,haborted⟩ := gc_settles host db archive opts clock files
  exact ⟨s,hfinishes,hfinishes.leads.settles hfinishes.done,hcollected,haborted⟩

inductive Collections (host : CasHost) (db : Db) (archive : Archive) (opts : GcOpts) :
    CasFiles → List ℤ → CasFiles → ℕ → ℕ → Prop
  | nil (files : CasFiles) : Collections host db archive opts files [] files 0 0
  | cons {files files' : CasFiles} {clock : ℤ} {clocks : List ℤ} {s : GcStep} {deleted freed : ℕ}
      (first : Finishes host db archive opts clock files s)
      (rest : Collections host db archive opts s.files clocks files' deleted freed) :
      Collections host db archive opts files (clock :: clocks) files' (s.run.stats.deleted + deleted)
        (s.run.stats.bytesFreed + freed)

section Cadence

variable {host : CasHost} {db : Db} {archive : Archive} {files files' : CasFiles} {opts : GcOpts} {clock last : ℤ}
  {clocks : List ℤ} {s : GcStep} {deleted freed : ℕ}

theorem gcDoomed_mono (t u : ℤ) (f : CasFile) (htu : t ≤ u) (h : gcDoomed host db archive opts t f = true) :
    gcDoomed host db archive opts u f = true := by
  simp only [gcDoomed,Bool.and_eq_true,decide_eq_true_eq,Bool.not_eq_true',decide_eq_false_iff_not,not_lt] at h ⊢
  have : (t : ℚ) ≤ u := by exact_mod_cast htu
  exact ⟨h.1,h.2.trans (by linarith)⟩

theorem gc_absorbs (host : CasHost) (db : Db) (archive : Archive) (opts : GcOpts) (weight : CasFile → ℕ) :
    Schedule.Absorbs (survivors host db archive opts) (removed host db archive opts weight) :=
  Schedule.absorbs_of_mono weight gcDoomed_mono

theorem Finishes.collected (h : Finishes host db archive opts clock files s) (hread : ReadableBuckets archive opts) :
    Collected host db archive opts (opts.now.getD clock) files s := by
  obtain ⟨s',hs',hcollected,-⟩ := gc_settles host db archive opts clock files
  rw [h.unique hs']
  exact hcollected hread

theorem Finishes.aborted (h : Finishes host db archive opts clock files s) (hread : ¬ ReadableBuckets archive opts) :
    Aborted files s := by
  obtain ⟨s',hs',-,haborted⟩ := gc_settles host db archive opts clock files
  rw [h.unique hs']
  exact haborted hread

theorem Collections.collected (hread : ReadableBuckets archive opts) (hwet : opts.dryRun = false)
    (h : Collections host db archive opts files clocks files' deleted freed) :
    files' = (clocks.map opts.now.getD).foldl (survivors host db archive opts) files ∧
    deleted = Schedule.total (survivors host db archive opts) (removed host db archive opts (fun _ => 1)) files
      (clocks.map opts.now.getD) ∧
    freed = Schedule.total (survivors host db archive opts) (removed host db archive opts CasFile.size) files
      (clocks.map opts.now.getD) := by
  induction h with
  | nil files => exact ⟨rfl,rfl,rfl⟩
  | cons first rest ih =>
    have hfirst := first.collected hread
    have hfiles := hfirst.files
    rw [hwet] at hfiles
    obtain ⟨hlast,hdeleted,hfreed⟩ := ih
    rw [hfiles] at hlast hdeleted hfreed
    exact ⟨hlast,by rw [hfirst.deleted,hdeleted]; rfl,by rw [hfirst.bytesFreed,hfreed]; rfl⟩

theorem Collections.aborted (hread : ¬ ReadableBuckets archive opts)
    (h : Collections host db archive opts files clocks files' deleted freed) :
    files' = files ∧ deleted = 0 ∧ freed = 0 := by
  induction h with
  | nil files => exact ⟨rfl,rfl,rfl⟩
  | cons first rest ih =>
    have hfirst := first.aborted hread
    obtain ⟨hlast,hdeleted,hfreed⟩ := ih
    rw [hfirst.stats]
    exact ⟨hlast.trans hfirst.files,by rw [hdeleted],by rw [hfreed]⟩

end Cadence

theorem gc_cadence {host : CasHost} {db : Db} {archive : Archive} {opts : GcOpts} (hwet : opts.dryRun = false)
    {files files' : CasFiles} {clocks : List ℤ} {last : ℤ} (hsorted : (clocks ++ [last]).Pairwise (· ≤ ·))
    {deleted freed : ℕ} (h : Collections host db archive opts files (clocks ++ [last]) files' deleted freed) :
    ∃ s, Finishes host db archive opts last files s ∧ files' = s.files ∧ deleted = s.run.stats.deleted ∧
      freed = s.run.stats.bytesFreed := by
  obtain ⟨s,hs,-,-⟩ := gc_settles host db archive opts last files
  refine ⟨s,hs,?_⟩
  by_cases hread : ReadableBuckets archive opts
  · have hmono : (clocks.map opts.now.getD ++ [opts.now.getD last]).Pairwise (· ≤ ·) := by
      rw [← List.map_singleton,← List.map_append]
      refine hsorted.map _ fun a b hab => ?_
      cases opts.now with
      | none => exact hab
      | some now => exact le_rfl
    obtain ⟨hfiles,hdeleted,hfreed⟩ := h.collected hread hwet
    rw [List.map_append,List.map_singleton] at hfiles hdeleted hfreed
    have hcollected := hs.collected hread
    have hlast := hcollected.files
    rw [hwet] at hlast
    refine ⟨?_,?_,?_⟩
    · rw [hfiles,hlast,(gc_absorbs host db archive opts CasFile.size).foldl files hmono]
      rfl
    · rw [hdeleted,hcollected.deleted,(gc_absorbs host db archive opts (fun _ => 1)).total files hmono]
    · rw [hfreed,hcollected.bytesFreed,(gc_absorbs host db archive opts CasFile.size).total files hmono]
  · obtain ⟨hfiles,hdeleted,hfreed⟩ := h.aborted hread
    have haborted := hs.aborted hread
    rw [hfiles,hdeleted,hfreed,haborted.files,haborted.stats]
    exact ⟨rfl,rfl,rfl⟩

theorem collections_exist (host : CasHost) (db : Db) (archive : Archive) (opts : GcOpts) (clocks : List ℤ)
    (files : CasFiles) :
    ∃ files' deleted freed, Collections host db archive opts files clocks files' deleted freed := by
  induction clocks generalizing files with
  | nil => exact ⟨files,0,0,.nil files⟩
  | cons clock clocks ih =>
    obtain ⟨s,hs,-⟩ := gc_settles host db archive opts clock files
    obtain ⟨files',deleted,freed,hrest⟩ := ih s.files
    exact ⟨files',_,_,.cons hs hrest⟩

def twoBlobs : CasFiles := ⟨[⟨"aa11","old",0⟩,⟨"bb22","young",150000000⟩],by decide⟩

theorem gc_cadence_sample : ∃ files' deleted freed,
    Collections sampleCasHost .empty .empty ⟨some 1,none,[],false⟩ twoBlobs ([100000000] ++ [200000000]) files' deleted
      freed ∧
    ∃ s, Finishes sampleCasHost .empty .empty ⟨some 1,none,[],false⟩ 200000000 twoBlobs s ∧ files' = s.files ∧
      deleted = s.run.stats.deleted ∧ freed = s.run.stats.bytesFreed := by
  obtain ⟨files',deleted,freed,h⟩ := collections_exist sampleCasHost .empty .empty ⟨some 1,none,[],false⟩
    ([100000000] ++ [200000000]) twoBlobs
  exact ⟨files',deleted,freed,h,gc_cadence rfl (by decide) h⟩

end WickedBus
