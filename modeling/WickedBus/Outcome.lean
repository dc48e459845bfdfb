import WickedBus.Targets
import WickedBus.Custody

namespace WickedBus

open WickedBus.Filter (Text)

def SweepStart.copies (s : SweepStart) (groups : List (Text × List EventRow)) : List (Text × List EventRow) :=
  groups.filter (fun p => !s.disk.locked p.1)

def SweepStart.movedOf (s : SweepStart) (groups : List (Text × List EventRow)) : List ℤ :=
  (rowsOf (s.copies groups)).map EventRow.eventId

structure GroupPlan (s : SweepStart) (all : List (Text × List EventRow)) : Prop where
  targets : ∀ p ∈ all, p.2 ≠ [] ∧ ∀ e ∈ p.2, s.target e = some p.1
  names : (all.map Prod.fst).Nodup
  rows : (rowsOf all).Perm s.batch

def CopiedTo (archive : Archive) (name : Text) (e : EventRow) : Prop :=
  ∃ x, Holds archive name x ∧ x.eventId = e.eventId

structure Files (s : SweepStart) (finished touched : List (Text × List EventRow)) (archive : Archive) :
    Prop where
  writable : ∀ p ∈ finished, s.Writable p.1
  ready : ∀ p ∈ s.copies finished, tablesOf archive p.1 = some (true,true)
  stored : ∀ p ∈ s.copies finished, ∀ e ∈ p.2, CopiedTo archive p.1 e
  tables : ∀ n, n ∉ (s.copies touched).map Prod.fst → tablesOf archive n = tablesOf s.archive n
  keep : ∀ n e, Holds s.archive n e → Holds archive n e
  gain : ∀ n e, Holds archive n e → Holds s.archive n e ∨ ∃ p ∈ s.copies touched, p.1 = n ∧ e ∈ p.2

def Opened (origin archive : Archive) (name : Text) : Prop :=
  (origin.get? name = none ∧ tablesOf archive name = some (true,true)) ∨
    (tablesOf archive name = tablesOf origin name ∧ (origin.get? name).isSome = true)

def Stage (origin archive : Archive) : Phase → Prop
  | .openBucket w => archive.get? w.bucketName = none ∧ origin.get? w.bucketName = none
  | .createEvents w => origin.get? w.bucketName = none ∧ tablesOf archive w.bucketName = some (false,false)
  | .createMeta w => origin.get? w.bucketName = none ∧ tablesOf archive w.bucketName = some (true,false)
  | .setCreatedAt w | .setMinEventId w | .setMaxEventId w =>
    origin.get? w.bucketName = none ∧ tablesOf archive w.bucketName = some (true,true)
  | .insertBatch w => Opened origin archive w.bucketName
  | .readRange w | .writeRange w _ _ =>
    Opened origin archive w.bucketName ∧ ∀ e ∈ w.events, CopiedTo archive w.bucketName e
  | _ => True

structure Copying (s : SweepStart) (finished : List (Text × List EventRow)) (w : Writing) (archive : Archive) :
    Prop where
  plan : GroupPlan s (finished ++ (w.bucketName,w.events) :: w.rest)
  moved : w.moved = s.movedOf finished
  unlocked : s.disk.locked w.bucketName = false
  files : Files s finished (finished ++ [(w.bucketName,w.events)]) archive

structure Underway (s : SweepStart) (finished groups : List (Text × List EventRow)) (moved : List ℤ)
    (archive : Archive) : Prop where
  plan : GroupPlan s (finished ++ groups)
  moved : moved = s.movedOf finished
  files : Files s finished finished archive

def Course (s : SweepStart) (bus : Db) (archive : Archive) (ph : Phase) : Prop :=
  match ph with
  | .collectCursors | .collectOwed _ _ | .collectAttempts _ | .readPairs _ =>
    bus = s.bus ∧ archive = s.archive ∧ OnTrack s.bus s.cfg ph
  | .discardOwed ids => bus = s.bus ∧ archive = s.archive ∧ ids = s.discarded ∧ ids ≠ []
  | .selectCandidates held => bus = s.live ∧ archive = s.archive ∧ held = owedNow s.bus s.cfg
  | .groupEvents g => bus = s.live ∧ ∃ done, Grouped s g archive done
  | .readMeta g latest => bus = s.live ∧ (∃ done, Grouped s g archive done) ∧ Picking s g latest
  | .statBucket g latest =>
    bus = s.live ∧ (∃ done, Grouped s g archive done) ∧ Picking s g latest ∧ ¬ Sealed s.archive latest
  | .sealLatest g latest =>
    bus = s.live ∧ (∃ done, Grouped s g archive done) ∧ Picking s g latest ∧ s.needsNext latest = true
  | .writeGroups groups moved => bus = s.live ∧ ∃ finished, Underway s finished groups moved archive
  | .deleteLive moved => bus = s.live ∧ moved ≠ [] ∧ ∃ all, Underway s all [] moved archive
  | .openBucket w | .createEvents w | .createMeta w | .setCreatedAt w | .setMinEventId w | .setMaxEventId w
  | .insertBatch w | .readRange w | .writeRange w _ _ =>
    bus = s.live ∧ (∃ finished, Copying s finished w archive) ∧ Stage s.archive archive ph

section Stages

variable {env : StepEnv} {cfg : PassConfig} {db : Db} {origin archive archive' : Archive} {ph ph' : Phase}
  {w : Writing} {name : Text}

theorem holds_tables {e : EventRow} (h : Holds archive name e) : ∃ b, tablesOf archive name = some (true,b) := by
  obtain ⟨file,hfile,hname,he⟩ := h
  refine ⟨file.bucketMeta.isSome,tablesOf_eq_some.mpr ⟨file,KeyedTable.get?_eq_some.mpr ⟨hfile,hname⟩,?_,rfl⟩⟩
  cases hev : file.events with
  | none => simp [BucketFile.rows,hev] at he
  | some t => rfl

theorem Opened.insert {rows : List EventRow} (h : Opened origin archive name) {n : Text} :
    Opened origin (editBucket archive n (Option.map (·.insertAll rows)) id) name := by
  have hsame : tablesOf (editBucket archive n (Option.map (·.insertAll rows)) id) name = tablesOf archive name := by
    by_cases hn : name = n
    · subst hn
      rw [tablesOf_editBucket_self]
      simp [tablesOf]
    · rw [tablesOf,get?_editBucket_ne hn,tablesOf]
  rwa [Opened,hsame]

theorem stage_step (hw : ph.writing = some w) (h : Stage origin archive ph)
    (hnext : (sweeperStep env cfg db archive ph).next = some ph') :
    ph' = w.finish ∨ (ph'.writing = some w ∧ Stage origin (sweeperStep env cfg db archive ph).archive ph') := by
  cases ph with
  | openBucket v =>
    cases hw
    cases hnext
    refine .inr ⟨rfl,h.2,?_⟩
    exact tablesOf_eq_some.mpr ⟨_,get?_openFile_self h.1,rfl,rfl⟩
  | createEvents v =>
    cases hw
    cases hnext
    obtain ⟨file,hfile,-,hmeta⟩ := tablesOf_eq_some.mp h.2
    refine .inr ⟨rfl,h.1,?_⟩
    rw [sweeperStep,createEventsTable,tablesOf_editBucket_self,hfile]
    exact congrArg (fun b => some (true,b)) hmeta
  | createMeta v =>
    cases hw
    cases hnext
    obtain ⟨file,hfile,hev,-⟩ := tablesOf_eq_some.mp h.2
    refine .inr ⟨rfl,h.1,?_⟩
    rw [sweeperStep,createMetaTable,tablesOf_editBucket_self,hfile]
    exact congrArg (fun b => some (b,true)) hev
  | setCreatedAt v | setMinEventId v =>
    cases hw
    simp only [sweeperStep] at hnext ⊢
    split at hnext <;> cases hnext
    rename_i hset
    refine .inr ⟨rfl,h.1,?_⟩
    simp only [(setMeta_some hset).2,tablesOf_setMeta]
    exact h.2
  | setMaxEventId v =>
    cases hw
    simp only [sweeperStep] at hnext ⊢
    split at hnext <;> cases hnext
    rename_i hset
    refine .inr ⟨rfl,.inl ⟨h.1,?_⟩⟩
    simp only [(setMeta_some hset).2,tablesOf_setMeta]
    exact h.2
  | insertBatch v =>
    cases hw
    simp only [sweeperStep] at hnext ⊢
    split at hnext <;> cases hnext
    rename_i archive' hins
    refine .inr ⟨rfl,?_,fun e he => ?_⟩
    · simp only [(insertRows_some hins).2]
      exact Opened.insert h
    · exact stored_insertRows hins he
  | readRange v =>
    cases hw
    simp only [sweeperStep] at hnext ⊢
    (repeat' split at hnext) <;> cases hnext
    · exact .inr ⟨rfl,h⟩
    · exact .inl rfl
  | writeRange v lo hi =>
    cases hw
    simp only [sweeperStep] at hnext
    split at hnext <;> cases hnext
    exact .inl rfl
  | _ => cases hw

theorem stage_finish (hw : ph.writing = some w) (h : Stage origin archive ph) (hne : w.events ≠ [])
    (hnext : (sweeperStep env cfg db archive ph).next = some w.finish) :
    Openable origin w.bucketName ∧ tablesOf archive w.bucketName = some (true,true) ∧
      ∀ e ∈ w.events, CopiedTo archive w.bucketName e := by
  obtain ⟨ev,hev⟩ := List.exists_mem_of_ne_nil w.events hne
  have hfinish : Opened origin archive w.bucketName → (∀ e ∈ w.events, CopiedTo archive w.bucketName e) →
      (getBucketMeta archive w.bucketName).isSome = true →
      Openable origin w.bucketName ∧ tablesOf archive w.bucketName = some (true,true) ∧
        ∀ e ∈ w.events, CopiedTo archive w.bucketName e := by
    intro hopened hcopied hmeta
    obtain ⟨x,hx,-⟩ := hcopied ev hev
    obtain ⟨a,ha⟩ := getBucketMeta_isSome.mp hmeta
    obtain ⟨b,hb⟩ := holds_tables hx
    have hready : tablesOf archive w.bucketName = some (true,true) := by
      rw [ha,Option.some.injEq,Prod.mk.injEq] at hb
      rw [ha,hb.1]
    refine ⟨fun tables htables => ?_,hready,hcopied⟩
    rcases hopened with ⟨hnone,-⟩ | ⟨hsame,-⟩
    · rw [tablesOf,hnone] at htables
      cases htables
    · rw [← hsame,hready] at htables
      exact (Option.some.inj htables).symm
  cases ph with
  | readRange v =>
    cases hw
    obtain ⟨x,⟨file,hfile,hname,hrow⟩,-⟩ := h.2 ev hev
    have hget := KeyedTable.get?_eq_some.mpr ⟨hfile,hname⟩
    simp only [sweeperStep,hget,Option.map_some] at hnext
    split at hnext
    · cases hnext
    · rename_i hempty
      obtain ⟨lo,hlo⟩ := Option.ne_none_iff_exists'.mp (fun hmin => KeyedTable.minKey?_eq_none.mp hmin x hrow)
      obtain ⟨hi,hhi⟩ := Option.ne_none_iff_exists'.mp (fun hmax => KeyedTable.maxKey?_eq_none.mp hmax x hrow)
      exact absurd hhi (hempty lo hi hlo)
  | writeRange v lo hi =>
    cases hw
    simp only [sweeperStep] at hnext
    split at hnext <;> cases hnext
    rename_i hset
    exact hfinish h.1 h.2 (setMeta_some hset).1
  | openBucket v | createEvents v | createMeta v =>
    cases hw
    cases hnext
  | setCreatedAt v | setMinEventId v | setMaxEventId v | insertBatch v =>
    cases hw
    simp only [sweeperStep] at hnext
    split at hnext <;> cases hnext
  | _ => cases hw

theorem setMeta_ready {f : BucketMeta → BucketMeta} {a : Bool} (h : tablesOf archive name = some (a,true)) :
    setMeta archive name f ≠ none := by
  intro hnone
  have hmeta := getBucketMeta_isSome.mpr ⟨a,h⟩
  rw [setMeta_none hnone] at hmeta
  cases hmeta

theorem not_openable (h : Opened origin archive name) (hbad : tablesOf archive name ≠ some (true,true)) :
    ¬ Openable origin name := by
  intro hopen
  rcases h with ⟨-,hready⟩ | ⟨hsame,hfile⟩
  · exact hbad hready
  · rw [← tablesOf_isSome] at hfile
    obtain ⟨tables,htables⟩ := Option.isSome_iff_exists.mp hfile
    exact hbad (by rw [hsame,htables,hopen tables htables])

theorem stage_fails (hw : ph.writing = some w) (h : Stage origin archive ph) (hne : w.events ≠ [])
    (hnext : (sweeperStep env cfg db archive ph).next = none) : ¬ Openable origin w.bucketName := by
  obtain ⟨ev,hev⟩ := List.exists_mem_of_ne_nil w.events hne
  cases ph with
  | openBucket v | createEvents v | createMeta v => cases hnext
  | setCreatedAt v | setMinEventId v | setMaxEventId v =>
    cases hw
    simp only [sweeperStep] at hnext
    split at hnext
    · rename_i hset
      exact absurd hset (setMeta_ready h.2)
    · cases hnext
  | insertBatch v =>
    cases hw
    simp only [sweeperStep] at hnext
    split at hnext
    · rename_i hins
      refine not_openable h fun hready => ?_
      obtain ⟨file,hfile,hevents,-⟩ := tablesOf_eq_some.mp hready
      simp [insertRows,hfile,hevents] at hins
    · cases hnext
  | readRange v =>
    cases hw
    obtain ⟨x,⟨file,hfile,hname,-⟩,-⟩ := h.2 ev hev
    have hget := KeyedTable.get?_eq_some.mpr ⟨hfile,hname⟩
    simp only [sweeperStep,hget,Option.map_some] at hnext
    split at hnext <;> cases hnext
  | writeRange v lo hi =>
    cases hw
    simp only [sweeperStep] at hnext
    split at hnext
    · rename_i hset
      refine not_openable h.1 fun hready => ?_
      exact setMeta_ready hready hset
    · cases hnext
  | _ => cases hw

theorem writing_gain (hw : ph.writing = some w) {n : Text} {e : EventRow}
    (h : Holds (sweeperStep env cfg db archive ph).archive n e) :
    Holds archive n e ∨ (n = w.bucketName ∧ e ∈ w.events) := by
  rcases sweeperStep_archive env cfg db archive ph with hsame | ⟨v,rfl,hins⟩
  · exact .inl ((hsame n e).mp h)
  · cases hw
    exact holds_of_insertRows hins h

end Stages

section Files

variable {env : StepEnv} {db : Db} {s : SweepStart} {archive : Archive} {ph ph' : Phase} {w : Writing}
  {finished groups : List (Text × List EventRow)} {moved : List ℤ}

theorem SweepStart.copies_append (s : SweepStart) (xs ys : List (Text × List EventRow)) :
    s.copies (xs ++ ys) = s.copies xs ++ s.copies ys := List.filter_append xs ys

theorem SweepStart.mem_copies {p : Text × List EventRow} :
    p ∈ s.copies groups ↔ p ∈ groups ∧ s.disk.locked p.1 = false := by
  simp [copies]

theorem SweepStart.movedOf_append (s : SweepStart) (xs ys : List (Text × List EventRow)) :
    s.movedOf (xs ++ ys) = s.movedOf xs ++ s.movedOf ys := by
  simp [movedOf,copies_append,rowsOf]

theorem Files.begin (h : ∀ n, tablesOf archive n = tablesOf s.archive n)
    (hholds : ∀ n e, Holds archive n e ↔ Holds s.archive n e) : Files s [] [] archive where
  writable _ h := by cases h
  ready _ h := by cases h
  stored _ h := by cases h
  tables n _ := h n
  keep n e := (hholds n e).mpr
  gain n e he := .inl ((hholds n e).mp he)

theorem Copying.other (h : Copying s finished w archive) {p : Text × List EventRow} (hp : p ∈ finished) :
    p.1 ≠ w.bucketName := by
  have hnames := h.plan.names
  rw [List.map_append,List.map_cons,List.nodup_append'] at hnames
  exact fun heq => hnames.2.2 (List.mem_map_of_mem hp) (heq ▸ List.mem_cons_self)

theorem Copying.write (h : Copying s finished w archive) (hw : ph.writing = some w) :
    Copying s finished w (sweeperStep env s.cfg db archive ph).archive := by
  have hframe := fun n hn => (sweeperStep_buckets env s.cfg db archive ph).frame (n := n) hw hn
  refine ⟨h.plan,h.moved,h.unlocked,h.files.writable,fun p hp => ?_,fun p hp e he => ?_,fun n hn => ?_,
    fun n e he => sweeperStep_holds env s.cfg db archive ph (h.files.keep n e he),fun n e he => ?_⟩
  · rw [tablesOf,hframe p.1 (h.other (s.mem_copies.mp hp).1)]
    exact h.files.ready p hp
  · obtain ⟨x,hx,hid⟩ := h.files.stored p hp e he
    exact ⟨x,sweeperStep_holds env s.cfg db archive ph hx,hid⟩
  · have hne : n ≠ w.bucketName := by
      rintro rfl
      exact hn (List.mem_map.mpr ⟨(w.bucketName,w.events),s.mem_copies.mpr ⟨by simp,h.unlocked⟩,rfl⟩)
    rw [tablesOf,hframe n hne]
    exact h.files.tables n hn
  · rcases writing_gain hw he with hold | ⟨rfl,hnew⟩
    · exact h.files.gain n e hold
    · exact .inr ⟨(w.bucketName,w.events),s.mem_copies.mpr ⟨by simp,h.unlocked⟩,rfl,hnew⟩

theorem GroupPlan.events_ne (h : Copying s finished w archive) : w.events ≠ [] :=
  (h.plan.targets (w.bucketName,w.events) (by simp)).1

theorem Copying.finish (h : Copying s finished w archive) (hopen : Openable s.archive w.bucketName)
    (hready : tablesOf archive w.bucketName = some (true,true))
    (hstored : ∀ e ∈ w.events, CopiedTo archive w.bucketName e) :
    Underway s (finished ++ [(w.bucketName,w.events)]) w.rest (w.moved ++ w.events.map EventRow.eventId) archive := by
  have hlast : s.copies [(w.bucketName,w.events)] = [(w.bucketName,w.events)] := by
    simp [SweepStart.copies,h.unlocked]
  refine ⟨by simpa using h.plan,?_,fun p hp => ?_,fun p hp => ?_,fun p hp => ?_,h.files.tables,h.files.keep,
    h.files.gain⟩
  · rw [s.movedOf_append,h.moved]
    simp [SweepStart.movedOf,hlast,rowsOf]
  · rcases List.mem_append.mp hp with hp | hp
    · exact h.files.writable p hp
    · rw [List.mem_singleton.mp hp]
      exact .inr hopen
  · rw [s.copies_append,hlast] at hp
    rcases List.mem_append.mp hp with hp | hp
    · exact h.files.ready p hp
    · rw [List.mem_singleton.mp hp]
      exact hready
  · rw [s.copies_append,hlast] at hp
    rcases List.mem_append.mp hp with hp | hp
    · exact h.files.stored p hp
    · rw [List.mem_singleton.mp hp]
      exact hstored

end Files

section Course

variable {s : SweepStart} {clock : ℤ} {bus : Db} {archive : Archive} {ph ph' : Phase} {memo : PassMemo}

theorem Course.copying {w : Writing} (h : Course s bus archive ph) (hw : ph.writing = some w) :
    bus = s.live ∧ (∃ finished, Copying s finished w archive) ∧ Stage s.archive archive ph := by
  cases ph with
  | openBucket v | createEvents v | createMeta v | setCreatedAt v | setMinEventId v | setMaxEventId v
  | insertBatch v | readRange v | writeRange v lo hi =>
    cases hw
    exact h
  | _ => cases hw

theorem course_writing {w : Writing} {finished : List (Text × List EventRow)} (hw : ph.writing = some w)
    (hbus : bus = s.live) (hcopying : Copying s finished w archive) (hstage : Stage s.archive archive ph) :
    Course s bus archive ph := by
  cases ph with
  | openBucket v | createEvents v | createMeta v | setCreatedAt v | setMinEventId v | setMaxEventId v
  | insertBatch v | readRange v | writeRange v lo hi =>
    cases hw
    exact ⟨hbus,⟨finished,hcopying⟩,hstage⟩
  | _ => cases hw

theorem bus_of_writing {env : StepEnv} {cfg : PassConfig} {w : Writing} (hw : ph.writing = some w) :
    (sweeperStep env cfg bus archive ph).bus = bus := by
  rcases sweeperStep_bus env cfg bus archive ph with hbus | ⟨ids,rfl,-⟩ | ⟨moved,rfl,-⟩
  · exact hbus
  · cases hw
  · cases hw

theorem course_write {env : StepEnv} {w : Writing} (h : Course s bus archive ph) (hw : ph.writing = some w)
    (hnext : (sweeperStep env s.cfg bus archive ph).next = some ph') :
    Course s (sweeperStep env s.cfg bus archive ph).bus (sweeperStep env s.cfg bus archive ph).archive ph' := by
  obtain ⟨hbus,⟨finished,hcopying⟩,hstage⟩ := h.copying hw
  have hwrite : Copying s finished w (sweeperStep env s.cfg bus archive ph).archive := hcopying.write hw
  rw [bus_of_writing hw]
  rcases stage_step hw hstage hnext with rfl | ⟨hw',hstage'⟩
  · obtain ⟨hopen,hready,hstored⟩ := stage_finish hw hstage (GroupPlan.events_ne hcopying) hnext
    refine ⟨hbus,_,hwrite.finish hopen ((sweeperStep_buckets env s.cfg bus archive ph).ready hready) fun e he => ?_⟩
    obtain ⟨x,hx,hid⟩ := hstored e he
    exact ⟨x,sweeperStep_holds env s.cfg bus archive ph hx,hid⟩
  · exact course_writing hw' hbus hwrite hstage'

theorem Grouped.plan_of {g : Grouping} {done : List EventRow} (h : Grouped s g archive done) (hnil : g.todo = []) :
    GroupPlan s g.groups := by
  refine ⟨h.groups,h.names,?_⟩
  rw [h.split,hnil,List.append_nil]
  exact h.rows

theorem split_none_sealed {month : Text} (h : s.splitBucket month = none) (n : Text) :
    Sealed archive n ↔ Sealed archive n ∨
      (s.splitBucket month = some n ∧ s.sealable n = true) := by
  rw [h]
  simp

theorem course_group {env : StepEnv} {g : Grouping} (h : Course s bus archive (.groupEvents g))
    (hnext : (sweeperStep env s.cfg bus archive (.groupEvents g)).next = some ph') :
    Course s bus archive ph' := by
  obtain ⟨hbus,done,hg⟩ := h
  have hbuckets := @bucketsOfMonth_of_tables archive s.archive g.month hg.tables
  simp only [sweeperStep,hbuckets] at hnext
  (repeat' split at hnext) <;> cases hnext
  · rename_i hnil
    exact ⟨hbus,[],hg.plan_of hnil,rfl,.begin hg.tables hg.holds⟩
  · rename_i ev rest htodo _ name hhit
    exact ⟨hbus,_,hg.place htodo hhit⟩
  · rename_i ev rest htodo _ hmiss _ hnone
    obtain ⟨hchosen,hsplit⟩ := s.chosen_bare hnone
    exact ⟨hbus,_,hg.assign htodo (fun _ => rfl) (fun _ _ => Iff.rfl) (split_none_sealed hsplit) hchosen⟩
  · rename_i ev rest htodo _ hmiss _ latest hlatest
    rw [← Grouping.month_cons htodo] at hmiss
    exact ⟨hbus,⟨done,hg⟩,by rw [htodo]; exact List.cons_ne_nil _ _,hmiss,hlatest⟩

theorem course_meta {env : StepEnv} {g : Grouping} {latest : Text} (h : Course s bus archive (.readMeta g latest))
    (hnext : (sweeperStep env s.cfg bus archive (.readMeta g latest)).next = some ph') :
    Course s bus archive ph' := by
  obtain ⟨hbus,⟨done,hg⟩,hpick⟩ := h
  have hsealed := hg.fresh_sealed hpick
  simp only [sweeperStep] at hnext
  split at hnext <;> cases hnext
  · rename_i hold
    refine ⟨hbus,⟨done,hg⟩,hpick,?_⟩
    rw [SweepStart.needsNext,decide_eq_true (hsealed.mp hold),Bool.true_or]
  · rename_i hopen
    exact ⟨hbus,⟨done,hg⟩,hpick,fun hs => hopen (hsealed.mpr hs)⟩

theorem course_stat {g : Grouping} {latest : Text} (h : Course s bus archive (.statBucket g latest))
    (hnext : (sweeperStep ⟨clock,s.disk.size latest,false,false⟩ s.cfg bus archive (.statBucket g latest)).next =
      some ph') :
    Course s bus archive ph' := by
  obtain ⟨hbus,⟨done,hg⟩,hpick,hopen⟩ := h
  obtain ⟨ev,rest,htodo⟩ := List.exists_cons_of_ne_nil hpick.todo
  have hneeds : s.needsNext latest = (s.disk.size latest).any (fun size => s.cfg.bucketMaxBytes ≤ size) := by
    rw [SweepStart.needsNext,decide_eq_false hopen,Bool.false_or]
  simp only [sweeperStep,← hneeds] at hnext
  split at hnext <;> cases hnext
  · rename_i hsize
    exact ⟨hbus,⟨done,hg⟩,hpick,hsize⟩
  · rename_i hsize
    obtain ⟨hchosen,hsplit⟩ := s.chosen_latest hpick.latest (Bool.not_eq_true _ ▸ hsize)
    exact ⟨hbus,_,hg.assign htodo (fun _ => rfl) (fun _ _ => Iff.rfl) (split_none_sealed hsplit) hchosen⟩

theorem course_seal {env : StepEnv} {g : Grouping} {latest : Text} (h : Course s bus archive (.sealLatest g latest))
    (hfails : env.sealFails = s.disk.sealFails latest)
    (hnext : (sweeperStep env s.cfg bus archive (.sealLatest g latest)).next = some ph') :
    Course s bus (sweeperStep env s.cfg bus archive (.sealLatest g latest)).archive ph' := by
  obtain ⟨hbus,⟨done,hg⟩,hpick,hneeds⟩ := h
  obtain ⟨ev,rest,htodo⟩ := List.exists_cons_of_ne_nil hpick.todo
  obtain ⟨hchosen,hsplit⟩ := s.chosen_next hpick.latest hneeds
  have hr := sweeperStep_buckets env s.cfg bus archive (.sealLatest g latest)
  have hread : ∀ n, (getBucketMeta archive n).isSome = (getBucketMeta s.archive n).isSome :=
    fun n => readable_of_tables hg.tables
  have hholds := fun n e => (sweeperStep_archive env s.cfg bus archive (.sealLatest g latest)).elim
    (fun hsame => hsame n e) (by rintro ⟨w,hw,-⟩; cases hw)
  generalize (sweeperStep env s.cfg bus archive (.sealLatest g latest)).archive = archive' at *
  simp only [sweeperStep] at hnext
  split at hnext <;> cases hnext
  rename_i name hname
  refine ⟨hbus,_,hg.assign htodo (fun n => hr.tables_of_quiet rfl) hholds (fun n => ?_) (hchosen.trans hname)⟩
  rw [hr.sealed_iff,hsplit,hread]
  refine or_congr_right (and_congr_right fun hn => ?_)
  cases hn
  rw [SweepStart.sealable,Bool.and_eq_true,Bool.not_eq_true',hfails]

theorem course_select {env : StepEnv} {held : List ℤ} (h : Course s bus archive (.selectCandidates held))
    (hnext : (sweeperStep env s.cfg bus archive (.selectCandidates held)).next = some ph') :
    Course s bus archive ph' := by
  obtain ⟨rfl,rfl,rfl⟩ := h
  simp only [sweeperStep] at hnext
  split at hnext <;> cases hnext
  rename_i ev rest hbatch
  exact ⟨rfl,[],.begin hbatch⟩

theorem SweepStart.discarded_policy (h : s.discarded ≠ []) : s.cfg.policy = .discard := by
  unfold discarded at h
  split_ifs at h with hpolicy
  · exact hpolicy
  · exact absurd rfl h

theorem SweepStart.live_of_discarded (h : s.discarded ≠ []) : s.live = deleteFromLive s.bus s.discarded none :=
  if_neg h

theorem SweepStart.live_eq_bus (h : s.discarded = []) : s.live = s.bus := if_pos h

theorem course_pairs {env : StepEnv} {owed : OwedTable} (h : Course s bus archive (.readPairs owed))
    (hnext : (sweeperStep env s.cfg bus archive (.readPairs owed)).next = some ph') :
    Course s bus archive ph' := by
  obtain ⟨rfl,rfl,rfl⟩ := h
  simp only [sweeperStep] at hnext
  split at hnext <;> cases hnext
  · rename_i hdrop
    have hids : s.discarded = idsOf (owedPairsNow s.cfg s.bus) := if_pos hdrop.1
    exact ⟨rfl,rfl,hids.symm,hdrop.2⟩
  · rename_i hkeep
    refine ⟨(s.live_eq_bus ?_).symm,rfl,rfl⟩
    rw [not_and_not_right] at hkeep
    rw [SweepStart.discarded,ite_eq_right_iff]
    exact hkeep

theorem course_discard {env : StepEnv} {ids : List ℤ} (h : Course s bus archive (.discardOwed ids))
    (hnext : (sweeperStep env s.cfg bus archive (.discardOwed ids)).next = some ph') :
    Course s (deleteFromLive bus ids none) archive ph' := by
  obtain ⟨rfl,rfl,rfl,hne⟩ := h
  cases hnext
  refine ⟨(s.live_of_discarded hne).symm,rfl,?_⟩
  have hretain : s.cfg.policy ≠ .retain := by rw [s.discarded_policy hne]; decide
  exact (if_neg hretain).symm

theorem Underway.lock {name : Text} {events : List EventRow} {rest finished : List (Text × List EventRow)}
    {moved : List ℤ} (h : Underway s finished ((name,events) :: rest) moved archive)
    (hlocked : s.disk.locked name = true) : Underway s (finished ++ [(name,events)]) rest moved archive := by
  have hnone : s.copies [(name,events)] = [] := by simp [SweepStart.copies,hlocked]
  have hcopies : s.copies (finished ++ [(name,events)]) = s.copies finished := by
    rw [s.copies_append,hnone,List.append_nil]
  refine ⟨by simpa using h.plan,?_,fun p hp => ?_,?_,?_,?_,h.files.keep,?_⟩
  · rw [h.moved,SweepStart.movedOf,SweepStart.movedOf,hcopies]
  · rcases List.mem_append.mp hp with hp | hp
    · exact h.files.writable p hp
    · rw [List.mem_singleton.mp hp]
      exact .inl hlocked
  · rw [hcopies]
    exact h.files.ready
  · rw [hcopies]
    exact h.files.stored
  · rw [hcopies]
    exact h.files.tables
  · rw [hcopies]
    exact h.files.gain

theorem Underway.open {name : Text} {events : List EventRow} {rest finished : List (Text × List EventRow)}
    {moved : List ℤ} (h : Underway s finished ((name,events) :: rest) moved archive)
    (hlocked : s.disk.locked name = false) :
    Copying s finished ⟨name,events,rest,moved⟩ archive ∧ tablesOf archive name = tablesOf s.archive name := by
  have hfresh : name ∉ (s.copies finished).map Prod.fst := by
    have hnames := h.plan.names
    rw [List.map_append,List.map_cons,List.nodup_append'] at hnames
    exact fun hmem => hnames.2.2 ((List.filter_sublist.map Prod.fst).subset hmem) List.mem_cons_self
  refine ⟨⟨h.plan,h.moved,hlocked,h.files.writable,h.files.ready,h.files.stored,fun n hn => h.files.tables n fun hmem =>
    hn ?_,h.files.keep,fun n e he => (h.files.gain n e he).imp_right ?_⟩,h.files.tables name hfresh⟩
  · rw [s.copies_append,List.map_append]
    exact List.mem_append_left _ hmem
  · rintro ⟨p,hp,hpn,hpe⟩
    rw [s.copies_append]
    exact ⟨p,List.mem_append_left _ hp,hpn,hpe⟩

theorem course_groups {groups : List (Text × List EventRow)} {moved : List ℤ} {env : StepEnv}
    (h : Course s bus archive (.writeGroups groups moved))
    (henv : ∀ p ∈ groups.head?, env.locked = s.disk.locked p.1)
    (hnext : (sweeperStep env s.cfg bus archive (.writeGroups groups moved)).next = some ph') :
    Course s bus archive ph' := by
  obtain ⟨hbus,finished,hwrites⟩ := h
  rcases groups with _ | ⟨⟨name,events⟩,rest⟩
  · simp only [sweeperStep] at hnext
    split at hnext <;> cases hnext
    rename_i hne
    exact ⟨hbus,hne,finished,hwrites⟩
  · have hlocked := henv (name,events) rfl
    simp only [sweeperStep,hlocked] at hnext
    split at hnext
    · cases hnext
      rename_i hl
      exact ⟨hbus,_,hwrites.lock hl⟩
    · rename_i hl
      obtain ⟨hcopying,htables⟩ := hwrites.open (Bool.not_eq_true _ ▸ hl)
      have hfile : (archive.get? name).isSome = (s.archive.get? name).isSome := by
        rw [← tablesOf_isSome,htables,tablesOf_isSome]
      split at hnext <;> cases hnext
      · rename_i hold
        exact ⟨hbus,⟨finished,hcopying⟩,.inr ⟨htables,hfile ▸ hold⟩⟩
      · rename_i hnew
        refine ⟨hbus,⟨finished,hcopying⟩,Option.not_isSome_iff_eq_none.mp hnew,?_⟩
        rw [hfile] at hnew
        exact Option.not_isSome_iff_eq_none.mp hnew

theorem Course.step (h : Course s bus archive ph)
    (hnext : (sweeperStep (s.disk.env clock (.running ph memo)) s.cfg bus archive ph).next = some ph') :
    Course s (sweeperStep (s.disk.env clock (.running ph memo)) s.cfg bus archive ph).bus
      (sweeperStep (s.disk.env clock (.running ph memo)) s.cfg bus archive ph).archive ph' := by
  cases hw : ph.writing with
  | some w => exact course_write h hw hnext
  | none =>
    generalize henv : s.disk.env clock (.running ph memo) = env at *
    have hquiet := fun hseals => (sweeperStep_buckets env s.cfg bus archive ph).quiet hw hseals
    have hbus := sweeperStep_bus env s.cfg bus archive ph
    cases ph with
    | openBucket v | createEvents v | createMeta v | setCreatedAt v | setMinEventId v | setMaxEventId v
    | insertBatch v | readRange v | writeRange v lo hi => cases hw
    | collectCursors =>
      obtain ⟨rfl,rfl,-⟩ := h
      cases hnext
      exact ⟨rfl,rfl,rfl⟩
    | collectOwed cursors owed =>
      obtain ⟨rfl,rfl,htrack⟩ := h
      cases cursors <;> cases hnext <;> exact ⟨rfl,rfl,htrack⟩
    | collectAttempts owed =>
      obtain ⟨rfl,rfl,htrack⟩ := h
      cases hnext
      exact ⟨rfl,rfl,htrack⟩
    | discardOwed ids => exact course_discard h hnext
    | deleteLive moved => cases hnext
    | readPairs owed =>
      rw [hquiet rfl,hbus.resolve_right (by simp)]
      exact course_pairs h hnext
    | selectCandidates held =>
      rw [hquiet rfl,hbus.resolve_right (by simp)]
      exact course_select h hnext
    | groupEvents g =>
      rw [hquiet rfl,hbus.resolve_right (by simp)]
      exact course_group h hnext
    | readMeta g latest =>
      rw [hquiet rfl,hbus.resolve_right (by simp)]
      exact course_meta h hnext
    | statBucket g latest =>
      rw [hquiet rfl,hbus.resolve_right (by simp)]
      exact course_stat h (henv ▸ hnext)
    | sealLatest g latest =>
      rw [hbus.resolve_right (by simp)]
      exact course_seal h (by rw [← henv]; rfl) hnext
    | writeGroups groups moved =>
      rw [hquiet rfl,hbus.resolve_right (by simp)]
      refine course_groups h (fun p hp => ?_) hnext
      rcases groups with _ | ⟨⟨name,events⟩,rest⟩ <;> cases hp
      rw [← henv]
      rfl

end Course

def SweepStart.unlocked (s : SweepStart) (e : EventRow) : Bool :=
  (s.target e).any (fun name => !s.disk.locked name)

def SweepStart.movedRows (s : SweepStart) : List EventRow := s.batch.filter s.unlocked

structure Archived (s : SweepStart) (bus : Db) (archive : Archive) (r : TieredResult) : Prop where
  completes : s.Completes
  count : r.eventsMoved = s.movedRows.length
  live : bus = s.live.deleteEvents (fun e => decide (e.eventId ∈ s.movedRows.map EventRow.eventId))
  stored : ∀ e ∈ s.movedRows, ∃ name ∈ s.target e, ∃ x, Holds archive name x ∧ x.eventId = e.eventId ∧
    (x = e ∨ Holds s.archive name x)
  tables : ∀ n, tablesOf archive n = tablesOf s.archive n ∨ tablesOf archive n = some (true,true)
  keep : ∀ n e, Holds s.archive n e → Holds archive n e
  gain : ∀ n e, Holds archive n e → Holds s.archive n e ∨ (e ∈ s.movedRows ∧ s.target e = some n)

def SweepStart.Ended (s : SweepStart) (bus : Db) (archive : Archive) : PassEnd → Prop
  | .returned r => Archived s bus archive r
  | .threw => ¬ s.Completes ∧ bus = s.live

def SweepStart.Follows (s : SweepStart) (t : Pass) : Prop :=
  match t.point with
  | .running ph _ => Course s t.bus t.archive ph
  | .ended result => s.Ended t.bus t.archive result

section Ended

variable {s : SweepStart} {bus : Db} {archive : Archive} {all : List (Text × List EventRow)} {moved : List ℤ}

theorem deleteEvents_none {db : Db} {p : EventRow → Bool} (h : ∀ e ∈ db.events, p e = false) :
    db.deleteEvents p = db := by
  have hrows : db.events.filter (fun e => !p e) = db.events := by
    rw [KeyedTable.filter]
    congr
    exact List.filter_eq_self.mpr fun e he => by rw [h e he]; rfl
  obtain ⟨events,_,_,_,_,_,_,_,_,_⟩ := db
  simp only [Db.deleteEvents] at hrows ⊢
  congr

theorem rows_copies (h : ∀ p ∈ all, ∀ e ∈ p.2, s.target e = some p.1) :
    rowsOf (s.copies all) = (rowsOf all).filter s.unlocked := by
  induction all with
  | nil => rfl
  | cons p all ih =>
    obtain ⟨hp,hall⟩ := List.forall_mem_cons.mp h
    have hunlocked : ∀ e ∈ p.2, s.unlocked e = !s.disk.locked p.1 := fun e he => by
      rw [SweepStart.unlocked,hp e he,Option.any_some]
    have hrows : rowsOf (p :: all) = p.2 ++ rowsOf all := rfl
    rw [hrows,List.filter_append,← ih hall,SweepStart.copies,List.filter_cons]
    cases hl : s.disk.locked p.1 with
    | true =>
      have hnone : p.2.filter s.unlocked = [] :=
        List.filter_eq_nil_iff.mpr fun e he => by rw [hunlocked e he,hl]; decide
      rw [hnone]
      rfl
    | false =>
      have hall : p.2.filter s.unlocked = p.2 :=
        List.filter_eq_self.mpr fun e he => by rw [hunlocked e he,hl]; rfl
      rw [hall]
      rfl

theorem GroupPlan.moved_perm (h : GroupPlan s all) : (rowsOf (s.copies all)).Perm s.movedRows := by
  rw [rows_copies fun p hp => (h.targets p hp).2]
  exact h.rows.filter s.unlocked

theorem mem_batch {e : EventRow} (h : e ∈ s.batch) : e ∈ s.live.events ∧ e.eventId ∉ owedNow s.bus s.cfg := by
  refine ⟨(mem_candidates h).1,?_⟩
  have hfilter := List.mem_of_mem_take h
  exact of_decide_eq_true (List.mem_filter.mp hfilter).2

theorem GroupPlan.mem_batch {e : EventRow} {p : Text × List EventRow} (h : GroupPlan s all) (hp : p ∈ all)
    (he : e ∈ p.2) : e ∈ s.batch :=
  h.rows.mem_iff.mp (List.mem_flatMap.mpr ⟨p,hp,he⟩)

theorem deletable_all (h : ∀ i ∈ moved, i ∉ owedNow s.bus s.cfg) :
    deletableIds s.live moved (retainOwed s.cfg) = moved := by
  unfold retainOwed
  split_ifs with hpolicy
  · have hlive : s.live = s.bus := s.live_eq_bus (if_neg (by rw [hpolicy]; decide))
    refine List.filter_eq_self.mpr fun i hi => decide_eq_true fun howed => h i hi ?_
    rw [hlive] at howed
    obtain ⟨p,hp,rfl⟩ := List.mem_map.mp howed
    obtain ⟨hp,hcap⟩ := List.mem_filter.mp hp
    rw [owedNow,heldIds,if_pos hpolicy,idsOf,List.mem_eraseDups]
    refine List.mem_map_of_mem (List.mem_filter.mpr ⟨hp,?_⟩)
    exact (Bool.and_eq_true _ _ ▸ hcap).2
  · rfl

theorem ended_moved {memo : PassMemo} {pairs : List OwedPair} (h : Underway s all [] moved archive)
    (hbus : bus = s.live.deleteEvents (fun e => decide (e.eventId ∈ moved))) :
    Archived s bus archive (passResult s.cfg memo moved pairs) := by
  have hplan : GroupPlan s all := by simpa using h.plan
  have hperm := hplan.moved_perm
  have hmoved : moved.Perm (s.movedRows.map EventRow.eventId) := by
    rw [h.moved]
    exact hperm.map _
  refine ⟨fun e he => ?_,?_,?_,fun e he => ?_,fun n => ?_,h.files.keep,fun n e he => ?_⟩
  · obtain ⟨p,hp,hep⟩ := List.mem_flatMap.mp (hplan.rows.mem_iff.mpr he)
    exact ⟨p.1,(hplan.targets p hp).2 e hep,h.files.writable p hp⟩
  · exact hmoved.length_eq.trans (List.length_map _)
  · rw [hbus]
    congr
    funext e
    exact decide_eq_decide.mpr hmoved.mem_iff
  · obtain ⟨p,hp,hep⟩ := List.mem_flatMap.mp (hperm.mem_iff.mpr he)
    obtain ⟨hall,-⟩ := s.mem_copies.mp hp
    obtain ⟨x,hx,hid⟩ := h.files.stored p hp e hep
    refine ⟨p.1,(hplan.targets p hall).2 e hep,x,hx,hid,?_⟩
    rcases h.files.gain p.1 x hx with hold | ⟨q,hq,-,hxq⟩
    · exact .inr hold
    · have hx' := (mem_batch (hplan.mem_batch (s.mem_copies.mp hq).1 hxq)).1
      exact .inl (KeyedTable.eq_of_key hx' (mem_batch (hplan.mem_batch hall hep)).1 hid)
  · by_cases hn : n ∈ (s.copies all).map Prod.fst
    · obtain ⟨p,hp,rfl⟩ := List.mem_map.mp hn
      exact .inr (h.files.ready p hp)
    · exact .inl (h.files.tables n hn)
  · rcases h.files.gain n e he with hold | ⟨p,hp,rfl,hep⟩
    · exact .inl hold
    · exact .inr ⟨hperm.mem_iff.mp (List.mem_flatMap.mpr ⟨p,hp,hep⟩),
        (hplan.targets p (s.mem_copies.mp hp).1).2 e hep⟩

theorem ended_select {env : StepEnv} {memo : PassMemo} {held : List ℤ}
    (h : Course s bus archive (.selectCandidates held))
    (hnext : (sweeperStep env s.cfg bus archive (.selectCandidates held)).next = none) :
    s.Ended bus archive (passEnd memo s.cfg bus (.selectCandidates held)) := by
  obtain ⟨rfl,rfl,rfl⟩ := h
  have hnone : s.batch = [] := by
    simp only [sweeperStep] at hnext
    split at hnext
    · assumption
    · cases hnext
  have hplan : GroupPlan s [] := ⟨by rintro _ ⟨⟩,.nil,by rw [hnone]; exact .refl _⟩
  refine ended_moved ⟨hplan,rfl,.begin (fun _ => rfl) (fun _ _ => Iff.rfl)⟩ (deleteEvents_none fun e _ => ?_).symm
  exact decide_eq_false (List.not_mem_nil)

theorem ended_seal {env : StepEnv} {memo : PassMemo} {g : Grouping} {latest : Text}
    (h : Course s bus archive (.sealLatest g latest))
    (hnext : (sweeperStep env s.cfg bus archive (.sealLatest g latest)).next = none) (archive' : Archive) :
    s.Ended bus archive' (passEnd memo s.cfg bus (.sealLatest g latest)) := by
  obtain ⟨hbus,⟨done,hg⟩,hpick,hneeds⟩ := h
  obtain ⟨ev,rest,htodo⟩ := List.exists_cons_of_ne_nil hpick.todo
  refine ⟨fun hcompletes => ?_,hbus⟩
  obtain ⟨name,hname,-⟩ := hcompletes ev (by rw [hg.split,htodo]; simp)
  have hchosen := (s.chosen_next hpick.latest hneeds).1
  rw [Grouping.month_cons htodo,show s.chosenBucket (monthKey ev.emittedAt) = some name from hname,
    ← Grouping.month_cons htodo] at hchosen
  simp only [sweeperStep] at hnext
  split at hnext
  · rename_i hnone
    cases hnone.symm.trans hchosen.symm
  · cases hnext

theorem ended_write {env : StepEnv} {memo : PassMemo} {ph : Phase} {w : Writing} (h : Course s bus archive ph)
    (hw : ph.writing = some w) (hnext : (sweeperStep env s.cfg bus archive ph).next = none)
    (archive' : Archive) : s.Ended bus archive' (passEnd memo s.cfg bus ph) := by
  obtain ⟨hbus,⟨finished,hcopying⟩,hstage⟩ := h.copying hw
  have hfails := stage_fails hw hstage (GroupPlan.events_ne hcopying) hnext
  have hthrew : passEnd memo s.cfg bus ph = .threw := by
    cases ph with
    | openBucket v | createEvents v | createMeta v | setCreatedAt v | setMinEventId v | setMaxEventId v
    | insertBatch v | readRange v | writeRange v lo hi => rfl
    | _ => cases hw
  rw [hthrew]
  refine ⟨fun hcompletes => hfails ?_,hbus⟩
  obtain ⟨e,he⟩ := List.exists_mem_of_ne_nil w.events (GroupPlan.events_ne hcopying)
  have hgroup : (w.bucketName,w.events) ∈ finished ++ (w.bucketName,w.events) :: w.rest := by simp
  obtain ⟨name,hname,hwritable⟩ := hcompletes e (hcopying.plan.mem_batch hgroup he)
  cases hname.symm.trans ((hcopying.plan.targets _ hgroup).2 e he)
  exact hwritable.resolve_left (by rw [hcopying.unlocked]; decide)

theorem Course.ended {env : StepEnv} {memo : PassMemo} {ph : Phase} (h : Course s bus archive ph)
    (hnext : (sweeperStep env s.cfg bus archive ph).next = none) :
    s.Ended (sweeperStep env s.cfg bus archive ph).bus (sweeperStep env s.cfg bus archive ph).archive
      (passEnd memo s.cfg bus ph) := by
  cases hw : ph.writing with
  | some w =>
    rw [bus_of_writing hw]
    exact ended_write h hw hnext _
  | none =>
    have hquiet := fun hseals => (sweeperStep_buckets env s.cfg bus archive ph).quiet hw hseals
    have hbus := sweeperStep_bus env s.cfg bus archive ph
    cases ph with
    | openBucket v | createEvents v | createMeta v | setCreatedAt v | setMinEventId v | setMaxEventId v
    | insertBatch v | readRange v | writeRange v lo hi => cases hw
    | collectCursors | collectAttempts owed | discardOwed ids => cases hnext
    | collectOwed cursors owed => cases cursors <;> cases hnext
    | readPairs owed | readMeta g latest | statBucket g latest =>
      simp only [sweeperStep] at hnext
      split at hnext <;> cases hnext
    | groupEvents g =>
      simp only [sweeperStep] at hnext
      (repeat' split at hnext) <;> cases hnext
    | selectCandidates held =>
      rw [hquiet rfl,hbus.resolve_right (by simp)]
      exact ended_select h hnext
    | sealLatest g latest =>
      rw [hbus.resolve_right (by simp)]
      exact ended_seal h hnext _
    | writeGroups groups moved =>
      rw [hquiet rfl,hbus.resolve_right (by simp)]
      obtain ⟨rfl,all,hunderway⟩ := h
      rcases groups with _ | ⟨⟨name,events⟩,rest⟩ <;> simp only [sweeperStep] at hnext <;>
        (repeat' split at hnext) <;> cases hnext
      rename_i hnil
      subst hnil
      refine ended_moved hunderway (deleteEvents_none fun e _ => ?_).symm
      exact decide_eq_false (List.not_mem_nil)
    | deleteLive moved =>
      obtain ⟨rfl,-,all,hunderway⟩ := h
      refine ended_moved hunderway ?_
      have hheld : ∀ i ∈ moved, i ∉ owedNow s.bus s.cfg := by
        intro i hi
        rw [hunderway.moved] at hi
        obtain ⟨e,he,rfl⟩ := List.mem_map.mp hi
        obtain ⟨p,hp,hep⟩ := List.mem_flatMap.mp he
        exact (mem_batch (hunderway.plan.mem_batch (List.mem_append_left _ (s.mem_copies.mp hp).1) hep)).2
      rw [sweeperStep,deleteFromLive,deletable_all hheld]

theorem SweepStart.follows_step {clock : ℤ} {t : Pass} (h : s.Follows t) :
    s.Follows (t.step s.cfg (s.disk.env clock t.point)) := by
  obtain ⟨point,bus,archive⟩ := t
  cases point with
  | ended result => exact h
  | running ph memo =>
    cases hnext : (sweeperStep (s.disk.env clock (.running ph memo)) s.cfg bus archive ph).next with
    | none =>
      simp only [Follows,Pass.step,PassPoint.next,hnext]
      exact Course.ended h hnext
    | some next =>
      simp only [Follows,Pass.step,PassPoint.next,hnext]
      exact Course.step h hnext

theorem SweepStart.follows (s : SweepStart) (clock : ℕ → ℤ) (n : ℕ) : s.Follows (s.pass clock n) := by
  induction n with
  | zero => exact ⟨rfl,rfl,trivial⟩
  | succ n ih => exact follows_step ih

theorem SweepStart.pass_ends (s : SweepStart) (clock : ℕ → ℤ) :
    ∃ n result, (s.pass clock n).point = .ended result := by
  obtain ⟨n,result,hend⟩ := Pass.ends s.cfg ⟨.begin,s.bus,s.archive⟩
    (fun i => s.disk.env (clock i) (s.pass clock i).point)
  exact ⟨n,result,by rw [s.pass_eq,hend]⟩

end Ended

end WickedBus
