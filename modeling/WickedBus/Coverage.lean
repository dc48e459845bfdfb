import WickedBus.Durability

namespace WickedBus

open GuardedRun
open WickedBus.Filter (Text)

def Encloses (archive : Archive) (name : Text) (lo hi : Option ℤ) : Prop :=
  ∀ e, Holds archive name e → (∀ i ∈ lo, i ≤ e.eventId) ∧ ∀ i ∈ hi, e.eventId ≤ i

def RangeOk (archive : Archive) : Phase → Prop
  | .setMinEventId wr => Encloses archive wr.bucketName (wr.events.head?.map EventRow.eventId) none
  | .setMaxEventId wr => Encloses archive wr.bucketName none (wr.events.getLast?.map EventRow.eventId)
  | .writeRange wr lo hi => Encloses archive wr.bucketName (some lo) (some hi)
  | _ => True

def CreateOk (archive : Archive) : Phase → Prop
  | .setMinEventId wr => Encloses archive wr.bucketName (wr.events.head?.map EventRow.eventId) none
  | .setMaxEventId wr => Encloses archive wr.bucketName none (wr.events.getLast?.map EventRow.eventId)
  | _ => True

def InsertOk (w : World) : Phase → Prop
  | .insertBatch wr => ∀ q t, w.sweepers q = some t → ∀ wr' lo hi, t.phase = .writeRange wr' lo hi →
      wr'.bucketName = wr.bucketName → ∀ e ∈ wr.events, lo ≤ e.eventId ∧ e.eventId ≤ hi
  | _ => True

def DiscardOk (w : World) : Phase → Prop
  | .discardOwed ids => ∀ i ∈ ids, (∀ name e, Holds w.archive name e → e.eventId ≠ i) ∧
      ∀ p s, w.sweepers p = some s → ∀ e ∈ s.phase.held, e.eventId ≠ i
  | _ => True

def CoverageOk (w : World) : Action → Prop
  | .bus op => YearsOk w (.bus op) ∧ op.isSweep = false
  | .sweep p _ => ∀ s ∈ w.sweepers p,
      CreateOk w.archive s.phase ∧ InsertOk w s.phase ∧ DiscardOk w s.phase
  | _ => True

def Covers (b : BucketFile) (i : ℤ) : Prop :=
  (∃ e ∈ b.rows, e.eventId = i) ∧ ∃ m ∈ b.bucketMeta, ∃ lo ∈ m.minEventId, ∃ hi ∈ m.maxEventId,
    lo ≤ i ∧ i ≤ hi

def Covered (archive : Archive) (i : ℤ) : Prop :=
  ∃ b ∈ archive, bucketFileRe b.name = true ∧ Covers b i

def Dropped (w : World) (i : ℤ) : Prop :=
  (∀ name e, Holds w.archive name e → e.eventId ≠ i) ∧
    ∀ p s, w.sweepers p = some s → ∀ e ∈ s.phase.held, e.eventId ≠ i

structure Coverage (w : World) : Prop where
  custody : Custody w
  bound : w.bus.eventSeq ≤ maxSafeInteger
  range : ∀ p s, w.sweepers p = some s → ∀ wr lo hi, s.phase = .writeRange wr lo hi →
    Encloses w.archive wr.bucketName (some lo) (some hi)
  moved : ∀ p s, w.sweepers p = some s → ∀ i ∈ s.phase.moved, Covered w.archive i
  settled : ∀ x ∈ w.logged, x ∈ w.bus.live ∨ Covered w.archive x.eventId ∨ Dropped w x.eventId

section Covered

variable {archive archive' : Archive} {name : Text} {i : ℤ}

theorem Covered.edit {f : Option EventTable → Option EventTable}
    {g : Option BucketMeta → Option BucketMeta} (h : Covered archive i)
    (hedit : ∀ b ∈ archive, b.name = name → Covers b i →
      Covers { b with events := f b.events, bucketMeta := g b.bucketMeta } i) :
    Covered (editBucket archive name f g) i := by
  obtain ⟨b,hb,hre,hc⟩ := h
  refine ⟨_,mem_editBucket.mpr ⟨b,hb,rfl⟩,?_⟩
  split_ifs with hn
  · exact ⟨hre,hedit b hb hn hc⟩
  · exact ⟨hre,hc⟩

theorem Covered.openFile (h : Covered archive i) : Covered (openFile archive name) i := by
  obtain ⟨b,hb,hre,hc⟩ := h
  exact ⟨b,KeyedTable.mem_insertOrIgnore.mpr (.inl hb),hre,hc⟩

theorem Covered.createEventsTable (h : Covered archive i) :
    Covered (createEventsTable archive name) i :=
  h.edit (fun _ _ _ hc => hc)

theorem Covered.createMetaTable (h : Covered archive i) : Covered (createMetaTable archive name) i := by
  refine h.edit (fun b _ _ hc => ⟨hc.1,?_⟩)
  obtain ⟨m,hm,hrange⟩ := hc.2
  rw [Option.mem_def] at hm
  exact ⟨m,by simp [hm],hrange⟩

theorem Covered.setMeta {f : BucketMeta → BucketMeta} (h : Covered archive i)
    (hset : setMeta archive name f = some archive')
    (hf : ∀ b ∈ archive, b.name = name → (∃ e ∈ b.rows, e.eventId = i) → ∀ m,
      (∃ lo ∈ m.minEventId, ∃ hi ∈ m.maxEventId, lo ≤ i ∧ i ≤ hi) →
      ∃ lo ∈ (f m).minEventId, ∃ hi ∈ (f m).maxEventId, lo ≤ i ∧ i ≤ hi) : Covered archive' i := by
  rw [(setMeta_some hset).2]
  refine h.edit (fun b hb hn hc => ⟨hc.1,?_⟩)
  obtain ⟨m,hm,hrange⟩ := hc.2
  rw [Option.mem_def] at hm
  exact ⟨f m,by simp [hm],hf b hb hn hc.1 m hrange⟩

theorem Covered.insertRows {rows : List EventRow} (h : Covered archive i)
    (hins : insertRows archive name rows = some archive') : Covered archive' i := by
  obtain ⟨⟨c,hc,hcn,hev⟩,rfl⟩ := insertRows_some hins
  refine h.edit (fun b hb hn hcov => ⟨?_,hcov.2⟩)
  obtain rfl := KeyedTable.eq_of_key hb hc (hn.trans hcn.symm)
  obtain ⟨e,he,hid⟩ := hcov.1
  exact ⟨e,by rw [rows_insertAll hev]; exact KeyedTable.mem_insertAll_of_mem _ he,hid⟩

theorem Encloses.apply {lo hi : Option ℤ} (h : Encloses archive name lo hi) {b : BucketFile}
    (hb : b ∈ archive) (hn : b.name = name) (he : ∃ e ∈ b.rows, e.eventId = i) :
    (∀ j ∈ lo, j ≤ i) ∧ ∀ j ∈ hi, i ≤ j := by
  obtain ⟨e,he,rfl⟩ := he
  exact h e ⟨b,hb,hn,he⟩

theorem sweeperStep_covered (env : StepEnv) (cfg : PassConfig) (db : Db) {ph : Phase}
    (hok : RangeOk archive ph) (h : Covered archive i) :
    Covered (sweeperStep env cfg db archive ph).archive i := by
  cases ph with
  | insertBatch wr =>
    simp only [sweeperStep]
    split
    · exact h
    · rename_i hins
      exact h.insertRows hins
  | sealLatest g latest =>
    have hseal : Covered (trySeal env archive latest) i := by
      rcases trySeal_cases env archive latest with ⟨hsame,-⟩ | ⟨-,hsealed⟩
      · rwa [hsame]
      · exact h.setMeta hsealed (fun _ _ _ _ m hm => by simpa using hm)
    simp only [sweeperStep]
    split <;> exact hseal
  | openBucket wr => exact h.openFile
  | createEvents wr => exact h.createEventsTable
  | createMeta wr => exact h.createMetaTable
  | setCreatedAt wr =>
    simp only [sweeperStep]
    split
    · exact h
    · rename_i hset
      exact h.setMeta hset (fun _ _ _ _ m hm => hm)
  | setMinEventId wr =>
    simp only [sweeperStep]
    split
    · exact h
    · rename_i hset
      refine h.setMeta hset ?_
      rintro b hb hn he m ⟨lo,hlo,hi,hhi,hle,hge⟩
      cases hhead : wr.events.head?.map EventRow.eventId with
      | none => exact ⟨lo,by simpa using hlo,hi,hhi,hle,hge⟩
      | some j => exact ⟨j,by simp,hi,hhi,(hok.apply hb hn he).1 j (by simp [hhead]),hge⟩
  | setMaxEventId wr =>
    simp only [sweeperStep]
    split
    · exact h
    · rename_i hset
      refine h.setMeta hset ?_
      rintro b hb hn he m ⟨lo,hlo,hi,hhi,hle,hge⟩
      cases hlast : wr.events.getLast?.map EventRow.eventId with
      | none => exact ⟨lo,hlo,hi,by simpa using hhi,hle,hge⟩
      | some j => exact ⟨lo,hlo,j,by simp,hle,(hok.apply hb hn he).2 j (by simp [hlast])⟩
  | writeRange wr lo hi =>
    simp only [sweeperStep]
    split
    · exact h
    · rename_i hset
      refine h.setMeta hset (fun b hb hn he m _ => ?_)
      have henc := hok.apply hb hn he
      exact ⟨lo,rfl,hi,rfl,henc.1 lo rfl,henc.2 hi rfl⟩
  | collectOwed cursors owed => cases cursors <;> exact h
  | writeGroups groups moved =>
    rcases groups with _ | ⟨⟨name,events⟩,rest⟩ <;> simp only [sweeperStep] <;> split_ifs <;> exact h
  | _ => simp only [sweeperStep]; try (repeat' split) <;> exact h

end Covered

section Coverage

variable {w w' : World}

theorem rows_of_holds {archive : Archive} {name : Text} {e : EventRow} (h : Holds archive name e) :
    ∃ b ∈ archive, archive.get? name = some b ∧ e ∈ b.rows := by
  obtain ⟨b,hb,hn,he⟩ := h
  exact ⟨b,hb,KeyedTable.get?_eq_some.mpr ⟨hb,hn⟩,he⟩

theorem sweeperStep_moved_covered {env : StepEnv} {cfg : PassConfig} {db : Db} {archive : Archive}
    {ph ph' : Phase} (h : (sweeperStep env cfg db archive ph).next = some ph')
    (hcopied : ∀ wr, ph.copying = some wr →
      ∀ e ∈ wr.events, ∃ x, Holds archive wr.bucketName x ∧ x.eventId = e.eventId)
    (htarget : ∀ n ∈ ph.targets, bucketFileRe n = true) (hok : RangeOk archive ph) :
    ∀ i ∈ ph'.moved, i ∈ ph.moved ∨ Covered (sweeperStep env cfg db archive ph).archive i := by
  intro i hi
  cases ph with
  | readRange wr =>
    have hempty : ∀ e ∈ wr.events, ∀ b, archive.get? wr.bucketName = some b →
        b.rows.minKey? ≠ none ∧ b.rows.maxKey? ≠ none := by
      intro e he b hb
      obtain ⟨x,hx,-⟩ := hcopied wr rfl e he
      obtain ⟨c,-,hc,hxc⟩ := rows_of_holds hx
      obtain rfl : b = c := Option.some.inj (hb.symm.trans hc)
      exact ⟨fun hmin => KeyedTable.minKey?_eq_none.mp hmin x hxc,
        fun hmax => KeyedTable.maxKey?_eq_none.mp hmax x hxc⟩
    left
    simp only [sweeperStep] at h
    split at h
    · cases h
    · rename_i rows hrows
      obtain ⟨b,hb,rfl⟩ := Option.map_eq_some_iff.mp hrows
      split at h <;> cases h
      · exact hi
      · rename_i hno
        rcases List.mem_append.mp hi with hi | hi
        · exact hi
        · obtain ⟨e,he,rfl⟩ := List.mem_map.mp hi
          obtain ⟨hmin,hmax⟩ := hempty e he b hb
          obtain ⟨lo,hlo⟩ := Option.ne_none_iff_exists'.mp hmin
          obtain ⟨hi',hhi⟩ := Option.ne_none_iff_exists'.mp hmax
          exact absurd hhi (hno lo hi' hlo)
  | writeRange wr lo hi' =>
    simp only [sweeperStep] at h ⊢
    split at h <;> cases h
    rename_i archive' hset
    rcases List.mem_append.mp hi with hi | hi
    · exact .inl hi
    · obtain ⟨e,he,rfl⟩ := List.mem_map.mp hi
      obtain ⟨x,⟨b,hb,hn,hx⟩,hid⟩ := hcopied wr rfl e he
      obtain ⟨hmeta,heq⟩ := setMeta_some hset
      have henc := hok.apply hb hn ⟨x,hx,hid⟩
      obtain ⟨m,hm⟩ : ∃ m, b.bucketMeta = some m := by
        obtain ⟨m,hm⟩ := Option.isSome_iff_exists.mp hmeta
        obtain ⟨c,hc,hcm⟩ := Option.bind_eq_some_iff.mp hm
        rw [KeyedTable.get?_eq_some.mpr ⟨hb,hn⟩] at hc
        exact ⟨m,by rw [Option.some.inj hc,hcm]⟩
      right
      show Covered archive' e.eventId
      rw [heq]
      refine ⟨_,mem_editBucket.mpr ⟨b,hb,rfl⟩,?_⟩
      rw [if_pos hn]
      refine ⟨by simpa [hn] using htarget wr.bucketName List.mem_cons_self,⟨x,hx,hid⟩,?_⟩
      exact ⟨{ m with minEventId := some lo, maxEventId := some hi' },by simp [hm],lo,rfl,hi',rfl,
        henc.1 lo rfl,henc.2 hi' rfl⟩
  | _ =>
    rcases sweeperStep_moved h i hi with hi | ⟨wr,hwr,-⟩
    · exact .inl hi
    · cases hwr

theorem Encloses.step {archive : Archive} {ph : Phase} {name : Text} {lo hi : ℤ}
    (h : Encloses archive name (some lo) (some hi)) (env : StepEnv) (cfg : PassConfig) (db : Db)
    (hins : ∀ wr, ph = .insertBatch wr → name = wr.bucketName →
      ∀ e ∈ wr.events, lo ≤ e.eventId ∧ e.eventId ≤ hi) :
    Encloses (sweeperStep env cfg db archive ph).archive name (some lo) (some hi) := by
  intro e he
  rcases sweeperStep_archive env cfg db archive ph with hsame | ⟨wr,hph,hrows⟩
  · exact h e ((hsame name e).mp he)
  · rcases holds_of_insertRows hrows he with he | ⟨hn,he⟩
    · exact h e he
    · obtain ⟨hle,hge⟩ := hins wr hph hn e he
      exact ⟨by rintro _ ⟨⟩; exact hle,by rintro _ ⟨⟩; exact hge⟩

theorem sweeperStep_writeRange {env : StepEnv} {cfg : PassConfig} {db : Db} {archive : Archive}
    {ph ph' : Phase} {wr : Writing} {lo hi : ℤ}
    (h : (sweeperStep env cfg db archive ph).next = some ph') (hph : ph' = .writeRange wr lo hi) :
    Encloses (sweeperStep env cfg db archive ph).archive wr.bucketName (some lo) (some hi) := by
  subst hph
  cases ph with
  | readRange v =>
    have hsame : (WickedBus.sweeperStep env cfg db archive (.readRange v)).archive = archive := by
      simp only [WickedBus.sweeperStep]
      (repeat' split) <;> rfl
    rw [hsame]
    simp only [WickedBus.sweeperStep] at h
    split at h
    · cases h
    · rename_i rows hrows
      split at h <;> cases h
      rename_i hmin hmax
      obtain ⟨b,hb,rfl⟩ := Option.map_eq_some_iff.mp hrows
      obtain ⟨hbm,hbn⟩ := KeyedTable.get?_eq_some.mp hb
      rintro e ⟨c,hc,hcn,he⟩
      obtain rfl := KeyedTable.eq_of_key hbm hc (hbn.trans hcn.symm)
      exact ⟨by rintro _ ⟨⟩; exact (KeyedTable.minKey?_eq_some.mp hmin).2 e he,
        by rintro _ ⟨⟩; exact (KeyedTable.maxKey?_eq_some.mp hmax).2 e he⟩
  | collectOwed cursors owed => cases cursors <;> cases h
  | writeGroups groups moved =>
    rcases groups with _ | ⟨⟨name,events⟩,rest⟩ <;> simp only [WickedBus.sweeperStep] at h <;>
      (repeat' split at h) <;> cases h
  | collectCursors | collectAttempts _ | discardOwed _ | deleteLive _ | openBucket _
  | createEvents _ | createMeta _ => cases h
  | _ =>
    simp only [WickedBus.sweeperStep] at h
    (repeat' split at h) <;> cases h

theorem Dropped.step (h : Provenance w) {x : EventRow} (hx : x ∈ w.logged) (hdead : x ∉ w.bus.live)
    (hdrop : Dropped w x.eventId) {p : ℕ} {s : Sweeper} (hs : w.sweepers p = some s) (env : StepEnv) :
    Dropped ⟨(sweeperStep env s.cfg w.bus w.archive s.phase).bus,
      (sweeperStep env s.cfg w.bus w.archive s.phase).archive,
      Function.update w.sweepers p ((sweeperStep env s.cfg w.bus w.archive s.phase).next.map
        (Sweeper.mk s.cfg)),w.log⟩ x.eventId := by
  have hfix : x.fixedPart = x := by
    obtain ⟨r,-,rfl⟩ := hx
    rfl
  refine ⟨fun name e he hid => ?_,fun q t ht e he hid => ?_⟩
  · rcases sweeperStep_archive env s.cfg w.bus w.archive s.phase with hsame | ⟨wr,hph,hins⟩
    · exact hdrop.1 name e ((hsame name e).mp he) hid
    · rcases holds_of_insertRows hins he with he | ⟨-,he⟩
      · exact hdrop.1 name e he hid
      · exact hdrop.2 p s hs e (by rw [hph]; exact List.mem_append_left _ he) hid
  · rcases update_eq_some ht with ⟨rfl,hnext⟩ | ⟨-,ht⟩
    · obtain ⟨ph,hph,rfl⟩ := Option.map_eq_some_iff.mp hnext
      rcases sweeperStep_held hph e he with he | ⟨he,-⟩
      · exact hdrop.2 q s hs e he hid
      · have heq := h.logged_unique (h.live (mem_live he)) (hfix.symm ▸ hx) hid
        rw [hfix] at heq
        exact hdead ⟨e,he,heq⟩
    · exact hdrop.2 q t ht e he hid

theorem Coverage.start : Coverage (World.start .empty .empty) where
  custody := .start
  bound := by decide
  range p s h := by cases h
  moved p s h := by cases h
  settled x hx := by
    obtain ⟨r,hr,-⟩ := hx
    cases hr

theorem CoverageOk.years {a : Action} (h : CoverageOk w a) : YearsOk w a := by
  cases a with
  | bus op => exact h.1
  | _ => trivial

theorem Coverage.step_bus (h : Coverage w) {op : BusOp} (hok : CoverageOk w (.bus op))
    (hstep : w.step (.bus op) = some w') : Coverage w' := by
  have hcust := h.custody.step hok.years hstep
  obtain ⟨db,hop,rfl⟩ := Option.map_eq_some_iff.mp hstep
  refine ⟨hcust,?_,h.range,h.moved,fun x hx => ?_⟩
  · cases busEffect hop with
    | emit params uuid live eventSeq bound => exact bound
    | shrink accepted live eventSeq => exact eventSeq ▸ h.bound
  · rcases bus_live hop hok.2 x hx with ⟨hlog,hlive⟩ | hlive
    · exact (h.settled x hlog).imp_left hlive
    · exact .inl hlive

theorem Coverage.rangeOk (h : Coverage w) {p : ℕ} {s : Sweeper} (hs : w.sweepers p = some s)
    (hcreate : CreateOk w.archive s.phase) : RangeOk w.archive s.phase := by
  cases hph : s.phase with
  | writeRange wr lo hi => exact h.range p s hs wr lo hi hph
  | setMinEventId wr | setMaxEventId wr =>
    rw [hph] at hcreate
    exact hcreate
  | _ => trivial

theorem Coverage.step_sweep (h : Coverage w) {p : ℕ} {env : StepEnv} (hok : CoverageOk w (.sweep p env))
    (hstep : w.step (.sweep p env) = some w') : Coverage w' := by
  have hcust := h.custody.step_sweep hstep
  obtain ⟨s,hs,rfl⟩ := World.step_sweep hstep
  obtain ⟨hcreate,hinsert,hdiscard⟩ := hok s hs
  have hrange := h.rangeOk hs hcreate
  have hmono : ∀ i, Covered w.archive i →
      Covered (sweeperStep env s.cfg w.bus w.archive s.phase).archive i :=
    fun i => sweeperStep_covered env s.cfg w.bus hrange
  refine ⟨hcust,(sweeperStep_live env s.cfg w.bus w.archive s.phase).2 ▸ h.bound,?_,?_,?_⟩
  · intro q t ht wr lo hi hph
    rcases update_eq_some ht with ⟨rfl,hnext⟩ | ⟨-,ht⟩
    · obtain ⟨ph,hnext',rfl⟩ := Option.map_eq_some_iff.mp hnext
      exact sweeperStep_writeRange hnext' hph
    · exact (h.range q t ht wr lo hi hph).step env s.cfg w.bus
        (fun wr' hins hn => by rw [hins] at hinsert; exact hinsert q t ht wr lo hi hph hn)
  · intro q t ht i hi
    rcases update_eq_some ht with ⟨rfl,hnext⟩ | ⟨-,ht⟩
    · obtain ⟨ph,hph,rfl⟩ := Option.map_eq_some_iff.mp hnext
      rcases sweeperStep_moved_covered hph (h.custody.copied q s hs) (h.custody.targets q s hs) hrange
        i hi with hi | hcov
      · exact hmono i (h.moved q s hs i hi)
      · exact hcov
    · exact hmono i (h.moved q t ht i hi)
  · intro x hx
    by_cases hlive : x ∈ w.bus.live
    · rcases sweeperStep_bus env s.cfg w.bus w.archive s.phase with hb | ⟨ids,hph,hb⟩ | ⟨mv,hph,hb⟩
      · exact .inl (by rw [hb]; exact hlive)
      · rw [hb,live_deleteFromLive]
        by_cases hdel : x.eventId ∈ ids
        · rw [hph] at hdiscard
          obtain ⟨hbucket,hheld⟩ := hdiscard x.eventId hdel
          refine .inr (.inr ⟨?_,?_⟩)
          · simp only [hph,sweeperStep]
            exact hbucket
          · intro q t ht e he
            rcases update_eq_some ht with ⟨rfl,hnext⟩ | ⟨-,ht⟩
            · rw [hph] at hnext
              cases hnext
              cases he
            · exact hheld q t ht e he
        · exact .inl ⟨hlive,hdel⟩
      · rw [hb,live_deleteFromLive]
        by_cases hdel : x.eventId ∈ deletableIds w.bus mv (retainOwed s.cfg)
        · refine .inr (.inl (hmono _ (h.moved p s hs _ ?_)))
          rw [hph]
          exact deletableIds_subset _ _ _ _ hdel
        · exact .inl ⟨hlive,hdel⟩
    · rcases h.settled x hx with hl | hcov | hdrop
      · exact absurd hl hlive
      · exact .inr (.inl (hmono _ hcov))
      · exact .inr (.inr (hdrop.step h.custody.prov hx hlive hs env))

theorem Coverage.replace (h : Coverage w) (p : ℕ) {next : Option Sweeper}
    (hcust : Custody { w with sweepers := Function.update w.sweepers p next })
    (hnext : ∀ s, next = some s → s.phase = .collectCursors) :
    Coverage { w with sweepers := Function.update w.sweepers p next } := by
  refine ⟨hcust,h.bound,?_,?_,fun x hx => ?_⟩
  · intro q t ht wr lo hi hph
    rcases update_eq_some ht with ⟨-,ht⟩ | ⟨-,ht⟩
    · rw [hnext t ht] at hph
      cases hph
    · exact h.range q t ht wr lo hi hph
  · intro q t ht i hi
    rcases update_eq_some ht with ⟨-,ht⟩ | ⟨-,ht⟩
    · rw [hnext t ht] at hi
      cases hi
    · exact h.moved q t ht i hi
  · refine (h.settled x hx).imp_right (Or.imp_right fun hdrop => ⟨hdrop.1,?_⟩)
    intro q t ht e he
    rcases update_eq_some ht with ⟨-,ht⟩ | ⟨-,ht⟩
    · rw [hnext t ht] at he
      cases he
    · exact hdrop.2 q t ht e he

theorem Coverage.step (h : Coverage w) {a : Action} (hok : CoverageOk w a)
    (hstep : w.step a = some w') : Coverage w' := by
  cases a with
  | bus op => exact h.step_bus hok hstep
  | sweep p env => exact h.step_sweep hok hstep
  | beginSweep p config clock =>
    have hcust := h.custody.step hok.years hstep
    obtain ⟨cfg,-,-,rfl⟩ := World.step_begin hstep
    exact h.replace p hcust (by rintro _ ⟨⟩; rfl)
  | crash p =>
    have hcust := h.custody.step hok.years hstep
    cases hstep
    exact h.replace p hcust (by rintro _ ⟨⟩)

end Coverage

def WarmCovered (w : World) : Prop :=
  ∀ r ∈ w.log, (∀ e ∈ w.bus.events, e.eventId ≠ r.eventId) →
    (∃ name e, Holds w.archive name e ∧ e.eventId = r.eventId) →
      ∃ name e, Holds w.archive name e ∧ e.eventId = r.eventId ∧ ∀ gapStart gapEnd,
        gapStart ≤ r.eventId → r.eventId ≤ gapEnd →
          ∃ c ∈ bucketsCoveringRange w.archive gapStart gapEnd, c.filepath = name

theorem covering_of_covers {archive : Archive} {b : BucketFile} {i gapStart gapEnd : ℤ}
    (hb : b ∈ archive) (hre : bucketFileRe b.name = true) (hcov : Covers b i)
    (hmax : i ≤ maxSafeInteger) (hstart : gapStart ≤ i) (hend : i ≤ gapEnd) :
    ∃ c ∈ bucketsCoveringRange archive gapStart gapEnd, c.filepath = b.name := by
  obtain ⟨-,m,hm,lo,hlo,hi,hhi,hle,hge⟩ := hcov
  rw [Option.mem_def] at hm hlo hhi
  have hmeta : getBucketMeta archive b.name = some m := by
    rw [getBucketMeta,KeyedTable.get?_eq_some.mpr ⟨hb,rfl⟩]
    exact hm
  have heff : i ≤ m.effectiveMax := by
    unfold BucketMeta.effectiveMax
    rw [hhi]
    cases m.sealedAt with
    | none => exact hmax
    | some t => exact hge
  refine ⟨⟨b.name,some (lo,m.effectiveMax),m.sealedAt.isNone⟩,?_,rfl⟩
  refine List.mem_filterMap.mpr ⟨b.name,mem_listBuckets.mpr ⟨⟨b,hb,rfl⟩,hre⟩,?_⟩
  simp only [coveringBucket,hmeta,hlo]
  exact if_pos ⟨hstart.trans heff,hle.trans hend⟩

theorem Coverage.warmCovered {w : World} (h : Coverage w) : WarmCovered w := by
  rintro r hr hgone ⟨name,e,he,hid⟩
  have hlive : r.fixedPart ∉ w.bus.live := by
    rintro ⟨x,hx,hxr⟩
    exact hgone x hx (eventId_of_fixedPart hxr)
  rcases h.settled _ ⟨r,hr,rfl⟩ with hl | ⟨b,hb,hre,hcov⟩ | hdrop
  · exact absurd hl hlive
  · obtain ⟨⟨x,hx,hxid⟩,-⟩ := id hcov
    refine ⟨b.name,x,⟨b,hb,rfl,hx⟩,hxid,fun gapStart gapEnd hs ht => ?_⟩
    exact covering_of_covers hb hre hcov ((h.custody.prov.log_le r hr).trans h.bound) hs ht
  · exact absurd hid (hdrop.1 name e he)

theorem warmCovered_of_exclusive_ranges {w : World} {as : List Action}
    (hrun : Run World.step CoverageOk (World.start .empty .empty) as w) : WarmCovered w :=
  Coverage.warmCovered (hrun.invariant (fun _ _ _ ht hok hs => ht.step hok hs) .start)

def lateSample : NewEvent :=
  { modernSample with idempotencyKey := "k2", expiresAt := 1700000005000 }

def sweepAt (now : ℤ) : SweepConfig := ⟨none,none,false,some now,none,none⟩

def stepsOf (n p : ℕ) : List Action := List.replicate n (.sweep p ⟨1700000003000,some 4096,false,false⟩)

def staleRangeWrite : List Action :=
  [.bus (.emit lateSample "u"),.bus (.emit modernSample "u"),
    .beginSweep 0 (sweepAt 1700000002000) 0] ++ stepsOf 16 0 ++
  [.beginSweep 1 (sweepAt 1700000009000) 0] ++ stepsOf 16 1 ++ stepsOf 1 0

theorem warm_range_lost_update :
    ¬ ∀ as w, Run World.step DurableOk (World.start .empty .empty) as w → WarmCovered w := by
  intro hall
  have hreach : (exec (guarded DurableOk World.step) (.start .empty .empty) staleRangeWrite).any
      (fun w => decide (lateSample.row 1 ∈ w.log) &&
        w.bus.events.rows.all (fun e => decide (e.eventId ≠ 1)) &&
        w.archive.rows.any (fun b => b.rows.rows.any (fun e => decide (e.eventId = 1))) &&
        decide (bucketsCoveringRange w.archive 1 1 = [])) = true := by
    decide +kernel
  obtain ⟨w,hw,hobs⟩ := (Option.any_eq_true _ _).mp hreach
  simp only [Bool.and_eq_true,decide_eq_true_eq,List.all_eq_true,List.any_eq_true] at hobs
  obtain ⟨⟨⟨hlog,hgone⟩,b,hb,e,he,hid⟩,hnone⟩ := hobs
  obtain ⟨_,_,-,-,hcover⟩ := hall _ w (run_of_guarded hw) (lateSample.row 1) hlog
    (fun x hx => hgone x hx) ⟨b.name,e,⟨b,hb,rfl,he⟩,hid⟩
  obtain ⟨c,hc,-⟩ := hcover 1 1 le_rfl le_rfl
  rw [hnone] at hc
  cases hc

def Phase.creating : Phase → Option Writing
  | .openBucket wr | .createEvents wr | .createMeta wr | .setCreatedAt wr | .setMinEventId wr
  | .setMaxEventId wr => some wr
  | _ => none

def SoleOk (w : World) (a : Action) : Prop :=
  DurableOk w a ∧ ∀ p config clock, a = .beginSweep p config clock → p = 0

instance (w : World) (a : Action) : Decidable (SoleOk w a) :=
  match a with
  | .beginSweep p config clock =>
    decidable_of_iff (DurableOk w (.beginSweep p config clock) ∧ p = 0)
      ⟨fun h => ⟨h.1,by rintro _ _ _ ⟨⟩; exact h.2⟩,fun h => ⟨h.1,h.2 p config clock rfl⟩⟩
  | .bus op => decidable_of_iff (DurableOk w (.bus op)) ⟨fun h => ⟨h,by rintro _ _ _ ⟨⟩⟩,And.left⟩
  | .sweep p env => decidable_of_iff (DurableOk w (.sweep p env)) ⟨fun h => ⟨h,by rintro _ _ _ ⟨⟩⟩,And.left⟩
  | .crash p => decidable_of_iff (DurableOk w (.crash p)) ⟨fun h => ⟨h,by rintro _ _ _ ⟨⟩⟩,And.left⟩

structure Sole (w : World) : Prop where
  durability : Durability w
  only : ∀ p s, w.sweepers p = some s → p = 0
  fresh : ∀ p s, w.sweepers p = some s → ∀ wr, s.phase.creating = some wr →
    ∀ e, ¬ Holds w.archive wr.bucketName e

section Sole

variable {w w' : World}

theorem sweeperStep_creating {env : StepEnv} {cfg : PassConfig} {db : Db} {archive : Archive}
    {ph ph' : Phase} {wr : Writing} (h : (sweeperStep env cfg db archive ph).next = some ph')
    (hwr : ph'.creating = some wr) :
    (∀ n e, Holds (sweeperStep env cfg db archive ph).archive n e → Holds archive n e) ∧
      (ph.creating = some wr ∨ archive.get? wr.bucketName = none) := by
  constructor
  · rcases sweeperStep_archive env cfg db archive ph with hsame | ⟨v,rfl,hins⟩
    · exact fun n e => (hsame n e).mp
    · simp only [sweeperStep] at h
      split at h <;> cases h
      cases hwr
  · cases ph with
    | writeGroups groups moved =>
      rcases groups with _ | ⟨⟨name,events⟩,rest⟩ <;> simp only [sweeperStep] at h <;>
        (repeat' split at h) <;> cases h <;> cases hwr
      rename_i hname
      exact .inr (by simpa using hname)
    | openBucket v | createEvents v | createMeta v =>
      cases h
      exact .inl hwr
    | setCreatedAt v | setMinEventId v =>
      simp only [sweeperStep] at h
      split at h <;> cases h
      exact .inl hwr
    | collectOwed cursors owed => cases cursors <;> cases h <;> cases hwr
    | collectCursors | collectAttempts _ | discardOwed _ | deleteLive _ => cases h <;> cases hwr
    | _ =>
      simp only [sweeperStep] at h
      (repeat' split at h) <;> cases h <;> cases hwr

theorem Sole.start : Sole (World.start .empty .empty) where
  durability := .start
  only p s h := by cases h
  fresh p s h := by cases h

theorem Sole.step (h : Sole w) {a : Action} (hok : SoleOk w a) (hstep : w.step a = some w') :
    Sole w' := by
  have hdur := h.durability.step hok.1 hstep
  cases a with
  | bus op =>
    obtain ⟨db,hop,rfl⟩ := Option.map_eq_some_iff.mp hstep
    exact ⟨hdur,h.only,h.fresh⟩
  | beginSweep p config clock =>
    obtain rfl := hok.2 p config clock rfl
    obtain ⟨cfg,-,-,rfl⟩ := World.step_begin hstep
    refine ⟨hdur,fun q t ht => ?_,fun q t ht wr hwr => ?_⟩
    · rcases update_eq_some ht with ⟨hq,-⟩ | ⟨-,ht⟩
      · exact hq
      · exact h.only q t ht
    · rcases update_eq_some ht with ⟨-,ht⟩ | ⟨-,ht⟩
      · cases ht
        cases hwr
      · exact h.fresh q t ht wr hwr
  | crash p =>
    cases hstep
    refine ⟨hdur,fun q t ht => ?_,fun q t ht => ?_⟩
    · rcases update_eq_some ht with ⟨-,ht⟩ | ⟨-,ht⟩
      · cases ht
      · exact h.only q t ht
    · rcases update_eq_some ht with ⟨-,ht⟩ | ⟨-,ht⟩
      · cases ht
      · exact h.fresh q t ht
  | sweep p env =>
    obtain ⟨s,hs,rfl⟩ := World.step_sweep hstep
    have hp : ∀ q t, w.sweepers q = some t → q = p := fun q t ht =>
      (h.only q t ht).trans (h.only p s hs).symm
    refine ⟨hdur,fun q t ht => ?_,fun q t ht wr hwr e he => ?_⟩
    · rcases update_eq_some ht with ⟨rfl,-⟩ | ⟨-,ht⟩
      · exact h.only q s hs
      · exact h.only q t ht
    · rcases update_eq_some ht with ⟨rfl,hnext⟩ | ⟨hq,ht⟩
      · obtain ⟨ph,hph,rfl⟩ := Option.map_eq_some_iff.mp hnext
        obtain ⟨hsame,hcr | hnone⟩ := sweeperStep_creating hph hwr
        · exact h.fresh q s hs wr hcr e (hsame _ e he)
        · obtain ⟨b,hb,hn,-⟩ := hsame _ e he
          rw [KeyedTable.get?_eq_some.mpr ⟨hb,hn⟩] at hnone
          cases hnone
      · exact absurd (hp q t ht) hq

theorem Sole.coverageOk (h : Sole w) {a : Action} (hok : SoleOk w a) : CoverageOk w a := by
  cases a with
  | bus op => exact hok.1
  | beginSweep p config clock => trivial
  | crash p => trivial
  | sweep p env =>
    intro s hs
    have hpolicy := (h.durability.policy p s hs).2
    have hfresh := h.fresh p s hs
    refine ⟨?_,?_,?_⟩
    · cases hph : s.phase with
      | setMinEventId wr | setMaxEventId wr =>
        exact fun e he => absurd he (hfresh wr (by rw [hph]; rfl) e)
      | _ => trivial
    · cases hph : s.phase with
      | insertBatch wr =>
        intro q t ht wr' lo hi ht'
        obtain rfl := (h.only q t ht).trans (h.only p s hs).symm
        rw [Option.some.inj (ht.symm.trans hs),hph] at ht'
        cases ht'
      | _ => trivial
    · cases hph : s.phase with
      | discardOwed ids => exact absurd hph (hpolicy ids)
      | _ => trivial

theorem sole_run {as : List Action} (hrun : Run World.step SoleOk (World.start .empty .empty) as w) :
    Run World.step CoverageOk (World.start .empty .empty) as w :=
  hrun.strengthen (fun _ _ _ (ht : Sole _) hok hs => ht.step hok hs)
    (fun _ _ _ ht hok _ => ht.coverageOk hok) .start

end Sole

def tieredPass : List Action :=
  [.bus (.emit modernSample "u"),.beginSweep 0 modernSweepConfig 0] ++
    List.replicate 19 (.sweep 0 ⟨1700000003000,some 4096,false,false⟩)

theorem warmCovered_after_pass :
    ∃ w : World, modernSample.row 1 ∈ w.log ∧ (∀ e ∈ w.bus.events, e.eventId ≠ 1) ∧
      (∃ name e, Holds w.archive name e ∧ e.eventId = 1) ∧ WarmCovered w := by
  have hreach : (exec (guarded SoleOk World.step) (.start .empty .empty) tieredPass).any
      (fun w => decide (modernSample.row 1 ∈ w.log) &&
        w.bus.events.rows.all (fun e => decide (e.eventId ≠ 1)) &&
        w.archive.rows.any (fun b => b.rows.rows.any (fun e => decide (e.eventId = 1)))) = true := by
    decide +kernel
  obtain ⟨w,hw,hobs⟩ := (Option.any_eq_true _ _).mp hreach
  simp only [Bool.and_eq_true,decide_eq_true_eq,List.all_eq_true,List.any_eq_true] at hobs
  obtain ⟨⟨hlog,hgone⟩,b,hb,e,he,hid⟩ := hobs
  exact ⟨w,hlog,fun x hx => hgone x hx,⟨b.name,e,⟨b,hb,rfl,he⟩,hid⟩,
    warmCovered_of_exclusive_ranges (sole_run (run_of_guarded hw))⟩

end WickedBus
