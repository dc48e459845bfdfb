import WickedBus.Coverage

namespace WickedBus

open GuardedRun
open WickedBus.Filter (Text)

def Phase.pending : Phase → List EventRow
  | .readRange wr | .writeRange wr _ _ => rowsOf wr.rest
  | ph => ph.held

def Phase.copied (ph : Phase) : List ℤ :=
  ph.moved ++ ((ph.copying.map (fun wr => wr.events.map EventRow.eventId)).getD [])

def Phase.ends : Phase → Bool
  | .selectCandidates _ | .writeGroups [] _ | .deleteLive _ => true
  | _ => false

def SerialOk (w : World) : Action → Prop
  | .bus op => DurableOk w (.bus op) ∧ w.sweepers 0 = none
  | .beginSweep p config clock => DurableOk w (.beginSweep p config clock) ∧ p = 0
  | .sweep p env => p = 0 ∧ ∀ s ∈ w.sweepers 0, s.phase.ends = true ∨
      (sweeperStep env s.cfg w.bus w.archive s.phase).next.isSome = true
  | .crash _ => False

instance : ∀ w a, Decidable (SerialOk w a)
  | _, .bus _ => inferInstanceAs (Decidable (_ ∧ _))
  | _, .beginSweep _ _ _ => inferInstanceAs (Decidable (_ ∧ _))
  | w, .sweep _ env => inferInstanceAs (Decidable (_ ∧ ∀ s ∈ w.sweepers 0, s.phase.ends = true ∨
      (sweeperStep env s.cfg w.bus w.archive s.phase).next.isSome = true))
  | _, .crash _ => inferInstanceAs (Decidable False)

theorem SerialOk.sole {w : World} {a : Action} (h : SerialOk w a) : SoleOk w a := by
  cases a with
  | bus op => exact ⟨h.1,by rintro _ _ _ ⟨⟩⟩
  | beginSweep p config clock => exact ⟨h.1,by rintro _ _ _ ⟨⟩; exact h.2⟩
  | sweep p env => exact ⟨trivial,by rintro _ _ _ ⟨⟩⟩
  | crash p => exact h.elim

def owedNow (db : Db) (cfg : PassConfig) : List ℤ :=
  heldIds cfg.policy (owedPairsWithCap db cfg.now cfg.capDays (collectOwedExpired db cfg.now))

def OnTrack (db : Db) (cfg : PassConfig) : Phase → Prop
  | .collectOwed cursors owed =>
    insertOwedAttempts db cfg.now (cursors.foldl (insertOwedOf db cfg.now) owed) =
      collectOwedExpired db cfg.now
  | .collectAttempts owed => insertOwedAttempts db cfg.now owed = collectOwedExpired db cfg.now
  | .readPairs owed => owed = collectOwedExpired db cfg.now
  | .selectCandidates held => held = owedNow db cfg
  | _ => True

section Step

variable {env : StepEnv} {cfg : PassConfig} {db : Db} {archive : Archive} {ph ph' : Phase}

theorem sweeperStep_onTrack (h : (sweeperStep env cfg db archive ph).next = some ph')
    (hdrop : ∀ ids, ph' ≠ .discardOwed ids) (hdiscard : ∀ ids, ph ≠ .discardOwed ids)
    (ht : OnTrack db cfg ph) : OnTrack db cfg ph' := by
  cases ph with
  | collectCursors =>
    cases h
    rfl
  | collectOwed cursors owed => cases cursors <;> cases h <;> exact ht
  | collectAttempts owed =>
    cases h
    exact ht
  | readPairs owed =>
    obtain rfl := ht
    simp only [sweeperStep] at h
    split_ifs at h <;> cases h
    · exact absurd rfl (hdrop _)
    · rfl
  | discardOwed ids => exact absurd rfl (hdiscard ids)
  | deleteLive moved => cases h
  | openBucket _ | createEvents _ | createMeta _ =>
    cases h
    trivial
  | writeGroups groups moved =>
    rcases groups with _ | ⟨⟨name,events⟩,rest⟩ <;> simp only [sweeperStep] at h <;>
      (repeat' split at h) <;> cases h <;> trivial
  | _ =>
    simp only [sweeperStep] at h
    (repeat' split at h) <;> cases h <;> trivial

theorem perm_rowsOf_addToGroup (name : Text) (ev : EventRow) (groups : List (Text × List EventRow)) :
    (rowsOf (addToGroup name ev groups)).Perm (ev :: rowsOf groups) := by
  induction groups with
  | nil => simp [addToGroup,rowsOf]
  | cons g gs ih =>
    obtain ⟨n,evs⟩ := g
    simp only [rowsOf] at ih
    simp only [addToGroup]
    split_ifs
    · simp only [rowsOf,List.flatMap_cons,List.append_assoc,List.singleton_append]
      exact List.perm_middle
    · simp only [rowsOf,List.flatMap_cons]
      exact (ih.append_left evs).trans List.perm_middle

theorem Grouping.perm_place {g : Grouping} {ev : EventRow} {rest : List EventRow} (name : Text)
    (h : g.todo = ev :: rest) : (g.place ev rest name).rows.Perm g.rows := by
  simp only [Grouping.place,Grouping.rows,h,List.cons_append]
  exact ((perm_rowsOf_addToGroup name ev g.groups).append_left rest).trans List.perm_middle

theorem Grouping.perm_assign (g : Grouping) (name : Text) : (g.assign name).rows.Perm g.rows := by
  obtain ⟨todo,cache,groups⟩ := g
  cases todo with
  | nil => exact .refl _
  | cons ev rest =>
    simp only [Grouping.assign,Grouping.rows,List.cons_append]
    exact ((perm_rowsOf_addToGroup name ev groups).append_left rest).trans List.perm_middle

theorem sweeperStep_pending (h : (sweeperStep env cfg db archive ph).next = some ph') :
    (∃ held, ph = .selectCandidates held ∧ ph'.pending = candidates db cfg held ∧ ph'.copied = []) ∨
    (∃ wr, ph = .insertBatch wr ∧ ph' = .readRange wr) ∨
    ((ph'.pending.Perm ph.pending ∨ (env.locked = true ∧ ph'.pending.Subperm ph.pending)) ∧
      ph'.copied = ph.copied) := by
  cases ph with
  | selectCandidates held =>
    simp only [sweeperStep] at h
    split at h
    · cases h
    · rename_i ev rest hc
      cases h
      exact .inl ⟨held,rfl,by simp [Phase.pending,Phase.held,Grouping.rows,rowsOf,hc],rfl⟩
  | insertBatch wr =>
    simp only [sweeperStep] at h
    split at h <;> cases h
    exact .inr (.inl ⟨wr,rfl,rfl⟩)
  | groupEvents g =>
    refine .inr (.inr ?_)
    simp only [sweeperStep] at h
    repeat' split at h
    all_goals cases h
    · rename_i hnil
      exact ⟨.inl (by simp [Phase.pending,Phase.held,Grouping.rows,hnil]),rfl⟩
    · rename_i hg _ _ _
      exact ⟨.inl (Grouping.perm_place _ hg),rfl⟩
    · exact ⟨.inl (Grouping.perm_assign g _),rfl⟩
    · exact ⟨.inl (.refl _),rfl⟩
  | statBucket g latest =>
    refine .inr (.inr ?_)
    simp only [sweeperStep] at h
    split at h <;> cases h
    · exact ⟨.inl (.refl _),rfl⟩
    · exact ⟨.inl (Grouping.perm_assign g _),rfl⟩
  | sealLatest g latest =>
    refine .inr (.inr ?_)
    simp only [sweeperStep] at h
    split at h <;> cases h
    exact ⟨.inl (Grouping.perm_assign g _),rfl⟩
  | writeGroups groups moved =>
    refine .inr (.inr ?_)
    rcases groups with _ | ⟨⟨name,events⟩,rest⟩
    · simp only [sweeperStep] at h
      split at h <;> cases h
      exact ⟨.inl (.refl _),rfl⟩
    · simp only [sweeperStep] at h
      repeat' split at h
      all_goals cases h
      · rename_i hlocked
        exact ⟨.inr ⟨hlocked,(List.sublist_append_right events (rowsOf rest)).subperm⟩,rfl⟩
      · exact ⟨.inl (.refl _),rfl⟩
      · exact ⟨.inl (.refl _),rfl⟩
  | readRange wr =>
    refine .inr (.inr ?_)
    simp only [sweeperStep] at h
    repeat' split at h
    all_goals cases h
    · exact ⟨.inl (.refl _),rfl⟩
    · exact ⟨.inl (.refl _),by simp [Phase.copied,Writing.finish,Phase.moved,Phase.copying]⟩
  | writeRange wr lo hi =>
    refine .inr (.inr ?_)
    simp only [sweeperStep] at h
    split at h <;> cases h
    exact ⟨.inl (.refl _),by simp [Phase.copied,Writing.finish,Phase.moved,Phase.copying]⟩
  | collectOwed cursors owed => cases cursors <;> cases h <;> exact .inr (.inr ⟨.inl (.refl _),rfl⟩)
  | readPairs owed =>
    simp only [sweeperStep] at h
    split at h <;> cases h <;> exact .inr (.inr ⟨.inl (.refl _),rfl⟩)
  | readMeta g latest =>
    simp only [sweeperStep] at h
    split at h <;> cases h <;> exact .inr (.inr ⟨.inl (.refl _),rfl⟩)
  | deleteLive moved => cases h
  | collectCursors | collectAttempts _ | discardOwed _ | openBucket w | createEvents w
  | createMeta w =>
    cases h
    exact .inr (.inr ⟨.inl (.refl _),rfl⟩)
  | setCreatedAt w | setMinEventId w | setMaxEventId w =>
    simp only [sweeperStep] at h
    split at h <;> cases h
    exact .inr (.inr ⟨.inl (.refl _),rfl⟩)

end Step

def Phase.opened : Phase → Option Text
  | .createEvents wr => some wr.bucketName
  | _ => none

def Tables (archive : Archive) (opened : Option Text) : Prop :=
  ∀ b ∈ archive, b.events.isSome = true ∨ opened = some b.name

theorem Tables.editBucket {archive : Archive} {opened : Option Text} (h : Tables archive opened)
    (name : Text) {f : Option EventTable → Option EventTable}
    {g : Option BucketMeta → Option BucketMeta} (hf : ∀ t, (f t).isSome = t.isSome) :
    Tables (editBucket archive name f g) opened := by
  intro b hb
  obtain ⟨c,hc,rfl⟩ := mem_editBucket.mp hb
  rcases h c hc with hev | hop
  · left
    split_ifs
    · rw [hf,hev]
    · exact hev
  · right
    split_ifs <;> exact hop

theorem Tables.setMeta {archive archive' : Archive} {name : Text} {f : BucketMeta → BucketMeta}
    {opened : Option Text} (h : Tables archive opened) (hset : setMeta archive name f = some archive') :
    Tables archive' opened := by
  rw [(setMeta_some hset).2]
  exact h.editBucket name (fun _ => rfl)

theorem sweeperStep_tables (env : StepEnv) (cfg : PassConfig) (db : Db) {archive : Archive} {ph : Phase}
    (h : Tables archive ph.opened) :
    Tables (sweeperStep env cfg db archive ph).archive
      ((sweeperStep env cfg db archive ph).next.bind Phase.opened) := by
  have hnone : ∀ {o : Option Text}, Tables archive none → Tables archive o := fun h b hb =>
    .inl ((h b hb).resolve_right (by simp))
  cases ph with
  | openBucket wr =>
    intro b hb
    rcases KeyedTable.mem_insertOrIgnore.mp hb with hb | ⟨rfl,-⟩
    · exact hnone h b hb
    · exact .inr rfl
  | createEvents wr =>
    intro b hb
    obtain ⟨c,hc,rfl⟩ := mem_editBucket.mp hb
    left
    split_ifs with hn
    · rfl
    · exact (h c hc).resolve_right (fun heq => hn (Option.some.inj heq).symm)
  | createMeta wr => exact Tables.editBucket h wr.bucketName (fun _ => rfl)
  | insertBatch wr =>
    simp only [sweeperStep]
    split
    · exact h
    · rename_i hins
      rw [(insertRows_some hins).2]
      exact Tables.editBucket h wr.bucketName (by simp)
  | sealLatest g latest =>
    have hseal : Tables (trySeal env archive latest) none := by
      rcases trySeal_cases env archive latest with ⟨hsame,-⟩ | ⟨-,hsealed⟩
      · rwa [hsame]
      · exact Tables.setMeta h hsealed
    simp only [sweeperStep]
    split <;> exact hseal
  | setCreatedAt wr | setMinEventId wr | setMaxEventId wr | writeRange wr lo hi =>
    simp only [sweeperStep]
    split
    · exact h
    · rename_i hset
      exact Tables.setMeta h hset
  | collectOwed cursors owed => cases cursors <;> exact hnone h
  | writeGroups groups moved =>
    rcases groups with _ | ⟨⟨name,events⟩,rest⟩ <;> simp only [sweeperStep] <;> split_ifs <;> exact hnone h
  | _ => simp only [sweeperStep]; try (repeat' split) <;> exact hnone h

structure InPass (db : Db) (archive : Archive) (cfg : PassConfig) (ph : Phase) : Prop where
  onTrack : OnTrack db cfg ph
  live : ∀ e ∈ ph.pending, e ∈ db.events
  nodup : (ph.pending.map EventRow.eventId).Nodup
  fresh : ∀ e ∈ ph.pending, ∀ n x, Holds archive n x → x.eventId ≠ e.eventId
  copied : ∀ n x, Holds archive n x → ∀ e ∈ db.events, e.eventId = x.eventId → x.eventId ∈ ph.copied
  unowed : ∀ i, i ∈ ph.pending.map EventRow.eventId ∨ i ∈ ph.copied → i ∉ owedNow db cfg

section InPass

variable {env : StepEnv} {cfg : PassConfig} {db : Db} {archive : Archive} {ph ph' : Phase}

theorem candidates_nodup (db : Db) (cfg : PassConfig) (held : List ℤ) :
    ((candidates db cfg held).map EventRow.eventId).Nodup := by
  have hsub : (candidates db cfg held).Sublist db.events.rows :=
    (List.take_sublist _ _).trans (List.filter_sublist.trans
      ((List.take_sublist _ _).trans List.filter_sublist))
  exact List.pairwise_map.mpr ((db.events.sorted.sublist hsub).imp (fun h => ne_of_lt h))

theorem InPass.start (hrest : ∀ n x, Holds archive n x → ∀ e ∈ db.events, e.eventId ≠ x.eventId) :
    InPass db archive cfg .collectCursors where
  onTrack := trivial
  live e he := by cases he
  nodup := .nil
  fresh e he := by cases he
  copied n x hx e he hid := absurd hid (hrest n x hx e he)
  unowed i hi := by rcases hi with hi | hi <;> cases hi

theorem InPass.select (h : InPass db archive cfg ph) {held : List ℤ} (hph : ph = .selectCandidates held)
    (ht : OnTrack db cfg ph') (hpending : ph'.pending = candidates db cfg held)
    (hcopied : ph'.copied = []) : InPass db archive cfg ph' := by
  subst hph
  have hheld : held = owedNow db cfg := h.onTrack
  refine ⟨ht,?_,?_,?_,?_,?_⟩
  · rw [hpending]
    exact fun e he => (mem_candidates he).1
  · rw [hpending]
    exact candidates_nodup db cfg held
  · rw [hpending]
    intro e he n x hx hid
    have := h.copied n x hx e (mem_candidates he).1 hid.symm
    cases this
  · intro n x hx e he hid
    have := h.copied n x hx e he hid
    cases this
  · rw [hpending,hcopied,← hheld]
    rintro i (hi | hi)
    · obtain ⟨e,he,rfl⟩ := List.mem_map.mp hi
      simpa using (List.mem_filter.mp (List.mem_of_mem_take he)).2
    · cases hi

theorem InPass.insert {wr : Writing} {archive' : Archive} (h : InPass db archive cfg (.insertBatch wr))
    (hins : insertRows archive wr.bucketName wr.events = some archive') :
    InPass db archive' cfg (.readRange wr) := by
  have hrest : ∀ e ∈ rowsOf wr.rest, e ∈ Phase.pending (.insertBatch wr) := fun e he =>
    List.mem_append_right _ he
  have hnodup : (wr.events.map EventRow.eventId ++ (rowsOf wr.rest).map EventRow.eventId).Nodup := by
    have := h.nodup
    rwa [show Phase.pending (.insertBatch wr) = wr.events ++ rowsOf wr.rest from rfl,List.map_append]
      at this
  refine ⟨trivial,fun e he => h.live e (hrest e he),hnodup.of_append_right,?_,?_,?_⟩
  · intro e he n x hx hid
    rcases holds_of_insertRows hins hx with hx | ⟨-,hx⟩
    · exact h.fresh e (hrest e he) n x hx hid
    · exact List.disjoint_of_nodup_append hnodup (List.mem_map_of_mem hx)
        (hid ▸ List.mem_map_of_mem he)
  · intro n x hx e he hid
    rcases holds_of_insertRows hins hx with hx | ⟨-,hx⟩
    · have hmoved : x.eventId ∈ wr.moved ++ [] := h.copied n x hx e he hid
      exact List.mem_append_left _ (show x.eventId ∈ wr.moved by simpa using hmoved)
    · exact List.mem_append_right _ (List.mem_map_of_mem hx)
  · rintro i (hi | hi)
    · obtain ⟨e,he,rfl⟩ := List.mem_map.mp hi
      exact h.unowed _ (.inl (List.mem_map_of_mem (hrest e he)))
    · rcases List.mem_append.mp hi with hi | hi
      · exact h.unowed i (.inr (List.mem_append_left _ hi))
      · obtain ⟨e,he,rfl⟩ := List.mem_map.mp hi
        exact h.unowed _ (.inl (List.mem_map_of_mem (List.mem_append_left _ he)))

theorem InPass.shrink {archive' : Archive} (h : InPass db archive cfg ph) (ht : OnTrack db cfg ph')
    (hsame : ∀ n e, Holds archive' n e ↔ Holds archive n e)
    (hpending : List.Subperm ph'.pending ph.pending) (hcopied : ph'.copied = ph.copied) :
    InPass db archive' cfg ph' := by
  refine ⟨ht,fun e he => h.live e (hpending.subset he),?_,?_,?_,?_⟩
  · obtain ⟨rows,hperm,hsub⟩ := hpending
    exact (hperm.map EventRow.eventId).nodup_iff.mp (h.nodup.sublist (hsub.map EventRow.eventId))
  · exact fun e he n x hx => h.fresh e (hpending.subset he) n x ((hsame n x).mp hx)
  · rw [hcopied]
    exact fun n x hx => h.copied n x ((hsame n x).mp hx)
  · rw [hcopied]
    rintro i (hi | hi)
    · exact h.unowed i (.inl (List.map_subset _ hpending.subset hi))
    · exact h.unowed i (.inr hi)

theorem InPass.step (h : InPass db archive cfg ph)
    (hnext : (sweeperStep env cfg db archive ph).next = some ph') (hpolicy : cfg.policy ≠ .discard)
    (hdiscard : ∀ ids, ph ≠ .discardOwed ids) :
    InPass db (sweeperStep env cfg db archive ph).archive cfg ph' := by
  have hdrop : ∀ ids, ph' ≠ .discardOwed ids := by
    rintro ids rfl
    exact hpolicy (sweeperStep_discard hnext).1
  have ht := sweeperStep_onTrack hnext hdrop hdiscard h.onTrack
  rcases sweeperStep_archive env cfg db archive ph with hsame | ⟨wr,hph,hins⟩
  · rcases sweeperStep_pending hnext with ⟨held,hph,hp,hc⟩ | ⟨wr,rfl,rfl⟩ | ⟨hp,hc⟩
    · have hsel := h.select hph ht hp hc
      exact hsel.shrink ht hsame (.refl _) rfl
    · simp only [sweeperStep] at hnext ⊢
      split at hnext <;> cases hnext
      rename_i hins
      exact h.insert hins
    · exact h.shrink ht hsame (hp.elim List.Perm.subperm And.right) hc
  · subst hph
    simp only [sweeperStep] at hnext
    split at hnext <;> cases hnext
    exact h.insert hins

theorem InPass.deletable {moved : List ℤ} (h : InPass db archive cfg (.deleteLive moved)) :
    ∀ i ∈ moved, i ∈ deletableIds db moved (retainOwed cfg) := by
  intro i hi
  have hun := h.unowed i (.inr (List.mem_append_left _ hi))
  unfold retainOwed
  split_ifs with hp
  · refine List.mem_filter.mpr ⟨hi,decide_eq_true fun howed => hun ?_⟩
    rw [owedNow,heldIds,if_pos hp,idsOf,List.mem_eraseDups]
    obtain ⟨pair,hpair,rfl⟩ := List.mem_map.mp howed
    refine List.mem_map_of_mem (List.mem_filter.mpr ⟨(List.mem_filter.mp hpair).1,?_⟩)
    have := (List.mem_filter.mp hpair).2
    simp only [Bool.and_eq_true] at this
    exact this.2
  · exact hi

end InPass

structure Serial (w : World) : Prop where
  sole : Sole w
  coverage : Coverage w
  positive : 0 ≤ w.bus.eventSeq ∧ ∀ r ∈ w.log, 0 < r.eventId
  unique : ∀ n n' x x', Holds w.archive n x → Holds w.archive n' x' → x.eventId = x'.eventId → n = n'
  tables : Tables w.archive ((w.sweepers 0).bind (fun s => s.phase.opened))
  rest : w.sweepers 0 = none → ∀ n x, Holds w.archive n x → ∀ e ∈ w.bus.events, e.eventId ≠ x.eventId
  pass : ∀ s, w.sweepers 0 = some s → InPass w.bus w.archive s.cfg s.phase

section Serial

variable {w w' : World}

theorem Serial.start : Serial (World.start .empty .empty) where
  sole := .start
  coverage := .start
  positive := ⟨le_rfl,fun r hr => by cases hr⟩
  unique n n' x x' h := by
    obtain ⟨b,hb,-⟩ := h
    exact absurd hb (KeyedTable.not_mem_empty b)
  tables b hb := absurd hb (KeyedTable.not_mem_empty b)
  rest _ n x h := by
    obtain ⟨b,hb,-⟩ := h
    exact absurd hb (KeyedTable.not_mem_empty b)
  pass s h := by cases h

theorem Serial.held_le (h : Serial w) {n : Text} {x : EventRow} (hx : Holds w.archive n x) :
    x.eventId ≤ w.bus.eventSeq := by
  obtain ⟨r,hr,hrx⟩ := h.coverage.custody.bucketLogged n x hx
  rw [← eventId_of_fixedPart hrx]
  exact h.coverage.custody.prov.log_le r hr

theorem rest_of_effect {db db' : Db} {op : BusOp} {archive : Archive} (heff : BusEffect db db' op)
    (hle : ∀ n x, Holds archive n x → x.eventId ≤ db.eventSeq)
    (hrest : ∀ n x, Holds archive n x → ∀ e ∈ db.events, e.eventId ≠ x.eventId) :
    ∀ n x, Holds archive n x → ∀ e ∈ db'.events, e.eventId ≠ x.eventId := by
  intro n x hx e he hid
  have hold : e.fixedPart ∉ db.live := by
    rintro ⟨y,hy,hye⟩
    exact hrest n x hx y hy ((eventId_of_fixedPart hye).trans hid)
  cases heff with
  | emit params uuid live eventSeq bound =>
    have hmem := mem_live he
    rw [live] at hmem
    rcases hmem with heq | hmem
    · have hnew : e.eventId = db.eventSeq + 1 := eventId_of_fixedPart heq
      have := hle n x hx
      omega
    · exact hold hmem
  | shrink accepted live eventSeq => exact hold (live (mem_live he))

theorem Serial.step_bus (h : Serial w) {op : BusOp} (hok : SerialOk w (.bus op))
    (hstep : w.step (.bus op) = some w') : Serial w' := by
  have hsole := h.sole.step hok.sole hstep
  have hcov := h.coverage.step (h.sole.coverageOk hok.sole) hstep
  obtain ⟨db,hop,rfl⟩ := Option.map_eq_some_iff.mp hstep
  have heff := busEffect hop
  refine ⟨hsole,hcov,?_,h.unique,h.tables,fun _ => ?_,fun s hs => ?_⟩
  · cases heff with
    | emit params uuid live eventSeq bound =>
      have hpos := h.positive
      refine ⟨eventSeq ▸ by omega,fun r hr => ?_⟩
      rcases List.mem_append.mp hr with hr | hr
      · exact hpos.2 r hr
      · rw [List.mem_singleton.mp hr,NewEvent.row_eventId]
        omega
    | shrink accepted live eventSeq =>
      rw [accepted,List.append_nil]
      exact ⟨eventSeq ▸ h.positive.1,h.positive.2⟩
  · exact rest_of_effect heff (fun n x => h.held_le) (h.rest hok.2)
  · rw [hok.2] at hs
    cases hs

theorem sweeperStep_bus_next {env : StepEnv} {cfg : PassConfig} {db : Db} {archive : Archive}
    {ph ph' : Phase} (h : (sweeperStep env cfg db archive ph).next = some ph')
    (hdiscard : ∀ ids, ph ≠ .discardOwed ids) : (sweeperStep env cfg db archive ph).bus = db := by
  rcases sweeperStep_bus env cfg db archive ph with hb | ⟨ids,hph,-⟩ | ⟨mv,rfl,-⟩
  · exact hb
  · exact absurd hph (hdiscard ids)
  · cases h

theorem InPass.finish {env : StepEnv} {cfg : PassConfig} {db : Db} {archive : Archive} {ph : Phase}
    (h : InPass db archive cfg ph) (hends : ph.ends = true)
    (hnext : (sweeperStep env cfg db archive ph).next = none) :
    ∀ n x, Holds (sweeperStep env cfg db archive ph).archive n x →
      ∀ e ∈ (sweeperStep env cfg db archive ph).bus.events, e.eventId ≠ x.eventId := by
  intro n x hx e he hid
  cases ph with
  | selectCandidates held =>
    have hsame : (sweeperStep env cfg db archive (.selectCandidates held)).archive = archive ∧
        (sweeperStep env cfg db archive (.selectCandidates held)).bus = db := by
      simp only [sweeperStep]
      split <;> exact ⟨rfl,rfl⟩
    rw [hsame.1] at hx
    rw [hsame.2] at he
    cases h.copied n x hx e he hid
  | writeGroups groups moved =>
    rcases groups with _ | ⟨g,rest⟩
    · simp only [sweeperStep] at hnext hx he
      split_ifs at hnext hx he with hm
      have := h.copied n x hx e he hid
      rw [hm] at this
      cases this
    · cases hends
  | deleteLive moved =>
    obtain ⟨hlive,hkept⟩ := mem_deleteFromLive.mp he
    have hc : x.eventId ∈ moved ++ [] := h.copied n x hx e hlive hid
    rw [List.append_nil,← hid] at hc
    exact hkept (h.deletable _ hc)
  | _ => cases hends

theorem Serial.step_sweep (h : Serial w) {p : ℕ} {env : StepEnv} (hok : SerialOk w (.sweep p env))
    (hstep : w.step (.sweep p env) = some w') : Serial w' := by
  have hsole := h.sole.step hok.sole hstep
  have hcov := h.coverage.step (h.sole.coverageOk hok.sole) hstep
  obtain ⟨rfl,hends⟩ := hok
  obtain ⟨s,hs,rfl⟩ := World.step_sweep hstep
  obtain ⟨hpolicy,hdiscard⟩ := h.sole.durability.policy 0 s hs
  have hpass := h.pass s hs
  have htables : Tables w.archive s.phase.opened := by simpa [hs] using h.tables
  refine ⟨hsole,hcov,?_,?_,?_,?_,?_⟩
  · exact ⟨(sweeperStep_live env s.cfg w.bus w.archive s.phase).2 ▸ h.positive.1,h.positive.2⟩
  · intro n n' x x' hx hx' hid
    rcases sweeperStep_archive env s.cfg w.bus w.archive s.phase with hsame | ⟨wr,hph,hins⟩
    · exact h.unique n n' x x' ((hsame n x).mp hx) ((hsame n' x').mp hx') hid
    · rw [hph] at hpass
      have hfresh : ∀ e ∈ wr.events, ∀ m y, Holds w.archive m y → y.eventId ≠ e.eventId := fun e he =>
        hpass.fresh e (List.mem_append_left _ he)
      rcases holds_of_insertRows hins hx with hold | ⟨hn,hnew⟩ <;>
        rcases holds_of_insertRows hins hx' with hold' | ⟨hn',hnew'⟩
      · exact h.unique n n' x x' hold hold' hid
      · exact absurd hid (hfresh x' hnew' n x hold)
      · exact absurd hid.symm (hfresh x hnew n' x' hold')
      · exact hn.trans hn'.symm
  · have := sweeperStep_tables env s.cfg w.bus htables
    cases hn : (sweeperStep env s.cfg w.bus w.archive s.phase).next <;>
      simpa [hn] using this
  · intro hnone
    have hnext : (sweeperStep env s.cfg w.bus w.archive s.phase).next = none := by
      simpa using hnone
    exact hpass.finish ((hends s hs).resolve_right (by simp [hnext])) hnext
  · intro t ht
    simp only [Function.update_self,Option.map_eq_some_iff] at ht
    obtain ⟨ph,hph,rfl⟩ := ht
    have hbus := sweeperStep_bus_next hph hdiscard
    show InPass (sweeperStep env s.cfg w.bus w.archive s.phase).bus _ s.cfg ph
    rw [hbus]
    exact hpass.step hph hpolicy hdiscard

theorem Serial.step (h : Serial w) {a : Action} (hok : SerialOk w a) (hstep : w.step a = some w') :
    Serial w' := by
  cases a with
  | bus op => exact h.step_bus hok hstep
  | sweep p env => exact h.step_sweep hok hstep
  | crash p => exact hok.elim
  | beginSweep p config clock =>
    have hsole := h.sole.step hok.sole hstep
    have hcov := h.coverage.step (h.sole.coverageOk hok.sole) hstep
    obtain ⟨-,rfl⟩ := hok
    obtain ⟨cfg,hnone,-,rfl⟩ := World.step_begin hstep
    have htables := h.tables
    rw [hnone] at htables
    refine ⟨hsole,hcov,h.positive,h.unique,by simpa [Phase.opened] using htables,by simp,?_⟩
    intro t ht
    simp only [Function.update_self,Option.some.injEq] at ht
    obtain rfl := ht
    exact InPass.start (h.rest hnone)

theorem Serial.run {as : List Action}
    (hrun : Run World.step SerialOk (World.start .empty .empty) as w) : Serial w :=
  hrun.invariant (fun _ _ _ (ht : Serial _) hok hs => ht.step hok hs) .start

end Serial

end WickedBus
