import WickedBus.Bus
import WickedBus.Foundation.Directory

namespace WickedBus

open GuardedRun
open WickedBus.Filter (Text)

structure Identity where
  plugin : String
  filter : Text

def Identity.matching (o : Identity) (s : SubscriptionRow) : Bool :=
  decide (s.plugin = o.plugin ∧ s.role = .subscriber ∧ s.eventTypeFilter = o.filter ∧ s.deregisteredAt = none)

def Identity.registerOpts (o : Identity) (cursorInit : Option CursorInit) : RegisterOpts where
  plugin := o.plugin
  role := .subscriber
  filter := o.filter
  schemaVersion := none
  cursorInit := cursorInit

def cursorsOf (db : Db) (s : SubscriptionRow) : List CursorRow :=
  db.cursors.rows.filter (fun c => decide (c.subscriptionId = s.subscriptionId ∧ c.deregisteredAt = none))

def joined (db : Db) (o : Identity) : List (SubscriptionRow × CursorRow) :=
  (db.subscriptions.rows.filter o.matching).flatMap (fun s => (cursorsOf db s).map (s,·))

def latestJoined (db : Db) (o : Identity) : List (SubscriptionRow × CursorRow) :=
  (joined db o).filter (fun r => (joined db o).all (fun q => decide (q.1.registeredAt ≤ r.1.registeredAt)))

inductive ResumePhase where
  | lookup
  | insertSubscription
  | selectMax (subscriptionId : String) (now : ℤ)
  | insertCursor (subscriptionId : String) (now lastEventId : ℤ)
  | returned (subscriptionId cursorId : String) (created : Bool)
  deriving DecidableEq, Repr

structure ResumeCall where
  cursorInit : Option CursorInit
  phase : ResumePhase
  deriving DecidableEq, Repr

structure ResumeEnv where
  pick : ℕ
  now : ℤ
  uuid : String

def resumeStep (o : Identity) (env : ResumeEnv) (db : Db) (cursorInit : Option CursorInit) :
    ResumePhase → Option (ResumePhase × Db)
  | .lookup =>
    if joined db o = [] then some (.insertSubscription,db)
    else (latestJoined db o)[env.pick]?.map (fun r => (.returned r.1.subscriptionId r.2.cursorId false,db))
  | .insertSubscription =>
    (insertSubscription db (subscriptionOf (o.registerOpts cursorInit) env.uuid env.now)).map
      (fun db' => (.selectMax env.uuid env.now,db'))
  | .selectMax subscriptionId now =>
    some (.insertCursor subscriptionId now (initialPosition db cursorInit),db)
  | .insertCursor subscriptionId now lastEventId =>
    (insertCursor db (cursorOf env.uuid subscriptionId lastEventId now)).map
      (fun db' => (.returned subscriptionId env.uuid true,db'))
  | .returned _ _ _ => none

structure Resuming where
  db : Db
  calls : ℕ → Option ResumeCall

inductive ResumeAction where
  | call (p : ℕ) (cursorInit : Option CursorInit)
  | advance (p : ℕ) (env : ResumeEnv)
  | bus (op : BusOp)

def BusOp.registers : BusOp → Bool
  | .insertSubscription _ | .insertCursor _ | .deregister _ _ | .deregisterByPlugin _ _ _ => true
  | _ => false

def Resuming.start (db : Db) : Resuming := ⟨db,fun _ => none⟩

def Resuming.step (o : Identity) (t : Resuming) : ResumeAction → Option Resuming
  | .call p cursorInit =>
    if (t.calls p).isSome then none
    else some { t with calls := Function.update t.calls p (some ⟨cursorInit,.lookup⟩) }
  | .advance p env =>
    match t.calls p with
    | none => none
    | some c => (resumeStep o env t.db c.cursorInit c.phase).map (fun r =>
        ⟨r.2,Function.update t.calls p (some ⟨c.cursorInit,r.1⟩)⟩)
  | .bus op => if op.registers then none else (op.apply t.db).map (fun db => { t with db := db })

def implicitCursor (db : Db) (o : Identity) : Except BusError (Option String) :=
  match joined db o with
  | [] => .ok none
  | [r] => .ok (some r.2.cursorId)
  | _ => .error (.invalidEventSchema "ambiguous subscription")

def ResumePhase.registering : ResumePhase → Bool
  | .insertSubscription | .selectMax _ _ | .insertCursor _ _ _ => true
  | _ => false

def ResumeOk (o : Identity) (t : Resuming) : ResumeAction → Prop
  | .advance p _ => ∀ c ∈ t.calls p, c.phase = .lookup → joined t.db o = [] →
      ∀ q, ∀ d ∈ t.calls q, d.phase.registering = false
  | _ => True

def HasCursor (db : Db) (subscriptionId cursorId : String) : Prop :=
  ∃ c ∈ db.cursors, c.subscriptionId = subscriptionId ∧ c.cursorId = cursorId ∧ c.deregisteredAt = none

def Unclaimed (o : Identity) (db : Db) : Prop := ∀ s ∈ db.subscriptions, o.matching s = false

def SoleSubscription (o : Identity) (db : Db) (s : SubscriptionRow) : Prop :=
  ∀ x, x ∈ db.subscriptions ∧ o.matching x = true ↔ x = s

def Halfway (o : Identity) (db : Db) (subscriptionId : String) : Prop :=
  ∃ s, SoleSubscription o db s ∧ s.subscriptionId = subscriptionId ∧ ∀ k, ¬ HasCursor db subscriptionId k

def ResolvedTo (o : Identity) (db : Db) (cursorId : String) : Prop :=
  ∃ s, SoleSubscription o db s ∧ ∀ k, HasCursor db s.subscriptionId k ↔ k = cursorId

section Lookup

variable {o : Identity} {db db' : Db} {s : SubscriptionRow} {c : CursorRow} {k id : String}

theorem mem_joined : (s,c) ∈ joined db o ↔ (s ∈ db.subscriptions ∧ o.matching s = true) ∧
    c ∈ db.cursors ∧ c.subscriptionId = s.subscriptionId ∧ c.deregisteredAt = none := by
  simp [joined,cursorsOf,KeyedTable.mem_rows]

theorem joined_unclaimed (h : Unclaimed o db) : joined db o = [] := by
  refine List.eq_nil_iff_forall_not_mem.mpr fun ⟨s,c⟩ hmem => ?_
  obtain ⟨⟨hs,hmatch⟩,-⟩ := mem_joined.mp hmem
  rw [h s hs] at hmatch
  cases hmatch

theorem joined_halfway (h : Halfway o db id) : joined db o = [] := by
  refine List.eq_nil_iff_forall_not_mem.mpr fun ⟨s,c⟩ hmem => ?_
  obtain ⟨sole,hsole,hid,hnone⟩ := h
  obtain ⟨hs,hc,hsub,hactive⟩ := mem_joined.mp hmem
  obtain rfl := (hsole s).mp hs
  exact hnone c.cursorId ⟨c,hc,hsub.trans hid,rfl,hactive⟩

theorem eq_singleton_of_nodup {α : Type} {l : List α} {a : α} (hnodup : l.Nodup) (h : ∀ x, x ∈ l ↔ x = a) :
    l = [a] := by
  cases l with
  | nil => exact absurd ((h a).mpr rfl) List.not_mem_nil
  | cons b l =>
    obtain rfl := (h b).mp List.mem_cons_self
    cases l with
    | nil => rfl
    | cons c l =>
      obtain rfl := (h c).mp (List.mem_cons_of_mem _ List.mem_cons_self)
      simp at hnodup

theorem joined_resolved (h : ResolvedTo o db k) : ∃ s c, joined db o = [(s,c)] ∧ c.cursorId = k := by
  obtain ⟨s,hsole,hcursors⟩ := h
  obtain ⟨c,hc,hsub,rfl,hactive⟩ := (hcursors k).mpr rfl
  have hsubs : db.subscriptions.rows.filter o.matching = [s] := by
    refine eq_singleton_of_nodup (db.subscriptions.nodup_rows.filter _) fun x => ?_
    rw [List.mem_filter]
    exact hsole x
  have hrows : cursorsOf db s = [c] := by
    refine eq_singleton_of_nodup (db.cursors.nodup_rows.filter _) fun x => ?_
    rw [cursorsOf,List.mem_filter,decide_eq_true_eq,KeyedTable.mem_rows]
    constructor
    · rintro ⟨hx,hxsub,hxactive⟩
      exact KeyedTable.eq_of_key hx hc ((hcursors x.cursorId).mp ⟨x,hx,hxsub,rfl,hxactive⟩)
    · rintro rfl
      exact ⟨hc,hsub,hactive⟩
  exact ⟨s,c,by rw [joined,hsubs,List.flatMap_singleton,hrows]; rfl,rfl⟩

theorem implicitCursor_resolved (h : ResolvedTo o db k) : implicitCursor db o = .ok (some k) := by
  obtain ⟨s,c,hjoined,rfl⟩ := joined_resolved h
  simp only [implicitCursor,hjoined]

end Lookup

def ForeignKeys (db : Db) : Prop :=
  ∀ id k, HasCursor db id k → ∃ s ∈ db.subscriptions, s.subscriptionId = id

structure SameIdentities (db db' : Db) : Prop where
  subscriptions : db'.subscriptions = db.subscriptions
  cursors : ∀ id k, HasCursor db' id k ↔ HasCursor db id k

section Traffic

variable {o : Identity} {db db' : Db} {k id : String}

theorem sameIdentities_of_frame (hsubs : db'.subscriptions = db.subscriptions) (hcursors : db'.cursors = db.cursors) :
    SameIdentities db db' :=
  ⟨hsubs,fun id k => by rw [HasCursor,HasCursor,hcursors]⟩

theorem sameIdentities_of_map {f : CursorRow → CursorRow} (hsubs : db'.subscriptions = db.subscriptions)
    (hcursors : ∀ c, c ∈ db'.cursors ↔ ∃ d ∈ db.cursors, f d = c)
    (hf : ∀ d, (f d).cursorId = d.cursorId ∧ (f d).subscriptionId = d.subscriptionId ∧
      (f d).deregisteredAt = d.deregisteredAt) : SameIdentities db db' := by
  refine ⟨hsubs,fun id k => ?_⟩
  constructor
  · rintro ⟨c,hc,hsub,hkey,hactive⟩
    obtain ⟨d,hd,rfl⟩ := (hcursors c).mp hc
    obtain ⟨hid,hown,hat⟩ := hf d
    exact ⟨d,hd,hown ▸ hsub,hid ▸ hkey,hat ▸ hactive⟩
  · rintro ⟨d,hd,hsub,hkey,hactive⟩
    obtain ⟨hid,hown,hat⟩ := hf d
    exact ⟨f d,(hcursors _).mpr ⟨d,hd,rfl⟩,hown.trans hsub,hid.trans hkey,hat.trans hactive⟩

theorem busOp_sameIdentities {op : BusOp} (h : op.apply db = some db') (hop : op.registers = false) :
    SameIdentities db db' := by
  cases op with
  | emit params uuid =>
    have hframe := emit_frame (toOption_eq_some.mp h)
    exact sameIdentities_of_frame hframe.subscriptions hframe.cursors
  | sweep config clock =>
    obtain ⟨⟨_,result⟩,hr,rfl⟩ := Option.map_eq_some_iff.mp h
    obtain ⟨policy,capDays,-,-,rfl⟩ := runSweep_ok (toOption_eq_some.mp hr)
    obtain ⟨hframe,-⟩ := sweepTransaction_frame db (config.now.getD clock) policy capDays config.archiveMode
    exact sameIdentities_of_frame hframe.subscriptions hframe.cursors
  | moveCursor cursorId pos now =>
    rw [moveCursor_ok (toOption_eq_some.mp h)]
    refine sameIdentities_of_map rfl (fun c => mem_updateCursors) fun d => ?_
    split_ifs <;> exact ⟨rfl,rfl,rfl⟩
  | replayCursor cursorId pos =>
    cases h
    refine sameIdentities_of_map (f := fun d => if d.cursorId = cursorId then { d with lastEventId := pos } else d) rfl
      (fun c => by simp only [replayCursor,KeyedTable.mem_map]) fun d => ?_
    split_ifs <;> exact ⟨rfl,rfl,rfl⟩
  | upsertDeliveryAttempt row =>
    rw [upsertDeliveryAttempt_ok h]
    exact sameIdentities_of_frame rfl rfl
  | deleteDeliveryAttempt cursorId eventId =>
    cases h
    exact sameIdentities_of_frame rfl rfl
  | moveToDeadLetter cursorId subscriptionId event attempts reason now =>
    rw [moveToDeadLetter_ok h]
    exact sameIdentities_of_frame rfl rfl
  | replayDeadLetter dlId now =>
    rw [replayDeadLetter_ok (toOption_eq_some.mp h)]
    exact sameIdentities_of_frame rfl rfl
  | dropDeadLetter dlId =>
    rw [dropDeadLetter_ok (toOption_eq_some.mp h)]
    exact sameIdentities_of_frame rfl rfl
  | failReplay dlId lastError =>
    cases h
    exact sameIdentities_of_frame rfl rfl
  | insertSubscription row => cases hop
  | insertCursor row => cases hop
  | deregister id now => cases hop
  | deregisterByPlugin plugin role now => cases hop

theorem SameIdentities.unclaimed (h : SameIdentities db db') (hfree : Unclaimed o db) : Unclaimed o db' :=
  fun s hs => hfree s (h.subscriptions ▸ hs)

theorem SameIdentities.sole {s : SubscriptionRow} (h : SameIdentities db db') (hsole : SoleSubscription o db s) :
    SoleSubscription o db' s := by
  rw [SoleSubscription,h.subscriptions]
  exact hsole

theorem SameIdentities.halfway (h : SameIdentities db db') (hhalf : Halfway o db id) : Halfway o db' id := by
  obtain ⟨s,hsole,hid,hnone⟩ := hhalf
  exact ⟨s,h.sole hsole,hid,fun k hk => hnone k ((h.cursors id k).mp hk)⟩

theorem SameIdentities.resolved (h : SameIdentities db db') (hres : ResolvedTo o db k) : ResolvedTo o db' k := by
  obtain ⟨s,hsole,hcursors⟩ := hres
  exact ⟨s,h.sole hsole,fun j => (h.cursors _ j).trans (hcursors j)⟩

end Traffic

section Register

variable {o : Identity} {db db' : Db} {id uuid : String} {init : Option CursorInit} {now last : ℤ}

theorem insertSubscription_rows {row : SubscriptionRow} (h : insertSubscription db row = some db') :
    (∀ x, x ∈ db'.subscriptions ↔ x ∈ db.subscriptions ∨ x = row) ∧
      (∀ x ∈ db.subscriptions, x.subscriptionId ≠ row.subscriptionId) ∧ db'.cursors = db.cursors := by
  have hfree : ∀ x ∈ db.subscriptions, x.subscriptionId ≠ row.subscriptionId := by
    unfold insertSubscription at h
    split_ifs at h with htaken
    exact KeyedTable.get?_eq_none.mp (Option.not_isSome_iff_eq_none.mp htaken)
  rw [insertSubscription_ok h]
  refine ⟨fun x => ?_,hfree,rfl⟩
  rw [KeyedTable.mem_insertOrIgnore]
  exact or_congr_right (and_iff_left_of_imp fun _ => hfree)

theorem insertCursor_rows {row : CursorRow} (h : insertCursor db row = some db') :
    (∀ c, c ∈ db'.cursors ↔ c ∈ db.cursors ∨ c = row) ∧ db'.subscriptions = db.subscriptions := by
  have hfree : ∀ x ∈ db.cursors, x.cursorId ≠ row.cursorId := by
    unfold insertCursor at h
    split_ifs at h with htaken
    exact KeyedTable.get?_eq_none.mp (Option.not_isSome_iff_eq_none.mp htaken)
  rw [insertCursor_ok h]
  refine ⟨fun x => ?_,rfl⟩
  rw [KeyedTable.mem_insertOrIgnore]
  exact or_congr_right (and_iff_left_of_imp fun _ => hfree)

theorem matching_registered (o : Identity) (init : Option CursorInit) (uuid : String) (now : ℤ) :
    o.matching (subscriptionOf (o.registerOpts init) uuid now) = true := by
  simp [Identity.matching,subscriptionOf,Identity.registerOpts]

theorem claimed_halfway (hfree : Unclaimed o db) (hfk : ForeignKeys db)
    (h : insertSubscription db (subscriptionOf (o.registerOpts init) uuid now) = some db') :
    Halfway o db' uuid ∧ ForeignKeys db' := by
  obtain ⟨hsubs,hfresh,hcursors⟩ := insertSubscription_rows h
  have hnew : SoleSubscription o db' (subscriptionOf (o.registerOpts init) uuid now) := by
    intro x
    rw [hsubs]
    constructor
    · rintro ⟨hold | rfl,hmatch⟩
      · rw [hfree x hold] at hmatch
        cases hmatch
      · rfl
    · rintro rfl
      exact ⟨.inr rfl,matching_registered o init uuid now⟩
  have hsame : ∀ id k, HasCursor db' id k ↔ HasCursor db id k := fun id k => by rw [HasCursor,HasCursor,hcursors]
  refine ⟨⟨_,hnew,rfl,fun k hk => ?_⟩,fun id k hk => ?_⟩
  · obtain ⟨s,hs,hid⟩ := hfk uuid k ((hsame uuid k).mp hk)
    exact hfresh s hs hid
  · obtain ⟨s,hs,hid⟩ := hfk id k ((hsame id k).mp hk)
    exact ⟨s,(hsubs s).mpr (.inl hs),hid⟩

theorem halfway_resolved (hhalf : Halfway o db id) (hfk : ForeignKeys db)
    (h : insertCursor db (cursorOf uuid id last now) = some db') :
    ResolvedTo o db' uuid ∧ ForeignKeys db' := by
  obtain ⟨s,hsole,rfl,hnone⟩ := hhalf
  obtain ⟨hcursors,hsubs⟩ := insertCursor_rows h
  have hin : s ∈ db.subscriptions := ((hsole s).mpr rfl).1
  have hhas : ∀ id k, HasCursor db' id k ↔ HasCursor db id k ∨ (id = s.subscriptionId ∧ k = uuid) := by
    intro id k
    constructor
    · rintro ⟨c,hc,hsub,hkey,hactive⟩
      rcases (hcursors c).mp hc with hold | rfl
      · exact .inl ⟨c,hold,hsub,hkey,hactive⟩
      · exact .inr ⟨hsub.symm,hkey.symm⟩
    · rintro (⟨c,hc,hsub,hkey,hactive⟩ | ⟨rfl,rfl⟩)
      · exact ⟨c,(hcursors c).mpr (.inl hc),hsub,hkey,hactive⟩
      · exact ⟨_,(hcursors _).mpr (.inr rfl),rfl,rfl,rfl⟩
  refine ⟨⟨s,?_,fun k => ?_⟩,fun id k hk => ?_⟩
  · rw [SoleSubscription,hsubs]
    exact hsole
  · rw [hhas]
    exact ⟨fun hk => hk.elim (fun hold => absurd hold (hnone k)) And.right,fun hk => .inr ⟨rfl,hk⟩⟩
  · rw [hsubs]
    rcases (hhas id k).mp hk with hold | ⟨rfl,-⟩
    · exact hfk id k hold
    · exact ⟨s,hin,rfl⟩

end Register

inductive ResumeStage (o : Identity) (t : Resuming) : Prop
  | unclaimed (free : Unclaimed o t.db) (phases : ∀ p, ∀ c ∈ t.calls p, c.phase = .lookup)
  | claimed (p : ℕ) (c : ResumeCall) (free : Unclaimed o t.db) (call : t.calls p = some c)
      (phase : c.phase = .insertSubscription) (phases : ∀ q ≠ p, ∀ c ∈ t.calls q, c.phase = .lookup)
  | halfway (p : ℕ) (c : ResumeCall) (id : String) (half : Halfway o t.db id) (call : t.calls p = some c)
      (phase : (∃ now, c.phase = .selectMax id now) ∨ ∃ now last, c.phase = .insertCursor id now last)
      (phases : ∀ q ≠ p, ∀ c ∈ t.calls q, c.phase = .lookup)
  | resolved (k : String) (res : ResolvedTo o t.db k)
      (phases : ∀ p, ∀ c ∈ t.calls p, c.phase = .lookup ∨ ∃ id created, c.phase = .returned id k created)

section Stages

variable {o : Identity} {t t' : Resuming} {a : ResumeAction} {p : ℕ} {env : ResumeEnv}

theorem ResumeStage.bus (h : ResumeStage o t) {db : Db} (hsame : SameIdentities t.db db) :
    ResumeStage o { t with db := db } := by
  cases h with
  | unclaimed free phases => exact .unclaimed (hsame.unclaimed free) phases
  | claimed p c free call phase phases => exact .claimed p c (hsame.unclaimed free) call phase phases
  | halfway p c id half call phase phases => exact .halfway p c id (hsame.halfway half) call phase phases
  | resolved k res phases => exact .resolved k (hsame.resolved res) phases

theorem ResumeStage.call (h : ResumeStage o t) (hnone : t.calls p = none) (init : Option CursorInit) :
    ResumeStage o { t with calls := Function.update t.calls p (some ⟨init,.lookup⟩) } := by
  have hfresh : ∀ {P : ResumeCall → Prop} q, P ⟨init,.lookup⟩ → (∀ c ∈ t.calls q, P c) →
      ∀ c ∈ Function.update t.calls p (some ⟨init,.lookup⟩) q, P c := by
    intro P q hnew hold c hc
    rcases Directory.mem_update hc with ⟨-,rfl⟩ | ⟨-,hc⟩
    · exact hnew
    · exact hold c hc
  have hother : ∀ {q c}, t.calls q = some c → Function.update t.calls p (some ⟨init,.lookup⟩) q = some c := by
    intro q c hq
    rw [Function.update_of_ne (fun heq => ?_),hq]
    rw [heq,hnone] at hq
    cases hq
  cases h with
  | unclaimed free phases => exact .unclaimed free fun q => hfresh q rfl (phases q)
  | claimed q c free call phase phases =>
    exact .claimed q c free (hother call) phase fun r hr => hfresh r rfl (phases r hr)
  | halfway q c id half call phase phases =>
    exact .halfway q c id half (hother call) phase fun r hr => hfresh r rfl (phases r hr)
  | resolved k res phases => exact .resolved k res fun q => hfresh q (.inl rfl) (phases q)

theorem ResumeStage.found (h : ResumeStage o t) (hfound : joined t.db o ≠ []) : ∃ k, ResolvedTo o t.db k ∧
    ∀ p, ∀ c ∈ t.calls p, c.phase = .lookup ∨ ∃ id created, c.phase = .returned id k created := by
  cases h with
  | unclaimed free phases => exact absurd (joined_unclaimed free) hfound
  | claimed p c free call phase phases => exact absurd (joined_unclaimed free) hfound
  | halfway p c id half call phase phases => exact absurd (joined_halfway half) hfound
  | resolved k res phases => exact ⟨k,res,phases⟩

theorem ResumeStage.missed (h : ResumeStage o t) (hmissed : joined t.db o = [])
    (hquiet : ∀ q, ∀ d ∈ t.calls q, d.phase.registering = false) :
    Unclaimed o t.db ∧ ∀ p, ∀ c ∈ t.calls p, c.phase = .lookup := by
  cases h with
  | unclaimed free phases => exact ⟨free,phases⟩
  | claimed p c free call phase phases =>
    have hidle := hquiet p c call
    rw [phase] at hidle
    cases hidle
  | halfway p c id half call phase phases =>
    have hidle := hquiet p c call
    rcases phase with ⟨now,phase⟩ | ⟨now,last,phase⟩ <;> rw [phase] at hidle <;> cases hidle
  | resolved k res phases =>
    obtain ⟨s,c,hjoined,-⟩ := joined_resolved res
    rw [hjoined] at hmissed
    cases hmissed

theorem phases_update {P : ResumeCall → Prop} {c : ResumeCall} (h : ∀ q ≠ p, ∀ d ∈ t.calls q, P d) :
    ∀ q ≠ p, ∀ d ∈ Function.update t.calls p (some c) q, P d := by
  intro q hq d hd
  rcases Directory.mem_update hd with ⟨heq,-⟩ | ⟨-,hd⟩
  · exact absurd heq hq
  · exact h q hq d hd

theorem ResumeStage.sole_registering (h : ResumeStage o t) {c : ResumeCall} (hc : t.calls p = some c)
    (hreg : c.phase.registering = true) :
    (Unclaimed o t.db ∧ c.phase = .insertSubscription ∨ ∃ id, Halfway o t.db id ∧
      ((∃ now, c.phase = .selectMax id now) ∨ ∃ now last, c.phase = .insertCursor id now last)) ∧
    ∀ q ≠ p, ∀ d ∈ t.calls q, d.phase = .lookup := by
  have hother : ∀ {q}, (∀ r ≠ q, ∀ d ∈ t.calls r, d.phase = .lookup) → q = p := by
    intro q hphases
    by_contra hne
    rw [hphases p (Ne.symm hne) c hc] at hreg
    cases hreg
  cases h with
  | unclaimed free phases =>
    rw [phases p c hc] at hreg
    cases hreg
  | claimed q d free call phase phases =>
    obtain rfl := hother phases
    obtain rfl := Option.some.inj (call.symm.trans hc)
    exact ⟨.inl ⟨free,phase⟩,phases⟩
  | halfway q d id half call phase phases =>
    obtain rfl := hother phases
    obtain rfl := Option.some.inj (call.symm.trans hc)
    exact ⟨.inr ⟨id,half,phase⟩,phases⟩
  | resolved k res phases =>
    rcases phases p c hc with hphase | ⟨id,created,hphase⟩ <;> rw [hphase] at hreg <;> cases hreg

theorem ResumeStage.looked (h : ResumeStage o t) (hfk : ForeignKeys t.db) {c : ResumeCall} (hc : t.calls p = some c)
    (hlookup : c.phase = .lookup) (hok : ResumeOk o t (.advance p env))
    (ht : t.step o (.advance p env) = some t') : ForeignKeys t'.db ∧ ResumeStage o t' := by
  rw [Resuming.step,hc] at ht
  obtain ⟨⟨phase,db⟩,hr,rfl⟩ := Option.map_eq_some_iff.mp ht
  rw [hlookup,resumeStep] at hr
  by_cases hmissed : joined t.db o = []
  · rw [if_pos hmissed] at hr
    cases hr
    obtain ⟨hfree,hphases⟩ := h.missed hmissed (hok c hc hlookup hmissed)
    exact ⟨hfk,.claimed p _ hfree (Function.update_self ..) rfl (phases_update fun q _ => hphases q)⟩
  · rw [if_neg hmissed] at hr
    obtain ⟨r,hpick,heq⟩ := Option.map_eq_some_iff.mp hr
    cases heq
    obtain ⟨k,hres,hphases⟩ := h.found hmissed
    obtain ⟨s,d,hjoined,rfl⟩ := joined_resolved hres
    have hmem : r ∈ joined t.db o := (List.mem_filter.mp (List.mem_of_getElem? hpick)).1
    rw [hjoined,List.mem_singleton] at hmem
    subst hmem
    refine ⟨hfk,.resolved d.cursorId hres fun q e he => ?_⟩
    rcases Directory.mem_update he with ⟨-,rfl⟩ | ⟨-,he⟩
    · exact .inr ⟨s.subscriptionId,false,rfl⟩
    · exact hphases q e he

theorem ResumeStage.registered (h : ResumeStage o t) (hfk : ForeignKeys t.db) {c : ResumeCall}
    (hc : t.calls p = some c) (hreg : c.phase.registering = true)
    (ht : t.step o (.advance p env) = some t') : ForeignKeys t'.db ∧ ResumeStage o t' := by
  obtain ⟨hstage,hphases⟩ := h.sole_registering hc hreg
  rw [Resuming.step,hc] at ht
  obtain ⟨⟨phase,db⟩,hr,rfl⟩ := Option.map_eq_some_iff.mp ht
  rcases hstage with ⟨hfree,hphase⟩ | ⟨id,hhalf,⟨now,hphase⟩ | ⟨now,last,hphase⟩⟩
  · rw [hphase,resumeStep] at hr
    obtain ⟨db',hins,heq⟩ := Option.map_eq_some_iff.mp hr
    cases heq
    obtain ⟨hhalf,hfk'⟩ := claimed_halfway hfree hfk hins
    exact ⟨hfk',.halfway p _ env.uuid hhalf (Function.update_self ..) (.inl ⟨env.now,rfl⟩) (phases_update hphases)⟩
  · rw [hphase,resumeStep] at hr
    cases hr
    exact ⟨hfk,.halfway p _ id hhalf (Function.update_self ..) (.inr ⟨now,_,rfl⟩) (phases_update hphases)⟩
  · rw [hphase,resumeStep] at hr
    obtain ⟨db',hins,heq⟩ := Option.map_eq_some_iff.mp hr
    cases heq
    obtain ⟨hres,hfk'⟩ := halfway_resolved hhalf hfk hins
    refine ⟨hfk',.resolved env.uuid hres fun q d hd => ?_⟩
    rcases Directory.mem_update hd with ⟨-,rfl⟩ | ⟨hq,hd⟩
    · exact .inr ⟨id,true,rfl⟩
    · exact .inl (hphases q hq d hd)

theorem SameIdentities.foreignKeys {db db' : Db} (h : SameIdentities db db') (hfk : ForeignKeys db) :
    ForeignKeys db' := by
  intro id k hk
  rw [h.subscriptions]
  exact hfk id k ((h.cursors id k).mp hk)

theorem resume_step (h : ForeignKeys t.db ∧ ResumeStage o t) (hok : ResumeOk o t a)
    (ht : t.step o a = some t') : ForeignKeys t'.db ∧ ResumeStage o t' := by
  obtain ⟨hfk,hstage⟩ := h
  cases a with
  | call p init =>
    rw [Resuming.step] at ht
    split_ifs at ht with hnone
    cases ht
    exact ⟨hfk,hstage.call (Option.not_isSome_iff_eq_none.mp hnone) init⟩
  | advance p env =>
    cases hc : t.calls p with
    | none =>
      rw [Resuming.step,hc] at ht
      cases ht
    | some c =>
      cases hreg : c.phase.registering with
      | true => exact hstage.registered hfk hc hreg ht
      | false =>
        cases hphase : c.phase with
        | lookup => exact hstage.looked hfk hc hphase hok ht
        | returned id k created =>
          rw [Resuming.step,hc] at ht
          obtain ⟨r,hr,-⟩ := Option.map_eq_some_iff.mp ht
          rw [hphase] at hr
          cases hr
        | insertSubscription => rw [hphase] at hreg; cases hreg
        | selectMax id now => rw [hphase] at hreg; cases hreg
        | insertCursor id now last => rw [hphase] at hreg; cases hreg
  | bus op =>
    rw [Resuming.step] at ht
    split_ifs at ht with hop
    obtain ⟨db,hdb,rfl⟩ := Option.map_eq_some_iff.mp ht
    have hsame := busOp_sameIdentities hdb (Bool.not_eq_true _ ▸ hop)
    exact ⟨hsame.foreignKeys hfk,hstage.bus hsame⟩

end Stages

structure OneIdentity (o : Identity) (t : Resuming) : Prop where
  same : ∀ p, ∀ c ∈ t.calls p, ∀ q, ∀ d ∈ t.calls q, ∀ i j k l a b,
    c.phase = .returned i k a → d.phase = .returned j l b → k = l
  sole : ∀ p, ∀ c ∈ t.calls p, ∀ id k created, c.phase = .returned id k created →
    (∃! s, s ∈ t.db.subscriptions ∧ o.matching s = true) ∧ implicitCursor t.db o = .ok (some k)

theorem ResumeStage.oneIdentity {o : Identity} {t : Resuming} (h : ResumeStage o t) : OneIdentity o t := by
  have hreturned : ∀ p, ∀ c ∈ t.calls p, ∀ id k created, c.phase = .returned id k created →
      ResolvedTo o t.db k := by
    intro p c hc id k created hphase
    cases h with
    | unclaimed free phases => cases (phases p c hc).symm.trans hphase
    | claimed q d free call phase phases =>
      by_cases hq : p = q
      · subst hq
        obtain rfl := Option.some.inj (call.symm.trans hc)
        cases phase.symm.trans hphase
      · cases (phases p hq c hc).symm.trans hphase
    | halfway q d id half call phase phases =>
      by_cases hq : p = q
      · subst hq
        obtain rfl := Option.some.inj (call.symm.trans hc)
        rcases phase with ⟨now,phase⟩ | ⟨now,last,phase⟩ <;> cases phase.symm.trans hphase
      · cases (phases p hq c hc).symm.trans hphase
    | resolved j res phases =>
      rcases phases p c hc with hlookup | ⟨id',created',hdone⟩
      · cases hlookup.symm.trans hphase
      · cases hdone.symm.trans hphase
        exact res
  constructor
  · intro p c hc q d hd i j k l a b hk hl
    have hfirst := implicitCursor_resolved (hreturned p c hc i k a hk)
    have hsecond := implicitCursor_resolved (hreturned q d hd j l b hl)
    exact Option.some.inj (Except.ok.inj (hfirst.symm.trans hsecond))
  · intro p c hc id k created hphase
    have hres := hreturned p c hc id k created hphase
    have hcursor := implicitCursor_resolved hres
    obtain ⟨s,hsole,-⟩ := hres
    exact ⟨⟨s,(hsole s).mpr rfl,fun x hx => (hsole x).mp hx⟩,hcursor⟩

def ResumePhase.owned : ResumePhase → Option String
  | .selectMax id _ | .insertCursor id _ _ | .returned id _ true => some id
  | _ => none

def ResumePhase.creating : ResumePhase → Bool
  | .insertSubscription | .selectMax _ _ | .insertCursor _ _ _ => true
  | .returned _ _ created => created
  | .lookup => false

structure OwnsRows (o : Identity) (t : Resuming) : Prop where
  rows : ∀ p, ∀ c ∈ t.calls p, ∀ id ∈ c.phase.owned,
    ∃ s ∈ t.db.subscriptions, o.matching s = true ∧ s.subscriptionId = id
  apart : ∀ p, ∀ c ∈ t.calls p, ∀ q, ∀ d ∈ t.calls q, ∀ id ∈ c.phase.owned, id ∈ d.phase.owned → p = q

def Rivals (t : Resuming) : Prop :=
  ∃ p q, p ≠ q ∧ (∃ c ∈ t.calls p, c.phase.creating = true) ∧ ∃ d ∈ t.calls q, d.phase.creating = true

section Rivalry

variable {o : Identity} {db db' : Db} {t t' : Resuming} {a : ResumeAction} {p : ℕ} {env : ResumeEnv}
variable {init : Option CursorInit} {phase phase' : ResumePhase}

theorem resumeStep_owned (h : resumeStep o env db init phase = some (phase',db')) :
    phase'.owned = phase.owned ∧ db'.subscriptions = db.subscriptions ∨
      ∃ now, phase'.owned = some env.uuid ∧
        insertSubscription db (subscriptionOf (o.registerOpts init) env.uuid now) = some db' := by
  cases phase with
  | lookup =>
    rw [resumeStep] at h
    split_ifs at h
    · cases h
      exact .inl ⟨rfl,rfl⟩
    · obtain ⟨r,-,heq⟩ := Option.map_eq_some_iff.mp h
      cases heq
      exact .inl ⟨rfl,rfl⟩
  | insertSubscription =>
    obtain ⟨db₁,hins,heq⟩ := Option.map_eq_some_iff.mp h
    cases heq
    exact .inr ⟨env.now,rfl,hins⟩
  | selectMax id now =>
    cases h
    exact .inl ⟨rfl,rfl⟩
  | insertCursor id now last =>
    obtain ⟨db₁,hins,heq⟩ := Option.map_eq_some_iff.mp h
    cases heq
    exact .inl ⟨rfl,(insertCursor_rows hins).2⟩
  | returned id k created => cases h

theorem resumeStep_creating (h : resumeStep o env db init phase = some (phase',db'))
    (hcreating : phase.creating = true) : phase'.creating = true := by
  cases phase with
  | lookup => cases hcreating
  | insertSubscription =>
    obtain ⟨db₁,-,heq⟩ := Option.map_eq_some_iff.mp h
    cases heq
    rfl
  | selectMax id now =>
    cases h
    rfl
  | insertCursor id now last =>
    obtain ⟨db₁,-,heq⟩ := Option.map_eq_some_iff.mp h
    cases heq
    rfl
  | returned id k created => cases h

theorem Resuming.advance_cases (h : t.step o (.advance p env) = some t') :
    ∃ c phase db, t.calls p = some c ∧ resumeStep o env t.db c.cursorInit c.phase = some (phase,db) ∧
      t' = ⟨db,Function.update t.calls p (some ⟨c.cursorInit,phase⟩)⟩ := by
  rw [Resuming.step] at h
  cases hc : t.calls p with
  | none =>
    rw [hc] at h
    cases h
  | some c =>
    rw [hc] at h
    obtain ⟨⟨phase,db⟩,hr,rfl⟩ := Option.map_eq_some_iff.mp h
    exact ⟨c,phase,db,rfl,hr,rfl⟩

theorem Resuming.call_cases (h : t.step o (.call p init) = some t') :
    t.calls p = none ∧ t' = { t with calls := Function.update t.calls p (some ⟨init,.lookup⟩) } := by
  rw [Resuming.step] at h
  split_ifs at h with hnone
  exact ⟨Option.not_isSome_iff_eq_none.mp hnone,(Option.some.inj h).symm⟩

theorem Resuming.bus_cases {op : BusOp} (h : t.step o (.bus op) = some t') :
    ∃ db, SameIdentities t.db db ∧ t' = { t with db := db } := by
  rw [Resuming.step] at h
  split_ifs at h with hop
  obtain ⟨db,hdb,rfl⟩ := Option.map_eq_some_iff.mp h
  exact ⟨db,busOp_sameIdentities hdb (Bool.not_eq_true _ ▸ hop),rfl⟩

theorem OwnsRows.owned (h : OwnsRows o t) {c : ResumeCall} (hc : t.calls p = some c)
    (hsubs : db.subscriptions = t.db.subscriptions) (howned : phase.owned = c.phase.owned) :
    OwnsRows o ⟨db,Function.update t.calls p (some ⟨init,phase⟩)⟩ := by
  have hold : ∀ q d, d ∈ Function.update t.calls p (some ⟨init,phase⟩) q →
      ∃ e ∈ t.calls q, e.phase.owned = d.phase.owned := by
    intro q d hd
    rcases Directory.mem_update hd with ⟨rfl,rfl⟩ | ⟨-,hd⟩
    · exact ⟨c,hc,howned.symm⟩
    · exact ⟨d,hd,rfl⟩
  constructor
  · intro q d hd id hid
    obtain ⟨e,he,heq⟩ := hold q d hd
    rw [hsubs]
    exact h.rows q e he id (heq ▸ hid)
  · intro q d hd r e he id hid hid'
    obtain ⟨x,hx,hdx⟩ := hold q d hd
    obtain ⟨y,hy,hey⟩ := hold r e he
    exact h.apart q x hx r y hy id (hdx ▸ hid) (hey ▸ hid')

theorem OwnsRows.inserted (h : OwnsRows o t) {now : ℤ} (howned : phase.owned = some env.uuid)
    (hins : insertSubscription t.db (subscriptionOf (o.registerOpts init) env.uuid now) = some db) :
    OwnsRows o ⟨db,Function.update t.calls p (some ⟨init,phase⟩)⟩ := by
  obtain ⟨hrows,hfresh,-⟩ := insertSubscription_rows hins
  have hunused : ∀ q, ∀ d ∈ t.calls q, env.uuid ∉ d.phase.owned := by
    intro q d hd hid
    obtain ⟨s,hs,-,heq⟩ := h.rows q d hd _ hid
    exact hfresh s hs heq
  constructor
  · intro q d hd id hid
    rcases Directory.mem_update hd with ⟨-,rfl⟩ | ⟨-,hd⟩
    · obtain rfl := Option.some.inj (howned.symm.trans hid)
      exact ⟨_,(hrows _).mpr (.inr rfl),matching_registered o init env.uuid now,rfl⟩
    · obtain ⟨s,hs,hmatch,heq⟩ := h.rows q d hd id hid
      exact ⟨s,(hrows s).mpr (.inl hs),hmatch,heq⟩
  · intro q d hd r e he id hid hid'
    rcases Directory.mem_update hd with ⟨hq,rfl⟩ | ⟨-,hold⟩ <;>
      rcases Directory.mem_update he with ⟨hr,rfl⟩ | ⟨-,hold'⟩
    · exact hq.trans hr.symm
    · obtain rfl := Option.some.inj (howned.symm.trans hid)
      exact absurd hid' (hunused r e hold')
    · obtain rfl := Option.some.inj (howned.symm.trans hid')
      exact absurd hid (hunused q d hold)
    · exact h.apart q d hold r e hold' id hid hid'

theorem ownsRows_step (h : OwnsRows o t) (ht : t.step o a = some t') : OwnsRows o t' := by
  cases a with
  | call p init =>
    obtain ⟨hnone,rfl⟩ := Resuming.call_cases ht
    constructor
    · intro q d hd id hid
      rcases Directory.mem_update hd with ⟨-,rfl⟩ | ⟨-,hd⟩
      · cases hid
      · exact h.rows q d hd id hid
    · intro q d hd r e he id hid hid'
      rcases Directory.mem_update hd with ⟨-,rfl⟩ | ⟨-,hd⟩
      · cases hid
      · rcases Directory.mem_update he with ⟨-,rfl⟩ | ⟨-,he⟩
        · cases hid'
        · exact h.apart q d hd r e he id hid hid'
  | advance p env =>
    obtain ⟨c,phase,db,hc,hr,rfl⟩ := Resuming.advance_cases ht
    rcases resumeStep_owned hr with ⟨howned,hsubs⟩ | ⟨now,howned,hins⟩
    · exact h.owned hc hsubs howned
    · exact h.inserted howned hins
  | bus op =>
    obtain ⟨db,hsame,rfl⟩ := Resuming.bus_cases ht
    refine ⟨fun p c hc id hid => ?_,h.apart⟩
    rw [hsame.subscriptions]
    exact h.rows p c hc id hid

theorem creating_step (ht : t.step o a = some t') (h : ∃ c ∈ t.calls p, c.phase.creating = true) :
    ∃ c ∈ t'.calls p, c.phase.creating = true := by
  obtain ⟨c,hc,hcreating⟩ := h
  cases a with
  | call q init =>
    obtain ⟨hnone,rfl⟩ := Resuming.call_cases ht
    have hne : p ≠ q := by
      rintro rfl
      rw [hnone] at hc
      cases hc
    exact ⟨c,(Function.update_of_ne hne _ _).trans hc,hcreating⟩
  | advance q env =>
    obtain ⟨d,phase,db,hd,hr,rfl⟩ := Resuming.advance_cases ht
    by_cases hq : p = q
    · subst hq
      obtain rfl := Option.some.inj (hd.symm.trans hc)
      exact ⟨_,Function.update_self ..,resumeStep_creating hr hcreating⟩
    · exact ⟨c,(Function.update_of_ne hq _ _).trans hc,hcreating⟩
  | bus op =>
    obtain ⟨db,-,rfl⟩ := Resuming.bus_cases ht
    exact ⟨c,hc,hcreating⟩

theorem rivals_step (ht : t.step o a = some t') (h : Rivals t) : Rivals t' := by
  obtain ⟨p,q,hne,hp,hq⟩ := h
  exact ⟨p,q,hne,creating_step ht hp,creating_step ht hq⟩

theorem ResumePhase.creating_of_registering (h : phase.registering = true) : phase.creating = true := by
  cases phase with
  | lookup => cases h
  | returned id k created => cases h
  | insertSubscription => rfl
  | selectMax id now => rfl
  | insertCursor id now last => rfl

theorem rivals_of_not_ok (ht : t.step o a = some t') (hok : ¬ ResumeOk o t a) : Rivals t' := by
  cases a with
  | call p init => exact absurd trivial hok
  | bus op => exact absurd trivial hok
  | advance p env =>
    simp only [ResumeOk,not_forall] at hok
    obtain ⟨c,hc,hlookup,hmissed,q,d,hd,hreg⟩ := hok
    have hreg : d.phase.registering = true := Bool.not_eq_false _ ▸ hreg
    have hne : p ≠ q := by
      rintro rfl
      obtain rfl := Option.some.inj (hc.symm.trans hd)
      rw [hlookup] at hreg
      cases hreg
    refine ⟨p,q,hne,?_,creating_step ht ⟨d,hd,ResumePhase.creating_of_registering hreg⟩⟩
    obtain ⟨e,phase,db,he,hr,rfl⟩ := Resuming.advance_cases ht
    obtain rfl := Option.some.inj (he.symm.trans hc)
    rw [hlookup,resumeStep,if_pos hmissed] at hr
    cases hr
    exact ⟨_,Function.update_self ..,rfl⟩

theorem rivals_or_guarded {s : Resuming} {as : List ResumeAction}
    (h : Run (Resuming.step o) (fun _ _ => True) s as t) :
    Rivals t ∨ Run (Resuming.step o) (ResumeOk o) s as t := by
  induction h with
  | nil => exact .inr .nil
  | @snoc u v as a _ _ hstep ih =>
    rcases ih with hrivals | hguarded
    · exact .inl (rivals_step hstep hrivals)
    · by_cases hok : ResumeOk o u a
      · exact .inr (.snoc hguarded hok hstep)
      · exact .inl (rivals_of_not_ok hstep hok)

def Returned (t : Resuming) : Prop := ∀ p, ∀ c ∈ t.calls p, ∃ id k created, c.phase = .returned id k created

theorem Rivals.not_oneIdentity (h : Rivals t) (hrows : OwnsRows o t) (hdone : Returned t) :
    ¬ OneIdentity o t := by
  intro hone
  obtain ⟨p,q,hne,⟨c,hc,hcreating⟩,d,hd,hcreating'⟩ := h
  obtain ⟨id,k,created,hphase⟩ := hdone p c hc
  obtain ⟨id',k',created',hphase'⟩ := hdone q d hd
  rw [hphase] at hcreating
  rw [hphase'] at hcreating'
  obtain rfl : created = true := hcreating
  obtain rfl : created' = true := hcreating'
  have howned : id ∈ c.phase.owned := by rw [hphase]; rfl
  have howned' : id' ∈ d.phase.owned := by rw [hphase']; rfl
  obtain ⟨s,hs,hmatch,hid⟩ := hrows.rows p c hc id howned
  obtain ⟨s',hs',hmatch',hid'⟩ := hrows.rows q d hd id' howned'
  have hsame := (hone.sole p c hc id k true hphase).1.unique ⟨hs,hmatch⟩ ⟨hs',hmatch'⟩
  have heq : id = id' := hid.symm.trans ((congrArg _ hsame).trans hid')
  exact hne (hrows.apart p c hc q d hd id howned (heq ▸ howned'))

end Rivalry

def IdentitySettled (o : Identity) (db : Db) : Prop := Unclaimed o db ∨ ∃ k, ResolvedTo o db k

theorem one_identity_iff_no_missed_registration {o : Identity} {db : Db} {t : Resuming} {as : List ResumeAction}
    (hfk : ForeignKeys db) (hsettled : IdentitySettled o db)
    (h : Run (Resuming.step o) (fun _ _ => True) (Resuming.start db) as t) :
    (Run (Resuming.step o) (ResumeOk o) (Resuming.start db) as t → OneIdentity o t) ∧
      (Returned t → (OneIdentity o t ↔ Run (Resuming.step o) (ResumeOk o) (Resuming.start db) as t)) := by
  have hidle : ∀ p, ∀ c ∈ (Resuming.start db).calls p, c.phase = .lookup := fun p c hc => by cases hc
  have hstart : ResumeStage o (Resuming.start db) := by
    rcases hsettled with hfree | ⟨k,hres⟩
    · exact .unclaimed hfree hidle
    · exact .resolved k hres fun p c hc => .inl (hidle p c hc)
  have hrun : Run (Resuming.step o) (ResumeOk o) (Resuming.start db) as t → OneIdentity o t := fun hguarded =>
    (hguarded.invariant (fun _ _ _ => resume_step) ⟨hfk,hstart⟩).2.oneIdentity
  have hrows : OwnsRows o t := by
    refine h.invariant (fun _ _ _ hinv _ hstep => ownsRows_step hinv hstep) ⟨?_,?_⟩
    · intro p c hc
      cases hc
    · intro p c hc
      cases hc
  refine ⟨hrun,fun hdone => ⟨fun hone => ?_,hrun⟩⟩
  rcases rivals_or_guarded h with hrivals | hguarded
  · exact absurd hone (hrivals.not_oneIdentity hrows hdone)
  · exact hguarded

def sampleIdentity : Identity := ⟨"reporter","wicked.run".toList⟩

def firstCall : List ResumeAction := [.call 0 (some .latest),.advance 0 ⟨0,5,"s1"⟩]

def sequentialResumes : List ResumeAction :=
  [.advance 0 ⟨0,5,"s1"⟩,.advance 0 ⟨0,5,"c1"⟩,.advance 0 ⟨0,5,"c1"⟩,.call 1 none,.advance 1 ⟨0,7,"s2"⟩]

def firstRegistering : Resuming :=
  ⟨.empty,Function.update (fun _ => none) 0 (some ⟨some .latest,.insertSubscription⟩)⟩

def seesNoMiss (o : Identity) (t : Resuming) : ResumeAction → Bool
  | .advance p _ => (t.calls p).all (fun c => decide (c.phase ≠ .lookup) || !(joined t.db o).isEmpty)
  | _ => true

theorem resumeOk_of_seesNoMiss {o : Identity} {t : Resuming} {a : ResumeAction} (h : seesNoMiss o t a = true) :
    ResumeOk o t a := by
  cases a with
  | advance p env =>
    intro c hc hlookup hmissed
    have hcall : t.calls p = some c := hc
    simp [seesNoMiss,hcall,hlookup,hmissed] at h
  | call p init => trivial
  | bus op => trivial

theorem one_identity_sample :
    ∃ t, Run (Resuming.step sampleIdentity) (fun _ _ => True) (Resuming.start .empty)
        (firstCall ++ sequentialResumes) t ∧
      t.calls 0 = some ⟨some .latest,.returned "s1" "c1" true⟩ ∧
      t.calls 1 = some ⟨none,.returned "s1" "c1" false⟩ ∧ OneIdentity sampleIdentity t := by
  have hexec : (exec (guarded (fun t a => seesNoMiss sampleIdentity t a = true) (Resuming.step sampleIdentity))
      firstRegistering sequentialResumes).any (fun t =>
        decide (t.calls 0 = some ⟨some .latest,.returned "s1" "c1" true⟩) &&
        decide (t.calls 1 = some ⟨none,.returned "s1" "c1" false⟩)) = true := by decide +kernel
  obtain ⟨t,ht,hobs⟩ := (Option.any_eq_true _ _).mp hexec
  simp only [Bool.and_eq_true,decide_eq_true_eq] at hobs
  have hlater : Run (Resuming.step sampleIdentity) (ResumeOk sampleIdentity) firstRegistering sequentialResumes t :=
    (run_of_guarded ht).mono fun _ _ h => resumeOk_of_seesNoMiss h
  have hfirst : Run (Resuming.step sampleIdentity) (ResumeOk sampleIdentity) (Resuming.start .empty)
      ([.call 0 (some .latest)] ++ [.advance 0 ⟨0,5,"s1"⟩]) firstRegistering := by
    refine .snoc (@Run.snoc _ _ _ _ _ _ _ [] _ .nil trivial rfl) ?_ ?_
    · intro c hc _ _ q d hd
      rcases Directory.mem_update hd with ⟨-,rfl⟩ | ⟨-,hd⟩
      · rfl
      · cases hd
    · exact congrArg (fun calls => some (Resuming.mk .empty calls)) (Function.update_idem _ _ (fun _ => none))
  have hrun := hfirst.append hlater
  have hfk : ForeignKeys .empty := by
    rintro id k ⟨c,hc,-⟩
    cases hc
  have hfree : Unclaimed sampleIdentity .empty := by
    intro s hs
    cases hs
  have hone := (one_identity_iff_no_missed_registration hfk (.inl hfree) (hrun.mono fun _ _ _ => trivial)).1 hrun
  exact ⟨t,hrun.mono fun _ _ _ => trivial,hobs.1,hobs.2,hone⟩

def racingResumes : List ResumeAction :=
  [.call 0 (some .latest),.call 1 (some .latest),.advance 0 ⟨0,5,"s1"⟩,.advance 1 ⟨0,5,"s2"⟩,
    .advance 0 ⟨0,5,"s1"⟩,.advance 0 ⟨0,5,"c1"⟩,.advance 0 ⟨0,5,"c1"⟩,
    .advance 1 ⟨0,6,"s2"⟩,.advance 1 ⟨0,6,"c2"⟩,.advance 1 ⟨0,6,"c2"⟩]

theorem two_identities_registered :
    ∃ t, Run (Resuming.step sampleIdentity) (fun _ _ => True) (Resuming.start .empty) racingResumes t ∧
      t.calls 0 = some ⟨some .latest,.returned "s1" "c1" true⟩ ∧
      t.calls 1 = some ⟨some .latest,.returned "s2" "c2" true⟩ ∧
      implicitCursor t.db sampleIdentity = .error (.invalidEventSchema "ambiguous subscription") ∧
      ¬ OneIdentity sampleIdentity t := by
  have hexec : (exec (Resuming.step sampleIdentity) (Resuming.start .empty) racingResumes).any (fun t =>
      decide (t.calls 0 = some ⟨some .latest,.returned "s1" "c1" true⟩) &&
      decide (t.calls 1 = some ⟨some .latest,.returned "s2" "c2" true⟩) &&
      decide (2 ≤ (joined t.db sampleIdentity).length)) = true := by decide +kernel
  obtain ⟨t,ht,hobs⟩ := (Option.any_eq_true _ _).mp hexec
  simp only [Bool.and_eq_true,decide_eq_true_eq] at hobs
  obtain ⟨⟨hfirst,hsecond⟩,hlength⟩ := hobs
  have hambiguous : implicitCursor t.db sampleIdentity = .error (.invalidEventSchema "ambiguous subscription") := by
    unfold implicitCursor
    split
    · rename_i hnil
      rw [hnil] at hlength
      cases hlength
    · rename_i r hsingle
      rw [hsingle] at hlength
      simp at hlength
    · rfl
  refine ⟨t,run_of_exec ht,hfirst,hsecond,hambiguous,fun hone => ?_⟩
  have hsame := hone.same 0 _ hfirst 1 _ hsecond "s1" "s2" "c1" "c2" true true rfl rfl
  exact absurd hsame (by decide)

end WickedBus
