import WickedBus.DedupWindow
import WickedBus.AtLeastOnce

namespace WickedBus

open GuardedRun

def releasedKeys (x : EventRow) (uuids : List String) : String :=
  uuids.foldl (fun key uuid => releasedKey { x with idempotencyKey := key } uuid) x.idempotencyKey

def Reuses (x y : EventRow) : Prop :=
  y.idempotencyKey = x.idempotencyKey ∧ x.dedupExpiresAt < y.emittedAt

structure Conveys (later : List EventRow) (x e : EventRow) : Prop where
  fixed : e.fixedPart = x.fixedPart
  key : e.idempotencyKey = x.idempotencyKey ↔ ¬ ∃ y ∈ later, Reuses x y
  taken : e.idempotencyKey = x.idempotencyKey → ∀ y ∈ later, y.idempotencyKey ≠ x.idempotencyKey
  released : ∃ uuids, e.idempotencyKey = releasedKeys x uuids

section Keys

variable {x e holder : EventRow}

theorem releasedKey_congr (hid : holder.eventId = x.eventId) (uuid : String) :
    releasedKey holder uuid = releasedKey { x with idempotencyKey := holder.idempotencyKey } uuid := by
  simp only [releasedKey,hid]

theorem releasedKey_longer (holder : EventRow) (uuid : String) :
    holder.idempotencyKey.length < (releasedKey holder uuid).length := by
  have hmark : "#dedup-expired:".length = 15 := by decide
  simp only [releasedKey,String.length_append,hmark]
  omega

theorem releasedKeys_snoc (x : EventRow) (uuids : List String) (uuid : String) :
    releasedKeys x (uuids ++ [uuid]) = releasedKey { x with idempotencyKey := releasedKeys x uuids } uuid := by
  rw [releasedKeys,List.foldl_append]
  rfl

theorem releasedKeys_longer (x : EventRow) (uuids : List String) :
    x.idempotencyKey.length ≤ (releasedKeys x uuids).length := by
  induction uuids using List.reverseRecOn with
  | nil => exact le_rfl
  | append_singleton uuids uuid ih =>
    rw [releasedKeys_snoc]
    exact ih.trans (releasedKey_longer { x with idempotencyKey := releasedKeys x uuids } uuid).le

theorem Conveys.refl (x : EventRow) : Conveys [] x x where
  fixed := rfl
  key := iff_of_true rfl (by simp)
  taken _ _ hy := absurd hy List.not_mem_nil
  released := ⟨[],rfl⟩

end Keys

section Emit

variable {later : List EventRow} {x e y holder : EventRow}

theorem exists_later_snoc : (∃ z ∈ later ++ [y], Reuses x z) ↔ (∃ z ∈ later, Reuses x z) ∨ Reuses x y := by
  simp [or_and_right,exists_or]

theorem Conveys.untouched (h : Conveys later x e) (hkey : e.idempotencyKey ≠ y.idempotencyKey) :
    Conveys (later ++ [y]) x e := by
  have hfree : e.idempotencyKey = x.idempotencyKey → y.idempotencyKey ≠ x.idempotencyKey :=
    fun heq hy => hkey (heq.trans hy.symm)
  refine ⟨h.fixed,?_,fun heq z hz => ?_,h.released⟩
  · rw [exists_later_snoc,not_or,← h.key]
    exact ⟨fun heq => ⟨heq,fun hy => hfree heq hy.1⟩,And.left⟩
  · rcases List.mem_append.mp hz with hz | hz
    · exact h.taken heq z hz
    · rw [List.mem_singleton.mp hz]
      exact hfree heq

theorem Conveys.release (h : Conveys later x e) (hkey : e.idempotencyKey = y.idempotencyKey)
    (hopen : e.dedupExpiresAt < y.emittedAt) (uuid : String) :
    Conveys (later ++ [y]) x { e with idempotencyKey := releasedKey e uuid } := by
  obtain ⟨uuids,hreleased⟩ := h.released
  have hid : e.eventId = x.eventId := eventId_of_fixedPart h.fixed
  have hchanged : releasedKey e uuid ≠ x.idempotencyKey := by
    intro heq
    have hlonger := releasedKey_longer e uuid
    have hold := releasedKeys_longer x uuids
    rw [heq,hreleased] at hlonger
    exact absurd hlonger (not_lt.mpr hold)
  have hreused : ∃ z ∈ later ++ [y], Reuses x z := by
    rw [exists_later_snoc]
    by_cases hown : e.idempotencyKey = x.idempotencyKey
    · have hsame : e.dedupExpiresAt = x.dedupExpiresAt := (congrArg EventRow.dedupExpiresAt h.fixed :)
      exact .inr ⟨hkey.symm.trans hown,hsame ▸ hopen⟩
    · exact .inl (not_not.mp fun hnone => hown (h.key.mpr hnone))
  refine ⟨h.fixed,iff_of_false hchanged (not_not.mpr hreused),fun heq => absurd heq hchanged,uuids ++ [uuid],?_⟩
  rw [releasedKeys_snoc,← hreleased]
  exact releasedKey_congr hid uuid

theorem Conveys.emit {db db' : Db} {params : NewEvent} {uuid : String} (h : Conveys later x e)
    (hemit : emitParamsInto db params uuid = .ok db') (he : e ∈ db.events) {e' : EventRow} (he' : e' ∈ db'.events)
    (hid : e'.eventId = e.eventId) : Conveys (later ++ [params.row (db.eventSeq + 1)]) x e' := by
  have hold : e.eventId ≤ db.eventSeq := db.events_le_seq e he
  rcases emitParamsInto_cases hemit with ⟨hnone,rfl⟩ | ⟨holder,hholder,hopen,hsole,rfl⟩
  · rcases mem_appendEvent.mp he' with he' | rfl
    · obtain rfl := KeyedTable.eq_of_key he' he hid
      exact h.untouched (keyHolder_none hnone e' he)
    · rw [NewEvent.row_eventId] at hid
      omega
  · rcases mem_appendEvent.mp he' with he' | rfl
    · obtain ⟨old,hmem,rfl⟩ := mem_renameKey.mp he'
      unfold renameRow at hid ⊢
      split_ifs at hid ⊢ with hheld
      · obtain rfl := KeyedTable.eq_of_key hmem he hid
        obtain ⟨hin,hkey⟩ := keyHolder_some hholder
        obtain rfl := KeyedTable.eq_of_key hmem hin hheld
        exact h.release hkey hopen uuid
      · obtain rfl := KeyedTable.eq_of_key hmem he hid
        exact h.untouched fun hkey => hheld (hsole old hmem hkey)
    · rw [NewEvent.row_eventId] at hid
      have : db.eventSeq = (renameKey db holder.eventId (releasedKey holder uuid)).eventSeq := rfl
      omega

end Emit

section Steps

variable {host : EmitHost} {t t' : EmitSystem} {a : EmitAction} {later : List EventRow} {x e e' : EventRow}

theorem Conveys.step (h : Conveys later x e) (hstep : t.step host a = some t') (he : e ∈ t.world.bus.events)
    (he' : e' ∈ t'.world.bus.events) (hid : e'.eventId = e.eventId) :
    ∃ new, t'.world.log = t.world.log ++ new ∧ Conveys (later ++ new) x e' := by
  rcases EmitSystem.step_shrinks hstep with ⟨params,uuid,hemit,hlog,-⟩ | ⟨hshrinks,-⟩
  · exact ⟨_,hlog,h.emit hemit he he' hid⟩
  · obtain rfl := KeyedTable.eq_of_key (hshrinks.rows e' he') he hid
    exact ⟨[],by rw [hshrinks.log,List.append_nil],by rwa [List.append_nil]⟩

theorem EmitSystem.step_origin (hstep : t.step host a = some t') (he' : e' ∈ t'.world.bus.events) :
    (∃ e ∈ t.world.bus.events, e'.eventId = e.eventId) ∨
      (t'.world.log = t.world.log ++ [e'] ∧ t.world.bus.eventSeq < e'.eventId) := by
  rcases EmitSystem.step_shrinks hstep with ⟨params,uuid,hemit,hlog,-⟩ | ⟨hshrinks,-⟩
  · obtain ⟨rename,hrewrites⟩ := emit_rewrites hemit
    rcases (hrewrites.rows e').mp he' with rfl | ⟨old,hold,rfl⟩
    · exact .inr ⟨hlog,Int.lt_succ t.world.bus.eventSeq⟩
    · refine .inl ⟨old,hold,?_⟩
      rcases hrewrites.renamed old hold with hsame | ⟨-,-,key,hkey⟩
      · rw [hsame]
      · rw [hkey]
  · exact .inl ⟨e',hshrinks.rows e' he',rfl⟩

theorem conveys_of_run {ok : EmitSystem → EmitAction → Prop} {as : List EmitAction}
    (hrun : Run (EmitSystem.step host) ok t as t') (he : e ∈ t.world.bus.events) (he' : e' ∈ t'.world.bus.events)
    (hid : e'.eventId = e.eventId) : ∃ later, t'.world.log = t.world.log ++ later ∧ Conveys later e e' := by
  induction hrun generalizing e' with
  | nil =>
    obtain rfl := KeyedTable.eq_of_key he' he hid
    exact ⟨[],(List.append_nil _).symm,.refl e'⟩
  | @snoc u v as a hrun _ hstep ih =>
    rcases EmitSystem.step_origin hstep he' with ⟨m,hm,hmid⟩ | ⟨-,hnew⟩
    · obtain ⟨later,hlog,hconveys⟩ := ih hm (hmid.symm.trans hid)
      obtain ⟨new,hlog',hconveys'⟩ := hconveys.step hstep hm he' hmid
      exact ⟨later ++ new,by rw [hlog',hlog,List.append_assoc],hconveys'⟩
    · have hgrown : t.world.bus.eventSeq ≤ u.world.bus.eventSeq :=
        hrun.invariant (I := fun u => t.world.bus.eventSeq ≤ u.world.bus.eventSeq)
          (fun _ _ _ hle _ hs => hle.trans (EmitSystem.step_grows hs).1) le_rfl
      have hold := t.world.bus.events_le_seq e he
      omega

structure AcceptedOnce (w : World) : Prop where
  ids : w.log.Pairwise (fun r s => r.eventId < s.eventId)
  bound : ∀ r ∈ w.log, r.eventId ≤ w.bus.eventSeq
  conveys : ∀ e ∈ w.bus.events, ∃ before x after, w.log = before ++ x :: after ∧ Conveys after x e

theorem AcceptedOnce.start (archive : Archive) : AcceptedOnce (World.start .empty archive) where
  ids := .nil
  bound _ hr := absurd hr List.not_mem_nil
  conveys _ he := absurd he List.not_mem_nil

theorem AcceptedOnce.step (h : AcceptedOnce t.world) (hstep : t.step host a = some t') :
    AcceptedOnce t'.world := by
  refine ⟨?_,?_,fun e' he' => ?_⟩
  · rcases EmitSystem.step_shrinks hstep with ⟨params,uuid,-,hlog,-⟩ | ⟨hshrinks,-⟩
    · rw [hlog,List.pairwise_append]
      refine ⟨h.ids,List.pairwise_singleton _ _,fun r hr s hs => ?_⟩
      rw [List.mem_singleton.mp hs,NewEvent.row_eventId]
      exact Int.lt_add_one_of_le (h.bound r hr)
    · exact hshrinks.log.symm ▸ h.ids
  · rcases EmitSystem.step_shrinks hstep with ⟨params,uuid,hemit,hlog,-⟩ | ⟨hshrinks,-⟩
    · rw [hlog,emit_eventSeq hemit]
      intro r hr
      rcases List.mem_append.mp hr with hr | hr
      · exact (h.bound r hr).trans (Int.le_add_one le_rfl)
      · rw [List.mem_singleton.mp hr,NewEvent.row_eventId]
    · rw [hshrinks.log]
      exact fun r hr => (h.bound r hr).trans (EmitSystem.step_grows hstep).1
  · rcases EmitSystem.step_origin hstep he' with ⟨e,he,hid⟩ | ⟨hlog,-⟩
    · obtain ⟨before,x,after,hlog,hconveys⟩ := h.conveys e he
      obtain ⟨new,hlog',hconveys'⟩ := hconveys.step hstep he he' hid
      exact ⟨before,x,after ++ new,by rw [hlog',hlog,List.append_assoc,List.cons_append],hconveys'⟩
    · exact ⟨t.world.log,e',[],hlog,.refl e'⟩

end Steps

theorem mem_of_poll {db : Db} {cursorId : String} {batchSize : ℕ} {afterEventId : Option ℤ}
    {batch : List EventRow} (h : poll db cursorId batchSize afterEventId = .ok batch) :
    ∀ e ∈ batch, e ∈ db.events := by
  obtain ⟨cursor,-,h⟩ := bind_eq_ok.mp h
  obtain ⟨-,-,h⟩ := bind_eq_ok.mp h
  obtain ⟨filter,-,h⟩ := bind_eq_ok.mp h
  obtain rfl := Except.ok.inj h
  exact fun e he => (mem_pollSelect he).1

def PolledFrom (db : Db) (e : EventRow) : Prop :=
  ∃ cursorId batchSize afterEventId batch, poll db cursorId batchSize afterEventId = .ok batch ∧ e ∈ batch

theorem delivered_as_accepted {host : EmitHost} {archive : Archive} {as bs : List EmitAction} {t t' : EmitSystem}
    (hrun : Run (EmitSystem.step host) (fun _ _ => True) (.start .empty archive) as t)
    (hmore : Run (EmitSystem.step host) (fun _ _ => True) t bs t') {e : EventRow} (he : PolledFrom t.world.bus e) :
    (∃ before x after, t.world.log = before ++ x :: after ∧ (∀ r ∈ before ++ after, r.eventId ≠ x.eventId) ∧
      Conveys after x e) ∧
    ∀ e', PolledFrom t'.world.bus e' → e'.eventId = e.eventId →
      ∃ later, t'.world.log = t.world.log ++ later ∧ Conveys later e e' := by
  have h : AcceptedOnce t.world :=
    hrun.invariant (I := fun t => AcceptedOnce t.world) (fun _ _ _ hu _ hs => hu.step hs) (.start archive)
  obtain ⟨_,_,_,batch,hpoll,hmem⟩ := he
  have hlive : e ∈ t.world.bus.events := mem_of_poll hpoll e hmem
  refine ⟨?_,fun e' he' hid => ?_⟩
  · obtain ⟨before,x,after,hlog,hconveys⟩ := h.conveys e hlive
    refine ⟨before,x,after,hlog,fun r hr => ?_,hconveys⟩
    have hids := h.ids
    rw [hlog,List.pairwise_append] at hids
    obtain ⟨-,hafter,hbefore⟩ := hids
    rcases List.mem_append.mp hr with hr | hr
    · exact (hbefore r hr x List.mem_cons_self).ne
    · exact ((List.pairwise_cons.mp hafter).1 r hr).ne'
  · obtain ⟨_,_,_,batch',hpoll',hmem'⟩ := he'
    exact conveys_of_run hmore hlive (mem_of_poll hpoll' e' hmem') hid

def polledRows (db : Db) (cursorId : String) : List EventRow := (poll db cursorId 10 none).toOption.getD []

theorem polledFrom_of_rows {db : Db} {cursorId : String} {e : EventRow} (h : e ∈ polledRows db cursorId) :
    PolledFrom db e := by
  unfold polledRows at h
  cases hpoll : poll db cursorId 10 none with
  | error err =>
    rw [hpoll] at h
    cases h
  | ok batch =>
    rw [hpoll] at h
    exact ⟨cursorId,10,none,batch,hpoll,h⟩

def runInput : EventInput := { sampleInput with eventType := .text "wicked.run".toList }

def emitOnce : List EmitAction :=
  registeredWorld.map EmitAction.world ++ .call 0 (callWith runInput) :: emitAt 0 1000 3

def emitAfterWindow : List EmitAction := .call 1 (callWith runInput) :: emitAt 1 90000000 4

def renamedOnRedelivery (t : EmitSystem) : Bool :=
  (exec (EmitSystem.step sampleHost) t emitAfterWindow).any (fun t' =>
    (polledRows t.world.bus "c1").any (fun e => decide (e ∈ t.world.log) &&
      (polledRows t'.world.bus "c1").any (fun e' => decide (e'.eventId = e.eventId) &&
        decide (e'.idempotencyKey ≠ e.idempotencyKey))))

theorem emit_twice_runs :
    ∃ t t', Run (EmitSystem.step sampleHost) (fun _ _ => True) (.start .empty .empty) emitOnce t ∧
      Run (EmitSystem.step sampleHost) (fun _ _ => True) t emitAfterWindow t' ∧
      ∃ e ∈ polledRows t.world.bus "c1", e ∈ t.world.log ∧
        ∃ e' ∈ polledRows t'.world.bus "c1", e'.eventId = e.eventId ∧ e'.idempotencyKey ≠ e.idempotencyKey := by
  have hexec : (exec (EmitSystem.step sampleHost) (.start .empty .empty) emitOnce).any renamedOnRedelivery =
      true := by decide +kernel
  obtain ⟨t,ht,hobs⟩ := (Option.any_eq_true _ _).mp hexec
  obtain ⟨t',ht',hobs⟩ := (Option.any_eq_true _ _).mp hobs
  simp only [List.any_eq_true,Bool.and_eq_true,decide_eq_true_eq] at hobs
  exact ⟨t,t',run_of_exec ht,run_of_exec ht',hobs⟩

theorem redelivered_under_other_key :
    ∃ t t', Run (EmitSystem.step sampleHost) (fun _ _ => True) (.start .empty .empty) emitOnce t ∧
      Run (EmitSystem.step sampleHost) (fun _ _ => True) t emitAfterWindow t' ∧
      ∃ e e', e ∈ t.world.log ∧ PolledFrom t.world.bus e ∧ PolledFrom t'.world.bus e' ∧
        e'.eventId = e.eventId ∧ e'.idempotencyKey ≠ e.idempotencyKey := by
  obtain ⟨t,t',hrun,hmore,e,he,haccepted,e',he',hid,hkey⟩ := emit_twice_runs
  exact ⟨t,t',hrun,hmore,e,e',haccepted,polledFrom_of_rows he,polledFrom_of_rows he',hid,hkey⟩

theorem delivered_as_accepted_sample :
    ∃ t t' : EmitSystem, ∃ e e' before x after later, PolledFrom t.world.bus e ∧ PolledFrom t'.world.bus e' ∧
      t.world.log = before ++ x :: after ∧ Conveys after x e ∧ t'.world.log = t.world.log ++ later ∧
      Conveys later e e' ∧ e'.idempotencyKey ≠ e.idempotencyKey := by
  obtain ⟨t,t',hrun,hmore,e,he,-,e',he',hid,hkey⟩ := emit_twice_runs
  have hpoll := polledFrom_of_rows he
  have hpoll' := polledFrom_of_rows he'
  obtain ⟨⟨before,x,after,hlog,-,hconveys⟩,hlater⟩ := delivered_as_accepted hrun hmore hpoll
  obtain ⟨later,hlog',hconveys'⟩ := hlater e' hpoll' hid
  exact ⟨t,t',e,e',before,x,after,later,hpoll,hpoll',hlog,hconveys,hlog',hconveys',hkey⟩

end WickedBus
