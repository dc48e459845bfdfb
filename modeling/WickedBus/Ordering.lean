import WickedBus.Stopping
import WickedBus.TickEffect

namespace WickedBus

open GuardedRun
open WickedBus.Filter (Text)

def Before : LoopEvent → LoopEvent → Prop
  | .invoked i, .invoked j => i ≤ j
  | .acked k, .invoked j => k < j
  | .reanchored k, .invoked j => k < j
  | _, _ => True

def Moved (trace : List LoopEvent) (k : ℤ) : Prop := .acked k ∈ trace ∨ .reanchored k ∈ trace

def Clear (filter : Text) (db : Db) (last i : ℤ) : Prop :=
  ∀ x ∈ db.live, x.matchesSql filter = true → last < x.eventId → i ≤ x.eventId

structure Placed (cursorId : String) (filter : Text) (db : Db) (last : ℤ) : Prop where
  cursor : ∃ c, db.cursors.get? cursorId = some c ∧ c.lastEventId = last ∧ HasFilter filter db c.subscriptionId

structure Told (cursorId : String) (filter : Text) (db : Db) (trace : List LoopEvent) (last : ℤ) : Prop where
  placed : Placed cursorId filter db last
  order : trace.Pairwise Before
  moved : ∀ k, Moved trace k → k ≤ last
  invoked : ∀ i, .invoked i ∈ trace → i ≤ db.eventSeq ∧ (i ≤ last ∨ Clear filter db last i)

structure BatchAt (filter : Text) (db : Db) (trace : List LoopEvent) (last : ℤ) (batch : List EventRow) : Prop where
  sorted : batch.Pairwise (fun a b => a.eventId < b.eventId)
  above : ∀ e ∈ batch, last < e.eventId
  le : ∀ e ∈ batch, e.eventId ≤ db.eventSeq
  cover : ∀ x ∈ db.live, x.matchesSql filter = true → last < x.eventId →
    (∃ e ∈ batch, e.eventId = x.eventId) ∨ ∀ e ∈ batch, e.eventId < x.eventId
  after : ∀ i, .invoked i ∈ trace → ∀ e ∈ batch, i ≤ e.eventId

structure Behind (db : Db) (last lastEventId oldest : ℤ) : Prop where
  position : lastEventId = last
  gap : last < oldest - 1
  bound : oldest ≤ db.eventSeq
  oldest : ∀ x ∈ db.live, oldest ≤ x.eventId

structure PointAt (filter : Text) (db : Db) (trace : List LoopEvent) (last : ℤ) (p : TickPoint) : Prop where
  read : ReadAt filter db last p
  window : Carries (Behind db last) p
  batch : BatchAt filter db trace last p.batch

structure InOrder (cfg : SubscriberConfig) (filter : Text) (l : Lane) (last : ℤ) : Prop where
  told : Told cfg.cursorId filter l.world.bus l.trace last
  point : ∀ p ∈ l.point, PointAt filter l.world.bus l.trace last p

def SoleWriter (cfg : SubscriberConfig) (l : Lane) : HostAction → Prop
  | .world a => ∀ w, l.world.step a = some w →
      w.bus.cursors.get? cfg.cursorId = l.world.bus.cursors.get? cfg.cursorId
  | _ => True

section World

variable {w w' : World} {filter : Text} {subscriptionId : String}

theorem deregisterOne_filter (now : ℤ) (db : Db) (sub : SubscriptionRow) (h : HasFilter filter db subscriptionId) :
    HasFilter filter (deregisterOne now db sub) subscriptionId := by
  obtain ⟨s,hs,hfilter⟩ := h
  obtain ⟨hmem,hkey⟩ := KeyedTable.get?_eq_some.mp hs
  have hupdate : HasFilter filter (updateSubscription db sub.subscriptionId now) subscriptionId := by
    have hrow : ∀ r ∈ (updateSubscription db sub.subscriptionId now).subscriptions, r.subscriptionId = subscriptionId →
        (updateSubscription db sub.subscriptionId now).subscriptions.get? subscriptionId = some r :=
      fun r hr hk => KeyedTable.get?_eq_some.mpr ⟨hr,hk⟩
    simp only [updateSubscription,KeyedTable.mem_map] at hrow
    by_cases hk : s.subscriptionId = sub.subscriptionId
    · exact ⟨{ s with deregisteredAt := some now },hrow _ ⟨s,hmem,if_pos hk⟩ hkey,hfilter⟩
    · exact ⟨s,hrow _ ⟨s,hmem,if_neg hk⟩ hkey,hfilter⟩
  unfold deregisterOne
  cases sub.role <;> exact hupdate

theorem HasFilter.same {db db' : Db} (h : HasFilter filter db subscriptionId)
    (hsubs : db'.subscriptions = db.subscriptions) : HasFilter filter db' subscriptionId := by
  unfold HasFilter
  rwa [hsubs]

theorem busOp_filter {db db' : Db} {op : BusOp} (hop : op.apply db = some db')
    (h : HasFilter filter db subscriptionId) : HasFilter filter db' subscriptionId := by
  cases op with
  | emit params uuid => exact h.same (emit_frame (toOption_eq_some.mp hop)).subscriptions
  | sweep config clock =>
    obtain ⟨⟨_,result⟩,hr,rfl⟩ := Option.map_eq_some_iff.mp hop
    obtain ⟨policy,capDays,-,-,rfl⟩ := runSweep_ok (toOption_eq_some.mp hr)
    exact h.same (sweepTransaction_frame _ _ _ _ _).1.subscriptions
  | insertSubscription row =>
    rw [insertSubscription_ok hop]
    obtain ⟨s,hs,hfilter⟩ := h
    obtain ⟨hmem,hkey⟩ := KeyedTable.get?_eq_some.mp hs
    exact ⟨s,KeyedTable.get?_eq_some.mpr ⟨KeyedTable.mem_insertOrIgnore.mpr (.inl hmem),hkey⟩,hfilter⟩
  | insertCursor row =>
    rw [insertCursor_ok hop]
    exact h.same rfl
  | deregister id now =>
    obtain ⟨sub,rfl⟩ := deregister_ok (toOption_eq_some.mp hop)
    exact deregisterOne_filter now db sub h
  | deregisterByPlugin plugin role now =>
    obtain ⟨subs,rfl⟩ := deregisterByPlugin_ok (toOption_eq_some.mp hop)
    exact List.foldlRecOn subs (deregisterOne now) h fun db ih sub _ => deregisterOne_filter now db sub ih
  | moveCursor cursorId pos now =>
    rw [moveCursor_ok (toOption_eq_some.mp hop)]
    exact h.same rfl
  | replayCursor cursorId pos =>
    cases hop
    exact h.same rfl
  | upsertDeliveryAttempt row =>
    rw [upsertDeliveryAttempt_ok hop]
    exact h.same rfl
  | deleteDeliveryAttempt cursorId eventId =>
    cases hop
    exact h.same rfl
  | moveToDeadLetter cursorId subscriptionId event attempts reason now =>
    rw [moveToDeadLetter_ok hop]
    exact h.same rfl
  | replayDeadLetter dlId now =>
    rw [replayDeadLetter_ok (toOption_eq_some.mp hop)]
    exact h.same rfl
  | dropDeadLetter dlId =>
    rw [dropDeadLetter_ok (toOption_eq_some.mp hop)]
    exact h.same rfl
  | failReplay dlId lastError =>
    cases hop
    exact h.same rfl

theorem World.step_filter {a : Action} (hstep : w.step a = some w') (h : HasFilter filter w.bus subscriptionId) :
    HasFilter filter w'.bus subscriptionId := by
  cases a with
  | bus op =>
    obtain ⟨db,hop,rfl⟩ := Option.map_eq_some_iff.mp hstep
    exact busOp_filter hop h
  | beginSweep p config clock =>
    obtain ⟨cfg,-,-,rfl⟩ := World.step_begin hstep
    exact h
  | sweep p env =>
    obtain ⟨s,hs,rfl⟩ := World.step_sweep hstep
    have hsubs : (sweeperStep env s.cfg w.bus w.archive s.phase).bus.subscriptions = w.bus.subscriptions := by
      rcases sweeperStep_bus env s.cfg w.bus w.archive s.phase with hb | ⟨ids,-,hb⟩ | ⟨moved,-,hb⟩ <;>
        rw [hb] <;> rfl
    exact h.same hsubs
  | crash p =>
    cases hstep
    exact h

end World

section Told

variable {cursorId : String} {filter : Text} {db db' : Db} {trace es : List LoopEvent} {last pos now : ℤ}
variable {p : TickPoint}

theorem Placed.pollCursor (h : Placed cursorId filter db last) {c : CursorRow}
    (hc : pollCursor db cursorId = .ok c) : c.lastEventId = last ∧ HasFilter filter db c.subscriptionId := by
  obtain ⟨d,hd,hlast,hfilter⟩ := h.cursor
  obtain ⟨hmem,hkey,-⟩ := pollCursor_ok.mp hc
  rw [KeyedTable.get?_eq_some.mpr ⟨hmem,hkey⟩] at hd
  obtain rfl := Option.some.inj hd
  exact ⟨hlast,hfilter⟩

theorem Placed.same (h : Placed cursorId filter db last) (hrows : SameRows db db') :
    Placed cursorId filter db' last := by
  obtain ⟨c,hc,hlast,hfilter⟩ := h.cursor
  exact ⟨c,by rw [hrows.cursors,hc],hlast,hfilter.same hrows.subscriptions⟩

theorem Placed.move (h : Placed cursorId filter db last) (hmove : moveCursor db cursorId pos now = .ok db') :
    Placed cursorId filter db' pos := by
  obtain ⟨c,hc,-,hfilter⟩ := h.cursor
  obtain ⟨hmem,hkey⟩ := KeyedTable.get?_eq_some.mp hc
  have hactive : c.cursorId = cursorId ∧ c.deregisteredAt = none := by
    unfold moveCursor at hmove
    split_ifs at hmove with hany
    obtain ⟨d,hd,hdk⟩ := List.any_eq_true.mp hany
    obtain ⟨hdk,hdd⟩ := of_decide_eq_true hdk
    obtain rfl := KeyedTable.eq_of_key (t := db.cursors) hd hmem (hdk.trans hkey.symm)
    exact ⟨hdk,hdd⟩
  rw [moveCursor_ok hmove]
  refine ⟨c.moveTo pos now,KeyedTable.get?_eq_some.mpr ⟨?_,hkey⟩,rfl,hfilter.same rfl⟩
  exact mem_updateCursors.mpr ⟨c,hmem,if_pos hactive⟩

theorem Oldest.bound {oldest : ℤ} (h : Oldest db oldest) : oldest ≤ db.eventSeq := by
  obtain ⟨_,⟨x,hx,rfl⟩,rfl⟩ := h.live
  exact db.events_le_seq x hx

theorem before_of_uninvoked {a b : LoopEvent} (hb : ∀ i, b ≠ .invoked i) : Before a b := by
  cases b with
  | invoked i => exact absurd rfl (hb i)
  | _ => cases a <;> trivial

theorem order_append (h : trace.Pairwise Before) (hes : ∀ e ∈ es, ∀ i, e ≠ .invoked i) :
    (trace ++ es).Pairwise Before := by
  refine List.pairwise_append.mpr ⟨h,?_,fun a _ b hb => before_of_uninvoked (hes b hb)⟩
  exact List.pairwise_of_forall_mem_list fun a _ b hb => before_of_uninvoked (hes b hb)

theorem mem_append_still (hes : ∀ e ∈ es, e.positions = false) {e : LoopEvent} (he : e.positions = true)
    (hmem : e ∈ trace ++ es) : e ∈ trace := by
  rcases List.mem_append.mp hmem with hmem | hmem
  · exact hmem
  · rw [hes e hmem] at he
    cases he

theorem Told.still (h : Told cursorId filter db trace last) (rows : SameRows db db')
    (events : ∀ e ∈ es, e.positions = false) : Told cursorId filter db' (trace ++ es) last := by
  refine ⟨h.placed.same rows,order_append h.order ?_,fun k hk => h.moved k ?_,fun i hi => ?_⟩
  · rintro e he i rfl
    cases events _ he
  · exact hk.imp (mem_append_still events rfl) (mem_append_still events rfl)
  · obtain ⟨hseq,hplace⟩ := h.invoked i (mem_append_still events rfl hi)
    exact ⟨rows.eventSeq ▸ hseq,hplace.imp_right fun hclear x hx => hclear x (rows.live ▸ hx)⟩

theorem ReadAt.same (h : ReadAt filter db last p) (hrows : SameRows db db') : ReadAt filter db' last p := by
  cases p with
  | selectMin cursor => exact ⟨h.1,h.2.same hrows.subscriptions⟩
  | selectFilter cursor => exact ⟨h.1,h.2.same hrows.subscriptions⟩
  | selectEvents f lastEventId => exact h
  | _ => trivial

theorem Behind.same {lastEventId oldest : ℤ} (h : Behind db last lastEventId oldest) (hsame : SameEvents db db') :
    Behind db' last lastEventId oldest :=
  ⟨h.position,h.gap,hsame.eventSeq ▸ h.bound,hsame.live ▸ h.oldest⟩

theorem BatchAt.nil : BatchAt filter db trace last [] := ⟨.nil,by simp,by simp,fun _ _ _ _ => .inr (by simp),by simp⟩

theorem BatchAt.same {batch : List EventRow} (h : BatchAt filter db trace last batch) (hsame : SameEvents db db')
    (hes : ∀ e ∈ es, ∀ i, e ≠ .invoked i) : BatchAt filter db' (trace ++ es) last batch := by
  refine ⟨h.sorted,h.above,fun e he => hsame.eventSeq ▸ h.le e he,fun x hx => h.cover x (hsame.live ▸ hx),
    fun i hi => h.after i ?_⟩
  exact (List.mem_append.mp hi).resolve_right fun hnew => hes _ hnew i rfl

theorem PointAt.still (h : PointAt filter db trace last p) (rows : SameRows db db')
    (events : ∀ e ∈ es, e.positions = false) : PointAt filter db' (trace ++ es) last p := by
  refine ⟨h.read.same rows,h.window.mono fun _ _ hb => hb.same rows.toSameEvents,
    h.batch.same rows.toSameEvents ?_⟩
  rintro e he i rfl
  cases events _ he

theorem Told.reposition (h : Told cursorId filter db trace last) (hpos : last ≤ pos)
    (moved : moveCursor db cursorId pos now = .ok db') (hes : ∀ e ∈ es, ∀ i, e ≠ .invoked i)
    (hto : ∀ k, Moved es k → k = pos) : Told cursorId filter db' (trace ++ es) pos := by
  have hsame := moveCursor_sameEvents moved
  refine ⟨h.placed.move moved,order_append h.order hes,fun k hk => ?_,fun i hi => ?_⟩
  · have hsplit : Moved trace k ∨ Moved es k := by
      rcases hk with hk | hk <;> rcases List.mem_append.mp hk with hold | hnew
      · exact .inl (.inl hold)
      · exact .inr (.inl hnew)
      · exact .inl (.inr hold)
      · exact .inr (.inr hnew)
    rcases hsplit with hold | hnew
    · exact (h.moved k hold).trans hpos
    · exact (hto k hnew).le
  · obtain ⟨hseq,hplace⟩ := h.invoked i
      ((List.mem_append.mp hi).resolve_right fun hnew => hes _ hnew i rfl)
    refine ⟨hsame.eventSeq ▸ hseq,?_⟩
    rcases hplace with hle | hclear
    · exact .inl (hle.trans hpos)
    · exact .inr fun x hx hmatch hgap => hclear x (hsame.live ▸ hx) hmatch (hpos.trans_lt hgap)

theorem BatchAt.tail {e : EventRow} {rest : List EventRow} (h : BatchAt filter db trace last (e :: rest)) :
    BatchAt filter db trace e.eventId rest := by
  obtain ⟨hhead,hrest⟩ := List.pairwise_cons.mp h.sorted
  refine ⟨hrest,hhead,fun x hx => h.le x (List.mem_cons_of_mem _ hx),fun x hx hmatch hgap => ?_,
    fun i hi x hx => h.after i hi x (List.mem_cons_of_mem _ hx)⟩
  rcases h.cover x hx hmatch ((h.above e List.mem_cons_self).trans hgap) with ⟨y,hy,hid⟩ | hall
  · rcases List.mem_cons.mp hy with rfl | hy
    · exact absurd hid hgap.ne
    · exact .inl ⟨y,hy,hid⟩
  · exact .inr fun y hy => hall y (List.mem_cons_of_mem _ hy)

theorem BatchAt.head_least {e : EventRow} {rest : List EventRow} (h : BatchAt filter db trace last (e :: rest)) :
    Clear filter db last e.eventId := by
  intro x hx hmatch hgap
  rcases h.cover x hx hmatch hgap with ⟨y,hy,hid⟩ | hall
  · rcases List.mem_cons.mp hy with rfl | hy
    · exact hid.le
    · exact ((List.pairwise_cons.mp h.sorted).1 y hy).le.trans hid.le
  · exact (hall e List.mem_cons_self).le

theorem Told.select (h : Told cursorId filter db trace last) (n : ℕ) :
    BatchAt filter db trace last (pollSelect db filter last n) := by
  refine ⟨pollSelect_sorted _ _ _ _,fun e he => (mem_pollSelect he).2.1,
    fun e he => db.events_le_seq e (mem_pollSelect he).1,?_,fun i hi e he => ?_⟩
  · rintro _ ⟨y,hy,rfl⟩ hmatch hgap
    have hrow : y.matchesSql filter = true := hmatch
    exact (pollSelect_cover hy hgap hrow).imp_left fun hmem => ⟨y,hmem,rfl⟩
  · obtain ⟨hmem,habove,hmatch⟩ := mem_pollSelect he
    rcases (h.invoked i hi).2 with hle | hclear
    · exact hle.trans habove.le
    · exact hclear e.fixedPart (mem_live hmem) hmatch habove

theorem Told.invoke (h : Told cursorId filter db trace last) {e : EventRow} {rest : List EventRow}
    (hb : BatchAt filter db trace last (e :: rest)) :
    Told cursorId filter db (trace ++ [.invoked e.eventId]) last ∧
      BatchAt filter db (trace ++ [.invoked e.eventId]) last (e :: rest) := by
  have habove := hb.above e List.mem_cons_self
  have hafter : ∀ x ∈ e :: rest, e.eventId ≤ x.eventId := by
    intro x hx
    rcases List.mem_cons.mp hx with rfl | hx
    · exact le_rfl
    · exact ((List.pairwise_cons.mp hb.sorted).1 x hx).le
  refine ⟨⟨h.placed,List.pairwise_append.mpr ⟨h.order,List.pairwise_singleton _ _,fun a ha b hlast => ?_⟩,
    fun k hk => h.moved k (hk.imp (by simp) (by simp)),fun i hi => ?_⟩,
    hb.sorted,hb.above,hb.le,hb.cover,fun i hi x hx => ?_⟩
  · rw [List.mem_singleton.mp hlast]
    cases a with
    | invoked j => exact hb.after j ha e List.mem_cons_self
    | acked k => exact (h.moved k (.inl ha)).trans_lt habove
    | reanchored k => exact (h.moved k (.inr ha)).trans_lt habove
    | _ => trivial
  · rcases List.mem_append.mp hi with hi | hi
    · exact h.invoked i hi
    · cases List.mem_singleton.mp hi
      exact ⟨hb.le e List.mem_cons_self,.inr hb.head_least⟩
  · rcases List.mem_append.mp hi with hi | hi
    · exact hb.after i hi x hx
    · cases List.mem_singleton.mp hi
      exact hafter x hx

end Told

section InOrder

variable {cfg : SubscriberConfig} {filter : Text} {l l' : Lane} {last : ℤ} {p : TickPoint} {w w' : World}
variable {a : Action} {trace : List LoopEvent}

theorem Behind.world (hstep : w.step a = some w') {lastEventId oldest : ℤ}
    (h : Behind w.bus last lastEventId oldest) : Behind w'.bus last lastEventId oldest := by
  obtain ⟨hseq,hlive⟩ := World.step_live hstep
  refine ⟨h.position,h.gap,h.bound.trans hseq,fun x hx => ?_⟩
  rcases hlive x hx with hold | hnew
  · exact h.oldest x hold
  · exact h.bound.trans hnew.le

theorem ReadAt.world (hstep : w.step a = some w') (h : ReadAt filter w.bus last p) :
    ReadAt filter w'.bus last p := by
  cases p with
  | selectMin cursor => exact ⟨h.1,World.step_filter hstep h.2⟩
  | selectFilter cursor => exact ⟨h.1,World.step_filter hstep h.2⟩
  | selectEvents f lastEventId => exact h
  | _ => trivial

theorem PointAt.world (hstep : w.step a = some w') (h : PointAt filter w.bus trace last p) :
    PointAt filter w'.bus trace last p := by
  obtain ⟨hseq,hlive⟩ := World.step_live hstep
  have hb := h.batch
  refine ⟨h.read.world hstep,h.window.mono fun _ _ => Behind.world hstep,hb.sorted,hb.above,
    fun e he => (hb.le e he).trans hseq,fun x hx hmatch hgap => ?_,hb.after⟩
  rcases hlive x hx with hold | hnew
  · exact hb.cover x hold hmatch hgap
  · exact .inr fun e he => (hb.le e he).trans_lt hnew

theorem InOrder.world (h : InOrder cfg filter l last) (hok : SoleWriter cfg l (.world a))
    (hstep : l.world.step a = some w) : InOrder cfg filter { l with world := w } last := by
  obtain ⟨hseq,hlive⟩ := World.step_live hstep
  refine ⟨⟨?_,h.told.order,h.told.moved,fun i hi => ⟨(h.told.invoked i hi).1.trans hseq,?_⟩⟩,
    fun p hp => (h.point p hp).world hstep⟩
  · obtain ⟨c,hc,hlast,hfilter⟩ := h.told.placed.cursor
    exact ⟨c,(hok w hstep).trans hc,hlast,World.step_filter hstep hfilter⟩
  · refine (h.told.invoked i hi).2.imp_right fun hclear x hx hmatch hgap => ?_
    rcases hlive x hx with hold | hnew
    · exact hclear x hold hmatch hgap
    · exact (h.told.invoked i hi).1.trans hnew.le

theorem InOrder.ticked (h : InOrder cfg filter l last) {env : TickEnv} {sleep : ℕ} (point : l.point = some p) :
    ∃ last', last ≤ last' ∧ InOrder cfg filter (l.ticked cfg env sleep p) last' := by
  obtain ⟨hread,hwindow,hbatch⟩ := h.point p point
  have hreads := @tickStep_read cfg env l.stopping sleep l.world.bus p filter last
    (fun _ => h.told.placed.pollCursor) hread
  have hcarries := @tickStep_carries cfg env l.stopping sleep l.world.bus p (Behind l.world.bus last)
    (fun cursor oldest heq hgap holdest => by
      subst heq
      exact ⟨hread.1,hread.1 ▸ hgap,holdest.bound,holdest.least⟩) hwindow
  have heff := @tickStep_effect cfg env l.stopping sleep l.world.bus p
  unfold Lane.ticked
  generalize tickStep cfg env l.stopping sleep l.world.bus p = r at hreads hcarries heff ⊢
  cases heff with
  | still rows batch events =>
    refine ⟨last,le_rfl,h.told.still rows events,fun q hq => ?_⟩
    refine PointAt.still ⟨hreads q hq,hcarries q hq,?_⟩ rows events
    rcases batch q hq with heq | heq
    · exact heq ▸ hbatch
    · exact heq ▸ .nil
  | select f lastEventId =>
    obtain ⟨rfl,rfl⟩ := hread
    refine ⟨lastEventId,le_rfl,h.told.still (SameRows.refl _) (by simp [goto]),fun q hq => ?_⟩
    refine PointAt.still ⟨hreads q hq,hcarries q hq,?_⟩ (SameRows.refl _) (by simp [goto])
    cases hq
    exact h.told.select _
  | invoke work =>
    obtain ⟨htold,hnext⟩ := h.told.invoke hbatch
    refine ⟨last,le_rfl,htold,fun q hq => ?_⟩
    cases hq
    exact ⟨trivial,trivial,hnext⟩
  | ack work handled moved =>
    have habove := hbatch.above work.event List.mem_cons_self
    refine ⟨work.event.eventId,habove.le,h.told.reposition habove.le moved (by simp) (by simp [Moved]),fun q hq => ?_⟩
    cases hq
    exact ⟨trivial,trivial,hbatch.tail.same (moveCursor_sameEvents moved) (by simp)⟩
  | reanchor lastEventId oldest moved =>
    have hbehind : Behind l.world.bus last lastEventId oldest := hwindow
    refine ⟨oldest - 1,hbehind.gap.le,h.told.reposition hbehind.gap.le moved (by simp) (by simp [Moved]),fun q hq => ?_⟩
    cases hq
    exact ⟨trivial,trivial,.nil⟩

theorem InOrder.noted (h : InOrder cfg filter l last) {e : LoopEvent} (he : e.positions = false) :
    Told cfg.cursorId filter l.world.bus (l.trace ++ [e]) last ∧
      ∀ p ∈ l.point, PointAt filter l.world.bus (l.trace ++ [e]) last p :=
  ⟨h.told.still (SameRows.refl _) (by simpa using he),
    fun p hp => (h.point p hp).still (SameRows.refl _) (by simpa using he)⟩

theorem PointAt.interrupted {db : Db} (h : PointAt filter db trace last p) :
    PointAt filter db trace last p.interrupted := by
  cases p <;> exact ⟨h.read,h.window,h.batch⟩

theorem InOrder.step (h : InOrder cfg filter l last) {a : HostAction} (hok : SoleWriter cfg l a)
    (hstep : LaneStep cfg l a l') : ∃ last', last ≤ last' ∧ InOrder cfg filter l' last' := by
  cases hstep with
  | world hw => exact ⟨last,le_rfl,h.world hok hw⟩
  | ticked sleep point awake shape => exact h.ticked point
  | begun alive idle running =>
    refine ⟨last,le_rfl,h.told,fun q hq => ?_⟩
    cases hq
    exact ⟨trivial,trivial,.nil⟩
  | woken work k asleep =>
    refine ⟨last,le_rfl,h.told,fun q hq => ?_⟩
    cases hq
    exact ⟨trivial,trivial,(h.point _ asleep).batch⟩
  | stopped alive running quiet =>
    obtain ⟨htold,hpoint⟩ := h.noted (e := .stopped) rfl
    refine ⟨last,le_rfl,htold,fun q hq => ?_⟩
    obtain ⟨p,hp,rfl⟩ := Option.map_eq_some_iff.mp hq
    exact (hpoint p hp).interrupted
  | again stopping => exact ⟨last,le_rfl,h⟩
  | crashed => exact ⟨last,le_rfl,h.told,by simp⟩
  | started dead idle running =>
    obtain ⟨htold,hpoint⟩ := h.noted (e := .started) rfl
    exact ⟨last,le_rfl,htold,hpoint⟩

end InOrder

theorem InOrder.kept {cfg : SubscriberConfig} {filter : Text} {l l' : Lane} {a : HostAction}
    (h : ∃ last, InOrder cfg filter l last) (hok : SoleWriter cfg l a) (hstep : LaneStep cfg l a l') :
    ∃ last, InOrder cfg filter l' last := by
  obtain ⟨last,h⟩ := h
  obtain ⟨last',-,h'⟩ := h.step hok hstep
  exact ⟨last',h'⟩

theorem InOrder.start {cfg : SubscriberConfig} {w : World} {c : CursorRow} {s : SubscriptionRow}
    (hc : w.bus.cursors.get? cfg.cursorId = some c) (hs : w.bus.subscriptions.get? c.subscriptionId = some s) :
    InOrder cfg s.eventTypeFilter ⟨w,false,none,false,[]⟩ c.lastEventId :=
  ⟨⟨⟨c,hc,rfl,s,hs,rfl⟩,.nil,by simp [Moved],by simp⟩,by simp⟩

theorem serial_in_order {cfg : SubscriberConfig} {w : World} {c : CursorRow} {s : SubscriptionRow}
    (hc : w.bus.cursors.get? cfg.cursorId = some c) (hs : w.bus.subscriptions.get? c.subscriptionId = some s)
    {as : List HostAction} {t : Host}
    (hrun : Run (Host.step cfg) (fun t a => SoleWriter cfg t.lane a) (Host.idle w) as t) :
    (∀ s, t.sub = some s → (s.ticks.filter TickPoint.inFlight).length ≤ 1) ∧ t.trace.Pairwise Before := by
  obtain ⟨last,h⟩ := Host.run_lane (I := fun l => ∃ last, InOrder cfg s.eventTypeFilter l last)
    (fun _ _ _ => InOrder.kept) hrun (Host.shaped_idle w) ⟨_,InOrder.start hc hs⟩
  refine ⟨fun s hsub => ?_,h.told.order⟩
  rw [(Host.run_shaped (Host.shaped_idle w) hrun s hsub).point]
  refine (List.length_filter_le _ _).trans ?_
  cases s.ticks.head? <;> simp

instance (cfg : SubscriberConfig) (l : Lane) : (a : HostAction) → Decidable (SoleWriter cfg l a)
  | .world a => decidable_of_iff ((l.world.step a).all (fun w =>
      decide (w.bus.cursors.get? cfg.cursorId = l.world.bus.cursors.get? cfg.cursorId)) = true)
      (by simp [SoleWriter,Option.all_eq_true])
  | .fire _ | .resume _ _ | .stop | .crash | .start => .isTrue trivial

def retriedThenNext : List HostAction :=
  [.start,.world (.bus (.emit expiredSample "u")),
    .world (.bus (.emit { expiredSample with idempotencyKey := "k2" } "u")),.fire 0] ++
    List.replicate 9 (settle .resolved) ++ List.replicate 3 (settle failed) ++ [.fire 1] ++
    List.replicate 13 (settle .resolved)

theorem serial_in_order_after_retry :
    ∃ t : Host, t.trace = [.started,.invoked 1,.rejected 1,.recorded 1 1,.armed 1 (some 100),.invoked 1,.resolved 1,
        .acked 1,.invoked 2,.resolved 2,.acked 2] ∧
      (∀ s, t.sub = some s → (s.ticks.filter TickPoint.inFlight).length ≤ 1) ∧ t.trace.Pairwise Before := by
  have hreach : (exec (guarded (fun t a => SoleWriter sampleSubscriber t.lane a) (Host.step sampleSubscriber))
      subscribedHost retriedThenNext).any (fun t =>
        decide (t.trace = [.started,.invoked 1,.rejected 1,.recorded 1 1,.armed 1 (some 100),.invoked 1,.resolved 1,
          .acked 1,.invoked 2,.resolved 2,.acked 2])) = true := by
    decide +kernel
  obtain ⟨t,ht,htrace⟩ := (Option.any_eq_true _ _).mp hreach
  exact ⟨t,of_decide_eq_true htrace,@serial_in_order sampleSubscriber _ sampleCursor sampleSubscription rfl rfl _ t
    (run_of_guarded ht)⟩

end WickedBus
