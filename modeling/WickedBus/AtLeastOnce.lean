import WickedBus.Recheck
import WickedBus.Custody
import WickedBus.Subscribe

namespace WickedBus

open GuardedRun
open WickedBus.Filter (Text)

structure System where
  world : World
  loop : Option Loop
  resolved : List ℤ
  deadLettered : List ℤ

inductive SystemAction where
  | world (a : Action)
  | loop (env : LoopEnv)
  | stop
  | crash
  | start
  deriving DecidableEq, Repr

def System.step (opts : SubscribeOpts) (t : System) : SystemAction → Option System
  | .world a => (t.world.step a).map (fun w => { t with world := w })
  | .loop env =>
    match t.loop with
    | none => none
    | some l =>
      let r := loopStep opts env t.world.bus l
      some {
        world := { t.world with bus := r.bus }
        loop := r.next
        resolved := t.resolved ++ r.resolved
        deadLettered := t.deadLettered ++ r.deadLettered }
  | .stop =>
    match t.loop with
    | none => none
    | some l =>
      some { t with loop := if l.point = .idle then none else some { l with stopping := true } }
  | .crash => some { t with loop := none }
  | .start => if t.loop.isSome then none else some { t with loop := some ⟨.idle,false⟩ }

def System.start (w : World) : System := ⟨w,none,[],[]⟩

def System.settled (t : System) : List ℤ := t.resolved ++ t.deadLettered

structure Watch where
  cursorId : String
  subscriptionId : String
  filter : Text
  startId : ℤ
  startSeq : ℤ
  startLive : Set EventRow

def Tracked (v : Watch) (w : World) (x : EventRow) : Prop :=
  x ∈ w.logged ∧ (x ∈ v.startLive ∨ v.startSeq < x.eventId) ∧ v.startId < x.eventId ∧
    x.matchesSql v.filter = true

def KeepsRows (v : Watch) (db db' : Db) : Prop :=
  db'.cursors.get? v.cursorId = db.cursors.get? v.cursorId ∧
    db'.subscriptions.get? v.subscriptionId = db.subscriptions.get? v.subscriptionId

def NothingOverCap (db : Db) (now : ℤ) (capDays : ℚ) : Prop :=
  ∀ e ∈ db.events, (∃ cursorId, Owes db cursorId e) → e.overCap now capDays = false

def RetainOk (db : Db) : BusOp → Prop
  | .sweep config clock => resolveUnackedPolicy config = .ok .retain ∧
      ∀ capDays, resolveRetentionCapDays config = .ok capDays →
        NothingOverCap db (config.now.getD clock) capDays
  | _ => True

def LoopOk (v : Watch) (t : System) : SystemAction → Prop
  | .world (.bus op) => RetainOk t.world.bus op ∧
      ∀ db, op.apply t.world.bus = some db → KeepsRows v t.world.bus db
  | .world (.sweep p _) => ∀ s ∈ t.world.sweepers p, s.cfg.policy = .retain ∧
      ∀ moved, s.phase = .deleteLive moved → NothingOverCap t.world.bus s.cfg.now s.cfg.capDays
  | _ => True

structure Benign (v : Watch) (w w' : World) : Prop where
  seq : w.bus.eventSeq ≤ w'.bus.eventSeq
  fresh : ∀ x ∈ w'.bus.live, x ∈ w.bus.live ∨ w.bus.eventSeq < x.eventId
  logged : ∀ x ∈ w'.logged, x ∈ w.logged ∨ (x ∈ w'.bus.live ∧ w.bus.eventSeq < x.eventId)
  kept : ∀ e ∈ w.bus.events, Owes w.bus v.cursorId e → e.fixedPart ∈ w'.bus.live
  rows : KeepsRows v w.bus w'.bus

def RetainKeeps (w : World) : Prop :=
  ∀ p s, w.sweepers p = some s → s.cfg.policy ≠ .discard → ∀ ids, s.phase ≠ .discardOwed ids

section World

variable {w w' : World} {v : Watch}

theorem RetainKeeps.step (h : RetainKeeps w) {a : Action} (hstep : w.step a = some w') :
    RetainKeeps w' := by
  intro q t ht hpolicy
  cases a with
  | bus op =>
    obtain ⟨db,hop,rfl⟩ := Option.map_eq_some_iff.mp hstep
    exact h q t ht hpolicy
  | beginSweep p config clock =>
    obtain ⟨cfg,-,-,rfl⟩ := World.step_begin hstep
    rcases update_eq_some ht with ⟨-,ht⟩ | ⟨-,ht⟩
    · cases ht
      simp
    · exact h q t ht hpolicy
  | sweep p env =>
    obtain ⟨s,hs,rfl⟩ := World.step_sweep hstep
    rcases update_eq_some ht with ⟨-,hnext⟩ | ⟨-,ht⟩
    · obtain ⟨ph,hph,rfl⟩ := Option.map_eq_some_iff.mp hnext
      rintro ids rfl
      exact hpolicy (sweeperStep_discard hph).1
    · exact h q t ht hpolicy
  | crash p =>
    cases hstep
    rcases update_eq_some ht with ⟨-,ht⟩ | ⟨-,ht⟩
    · cases ht
    · exact h q t ht hpolicy

theorem RetainKeeps.run {db : Db} {archive : Archive} {ok : World → Action → Prop} {as : List Action}
    (hrun : Run World.step ok (World.start db archive) as w) : RetainKeeps w :=
  hrun.invariant (fun _ _ _ (ht : RetainKeeps _) _ hs => ht.step hs) (fun _ _ hs => by cases hs)

theorem benign_bus {op : BusOp} {db : Db} (hok : RetainOk w.bus op) (hop : op.apply w.bus = some db)
    (hrows : KeepsRows v w.bus db) :
    Benign v w { w with bus := db, log := w.log ++ acceptedRows w.bus op } := by
  have heff := busEffect hop
  refine ⟨?_,fun x hx => ?_,?_,fun e he hown => ?_,hrows⟩
  · cases heff with
    | emit params uuid live eventSeq bound => exact eventSeq ▸ by omega
    | shrink accepted live eventSeq => exact eventSeq.ge
  · cases heff with
    | emit params uuid live eventSeq bound =>
      rw [live] at hx
      rcases hx with rfl | hx
      · exact .inr (Int.lt_succ _)
      · exact .inl hx
    | shrink accepted live eventSeq => exact .inl (live hx)
  · rintro x ⟨r,hr,rfl⟩
    cases heff with
    | emit params uuid live eventSeq bound =>
      rcases List.mem_append.mp hr with hr | hr
      · exact .inl ⟨r,hr,rfl⟩
      · rw [List.mem_singleton.mp hr]
        exact .inr ⟨live ▸ Set.mem_insert _ _,Int.lt_succ _⟩
    | shrink accepted live eventSeq =>
      rw [accepted,List.append_nil] at hr
      exact .inl ⟨r,hr,rfl⟩
  · rcases busOp_cases hop with ⟨params,uuid,rfl,hemit⟩ | ⟨config,clock,result,rfl,hr⟩ | hs
    · rw [emit_live hemit]
      exact Set.mem_insert_of_mem _ (mem_live he)
    · obtain ⟨policy,capDays,hpolicy,hcap,rfl⟩ := runSweep_ok hr
      refine mem_live (mem_sweepTransaction.mpr ⟨he,fun hswept => ?_⟩)
      rw [hok.1,Except.ok.injEq] at hpolicy
      subst hpolicy
      have hcapped := hok.2 capDays hcap e he ⟨_,hown⟩
      refine hswept.2 ⟨⟨hswept.1,_,hown⟩,fun hover => ?_⟩
      rw [overCapEvents,Set.mem_ofPred_eq,hcapped] at hover
      cases hover
    · rw [hs.live]
      exact mem_live he

theorem benign_sweep (hprov : Provenance w) (hkeeps : RetainKeeps w) {p : ℕ} {env : StepEnv}
    (hok : ∀ s ∈ w.sweepers p, s.cfg.policy = .retain ∧
      ∀ moved, s.phase = .deleteLive moved → NothingOverCap w.bus s.cfg.now s.cfg.capDays)
    (hstep : w.step (.sweep p env) = some w') : Benign v w w' := by
  obtain ⟨s,hs,rfl⟩ := World.step_sweep hstep
  obtain ⟨hpolicy,hcap⟩ := hok s hs
  have hlive := sweeperStep_live env s.cfg w.bus w.archive s.phase
  refine ⟨hlive.2.ge,fun x hx => .inl (hlive.1 hx),fun x hx => .inl hx,fun e he hown => ?_,?_⟩
  · rcases sweeperStep_bus env s.cfg w.bus w.archive s.phase with hb | ⟨ids,hph,-⟩ | ⟨moved,hph,hb⟩
    · show e.fixedPart ∈ (sweeperStep env s.cfg w.bus w.archive s.phase).bus.live
      rw [hb]
      exact mem_live he
    · exact absurd hph (hkeeps p s hs (by simp [hpolicy]) ids)
    · have hs' : w.sweepers p = some ⟨s.cfg,.deleteLive moved⟩ := by rw [hs,← hph]
      show e.fixedPart ∈ (sweeperStep env s.cfg w.bus w.archive s.phase).bus.live
      rw [hb]
      exact mem_live (hprov.owed_kept hs' hpolicy he hown (hcap moved hph e he ⟨_,hown⟩))
  · show KeepsRows v w.bus (sweeperStep env s.cfg w.bus w.archive s.phase).bus
    rcases sweeperStep_bus env s.cfg w.bus w.archive s.phase with hb | ⟨ids,-,hb⟩ | ⟨moved,-,hb⟩ <;>
      rw [hb] <;> exact ⟨rfl,rfl⟩

theorem benign_frame (v : Watch) (w : World) (sweepers : ℕ → Option Sweeper) :
    Benign v w { w with sweepers := sweepers } :=
  ⟨le_rfl,fun _ => .inl,fun _ => .inl,fun _ he _ => mem_live he,rfl,rfl⟩

theorem benign_step (hprov : Provenance w) (hkeeps : RetainKeeps w) {t : System} (ht : t.world = w)
    {a : Action} (hok : LoopOk v t (.world a)) (hstep : w.step a = some w') : Benign v w w' := by
  subst ht
  cases a with
  | bus op =>
    obtain ⟨db,hop,rfl⟩ := Option.map_eq_some_iff.mp hstep
    exact benign_bus hok.1 hop (hok.2 db hop)
  | sweep p env => exact benign_sweep hprov hkeeps hok hstep
  | beginSweep p config clock =>
    obtain ⟨cfg,-,-,rfl⟩ := World.step_begin hstep
    exact benign_frame v _ _
  | crash p =>
    cases hstep
    exact benign_frame v _ _

end World

def ReadOk (v : Watch) (db : Db) (last : ℤ) : LoopPoint → Prop
  | .selectMin cursor | .selectFilter cursor =>
    cursor.subscriptionId = v.subscriptionId ∧ cursor.lastEventId = last
  | .selectEvents filter lastEventId => filter = v.filter ∧ lastEventId = last
  | .reanchor floor => floor ≤ db.eventSeq ∧ ∀ e ∈ db.events, floor < e.eventId
  | _ => True

structure BatchOk (v : Watch) (w : World) (settled : List ℤ) (batch : List EventRow) : Prop where
  sorted : batch.Pairwise (fun a b => a.eventId < b.eventId)
  le : ∀ e ∈ batch, e.eventId ≤ w.bus.eventSeq
  cover : ∀ x, Tracked v w x → x.eventId ∈ settled ∨ (∃ e ∈ batch, e.eventId = x.eventId) ∨
    ∀ e ∈ batch, e.eventId < x.eventId

structure PointOk (v : Watch) (w : World) (last : ℤ) (settled : List ℤ) (point : LoopPoint) :
    Prop where
  read : ReadOk v w.bus last point
  done : ∀ e ∈ point.done, e.eventId ∈ settled
  batch : BatchOk v w settled point.batch

structure Registered (v : Watch) (db : Db) (last : ℤ) : Prop where
  cursor : ∃ c ∈ db.cursors, c.cursorId = v.cursorId ∧ c.deregisteredAt = none ∧
    c.subscriptionId = v.subscriptionId ∧ c.lastEventId = last
  subscription : ∃ s ∈ db.subscriptions, s.subscriptionId = v.subscriptionId ∧
    s.deregisteredAt = none ∧ s.eventTypeFilter = v.filter

structure Delivered (v : Watch) (t : System) (last : ℤ) : Prop where
  prov : Provenance t.world
  keeps : RetainKeeps t.world
  registered : Registered v t.world.bus last
  bound : last ≤ v.startId ∨ last ≤ t.world.bus.eventSeq
  safe : ∀ x, Tracked v t.world x → x.eventId ∈ t.settled ∨ (x ∈ t.world.bus.live ∧ last < x.eventId)
  point : ∀ l ∈ t.loop, PointOk v t.world last t.settled l.point

section Delivered

variable {v : Watch} {t : System} {last : ℤ} {w' : World} {db : Db}

theorem Registered.keep (h : Registered v db last) {db' : Db} (hrows : KeepsRows v db db') :
    Registered v db' last := by
  obtain ⟨⟨c,hc,hck,hcd,hcs,hcl⟩,⟨s,hs,hsk,hsd,hsf⟩⟩ := h
  have hc' := KeyedTable.get?_eq_some.mpr ⟨hc,hck⟩
  have hs' := KeyedTable.get?_eq_some.mpr ⟨hs,hsk⟩
  rw [← hrows.1] at hc'
  rw [← hrows.2] at hs'
  exact ⟨⟨c,(KeyedTable.get?_eq_some.mp hc').1,hck,hcd,hcs,hcl⟩,
    ⟨s,(KeyedTable.get?_eq_some.mp hs').1,hsk,hsd,hsf⟩⟩

theorem Registered.owes (h : Registered v db last) {e : EventRow} (hlast : last < e.eventId)
    (hmatch : e.matchesSql v.filter = true) : Owes db v.cursorId e := by
  obtain ⟨⟨c,hc,hck,hcd,hcs,rfl⟩,⟨s,hs,hsk,hsd,hsf⟩⟩ := h
  exact .inl ⟨c,hc,hck,hcd,hlast,s,hs,hsk.trans hcs.symm,hsd,hsf.symm ▸ hmatch⟩

theorem Registered.pollCursor (h : Registered v db last) {c : CursorRow}
    (hc : pollCursor db v.cursorId = .ok c) :
    c.subscriptionId = v.subscriptionId ∧ c.lastEventId = last := by
  obtain ⟨d,hd,hdk,-,hds,hdl⟩ := h.cursor
  obtain ⟨hmem,hck,-⟩ := pollCursor_ok.mp hc
  obtain rfl := KeyedTable.eq_of_key hmem hd (hck.trans hdk.symm)
  exact ⟨hds,hdl⟩

theorem Registered.pollFilter (h : Registered v db last) {c : CursorRow} {filter : Text}
    (hc : c.subscriptionId = v.subscriptionId) (hf : pollFilter db c = .ok filter) :
    filter = v.filter := by
  obtain ⟨s,hs,hsk,-,hsf⟩ := h.subscription
  unfold WickedBus.pollFilter at hf
  rw [KeyedTable.get?_eq_some.mpr ⟨hs,hsk.trans hc.symm⟩,Except.ok.injEq] at hf
  exact hf.symm.trans hsf

theorem Registered.update (h : Registered v db last) (pos now : ℤ) :
    Registered v (updateCursors db v.cursorId pos now) pos := by
  obtain ⟨⟨c,hc,hck,hcd,hcs,-⟩,hsub⟩ := h
  have hmem : c.moveTo pos now ∈ (updateCursors db v.cursorId pos now).cursors :=
    mem_updateCursors.mpr ⟨c,hc,if_pos ⟨hck,hcd⟩⟩
  exact ⟨⟨c.moveTo pos now,hmem,hck,hcd,hcs,rfl⟩,hsub⟩

theorem BatchOk.nil (v : Watch) (w : World) (settled : List ℤ) : BatchOk v w settled [] :=
  ⟨.nil,by simp,fun _ _ => .inr (.inr (by simp))⟩

theorem PointOk.plain {settled : List ℤ} {w : World} {point : LoopPoint} (h : point.plain = true) :
    PointOk v w last settled point := by
  cases point <;> cases h <;> exact ⟨trivial,by simp [LoopPoint.done],.nil v w settled⟩

theorem ReadOk.handles {point : LoopPoint} (h : point.handles = true) : ReadOk v db last point := by
  cases point <;> cases h <;> trivial

theorem BatchOk.mono {w : World} {settled settled' : List ℤ} {batch : List EventRow}
    (h : BatchOk v w settled batch) (hsub : settled ⊆ settled') : BatchOk v w settled' batch :=
  ⟨h.sorted,h.le,fun x hx => (h.cover x hx).imp_left (fun hs => hsub hs)⟩

theorem BatchOk.tail {w : World} {settled : List ℤ} {e : EventRow} {rest : List EventRow}
    (h : BatchOk v w settled (e :: rest)) (he : e.eventId ∈ settled) : BatchOk v w settled rest := by
  refine ⟨(List.pairwise_cons.mp h.sorted).2,fun x hx => h.le x (List.mem_cons_of_mem _ hx),?_⟩
  intro x hx
  rcases h.cover x hx with hs | ⟨y,hy,hid⟩ | hall
  · exact .inl hs
  · rcases List.mem_cons.mp hy with rfl | hy
    · exact .inl (hid ▸ he)
    · exact .inr (.inl ⟨y,hy,hid⟩)
  · exact .inr (.inr fun y hy => hall y (List.mem_cons_of_mem _ hy))

theorem BatchOk.above {w : World} {settled : List ℤ} {e : EventRow} {rest : List EventRow}
    (h : BatchOk v w settled (e :: rest)) (he : e.eventId ∈ settled) {x : EventRow}
    (hx : Tracked v w x) : x.eventId ∈ settled ∨ e.eventId < x.eventId := by
  rcases h.cover x hx with hs | ⟨y,hy,hid⟩ | hall
  · exact .inl hs
  · rcases List.mem_cons.mp hy with rfl | hy
    · exact .inl (hid ▸ he)
    · exact .inr (hid ▸ (List.pairwise_cons.mp h.sorted).1 y hy)
  · exact .inr (hall e List.mem_cons_self)

theorem Tracked.benign (hb : Benign v t.world w') {x : EventRow} (hx : Tracked v w' x) :
    Tracked v t.world x ∨ (x ∈ w'.bus.live ∧ t.world.bus.eventSeq < x.eventId) :=
  (hb.logged x hx.1).imp_left (fun hlog => ⟨hlog,hx.2⟩)

theorem PointOk.benign {settled : List ℤ} {point : LoopPoint}
    (h : PointOk v t.world last settled point) (hb : Benign v t.world w') :
    PointOk v w' last settled point := by
  refine ⟨?_,h.done,h.batch.sorted,fun e he => (h.batch.le e he).trans hb.seq,fun x hx => ?_⟩
  · have hread := h.read
    cases point with
    | reanchor floor =>
      refine ⟨hread.1.trans hb.seq,fun e he => ?_⟩
      rcases hb.fresh _ (mem_live he) with ⟨y,hy,hye⟩ | hlt
      · rw [← eventId_of_fixedPart hye]
        exact hread.2 y hy
      · exact hread.1.trans_lt hlt
    | _ => exact hread
  · rcases hx.benign hb with hx | ⟨-,hlt⟩
    · exact h.batch.cover x hx
    · exact .inr (.inr fun e he => (h.batch.le e he).trans_lt hlt)

theorem Delivered.world (h : Delivered v t last) {a : Action} (hok : LoopOk v t (.world a))
    (hstep : t.world.step a = some w') : Delivered v { t with world := w' } last := by
  have hb := benign_step h.prov h.keeps rfl hok hstep
  refine ⟨h.prov.step hstep,h.keeps.step hstep,h.registered.keep hb.rows,?_,fun x hx => ?_,
    fun l hl => (h.point l hl).benign hb⟩
  · exact h.bound.imp_right (fun hle => hle.trans hb.seq)
  · rcases hx.benign hb with hx' | ⟨hlive,hlt⟩
    · rcases h.safe x hx' with hs | ⟨⟨e,he,rfl⟩,hlast⟩
      · exact .inl hs
      · exact .inr ⟨hb.kept e he (h.registered.owes hlast hx.2.2.2),hlast⟩
    · refine .inr ⟨hlive,?_⟩
      have hstart := hx.2.2.1
      rcases h.bound with hle | hle
      · exact hle.trans_lt hstart
      · exact hle.trans_lt hlt

theorem PointOk.same {w : World} {settled : List ℤ} {point : LoopPoint} {db' : Db}
    (h : PointOk v w last settled point) (hsame : SameEvents w.bus db') :
    PointOk v { w with bus := db' } last settled point := by
  refine ⟨?_,h.done,h.batch.sorted,fun e he => hsame.eventSeq.symm ▸ h.batch.le e he,h.batch.cover⟩
  have hread := h.read
  cases point with
  | reanchor floor =>
    exact ⟨hsame.eventSeq.symm ▸ hread.1,fun e he => hread.2 e (hsame.events ▸ he)⟩
  | _ => exact hread

theorem PointOk.reposition {w : World} {settled : List ℤ} {point : LoopPoint} {last' : ℤ}
    (h : PointOk v w last settled point) (hpoint : point.plain = true ∨ point.handles = true) :
    PointOk v w last' settled point := by
  rcases hpoint with hp | hp
  · exact .plain hp
  · exact ⟨.handles hp,h.done,h.batch⟩

theorem PointOk.move {opts : SubscribeOpts} {w : World} {settled settled' added : List ℤ}
    {p q : LoopPoint} (h : PointOk v w last settled p) (hreg : Registered v w.bus last)
    (hsafe : ∀ x, Tracked v w x → x.eventId ∈ settled ∨ (x ∈ w.bus.live ∧ last < x.eventId))
    (hcursor : opts.cursorId = v.cursorId) (hmove : LoopMove opts w.bus added p q)
    (hsub : settled ⊆ settled') (hadd : added ⊆ settled') : PointOk v w last settled' q := by
  cases hmove with
  | plain hq => exact .plain hq
  | keep hq hbatch hdone =>
    refine ⟨.handles hq,fun e he => ?_,hbatch ▸ h.batch.mono hsub⟩
    rcases hdone e he with he | he
    · exact hsub (h.done e he)
    · exact hadd he
  | cursor hc => exact ⟨hreg.pollCursor (hcursor ▸ hc),by simp [LoopPoint.done],.nil v w settled'⟩
  | window cursor => exact ⟨h.read,by simp [LoopPoint.done],.nil v w settled'⟩
  | behind hw =>
    obtain ⟨⟨e,he,hid⟩,hmin⟩ := pollWindow_behind hw
    refine ⟨⟨?_,fun e he => ?_⟩,by simp [LoopPoint.done],.nil v w settled'⟩
    · have := w.bus.events_le_seq e he
      omega
    · have := hmin e he
      omega
  | filter hf =>
    exact ⟨⟨hreg.pollFilter h.read.1 hf,h.read.2⟩,by simp [LoopPoint.done],.nil v w settled'⟩
  | select filter lastEventId n =>
    obtain ⟨rfl,rfl⟩ := h.read
    refine ⟨trivial,by simp [LoopPoint.done],pollSelect_sorted _ _ _ _,fun e he => ?_,fun x hx => ?_⟩
    · exact w.bus.events_le_seq e (mem_pollSelect he).1
    · rcases hsafe x hx with hs | ⟨⟨e,he,rfl⟩,hlast⟩
      · exact .inl (hsub hs)
      · rcases pollSelect_cover (n := n) he hlast hx.2.2.2 with hmem | hall
        · exact .inr (.inl ⟨e,hmem,rfl⟩)
        · exact .inr (.inr hall)
  | acked work handled =>
    exact ⟨trivial,by simp [LoopPoint.done],(h.batch.tail (h.done _ rfl)).mono hsub⟩

theorem LoopMove.still {opts : SubscribeOpts} {added : List ℤ} {p q : LoopPoint}
    (h : LoopMove opts db added p q) (hp : p.handles = true ∨ ∃ floor, p = .reanchor floor) :
    q.plain = true ∨ q.handles = true := by
  cases h with
  | plain hq => exact .inl hq
  | keep hq _ _ => exact .inr hq
  | acked work handled => exact .inr rfl
  | _ => rcases hp with hp | ⟨_,hp⟩ <;> cases hp

theorem Delivered.change (h : Delivered v t last) {db' : Db} {last' : ℤ} {t' : System}
    (hworld : t'.world = { t.world with bus := db' }) (hsame : SameEvents t.world.bus db')
    (hreg : Registered v db' last') (hbound : last' ≤ v.startId ∨ last' ≤ t.world.bus.eventSeq)
    (hsub : t.settled ⊆ t'.settled)
    (habove : ∀ x, Tracked v t.world x → x.eventId ∈ t'.settled ∨
      (x ∈ t.world.bus.live → last' < x.eventId))
    (hpoint : ∀ l ∈ t'.loop, PointOk v t.world last' t'.settled l.point) : Delivered v t' last' := by
  obtain ⟨world',loop',resolved',deadLettered'⟩ := t'
  obtain rfl : world' = { t.world with bus := db' } := hworld
  refine ⟨h.prov.sameEvents hsame,h.keeps,hreg,?_,fun x hx => ?_,fun l hl => (hpoint l hl).same hsame⟩
  · exact hbound.imp_right (fun hle => hsame.eventSeq.symm ▸ hle)
  · rcases h.safe x hx with hs | ⟨hlive,-⟩
    · exact .inl (hsub hs)
    · refine (habove x hx).imp_right fun hlt => ⟨?_,hlt hlive⟩
      show x ∈ db'.live
      rw [hsame.live]
      exact hlive

theorem Delivered.loop (h : Delivered v t last) {opts : SubscribeOpts}
    (hcursor : opts.cursorId = v.cursorId) {env : LoopEnv} {t' : System}
    (hstep : t.step opts (.loop env) = some t') : ∃ last', Delivered v t' last' := by
  simp only [System.step] at hstep
  split at hstep <;> cases hstep
  rename_i l hl
  have heff := loopStep_effect opts env t.world.bus l
  have hmove : ∀ l', (loopStep opts env t.world.bus l).next = some l' → _ := fun l' => loopStep_move
  have hpoint := h.point l hl
  set r := loopStep opts env t.world.bus l
  have hmem : ∀ i, i ∈ t.settled ∨ i ∈ r.resolved ++ r.deadLettered →
      i ∈ (t.resolved ++ r.resolved) ++ (t.deadLettered ++ r.deadLettered) := by
    intro i hi
    simp only [System.settled,List.mem_append] at hi ⊢
    tauto
  have hsub : t.settled ⊆ (t.resolved ++ r.resolved) ++ (t.deadLettered ++ r.deadLettered) :=
    fun i hi => hmem i (.inl hi)
  have hnext : ∀ l' ∈ r.next, PointOk v t.world last
      ((t.resolved ++ r.resolved) ++ (t.deadLettered ++ r.deadLettered)) l'.point := fun l' hl' =>
    hpoint.move h.registered h.safe hcursor (hmove l' hl') hsub (fun i hi => hmem i (.inr hi))
  have hkeep : ∀ x, Tracked v t.world x →
      x.eventId ∈ (t.resolved ++ r.resolved) ++ (t.deadLettered ++ r.deadLettered) ∨
        (x ∈ t.world.bus.live → last < x.eventId) := fun x hx =>
    (h.safe x hx).imp (fun hs => hsub hs) (fun hlive _ => hlive.2)
  generalize hp : l.point = point at heff hpoint hmove
  generalize hb : r.bus = db' at heff
  cases heff with
  | none => exact ⟨last,h.change rfl ⟨rfl,rfl,rfl⟩ h.registered h.bound hsub hkeep hnext⟩
  | side same cursors subscriptions =>
    refine ⟨last,h.change rfl same (h.registered.keep ?_) h.bound hsub hkeep hnext⟩
    exact ⟨by rw [cursors],by rw [subscriptions]⟩
  | ack work handled =>
    have hdone : work.event.eventId ∈ t.settled := hpoint.done _ rfl
    refine ⟨work.event.eventId,h.change rfl ⟨rfl,rfl,rfl⟩ ?_ (.inr ?_) hsub (fun x hx => ?_) ?_⟩
    · rw [hcursor]
      exact h.registered.update _ _
    · exact hpoint.batch.le work.event List.mem_cons_self
    · exact (hpoint.batch.above hdone hx).imp (fun hs => hsub hs) (fun hlt _ => hlt)
    · exact fun l' hl' => (hnext l' hl').reposition ((hmove l' hl').still (.inl rfl))
  | reanchor floor =>
    obtain ⟨hle,hfloor⟩ := hpoint.read
    refine ⟨floor,h.change rfl ⟨rfl,rfl,rfl⟩ ?_ (.inr hle) hsub (fun x hx => .inr ?_) ?_⟩
    · rw [hcursor]
      exact h.registered.update _ _
    · rintro ⟨e,he,rfl⟩
      exact hfloor e he
    · exact fun l' hl' => (hnext l' hl').reposition ((hmove l' hl').still (.inr ⟨floor,rfl⟩))

theorem Delivered.step (h : Delivered v t last) {opts : SubscribeOpts}
    (hcursor : opts.cursorId = v.cursorId) {a : SystemAction} (hok : LoopOk v t a) {t' : System}
    (hstep : t.step opts a = some t') : ∃ last', Delivered v t' last' := by
  cases a with
  | world a =>
    obtain ⟨w',hw,rfl⟩ := Option.map_eq_some_iff.mp hstep
    exact ⟨last,h.world hok hw⟩
  | loop env => exact h.loop hcursor hstep
  | stop =>
    simp only [System.step] at hstep
    split at hstep <;> cases hstep
    rename_i l hl
    refine ⟨last,h.prov,h.keeps,h.registered,h.bound,h.safe,fun l' hl' => ?_⟩
    split_ifs at hl'
    · cases hl'
    · cases hl'
      exact h.point l hl
  | crash =>
    cases hstep
    exact ⟨last,h.prov,h.keeps,h.registered,h.bound,h.safe,by rintro _ ⟨⟩⟩
  | start =>
    simp only [System.step] at hstep
    split_ifs at hstep
    cases hstep
    refine ⟨last,h.prov,h.keeps,h.registered,h.bound,h.safe,?_⟩
    rintro _ ⟨⟩
    exact .plain rfl

end Delivered

def watchOf (c : CursorRow) (s : SubscriptionRow) (w : World) : Watch where
  cursorId := c.cursorId
  subscriptionId := c.subscriptionId
  filter := s.eventTypeFilter
  startId := c.lastEventId
  startSeq := w.bus.eventSeq
  startLive := w.bus.live

section Guarantee

variable {db₀ : Db} {archive : Archive} {as₀ : List Action} {w₀ : World} {opts : SubscribeOpts}
variable {c : CursorRow} {s : SubscriptionRow}

theorem Delivered.start (hreach : Run World.step (fun _ _ => True) (World.start db₀ archive) as₀ w₀)
    (hc : c ∈ w₀.bus.cursors) (hactive : c.deregisteredAt = none) (hs : s ∈ w₀.bus.subscriptions)
    (hsub : s.subscriptionId = c.subscriptionId) (hsactive : s.deregisteredAt = none) :
    Delivered (watchOf c s w₀) (System.start w₀) c.lastEventId where
  prov := (Provenance.start db₀ archive).run hreach
  keeps := .run hreach
  registered := ⟨⟨c,hc,rfl,hactive,rfl,rfl⟩,⟨s,hs,hsub,hsactive,rfl⟩⟩
  bound := .inl le_rfl
  safe := by
    rintro x ⟨⟨r,hr,rfl⟩,hlive | hnew,hid,-⟩
    · exact .inr ⟨hlive,hid⟩
    · have hle := ((Provenance.start db₀ archive).run hreach).log_le r hr
      have hlt : w₀.bus.eventSeq < r.eventId := hnew
      omega
  point := by rintro _ ⟨⟩

theorem at_least_once
    (hreach : Run World.step (fun _ _ => True) (World.start db₀ archive) as₀ w₀)
    (hc : c ∈ w₀.bus.cursors) (hcursor : opts.cursorId = c.cursorId) (hactive : c.deregisteredAt = none)
    (hs : s ∈ w₀.bus.subscriptions) (hsub : s.subscriptionId = c.subscriptionId)
    (hsactive : s.deregisteredAt = none) {as : List SystemAction} {t : System}
    (hrun : Run (System.step opts) (LoopOk (watchOf c s w₀)) (System.start w₀) as t) {r : EventRow}
    (hr : r ∈ t.world.log) (haccepted : r.fixedPart ∈ w₀.bus.live ∨ w₀.bus.eventSeq < r.eventId)
    (hid : c.lastEventId < r.eventId) (hmatch : r.matchesSql s.eventTypeFilter = true) :
    r.eventId ∈ t.resolved ∨ r.eventId ∈ t.deadLettered ∨
      ∃ e ∈ t.world.bus.events, e.fixedPart = r.fixedPart ∧
        ∃ c' ∈ t.world.bus.cursors, c'.cursorId = opts.cursorId ∧ c'.lastEventId < e.eventId := by
  have hstart := Delivered.start hreach hc hactive hs hsub hsactive
  obtain ⟨last,h⟩ : ∃ last, Delivered (watchOf c s w₀) t last :=
    hrun.invariant (I := fun t => ∃ last, Delivered (watchOf c s w₀) t last)
      (fun _ _ _ ⟨_,hu⟩ hok hstep => hu.step hcursor hok hstep) ⟨_,hstart⟩
  rcases h.safe r.fixedPart ⟨⟨r,hr,rfl⟩,haccepted,hid,hmatch⟩ with hset | ⟨⟨e,he,hre⟩,hlast⟩
  · exact (List.mem_append.mp hset).imp_right .inl
  · obtain ⟨c',hc',hck,-,-,rfl⟩ := h.registered.cursor
    exact .inr (.inr ⟨e,he,hre,c',hc',hck.trans hcursor.symm,(eventId_of_fixedPart hre).symm ▸ hlast⟩)

end Guarantee

def emitsOnly : SystemAction → Bool
  | .world (.bus (.emit _ _)) => true
  | .world _ => false
  | _ => true

theorem loopOk_of_emitsOnly {v : Watch} {t : System} {a : SystemAction} (h : emitsOnly a = true) :
    LoopOk v t a := by
  cases a with
  | world a =>
    cases a with
    | bus op =>
      cases op with
      | emit params uuid =>
        refine ⟨trivial,fun db hdb => ?_⟩
        have hframe := emit_frame (toOption_eq_some.mp hdb)
        exact ⟨by rw [hframe.cursors],by rw [hframe.subscriptions]⟩
      | _ => cases h
    | _ => cases h
  | _ => trivial

def sampleSubscription : SubscriptionRow :=
  ⟨"s1","wicked-testing",.subscriber,"wicked.*".toList,none,0,none⟩

def sampleCursor : CursorRow := ⟨"c1","s1",0,none,0,none⟩

def sampleOpts : SubscribeOpts := ⟨"c1","s1",50,0⟩

def registeredWorld : List Action :=
  [.bus (.insertSubscription sampleSubscription),.bus (.insertCursor sampleCursor)]

def crashInHandler : List SystemAction :=
  [.world (.bus (.emit expiredSample "u")),.start] ++
    List.replicate 9 (.loop ⟨false,false,"handler failed",5000⟩) ++ [.crash,.start]

theorem at_least_once_after_crash :
    ∃ t : System, t.resolved = [] ∧ t.deadLettered = [] ∧ t.loop = some ⟨.idle,false⟩ ∧
      (1 ∈ t.resolved ∨ 1 ∈ t.deadLettered ∨
        ∃ e ∈ t.world.bus.events, e.fixedPart = (expiredSample.row 1).fixedPart ∧
          ∃ c' ∈ t.world.bus.cursors, c'.cursorId = "c1" ∧ c'.lastEventId < e.eventId) := by
  have hreach : (exec World.step (.start .empty .empty) registeredWorld).any (fun w =>
      decide (sampleCursor ∈ w.bus.cursors) && decide (sampleSubscription ∈ w.bus.subscriptions) &&
      decide (w.bus.eventSeq = 0) &&
      (exec (guarded (fun _ a => emitsOnly a = true) (System.step sampleOpts)) (.start w) crashInHandler).any
        (fun t => decide (t.resolved = []) && decide (t.deadLettered = []) &&
          decide (t.loop = some ⟨.idle,false⟩) && decide (expiredSample.row 1 ∈ t.world.log))) = true := by
    decide +kernel
  obtain ⟨w,hw,hobs⟩ := (Option.any_eq_true _ _).mp hreach
  simp only [Bool.and_eq_true,decide_eq_true_eq] at hobs
  obtain ⟨⟨⟨hc,hs⟩,hseq⟩,hrun⟩ := hobs
  obtain ⟨t,ht,hobs⟩ := (Option.any_eq_true _ _).mp hrun
  simp only [Bool.and_eq_true,decide_eq_true_eq] at hobs
  exact ⟨t,hobs.1.1.1,hobs.1.1.2,hobs.1.2,
    at_least_once (run_of_exec hw) hc rfl rfl hs rfl rfl
      ((run_of_guarded ht).mono fun _ _ h => loopOk_of_emitsOnly h) hobs.2 (.inr (by rw [hseq]; decide))
      (by decide) (by decide +kernel)⟩

end WickedBus
