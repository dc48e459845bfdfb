import WickedBus.Ordering

namespace WickedBus

open GuardedRun

def HostAction.sweeps : HostAction → Bool
  | .world (.sweep _ _) | .world (.bus (.sweep _ _)) => true
  | _ => false

section Live

variable {cfg : SubscriberConfig} {env : TickEnv} {db : Db} {p : TickPoint} {r : TickResult} {w w' : World}
variable {l l' : Lane} {a : HostAction} {i : ℤ}

theorem TickEffect.sameEvents (h : TickEffect cfg env db p r) : SameEvents db r.bus := by
  cases h with
  | still rows batch events => exact rows.toSameEvents
  | select filter lastEventId => exact ⟨rfl,rfl,rfl⟩
  | invoke work => exact ⟨rfl,rfl,rfl⟩
  | ack work handled moved => exact moveCursor_sameEvents moved
  | reanchor lastEventId oldest moved => exact moveCursor_sameEvents moved

theorem LiveId.same {db' : Db} (h : LiveId db i) (hsame : SameEvents db db') : LiveId db' i := by
  unfold LiveId
  rwa [hsame.live]

theorem World.live_or_sweep {b : Action} (hstep : w.step b = some w') (h : LiveId w.bus i) :
    LiveId w'.bus i ∨ HostAction.sweeps (.world b) = true := by
  cases b with
  | bus op =>
    obtain ⟨db,hop,rfl⟩ := Option.map_eq_some_iff.mp hstep
    rcases busOp_cases hop with ⟨params,uuid,rfl,he⟩ | ⟨config,clock,result,rfl,-⟩ | hs
    · obtain ⟨x,hx,hid⟩ := h
      refine .inl ⟨x,?_,hid⟩
      show x ∈ db.live
      rw [emit_live he]
      exact Set.mem_insert_of_mem _ hx
    · exact .inr rfl
    · exact .inl (h.same hs)
  | beginSweep p config clock =>
    obtain ⟨cfg,-,-,rfl⟩ := World.step_begin hstep
    exact .inl h
  | sweep p env => exact .inr rfl
  | crash p =>
    cases hstep
    exact .inl h

theorem LaneStep.live_or_sweep (hstep : LaneStep cfg l a l') (h : LiveId l.world.bus i) :
    LiveId l'.world.bus i ∨ a.sweeps = true := by
  cases hstep with
  | world hw => exact World.live_or_sweep hw h
  | ticked sleep point awake shape => exact .inl (h.same tickStep_effect.sameEvents)
  | _ => exact .inl h

theorem LaneStep.trace_mem (hstep : LaneStep cfg l a l') {e : LoopEvent} (he : e ∈ l.trace) : e ∈ l'.trace := by
  cases hstep with
  | ticked sleep point awake shape => exact List.mem_append_left _ he
  | stopped alive running quiet => exact List.mem_append_left _ he
  | started dead idle running => exact List.mem_append_left _ he
  | _ => exact he

theorem LaneStep.carries {B : ℤ → ℤ → Prop} (hstep : LaneStep cfg l a l') (h : ∀ p ∈ l.point, Carries B p)
    (hwindow : ∀ lastEventId oldest, Oldest l.world.bus oldest → B lastEventId oldest) :
    ∀ p ∈ l'.point, Carries B p := by
  cases hstep with
  | ticked sleep point awake shape =>
    exact tickStep_carries (fun cursor oldest _ _ holdest => hwindow _ _ holdest) (h _ point)
  | begun alive idle running =>
    rintro _ ⟨⟩
    trivial
  | woken work k asleep =>
    rintro _ ⟨⟩
    trivial
  | stopped alive running quiet =>
    intro q hq
    obtain ⟨p,hp,rfl⟩ := Option.map_eq_some_iff.mp hq
    have hcarry := h p hp
    cases p <;> exact hcarry
  | crashed => simp
  | _ => exact h

theorem LaneStep.reanchored (hstep : LaneStep cfg l a l') {es : List LoopEvent} (htrace : l'.trace = l.trace ++ es)
    {e : LoopEvent} (he : e ∈ es) {floor : ℤ}
    (hevent : e = .reanchored floor ∨ ∃ lastEventId, e = .reported (.behindWindow lastEventId floor)) :
    ∃ i env lastEventId, a = .resume i env ∧ l.point = some (.reanchor lastEventId (floor + 1)) ∧
      moveCursor l.world.bus cfg.cursorId floor env.now = .ok l'.world.bus := by
  have hsame : l'.trace = l.trace → False := by
    intro heq
    have hnone : es = [] := by simpa [heq] using htrace
    rw [hnone] at he
    cases he
  have hpos : e.positions = true := by rcases hevent with rfl | ⟨last,rfl⟩ <;> rfl
  cases hstep with
  | world hw => exact (hsame rfl).elim
  | begun alive idle running => exact (hsame rfl).elim
  | woken work k asleep => exact (hsame rfl).elim
  | again stopping => exact (hsame rfl).elim
  | crashed => exact (hsame rfl).elim
  | stopped alive running quiet =>
    rw [← List.append_cancel_left htrace,List.mem_singleton] at he
    rw [he] at hpos
    cases hpos
  | started dead idle running =>
    rw [← List.append_cancel_left htrace,List.mem_singleton] at he
    rw [he] at hpos
    cases hpos
  | @ticked p i env sleep point awake shape =>
    have heff := @tickStep_effect cfg env l.stopping sleep l.world.bus p
    unfold Lane.ticked at htrace ⊢
    generalize tickStep cfg env l.stopping sleep l.world.bus p = r at htrace heff ⊢
    obtain rfl := List.append_cancel_left htrace
    cases heff with
    | still rows batch events =>
      rw [events e he] at hpos
      cases hpos
    | select filter lastEventId => cases he
    | invoke work => rcases hevent with rfl | ⟨last,rfl⟩ <;> simp at he
    | ack work handled moved => rcases hevent with rfl | ⟨last,rfl⟩ <;> simp at he
    | reanchor lastEventId oldest moved =>
      have hfloor : oldest - 1 = floor := by rcases hevent with rfl | ⟨last,rfl⟩ <;> simp at he <;> omega
      obtain rfl : oldest = floor + 1 := by omega
      rw [Int.add_sub_cancel] at moved
      exact ⟨i,env,lastEventId,rfl,point,moved⟩

end Live

abbrev SoleRun (cfg : SubscriberConfig) : Host → List HostAction → Host → Prop :=
  Run (Host.step cfg) (fun t a => SoleWriter cfg t.lane a)

def Seen (cfg : SubscriberConfig) (w : World) (as : List HostAction) (t : Host) (oldest : ℤ) : Prop :=
  ∃ pre post u, as = pre ++ post ∧ SoleRun cfg (Host.idle w) pre u ∧ SoleRun cfg u post t ∧
    Oldest u.world.bus oldest

def RemovedBySweep (cfg : SubscriberConfig) (i : ℤ) (t : Host) (as : List HostAction) : Prop :=
  ∃ a, a.sweeps = true ∧ Lost (Host.step cfg) (fun t a => SoleWriter cfg t.lane a)
    (fun t => LiveId t.world.bus i) t as a

section Seen

variable {cfg : SubscriberConfig} {w : World} {as : List HostAction} {t t' : Host}

theorem Seen.snoc {oldest : ℤ} (h : Seen cfg w as t oldest) {a : HostAction} (hok : SoleWriter cfg t.lane a)
    (hstep : t.step cfg a = some t') : Seen cfg w (as ++ [a]) t' oldest := by
  obtain ⟨pre,post,u,rfl,hpre,hpost,holdest⟩ := h
  exact ⟨pre,post ++ [a],u,List.append_assoc _ _ _,hpre,.snoc hpost hok hstep,holdest⟩

theorem Seen.now (hrun : SoleRun cfg (Host.idle w) as t)
    {oldest : ℤ} (h : Oldest t.world.bus oldest) : Seen cfg w as t oldest :=
  ⟨as,[],t,(List.append_nil as).symm,hrun,.nil,h⟩

theorem Seen.run (hrun : SoleRun cfg (Host.idle w) as t) :
    ∀ p ∈ t.lane.point, Carries (fun _ oldest => Seen cfg w as t oldest) p := by
  induction hrun with
  | nil => simp [Host.lane,Host.idle]
  | @snoc t t' as a hrun hok hstep ih =>
    have hlane := (Host.step_lane (Host.run_shaped (Host.shaped_idle w) hrun) hstep).2
    refine hlane.carries (fun p hp => (ih p hp).mono fun _ _ hseen => hseen.snoc hok hstep) ?_
    intro _ oldest holdest
    exact (Seen.now hrun holdest).snoc hok hstep

theorem removedBySweep (hshaped : t.Shaped) (hrun : SoleRun cfg t as t') {i : ℤ} (hlive : LiveId t.world.bus i)
    (hgone : ¬ LiveId t'.world.bus i) : RemovedBySweep cfg i t as := by
  obtain ⟨a,bs,cs,m,m',hsplit,hbs,hstep,hm,hm'⟩ := hrun.lost (P := fun t => LiveId t.world.bus i) hlive hgone
  have hlane := (Host.step_lane (Host.run_shaped hshaped hbs) hstep).2
  exact ⟨a,(hlane.live_or_sweep hm).resolve_left hm',bs,cs,m,m',hsplit,hbs,hstep,hm,hm'⟩

end Seen

theorem reanchor_law {cfg : SubscriberConfig} {w : World} {c : CursorRow} {s : SubscriptionRow}
    (hc : w.bus.cursors.get? cfg.cursorId = some c) (hs : w.bus.subscriptions.get? c.subscriptionId = some s)
    {as : List HostAction} {t t₁ : Host} (hrun : SoleRun cfg (Host.idle w) as t)
    {a : HostAction} (hstep : t.step cfg a = some t₁) {es : List LoopEvent} (htrace : t₁.trace = t.trace ++ es)
    {floor : ℤ} (hre : .reanchored floor ∈ es) :
    (∀ e ∈ t.world.bus.events, floor < e.eventId) ∧
    (∃ c₁, t₁.world.bus.cursors.get? cfg.cursorId = some c₁ ∧ c₁.lastEventId = floor) ∧
    ∃ pre post u, as = pre ++ post ∧ SoleRun cfg (Host.idle w) pre u ∧ SoleRun cfg u post t ∧
      Oldest u.world.bus (floor + 1) ∧
      ∀ bs t₂ b t₃ es' lastEventId floor', SoleRun cfg t₁ bs t₂ → t₂.step cfg b = some t₃ →
        t₃.trace = t₂.trace ++ es' → .reported (.behindWindow lastEventId floor') ∈ es' →
        ¬ LiveId t₂.world.bus (floor + 1) ∧ RemovedBySweep cfg (floor + 1) u (post ++ a :: bs) ∧
          (LiveId t.world.bus (floor + 1) → RemovedBySweep cfg (floor + 1) t₁ bs) := by
  have hshaped := Host.run_shaped (Host.shaped_idle w) hrun
  obtain ⟨hshaped₁,hlane⟩ := Host.step_lane hshaped hstep
  obtain ⟨last,horder⟩ := Host.run_lane (I := fun l => ∃ last, InOrder cfg s.eventTypeFilter l last)
    (fun _ _ _ => InOrder.kept) hrun (Host.shaped_idle w) ⟨_,InOrder.start hc hs⟩
  obtain ⟨i,env,lastEventId,rfl,hpoint,hmove⟩ := hlane.reanchored htrace hre (.inl rfl)
  have hbehind : Behind t.world.bus last lastEventId (floor + 1) := (horder.point _ hpoint).window
  obtain ⟨pre,post,u,hsplit,hpre,hpost,holdest⟩ := Seen.run hrun _ hpoint
  have hok : SoleWriter cfg t.lane (.resume i env) := trivial
  refine ⟨fun e he => Int.lt_of_add_one_le (hbehind.oldest e.fixedPart (mem_live he)),?_,
    pre,post,u,hsplit,hpre,hpost,holdest,?_⟩
  · obtain ⟨c₁,hc₁,hlast₁,-⟩ := (horder.told.placed.move hmove).cursor
    exact ⟨c₁,hc₁,hlast₁⟩
  · intro bs t₂ b t₃ es' lastEventId' floor' hrun₂ hstep₂ htrace₂ hreport
    have hinv := Host.run_lane (I := fun l => (∃ last, InOrder cfg s.eventTypeFilter l last) ∧
        .reanchored floor ∈ l.trace)
      (fun _ _ _ h hok hs => ⟨InOrder.kept h.1 hok hs,hs.trace_mem h.2⟩) hrun₂ hshaped₁
      ⟨InOrder.kept ⟨last,horder⟩ hok hlane,by show _ ∈ t₁.trace; rw [htrace]; exact List.mem_append_right _ hre⟩
    obtain ⟨⟨last₂,horder₂⟩,hmoved⟩ := hinv
    have hlane₂ := (Host.step_lane (Host.run_shaped hshaped₁ hrun₂) hstep₂).2
    obtain ⟨i₂,env₂,l₂,rfl,hpoint₂,-⟩ := hlane₂.reanchored htrace₂ hreport (.inr ⟨_,rfl⟩)
    have hbehind₂ : Behind t₂.world.bus last₂ l₂ (floor' + 1) := (horder₂.point _ hpoint₂).window
    have hgone : ¬ LiveId t₂.world.bus (floor + 1) := by
      rintro ⟨x,hx,hid⟩
      have hfloor := horder₂.told.moved floor (.inr hmoved)
      have hgap := hbehind₂.gap
      have hall := hbehind₂.oldest x hx
      omega
    refine ⟨hgone,?_,fun hlive => ?_⟩
    · have hfull := (Run.snoc hpost hok hstep).append hrun₂
      rw [List.append_assoc,List.singleton_append] at hfull
      exact removedBySweep (Host.run_shaped (Host.shaped_idle w) hpre) hfull holdest.live hgone
    · exact removedBySweep hshaped₁ hrun₂ (hlive.same (moveCursor_sameEvents hmove)) hgone

def discardAt (now : ℤ) : HostAction := .world (.bus (.sweep ⟨some "discard",none,false,some now,none,none⟩ 0))

def sweptTwice : List HostAction :=
  [.start,.world (.bus (.emit expiredSample "u")),
    .world (.bus (.emit { expiredSample with idempotencyKey := "k2", expiresAt := 4000 } "u")),
    .world (.bus (.emit { expiredSample with idempotencyKey := "k3", expiresAt := 90000 } "u")),
    discardAt 3000,.fire 0] ++ List.replicate 5 (settle .resolved)

def afterReanchor : List HostAction :=
  [settle .resolved,discardAt 5000,.fire 1] ++ List.replicate 5 (settle .resolved)

theorem reanchor_law_swept_twice :
    ∃ t t₁ t₂ t₃ : Host, t₁.trace = [.started] ++ [.reanchored 1,.reported (.behindWindow 0 1)] ∧
      t₃.trace = t₂.trace ++ [.reanchored 2,.reported (.behindWindow 1 2)] ∧
      (∀ e ∈ t.world.bus.events, 1 < e.eventId) ∧ RemovedBySweep sampleSubscriber 2 t₁ afterReanchor := by
  have hreach : (exec (guarded (fun t a => SoleWriter sampleSubscriber t.lane a) (Host.step sampleSubscriber))
      subscribedHost sweptTwice).any (fun t =>
        decide (t.trace = [.started]) && t.world.bus.events.rows.any (fun e => decide (e.eventId = 2)) &&
        (t.step sampleSubscriber (settle .resolved)).any (fun t₁ =>
          decide (t₁.trace = [.started] ++ [.reanchored 1,.reported (.behindWindow 0 1)]) &&
          (exec (guarded (fun t a => SoleWriter sampleSubscriber t.lane a) (Host.step sampleSubscriber))
            t₁ afterReanchor).any (fun t₂ =>
              (t₂.step sampleSubscriber (settle .resolved)).any (fun t₃ =>
                decide (t₃.trace = t₂.trace ++ [.reanchored 2,.reported (.behindWindow 1 2)]))))) = true := by
    decide +kernel
  obtain ⟨t,ht,hobs⟩ := (Option.any_eq_true _ _).mp hreach
  simp only [Bool.and_eq_true,decide_eq_true_eq] at hobs
  obtain ⟨⟨htrace,hlive⟩,hobs⟩ := hobs
  obtain ⟨e,he,hid⟩ := List.any_eq_true.mp hlive
  obtain ⟨t₁,ht₁,hobs₁⟩ := (Option.any_eq_true _ _).mp hobs
  simp only [Bool.and_eq_true,decide_eq_true_eq] at hobs₁
  obtain ⟨t₂,ht₂,hobs₂⟩ := (Option.any_eq_true _ _).mp hobs₁.2
  obtain ⟨t₃,ht₃,htrace₃⟩ := (Option.any_eq_true _ _).mp hobs₂
  have htrace₃ := of_decide_eq_true htrace₃
  obtain ⟨hfloor,-,pre,post,u,-,-,-,-,hnext⟩ := @reanchor_law sampleSubscriber _ sampleCursor sampleSubscription rfl
    rfl _ t t₁ (run_of_guarded ht) _ ht₁ [.reanchored 1,.reported (.behindWindow 0 1)] (by rw [htrace,hobs₁.1]) 1
    (by simp)
  obtain ⟨-,-,hremoved⟩ := hnext _ t₂ _ t₃ _ 1 2 (run_of_guarded ht₂) ht₃ htrace₃ (by simp)
  exact ⟨t,t₁,t₂,t₃,hobs₁.1,htrace₃,hfloor,hremoved ⟨_,mem_live he,of_decide_eq_true hid⟩⟩

end WickedBus
