import WickedBus.Daemon

namespace WickedBus

open GuardedRun

structure Registry where
  daemon : Daemon
  lastHello : String → Option ℕ

def Registry.start : Registry := ⟨startedDaemon,fun _ => none⟩

def noteHello (lastHello : String → Option ℕ) : DaemonAction → String → Option ℕ
  | .frame i (.hello subscriberId _ _) _ => Function.update lastHello subscriberId (some i)
  | _ => lastHello

def Registry.step (cfg : DaemonConfig) (t : Registry) (a : DaemonAction) : Option Registry :=
  (t.daemon.step cfg a).map (fun r => ⟨r.1,noteHello t.lastHello a⟩)

structure RegistryOk (t : Registry) : Prop where
  connected : ∀ id i, (id,i) ∈ t.daemon.subscribers → (t.daemon.sessions i).isSome = true
  latest : ∀ id i s, t.lastHello id = some i → t.daemon.sessions i = some s →
    s.subscriberId = some id → t.daemon.subscribers.lookup id = some i

structure CloseOk (t : Registry) (i : ℕ) (s : Session) : Prop where
  own : ∀ e ∈ t.daemon.subscribers, e.2 = i → s.subscriberId = some e.1
  sole : ∀ id ∈ s.subscriberId, ∀ j ∈ t.daemon.subscribers.lookup id, ∀ r ∈ t.daemon.sessions j,
    r.subscriberId = some id → j = i

instance (t : Registry) (i : ℕ) (s : Session) : Decidable (CloseOk t i s) :=
  decidable_of_iff (_ ∧ _) ⟨fun h => CloseOk.mk h.1 h.2,fun h => ⟨h.own,h.sole⟩⟩

def HelloOk (t : Registry) : DaemonAction → Prop
  | .socketClosed i => ∀ s ∈ t.daemon.sessions i, CloseOk t i s
  | _ => True

instance (t : Registry) (a : DaemonAction) : Decidable (HelloOk t a) := by
  cases a <;> unfold HelloOk <;> infer_instance

structure Tracking (t : Registry) : Prop where
  fresh : ∀ i, t.daemon.accepted ≤ i → t.daemon.sessions i = none
  heard : ∀ id i, t.lastHello id = some i → i < t.daemon.accepted
  registered : ∀ id i, t.daemon.subscribers.lookup id = some i → t.lastHello id = some i

structure KeepsRegistry (d d' : Daemon) : Prop where
  subscribers : d'.subscribers = d.subscribers
  accepted : d'.accepted = d.accepted
  sessions : ∀ i, (d'.sessions i).map Session.subscriberId = (d.sessions i).map Session.subscriberId

def Session.identity (s : Session) : Option String × ℤ × Option QueryFilter :=
  (s.subscriberId,s.cursor,s.filter)

section Session

variable (s : Session) (cfg : DaemonConfig) (now : ℤ) (room : ℕ) (line : Frame)

theorem Session.identity_flush : (s.flush room).1.identity = s.identity := by
  unfold Session.flush
  split_ifs <;> rfl

theorem Session.identity_degrade (reason : DegradeReason) :
    (s.degrade now reason).1.identity = s.identity := by
  unfold Session.degrade
  split_ifs <;> rfl

theorem Session.identity_checkHighWatermark :
    (s.checkHighWatermark cfg now).1.identity = s.identity := by
  unfold Session.checkHighWatermark
  split_ifs
  · split
    · rfl
    · split_ifs
      · exact s.identity_degrade now _
      · rfl
  · rfl

theorem Session.identity_push : (s.push cfg line).identity = s.identity := by
  unfold Session.push
  split_ifs <;> rfl

theorem Session.identity_enqueue : (s.enqueue cfg now room line).1.identity = s.identity := by
  unfold Session.enqueue
  split_ifs
  · rfl
  · exact (identity_flush _ room).trans
      ((identity_checkHighWatermark _ cfg now).trans (s.identity_push cfg line))

variable {s} in
theorem Session.subscriberId_of_identity {r : Session} (h : r.identity = s.identity) :
    r.subscriberId = s.subscriberId :=
  congrArg Prod.fst h

variable {s} in
theorem Session.cursor_of_identity {r : Session} (h : r.identity = s.identity) : r.cursor = s.cursor :=
  congrArg (fun x => x.2.1) h

end Session

section Keeps

variable {d d' : Daemon} {cfg : DaemonConfig} {env : DaemonEnv}

theorem KeepsRegistry.refl (d : Daemon) : KeepsRegistry d d := ⟨rfl,rfl,fun _ => rfl⟩

theorem KeepsRegistry.trans {a b c : Daemon} (hab : KeepsRegistry a b) (hbc : KeepsRegistry b c) :
    KeepsRegistry a c :=
  ⟨hbc.subscribers.trans hab.subscribers,hbc.accepted.trans hab.accepted,
    fun i => (hbc.sessions i).trans (hab.sessions i)⟩

theorem KeepsRegistry.setSession {i : ℕ} {s r : Session} (hs : d.sessions i = some s)
    (hr : r.subscriberId = s.subscriberId) : KeepsRegistry d (d.setSession i r) := by
  refine ⟨rfl,rfl,fun j => ?_⟩
  by_cases hj : j = i
  · subst hj
    simp [Daemon.setSession,hs,hr]
  · simp [Daemon.setSession,Function.update_of_ne hj]

theorem keepsRegistry_enqueueAt (line : Frame) (acc : Daemon × List (ℕ × Frame)) (i : ℕ) :
    KeepsRegistry acc.1 (Daemon.enqueueAt cfg env line acc i).1 := by
  unfold Daemon.enqueueAt
  split
  · exact .refl _
  · exact .setSession ‹_› (Session.subscriberId_of_identity (Session.identity_enqueue _ _ _ _ _))

theorem keepsRegistry_foldl (line : Frame) (is : List ℕ) (acc : Daemon × List (ℕ × Frame)) :
    KeepsRegistry acc.1 (is.foldl (Daemon.enqueueAt cfg env line) acc).1 := by
  induction is generalizing acc with
  | nil => exact .refl _
  | cons i is ih => exact (keepsRegistry_enqueueAt line acc i).trans (ih _)

theorem keepsRegistry_step {a : DaemonAction} {r : Daemon × List (ℕ × Frame)}
    (h : d.step cfg a = some r) (hconnect : a ≠ .connect) (hclose : ∀ i, a ≠ .socketClosed i)
    (hhello : ∀ i id cursor filter env, a ≠ .frame i (.hello id cursor filter) env) :
    KeepsRegistry d r.1 := by
  cases a with
  | connect => exact absurd rfl hconnect
  | socketClosed i => exact absurd rfl (hclose i)
  | broadcast row env =>
    cases h
    exact keepsRegistry_foldl _ _ (d,[])
  | stop now =>
    cases h
    refine ⟨rfl,rfl,fun i => ?_⟩
    cases hs : d.sessions i with
    | none => simp [hs]
    | some s =>
      simp [hs,Session.subscriberId_of_identity (s.identity_degrade now .daemonShutdown)]
  | malformed i =>
    obtain ⟨s,hs,rfl⟩ := Option.map_eq_some_iff.mp h
    exact .setSession hs rfl
  | drained i room =>
    obtain ⟨s,hs,rfl⟩ := Option.map_eq_some_iff.mp h
    exact .setSession hs (Session.subscriberId_of_identity (Session.identity_flush _ room))
  | frame i frame env =>
    obtain ⟨s,hs,rfl⟩ := Option.map_eq_some_iff.mp h
    cases frame with
    | hello id cursor filter => exact absurd rfl (hhello i id cursor filter env)
    | ack eventId => exact .setSession hs (by cases eventId <;> rfl)
    | ping => exact keepsRegistry_enqueueAt _ (d,[]) i
    | produced event =>
      cases event with
      | none => exact .refl _
      | some row => exact keepsRegistry_foldl _ _ (d,[])
    | unknown kind => exact .refl _

end Keeps


section Invariant

variable {t u : Registry} {cfg : DaemonConfig} {a : DaemonAction}

theorem RegistryOk.keep (h : RegistryOk t) {d : Daemon} (hk : KeepsRegistry t.daemon d) :
    RegistryOk ⟨d,t.lastHello⟩ where
  connected id i hi := by
    rw [hk.subscribers] at hi
    have hsome := h.connected id i hi
    rw [← Option.isSome_map (f := Session.subscriberId)] at hsome ⊢
    exact hk.sessions i ▸ hsome
  latest id i s hlast hs hid := by
    have hmap := hk.sessions i
    rw [show d.sessions i = some s from hs,Option.map_some,eq_comm,Option.map_eq_some_iff] at hmap
    obtain ⟨r,hr,hrs⟩ := hmap
    show d.subscribers.lookup id = some i
    rw [hk.subscribers]
    exact h.latest id i r hlast hr (hrs.trans hid)

theorem Tracking.keep (h : Tracking t) {d : Daemon} (hk : KeepsRegistry t.daemon d) :
    Tracking ⟨d,t.lastHello⟩ where
  fresh i hi := by
    have hmap := hk.sessions i
    rw [h.fresh i (hk.accepted ▸ hi),Option.map_none,Option.map_eq_none_iff] at hmap
    exact hmap
  heard id i hi := (h.heard id i hi).trans_le hk.accepted.ge
  registered id i hi := h.registered id i (hk.subscribers ▸ hi)

theorem RegistryOk.connect (h : RegistryOk t) (ht : Tracking t)
    (hstep : t.step cfg .connect = some u) : RegistryOk u := by
  cases hstep
  refine ⟨fun id i hi => ?_,fun id i s hlast hs hid => ?_⟩
  · have hsome := h.connected id i hi
    by_cases hne : i = t.daemon.accepted
    · simp [Daemon.setSession,hne]
    · simpa [Daemon.setSession,Function.update_of_ne hne] using hsome
  · have hne : i ≠ t.daemon.accepted := (ht.heard id i hlast).ne
    simp only [Daemon.setSession,Function.update_of_ne hne] at hs
    exact h.latest id i s hlast hs hid

theorem Tracking.connect (h : Tracking t) (hstep : t.step cfg .connect = some u) : Tracking u := by
  cases hstep
  refine ⟨fun i hi => ?_,fun id i hi => (h.heard id i hi).trans (Nat.lt_succ_self _),h.registered⟩
  have hi' : t.daemon.accepted + 1 ≤ i := hi
  simp only [Daemon.setSession,Function.update_of_ne (show i ≠ t.daemon.accepted by omega)]
  exact h.fresh i (by omega)

section Hello

variable {i : ℕ} {s : Session} {id : String} {cursor : Option ℤ} {filter : Option QueryFilter}

theorem RegistryOk.hello (h : RegistryOk t) (s : Session) :
    RegistryOk ⟨{ t.daemon.setSession i (s.hello id cursor filter) with
      subscribers := AssocMap.set t.daemon.subscribers id i },Function.update t.lastHello id (some i)⟩ := by
  refine ⟨fun k j hj => ?_,fun k j r hlast hr hid => ?_⟩
  · by_cases hji : j = i
    · simp [Daemon.setSession,hji]
    · rcases AssocMap.mem_set hj with heq | hj
      · cases heq
        exact absurd rfl hji
      · simpa [Daemon.setSession,Function.update_of_ne hji] using h.connected k j hj
  · by_cases hk : k = id
    · subst hk
      simp only [Function.update_self,Option.some.injEq] at hlast
      subst hlast
      exact AssocMap.lookup_set_self _ _ _
    · simp only [Function.update_of_ne hk] at hlast
      by_cases hji : j = i
      · subst hji
        simp only [Daemon.setSession,Function.update_self,Option.some.injEq] at hr
        subst hr
        exact absurd (Option.some.inj hid).symm hk
      · simp only [Daemon.setSession,Function.update_of_ne hji] at hr
        exact (AssocMap.lookup_set_ne hk).trans (h.latest k j r hlast hr hid)

theorem Tracking.hello (h : Tracking t) (hs : t.daemon.sessions i = some s) :
    Tracking ⟨{ t.daemon.setSession i (s.hello id cursor filter) with
      subscribers := AssocMap.set t.daemon.subscribers id i },Function.update t.lastHello id (some i)⟩ := by
  have hlt : i < t.daemon.accepted := by
    by_contra hge
    rw [h.fresh i (not_lt.mp hge)] at hs
    cases hs
  refine ⟨fun j hj => ?_,fun k j hj => ?_,fun k j hj => ?_⟩
  · have hj' : t.daemon.accepted ≤ j := hj
    simp only [Daemon.setSession,Function.update_of_ne (show j ≠ i by omega)]
    exact h.fresh j hj'
  · by_cases hk : k = id
    · subst hk
      simp only [Function.update_self,Option.some.injEq] at hj
      exact hj ▸ hlt
    · exact h.heard k j (by simpa [Function.update_of_ne hk] using hj)
  · by_cases hk : k = id
    · subst hk
      have hj' : (AssocMap.set t.daemon.subscribers k i).lookup k = some j := hj
      rw [AssocMap.lookup_set_self] at hj'
      simpa using hj'
    · have hj' : (AssocMap.set t.daemon.subscribers id i).lookup k = some j := hj
      rw [AssocMap.lookup_set_ne hk] at hj'
      simpa [Function.update_of_ne hk] using h.registered k j hj'

end Hello

section Close

variable {i : ℕ} {s : Session}

theorem lookup_registryDelete (m : List (String × ℕ)) (owner : Option String) (k : String) :
    (registryDelete m owner).lookup k = if owner = some k then none else m.lookup k := by
  cases owner with
  | none => simp [registryDelete]
  | some id => simp [registryDelete,AssocMap.lookup_erase,eq_comm]

theorem mem_registryDelete {m : List (String × ℕ)} {owner : Option String} {k : String} {j : ℕ} :
    (k,j) ∈ registryDelete m owner ↔ (k,j) ∈ m ∧ owner ≠ some k := by
  cases owner with
  | none => simp [registryDelete]
  | some id => simp [registryDelete,AssocMap.mem_erase,eq_comm]

theorem RegistryOk.close (h : RegistryOk t) (hok : CloseOk t i s) :
    RegistryOk ⟨t.daemon.socketClosed i s,t.lastHello⟩ := by
  refine ⟨fun id j hj => ?_,fun id j r hlast hr hid => ?_⟩
  · obtain ⟨hmem,hne⟩ := mem_registryDelete.mp hj
    have hji : j ≠ i := by
      rintro rfl
      exact hne (hok.own _ hmem rfl)
    simpa [Daemon.socketClosed,Function.update_of_ne hji] using h.connected id j hmem
  · have hji : j ≠ i := by
      rintro rfl
      simp [Daemon.socketClosed] at hr
    simp only [Daemon.socketClosed,Function.update_of_ne hji] at hr
    have hlook := h.latest id j r hlast hr hid
    show (registryDelete t.daemon.subscribers s.subscriberId).lookup id = some j
    rw [lookup_registryDelete]
    split_ifs with howner
    · exact absurd (hok.sole id howner j hlook r hr hid) hji
    · exact hlook

theorem closeOk_of_registryOk (ht : Tracking t)
    (h : RegistryOk ⟨t.daemon.socketClosed i s,t.lastHello⟩) : CloseOk t i s := by
  refine ⟨?_,fun id howner j hlook r hr hid => ?_⟩
  · rintro ⟨id,_⟩ hmem rfl
    by_contra hne
    have hsome := h.connected id _ (mem_registryDelete.mpr ⟨hmem,hne⟩)
    simp [Daemon.socketClosed] at hsome
  · by_contra hji
    have hr' : (t.daemon.socketClosed i s).sessions j = some r := by
      simpa [Daemon.socketClosed,Function.update_of_ne hji] using hr
    have hlook' := h.latest id j r (ht.registered id j hlook) hr' hid
    have hdel : (registryDelete t.daemon.subscribers s.subscriberId).lookup id = some j := hlook'
    rw [lookup_registryDelete,if_pos (Option.mem_def.mp howner)] at hdel
    cases hdel

theorem Tracking.close (h : Tracking t) : Tracking ⟨t.daemon.socketClosed i s,t.lastHello⟩ := by
  refine ⟨fun j hj => ?_,h.heard,fun id j hj => ?_⟩
  · have hj' := h.fresh j hj
    by_cases hji : j = i
    · simp [Daemon.socketClosed,hji]
    · simpa [Daemon.socketClosed,Function.update_of_ne hji] using hj'
  · have hdel : (registryDelete t.daemon.subscribers s.subscriberId).lookup id = some j := hj
    rw [lookup_registryDelete] at hdel
    split_ifs at hdel
    exact h.registered id j hdel

end Close

theorem registry_step (h : RegistryOk t ∧ Tracking t) (hok : HelloOk t a) (hstep : t.step cfg a = some u) :
    RegistryOk u ∧ Tracking u := by
  obtain ⟨h,ht⟩ := h
  have hstep' := hstep
  obtain ⟨r,hr,rfl⟩ := Option.map_eq_some_iff.mp hstep
  cases a with
  | connect => exact ⟨h.connect ht hstep',ht.connect hstep'⟩
  | socketClosed i =>
    obtain ⟨s,hs,rfl⟩ := Option.map_eq_some_iff.mp hr
    exact ⟨h.close (hok s hs),ht.close⟩
  | frame i frame env =>
    cases frame with
    | hello id cursor filter =>
      obtain ⟨s,hs,rfl⟩ := Option.map_eq_some_iff.mp hr
      exact ⟨h.hello s,ht.hello hs⟩
    | _ =>
      have hk := keepsRegistry_step hr (by simp) (by simp) (by simp)
      exact ⟨h.keep hk,ht.keep hk⟩
  | _ =>
    have hk := keepsRegistry_step hr (by simp) (by simp) (by simp)
    exact ⟨h.keep hk,ht.keep hk⟩

end Invariant

section Broadcast

theorem mem_flushQueue {line : Frame} {room : ℕ} {queue : List Frame} (h : line ∈ queue) :
    line ∈ (flushQueue room queue).1 ∨ line ∈ (flushQueue room queue).2 := by
  induction queue generalizing room with
  | nil => cases h
  | cons x queue ih =>
    cases room with
    | zero => exact .inr h
    | succ room =>
      simp only [flushQueue,List.mem_cons]
      rcases List.mem_cons.mp h with rfl | h
      · exact .inl (.inl rfl)
      · exact (ih h).imp_left .inr

theorem Session.enqueue_carries (s : Session) (cfg : DaemonConfig) (now : ℤ) (room : ℕ) (line : Frame) :
    line ∈ (s.enqueue cfg now room line).2 ∨ line ∈ (s.enqueue cfg now room line).1.queue ∨
      (s.enqueue cfg now room line).1.closed = true := by
  have hpush : line ∈ (s.push cfg line).queue := by
    unfold Session.push
    split_ifs <;> simp
  have hmark : line ∈ ((s.push cfg line).checkHighWatermark cfg now).1.queue := by
    unfold Session.checkHighWatermark Session.degrade
    repeat' split
    all_goals exact hpush
  unfold Session.enqueue
  split_ifs with hc
  · exact .inr (.inr hc)
  · simp only [Session.flush]
    split_ifs with hclosed
    · exact .inr (.inr hclosed)
    · rcases @mem_flushQueue _ room _ hmark with h | h
      · exact .inl (List.mem_append_right _ h)
      · exact .inr (.inl h)

def Reached (line : Frame) (i : ℕ) (acc : Daemon × List (ℕ × Frame)) : Prop :=
  ∀ r, acc.1.sessions i = some r → (i,line) ∈ acc.2 ∨ line ∈ r.queue ∨ r.closed = true

variable {cfg : DaemonConfig} {env : DaemonEnv} {line : Frame} {i j : ℕ}
variable {acc : Daemon × List (ℕ × Frame)}

theorem reached_enqueueAt_self : Reached line i (Daemon.enqueueAt cfg env line acc i) := by
  intro r hr
  unfold Daemon.enqueueAt at hr ⊢
  cases hs : acc.1.sessions i with
  | none => simp [hs] at hr
  | some s =>
    simp only [hs,Daemon.setSession,Function.update_self,Option.some.injEq] at hr ⊢
    subst hr
    refine (s.enqueue_carries cfg env.now (env.room i) line).imp_left fun h => ?_
    exact List.mem_append_right _ (List.mem_map_of_mem h)

theorem Reached.enqueueAt (h : Reached line i acc) (hj : j ≠ i) :
    Reached line i (Daemon.enqueueAt cfg env line acc j) := by
  intro r hr
  unfold Daemon.enqueueAt at hr ⊢
  cases hs : acc.1.sessions j with
  | none =>
    simp only [hs] at hr ⊢
    exact h r hr
  | some s =>
    simp only [hs,Daemon.setSession,Function.update_of_ne hj.symm] at hr ⊢
    exact (h r hr).imp_left (List.mem_append_left _)

theorem reached_foldl {is : List ℕ} (h : i ∈ is) :
    Reached line i (is.foldl (Daemon.enqueueAt cfg env line) acc) := by
  induction is using List.reverseRecOn with
  | nil => cases h
  | append_singleton is j ih =>
    rw [List.foldl_append,List.foldl_cons,List.foldl_nil]
    by_cases hj : j = i
    · subst hj
      exact reached_enqueueAt_self
    · have hi : i ∈ is := (List.mem_append.mp h).resolve_right
        (fun hmem => hj (List.mem_singleton.mp hmem).symm)
      exact (ih hi).enqueueAt hj

end Broadcast

theorem registry_delivers {cfg : DaemonConfig} {as : List DaemonAction} {t : Registry}
    (hrun : Run (Registry.step cfg) HelloOk .start as t) :
    (∀ id i, (id,i) ∈ t.daemon.subscribers → (t.daemon.sessions i).isSome = true) ∧
    (∀ id i s, t.lastHello id = some i → t.daemon.sessions i = some s → s.subscriberId = some id →
      t.daemon.subscribers.lookup id = some i ∧
        ∀ env row, s.receives row = true →
          Reached (cfg.notify row) i (t.daemon.broadcast cfg env row)) ∧
    ∀ i s, t.daemon.sessions i = some s →
      (RegistryOk ⟨t.daemon.socketClosed i s,t.lastHello⟩ ↔ CloseOk t i s) := by
  have hinv : RegistryOk t ∧ Tracking t := by
    refine hrun.invariant (I := fun t => RegistryOk t ∧ Tracking t)
      (fun _ _ _ hu hok hstep => registry_step hu hok hstep) ⟨⟨?_,?_⟩,?_,?_,?_⟩
    · exact fun id i hi => by cases hi
    · exact fun id i s hlast => by cases hlast
    · exact fun _ _ => rfl
    · exact fun id i hi => by cases hi
    · exact fun id i hi => by cases hi
  obtain ⟨hok,htrack⟩ := hinv
  refine ⟨hok.connected,fun id i s hlast hs hid => ?_,fun i s hs => ?_⟩
  · have hlook := hok.latest id i s hlast hs hid
    refine ⟨hlook,fun env row hrow => reached_foldl ?_⟩
    have hmem : i ∈ t.daemon.subscribers.map Prod.snd :=
      List.mem_map_of_mem (AssocMap.mem_of_lookup hlook)
    exact List.mem_filter.mpr ⟨hmem,by rw [hs,Option.any_some,hrow]⟩
  · exact ⟨fun h => closeOk_of_registryOk htrack h,fun h => hok.close h⟩

def sampleDaemonConfig : DaemonConfig := ⟨fun _ => 0,16384,256,3 / 4,30000⟩

def sampleDaemonEnv : DaemonEnv := ⟨0,fun _ => 1⟩

def helloFrame (i : ℕ) (subscriberId : String) : DaemonAction :=
  .frame i (.hello subscriberId (some 0) none) sampleDaemonEnv

def reconnectAfterClose : List DaemonAction :=
  [.connect,helloFrame 0 "s",.socketClosed 0,.connect,helloFrame 1 "s"]

theorem registry_delivers_after_reconnect :
    ∃ t : Registry, t.lastHello "s" = some 1 ∧ t.daemon.subscribers.lookup "s" = some 1 ∧
      ∃ s, t.daemon.sessions 1 = some s ∧ ∀ env row, s.receives row = true →
        Reached (sampleDaemonConfig.notify row) 1 (t.daemon.broadcast sampleDaemonConfig env row) := by
  have hrun : (exec (guarded HelloOk (Registry.step sampleDaemonConfig)) .start reconnectAfterClose).any
      (fun t => decide (t.lastHello "s" = some 1) && (t.daemon.sessions 1).any
        (fun s => decide (s.subscriberId = some "s"))) = true := by
    decide +kernel
  obtain ⟨t,ht,hobs⟩ := (Option.any_eq_true _ _).mp hrun
  simp only [Bool.and_eq_true,decide_eq_true_eq,Option.any_eq_true] at hobs
  obtain ⟨hlast,s,hs,hid⟩ := hobs
  obtain ⟨hlook,hreach⟩ := (registry_delivers (run_of_guarded ht)).2.1 "s" 1 s hlast hs hid
  exact ⟨t,hlast,hlook,s,hs,hreach⟩

def reconnectOvertakesClose : List DaemonAction :=
  [.connect,helloFrame 0 "s",.connect,helloFrame 1 "s",.socketClosed 0]

theorem reconnect_left_silent :
    ∃ t : Registry, exec (Registry.step sampleDaemonConfig) .start reconnectOvertakesClose = some t ∧
      t.lastHello "s" = some 1 ∧
      (t.daemon.sessions 1).any (fun s => decide (s.subscriberId = some "s") && !s.closed) = true ∧
      t.daemon.subscribers = [] := by
  refine ⟨_,rfl,rfl,?_,?_⟩ <;> decide +kernel

end WickedBus
