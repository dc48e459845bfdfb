import WickedBus.Schema

namespace WickedBus

open WickedBus.Filter (Text)

inductive UnackedPolicy where
  | retain | archive | discard
  deriving DecidableEq, Repr

structure SweepConfig where
  unackedPolicy : Option String
  unackedRetentionDays : Option ConfigNumber
  archiveMode : Bool
  now : Option ℤ
  sweepBatchSize : Option ℕ
  bucketMaxBytes : Option ℕ
  deriving DecidableEq, Repr

def resolveUnackedPolicy (config : SweepConfig) : Except BusError UnackedPolicy :=
  let policy := config.unackedPolicy.getD "retain"
  if policy = "retain" then .ok .retain
  else if policy = "archive" then .ok .archive
  else if policy = "discard" then .ok .discard
  else .error (.invalidConfig
    ("Invalid config: unacked_policy must be one of retain, archive, discard (got '" ++ policy ++ "')"))

def dayMs : ℚ := 86400000

def defaultUnackedRetentionDays : ℚ := 30

def resolveRetentionCapDays (config : SweepConfig) : Except BusError ℚ :=
  match config.unackedRetentionDays.getD (.finite defaultUnackedRetentionDays) with
  | .finite days =>
    if days ≤ 0 then .error (.invalidRetentionDays (.finite days)) else .ok days
  | .notFinite text => .error (.invalidRetentionDays (.notFinite text))

structure OwedRow where
  eventId : ℤ
  cursorId : String
  deriving DecidableEq, Repr

def OwedRow.primaryKey (o : OwedRow) : String ×ₗ ℤ := toLex (o.cursorId,o.eventId)

theorem OwedRow.primaryKey_injective : Function.Injective OwedRow.primaryKey := by
  rintro ⟨_,_⟩ ⟨_,_⟩ h
  simpa [OwedRow.primaryKey,and_comm] using h

abbrev OwedTable := KeyedTable OwedRow OwedRow.primaryKey

structure ActiveCursor where
  cursorId : String
  lastEventId : ℤ
  eventTypeFilter : Text
  deriving DecidableEq, Repr

def activeCursor (db : Db) (c : CursorRow) : Option ActiveCursor :=
  if c.deregisteredAt = none then
    match db.subscriptions.get? c.subscriptionId with
    | none => none
    | some s =>
      if s.deregisteredAt = none then some ⟨c.cursorId,c.lastEventId,s.eventTypeFilter⟩ else none
  else none

def activeCursors (db : Db) : List ActiveCursor := db.cursors.rows.filterMap (activeCursor db)

def EventRow.expired (now : ℤ) (e : EventRow) : Bool := e.expiresAt < (now : ℚ)

def EventRow.overCap (now : ℤ) (capDays : ℚ) (e : EventRow) : Bool :=
  (e.emittedAt : ℚ) < (now : ℚ) - capDays * dayMs

def owedOfCursor (db : Db) (now : ℤ) (c : ActiveCursor) : List OwedRow :=
  (db.events.rows.filter
    (fun e => e.expired now && decide (c.lastEventId < e.eventId) && e.matchesSql c.eventTypeFilter)).map
    (fun e => ⟨e.eventId,c.cursorId⟩)

def insertOwedOf (db : Db) (now : ℤ) (owed : OwedTable) (c : ActiveCursor) : OwedTable :=
  owed.insertAll (owedOfCursor db now c)

def attemptOwed (db : Db) (now : ℤ) (d : DeliveryAttemptRow) : Bool :=
  (db.events.get? d.eventId).any (EventRow.expired now) &&
    (db.cursors.get? d.cursorId).any (fun c => c.deregisteredAt = none)

def insertOwedAttempts (db : Db) (now : ℤ) (owed : OwedTable) : OwedTable :=
  owed.insertAll
    ((db.deliveryAttempts.rows.filter (attemptOwed db now)).map (fun d => ⟨d.eventId,d.cursorId⟩))

def collectOwedExpired (db : Db) (now : ℤ) : OwedTable :=
  insertOwedAttempts db now ((activeCursors db).foldl (insertOwedOf db now) .empty)

structure OwedPair where
  eventId : ℤ
  cursorId : String
  overCap : Bool
  deriving DecidableEq, Repr

def owedPairsWithCap (db : Db) (now : ℤ) (capDays : ℚ) (owed : OwedTable) : List OwedPair :=
  owed.rows.filterMap (fun o =>
    (db.events.get? o.eventId).map (fun e => ⟨o.eventId,o.cursorId,e.overCap now capDays⟩))

inductive Disposition where
  | retained | archived | discarded
  deriving DecidableEq, Repr

inductive Reason where
  | unackedPolicy | retentionCap | retentionCapPending
  deriving DecidableEq, Repr

structure Fate where
  disposition : Disposition
  reason : Reason
  deriving DecidableEq, Repr

def UnackedPolicy.verb : UnackedPolicy → Disposition
  | .retain => .retained
  | .archive => .archived
  | .discard => .discarded

def Disposition.rank : Disposition → ℕ
  | .archived => 0
  | .discarded => 1
  | .retained => 2

structure ReportLine where
  cursorId : String
  count : ℕ
  oldestEventId : ℤ
  newestEventId : ℤ
  fate : Fate
  deriving DecidableEq, Repr

structure UnackedReport where
  counts : List (Disposition × ℕ)
  retentionCapDays : ℚ
  cursors : List ReportLine
  deriving DecidableEq, Repr

def Disposition.text : Disposition → Text
  | .retained => "retained".toList
  | .archived => "archived".toList
  | .discarded => "discarded".toList

def Reason.text : Reason → Text
  | .unackedPolicy => "unacked_policy".toList
  | .retentionCap => "retention_cap".toList
  | .retentionCapPending => "retention_cap_pending".toList

def keySeparator : Char := Char.ofNat 0

def lineKey (cursorId : String) (fate : Fate) : Text :=
  cursorId.toList ++ keySeparator :: fate.disposition.text ++ keySeparator :: fate.reason.text

def ReportLine.covers (fateOf : OwedPair → Fate) (l : ReportLine) (p : OwedPair) : Bool :=
  lineKey l.cursorId l.fate = lineKey p.cursorId (fateOf p)

def ReportLine.extend (l : ReportLine) (p : OwedPair) : ReportLine :=
  { l with
    count := l.count + 1
    oldestEventId := min l.oldestEventId p.eventId
    newestEventId := max l.newestEventId p.eventId }

def addToLines (fateOf : OwedPair → Fate) (lines : List ReportLine) (p : OwedPair) :
    List ReportLine :=
  if lines.any (fun l => l.covers fateOf p) then
    lines.map (fun l => if l.covers fateOf p then l.extend p else l)
  else lines ++ [⟨p.cursorId,1,p.eventId,p.eventId,fateOf p⟩]

def addToCounts (fateOf : OwedPair → Fate) (counts : List (Disposition × List ℤ)) (p : OwedPair) :
    List (Disposition × List ℤ) :=
  if counts.any (fun c => c.1 = (fateOf p).disposition) then
    counts.map (fun c => if c.1 = (fateOf p).disposition then (c.1,c.2.insert p.eventId) else c)
  else counts ++ [((fateOf p).disposition,[p.eventId])]

def ReportLine.before (a b : ReportLine) : Prop :=
  a.cursorId < b.cursorId ∨ (a.cursorId = b.cursorId ∧ a.fate.disposition.rank ≤ b.fate.disposition.rank)

instance : DecidableRel ReportLine.before := fun a b => by
  unfold ReportLine.before
  infer_instance

def buildUnackedReport (pairs : List OwedPair) (fateOf : OwedPair → Fate) (policy : UnackedPolicy)
    (capDays : ℚ) : UnackedReport where
  counts := (pairs.foldl (addToCounts fateOf) [(policy.verb,[])]).map (fun c => (c.1,c.2.length))
  retentionCapDays := capDays
  cursors := (pairs.foldl (addToLines fateOf) []).insertionSort ReportLine.before

def Owes (db : Db) (cursorId : String) (e : EventRow) : Prop :=
  (∃ c ∈ db.cursors, c.cursorId = cursorId ∧ c.deregisteredAt = none ∧ c.lastEventId < e.eventId ∧
    ∃ s ∈ db.subscriptions, s.subscriptionId = c.subscriptionId ∧ s.deregisteredAt = none ∧
      e.matchesSql s.eventTypeFilter = true) ∨
  (∃ d ∈ db.deliveryAttempts, d.cursorId = cursorId ∧ d.eventId = e.eventId ∧
    ∃ c ∈ db.cursors, c.cursorId = cursorId ∧ c.deregisteredAt = none)

def expiredEvents (db : Db) (now : ℤ) : Set EventRow := {e | e ∈ db.events ∧ e.expired now = true}

def owedEvents (db : Db) (now : ℤ) : Set EventRow :=
  {e | e ∈ expiredEvents db now ∧ ∃ cursorId, Owes db cursorId e}

def overCapEvents (now : ℤ) (capDays : ℚ) : Set EventRow := {e | e.overCap now capDays = true}

theorem mem_activeCursors {db : Db} {a : ActiveCursor} :
    a ∈ activeCursors db ↔ ∃ c ∈ db.cursors, c.deregisteredAt = none ∧
      ∃ s ∈ db.subscriptions, s.subscriptionId = c.subscriptionId ∧ s.deregisteredAt = none ∧
        a = ⟨c.cursorId,c.lastEventId,s.eventTypeFilter⟩ := by
  simp only [activeCursors,List.mem_filterMap,activeCursor]
  refine exists_congr fun c => and_congr_right fun _ => ?_
  constructor
  · intro h
    split_ifs at h with hc
    split at h
    · cases h
    · rename_i s hs
      obtain ⟨hmem,hk⟩ := KeyedTable.get?_eq_some.mp hs
      split_ifs at h with hd
      exact ⟨hc,s,hmem,hk,hd,(Option.some.inj h).symm⟩
  · rintro ⟨hc,s,hs,hk,hd,rfl⟩
    rw [if_pos hc,KeyedTable.get?_eq_some.mpr ⟨hs,hk⟩]
    exact if_pos hd

theorem mem_foldl_insertOwedOf {db : Db} {now : ℤ} {cs : List ActiveCursor} {t : OwedTable}
    {o : OwedRow} :
    o ∈ cs.foldl (insertOwedOf db now) t ↔ o ∈ t ∨ ∃ c ∈ cs, o ∈ owedOfCursor db now c := by
  induction cs generalizing t with
  | nil => simp
  | cons c cs ih =>
    rw [List.foldl_cons,ih,insertOwedOf,
      KeyedTable.mem_insertAll_of_injective OwedRow.primaryKey_injective]
    simp [or_assoc]

theorem mem_owedOfCursor {db : Db} {now : ℤ} {c : ActiveCursor} {o : OwedRow} :
    o ∈ owedOfCursor db now c ↔ ∃ e ∈ db.events, e.expired now = true ∧ c.lastEventId < e.eventId ∧
      e.matchesSql c.eventTypeFilter = true ∧ o = ⟨e.eventId,c.cursorId⟩ := by
  simp only [owedOfCursor,List.mem_map,List.mem_filter,Bool.and_eq_true,decide_eq_true_eq,
    KeyedTable.mem_rows,and_assoc,eq_comm (a := o)]

theorem attemptOwed_iff {db : Db} {now : ℤ} {d : DeliveryAttemptRow} :
    attemptOwed db now d = true ↔ (∃ e ∈ db.events, e.eventId = d.eventId ∧ e.expired now = true) ∧
      ∃ c ∈ db.cursors, c.cursorId = d.cursorId ∧ c.deregisteredAt = none := by
  simp only [attemptOwed,Bool.and_eq_true,Option.any_eq_true,decide_eq_true_eq,
    KeyedTable.get?_eq_some,and_assoc]

theorem mem_collectOwedExpired {db : Db} {now : ℤ} {o : OwedRow} :
    o ∈ collectOwedExpired db now ↔
      ∃ e ∈ expiredEvents db now, e.eventId = o.eventId ∧ Owes db o.cursorId e := by
  obtain ⟨i,k⟩ := o
  simp only [collectOwedExpired,insertOwedAttempts,
    KeyedTable.mem_insertAll_of_injective OwedRow.primaryKey_injective,mem_foldl_insertOwedOf,
    KeyedTable.not_mem_empty,false_or,mem_owedOfCursor,List.mem_map,List.mem_filter,
    KeyedTable.mem_rows,attemptOwed_iff,mem_activeCursors,OwedRow.mk.injEq]
  constructor
  · rintro (⟨a,⟨c,hc,hcd,s,hs,hsk,hsd,rfl⟩,e,he,hexp,hlast,hm,rfl,rfl⟩ |
      ⟨d,⟨hd,⟨e,he,hek,hexp⟩,c,hc,hck,hcd⟩,rfl,rfl⟩)
    · exact ⟨e,⟨he,hexp⟩,rfl,.inl ⟨c,hc,rfl,hcd,hlast,s,hs,hsk,hsd,hm⟩⟩
    · exact ⟨e,⟨he,hexp⟩,hek,.inr ⟨d,hd,rfl,hek.symm,c,hc,hck,hcd⟩⟩
  · rintro ⟨e,⟨he,hexp⟩,rfl,⟨c,hc,rfl,hcd,hlast,s,hs,hsk,hsd,hm⟩ | ⟨d,hd,rfl,hdk,c,hc,hck,hcd⟩⟩
    · exact .inl ⟨_,⟨c,hc,hcd,s,hs,hsk,hsd,rfl⟩,e,he,hexp,hlast,hm,rfl,rfl⟩
    · exact .inr ⟨d,⟨hd,⟨e,he,hdk.symm,hexp⟩,c,hc,hck,hcd⟩,hdk,rfl⟩

theorem mem_owedPairs {db : Db} {now : ℤ} {capDays : ℚ} {p : OwedPair} :
    p ∈ owedPairsWithCap db now capDays (collectOwedExpired db now) ↔
      ∃ e ∈ expiredEvents db now, Owes db p.cursorId e ∧ e.eventId = p.eventId ∧
        p.overCap = e.overCap now capDays := by
  obtain ⟨i,k,oc⟩ := p
  simp only [owedPairsWithCap,List.mem_filterMap,KeyedTable.mem_rows,mem_collectOwedExpired,
    Option.map_eq_some_iff,KeyedTable.get?_eq_some,OwedPair.mk.injEq]
  constructor
  · rintro ⟨o,⟨e,he,hek,ho⟩,r,⟨hr,hrk⟩,rfl,rfl,rfl⟩
    exact ⟨e,he,ho,hek,by rw [KeyedTable.eq_of_key he.1 hr (hek.trans hrk.symm)]⟩
  · rintro ⟨e,he,ho,rfl,rfl⟩
    exact ⟨⟨e.eventId,k⟩,⟨e,he,rfl,ho⟩,e,⟨he.1,rfl⟩,rfl,rfl,rfl⟩

section Keys

theorem Disposition.separator_free (d : Disposition) : keySeparator ∉ d.text := by
  cases d <;> decide

theorem Reason.separator_free (r : Reason) : keySeparator ∉ r.text := by
  cases r <;> decide

theorem lastField_prefix {c : Char} {a b x y : Text} (hx : c ∉ x) (h : a ++ c :: x = b ++ c :: y) :
    ∃ more, b ++ more = a := by
  rcases List.append_eq_append_iff.mp h with ⟨more,hb,hrest⟩ | ⟨more,ha,-⟩
  · cases more with
    | nil => exact ⟨[],by simpa using hb⟩
    | cons d more =>
      obtain ⟨-,rfl⟩ := List.cons.inj hrest
      exact absurd (List.mem_append_right _ List.mem_cons_self) hx
  · exact ⟨more,ha.symm⟩

theorem lastField_injective {c : Char} {a b x y : Text} (hx : c ∉ x) (hy : c ∉ y)
    (h : a ++ c :: x = b ++ c :: y) : a = b ∧ x = y := by
  obtain ⟨more,rfl⟩ := lastField_prefix hx h
  obtain ⟨less,hless⟩ := lastField_prefix hy h.symm
  have hnil : more = [] := by
    rw [List.append_assoc,List.append_right_eq_self] at hless
    exact (List.append_eq_nil_iff.mp hless).1
  subst hnil
  rw [List.append_nil] at h ⊢
  exact ⟨rfl,(List.cons.inj (List.append_cancel_left h)).2⟩

theorem lineKey_injective {k k' : String} {f f' : Fate} (h : lineKey k f = lineKey k' f') : k = k' ∧ f = f' := by
  have hdisposition : Function.Injective Disposition.text := by
    intro d d'
    cases d <;> cases d' <;> decide
  have hreason : Function.Injective Reason.text := by
    intro r r'
    cases r <;> cases r' <;> decide
  obtain ⟨d,r⟩ := f
  obtain ⟨d',r'⟩ := f'
  obtain ⟨hfront,hlast⟩ := lastField_injective r.separator_free r'.separator_free h
  obtain ⟨hcursor,hmiddle⟩ := lastField_injective d.separator_free d'.separator_free hfront
  cases hdisposition hmiddle
  cases hreason hlast
  exact ⟨String.toList_injective hcursor,rfl⟩

theorem ReportLine.covers_iff {fateOf : OwedPair → Fate} {l : ReportLine} {p : OwedPair} :
    l.covers fateOf p = true ↔ l.cursorId = p.cursorId ∧ l.fate = fateOf p := by
  simp only [ReportLine.covers,decide_eq_true_eq]
  constructor
  · exact lineKey_injective
  · rintro ⟨hcursor,hfate⟩
    rw [hcursor,hfate]

end Keys

structure ReportLine.Describes (fateOf : OwedPair → Fate) (pairs : List OwedPair) (l : ReportLine) :
    Prop where
  count : l.count = pairs.countP (fun p => l.covers fateOf p)
  oldest : ∃ p ∈ pairs, l.covers fateOf p = true ∧ p.eventId = l.oldestEventId
  newest : ∃ p ∈ pairs, l.covers fateOf p = true ∧ p.eventId = l.newestEventId
  within : ∀ p ∈ pairs, l.covers fateOf p = true →
    l.oldestEventId ≤ p.eventId ∧ p.eventId ≤ l.newestEventId

structure LinesOf (fateOf : OwedPair → Fate) (pairs : List OwedPair) (lines : List ReportLine) :
    Prop where
  describes : ∀ l ∈ lines, l.Describes fateOf pairs
  complete : ∀ p ∈ pairs, ∃ l ∈ lines, l.covers fateOf p = true
  distinct : lines.Pairwise (fun a b => (a.cursorId,a.fate) ≠ (b.cursorId,b.fate))

@[simp] theorem ReportLine.covers_extend (fateOf : OwedPair → Fate) (l : ReportLine)
    (p q : OwedPair) : (l.extend p).covers fateOf q = l.covers fateOf q := rfl

section Lines

variable {fateOf : OwedPair → Fate} {pairs : List OwedPair} {lines : List ReportLine}

theorem ReportLine.Describes.snoc_uncovered {l : ReportLine} {p : OwedPair}
    (h : l.Describes fateOf pairs) (hp : l.covers fateOf p = false) :
    l.Describes fateOf (pairs ++ [p]) := by
  obtain ⟨a,ha,hac,hao⟩ := h.oldest
  obtain ⟨b,hb,hbc,hbn⟩ := h.newest
  refine ⟨?_,⟨a,by simp [ha],hac,hao⟩,⟨b,by simp [hb],hbc,hbn⟩,?_⟩
  · simp [List.countP_append,hp,h.count]
  · intro q hq hqc
    rcases List.mem_append.mp hq with hq | hq
    · exact h.within q hq hqc
    · rw [List.mem_singleton.mp hq,hp] at hqc
      cases hqc

theorem ReportLine.Describes.snoc_extend {l : ReportLine} {p : OwedPair}
    (h : l.Describes fateOf pairs) (hp : l.covers fateOf p = true) :
    (l.extend p).Describes fateOf (pairs ++ [p]) := by
  obtain ⟨a,ha,hac,hao⟩ := h.oldest
  obtain ⟨b,hb,hbc,hbn⟩ := h.newest
  refine ⟨?_,?_,?_,?_⟩
  · simp only [ReportLine.covers_extend,List.countP_append,List.countP_singleton,hp,if_true]
    rw [← h.count]
    rfl
  · rcases le_total l.oldestEventId p.eventId with hle | hle
    · exact ⟨a,by simp [ha],hac,by simp [ReportLine.extend,hle,hao]⟩
    · exact ⟨p,by simp,hp,by simp [ReportLine.extend,hle]⟩
  · rcases le_total l.newestEventId p.eventId with hle | hle
    · exact ⟨p,by simp,hp,by simp [ReportLine.extend,hle]⟩
    · exact ⟨b,by simp [hb],hbc,by simp [ReportLine.extend,hle,hbn]⟩
  · intro q hq hqc
    simp only [ReportLine.extend,min_le_iff,le_max_iff]
    rcases List.mem_append.mp hq with hq | hq
    · have := h.within q hq hqc
      omega
    · rw [List.mem_singleton.mp hq]
      omega

theorem LinesOf.snoc (h : LinesOf fateOf pairs lines) (p : OwedPair) :
    LinesOf fateOf (pairs ++ [p]) (addToLines fateOf lines p) := by
  unfold addToLines
  split_ifs with hany
  · obtain ⟨l,hl,hlp⟩ := List.any_eq_true.mp hany
    refine ⟨?_,?_,?_⟩
    · intro m hm
      obtain ⟨k,hk,rfl⟩ := List.mem_map.mp hm
      split_ifs with hc
      · exact (h.describes k hk).snoc_extend hc
      · exact (h.describes k hk).snoc_uncovered (by simpa using hc)
    · have hmap : ∀ q, (∃ k ∈ lines, k.covers fateOf q = true) →
          ∃ m ∈ lines.map (fun l => if l.covers fateOf p then l.extend p else l),
            m.covers fateOf q = true := by
        rintro q ⟨k,hk,hkq⟩
        refine ⟨_,List.mem_map_of_mem hk,?_⟩
        split_ifs
        · exact hkq
        · exact hkq
      intro q hq
      rcases List.mem_append.mp hq with hq | hq
      · exact hmap q (h.complete q hq)
      · exact hmap q ⟨l,hl,List.mem_singleton.mp hq ▸ hlp⟩
    · rw [List.pairwise_map]
      refine h.distinct.imp fun hab => ?_
      split_ifs <;> exact hab
  · have hnone : ∀ l ∈ lines, l.covers fateOf p = false := by simpa using hany
    have hno : ∀ q ∈ pairs, (⟨p.cursorId,1,p.eventId,p.eventId,fateOf p⟩ : ReportLine).covers fateOf q
        = false := by
      intro q hq
      obtain ⟨l,hl,hlq⟩ := h.complete q hq
      have hlp := hnone l hl
      simp only [← Bool.not_eq_true,ReportLine.covers_iff] at hlq hlp ⊢
      rintro ⟨h1,h2⟩
      exact hlp ⟨hlq.1.trans h1.symm,hlq.2.trans h2.symm⟩
    have hself : (⟨p.cursorId,1,p.eventId,p.eventId,fateOf p⟩ : ReportLine).covers fateOf p = true := by
      simp [ReportLine.covers_iff]
    refine ⟨?_,?_,?_⟩
    · intro m hm
      rcases List.mem_append.mp hm with hm | hm
      · exact (h.describes m hm).snoc_uncovered (hnone m hm)
      · rw [List.mem_singleton.mp hm]
        refine ⟨?_,⟨p,by simp,hself,rfl⟩,⟨p,by simp,hself,rfl⟩,?_⟩
        · rw [List.countP_append,List.countP_eq_zero.mpr (by simpa using hno)]
          simp [hself]
        · intro q hq hqc
          rcases List.mem_append.mp hq with hq | hq
          · rw [hno q hq] at hqc
            cases hqc
          · rw [List.mem_singleton.mp hq]
            exact ⟨le_rfl,le_rfl⟩
    · intro q hq
      rcases List.mem_append.mp hq with hq | hq
      · obtain ⟨l,hl,hlq⟩ := h.complete q hq
        exact ⟨l,by simp [hl],hlq⟩
      · rw [List.mem_singleton.mp hq]
        exact ⟨_,List.mem_append_right _ List.mem_cons_self,hself⟩
    · rw [List.pairwise_append]
      refine ⟨h.distinct,List.pairwise_singleton _ _,?_⟩
      intro a ha b hb heq
      have hbp : b.covers fateOf p = true := List.mem_singleton.mp hb ▸ hself
      have hap := hnone a ha
      simp only [← Bool.not_eq_true,ReportLine.covers_iff] at hap hbp
      simp only [Prod.mk.injEq] at heq
      exact hap ⟨heq.1.trans hbp.1,heq.2.trans hbp.2⟩

theorem linesOf_foldl (fateOf : OwedPair → Fate) (pairs : List OwedPair) :
    LinesOf fateOf pairs (pairs.foldl (addToLines fateOf) []) := by
  induction pairs using List.reverseRecOn with
  | nil => exact ⟨by simp,by simp,.nil⟩
  | append_singleton pairs p ih =>
    rw [List.foldl_append]
    exact ih.snoc p

theorem LinesOf.perm {lines' : List ReportLine} (h : LinesOf fateOf pairs lines)
    (hp : lines.Perm lines') : LinesOf fateOf pairs lines' where
  describes l hl := h.describes l (hp.mem_iff.mpr hl)
  complete p hpm := by
    obtain ⟨l,hl,hc⟩ := h.complete p hpm
    exact ⟨l,hp.mem_iff.mp hl,hc⟩
  distinct := (hp.pairwise_iff (fun hab => hab.symm)).mp h.distinct

end Lines

instance : Std.Total ReportLine.before := ⟨by
  intro a b
  simp only [ReportLine.before]
  rcases lt_trichotomy a.cursorId b.cursorId with h | h | h
  · exact .inl (.inl h)
  · rcases le_total a.fate.disposition.rank b.fate.disposition.rank with hr | hr
    · exact .inl (.inr ⟨h,hr⟩)
    · exact .inr (.inr ⟨h.symm,hr⟩)
  · exact .inr (.inl h)⟩

instance : IsTrans ReportLine ReportLine.before := ⟨by
  rintro a b c (hab | ⟨hab,hr⟩) (hbc | ⟨hbc,hs⟩)
  · exact .inl (hab.trans hbc)
  · exact .inl (hbc ▸ hab)
  · exact .inl (hab ▸ hbc)
  · exact .inr ⟨hab.trans hbc,hr.trans hs⟩⟩

structure CountsOf (fateOf : OwedPair → Fate) (policy : UnackedPolicy) (pairs : List OwedPair)
    (counts : List (Disposition × List ℤ)) : Prop where
  nodup : ∀ c ∈ counts, c.2.Nodup
  ids : ∀ c ∈ counts, ∀ i, i ∈ c.2 ↔ ∃ p ∈ pairs, (fateOf p).disposition = c.1 ∧ p.eventId = i
  keys : ∀ d, (∃ c ∈ counts, c.1 = d) ↔ d = policy.verb ∨ ∃ p ∈ pairs, (fateOf p).disposition = d

theorem countsOf_foldl (fateOf : OwedPair → Fate) (policy : UnackedPolicy) (pairs : List OwedPair) :
    CountsOf fateOf policy pairs (pairs.foldl (addToCounts fateOf) [(policy.verb,[])]) := by
  induction pairs using List.reverseRecOn with
  | nil => exact ⟨by simp,by simp,by simp [eq_comm]⟩
  | append_singleton pairs p ih =>
    rw [List.foldl_append,List.foldl_cons,List.foldl_nil]
    set counts := pairs.foldl (addToCounts fateOf) [(policy.verb,[])]
    unfold addToCounts
    split_ifs with hany
    · refine ⟨?_,?_,?_⟩
      · intro c hc
        obtain ⟨b,hb,rfl⟩ := List.mem_map.mp hc
        split_ifs
        · exact (ih.nodup b hb).insert
        · exact ih.nodup b hb
      · intro c hc i
        obtain ⟨b,hb,rfl⟩ := List.mem_map.mp hc
        split_ifs with hd
        · simp only [List.mem_insert_iff,ih.ids b hb,List.mem_append,List.mem_singleton]
          constructor
          · rintro (rfl | ⟨q,hq,hqd,rfl⟩)
            · exact ⟨p,.inr rfl,hd.symm,rfl⟩
            · exact ⟨q,.inl hq,hqd,rfl⟩
          · rintro ⟨q,hq | rfl,hqd,rfl⟩
            · exact .inr ⟨q,hq,hqd,rfl⟩
            · exact .inl rfl
        · simp only [ih.ids b hb,List.mem_append,List.mem_singleton]
          constructor
          · rintro ⟨q,hq,hqd⟩
            exact ⟨q,.inl hq,hqd⟩
          · rintro ⟨q,hq | rfl,hqd⟩
            · exact ⟨q,hq,hqd⟩
            · exact absurd hqd.1.symm hd
      · intro d
        have hmap : (∃ c ∈ counts.map (fun c => if c.1 = (fateOf p).disposition then
            (c.1,c.2.insert p.eventId) else c), c.1 = d) ↔ ∃ c ∈ counts, c.1 = d := by
          simp only [List.mem_map,exists_exists_and_eq_and]
          refine exists_congr fun c => and_congr_right fun _ => ?_
          split_ifs <;> rfl
        obtain ⟨b,hb,hbd⟩ := List.any_eq_true.mp hany
        rw [hmap,ih.keys]
        have hin := (ih.keys (fateOf p).disposition).mp ⟨b,hb,by simpa using hbd⟩
        simp only [List.mem_append,List.mem_singleton]
        constructor
        · rintro (h | ⟨q,hq,hqd⟩)
          · exact .inl h
          · exact .inr ⟨q,.inl hq,hqd⟩
        · rintro (h | ⟨q,hq | rfl,rfl⟩)
          · exact .inl h
          · exact .inr ⟨q,hq,rfl⟩
          · exact hin
    · have hnone : ∀ c ∈ counts, c.1 ≠ (fateOf p).disposition := fun c hc hd =>
        hany (List.any_eq_true.mpr ⟨c,hc,by simpa using hd⟩)
      have hno : ∀ q ∈ pairs, (fateOf q).disposition ≠ (fateOf p).disposition := by
        intro q hq heq
        obtain ⟨c,hc,hcd⟩ := (ih.keys (fateOf p).disposition).mpr (.inr ⟨q,hq,heq⟩)
        exact hnone c hc hcd
      refine ⟨?_,?_,?_⟩
      · intro c hc
        rcases List.mem_append.mp hc with hc | hc
        · exact ih.nodup c hc
        · rw [List.mem_singleton.mp hc]
          exact List.nodup_singleton _
      · intro c hc i
        rcases List.mem_append.mp hc with hc | hc
        · rw [ih.ids c hc]
          constructor
          · rintro ⟨q,hq,hqd⟩
            exact ⟨q,by simp [hq],hqd⟩
          · rintro ⟨q,hq,hqd⟩
            rcases List.mem_append.mp hq with hq | hq
            · exact ⟨q,hq,hqd⟩
            · exact absurd (List.mem_singleton.mp hq ▸ hqd.1).symm (hnone c hc)
        · rw [List.mem_singleton.mp hc]
          simp only [List.mem_singleton,List.mem_append]
          constructor
          · rintro rfl
            exact ⟨p,.inr rfl,rfl,rfl⟩
          · rintro ⟨q,hq | rfl,hqd,rfl⟩
            · exact absurd hqd (hno q hq)
            · rfl
      · intro d
        simp only [List.mem_append,List.mem_singleton,or_and_right,exists_or,exists_eq_left,ih.keys,
          or_assoc]

theorem report_counts (pairs : List OwedPair) (fateOf : OwedPair → Fate) (policy : UnackedPolicy)
    (capDays : ℚ) (d : Disposition) (n : ℕ) :
    (d,n) ∈ (buildUnackedReport pairs fateOf policy capDays).counts ↔
      (d = policy.verb ∨ ∃ p ∈ pairs, (fateOf p).disposition = d) ∧
        n = ((pairs.filter (fun p => (fateOf p).disposition = d)).map OwedPair.eventId).toFinset.card := by
  have h := countsOf_foldl fateOf policy pairs
  have hlen : ∀ c ∈ pairs.foldl (addToCounts fateOf) [(policy.verb,[])], c.2.length =
      ((pairs.filter (fun p => (fateOf p).disposition = c.1)).map OwedPair.eventId).toFinset.card := by
    intro c hc
    rw [← List.toFinset_card_of_nodup (h.nodup c hc)]
    congr 1
    ext i
    simp [h.ids c hc,and_assoc]
  rw [← h.keys]
  simp only [buildUnackedReport,List.mem_map,Prod.mk.injEq]
  constructor
  · rintro ⟨c,hc,rfl,rfl⟩
    exact ⟨⟨c,hc,rfl⟩,hlen c hc⟩
  · rintro ⟨⟨c,hc,rfl⟩,rfl⟩
    exact ⟨c,hc,rfl,hlen c hc⟩

theorem report_lines (pairs : List OwedPair) (fateOf : OwedPair → Fate) (policy : UnackedPolicy)
    (capDays : ℚ) : LinesOf fateOf pairs (buildUnackedReport pairs fateOf policy capDays).cursors :=
  (linesOf_foldl fateOf pairs).perm (List.perm_insertionSort _ _).symm

theorem report_sorted (pairs : List OwedPair) (fateOf : OwedPair → Fate) (policy : UnackedPolicy)
    (capDays : ℚ) :
    (buildUnackedReport pairs fateOf policy capDays).cursors.Pairwise ReportLine.before :=
  List.pairwise_insertionSort _ _

end WickedBus
