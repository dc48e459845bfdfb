import WickedBus.UiServer
import WickedBus.FreshCursor
import WickedBus.Foundation.Follow

namespace WickedBus.Ui

open GuardedRun
open WickedBus.Filter (Text)
open WickedBus.Causality (Safe)

def eventsServed (rt : JsRuntime) (req : Request) (ctx : Ctx) : Option (List EventRow) :=
  match outcome (handleRequest rt req ctx) [],requestUrl rt req with
  | (.ok (),log),some url => if .reach .events ∈ log then some (selectEvents rt ctx.liveDb url) else none
  | _,_ => none

structure Feed where
  world : World
  received : List EventRow

def Feed.ctx (base : Ctx) (f : Feed) : Ctx := { base with liveDb := f.world.bus }

def Feed.since (initial : Option Text) (f : Feed) : Option Text :=
  (f.received.getLast?.map (fun e => decimalText e.eventId)).or initial

inductive FeedAction where
  | world (a : Action)
  | get (req : Request)

def Feed.step (rt : JsRuntime) (base : Ctx) (f : Feed) : FeedAction → Option Feed
  | .world a => (f.world.step a).map (fun w => { f with world := w })
  | .get req =>
    let rows := (eventsServed rt req (f.ctx base)).getD []
    some { f with received := f.received ++ rows.map EventRow.fixedPart }

structure Asks (rt : JsRuntime) (initial : Option Text) (filter : List (FilterKey × Text)) (f : Feed) (req : Request) :
    Prop where
  filter : ∀ url, requestUrl rt req = some url → requestFilter url = filter
  since : ∀ url, requestUrl rt req = some url → url.get "since_event_id" = f.since initial
  safe : f.world.bus.eventSeq < 2 ^ 53

def FeedOk (rt : JsRuntime) (initial : Option Text) (filter : List (FilterKey × Text)) (f : Feed) : FeedAction → Prop
  | .world _ => True
  | .get req => Asks rt initial filter f req

def wanted (filter : List (FilterKey × Text)) (e : EventRow) : Bool :=
  filter.all (fun p => decide (p.1.column e = some p.2))

section Served

variable {rt : JsRuntime} {req : Request} {ctx : Ctx} {url : Url} {rows : List EventRow}

theorem sendJson_reach {status : ℕ} {body : Json Text} {log : List Effect} {e : Endpoint} :
    .reach e ∈ (outcome (sendJson rt status body) log).2 ↔ .reach e ∈ log := by
  by_cases h : Fits rt body
  · rw [sendJson_fits h]
    simp
  · rw [sendJson_overlong h]

theorem reach_log (e : Endpoint) (h : Handler Unit) (log : List Effect) :
    outcome (do perform (.reach e); h) log = outcome h (log ++ [.reach e]) := rfl

theorem dispatch_reach (h : .reach .events ∈ (outcome (dispatch rt url ctx) []).2) :
    dispatch rt url ctx = apiEvents rt url ctx := by
  have hother {e : Endpoint} (he : e ≠ .events) (status : ℕ) (body : Json Text) :
      .reach .events ∉ (outcome (do perform (.reach e); sendJson rt status body) []).2 := by
    rw [reach_log,sendJson_reach,List.nil_append,List.mem_singleton]
    exact fun heq => he (Effect.reach.inj heq).symm
  unfold dispatch at h ⊢
  split_ifs at h ⊢ with hinfo hevents hcas hbuckets htrace
  · exact absurd h (hother (by decide) _ _)
  · rfl
  · exact absurd h (hother (by decide) _ _)
  · unfold apiBuckets at h
    cases hlist : bucketList ctx.dataDir.archive with
    | none =>
      simp only [hlist,reach_log,outcome_throw,List.nil_append,List.mem_singleton] at h
      cases h
    | some buckets =>
      simp only [hlist] at h
      exact absurd h (hother (by decide) _ _)
  · unfold apiTrace at h
    split_ifs at h
    · exact absurd h (hother (by decide) _ _)
    · exact absurd h (hother (by decide) _ _)
  · rw [sendJson_reach] at h
    exact absurd h List.not_mem_nil

theorem handleRequest_reach (h : .reach .events ∈ (outcome (handleRequest rt req ctx) []).2) :
    ∃ url, requestUrl rt req = some url ∧ handleRequest rt req ctx = apiEvents rt url ctx := by
  have hplain (status : ℕ) (body : Json Text) : .reach .events ∉ (outcome (sendJson rt status body) []).2 := by
    rw [sendJson_reach]
    exact List.not_mem_nil
  unfold handleRequest at h ⊢
  cases hmethod : readMethod req with
  | false => simp [hmethod,hplain] at h
  | true =>
    cases horigin : originRefused rt ctx req.origin with
    | some origin => simp [hmethod,horigin,hplain] at h
    | none =>
      cases hurl : requestUrl rt req with
      | none => simp [hmethod,horigin,hurl,outcome_throw] at h
      | some url =>
        by_cases hhealth : url.pathname = healthPath
        · simp [hmethod,horigin,hurl,hhealth,hplain] at h
        · cases hauth : authorized req ctx.token with
          | false => simp [hmethod,horigin,hurl,hhealth,hauth,hplain] at h
          | true =>
            simp only [hmethod,horigin,hurl,hhealth,hauth,Bool.not_true,Bool.false_eq_true,if_false] at h ⊢
            exact ⟨url,rfl,dispatch_reach h⟩

theorem eventsServed_some (h : eventsServed rt req ctx = some rows) :
    ∃ url, requestUrl rt req = some url ∧ rows = selectEvents rt ctx.liveDb url ∧
      (outcome (handleRequest rt req ctx) []).2 =
        [.reach .events,.writeHead 200 (responseHeaders (jsonText rt.numberText (eventsBody rows))),
          .endBody (jsonText rt.numberText (eventsBody rows))] := by
  unfold eventsServed at h
  split at h
  · rename_i log url houtcome hurl
    split_ifs at h with hreach
    cases h
    obtain ⟨url',hurl',hevents⟩ := handleRequest_reach (by rwa [houtcome])
    rw [hurl] at hurl'
    cases hurl'
    refine ⟨url,hurl,rfl,?_⟩
    rw [hevents,apiEvents,reach_log] at houtcome ⊢
    by_cases hfits : Fits rt (eventsBody (selectEvents rt ctx.liveDb url))
    · rw [sendJson_fits hfits]
      rfl
    · rw [sendJson_overlong hfits] at houtcome
      cases houtcome
  · cases h

end Served


def wantedLive (filter : List (FilterKey × Text)) (db : Db) : Set EventRow :=
  {y | ∃ x ∈ {x | x ∈ db.events.rows ∧ wanted filter x = true},x.fixedPart = y}

def feedFloor (start : ℤ) (f : Feed) : ℤ := Follow.advance EventRow.eventId start f.received

structure FeedAt (filter : List (FilterKey × Text)) (start : ℤ) (f : Feed) : Prop where
  numbered : Numbered f.world.bus
  provenance : Provenance f.world
  sound : ∀ x ∈ f.received, x ∈ f.world.logged ∧ 1 ≤ x.eventId ∧ wanted filter x = true
  followed : Follow.Followed EventRow.eventId (wantedLive filter f.world.bus) f.world.bus.eventSeq start
    (feedFloor start f) f.received

section Following

variable {rt : JsRuntime} {base : Ctx} {initial : Option Text} {filter : List (FilterKey × Text)} {start : ℤ}
  {f f' : Feed} {req : Request} {rows : List EventRow} {w w' : World} {a : Action} {x : EventRow}

theorem column_fixedPart (e : EventRow) (k : FilterKey) : k.column e.fixedPart = k.column e := by
  cases k <;> rfl

theorem wanted_fixedPart (e : EventRow) : wanted filter e.fixedPart = wanted filter e := by
  simp only [wanted,column_fixedPart]

theorem mem_wantedLive {db : Db} : x ∈ wantedLive filter db ↔ x ∈ db.live ∧ wanted filter x = true := by
  constructor
  · rintro ⟨e,⟨he,hwanted⟩,rfl⟩
    exact ⟨mem_live he,(wanted_fixedPart e).trans hwanted⟩
  · rintro ⟨⟨e,he,rfl⟩,hwanted⟩
    exact ⟨e,⟨he,(wanted_fixedPart e).symm.trans hwanted⟩,rfl⟩

theorem wantedLive_grows (hstep : w.step a = some w') : Follow.Grows EventRow.eventId (wantedLive filter w.bus)
    (wantedLive filter w'.bus) w.bus.eventSeq w'.bus.eventSeq := by
  obtain ⟨hseq,hlive⟩ := World.step_live hstep
  refine ⟨hseq,fun x hx => ?_⟩
  obtain ⟨hmem,hwanted⟩ := mem_wantedLive.mp hx
  exact (hlive x hmem).imp_left fun hold => mem_wantedLive.mpr ⟨hold,hwanted⟩

theorem wantedLive_le {db : Db} (hx : x ∈ wantedLive filter db) : x.eventId ≤ db.eventSeq := by
  obtain ⟨⟨e,he,rfl⟩,-⟩ := mem_wantedLive.mp hx
  exact db.events_le_seq e he

theorem clampInt_pos (v : Option Text) : 0 < (clampInt rt v 1 1000 100).toNat := by
  unfold clampInt
  split <;> omega

theorem selectEvents_page {url : Url} {db : Db} (hfilter : requestFilter url = filter) :
    Follow.Page EventRow.eventId (wantedLive filter db) (parseIntOrZero rt (url.get "since_event_id"))
      ((selectEvents rt db url).map EventRow.fixedPart) := by
  subst hfilter
  exact (Follow.Page.take db.events.sorted (clampInt_pos _)).map fun _ => rfl

theorem parseIntOrZero_decimal {n : ℤ} (h : Safe n) : parseIntOrZero rt (some (decimalText n)) = n := by
  have hparse := @Causality.parseInt_text rt.numbers n h
  rw [Causality.parseIntOrNull,Option.bind_some,rt.numbers.text_safe n h,String.toList_ofList] at hparse
  rw [parseIntOrZero,Option.bind_some,hparse,Option.getD_some]

theorem FeedAt.since (h : FeedAt filter (parseIntOrZero rt initial) f) (hsafe : f.world.bus.eventSeq < 2 ^ 53) :
    parseIntOrZero rt (f.since initial) = feedFloor (parseIntOrZero rt initial) f := by
  unfold Feed.since feedFloor Follow.advance
  cases hlast : f.received.getLast? with
  | none => rfl
  | some e =>
    obtain ⟨⟨r,hr,rfl⟩,hpos,-⟩ := h.sound e (List.mem_of_getLast? hlast)
    have hle := h.provenance.log_le r hr
    exact parseIntOrZero_decimal ⟨hpos,hle.trans_lt hsafe⟩

theorem Asks.page (h : FeedAt filter (parseIntOrZero rt initial) f) (hasks : Asks rt initial filter f req)
    (hserved : eventsServed rt req (f.ctx base) = some rows) :
    Follow.Page EventRow.eventId (wantedLive filter f.world.bus) (feedFloor (parseIntOrZero rt initial) f)
      (rows.map EventRow.fixedPart) := by
  obtain ⟨url,hurl,rfl,-⟩ := eventsServed_some hserved
  have hpage := @selectEvents_page rt filter url f.world.bus (hasks.filter url hurl)
  rwa [hasks.since url hurl,h.since hasks.safe] at hpage

theorem logged_step (hstep : w.step a = some w') : w.logged ⊆ w'.logged := by
  rintro _ ⟨r,hr,rfl⟩
  refine ⟨r,?_,rfl⟩
  cases a with
  | bus op =>
    obtain ⟨db,-,rfl⟩ := Option.map_eq_some_iff.mp hstep
    exact List.mem_append_left _ hr
  | beginSweep p config clock =>
    obtain ⟨cfg,-,-,rfl⟩ := World.step_begin hstep
    exact hr
  | sweep p env =>
    obtain ⟨s,-,rfl⟩ := World.step_sweep hstep
    exact hr
  | crash p =>
    cases hstep
    exact hr

theorem FeedAt.begin (archive : Archive) : FeedAt filter start ⟨.start .empty archive,[]⟩ where
  numbered := ⟨le_rfl,fun _ ⟨_,hx,_⟩ => absurd hx (KeyedTable.not_mem_empty _)⟩
  provenance := .start _ _
  sound _ hx := absurd hx List.not_mem_nil
  followed := .begin _ _ _ _

theorem FeedAt.step (h : FeedAt filter (parseIntOrZero rt initial) f) {a : FeedAction}
    (hok : FeedOk rt initial filter f a) (hstep : f.step rt base a = some f') :
    FeedAt filter (parseIntOrZero rt initial) f' := by
  cases a with
  | world a =>
    obtain ⟨w,hw,rfl⟩ := Option.map_eq_some_iff.mp hstep
    refine ⟨h.numbered.step hw,h.provenance.step hw,fun x hx => ?_,h.followed.grows (wantedLive_grows hw)⟩
    obtain ⟨hlogged,hrest⟩ := h.sound x hx
    exact ⟨logged_step hw hlogged,hrest⟩
  | get req =>
    cases hstep
    cases hserved : eventsServed rt req (f.ctx base) with
    | none => simpa using h
    | some rows =>
      have hpage := hok.page h hserved
      refine ⟨h.numbered,h.provenance,fun x hx => ?_,?_⟩
      · rcases List.mem_append.mp hx with hx | hx
        · exact h.sound x hx
        · obtain ⟨hmem,hwanted⟩ := mem_wantedLive.mp (hpage.sound x hx).1
          exact ⟨h.provenance.live hmem,h.numbered.positive x hmem,hwanted⟩
      · rw [feedFloor,Option.getD_some,Follow.advance_append]
        exact h.followed.turn (fun x hx => wantedLive_le hx) hpage

end Following

structure Fed (filter : List (FilterKey × Text)) (start : ℤ) (f : Feed) : Prop where
  ordered : f.received.Pairwise (fun a b => a.eventId < b.eventId)
  sound : ∀ x ∈ f.received, x ∈ f.world.logged ∧ wanted filter x = true ∧ start < x.eventId
  complete : ∀ x ∈ f.world.bus.live, wanted filter x = true → start < x.eventId →
    (∃ y ∈ f.received, x.eventId ≤ y.eventId) → x ∈ f.received

theorem events_followed {rt : JsRuntime} {base : Ctx} {initial : Option Text} {filter : List (FilterKey × Text)}
    {archive : Archive} {as : List FeedAction} {f : Feed}
    (hrun : Run (Feed.step rt base) (FeedOk rt initial filter) ⟨.start .empty archive,[]⟩ as f) :
    Fed filter (parseIntOrZero rt initial) f ∧
      ∀ req, Asks rt initial filter f req → eventsServed rt req (f.ctx base) = some [] →
        ∀ x ∈ f.world.bus.live, wanted filter x = true → parseIntOrZero rt initial < x.eventId → x ∈ f.received := by
  have h : FeedAt filter (parseIntOrZero rt initial) f :=
    hrun.invariant (I := FeedAt filter (parseIntOrZero rt initial))
      (fun _ _ _ hf hok hstep => hf.step hok hstep) (.begin archive)
  refine ⟨⟨h.followed.sorted,fun x hx => ?_,fun x hx hwanted hlow ⟨y,hy,hxy⟩ => ?_⟩,
    fun req hasks hserved x hx hwanted hlow => ?_⟩
  · obtain ⟨hlogged,-,hwanted⟩ := h.sound x hx
    exact ⟨hlogged,hwanted,(h.followed.within x hx).1⟩
  · exact h.followed.complete x (mem_wantedLive.mpr ⟨hx,hwanted⟩) hlow (hxy.trans (h.followed.within y hy).2)
  · exact h.followed.caughtUp (hasks.page h hserved) (mem_wantedLive.mpr ⟨hx,hwanted⟩) hlow

def queryParams (query : Text) : List (Text × Text) :=
  (query.splitOn '&').map (fun pair =>
    (pair.takeWhile (fun c => decide (c ≠ '=')),(pair.dropWhile (fun c => decide (c ≠ '='))).drop 1))

def queryUrl (input : Text) (base : Option Text) : Option Url :=
  (plainUrl input base).map (fun url =>
    { url with searchParams := queryParams ((input.dropWhile (fun c => decide (c ≠ '?'))).drop 1) })

def queryJs : JsRuntime :=
  { plainJs with url := ⟨queryUrl,fun input base url h => by
      obtain ⟨plain,hplain,rfl⟩ := Option.map_eq_some_iff.mp h
      exact plainParser.pathname_length input base plain hplain⟩ }

theorem get_length : "GET".toList.length ≤ 32 := by decide

def eventsRequest (target : String) (h : target.toList.length ≤ 64) : Request where
  method := "GET".toList
  target := target.toList
  origin := none
  host := none
  authorization := some "Bearer c0ffee".toList
  method_length := get_length
  bounded := by
    rw [Option.getD_none]
    exact Nat.le_trans h (by decide)

def feedEvent (idempotencyKey : String) : NewEvent := { expiredSample with idempotencyKey }

def feedRun : List FeedAction :=
  [.world (.bus (.emit (feedEvent "k1") "u1")),.world (.bus (.emit (feedEvent "k2") "u2")),
    .get (eventsRequest "/api/events?limit=1" (by decide)),
    .get (eventsRequest "/api/events?since_event_id=1" (by decide))]

instance (rt : JsRuntime) (initial : Option Text) (filter : List (FilterKey × Text)) (f : Feed) (req : Request) :
    Decidable (Asks rt initial filter f req) :=
  decidable_of_iff ((∀ url ∈ requestUrl rt req,requestFilter url = filter) ∧
      (∀ url ∈ requestUrl rt req,url.get "since_event_id" = f.since initial) ∧ f.world.bus.eventSeq < 2 ^ 53)
    ⟨fun h => ⟨h.1,h.2.1,h.2.2⟩,fun h => ⟨h.filter,h.since,h.safe⟩⟩

def feedOkDecidable (rt : JsRuntime) (initial : Option Text) (filter : List (FilterKey × Text)) (f : Feed) :
    (a : FeedAction) → Decidable (FeedOk rt initial filter f a)
  | .world _ => .isTrue trivial
  | .get req => inferInstanceAs (Decidable (Asks rt initial filter f req))

instance (rt : JsRuntime) (initial : Option Text) (filter : List (FilterKey × Text)) (f : Feed) (a : FeedAction) :
    Decidable (FeedOk rt initial filter f a) :=
  feedOkDecidable rt initial filter f a

theorem events_followed_sample : ∃ f : Feed, f.received.map EventRow.eventId = [1,2] ∧ Fed [] 0 f ∧
    ∀ x ∈ f.world.bus.live, 0 < x.eventId → x ∈ f.received := by
  have hreach : (exec (guarded (FeedOk queryJs none []) (Feed.step queryJs plainCtx)) ⟨.start .empty .empty,[]⟩
      feedRun).any (fun f => decide (f.received.map EventRow.eventId = [1,2]) &&
        decide (Asks queryJs none [] f (eventsRequest "/api/events?since_event_id=2" (by decide))) &&
        decide (eventsServed queryJs (eventsRequest "/api/events?since_event_id=2" (by decide)) (f.ctx plainCtx) =
          some [])) = true := by decide +kernel
  obtain ⟨f,hf,hobs⟩ := (Option.any_eq_true _ _).mp hreach
  simp only [Bool.and_eq_true,decide_eq_true_eq] at hobs
  obtain ⟨⟨hids,hasks⟩,hserved⟩ := hobs
  obtain ⟨hfed,hcaught⟩ := @events_followed queryJs plainCtx none [] .empty feedRun f (run_of_guarded hf)
  exact ⟨f,hids,hfed,fun x hx hpos => hcaught _ hasks hserved x hx rfl hpos⟩

end WickedBus.Ui
