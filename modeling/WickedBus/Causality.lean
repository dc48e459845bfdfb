import WickedBus.Archive
import WickedBus.Config
import WickedBus.Validate

namespace WickedBus.Causality

open AssocMap (get merge)
open WickedBus.Filter (Text)

abbrev Environment := List (String × String)

structure EnvKeys where
  correlationId : String
  sessionId : String
  parentEventId : String
  producerId : String

def envKeys : EnvKeys :=
  ⟨"WICKED_BUS_CORRELATION_ID","WICKED_BUS_SESSION_ID","WICKED_BUS_PARENT_EVENT_ID","WICKED_BUS_PRODUCER_ID"⟩

def Safe (n : ℤ) : Prop := 0 < n ∧ n < 2 ^ 53

structure NumberText where
  text : ℤ → String
  read : ℕ → Option ℤ
  text_safe : ∀ n, Safe n → text n = String.ofList (decimalText n)
  read_safe : ∀ n : ℕ, Safe n → read n = some (n : ℤ)

def jsSpace (c : Char) : Bool := decide (c.toNat < 0x10000) && Config.whitespace (UInt16.ofNat c.toNat)

def readDigits (js : NumberText) (s : Text) : Option ℤ :=
  let digits := s.takeWhile Char.isDigit
  if digits = [] then none else js.read (parseDigits digits)

def parseInt (js : NumberText) (s : Text) : Option ℤ :=
  match s.dropWhile jsSpace with
  | '-' :: rest => (readDigits js rest).map (fun n => -n)
  | '+' :: rest => readDigits js rest
  | rest => readDigits js rest

def parseIntOrNull (js : NumberText) (v : Option String) : Option ℤ := v.bind (fun s => parseInt js s.toList)

def nonEmpty (v : Option String) : Option String := v.filter (fun s => decide (s ≠ ""))

def noContext : CausalityContext := ⟨none,none,none,none⟩

def fromEnv (js : NumberText) (env : Environment) : CausalityContext where
  correlationId := nonEmpty (get env envKeys.correlationId)
  sessionId := nonEmpty (get env envKeys.sessionId)
  parentEventId := parseIntOrNull js (get env envKeys.parentEventId)
  producerId := nonEmpty (get env envKeys.producerId)

def envContext (js : NumberText) (env : Environment) : CausalityContext :=
  let ctx := fromEnv js env
  if ctx.correlationId = none ∧ ctx.sessionId = none ∧ (ctx.parentEventId = none ∨ ctx.parentEventId = some 0) ∧
      ctx.producerId = none then
    noContext
  else ctx

structure ContextFields where
  correlationId : Option String
  sessionId : Option String
  parentEventId : Option JsNumber
  producerId : Option String

def positiveInteger : Option JsNumber → Option ℤ
  | some (.finite q) => if q.den = 1 ∧ 0 < q then some q.num else none
  | _ => none

def sanitize (obj : ContextFields) : CausalityContext where
  correlationId := nonEmpty obj.correlationId
  sessionId := nonEmpty obj.sessionId
  parentEventId := positiveInteger obj.parentEventId
  producerId := nonEmpty obj.producerId

def spread (inherited fields : CausalityContext) : CausalityContext where
  correlationId := fields.correlationId.or inherited.correlationId
  sessionId := fields.sessionId.or inherited.sessionId
  parentEventId := fields.parentEventId.or inherited.parentEventId
  producerId := fields.producerId.or inherited.producerId

def entry (key : String) (v : Option String) : Environment := (v.map (fun s => (key,s))).toList

def causalityEnv (js : NumberText) (ctx : CausalityContext) : Environment :=
  entry envKeys.correlationId (nonEmpty ctx.correlationId) ++ entry envKeys.sessionId (nonEmpty ctx.sessionId) ++
    entry envKeys.parentEventId (ctx.parentEventId.map js.text) ++
    entry envKeys.producerId (nonEmpty ctx.producerId)

structure ContextEmit where
  config : EmitConfig
  event : EmitEvent
  now : ℤ
  keyUuid : String
  releaseUuid : String
  registry : RegistryResult
  eventId : ℤ
  correlationId_unset : event.correlationId = none
  sessionId_unset : event.sessionId = none
  parentEventId_unset : event.parentEventId = none
  producerId_unset : event.producerId = none

def ContextEmit.row (e : ContextEmit) (ctx : CausalityContext) : EventRow :=
  (emitParams e.config e.event ⟨e.now,e.keyUuid,e.releaseUuid,ctx,e.registry⟩).row e.eventId

def rowContext (row : EventRow) : CausalityContext :=
  ⟨row.correlationId,row.sessionId,row.parentEventId,row.producerId⟩

inductive Observation where
  | emitted (row : EventRow)
  | started (ctx : CausalityContext)

structure Runtime where
  frames : ℕ → CausalityContext
  next : ℕ
  store : Option ℕ
  observed : List Observation

namespace Runtime

def start : Runtime := ⟨fun _ => noContext,0,none,[]⟩

def observe (r : Runtime) (o : Observation) : Runtime := { r with observed := r.observed ++ [o] }

def currentContext (js : NumberText) (env : Environment) (r : Runtime) : CausalityContext :=
  match r.store with
  | some ref => r.frames ref
  | none => envContext js env

def recordEmit (r : Runtime) (eventId : ℤ) : Runtime :=
  match r.store with
  | none => r
  | some ref =>
    { r with frames := Function.update r.frames ref { r.frames ref with parentEventId := some eventId } }

-- the merged object is a new one: no frame that exists is reachable through it
def enter (r : Runtime) (merged : CausalityContext) : Runtime :=
  { r with frames := Function.update r.frames r.next merged, next := r.next + 1, store := some r.next }

def leave (r : Runtime) (store : Option ℕ) : Runtime := { r with store := store }

end Runtime

def childContext (js : NumberText) (env : Environment) (ctx : CausalityContext) : CausalityContext :=
  Runtime.start.currentContext js (merge env (causalityEnv js ctx))

inductive Body where
  | done
  | emit (e : ContextEmit) (rest : Body)
  | spawn (rest : Body)
  | withContext (ctx : ContextFields) (fn rest : Body)

def exec (js : NumberText) (env : Environment) : Body → Runtime → Runtime
  | .done, r => r
  | .emit e rest, r =>
    exec js env rest ((r.observe (.emitted (e.row (r.currentContext js env)))).recordEmit e.eventId)
  | .spawn rest, r => exec js env rest (r.observe (.started (childContext js env (r.currentContext js env))))
  | .withContext ctx fn rest, r =>
    exec js env rest ((exec js env fn (r.enter (spread (r.currentContext js env) (sanitize ctx)))).leave r.store)

structure Block where
  ctx : ContextFields
  emits : List ℤ

def parentAt (outside : Option ℤ) : List Block → Option ℤ
  | [] => outside
  | block :: outer => block.emits.getLast?.or ((sanitize block.ctx).parentEventId.or (parentAt outside outer))

def fieldAt (field : CausalityContext → Option String) (outside : Option String) : List Block → Option String
  | [] => outside
  | block :: outer => (field (sanitize block.ctx)).or (fieldAt field outside outer)

def contextAt (outside : CausalityContext) (scope : List Block) : CausalityContext where
  correlationId := fieldAt CausalityContext.correlationId outside.correlationId scope
  sessionId := fieldAt CausalityContext.sessionId outside.sessionId scope
  parentEventId := parentAt outside.parentEventId scope
  producerId := fieldAt CausalityContext.producerId outside.producerId scope

def emittedIn (eventId : ℤ) : List Block → List Block
  | [] => []
  | block :: outer => { block with emits := block.emits ++ [eventId] } :: outer

inductive Occurrence where
  | emit (e : ContextEmit)
  | spawn

def occurrences : Body → List Block → List (List Block × Occurrence)
  | .done, _ => []
  | .emit e rest, scope => (scope,.emit e) :: occurrences rest (emittedIn e.eventId scope)
  | .spawn rest, scope => (scope,.spawn) :: occurrences rest scope
  | .withContext ctx fn rest, scope => occurrences fn (⟨ctx,[]⟩ :: scope) ++ occurrences rest scope

inductive Meets (outside : CausalityContext) : Observation → List Block × Occurrence → Prop where
  | emitted {row : EventRow} {scope : List Block} {e : ContextEmit} (id : row.eventId = e.eventId)
      (context : rowContext row = contextAt outside scope) : Meets outside (.emitted row) (scope,.emit e)
  | started {ctx : CausalityContext} {scope : List Block} (context : ctx = contextAt outside scope) :
      Meets outside (.started ctx) (scope,.spawn)

def Body.SafeIds : Body → Prop
  | .done => True
  | .emit e rest => Safe e.eventId ∧ rest.SafeIds
  | .spawn rest => rest.SafeIds
  | .withContext ctx fn rest =>
    (∀ n, (sanitize ctx).parentEventId = some n → n < 2 ^ 53) ∧ fn.SafeIds ∧ rest.SafeIds

def SafeParent (js : NumberText) (env : Environment) : Prop :=
  ∀ n, parseIntOrNull js (get env envKeys.parentEventId) = some n → Safe n

@[simp] theorem row_context (e : ContextEmit) (ctx : CausalityContext) : rowContext (e.row ctx) = ctx := by
  simp only [rowContext,ContextEmit.row,NewEvent.row,emitParams,e.correlationId_unset,e.sessionId_unset,
    e.parentEventId_unset,e.producerId_unset]
  rfl

@[simp] theorem row_eventId (e : ContextEmit) (ctx : CausalityContext) : (e.row ctx).eventId = e.eventId := rfl

section Frames

variable {js : NumberText} {env : Environment} {r : Runtime}

def Runtime.Formed (r : Runtime) : Prop := ∀ ref, r.store = some ref → ref < r.next

theorem formed_start : Runtime.start.Formed := by
  rintro ref h
  cases h

@[simp] theorem observe_currentContext (o : Observation) :
    (r.observe o).currentContext js env = r.currentContext js env := rfl

@[simp] theorem recordEmit_store (eventId : ℤ) : (r.recordEmit eventId).store = r.store := by
  unfold Runtime.recordEmit
  split <;> rename_i h <;> exact h ▸ rfl

@[simp] theorem recordEmit_next (eventId : ℤ) : (r.recordEmit eventId).next = r.next := by
  unfold Runtime.recordEmit
  split <;> rfl

@[simp] theorem recordEmit_observed (eventId : ℤ) : (r.recordEmit eventId).observed = r.observed := by
  unfold Runtime.recordEmit
  split <;> rfl

theorem recordEmit_frames {eventId : ℤ} {ref : ℕ} (h : r.store ≠ some ref) :
    (r.recordEmit eventId).frames ref = r.frames ref := by
  unfold Runtime.recordEmit
  split
  · rfl
  · rename_i current hcurrent
    refine Function.update_of_ne ?_ _ _
    rintro rfl
    exact h hcurrent

structure Keeps (r r' : Runtime) : Prop where
  store : r'.store = r.store
  next : r.next ≤ r'.next
  frames : ∀ ref, ref < r.next → r.store ≠ some ref → r'.frames ref = r.frames ref

theorem Keeps.refl (r : Runtime) : Keeps r r := ⟨rfl,le_rfl,fun _ _ _ => rfl⟩

theorem Keeps.trans {r r' r'' : Runtime} (h : Keeps r r') (h' : Keeps r' r'') : Keeps r r'' where
  store := h'.store.trans h.store
  next := h.next.trans h'.next
  frames ref hlt hne :=
    (h'.frames ref (hlt.trans_le h.next) (h.store.symm ▸ hne)).trans (h.frames ref hlt hne)

theorem Keeps.formed {r r' : Runtime} (h : Keeps r r') (hr : r.Formed) : r'.Formed := by
  intro ref href
  exact (hr ref (h.store ▸ href)).trans_le h.next

theorem keeps_observe (o : Observation) : Keeps r (r.observe o) := ⟨rfl,le_rfl,fun _ _ _ => rfl⟩

theorem keeps_recordEmit (eventId : ℤ) : Keeps r (r.recordEmit eventId) :=
  ⟨recordEmit_store eventId,(recordEmit_next eventId).ge,fun _ _ hne => recordEmit_frames hne⟩

theorem formed_enter (merged : CausalityContext) : (r.enter merged).Formed := by
  rintro ref h
  cases h
  exact Nat.lt_succ_self _

theorem leave_frames {inside : Runtime} {merged : CausalityContext} (h : Keeps (r.enter merged) inside) :
    ∀ ref, ref < r.next → (inside.leave r.store).frames ref = r.frames ref := by
  intro ref hlt
  have hne : (r.enter merged).store ≠ some ref := by
    intro heq
    cases heq
    exact lt_irrefl _ hlt
  have hkept : inside.frames ref = (r.enter merged).frames ref := h.frames ref (Nat.lt_succ_of_lt hlt) hne
  exact hkept.trans (Function.update_of_ne hlt.ne _ _)

theorem keeps_leave {inside : Runtime} {merged : CausalityContext} (h : Keeps (r.enter merged) inside) :
    Keeps r (inside.leave r.store) :=
  ⟨rfl,(Nat.le_succ _).trans h.next,fun ref hlt _ => leave_frames h ref hlt⟩

theorem leave_currentContext {inside : Runtime} {merged : CausalityContext} (hr : r.Formed)
    (h : Keeps (r.enter merged) inside) :
    (inside.leave r.store).currentContext js env = r.currentContext js env := by
  cases hstore : r.store with
  | none => simp only [Runtime.currentContext,Runtime.leave,hstore]
  | some ref =>
    have hframe := leave_frames h ref (hr ref hstore)
    simpa only [Runtime.currentContext,Runtime.leave,hstore] using hframe

theorem exec_keeps (body : Body) (r : Runtime) : Keeps r (exec js env body r) := by
  induction body generalizing r with
  | done => exact Keeps.refl r
  | emit e rest ih => exact ((keeps_observe _).trans (keeps_recordEmit _)).trans (ih _)
  | spawn rest ih => exact (keeps_observe _).trans (ih _)
  | withContext ctx fn rest ihfn ihrest => exact (keeps_leave (ihfn _)).trans (ihrest _)

theorem withContext_currentContext (hr : r.Formed) (ctx : ContextFields) (fn : Body) :
    (exec js env (.withContext ctx fn .done) r).currentContext js env = r.currentContext js env :=
  leave_currentContext hr (exec_keeps fn _)

end Frames

section Texts

variable {js : NumberText} {n : ℤ}

theorem digit_bounds {c : Char} (h : c.isDigit = true) : 48 ≤ c.toNat ∧ c.toNat ≤ 57 := by
  simpa [Char.isDigit,UInt32.le_iff_toNat_le] using h

theorem jsSpace_digit {c : Char} (h : c.isDigit = true) : jsSpace c = false := by
  obtain ⟨hlo,hhi⟩ := digit_bounds h
  unfold jsSpace
  generalize c.toNat = k at hlo hhi
  interval_cases k <;> rfl

theorem parseInt_digits {c : Char} {s : Text} (h : c.isDigit = true) :
    parseInt js (c :: s) = readDigits js (c :: s) := by
  unfold parseInt
  rw [List.dropWhile_cons_of_neg (by simp [jsSpace_digit h])]
  obtain ⟨hlo,-⟩ := digit_bounds h
  split
  · rename_i heq
    cases heq
    exact absurd hlo (by decide)
  · rename_i heq
    cases heq
    exact absurd hlo (by decide)
  · rfl

theorem readDigits_toDigits {k : ℕ} (h : Safe k) : readDigits js (Nat.toDigits 10 k) = some (k : ℤ) := by
  have hall : (Nat.toDigits 10 k).takeWhile Char.isDigit = Nat.toDigits 10 k :=
    List.takeWhile_eq_self_iff.mpr (fun c hc => Nat.isDigit_of_mem_toDigits (by decide) (by decide) hc)
  have hvalue : parseDigits (Nat.toDigits 10 k) = k := Nat.ofDigitChars_toDigits (by decide) (by decide)
  simp only [readDigits,hall,Nat.toDigits_ne_nil,if_false,hvalue,js.read_safe k h]

theorem parseInt_text (h : Safe n) : parseIntOrNull js (some (js.text n)) = some n := by
  obtain ⟨k,rfl⟩ := Int.eq_ofNat_of_zero_le h.1.le
  have htext : (js.text k).toList = Nat.toDigits 10 k := by
    rw [js.text_safe _ h,String.toList_ofList,decimalText,if_pos h.1.le,Int.toNat_natCast]
  simp only [parseIntOrNull,Option.bind_some,htext]
  have hdigits := @readDigits_toDigits js k h
  cases hshape : Nat.toDigits 10 k with
  | nil => exact absurd hshape Nat.toDigits_ne_nil
  | cons c rest =>
    have hc : c.isDigit = true :=
      Nat.isDigit_of_mem_toDigits (by decide) (by decide) (hshape ▸ List.mem_cons_self ..)
    rw [parseInt_digits hc,← hshape,hdigits]

theorem nonEmpty_idem (v : Option String) : nonEmpty (nonEmpty v) = nonEmpty v := by
  simp [nonEmpty,Option.filter_filter]

theorem positiveInteger_pos {x : Option JsNumber} (h : positiveInteger x = some n) : 0 < n := by
  unfold positiveInteger at h
  split at h
  · split_ifs at h with hq
    cases h
    exact Rat.num_pos.mpr hq.2
  · cases h

end Texts

section Child

variable {js : NumberText} {env : Environment} {ctx : CausalityContext}

structure Sendable (outside ctx : CausalityContext) : Prop where
  correlationId : nonEmpty ctx.correlationId = ctx.correlationId
  sessionId : nonEmpty ctx.sessionId = ctx.sessionId
  parentEventId : ∀ n, ctx.parentEventId = some n → Safe n
  producerId : nonEmpty ctx.producerId = ctx.producerId
  correlationId_covers : ctx.correlationId = none → outside.correlationId = none
  sessionId_covers : ctx.sessionId = none → outside.sessionId = none
  parentEventId_covers : ctx.parentEventId = none → outside.parentEventId = none
  producerId_covers : ctx.producerId = none → outside.producerId = none

theorem get_append (m m' : Environment) (k : String) : get (m ++ m') k = (get m k).or (get m' k) :=
  List.lookup_append

theorem get_entry (key k : String) (v : Option String) : get (entry key v) k = if k = key then v else none := by
  cases v with
  | none => split_ifs <;> rfl
  | some s =>
    split_ifs with hk
    · subst hk
      exact AssocMap.get_cons_self [] k s
    · exact AssocMap.get_cons_ne hk

theorem get_causalityEnv (ctx : CausalityContext) :
    get (causalityEnv js ctx) envKeys.correlationId = nonEmpty ctx.correlationId ∧
      get (causalityEnv js ctx) envKeys.sessionId = nonEmpty ctx.sessionId ∧
      get (causalityEnv js ctx) envKeys.parentEventId = ctx.parentEventId.map js.text ∧
      get (causalityEnv js ctx) envKeys.producerId = nonEmpty ctx.producerId := by
  simp [causalityEnv,get_append,get_entry,envKeys]

theorem nonEmpty_or {v w : Option String} (hv : nonEmpty v = v) (hw : v = none → nonEmpty w = none) :
    nonEmpty (v.or w) = v := by
  cases v with
  | none => exact hw rfl
  | some s => exact hv

theorem fromEnv_child (h : Sendable (fromEnv js env) ctx) : fromEnv js (merge env (causalityEnv js ctx)) = ctx := by
  obtain ⟨hcorrelation,hsession,hparent,hproducer⟩ := @get_causalityEnv js ctx
  have hid : parseIntOrNull js ((ctx.parentEventId.map js.text).or (get env envKeys.parentEventId)) =
      ctx.parentEventId := by
    cases hp : ctx.parentEventId with
    | none => exact h.parentEventId_covers hp
    | some n => exact parseInt_text (h.parentEventId n hp)
  simp only [fromEnv,AssocMap.get_merge,hcorrelation,hsession,hparent,hproducer,h.correlationId,h.sessionId,
    h.producerId,hid,nonEmpty_or h.correlationId h.correlationId_covers,
    nonEmpty_or h.sessionId h.sessionId_covers,nonEmpty_or h.producerId h.producerId_covers]

theorem envContext_eq (h : SafeParent js env) : envContext js env = fromEnv js env := by
  simp only [envContext]
  split_ifs with hnone
  · obtain ⟨hcorrelation,hsession,hparent | hparent,hproducer⟩ := hnone
    · cases hctx : fromEnv js env with
      | mk correlationId sessionId parentEventId producerId =>
        rw [hctx] at hcorrelation hsession hparent hproducer
        subst hcorrelation hsession hparent hproducer
        rfl
    · exact absurd (h 0 hparent).1 (lt_irrefl _)
  · rfl

theorem childContext_eq (h : Sendable (fromEnv js env) ctx) : childContext js env ctx = ctx := by
  have hchild := fromEnv_child h
  have hsafe : SafeParent js (merge env (causalityEnv js ctx)) := by
    intro n hn
    refine h.parentEventId n ?_
    rw [← hchild]
    exact hn
  exact (envContext_eq hsafe).trans hchild

end Child

section Scopes

variable {js : NumberText} {env : Environment} {scope : List Block}

structure Block.SafeIds (block : Block) : Prop where
  emits : ∀ n ∈ block.emits, Safe n
  entered : ∀ n, (sanitize block.ctx).parentEventId = some n → n < 2 ^ 53

theorem or_cases {α : Type} {v w : Option α} {a : α} (h : v.or w = some a) : v = some a ∨ w = some a := by
  cases v with
  | none => exact .inr h
  | some b => exact .inl h

theorem fieldAt_nonEmpty {field : CausalityContext → Option String} {outside : Option String}
    (hfield : ∀ obj, nonEmpty (field (sanitize obj)) = field (sanitize obj)) (houtside : nonEmpty outside = outside) :
    nonEmpty (fieldAt field outside scope) = fieldAt field outside scope := by
  induction scope with
  | nil => exact houtside
  | cons block outer ih =>
    rw [fieldAt]
    cases hset : field (sanitize block.ctx) with
    | none => exact ih
    | some s =>
      have hs := hfield block.ctx
      rw [hset] at hs
      exact hs

theorem fieldAt_none {field : CausalityContext → Option String} {outside : Option String}
    (h : fieldAt field outside scope = none) : outside = none := by
  induction scope with
  | nil => exact h
  | cons block outer ih => exact ih (Option.or_eq_none_iff.mp h).2

theorem parentAt_safe {outside : Option ℤ} (houtside : ∀ n, outside = some n → Safe n)
    (hscope : ∀ block ∈ scope, block.SafeIds) {n : ℤ} (h : parentAt outside scope = some n) : Safe n := by
  induction scope with
  | nil => exact houtside n h
  | cons block outer ih =>
    have hblock := hscope block (List.mem_cons_self ..)
    rcases or_cases h with hlast | h
    · exact hblock.emits n (List.mem_of_getLast? hlast)
    · rcases or_cases h with hset | houter
      · exact ⟨positiveInteger_pos hset,hblock.entered n hset⟩
      · exact ih (fun b hb => hscope b (List.mem_cons_of_mem _ hb)) houter

theorem parentAt_none {outside : Option ℤ} (h : parentAt outside scope = none) : outside = none := by
  induction scope with
  | nil => exact h
  | cons block outer ih => exact ih (Option.or_eq_none_iff.mp (Option.or_eq_none_iff.mp h).2).2

theorem sendable_contextAt (henv : SafeParent js env) (hscope : ∀ block ∈ scope, block.SafeIds) :
    Sendable (fromEnv js env) (contextAt (fromEnv js env) scope) where
  correlationId := fieldAt_nonEmpty (fun _ => nonEmpty_idem _) (nonEmpty_idem _)
  sessionId := fieldAt_nonEmpty (fun _ => nonEmpty_idem _) (nonEmpty_idem _)
  parentEventId _ h := parentAt_safe henv hscope h
  producerId := fieldAt_nonEmpty (fun _ => nonEmpty_idem _) (nonEmpty_idem _)
  correlationId_covers := fieldAt_none
  sessionId_covers := fieldAt_none
  parentEventId_covers := parentAt_none
  producerId_covers := fieldAt_none

theorem contextAt_emittedIn (outside : CausalityContext) (block : Block) (outer : List Block) (n : ℤ) :
    contextAt outside (emittedIn n (block :: outer)) =
      { contextAt outside (block :: outer) with parentEventId := some n } := by
  simp only [contextAt,emittedIn,parentAt,fieldAt,List.getLast?_append,List.getLast?_singleton,Option.some_or]

theorem contextAt_enter (outside : CausalityContext) (ctx : ContextFields) (scope : List Block) :
    contextAt outside (⟨ctx,[]⟩ :: scope) = spread (contextAt outside scope) (sanitize ctx) := rfl

theorem emittedIn_safe {n : ℤ} (hn : Safe n) (hscope : ∀ block ∈ scope, block.SafeIds) :
    ∀ block ∈ emittedIn n scope, block.SafeIds := by
  cases scope with
  | nil => exact hscope
  | cons block outer =>
    obtain ⟨hblock,houter⟩ := List.forall_mem_cons.mp hscope
    refine List.forall_mem_cons.mpr ⟨⟨fun m hm => ?_,hblock.entered⟩,houter⟩
    rcases List.mem_append.mp hm with hm | hm
    · exact hblock.emits m hm
    · cases List.mem_singleton.mp hm
      exact hn

structure Agrees (js : NumberText) (env : Environment) (r : Runtime) (scope : List Block) : Prop where
  formed : r.Formed
  store : r.store = none ↔ scope = []
  context : r.currentContext js env = contextAt (fromEnv js env) scope
  safe : ∀ block ∈ scope, block.SafeIds

theorem agrees_start (henv : SafeParent js env) : Agrees js env .start [] :=
  ⟨formed_start,iff_of_true rfl rfl,envContext_eq henv,by simp⟩

section Steps

variable {r : Runtime}

theorem Agrees.observe (h : Agrees js env r scope) (o : Observation) : Agrees js env (r.observe o) scope :=
  ⟨h.formed,h.store,h.context,h.safe⟩

theorem Agrees.recordEmit (h : Agrees js env r scope) {n : ℤ} (hn : Safe n) :
    Agrees js env (r.recordEmit n) (emittedIn n scope) := by
  refine ⟨(keeps_recordEmit n).formed h.formed,?_,?_,emittedIn_safe hn h.safe⟩
  · rw [recordEmit_store,h.store]
    cases scope <;> simp [emittedIn]
  · cases scope with
    | nil =>
      have hnone := h.store.mpr rfl
      have hctx := h.context
      simpa only [Runtime.recordEmit,hnone,emittedIn] using hctx
    | cons block outer =>
      cases hstore : r.store with
      | none => exact absurd (h.store.mp hstore) (List.cons_ne_nil _ _)
      | some ref =>
        have hctx := h.context
        simp only [Runtime.currentContext,hstore] at hctx
        simp only [Runtime.currentContext,Runtime.recordEmit,hstore,Function.update_self,hctx,
          contextAt_emittedIn]

theorem Agrees.enter (h : Agrees js env r scope) {ctx : ContextFields}
    (hctx : ∀ n, (sanitize ctx).parentEventId = some n → n < 2 ^ 53) :
    Agrees js env (r.enter (spread (r.currentContext js env) (sanitize ctx))) (⟨ctx,[]⟩ :: scope) where
  formed := formed_enter _
  store := iff_of_false (by simp [Runtime.enter]) (List.cons_ne_nil _ _)
  context := by
    rw [contextAt_enter,← h.context]
    simp only [Runtime.currentContext,Runtime.enter,Function.update_self]
  safe := List.forall_mem_cons.mpr ⟨⟨by simp,hctx⟩,h.safe⟩

theorem Agrees.leave (h : Agrees js env r scope) {merged : CausalityContext} {inside : Runtime}
    (hkeeps : Keeps (r.enter merged) inside) : Agrees js env (inside.leave r.store) scope :=
  ⟨(keeps_leave hkeeps).formed h.formed,h.store,(leave_currentContext h.formed hkeeps).trans h.context,h.safe⟩

end Steps

theorem exec_meets (henv : SafeParent js env) {body : Body} (hids : body.SafeIds) {r : Runtime}
    (h : Agrees js env r scope) :
    ∃ observed, (exec js env body r).observed = r.observed ++ observed ∧
      List.Forall₂ (Meets (fromEnv js env)) observed (occurrences body scope) := by
  induction body generalizing r scope with
  | done => exact ⟨[],(List.append_nil _).symm,.nil⟩
  | emit e rest ih =>
    obtain ⟨hid,hrest⟩ := hids
    obtain ⟨observed,hobserved,hmeets⟩ := ih hrest ((h.observe (.emitted (e.row _))).recordEmit hid)
    refine ⟨.emitted (e.row (r.currentContext js env)) :: observed,?_,.cons ?_ hmeets⟩
    · rw [exec,hobserved,recordEmit_observed]
      simp [Runtime.observe]
    · exact .emitted rfl ((row_context ..).trans h.context)
  | spawn rest ih =>
    obtain ⟨observed,hobserved,hmeets⟩ := ih hids (h.observe (.started _))
    refine ⟨.started (childContext js env (r.currentContext js env)) :: observed,?_,.cons (.started ?_) hmeets⟩
    · rw [exec,hobserved]
      simp [Runtime.observe]
    · rw [h.context]
      exact childContext_eq (sendable_contextAt henv h.safe)
  | withContext ctx fn rest ihfn ihrest =>
    obtain ⟨hctx,hfn,hrest⟩ := hids
    obtain ⟨inner,hinner,hinnerMeets⟩ := ihfn hfn (h.enter hctx)
    obtain ⟨outer,houter,houterMeets⟩ := ihrest hrest (h.leave (exec_keeps fn _))
    refine ⟨inner ++ outer,?_,List.rel_append hinnerMeets houterMeets⟩
    rw [exec,houter,← List.append_assoc]
    exact congrArg (· ++ outer) hinner

theorem causality_context (henv : SafeParent js env) {body : Body} (hids : body.SafeIds) :
    List.Forall₂ (Meets (fromEnv js env)) (exec js env body .start).observed (occurrences body []) ∧
      ∀ r : Runtime, r.Formed → ∀ ctx fn,
        (exec js env (.withContext ctx fn .done) r).currentContext js env = r.currentContext js env := by
  obtain ⟨observed,hobserved,hmeets⟩ := exec_meets henv hids (agrees_start henv)
  refine ⟨?_,fun r hr ctx fn => withContext_currentContext hr ctx fn⟩
  rw [hobserved]
  exact hmeets

end Scopes

instance (n : ℤ) : Decidable (Safe n) := inferInstanceAs (Decidable (0 < n ∧ n < 2 ^ 53))

def plainNumbers : NumberText where
  text n := String.ofList (decimalText n)
  read n := some (n : ℤ)
  text_safe _ _ := rfl
  read_safe _ _ := rfl

def traceEnv : Environment := [(envKeys.correlationId,"c-1"),(envKeys.parentEventId,"7"),("HOME","/root")]

theorem unset_subdomain : ∀ s ∈ (none : Option Text), s.length ≤ 64 := by simp

def traceEmit (eventId : ℤ) : ContextEmit where
  config := ⟨72,24⟩
  event := {
    eventType := ⟨"wicked.run.done".toList,by decide +kernel⟩
    domain := ⟨"wicked-testing".toList,by decide⟩
    subdomain := none
    schemaVersion := none
    idempotencyKey := none
    ttlHours := none
    metadata := none
    correlationId := none
    sessionId := none
    parentEventId := none
    producerId := none
    eventType_length := by decide
    subdomain_length := unset_subdomain }
  now := 1000
  keyUuid := "u1"
  releaseUuid := "u2"
  registry := ⟨"\x7b\x7d",none,none⟩
  eventId := eventId
  correlationId_unset := rfl
  sessionId_unset := rfl
  parentEventId_unset := rfl
  producerId_unset := rfl

def traceBody : Body :=
  .withContext ⟨none,some "s-1",none,none⟩
    (.emit (traceEmit 8)
      (.withContext ⟨some "c-2",none,none,none⟩ (.emit (traceEmit 9) (.spawn .done))
        (.emit (traceEmit 10) (.spawn .done))))
    (.emit (traceEmit 11) .done)

def Observation.context : Observation → CausalityContext
  | .emitted row => rowContext row
  | .started ctx => ctx

theorem causality_context_sample :
    List.Forall₂ (Meets (fromEnv plainNumbers traceEnv)) (exec plainNumbers traceEnv traceBody .start).observed
        (occurrences traceBody []) ∧
      (exec plainNumbers traceEnv traceBody .start).observed.map Observation.context =
        [⟨some "c-1",some "s-1",some 7,none⟩,⟨some "c-2",some "s-1",some 8,none⟩,
          ⟨some "c-2",some "s-1",some 9,none⟩,⟨some "c-1",some "s-1",some 8,none⟩,
          ⟨some "c-1",some "s-1",some 10,none⟩,⟨some "c-1",none,some 7,none⟩] := by
  have hparent : SafeParent plainNumbers traceEnv := by
    intro n hn
    have hseven : parseIntOrNull plainNumbers (get traceEnv envKeys.parentEventId) = some 7 := by decide +kernel
    rw [hseven] at hn
    cases hn
    decide
  have hids : traceBody.SafeIds := by
    refine ⟨by simp [sanitize,positiveInteger],⟨by decide,⟨by simp [sanitize,positiveInteger],⟨by decide,trivial⟩,
      by decide,trivial⟩⟩,by decide,trivial⟩
  exact ⟨(causality_context hparent hids).1,by decide +kernel⟩

end WickedBus.Causality
