import WickedBus.Filter
import WickedBus.Foundation.AssocMap
import WickedBus.Foundation.FlagTokens

namespace WickedBus.Cli

open FlagTokens
open WickedBus.Filter (Text)

inductive ArgValue where
  | present
  | text (value : Text)
  deriving DecidableEq, Repr

structure Args where
  options : List (Text × ArgValue)
  positional : List Text
  deriving DecidableEq, Repr

def startsWithDashes (token : Text) : Bool := ("--".toList).isPrefixOf token

def protoKey : Text := "__proto__".toList

def positionalKey : Text := "_positional".toList

-- Assigning a primitive to `__proto__` on a plain object is silently ignored.
def assign (options : List (Text × ArgValue)) (key : Text) (value : ArgValue) : List (Text × ArgValue) :=
  if key = protoKey then options else AssocMap.set options key value

def parseLoop (args : Args) : List Text → Args
  | [] => args
  | [t] =>
    if startsWithDashes t then { args with options := assign args.options (t.drop 2) .present }
    else { args with positional := args.positional ++ [t] }
  | t :: v :: rest =>
    if startsWithDashes t then
      if startsWithDashes v then
        parseLoop { args with options := assign args.options (t.drop 2) .present } (v :: rest)
      else parseLoop { args with options := assign args.options (t.drop 2) (.text v) } rest
    else parseLoop { args with positional := args.positional ++ [t] } (v :: rest)

-- `args._positional = positional` overwrites an option of that name.
def parseArgs (argv : List Text) : Args :=
  let args := parseLoop ⟨[],[]⟩ argv
  { args with options := AssocMap.erase args.options positionalKey }

def Args.get (args : Args) (key : Text) : Option ArgValue := AssocMap.get args.options key

structure Globals where
  dbPath : Option ArgValue
  json : Bool
  logLevel : Option ArgValue
  deriving DecidableEq, Repr

def orNull (value : Option ArgValue) : Option ArgValue := if value = some (.text []) then none else value

def globalKeys : List Text := ["db-path".toList,"json".toList,"log-level".toList]

def Args.globals (args : Args) : Globals where
  dbPath := orNull (args.get "db-path".toList)
  json := true
  logLevel := orNull (args.get "log-level".toList)

def Args.withoutGlobals (args : Args) : Args :=
  { args with options := globalKeys.foldl AssocMap.erase args.options }

def commands : List Text :=
  ["init".toList,"emit".toList,"subscribe".toList,"status".toList,"replay".toList,"cleanup".toList,
    "register".toList,"deregister".toList,"list".toList,"ack".toList,"dlq".toList,"daemon".toList,"ui".toList]

inductive CliAction where
  | printVersion
  | printUsage (exitCode : ℕ)
  | dispatch (command : Text) (args : Args) (globals : Globals)
  deriving DecidableEq, Repr

def main (argv : List Text) : CliAction :=
  match argv.head? with
  | none => .printUsage 0
  | some command =>
    if command = "--version".toList ∨ command = "-v".toList then .printVersion
    else if commands.any (fun c => decide (c = command)) then
      .dispatch command (parseArgs argv.tail).withoutGlobals (parseArgs argv.tail).globals
    else .printUsage (if command = [] then 0 else 1)

def assignment : Arg Text → Option (Text × ArgValue)
  | .positional _ => none
  | .bare t => some (t.drop 2,.present)
  | .valued t v => some (t.drop 2,.text v)

def positionalOf : Arg Text → Option Text
  | .positional t => some t
  | _ => none

def lastValue (items : List (Arg Text)) (key : Text) : Option ArgValue :=
  AssocMap.get (items.filterMap assignment).reverse key

def reservedKeys : List Text := [protoKey,positionalKey]

def applyItem (args : Args) (item : Arg Text) : Args where
  options := (assignment item).elim args.options (fun a => assign args.options a.1 a.2)
  positional := args.positional ++ (positionalOf item).toList

theorem parseLoop_eq (args : Args) (argv : List Text) :
    parseLoop args argv = (scan startsWithDashes argv).foldl applyItem args := by
  fun_induction parseLoop args argv with
  | case1 args => rfl
  | case2 args t ht => simp [scan,ht,applyItem,assignment,positionalOf]
  | case3 args t ht => simp [scan,ht,applyItem,assignment,positionalOf]
  | case4 args t v rest ht hv ih => rw [ih]; simp [scan,ht,hv,applyItem,assignment,positionalOf]
  | case5 args t v rest ht hv ih => rw [ih]; simp [scan,ht,hv,applyItem,assignment,positionalOf]
  | case6 args t v rest ht ih => rw [ih]; simp [scan,ht,applyItem,assignment,positionalOf]

section Fold

variable {args : Args} {items : List (Arg Text)} {key : Text}

theorem foldl_positional :
    (items.foldl applyItem args).positional = args.positional ++ items.filterMap positionalOf := by
  induction items generalizing args with
  | nil => simp
  | cons item items ih =>
    rw [List.foldl_cons,ih,List.filterMap_cons]
    cases hitem : positionalOf item <;> simp [applyItem,hitem]

theorem get_assign {options : List (Text × ArgValue)} {k : Text} {value : ArgValue} (hkey : key ≠ protoKey) :
    AssocMap.get (assign options k value) key = if key = k then some value else AssocMap.get options key := by
  unfold assign
  split_ifs with hproto hk hk
  · exact absurd (hk.trans hproto) hkey
  · rfl
  · exact (AssocMap.get_set ..).trans (if_pos hk)
  · exact (AssocMap.get_set ..).trans (if_neg hk)

theorem foldl_get (hkey : key ≠ protoKey) :
    (items.foldl applyItem args).get key = (lastValue items key).or (args.get key) := by
  induction items using List.reverseRecOn with
  | nil => rfl
  | append_singleton items item ih =>
    rw [List.foldl_append,List.foldl_cons,List.foldl_nil,lastValue,List.filterMap_append]
    cases hitem : assignment item with
    | none =>
      simp only [applyItem,hitem,Option.elim_none,Args.get,List.filterMap_cons,List.filterMap_nil,List.append_nil]
      exact ih
    | some a =>
      obtain ⟨k,value⟩ := a
      simp only [applyItem,hitem,Option.elim_some,Args.get,List.filterMap_cons,List.filterMap_nil,
        List.reverse_append,List.reverse_singleton,List.singleton_append,get_assign hkey]
      split_ifs with hk
      · rw [hk,AssocMap.get_cons_self,Option.some_or]
      · rw [AssocMap.get_cons_ne hk]
        exact ih

theorem foldl_get_proto (h : args.get protoKey = none) : (items.foldl applyItem args).get protoKey = none := by
  induction items generalizing args with
  | nil => exact h
  | cons item items ih =>
    refine ih ?_
    cases hitem : assignment item with
    | none => simpa [applyItem,hitem,Args.get] using h
    | some a =>
      simp only [applyItem,hitem,Option.elim_some,Args.get,assign]
      split_ifs with hk
      · exact h
      · exact (AssocMap.get_set ..).trans ((if_neg (Ne.symm hk)).trans h)

end Fold

theorem get_parseArgs (argv : List Text) (key : Text) : (parseArgs argv).get key =
    if key ∈ reservedKeys then none else lastValue (scan startsWithDashes argv) key := by
  have hget : (parseArgs argv).get key = if key = positionalKey then none
      else ((scan startsWithDashes argv).foldl applyItem ⟨[],[]⟩).get key := by
    rw [← parseLoop_eq]
    exact AssocMap.get_erase _ _ _
  rw [hget]
  by_cases hpositional : key = positionalKey
  · subst hpositional
    simp [reservedKeys]
  · by_cases hproto : key = protoKey
    · subst hproto
      rw [if_neg hpositional,if_pos (by simp [reservedKeys])]
      exact foldl_get_proto rfl
    · rw [if_neg hpositional,if_neg (by simp [reservedKeys,hpositional,hproto]),foldl_get hproto]
      exact Option.or_none

theorem positional_parseArgs (argv : List Text) :
    (parseArgs argv).positional = (scan startsWithDashes argv).filterMap positionalOf := by
  show (parseLoop ⟨[],[]⟩ argv).positional = _
  rw [parseLoop_eq,foldl_positional,List.nil_append]

theorem get_foldl_erase (options : List (Text × ArgValue)) (keys : List Text) (key : Text) :
    AssocMap.get (keys.foldl AssocMap.erase options) key = if key ∈ keys then none else AssocMap.get options key := by
  induction keys generalizing options with
  | nil => simp
  | cons k keys ih =>
    rw [List.foldl_cons,ih,AssocMap.get_erase]
    by_cases hk : key = k <;> by_cases hkeys : key ∈ keys <;> simp [hk,hkeys]

def hiddenKeys : List Text := reservedKeys ++ globalKeys

structure Dispatched (items : List (Arg Text)) (args : Args) (globals : Globals) : Prop where
  positional : args.positional = items.filterMap positionalOf
  options : ∀ key, args.get key = if key ∈ hiddenKeys then none else lastValue items key
  dbPath : globals.dbPath = orNull (lastValue items "db-path".toList)
  json : globals.json = true
  logLevel : globals.logLevel = orNull (lastValue items "log-level".toList)

theorem dispatched (argv : List Text) :
    Dispatched (scan startsWithDashes argv) (parseArgs argv).withoutGlobals (parseArgs argv).globals := by
  refine ⟨positional_parseArgs argv,fun key => ?_,?_,rfl,?_⟩
  · have herased : (parseArgs argv).withoutGlobals.get key =
        if key ∈ globalKeys then none else (parseArgs argv).get key := get_foldl_erase _ _ _
    rw [herased,get_parseArgs]
    by_cases hglobal : key ∈ globalKeys <;> by_cases hreserved : key ∈ reservedKeys <;>
      simp [hiddenKeys,hglobal,hreserved]
  · exact congrArg orNull ((get_parseArgs argv _).trans (if_neg (by decide)))
  · exact congrArg orNull ((get_parseArgs argv _).trans (if_neg (by decide)))

theorem main_dispatches {command : Text} (hcommand : command ∈ commands) (argv : List Text) :
    ∃ items, Canonical startsWithDashes items ∧ render items = argv ∧
      (∀ items', Canonical startsWithDashes items' → render items' = argv → items' = items) ∧
      ∃ args globals, main (command :: argv) = .dispatch command args globals ∧ Dispatched items args globals := by
  refine ⟨scan startsWithDashes argv,canonical_scan argv,render_scan argv,fun items' hcanonical hrender => ?_,
    _,_,?_,dispatched argv⟩
  · exact canonical_unique hcanonical (canonical_scan argv) (hrender.trans (render_scan argv).symm)
  · have hversion : ¬ (command = "--version".toList ∨ command = "-v".toList) := by
      rintro (rfl | rfl)
      · exact absurd hcommand (by decide)
      · exact absurd hcommand (by decide)
    have hknown : commands.any (fun c => decide (c = command)) = true :=
      List.any_eq_true.mpr ⟨command,hcommand,decide_eq_true rfl⟩
    simp only [main,List.head?_cons,List.tail_cons,if_neg hversion,if_pos hknown]

theorem main_dispatches_sample : ∃ items, Canonical startsWithDashes items ∧
    render items = ["drop".toList,"--dry-run".toList,"--dl-id".toList,"5".toList] ∧
      (∀ items', Canonical startsWithDashes items' →
        render items' = ["drop".toList,"--dry-run".toList,"--dl-id".toList,"5".toList] → items' = items) ∧
      ∃ args globals, main ("dlq".toList :: ["drop".toList,"--dry-run".toList,"--dl-id".toList,"5".toList]) =
        .dispatch "dlq".toList args globals ∧ Dispatched items args globals :=
  main_dispatches (by decide) _

end WickedBus.Cli
