import WickedBus.Foundation.Json
import WickedBus.Coercion

namespace WickedBus

open AssocMap (keys)
open Ipc (JsString ascii)

abbrev JsonValue := Json JsString

inductive TypeName where
  | string | number | integer | boolean | object | array | null
  deriving DecidableEq, Repr

structure Keywords where
  type : Option (List TypeName)
  enum : Option (List JsonValue)
  minLength : Option ℕ
  maxLength : Option ℕ
  minimum : Option ℚ
  maximum : Option ℚ
  required : Option (List JsString)
  additionalProperties : Bool

inductive SchemaTree where
  | node (own : Keywords) (properties : Option (List (JsString × SchemaTree))) (items : Option SchemaTree)

inductive Member where
  | json (value : JsonValue)
  | function
  | objectPrototype

inductive JsType where
  | null | array | object | string | number | boolean | function
  deriving DecidableEq, Repr

def inherited (k : JsString) : Option Member :=
  if k = protoName then some .objectPrototype else if k ∈ prototypeMethods then some .function else none

def Member.get (k : JsString) : Member → Option Member
  | .json (.object fields) => ((AssocMap.get fields k).map .json).or (inherited k)
  | .objectPrototype =>
    if k = protoName then some (.json .null) else if k ∈ prototypeMethods then some .function else none
  | _ => none

def Member.ownKeys : Member → List JsString
  | .json (.object fields) => keys fields
  | _ => []

def jsonType : Member → JsType
  | .json .null => .null
  | .json (.array _) => .array
  | .json (.object _) => .object
  | .json (.string _) => .string
  | .json (.number _) => .number
  | .json (.bool _) => .boolean
  | .function => .function
  | .objectPrototype => .object

def isInteger : Member → Bool
  | .json (.number q) => decide (q.den = 1)
  | _ => false

def typeMatches (declared : TypeName) (value : Member) : Bool :=
  match declared, jsonType value with
  | .string, .string | .number, .number | .boolean, .boolean | .object, .object | .array, .array | .null, .null => true
  | .integer, .number => isInteger value
  | _, _ => false

mutual

def deepEqual : JsonValue → Member → Bool
  | .null, .json .null => true
  | .bool a, .json (.bool b) => decide (a = b)
  | .number a, .json (.number b) => decide (a = b)
  | .string a, .json (.string b) => decide (a = b)
  | .array xs, .json (.array ys) => deepEqualItems xs ys
  | .object fields, .json (.object others) =>
    decide (fields.length = others.length) && deepEqualFields fields (.json (.object others))
  | .object fields, .objectPrototype => decide (fields.length = 0) && deepEqualFields fields .objectPrototype
  | _, _ => false

def deepEqualItems : List JsonValue → List JsonValue → Bool
  | [], [] => true
  | x :: xs, y :: ys => deepEqual x (.json y) && deepEqualItems xs ys
  | _, _ => false

def deepEqualFields : List (JsString × JsonValue) → Member → Bool
  | [], _ => true
  | (k,x) :: fields, b =>
    (match b.get k with
    | some y => deepEqual x y
    | none => false) && deepEqualFields fields b

end

inductive Rule where
  | notInEnum (allowed : List JsonValue)
  | expected (allowed : List TypeName) (actual : JsType)
  | minLength (n : ℕ)
  | maxLength (n : ℕ)
  | minimum (q : ℚ)
  | maximum (q : ℚ)
  | missing (key : JsString)
  | additional (key : JsString)

structure Violation where
  path : JsString
  rule : Rule

def enumViolations (own : Keywords) (v : Member) (path : JsString) : List Violation :=
  match own.enum with
  | some allowed => if allowed.any (fun x => deepEqual x v) then [] else [⟨path,.notInEnum allowed⟩]
  | none => []

def typeViolations (own : Keywords) (v : Member) (path : JsString) : List Violation :=
  match own.type with
  | some allowed => if allowed.any (fun t => typeMatches t v) then [] else [⟨path,.expected allowed (jsonType v)⟩]
  | none => []

def violatedBound {α : Type} (bound : Option α) (violated : α → Bool) (rule : α → Rule) (path : JsString) :
    List Violation :=
  match bound with
  | some n => if violated n then [⟨path,rule n⟩] else []
  | none => []

def boundViolations (own : Keywords) (v : Member) (path : JsString) : List Violation :=
  match v with
  | .json (.string s) =>
    violatedBound own.minLength (fun n => decide (s.length < n)) .minLength path ++
      violatedBound own.maxLength (fun n => decide (n < s.length)) .maxLength path
  | .json (.number q) =>
    violatedBound own.minimum (fun n => decide (q < n)) .minimum path ++
      violatedBound own.maximum (fun n => decide (n < q)) .maximum path
  | _ => []

def requiredViolations (own : Keywords) (v : Member) (path : JsString) : List Violation :=
  match own.required with
  | some required =>
    if jsonType v = .object then
      (required.filter (fun k => (v.get k).isNone)).map (fun k => ⟨path,.missing k⟩)
    else []
  | none => []

def additionalViolations (own : Keywords) (properties : List JsString) (v : Member) (path : JsString) :
    List Violation :=
  if own.additionalProperties = false then
    (v.ownKeys.filter (fun k => decide (k ∉ properties))).map (fun k => ⟨path,.additional k⟩)
  else []

def childPath (path k : JsString) : JsString := if path = [] then k else path ++ ascii "." ++ k

def itemPath (path : JsString) (i : ℕ) : JsString := path ++ ascii "[" ++ ascii (toString i) ++ ascii "]"

mutual

def walk : SchemaTree → Member → JsString → List Violation
  | .node own properties items, v, path =>
    enumViolations own v path ++
    if typeViolations own v path ≠ [] then typeViolations own v path
    else boundViolations own v path ++ requiredViolations own v path ++
      walkProperties own properties v path ++ walkItems items v path

def walkProperties (own : Keywords) : Option (List (JsString × SchemaTree)) → Member → JsString → List Violation
  | none, _, _ => []
  | some properties, v, path =>
    if jsonType v = .object then
      walkFields properties v path ++ additionalViolations own (keys properties) v path
    else []

def walkFields : List (JsString × SchemaTree) → Member → JsString → List Violation
  | [], _, _ => []
  | (k,sub) :: properties, v, path =>
    (match v.get k with
    | some x => walk sub x (childPath path k)
    | none => []) ++ walkFields properties v path

def walkItems : Option SchemaTree → Member → JsString → List Violation
  | none, _, _ => []
  | some items, v, path =>
    match v with
    | .json (.array xs) => xs.zipIdx.flatMap (fun x => walk items (.json x.1) (itemPath path x.2))
    | _ => []

end

def validateAgainst (schema : SchemaTree) (value : JsonValue) : List Violation := walk schema (.json value) []

def highSurrogate (u : UInt16) : Bool := decide (0xd800 ≤ u ∧ u < 0xdc00)

def lowSurrogate (u : UInt16) : Bool := decide (0xdc00 ≤ u ∧ u < 0xe000)

def codePoints : JsString → ℕ
  | [] => 0
  | [_] => 1
  | u :: v :: s => if highSurrogate u ∧ lowSurrogate v then codePoints s + 1 else codePoints (v :: s) + 1

def TypeName.Admits : TypeName → JsonValue → Prop
  | .string, .string _ | .number, .number _ | .boolean, .bool _ | .object, .object _ | .array, .array _
  | .null, .null => True
  | .integer, .number q => ∃ n : ℤ, q = n
  | _, _ => False

inductive Valid : SchemaTree → JsonValue → Prop
  | node {own : Keywords} {properties : Option (List (JsString × SchemaTree))} {items : Option SchemaTree}
      {v : JsonValue}
      (type : ∀ ts ∈ own.type, ∃ t ∈ ts, t.Admits v)
      (enum : ∀ allowed ∈ own.enum, ∃ x ∈ allowed, x.Same v)
      (minLength : ∀ n ∈ own.minLength, ∀ s, v = .string s → n ≤ codePoints s)
      (maxLength : ∀ n ∈ own.maxLength, ∀ s, v = .string s → codePoints s ≤ n)
      (minimum : ∀ n ∈ own.minimum, ∀ q, v = .number q → n ≤ q)
      (maximum : ∀ n ∈ own.maximum, ∀ q, v = .number q → q ≤ n)
      (required : ∀ ks ∈ own.required, ∀ fields, v = .object fields → ∀ k ∈ ks, k ∈ keys fields)
      (additional : own.additionalProperties = false → ∀ fields, v = .object fields → ∀ k ∈ keys fields,
        ∃ ps ∈ properties, k ∈ keys ps)
      (property : ∀ ps ∈ properties, ∀ fields, v = .object fields → ∀ f ∈ ps, ∀ x,
        AssocMap.get fields f.1 = some x → Valid f.2 x)
      (item : ∀ sub ∈ items, ∀ xs, v = .array xs → ∀ x ∈ xs, Valid sub x) :
      Valid (.node own properties items) v

inductive Breaks : SchemaTree → Member → Prop
  | type {own : Keywords} {ps : Option (List (JsString × SchemaTree))} {items : Option SchemaTree} {m : Member}
      {ts : List TypeName} (keyword : own.type = some ts) (none : ∀ t ∈ ts, typeMatches t m = false) :
      Breaks (.node own ps items) m
  | enum {own : Keywords} {ps : Option (List (JsString × SchemaTree))} {items : Option SchemaTree} {m : Member}
      {allowed : List JsonValue} (keyword : own.enum = some allowed) (none : ∀ x ∈ allowed, deepEqual x m = false) :
      Breaks (.node own ps items) m
  | required {own : Keywords} {ps : Option (List (JsString × SchemaTree))} {items : Option SchemaTree}
      {ks : List JsString} {k : JsString} (keyword : own.required = some ks) (listed : k ∈ ks)
      (absent : Member.objectPrototype.get k = none) : Breaks (.node own ps items) .objectPrototype
  | property {own : Keywords} {ps : List (JsString × SchemaTree)} {items : Option SchemaTree}
      {f : JsString × SchemaTree} {x : Member} (listed : f ∈ ps)
      (member : Member.objectPrototype.get f.1 = some x) (breaks : Breaks f.2 x) :
      Breaks (.node own (some ps) items) .objectPrototype

inductive FailsBoth : SchemaTree → JsonValue → Prop
  | type {own : Keywords} {ps : Option (List (JsString × SchemaTree))} {items : Option SchemaTree} {v : JsonValue}
      {ts : List TypeName} (keyword : own.type = some ts) (none : ∀ t ∈ ts, ¬ t.Admits v) :
      FailsBoth (.node own ps items) v
  | enum {own : Keywords} {ps : Option (List (JsString × SchemaTree))} {items : Option SchemaTree} {v : JsonValue}
      {allowed : List JsonValue} (keyword : own.enum = some allowed)
      (none : ∀ x ∈ allowed, deepEqual x (.json v) = false) : FailsBoth (.node own ps items) v
  | minLength {own : Keywords} {ps : Option (List (JsString × SchemaTree))} {items : Option SchemaTree} {n : ℕ}
      {s : JsString} (keyword : own.minLength = some n) (short : s.length < n) :
      FailsBoth (.node own ps items) (.string s)
  | maxLength {own : Keywords} {ps : Option (List (JsString × SchemaTree))} {items : Option SchemaTree} {n : ℕ}
      {s : JsString} (keyword : own.maxLength = some n) (long : n < codePoints s) :
      FailsBoth (.node own ps items) (.string s)
  | minimum {own : Keywords} {ps : Option (List (JsString × SchemaTree))} {items : Option SchemaTree} {n q : ℚ}
      (keyword : own.minimum = some n) (small : q < n) : FailsBoth (.node own ps items) (.number q)
  | maximum {own : Keywords} {ps : Option (List (JsString × SchemaTree))} {items : Option SchemaTree} {n q : ℚ}
      (keyword : own.maximum = some n) (large : n < q) : FailsBoth (.node own ps items) (.number q)
  | required {own : Keywords} {ps : Option (List (JsString × SchemaTree))} {items : Option SchemaTree}
      {ks : List JsString} {k : JsString} {fields : List (JsString × JsonValue)} (keyword : own.required = some ks)
      (listed : k ∈ ks) (absent : k ∉ keys fields) (plain : inherited k = none) :
      FailsBoth (.node own ps items) (.object fields)
  | additional {own : Keywords} {ps : List (JsString × SchemaTree)} {items : Option SchemaTree} {k : JsString}
      {fields : List (JsString × JsonValue)} (closed : own.additionalProperties = false) (present : k ∈ keys fields)
      (unlisted : k ∉ keys ps) : FailsBoth (.node own (some ps) items) (.object fields)
  | property {own : Keywords} {ps : List (JsString × SchemaTree)} {items : Option SchemaTree}
      {f : JsString × SchemaTree} {fields : List (JsString × JsonValue)} {x : JsonValue} (listed : f ∈ ps)
      (present : AssocMap.get fields f.1 = some x) (fails : FailsBoth f.2 x) :
      FailsBoth (.node own (some ps) items) (.object fields)
  | item {own : Keywords} {ps : Option (List (JsString × SchemaTree))} {sub : SchemaTree} {xs : List JsonValue}
      {x : JsonValue} (present : x ∈ xs) (fails : FailsBoth sub x) :
      FailsBoth (.node own ps (some sub)) (.array xs)

inductive OnlyCodeFails : SchemaTree → JsonValue → Prop
  | maxLength {own : Keywords} {ps : Option (List (JsString × SchemaTree))} {items : Option SchemaTree} {n : ℕ}
      {s : JsString} (keyword : own.maxLength = some n) (short : codePoints s ≤ n) (long : n < s.length) :
      OnlyCodeFails (.node own ps items) (.string s)
  | inherited {own : Keywords} {ps : List (JsString × SchemaTree)} {items : Option SchemaTree}
      {f : JsString × SchemaTree} {fields : List (JsString × JsonValue)} {m : Member} (listed : f ∈ ps)
      (absent : f.1 ∉ keys fields) (member : inherited f.1 = some m) (breaks : Breaks f.2 m) :
      OnlyCodeFails (.node own (some ps) items) (.object fields)
  | property {own : Keywords} {ps : List (JsString × SchemaTree)} {items : Option SchemaTree}
      {f : JsString × SchemaTree} {fields : List (JsString × JsonValue)} {x : JsonValue} (listed : f ∈ ps)
      (present : AssocMap.get fields f.1 = some x) (fails : OnlyCodeFails f.2 x) :
      OnlyCodeFails (.node own (some ps) items) (.object fields)
  | item {own : Keywords} {ps : Option (List (JsString × SchemaTree))} {sub : SchemaTree} {xs : List JsonValue}
      {x : JsonValue} (present : x ∈ xs) (fails : OnlyCodeFails sub x) :
      OnlyCodeFails (.node own ps (some sub)) (.array xs)

inductive OnlyStandardFails : SchemaTree → JsonValue → Prop
  | enum {own : Keywords} {ps : Option (List (JsString × SchemaTree))} {items : Option SchemaTree} {v x : JsonValue}
      {allowed : List JsonValue} (keyword : own.enum = some allowed) (listed : x ∈ allowed)
      (matched : deepEqual x (.json v) = true) (none : ∀ y ∈ allowed, ¬ y.Same v) :
      OnlyStandardFails (.node own ps items) v
  | minLength {own : Keywords} {ps : Option (List (JsString × SchemaTree))} {items : Option SchemaTree} {n : ℕ}
      {s : JsString} (keyword : own.minLength = some n) (short : codePoints s < n) (long : n ≤ s.length) :
      OnlyStandardFails (.node own ps items) (.string s)
  | required {own : Keywords} {ps : Option (List (JsString × SchemaTree))} {items : Option SchemaTree}
      {ks : List JsString} {k : JsString} {fields : List (JsString × JsonValue)} (keyword : own.required = some ks)
      (listed : k ∈ ks) (absent : k ∉ keys fields) (member : (inherited k).isSome) :
      OnlyStandardFails (.node own ps items) (.object fields)
  | additional {own : Keywords} {items : Option SchemaTree} {k : JsString} {fields : List (JsString × JsonValue)}
      (closed : own.additionalProperties = false) (present : k ∈ keys fields) :
      OnlyStandardFails (.node own none items) (.object fields)
  | property {own : Keywords} {ps : List (JsString × SchemaTree)} {items : Option SchemaTree}
      {f : JsString × SchemaTree} {fields : List (JsString × JsonValue)} {x : JsonValue} (listed : f ∈ ps)
      (present : AssocMap.get fields f.1 = some x) (fails : OnlyStandardFails f.2 x) :
      OnlyStandardFails (.node own (some ps) items) (.object fields)
  | item {own : Keywords} {ps : Option (List (JsString × SchemaTree))} {sub : SchemaTree} {xs : List JsonValue}
      {x : JsonValue} (present : x ∈ xs) (fails : OnlyStandardFails sub x) :
      OnlyStandardFails (.node own ps (some sub)) (.array xs)

end WickedBus
