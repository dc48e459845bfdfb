import WickedBus.Ipc

namespace WickedBus

open Ipc (JsString ascii)

inductive JsNumber where
  | nan
  | infinity (negative : Bool)
  | finite (q : ℚ)
  deriving DecidableEq, Repr

inductive Primitive where
  | undefined
  | null
  | bool (b : Bool)
  | number (x : JsNumber)
  | string (s : JsString)
  | bigint (n : ℤ)
  | symbol
  deriving DecidableEq, Repr

inductive ExoticKind where
  | function | buffer | other
  deriving DecidableEq, Repr

inductive AnyValue where
  | primitive (p : Primitive)
  | array (items : List AnyValue)
  | object (fields : List (JsString × AnyValue))
  | exotic (kind : ExoticKind)

def prototypeMethods : List JsString :=
  ["constructor","__defineGetter__","__defineSetter__","hasOwnProperty","__lookupGetter__","__lookupSetter__",
    "isPrototypeOf","propertyIsEnumerable","toString","valueOf","toLocaleString"].map ascii

def protoName : JsString := ascii "__proto__"

structure JsEngine where
  stringToNumber : JsString → JsNumber
  stringToBigInt : JsString → Option ℤ
  toPrimitive : AnyValue → Option Primitive

def JsNumber.less : JsNumber → JsNumber → Bool
  | .nan, _ | _, .nan => false
  | .infinity true, .infinity true => false
  | .infinity true, _ => true
  | _, .infinity true => false
  | .infinity false, _ => false
  | _, .infinity false => true
  | .finite a, .finite b => decide (a < b)

def JsNumber.times (c : ℚ) : JsNumber → JsNumber
  | .nan => .nan
  | .infinity negative => if c = 0 then .nan else .infinity (xor negative (decide (c < 0)))
  | .finite q => .finite (q * c)

def JsNumber.plus (c : ℚ) : JsNumber → JsNumber
  | .finite q => .finite (c + q)
  | x => x

def AnyValue.nullish : AnyValue → Bool
  | .primitive .undefined | .primitive .null => true
  | _ => false

def AnyValue.truthy : AnyValue → Bool
  | .primitive .undefined | .primitive .null | .primitive (.number .nan) => false
  | .primitive (.bool b) => b
  | .primitive (.number (.finite q)) => decide (q ≠ 0)
  | .primitive (.string s) => decide (s ≠ [])
  | .primitive (.bigint n) => decide (n ≠ 0)
  | _ => true

def AnyValue.text (s : String) : AnyValue := .primitive (.string (ascii s))

def AnyValue.rat (q : ℚ) : AnyValue := .primitive (.number (.finite q))

namespace JsEngine

def toNumber (e : JsEngine) : Primitive → JsNumber
  | .undefined | .symbol => .nan
  | .null => .finite 0
  | .bool b => .finite (if b then 1 else 0)
  | .number x => x
  | .string s => e.stringToNumber s
  | .bigint n => .finite n

def primitiveOf (e : JsEngine) : AnyValue → Option Primitive
  | .primitive p => some p
  | v => e.toPrimitive v

def comparePrimitives (e : JsEngine) : Primitive → Primitive → Option Bool
  | .symbol, _ | _, .symbol => none
  | .string s, .string t => some (decide (s < t))
  | .bigint n, .string t => some ((e.stringToBigInt t).any (fun m => decide (n < m)))
  | .string s, .bigint m => some ((e.stringToBigInt s).any (fun n => decide (n < m)))
  | p, q => some ((e.toNumber p).less (e.toNumber q))

def less (e : JsEngine) (v w : AnyValue) : Option Bool :=
  match e.primitiveOf v, e.primitiveOf w with
  | some p, some q => e.comparePrimitives p q
  | _, _ => none

theorem less_rat (e : JsEngine) (a b : ℚ) : e.less (.rat a) (.rat b) = some (decide (a < b)) := rfl

end JsEngine

def digitValue (u : UInt16) : Option ℕ := if 48 ≤ u ∧ u ≤ 57 then some (u.toNat - 48) else none

def digitsToNumber (s : JsString) : JsNumber :=
  if s = [] then .finite 0
  else
    match s.mapM digitValue with
    | some digits => .finite (digits.foldl (fun n d => 10 * n + d) 0 : ℕ)
    | none => .nan

def decimalEngine : JsEngine where
  stringToNumber := digitsToNumber
  stringToBigInt _ := none
  toPrimitive _ := some (.string (ascii "[object Object]"))

end WickedBus
