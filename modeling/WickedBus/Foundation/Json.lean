import WickedBus.Foundation.AssocMap

inductive Json (S : Type) where
  | null
  | bool (value : Bool)
  | number (value : ℚ)
  | string (value : S)
  | array (items : List (Json S))
  | object (fields : List (S × Json S))

namespace Json

open AssocMap (keys get)

variable {S : Type}

theorem induct {P : Json S → Prop} (null : P .null) (bool : ∀ b, P (.bool b)) (number : ∀ q, P (.number q))
    (string : ∀ s, P (.string s)) (array : ∀ xs, (∀ x ∈ xs, P x) → P (.array xs))
    (object : ∀ fs, (∀ f ∈ fs, P f.2) → P (.object fs)) (v : Json S) : P v := by
  refine Json.rec (motive_1 := P) (motive_2 := fun xs => ∀ x ∈ xs, P x) (motive_3 := fun fs => ∀ f ∈ fs, P f.2)
    (motive_4 := fun f => P f.2) null bool number string array object ?_ ?_ ?_ ?_ ?_ v
  · exact fun x hx => absurd hx List.not_mem_nil
  · intro x xs hx hxs y hy
    rcases List.mem_cons.mp hy with rfl | hy
    · exact hx
    · exact hxs y hy
  · exact fun f hf => absurd hf List.not_mem_nil
  · intro f fs hf hfs g hg
    rcases List.mem_cons.mp hg with rfl | hg
    · exact hf
    · exact hfs g hg
  · exact fun _ _ h => h

inductive Unique : Json S → Prop
  | null : Unique .null
  | bool (b : Bool) : Unique (.bool b)
  | number (q : ℚ) : Unique (.number q)
  | string (s : S) : Unique (.string s)
  | array {xs : List (Json S)} (items : ∀ x ∈ xs, Unique x) : Unique (.array xs)
  | object {fs : List (S × Json S)} (nodup : (keys fs).Nodup) (values : ∀ f ∈ fs, Unique f.2) : Unique (.object fs)

theorem Unique.items {xs : List (Json S)} (h : Unique (.array xs)) : ∀ x ∈ xs, Unique x := by
  cases h with
  | array items => exact items

theorem Unique.nodup {fs : List (S × Json S)} (h : Unique (.object fs)) : (keys fs).Nodup := by
  cases h with
  | object nodup values => exact nodup

theorem Unique.values {fs : List (S × Json S)} (h : Unique (.object fs)) : ∀ f ∈ fs, Unique f.2 := by
  cases h with
  | object nodup values => exact values

inductive Same [DecidableEq S] : Json S → Json S → Prop
  | null : Same .null .null
  | bool (b : Bool) : Same (.bool b) (.bool b)
  | number (q : ℚ) : Same (.number q) (.number q)
  | string (s : S) : Same (.string s) (.string s)
  | array {xs ys : List (Json S)} (items : List.Forall₂ Same xs ys) : Same (.array xs) (.array ys)
  | object {fs gs : List (S × Json S)} (names : ∀ k, k ∈ keys fs ↔ k ∈ keys gs)
      (values : ∀ k x y, get fs k = some x → get gs k = some y → Same x y) : Same (.object fs) (.object gs)

end Json
