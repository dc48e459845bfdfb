import WickedBus.Foundation.Utf8

namespace JsonLiterals

open Utf16 (replacement)
open Utf8 (Damaged)

def quote : UInt16 := 34

def backslash : UInt16 := 92

inductive Scan where
  | outside
  | inside (content : List UInt16)
  | escaped (content : List UInt16)
  | hex (content digits : List UInt16)
  deriving DecidableEq

def escapedUnit (u : UInt16) : UInt16 :=
  if u = 98 then 8 else if u = 102 then 12 else if u = 110 then 10 else if u = 114 then 13
  else if u = 116 then 9 else u

def hexDigit (u : UInt16) : UInt16 := if u < 58 then u - 48 else if u < 71 then u - 55 else u - 87

def hexUnit (digits : List UInt16) : UInt16 := digits.foldl (fun n u => n * 16 + hexDigit u) 0

namespace Scan

def next : Scan → UInt16 → Scan
  | .outside, u => if u = quote then .inside [] else .outside
  | .inside s, u => if u = quote then .outside else if u = backslash then .escaped s else .inside (s ++ [u])
  | .escaped s, u => if u = 117 then .hex s [] else .inside (s ++ [escapedUnit u])
  | .hex s digits, u =>
    if digits.length = 3 then .inside (s ++ [hexUnit (digits ++ [u])]) else .hex s (digits ++ [u])

def closed : Scan → UInt16 → List (List UInt16)
  | .inside s, u => if u = quote then [s] else []
  | _, _ => []

def isInside : Scan → Bool
  | .inside _ => true
  | _ => false

def content : Scan → List UInt16
  | .outside => []
  | .inside s | .escaped s | .hex s _ => s

def after (a : Scan) (us : List UInt16) : Scan := us.foldl next a

end Scan

def literalsFrom (a : Scan) : List UInt16 → List (List UInt16)
  | [] => []
  | u :: us => a.closed u ++ literalsFrom (a.next u) us

def literals (text : List UInt16) : List (List UInt16) := literalsFrom .outside text

-- every literal is closed, and what is not ASCII stands in a literal as it is
def PlainFrom (a : Scan) : List UInt16 → Prop
  | [] => a = .outside
  | u :: us => (a.isInside = true ∨ u.toNat < 0x80) ∧ PlainFrom (a.next u) us

def Plain (text : List UInt16) : Prop := PlainFrom .outside text

instance decidablePlainFrom : ∀ (a : Scan) (us : List UInt16), Decidable (PlainFrom a us)
  | a, [] => inferInstanceAs (Decidable (a = .outside))
  | a, u :: us =>
    have := decidablePlainFrom (a.next u) us
    inferInstanceAs (Decidable (_ ∧ PlainFrom (a.next u) us))

instance (text : List UInt16) : Decidable (Plain text) := inferInstanceAs (Decidable (PlainFrom .outside text))

-- a character counts two, whatever number of units it takes
def halves (u : UInt16) : ℕ := if Utf16.high u || Utf16.low u then 1 else 2

def weight (s : List UInt16) : ℕ := (s.map halves).sum

def total (ls : List (List UInt16)) : ℕ := (ls.map weight).sum

inductive Alike : Scan → Scan → Prop
  | outside : Alike .outside .outside
  | inside (s t : List UInt16) : Alike (.inside s) (.inside t)
  | escaped (s t : List UInt16) : Alike (.escaped s) (.escaped t)
  | hex (s t digits : List UInt16) : Alike (.hex s digits) (.hex t digits)

section Scanning

variable {a b : Scan} {u : UInt16} {us vs rest : List UInt16}

@[simp] theorem weight_append (s t : List UInt16) : weight (s ++ t) = weight s + weight t := by
  simp only [weight,List.map_append,List.sum_append]

@[simp] theorem weight_nil : weight [] = 0 := rfl

@[simp] theorem total_append (ls ms : List (List UInt16)) : total (ls ++ ms) = total ls + total ms := by
  simp only [total,List.map_append,List.sum_append]

@[simp] theorem total_singleton (s : List UInt16) : total [s] = weight s := by
  simp only [total,List.map_singleton,List.sum_singleton]

@[simp] theorem total_nil : total [] = 0 := rfl

theorem literalsFrom_append (a : Scan) (us rest : List UInt16) :
    literalsFrom a (us ++ rest) = literalsFrom a us ++ literalsFrom (a.after us) rest := by
  induction us generalizing a with
  | nil => rfl
  | cons u us ih =>
    simp only [List.cons_append,literalsFrom,ih,List.append_assoc]
    rfl

theorem PlainFrom.after (h : PlainFrom a (us ++ rest)) : PlainFrom (a.after us) rest := by
  induction us generalizing a with
  | nil => exact h
  | cons u us ih => exact ih h.2

structure Parallel (a b a' b' : Scan) (ls ms : List (List UInt16)) : Prop where
  alike : Alike a' b'
  length : ls.length = ms.length
  weight : total ls + weight a'.content + weight b.content = total ms + weight b'.content + weight a.content

theorem Alike.next (h : Alike a b) (u : UInt16) :
    Parallel a b (a.next u) (b.next u) (a.closed u) (b.closed u) := by
  cases h with
  | outside =>
    simp only [Scan.next]
    split_ifs
    · exact ⟨.inside [] [],rfl,rfl⟩
    · exact ⟨.outside,rfl,rfl⟩
  | inside s t =>
    simp only [Scan.next,Scan.closed]
    split_ifs
    · exact ⟨.outside,rfl,by simp [Scan.content,Nat.add_comm]⟩
    · exact ⟨.escaped s t,rfl,by simp [Scan.content,Nat.add_comm]⟩
    · exact ⟨.inside _ _,rfl,by simp [Scan.content]; omega⟩
  | escaped s t =>
    simp only [Scan.next,Scan.closed]
    split_ifs
    · exact ⟨.hex s t [],rfl,by simp [Scan.content,Nat.add_comm]⟩
    · exact ⟨.inside _ _,rfl,by simp [Scan.content]; omega⟩
  | hex s t digits =>
    simp only [Scan.next,Scan.closed]
    split_ifs
    · exact ⟨.inside _ _,rfl,by simp [Scan.content]; omega⟩
    · exact ⟨.hex s t _,rfl,by simp [Scan.content,Nat.add_comm]⟩

theorem Alike.after (h : Alike a b) (us : List UInt16) :
    Parallel a b (a.after us) (b.after us) (literalsFrom a us) (literalsFrom b us) := by
  induction us generalizing a b with
  | nil => exact ⟨h,rfl,by simp [literalsFrom,Scan.after,Nat.add_comm]⟩
  | cons u us ih =>
    have hfirst := h.next u
    have hrest := ih hfirst.alike
    refine ⟨hrest.alike,?_,?_⟩
    · simp only [literalsFrom,List.length_append,hfirst.length,hrest.length]
    · have hw := hfirst.weight
      have hw' := hrest.weight
      simp only [literalsFrom,total_append]
      show _ + weight ((a.next u).after us).content + _ = _ + weight ((b.next u).after us).content + _
      omega

theorem inside_high {s : List UInt16} (h : ∀ u ∈ us, 0x80 ≤ u.toNat) :
    (Scan.inside s).after us = .inside (s ++ us) ∧ literalsFrom (.inside s) us = [] := by
  induction us generalizing s with
  | nil => exact ⟨by rw [List.append_nil]; rfl,rfl⟩
  | cons u us ih =>
    have hu := h u List.mem_cons_self
    have hquote : u ≠ quote := by
      rintro rfl
      exact absurd hu (by decide)
    have hbackslash : u ≠ backslash := by
      rintro rfl
      exact absurd hu (by decide)
    have hnext : (Scan.inside s).next u = .inside (s ++ [u]) := by
      simp only [Scan.next,if_neg hquote,if_neg hbackslash]
    obtain ⟨hafter,hnone⟩ := @ih (s ++ [u]) (fun v hv => h v (List.mem_cons_of_mem _ hv))
    refine ⟨?_,?_⟩
    · rw [← List.append_cons] at hafter
      exact (congrArg (Scan.after · us) hnext).trans hafter
    · simp only [literalsFrom,Scan.closed,if_neg hquote,hnext,hnone,List.append_nil]

end Scanning

section Characters

variable {c : Char} {n : ℕ} {s t : List Char}

theorem encodeChar_weight (c : Char) : weight (Utf16.encodeChar c) ≤ 2 := by
  unfold Utf16.encodeChar
  split_ifs with hsmall
  · simp only [weight,List.map_singleton,List.sum_singleton,halves]
    split_ifs <;> omega
  · obtain ⟨hhigh,hlow,-⟩ := Utf16.surrogatePair_ofNat (not_lt.mp hsmall)
    simp only [weight,List.map_cons,List.map_nil,List.sum_cons,List.sum_nil,halves,hhigh,hlow,Bool.true_or,
      Bool.or_true,if_true]
    omega

theorem marks_high (k : ℕ) : ∀ u ∈ Utf16.encode (List.replicate k replacement), 0x80 ≤ u.toNat := by
  intro u hu
  obtain ⟨c,hc,hu⟩ := List.mem_flatMap.mp hu
  rw [List.eq_of_mem_replicate hc] at hu
  exact Utf16.encodeChar_high (by decide) u hu

theorem marks_weight (k : ℕ) : weight (Utf16.encode (List.replicate k replacement)) = 2 * k := by
  induction k with
  | zero => rfl
  | succ k ih =>
    have hmark : weight (Utf16.encodeChar replacement) = 2 := by decide
    rw [List.replicate_succ,Utf16.encode_cons,weight_append,ih,hmark]
    omega

theorem PlainFrom.inside {a : Scan} {u : UInt16} {us : List UInt16} (h : PlainFrom a (u :: us))
    (hu : 0x80 ≤ u.toNat) : ∃ content, a = .inside content := by
  cases a with
  | inside content => exact ⟨content,rfl⟩
  | _ => exact absurd (h.1.resolve_left Bool.false_ne_true) (not_lt.mpr hu)

theorem damaged_literals (h : Damaged n s t) {a b : Scan} (hab : Alike a b) (hplain : PlainFrom a (Utf16.encode s)) :
    (literalsFrom a (Utf16.encode s)).length = (literalsFrom b (Utf16.encode t)).length ∧
      total (literalsFrom a (Utf16.encode s)) + weight b.content + n ≤
        total (literalsFrom b (Utf16.encode t)) + weight a.content := by
  induction h generalizing a b with
  | nil =>
    obtain rfl : a = .outside := hplain
    cases hab
    exact ⟨rfl,le_rfl⟩
  | keep c _ ih =>
    rw [Utf16.encode_cons] at hplain ⊢
    rw [Utf16.encode_cons,literalsFrom_append,literalsFrom_append]
    have hchar := hab.after (Utf16.encodeChar c)
    obtain ⟨hlength,hweight⟩ := ih hchar.alike hplain.after
    have hw := hchar.weight
    simp only [List.length_append,total_append]
    exact ⟨by rw [hchar.length,hlength],by omega⟩
  | lose c k high marks _ ih =>
    rw [Utf16.encode_cons] at hplain ⊢
    obtain ⟨u,us,hus⟩ := List.exists_cons_of_ne_nil (Utf16.encodeChar_ne_nil c)
    have hunit : u ∈ Utf16.encodeChar c := hus ▸ List.mem_cons_self
    have hfirst := hplain
    rw [hus,List.cons_append] at hfirst
    obtain ⟨x,rfl⟩ := hfirst.inside (Utf16.encodeChar_high high u hunit)
    cases hab with
    | inside _ y =>
      obtain ⟨hafter,hnone⟩ := @inside_high _ x (Utf16.encodeChar_high high)
      obtain ⟨hafter',hnone'⟩ := @inside_high _ y (marks_high k)
      have hplain' := hplain.after
      rw [hafter] at hplain'
      obtain ⟨hlength,hweight⟩ := ih (.inside _ (y ++ Utf16.encode (List.replicate k replacement))) hplain'
      have hlost := encodeChar_weight c
      have hmarks := marks_weight k
      rw [Utf16.encode_append,literalsFrom_append,literalsFrom_append,hafter,hafter',hnone,hnone']
      simp only [List.nil_append,Scan.content,weight_append] at hweight hlength ⊢
      exact ⟨hlength,by omega⟩

end Characters

end JsonLiterals
