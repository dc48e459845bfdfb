import Mathlib

namespace Utf16

def high (u : UInt16) : Bool := decide (0xD800 ≤ u.toNat ∧ u.toNat < 0xDC00)

def low (u : UInt16) : Bool := decide (0xDC00 ≤ u.toNat ∧ u.toNat < 0xE000)

def encodeChar (c : Char) : List UInt16 :=
  if c.toNat < 0x10000 then [UInt16.ofNat c.toNat]
  else [UInt16.ofNat (0xD800 + (c.toNat - 0x10000) / 0x400),UInt16.ofNat (0xDC00 + (c.toNat - 0x10000) % 0x400)]

def encode (s : List Char) : List UInt16 := s.flatMap encodeChar

def replacement : Char := Char.ofNat 0xFFFD

def loneUnit (u : UInt16) : Char := if high u || low u then replacement else Char.ofNat u.toNat

def surrogatePair (u v : UInt16) : Char :=
  Char.ofNat (0x10000 + (u.toNat - 0xD800) * 0x400 + (v.toNat - 0xDC00))

def decode : List UInt16 → List Char
  | [] => []
  | [u] => [loneUnit u]
  | u :: v :: rest =>
    if high u && low v then surrogatePair u v :: decode rest else loneUnit u :: decode (v :: rest)

def unitCount (c : Char) : ℕ := if 0xFFFF < c.toNat then 2 else 1

theorem toNat_ofNat {n : ℕ} (h : n.isValidChar) : (Char.ofNat n).toNat = n := by
  simp [Char.ofNat,h]

theorem char_bounds (c : Char) : c.toNat < 0xD800 ∨ 0xDFFF < c.toNat ∧ c.toNat < 0x110000 := by
  simpa [Nat.isValidChar,UInt32.isValidChar] using c.valid

theorem loneUnit_toNat_lt (u : UInt16) : (loneUnit u).toNat < 0x10000 := by
  have hu := u.toNat_lt
  unfold loneUnit
  split
  · decide
  · rename_i h
    rw [toNat_ofNat]
    · omega
    · simp only [high,low,Bool.or_eq_true,decide_eq_true_eq] at h
      unfold Nat.isValidChar
      omega

theorem loneUnit_unitCount (u : UInt16) : unitCount (loneUnit u) = 1 := by
  have := loneUnit_toNat_lt u
  unfold unitCount
  split_ifs <;> omega

theorem surrogatePair_toNat {u v : UInt16} (hu : high u = true) (hv : low v = true) :
    (surrogatePair u v).toNat = 0x10000 + (u.toNat - 0xD800) * 0x400 + (v.toNat - 0xDC00) := by
  simp only [high,low,decide_eq_true_eq] at hu hv
  refine toNat_ofNat ?_
  unfold Nat.isValidChar
  omega

theorem decode_cons_lone {u : UInt16} (h : high u = false) (rest : List UInt16) :
    decode (u :: rest) = loneUnit u :: decode rest := by
  cases rest with
  | nil => rfl
  | cons v rest => simp only [decode,h,Bool.false_and,Bool.false_eq_true,if_false]

theorem toNat_unit {n : ℕ} (h : n < 0x10000) : (UInt16.ofNat n).toNat = n := by
  rw [UInt16.toNat_ofNat']
  exact Nat.mod_eq_of_lt h

theorem loneUnit_ofNat {c : Char} (h : c.toNat < 0x10000) :
    high (UInt16.ofNat c.toNat) = false ∧ loneUnit (UInt16.ofNat c.toNat) = c := by
  have hc := char_bounds c
  have hn : (UInt16.ofNat c.toNat).toNat = c.toNat := toNat_unit h
  have hhigh : high (UInt16.ofNat c.toNat) = false := by
    simp only [high,hn,decide_eq_false_iff_not]
    omega
  have hlow : low (UInt16.ofNat c.toNat) = false := by
    simp only [low,hn,decide_eq_false_iff_not]
    omega
  refine ⟨hhigh,?_⟩
  simp only [loneUnit,hhigh,hlow,Bool.or_self,Bool.false_eq_true,if_false,hn,Char.ofNat_toNat]

theorem surrogatePair_ofNat {c : Char} (h : 0x10000 ≤ c.toNat) :
    high (UInt16.ofNat (0xD800 + (c.toNat - 0x10000) / 0x400)) = true ∧
      low (UInt16.ofNat (0xDC00 + (c.toNat - 0x10000) % 0x400)) = true ∧
      surrogatePair (UInt16.ofNat (0xD800 + (c.toNat - 0x10000) / 0x400))
        (UInt16.ofNat (0xDC00 + (c.toNat - 0x10000) % 0x400)) = c := by
  have hc := char_bounds c
  have hu : (UInt16.ofNat (0xD800 + (c.toNat - 0x10000) / 0x400)).toNat =
      0xD800 + (c.toNat - 0x10000) / 0x400 := toNat_unit (by omega)
  have hv : (UInt16.ofNat (0xDC00 + (c.toNat - 0x10000) % 0x400)).toNat =
      0xDC00 + (c.toNat - 0x10000) % 0x400 := toNat_unit (by omega)
  have hback : 0x10000 + (0xD800 + (c.toNat - 0x10000) / 0x400 - 0xD800) * 0x400 +
      (0xDC00 + (c.toNat - 0x10000) % 0x400 - 0xDC00) = c.toNat := by omega
  refine ⟨?_,?_,?_⟩
  · simp only [high,hu,decide_eq_true_eq]
    omega
  · simp only [low,hv,decide_eq_true_eq]
    omega
  · simp only [surrogatePair,hu,hv,hback,Char.ofNat_toNat]

theorem encode_cons (c : Char) (s : List Char) : encode (c :: s) = encodeChar c ++ encode s := List.flatMap_cons

theorem encode_append (s t : List Char) : encode (s ++ t) = encode s ++ encode t := List.flatMap_append

theorem encodeChar_ne_nil (c : Char) : encodeChar c ≠ [] := by
  unfold encodeChar
  split_ifs <;> exact List.cons_ne_nil _ _

theorem encodeChar_high {c : Char} (h : 0x80 ≤ c.toNat) : ∀ u ∈ encodeChar c, 0x80 ≤ u.toNat := by
  intro u hu
  unfold encodeChar at hu
  split_ifs at hu with hsmall
  · rw [List.mem_singleton.mp hu,toNat_unit hsmall]
    exact h
  · obtain ⟨hhigh,hlow,-⟩ := surrogatePair_ofNat (not_lt.mp hsmall)
    simp only [List.mem_cons,List.not_mem_nil,or_false] at hu
    rcases hu with rfl | rfl
    · simp only [high,decide_eq_true_eq] at hhigh
      omega
    · simp only [low,decide_eq_true_eq] at hlow
      omega

theorem decode_encode (s : List Char) : decode (encode s) = s := by
  induction s with
  | nil => rfl
  | cons c s ih =>
    rw [encode_cons]
    unfold encodeChar
    split_ifs with hc
    · obtain ⟨hhigh,hunit⟩ := loneUnit_ofNat hc
      simp only [List.singleton_append,decode_cons_lone hhigh,hunit,ih]
    · obtain ⟨hhigh,hlow,hpair⟩ := surrogatePair_ofNat (not_lt.mp hc)
      simp only [List.cons_append,List.nil_append,decode,hhigh,hlow,Bool.and_self,if_true,hpair,ih]

theorem unitCount_decode (s : List UInt16) : ((decode s).map unitCount).sum = s.length := by
  induction s using decode.induct with
  | case1 => rfl
  | case2 u => simp [decode,loneUnit_unitCount]
  | case3 u v rest h ih =>
    obtain ⟨hu,hv⟩ := Bool.and_eq_true_iff.mp h
    have hpair := surrogatePair_toNat hu hv
    have htwo : unitCount (surrogatePair u v) = 2 := by
      unfold unitCount
      split_ifs <;> omega
    simp only [decode,h,if_true,List.map_cons,List.sum_cons,ih,htwo,List.length_cons]
    omega
  | case4 u v rest h ih =>
    simp only [decode,h,List.length_cons]
    simp only [Bool.false_eq_true,if_false,List.map_cons,List.sum_cons,ih,loneUnit_unitCount,
      List.length_cons]
    omega

end Utf16
