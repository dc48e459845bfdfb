import WickedBus.Foundation.Utf16

namespace Utf8

open Utf16 (replacement)

structure Pending where
  codePoint : ℕ
  needed : ℕ
  lower : ℕ
  upper : ℕ
  deriving DecidableEq

inductive Start where
  | char (c : Char)
  | more (p : Pending)
  | invalid

def start (b : UInt8) : Start :=
  let n := b.toNat
  if n < 0x80 then .char (Char.ofNat n)
  else if 0xC2 ≤ n ∧ n ≤ 0xDF then .more ⟨n - 0xC0,1,0x80,0xBF⟩
  else if 0xE0 ≤ n ∧ n ≤ 0xEF then
    .more ⟨n - 0xE0,2,if n = 0xE0 then 0xA0 else 0x80,if n = 0xED then 0x9F else 0xBF⟩
  else if 0xF0 ≤ n ∧ n ≤ 0xF4 then
    .more ⟨n - 0xF0,3,if n = 0xF0 then 0x90 else 0x80,if n = 0xF4 then 0x8F else 0xBF⟩
  else .invalid

def Pending.accepts (p : Pending) (b : UInt8) : Bool := decide (p.lower ≤ b.toNat ∧ b.toNat ≤ p.upper)

def Pending.push (p : Pending) (b : UInt8) : Pending :=
  ⟨p.codePoint * 64 + (b.toNat - 0x80),p.needed - 1,0x80,0xBF⟩

def restart (decode : Option Pending → List Char) (b : UInt8) : List Char :=
  match start b with
  | .char c => c :: decode none
  | .more p => decode (some p)
  | .invalid => replacement :: decode none

def decodeFrom : Option Pending → List UInt8 → List Char
  | none, [] => []
  | some _, [] => [replacement]
  | none, b :: bs => restart (fun s => decodeFrom s bs) b
  | some p, b :: bs =>
    if p.accepts b then
      if p.needed ≤ 1 then Char.ofNat (p.push b).codePoint :: decodeFrom none bs
      else decodeFrom (some (p.push b)) bs
    -- the byte that ends a truncated character starts the next one
    else replacement :: restart (fun s => decodeFrom s bs) b

def decode (bs : List UInt8) : List Char := decodeFrom none bs

def encode (s : List Char) : List UInt8 := s.flatMap String.utf8EncodeChar

def Valid (bs : List UInt8) : Prop := ∃ s, encode s = bs

def Continuation (b : UInt8) : Prop := 0x80 ≤ b.toNat ∧ b.toNat ≤ 0xBF

inductive Completes (c : Char) : Pending → List UInt8 → Prop
  | last {p : Pending} {b : UInt8} (cont : Continuation b) (accepts : p.accepts b = true) (needed : p.needed = 1)
      (code : (p.push b).codePoint = c.toNat) : Completes c p [b]
  | next {p : Pending} {b : UInt8} {bs : List UInt8} (cont : Continuation b) (accepts : p.accepts b = true)
      (needed : 1 < p.needed) (rest : Completes c (p.push b) bs) : Completes c p (b :: bs)

section Characters

variable {c : Char} {p : Pending} {b : UInt8} {bs q r : List UInt8}

theorem encodeChar_ascii (h : c.toNat < 0x80) : String.utf8EncodeChar c = [UInt8.ofNat c.toNat] := by
  have hc : c.val.toNat ≤ 0x7f := Nat.le_of_lt_succ h
  unfold String.utf8EncodeChar
  simp only [hc,if_true]
  rfl

theorem toNat_byte {n : ℕ} (h : n < 256) : (UInt8.ofNat n).toNat = n := by
  rw [UInt8.toNat_ofNat']
  exact Nat.mod_eq_of_lt h

theorem continuation_byte (n : ℕ) : Continuation (UInt8.ofNat (n % 64 + 0x80)) := by
  unfold Continuation
  rw [toNat_byte (by omega)]
  omega

theorem start_two (h : 0xC2 ≤ b.toNat ∧ b.toNat ≤ 0xDF) : start b = .more ⟨b.toNat - 0xC0,1,0x80,0xBF⟩ := by
  unfold start
  rw [if_neg (by omega),if_pos h]

theorem start_three (h : 0xE0 ≤ b.toNat ∧ b.toNat ≤ 0xEF) : start b = .more ⟨b.toNat - 0xE0,2,
    if b.toNat = 0xE0 then 0xA0 else 0x80,if b.toNat = 0xED then 0x9F else 0xBF⟩ := by
  unfold start
  rw [if_neg (by omega),if_neg (by omega),if_pos h]

theorem start_four (h : 0xF0 ≤ b.toNat ∧ b.toNat ≤ 0xF4) : start b = .more ⟨b.toNat - 0xF0,3,
    if b.toNat = 0xF0 then 0x90 else 0x80,if b.toNat = 0xF4 then 0x8F else 0xBF⟩ := by
  unfold start
  rw [if_neg (by omega),if_neg (by omega),if_neg (by omega),if_pos h]

theorem push_eq {x : ℕ} (h : b.toNat = 0x80 + x) (p : Pending) :
    p.push b = ⟨p.codePoint * 64 + x,p.needed - 1,0x80,0xBF⟩ := by
  have hx : b.toNat - 0x80 = x := by omega
  unfold Pending.push
  rw [hx]

theorem accepts_eq {lower upper code needed : ℕ} (h : lower ≤ b.toNat ∧ b.toNat ≤ upper) :
    Pending.accepts ⟨code,needed,lower,upper⟩ b = true := decide_eq_true h

theorem completes_one {code : ℕ} (hcode : code * 64 + c.toNat % 64 = c.toNat) :
    Completes c ⟨code,1,0x80,0xBF⟩ [UInt8.ofNat (c.toNat % 64 + 0x80)] := by
  have hbyte : (UInt8.ofNat (c.toNat % 64 + 0x80)).toNat = 0x80 + c.toNat % 64 :=
    (toNat_byte (by omega)).trans (Nat.add_comm ..)
  refine .last (continuation_byte _) (accepts_eq (by omega)) rfl ?_
  rw [push_eq hbyte]
  exact hcode

theorem shift_six {code m n : ℕ} (hcode : code * (64 * m) + n % (64 * m) = n) (hm : 0 < m) :
    (code * 64 + n / m % 64) * m + n % m = n := by
  have hdiv : n / m / 64 = code := by
    rw [Nat.div_div_eq_div_mul,Nat.mul_comm m,← hcode,Nat.mul_comm code,Nat.mul_add_div (by omega),Nat.mod_div_self,
      Nat.add_zero]
  have hhigh : code * 64 + n / m % 64 = n / m := by
    rw [← hdiv,Nat.mul_comm]
    exact Nat.div_add_mod (n / m) 64
  rw [hhigh,Nat.mul_comm]
  exact Nat.div_add_mod n m

theorem completes_two {code lower upper : ℕ} (hcode : code * 4096 + c.toNat % 4096 = c.toNat)
    (hrange : lower ≤ c.toNat / 64 % 64 + 0x80 ∧ c.toNat / 64 % 64 + 0x80 ≤ upper) :
    Completes c ⟨code,2,lower,upper⟩
      [UInt8.ofNat (c.toNat / 64 % 64 + 0x80),UInt8.ofNat (c.toNat % 64 + 0x80)] := by
  have hbyte : (UInt8.ofNat (c.toNat / 64 % 64 + 0x80)).toNat = 0x80 + c.toNat / 64 % 64 :=
    (toNat_byte (by omega)).trans (Nat.add_comm ..)
  have hnext := shift_six (m := 64) hcode (by decide)
  refine .next (continuation_byte _) (accepts_eq (by omega)) Nat.one_lt_two ?_
  rw [push_eq hbyte]
  exact completes_one hnext

theorem completes_three {code lower upper : ℕ} (hcode : code * 262144 + c.toNat % 262144 = c.toNat)
    (hrange : lower ≤ c.toNat / 4096 % 64 + 0x80 ∧ c.toNat / 4096 % 64 + 0x80 ≤ upper) :
    Completes c ⟨code,3,lower,upper⟩
      [UInt8.ofNat (c.toNat / 4096 % 64 + 0x80),UInt8.ofNat (c.toNat / 64 % 64 + 0x80),
        UInt8.ofNat (c.toNat % 64 + 0x80)] := by
  have hbyte : (UInt8.ofNat (c.toNat / 4096 % 64 + 0x80)).toNat = 0x80 + c.toNat / 4096 % 64 :=
    (toNat_byte (by omega)).trans (Nat.add_comm ..)
  have hnext := shift_six (m := 4096) hcode (by decide)
  refine .next (continuation_byte _) (accepts_eq (by omega)) (Nat.lt_of_sub_eq_succ rfl) ?_
  rw [push_eq hbyte]
  exact completes_two hnext ⟨by omega,by omega⟩

theorem encodeChar_eq (h : 0x80 ≤ c.toNat) : String.utf8EncodeChar c =
    if c.toNat < 0x800 then [UInt8.ofNat (c.toNat / 64 % 32 + 0xC0),UInt8.ofNat (c.toNat % 64 + 0x80)]
    else if c.toNat < 0x10000 then [UInt8.ofNat (c.toNat / 4096 % 16 + 0xE0),
      UInt8.ofNat (c.toNat / 64 % 64 + 0x80),UInt8.ofNat (c.toNat % 64 + 0x80)]
    else [UInt8.ofNat (c.toNat / 262144 % 8 + 0xF0),UInt8.ofNat (c.toNat / 4096 % 64 + 0x80),
      UInt8.ofNat (c.toNat / 64 % 64 + 0x80),UInt8.ofNat (c.toNat % 64 + 0x80)] := by
  have hval : c.val.toNat = c.toNat := rfl
  unfold String.utf8EncodeChar
  simp only [hval]
  rw [if_neg (by omega)]
  split_ifs <;> first | rfl | omega

theorem encodeChar_lead (h : 0x80 ≤ c.toNat) :
    ∃ b bs p, String.utf8EncodeChar c = b :: bs ∧ start b = .more p ∧ Completes c p bs := by
  have hc := Utf16.char_bounds c
  rw [encodeChar_eq h]
  split_ifs with htwo hthree
  · have hlead : (UInt8.ofNat (c.toNat / 64 % 32 + 0xC0)).toNat = c.toNat / 64 % 32 + 0xC0 := toNat_byte (by omega)
    refine ⟨_,_,_,rfl,start_two (by omega),?_⟩
    rw [hlead]
    exact completes_one (by omega)
  · have hlead : (UInt8.ofNat (c.toNat / 4096 % 16 + 0xE0)).toNat = c.toNat / 4096 % 16 + 0xE0 :=
      toNat_byte (by omega)
    refine ⟨_,_,_,rfl,start_three (by omega),?_⟩
    rw [hlead]
    exact completes_two (by omega) (by split_ifs <;> omega)
  · have hlead : (UInt8.ofNat (c.toNat / 262144 % 8 + 0xF0)).toNat = c.toNat / 262144 % 8 + 0xF0 :=
      toNat_byte (by omega)
    refine ⟨_,_,_,rfl,start_four (by omega),?_⟩
    rw [hlead]
    exact completes_three (by omega) (by split_ifs <;> omega)

theorem start_ascii (h : b.toNat < 0x80) : start b = .char (Char.ofNat b.toNat) := if_pos h

theorem start_continuation (h : Continuation b) : start b = .invalid := by
  unfold Continuation at h
  unfold start
  rw [if_neg (by omega),if_neg (by omega),if_neg (by omega),if_neg (by omega)]

theorem Completes.decode (h : Completes c p q) (rest : List UInt8) :
    decodeFrom (some p) (q ++ rest) = c :: decodeFrom none rest := by
  induction h with
  | last cont accepts needed code =>
    simp only [List.cons_append,List.nil_append,decodeFrom,accepts,needed,code,if_true,le_refl,Char.ofNat_toNat]
  | next cont accepts needed _ ih =>
    simp only [List.cons_append,decodeFrom,accepts,not_le.mpr needed,if_true,if_false,ih]

theorem Completes.truncated (h : Completes c p bs) (hcut : bs = q ++ r) (hr : r ≠ []) :
    decodeFrom (some p) q = [replacement] := by
  induction h generalizing q with
  | last cont accepts needed code =>
    cases q with
    | nil => rfl
    | cons b q =>
      obtain ⟨-,hnil⟩ := List.cons.inj hcut
      exact absurd (List.append_eq_nil_iff.mp hnil.symm).2 hr
  | next cont accepts needed _ ih =>
    cases q with
    | nil => rfl
    | cons b q =>
      obtain ⟨rfl,hrest⟩ := List.cons.inj hcut
      simp only [decodeFrom,accepts,not_le.mpr needed,if_true,if_false]
      exact ih hrest

theorem Completes.continuation (h : Completes c p bs) : ∀ b ∈ bs, Continuation b := by
  induction h with
  | last cont accepts needed code => exact fun b hb => List.mem_singleton.mp hb ▸ cont
  | next cont accepts needed _ ih =>
    intro b hb
    rcases List.mem_cons.mp hb with rfl | hb
    · exact cont
    · exact ih b hb

end Characters

theorem decode_char (c : Char) (rest : List UInt8) :
    decode (String.utf8EncodeChar c ++ rest) = c :: decode rest := by
  by_cases h : c.toNat < 0x80
  · have hbyte : (UInt8.ofNat c.toNat).toNat = c.toNat := toNat_byte (by omega)
    have hstart : start (UInt8.ofNat c.toNat) = .char c := by
      rw [start_ascii (hbyte.trans_lt h),hbyte,Char.ofNat_toNat]
    rw [encodeChar_ascii h]
    simp only [decode,List.cons_append,List.nil_append,decodeFrom,restart,hstart]
  · obtain ⟨b,bs,p,hchar,hstart,hcompletes⟩ := encodeChar_lead (not_lt.mp h)
    rw [hchar]
    simp only [decode,List.cons_append,decodeFrom,restart,hstart]
    exact hcompletes.decode rest

theorem encode_cons (c : Char) (s : List Char) : encode (c :: s) = String.utf8EncodeChar c ++ encode s :=
  List.flatMap_cons

theorem encode_append (s t : List Char) : encode (s ++ t) = encode s ++ encode t := List.flatMap_append

theorem decode_append (s : List Char) (rest : List UInt8) : decode (encode s ++ rest) = s ++ decode rest := by
  induction s with
  | nil => rfl
  | cons c s ih =>
    rw [encode_cons,List.append_assoc,decode_char,ih]
    rfl

theorem decode_encode (s : List Char) : decode (encode s) = s := by
  have h := decode_append s []
  rwa [List.append_nil,show decode [] = [] from rfl,List.append_nil] at h

theorem decode_continuations {r : List UInt8} (hr : ∀ b ∈ r, Continuation b) (rest : List UInt8) :
    decode (r ++ rest) = List.replicate r.length replacement ++ decode rest := by
  induction r with
  | nil => rfl
  | cons b r ih =>
    have hstart := start_continuation (hr b List.mem_cons_self)
    have htail := ih (fun b' hb' => hr b' (List.mem_cons_of_mem _ hb'))
    simp only [decode,List.cons_append,decodeFrom,restart,hstart]
    rw [List.length_cons,List.replicate_succ,List.cons_append]
    exact congrArg (replacement :: ·) htail

theorem decode_truncated {c : Char} {q r : List UInt8} (hcut : String.utf8EncodeChar c = q ++ r) (hq : q ≠ [])
    (hr : r ≠ []) : 0x80 ≤ c.toNat ∧ decode q = [replacement] ∧ ∀ b ∈ r, Continuation b := by
  have hhigh : 0x80 ≤ c.toNat := by
    by_contra hlow
    rw [encodeChar_ascii (not_le.mp hlow)] at hcut
    cases q with
    | nil => exact hq rfl
    | cons b q =>
      obtain ⟨-,hnil⟩ := List.cons.inj hcut
      exact hr (List.append_eq_nil_iff.mp hnil.symm).2
  obtain ⟨b,bs,p,hchar,hstart,hcompletes⟩ := encodeChar_lead hhigh
  rw [hchar] at hcut
  cases q with
  | nil => exact absurd rfl hq
  | cons b' q =>
    obtain ⟨rfl,hrest⟩ := List.cons.inj hcut
    refine ⟨hhigh,?_,fun b hb => hcompletes.continuation b (hrest ▸ List.mem_append_right _ hb)⟩
    simp only [decode,decodeFrom,restart,hstart]
    exact hcompletes.truncated hrest hr

theorem encode_flatten (pieces : List (List Char)) : encode pieces.flatten = (pieces.map encode).flatten := by
  induction pieces with
  | nil => rfl
  | cons s pieces ih => rw [List.flatten_cons,encode_append,ih,List.map_cons,List.flatten_cons]

theorem encode_injective {s t : List Char} (h : encode s = encode t) : s = t := by
  rw [← decode_encode s,h,decode_encode]

inductive Cut (b rest : List UInt8) (s : List Char) : Prop
  | between (p t : List Char) (split : s = p ++ t) (left : b = encode p) (right : rest = encode t)
  | within (p t : List Char) (c : Char) (q r : List UInt8) (split : s = p ++ c :: t) (left : b = encode p ++ q)
      (char : String.utf8EncodeChar c = q ++ r) (q_ne : q ≠ []) (r_ne : r ≠ []) (right : rest = r ++ encode t)

theorem cut_encode {s : List Char} {b rest : List UInt8} (h : encode s = b ++ rest) : Cut b rest s := by
  induction s generalizing b with
  | nil =>
    obtain ⟨hb,hrest⟩ := List.append_eq_nil_iff.mp h.symm
    exact .between [] [] rfl hb hrest
  | cons c s ih =>
    rw [encode_cons] at h
    rcases List.append_eq_append_iff.mp h with ⟨b',rfl,hs⟩ | ⟨r,hchar,rfl⟩
    · cases ih hs with
      | between p t split left right =>
        exact .between (c :: p) t (by rw [split]; rfl) (by rw [left]; rfl) right
      | within p t d q r split left char q_ne r_ne right =>
        refine .within (c :: p) t d q r (by rw [split]; rfl) ?_ char q_ne r_ne right
        rw [left,← List.append_assoc]
        rfl
    · by_cases hb : b = []
      · exact .between [] (c :: s) rfl hb (by rw [encode_cons,hchar,hb]; rfl)
      · by_cases hr : r = []
        · subst hr
          rw [List.append_nil] at hchar
          exact .between [c] s rfl (by rw [← hchar]; exact (List.append_nil _).symm) rfl
        · exact .within [] s c b r rfl rfl hchar hb hr rfl

inductive Damaged : ℕ → List Char → List Char → Prop
  | nil : Damaged 0 [] []
  | keep {n : ℕ} {s t : List Char} (c : Char) (rest : Damaged n s t) : Damaged n (c :: s) (c :: t)
  | lose {n : ℕ} {s t : List Char} (c : Char) (k : ℕ) (high : 0x80 ≤ c.toNat) (marks : 2 ≤ k)
      (rest : Damaged n s t) : Damaged (n + 1) (c :: s) (List.replicate k replacement ++ t)

theorem Damaged.prepend {n : ℕ} {s t : List Char} (p : List Char) (h : Damaged n s t) :
    Damaged n (p ++ s) (p ++ t) := by
  induction p with
  | nil => exact h
  | cons c p ih => exact .keep c ih

theorem decode_pieces {bs : List (List UInt8)} {r : List UInt8} {s : List Char} (hr : ∀ b ∈ r, Continuation b)
    (h : bs.flatten = r ++ encode s) : ∃ n t, Damaged n s t ∧
      bs.flatMap decode = List.replicate r.length replacement ++ t ∧ (n = 0 → r = [] → ∀ b ∈ bs, Valid b) := by
  induction bs generalizing r s with
  | nil =>
    obtain ⟨rfl,hs⟩ := List.append_eq_nil_iff.mp h.symm
    obtain rfl : s = [] := encode_injective hs
    exact ⟨0,[],.nil,rfl,fun _ _ b hb => absurd hb List.not_mem_nil⟩
  | cons b bs ih =>
    rw [List.flatten_cons] at h
    rcases List.append_eq_append_iff.mp h with ⟨r',rfl,hrest⟩ | ⟨b',rfl,hrest⟩
    · have hcont : ∀ x ∈ b, Continuation x := fun x hx => hr x (List.mem_append_left _ hx)
      obtain ⟨n,t,hdamaged,hmap,hvalid⟩ := ih (fun x hx => hr x (List.mem_append_right _ hx)) hrest
      refine ⟨n,t,hdamaged,?_,fun hn hnil => ?_⟩
      · have hdecode := decode_continuations hcont []
        rw [List.append_nil] at hdecode
        rw [List.flatMap_cons,hmap,hdecode,List.length_append,List.replicate_add]
        simp only [List.append_assoc]
        rfl
      · obtain ⟨rfl,rfl⟩ := List.append_eq_nil_iff.mp hnil
        exact List.forall_mem_cons.mpr ⟨⟨[],rfl⟩,hvalid hn rfl⟩
    · cases cut_encode hrest with
      | between p t split left right =>
        obtain ⟨n,t',hdamaged,hmap,hvalid⟩ := @ih [] t (fun x hx => absurd hx List.not_mem_nil) right
        refine ⟨n,p ++ t',split ▸ hdamaged.prepend p,?_,fun hn hnil => ?_⟩
        · rw [List.flatMap_cons,hmap,decode_continuations hr,left,decode_encode,List.append_assoc]
          rfl
        · subst hnil
          exact List.forall_mem_cons.mpr ⟨⟨p,left.symm⟩,hvalid hn rfl⟩
      | within p t c q r' split left char q_ne r_ne right =>
        obtain ⟨hhigh,hmark,hcont⟩ := decode_truncated char q_ne r_ne
        obtain ⟨n,t',hdamaged,hmap,-⟩ := ih hcont right
        have hmarks : 2 ≤ 1 + r'.length := by
          have := List.length_pos_iff.mpr r_ne
          omega
        refine ⟨n + 1,p ++ (List.replicate (1 + r'.length) replacement ++ t'),
          split ▸ (Damaged.lose c _ hhigh hmarks hdamaged).prepend p,?_,fun hn => absurd hn (Nat.succ_ne_zero n)⟩
        rw [List.flatMap_cons,hmap,decode_continuations hr,left,decode_append,hmark,List.replicate_add]
        simp only [List.append_assoc]
        rfl

theorem decode_buffers {bs : List (List UInt8)} {s : List Char} (h : bs.flatten = encode s) :
    ∃ n, Damaged n s (bs.flatMap decode) ∧ (n = 0 → ∀ b ∈ bs, Valid b) := by
  obtain ⟨n,t,hdamaged,hmap,hvalid⟩ := @decode_pieces bs [] s (fun b hb => absurd hb List.not_mem_nil) h
  exact ⟨n,hmap ▸ hdamaged,fun hn => hvalid hn rfl⟩

theorem decode_valid {bs : List (List UInt8)} (h : ∀ b ∈ bs, Valid b) :
    ∃ pieces, bs = pieces.map encode ∧ bs.map decode = pieces := by
  induction bs with
  | nil => exact ⟨[],rfl,rfl⟩
  | cons b bs ih =>
    obtain ⟨⟨s,rfl⟩,hrest⟩ := List.forall_mem_cons.mp h
    obtain ⟨pieces,rfl,hpieces⟩ := ih hrest
    exact ⟨s :: pieces,rfl,by rw [List.map_cons,hpieces,decode_encode]⟩

theorem decode_flatten {bs : List (List UInt8)} {s : List Char} (hvalid : ∀ b ∈ bs, Valid b)
    (h : bs.flatten = encode s) : bs.flatMap decode = s := by
  obtain ⟨pieces,rfl,hpieces⟩ := decode_valid hvalid
  rw [← encode_flatten] at h
  rw [List.flatMap,hpieces]
  exact encode_injective h

theorem Damaged.append {n : ℕ} {a b t : List Char} (h : Damaged n (a ++ b) t) :
    ∃ i j x y, Damaged i a x ∧ Damaged j b y ∧ t = x ++ y ∧ n = i + j := by
  induction a generalizing n t with
  | nil => exact ⟨0,n,[],t,.nil,h,rfl,(Nat.zero_add n).symm⟩
  | cons c a ih =>
    cases h with
    | keep _ rest =>
      obtain ⟨i,j,x,y,hx,hy,rfl,rfl⟩ := ih rest
      exact ⟨i,j,c :: x,y,.keep c hx,hy,rfl,rfl⟩
    | lose _ k high marks rest =>
      obtain ⟨i,j,x,y,hx,hy,rfl,rfl⟩ := ih rest
      exact ⟨i + 1,j,_,y,.lose c k high marks hx,hy,(List.append_assoc ..).symm,by omega⟩

theorem Damaged.ascii {n : ℕ} {c : Char} {s t : List Char} (hc : c.toNat < 0x80) (h : Damaged n (c :: s) t) :
    ∃ y, Damaged n s y ∧ t = c :: y := by
  cases h with
  | keep _ rest => exact ⟨_,rest,rfl⟩
  | lose _ k high marks rest => exact absurd hc (not_lt.mpr high)

theorem Damaged.mem {n : ℕ} {s t : List Char} (h : Damaged n s t) {c : Char} (hc : c ∈ t) :
    c ∈ s ∨ c = replacement := by
  induction h with
  | nil => exact .inl hc
  | keep d _ ih =>
    rcases List.mem_cons.mp hc with rfl | hc
    · exact .inl List.mem_cons_self
    · exact (ih hc).imp_left (List.mem_cons_of_mem _)
  | lose d k high marks _ ih =>
    rcases List.mem_append.mp hc with hc | hc
    · exact .inr (List.eq_of_mem_replicate hc)
    · exact (ih hc).imp_left (List.mem_cons_of_mem _)

end Utf8
