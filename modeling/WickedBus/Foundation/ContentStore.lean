import WickedBus.Foundation.KeyedTable

structure Blob (K C : Type) where
  key : K
  content : C
  time : ℤ
  deriving DecidableEq, Repr

abbrev ContentStore (K C : Type) [LinearOrder K] := KeyedTable (Blob K C) Blob.key

namespace ContentStore

variable {K C : Type} [LinearOrder K] {s : ContentStore K C} {k x : K} {c : C} {b : Blob K C} {now : ℤ}

def put (s : ContentStore K C) (k : K) (c : C) (now : ℤ) : ContentStore K C :=
  s.insertOrIgnore ⟨k,c,now⟩

def read (s : ContentStore K C) (k : K) : Option C := (s.get? k).map Blob.content

def erase (s : ContentStore K C) (k : K) : ContentStore K C := s.filter (fun b => decide (b.key ≠ k))

def Has (s : ContentStore K C) (k : K) : Prop := ∃ b ∈ s, b.key = k

theorem has_iff : Has s k ↔ (s.get? k).isSome = true := by
  rw [Option.isSome_iff_exists]
  exact exists_congr fun b => KeyedTable.get?_eq_some.symm

theorem read_eq_some : read s k = some c ↔ ∃ b ∈ s, b.key = k ∧ b.content = c := by
  rw [read,Option.map_eq_some_iff]
  exact exists_congr fun b => by rw [KeyedTable.get?_eq_some,and_assoc]

theorem Has.read (h : Has s k) : (read s k).isSome = true := by
  rw [ContentStore.read,Option.isSome_map]
  exact has_iff.mp h

theorem mem_put : b ∈ put s k c now ↔ b ∈ s ∨ (b = ⟨k,c,now⟩ ∧ ¬ Has s k) := by
  rw [put,KeyedTable.mem_insertOrIgnore]
  simp [Has]

theorem mem_put_of_mem (h : b ∈ s) : b ∈ put s k c now := mem_put.mpr (.inl h)

theorem has_put (s : ContentStore K C) (k : K) (c : C) (now : ℤ) : Has (put s k c now) k := by
  by_cases h : Has s k
  · exact h.imp fun _ hb => ⟨mem_put_of_mem hb.1,hb.2⟩
  · exact ⟨⟨k,c,now⟩,mem_put.mpr (.inr ⟨rfl,h⟩),rfl⟩

structure Extends (s s' : ContentStore K C) : Prop where
  mem : ∀ b ∈ s, b ∈ s'
  old : ∀ b ∈ s', Has s b.key → b ∈ s

theorem Extends.refl (s : ContentStore K C) : Extends s s := ⟨fun _ h => h,fun _ h _ => h⟩

theorem extends_put (s : ContentStore K C) (k : K) (c : C) (now : ℤ) : Extends s (put s k c now) := by
  refine ⟨fun _ h => mem_put_of_mem h,fun b hb hhas => ?_⟩
  rcases mem_put.mp hb with hb | ⟨rfl,hk⟩
  · exact hb
  · exact absurd hhas hk

theorem Has.mono {s' : ContentStore K C} (h : Has s x) (hs : Extends s s') : Has s' x :=
  h.imp fun b hb => ⟨hs.mem b hb.1,hb.2⟩

theorem mem_erase : b ∈ erase s k ↔ b ∈ s ∧ b.key ≠ k := by
  rw [erase,KeyedTable.mem_filter,decide_eq_true_eq]

theorem Has.erase (h : Has s x) (hx : x ≠ k) : Has (erase s k) x := by
  obtain ⟨b,hb,rfl⟩ := h
  exact ⟨b,mem_erase.mpr ⟨hb,hx⟩,rfl⟩

structure Addressed (hash : C → K) (contents : Set C) (s : ContentStore K C) : Prop where
  key : ∀ b ∈ s, b.key = hash b.content
  content : ∀ b ∈ s, b.content ∈ contents

section Addressed

variable {hash : C → K} {contents : Set C}

theorem addressed_empty : Addressed hash contents .empty where
  key _ hb := absurd hb (KeyedTable.not_mem_empty _)
  content _ hb := absurd hb (KeyedTable.not_mem_empty _)

theorem Addressed.put (h : Addressed hash contents s) (hc : c ∈ contents) :
    Addressed hash contents (put s (hash c) c now) := by
  refine ⟨fun b hb => ?_,fun b hb => ?_⟩
  · rcases mem_put.mp hb with hb | ⟨rfl,-⟩
    · exact h.key b hb
    · rfl
  · rcases mem_put.mp hb with hb | ⟨rfl,-⟩
    · exact h.content b hb
    · exact hc

theorem Addressed.subset {s' : ContentStore K C} (h : Addressed hash contents s)
    (hs : ∀ b ∈ s', b ∈ s) : Addressed hash contents s' :=
  ⟨fun b hb => h.key b (hs b hb),fun b hb => h.content b (hs b hb)⟩

theorem Addressed.read (h : Addressed hash contents s) (hinj : Set.InjOn hash contents)
    (hc : c ∈ contents) (hhas : Has s (hash c)) : read s (hash c) = some c := by
  obtain ⟨b,hb,hkey⟩ := hhas
  have hcontent : b.content = c := hinj (h.content b hb) hc ((h.key b hb).symm.trans hkey)
  exact read_eq_some.mpr ⟨b,hb,hkey,hcontent⟩

end Addressed

end ContentStore
