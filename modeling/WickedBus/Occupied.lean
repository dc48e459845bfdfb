import WickedBus.Buckets
import WickedBus.Serial

namespace WickedBus

open GuardedRun
open WickedBus.Filter (Text)

def Phase.groups : Phase → List (Text × List EventRow)
  | .groupEvents g | .readMeta g _ | .statBucket g _ | .sealLatest g _ => g.groups
  | .writeGroups groups _ => groups
  | .openBucket w | .createEvents w | .createMeta w | .setCreatedAt w | .setMinEventId w
  | .setMaxEventId w | .insertBatch w => (w.bucketName,w.events) :: w.rest
  | .readRange w | .writeRange w _ _ => w.rest
  | _ => []

def Phase.filling : Phase → Option Text
  | .createEvents w | .createMeta w | .setCreatedAt w | .setMinEventId w | .setMaxEventId w
  | .insertBatch w => some w.bucketName
  | _ => none

def NoEmptyGroup (groups : List (Text × List EventRow)) : Prop := ∀ g ∈ groups, g.2 ≠ []

def Occupied (archive : Archive) (filling : Option Text) : Prop :=
  ∀ n, (archive.get? n).isSome = true → (∃ e, Holds archive n e) ∨ filling = some n

section Step

variable {env : StepEnv} {cfg : PassConfig} {db : Db} {archive : Archive} {ph ph' : Phase}

theorem NoEmptyGroup.addToGroup {groups : List (Text × List EventRow)} (h : NoEmptyGroup groups)
    (name : Text) (ev : EventRow) : NoEmptyGroup (addToGroup name ev groups) := by
  have hnonempty : ∀ g ∈ groups, g.2 ≠ [] ∧ ∀ e ∈ g.2, True := fun g hg => ⟨h g hg,fun _ _ => trivial⟩
  exact fun g hg => (forall_addToGroup (P := fun _ _ => True) hnonempty trivial g hg).1

theorem NoEmptyGroup.assign {g : Grouping} (h : NoEmptyGroup g.groups) (name : Text) :
    NoEmptyGroup (g.assign name).groups := by
  obtain ⟨todo,cache,groups⟩ := g
  cases todo with
  | nil => exact h
  | cons ev rest => exact h.addToGroup name ev

theorem sweeperStep_groups (hnext : (sweeperStep env cfg db archive ph).next = some ph')
    (h : NoEmptyGroup ph.groups) : NoEmptyGroup ph'.groups := by
  have hnil : NoEmptyGroup [] := by rintro _ ⟨⟩
  cases ph with
  | groupEvents g =>
    simp only [sweeperStep] at hnext
    repeat' split at hnext
    all_goals cases hnext
    · exact h
    · exact h.addToGroup _ _
    · exact h.assign _
    · exact h
  | statBucket g latest =>
    simp only [sweeperStep] at hnext
    split at hnext <;> cases hnext
    · exact h
    · exact h.assign latest
  | sealLatest g latest =>
    simp only [sweeperStep] at hnext
    split at hnext <;> cases hnext
    exact h.assign _
  | writeGroups groups moved =>
    rcases groups with _ | ⟨⟨name,events⟩,rest⟩ <;> simp only [sweeperStep] at hnext <;>
      (repeat' split at hnext) <;> cases hnext
    · exact hnil
    · exact (List.forall_mem_cons.mp h).2
    · exact h
    · exact h
  | insertBatch w =>
    simp only [sweeperStep] at hnext
    split at hnext <;> cases hnext
    exact (List.forall_mem_cons.mp h).2
  | collectOwed cursors owed => cases cursors <;> cases hnext <;> exact hnil
  | collectCursors | collectAttempts _ | discardOwed _ =>
    cases hnext
    exact hnil
  | deleteLive _ => cases hnext
  | openBucket w | createEvents w | createMeta w =>
    cases hnext
    exact h
  | _ =>
    simp only [sweeperStep] at hnext
    (repeat' split at hnext) <;> cases hnext <;> exact h

theorem filling_step (hnext : (sweeperStep env cfg db archive ph).next = some ph') {n : Text}
    (h : ph.filling = some n ∨ ph.opens = some n) :
    ph'.filling = some n ∨ ∃ w, ph = .insertBatch w ∧ w.bucketName = n := by
  cases ph with
  | insertBatch w => exact .inr ⟨w,rfl,h.elim Option.some.inj (by rintro ⟨⟩)⟩
  | openBucket w =>
    cases hnext
    exact .inl (h.resolve_left (by rintro ⟨⟩))
  | createEvents w | createMeta w =>
    cases hnext
    exact .inl (h.resolve_right (by rintro ⟨⟩))
  | setCreatedAt w | setMinEventId w | setMaxEventId w =>
    simp only [sweeperStep] at hnext
    split at hnext <;> cases hnext
    exact .inl (h.resolve_right (by rintro ⟨⟩))
  | _ => rcases h with h | h <;> cases h

theorem Occupied.step (h : Occupied archive ph.filling) (hgroups : NoEmptyGroup ph.groups)
    (hnext : (sweeperStep env cfg db archive ph).next = some ph') :
    Occupied (sweeperStep env cfg db archive ph).archive ph'.filling := by
  intro n hn
  have hopening : (∃ e, Holds archive n e) ∨ ph.filling = some n ∨ ph.opens = some n := by
    rcases (sweeperStep_buckets env cfg db archive ph).present.mp hn with hold | hopens
    · exact (h n hold).imp_right .inl
    · exact .inr (.inr hopens)
  rcases hopening with ⟨e,he⟩ | hfilling
  · exact .inl ⟨e,sweeperStep_holds env cfg db archive ph he⟩
  · rcases filling_step hnext hfilling with hnew | ⟨w,rfl,rfl⟩
    · exact .inr hnew
    · simp only [sweeperStep] at hnext ⊢
      split at hnext <;> cases hnext
      rename_i hins
      obtain ⟨e,he⟩ := List.exists_mem_of_ne_nil _ (hgroups _ List.mem_cons_self)
      obtain ⟨x,hx,-⟩ := stored_insertRows hins he
      exact .inl ⟨x,hx⟩

theorem Occupied.ended (h : Occupied archive ph.filling) (hends : ph.ends = true) (env : StepEnv)
    (cfg : PassConfig) (db : Db) : Occupied (sweeperStep env cfg db archive ph).archive none := by
  intro n hn
  have hquiet : ph.filling = none ∧ ph.opens = none := by cases ph <;> first | exact ⟨rfl,rfl⟩ | cases hends
  rcases (sweeperStep_buckets env cfg db archive ph).present.mp hn with hold | hopens
  · obtain ⟨e,he⟩ := (h n hold).resolve_right (by rw [hquiet.1]; rintro ⟨⟩)
    exact .inl ⟨e,sweeperStep_holds env cfg db archive ph he⟩
  · rw [hquiet.2] at hopens
    cases hopens

end Step

structure Filed (w : World) : Prop where
  occupied : Occupied w.archive ((w.sweepers 0).bind (fun s => s.phase.filling))
  groups : ∀ s ∈ w.sweepers 0, NoEmptyGroup s.phase.groups

theorem Filed.start : Filed (World.start .empty .empty) where
  occupied n hn := by cases hn
  groups s hs := by cases hs

theorem Filed.step {w w' : World} {a : Action} (h : Filed w) (hok : SerialOk w a) (hstep : w.step a = some w') :
    Filed w' := by
  cases a with
  | bus op =>
    obtain ⟨db,-,rfl⟩ := Option.map_eq_some_iff.mp hstep
    exact ⟨h.occupied,h.groups⟩
  | crash p => exact hok.elim
  | beginSweep p config clock =>
    obtain ⟨-,rfl⟩ := hok
    obtain ⟨cfg,hnone,-,rfl⟩ := World.step_begin hstep
    have hoccupied := h.occupied
    rw [hnone] at hoccupied
    refine ⟨by simpa [Phase.filling] using hoccupied,fun s hs => ?_⟩
    simp only [Function.update_self,Option.mem_def,Option.some.injEq] at hs
    obtain rfl := hs
    rintro _ ⟨⟩
  | sweep p env =>
    obtain ⟨rfl,hends⟩ := hok
    obtain ⟨s,hs,rfl⟩ := World.step_sweep hstep
    have hoccupied : Occupied w.archive s.phase.filling := by simpa [hs] using h.occupied
    have hgroups := h.groups s hs
    cases hnext : (sweeperStep env s.cfg w.bus w.archive s.phase).next with
    | none =>
      have hended := hoccupied.ended ((hends s hs).resolve_right (by simp [hnext])) env s.cfg w.bus
      exact ⟨by simpa [hnext] using hended,fun t ht => by simp at ht⟩
    | some ph' =>
      refine ⟨by simpa [hnext] using hoccupied.step hgroups hnext,fun t ht => ?_⟩
      simp only [Function.update_self,Option.map_some,Option.mem_def,Option.some.injEq] at ht
      obtain rfl := ht
      exact sweeperStep_groups hnext hgroups

theorem occupied_at_rest {as : List Action} {w : World}
    (hrun : Run World.step SerialOk (World.start .empty .empty) as w) (hrest : w.sweepers 0 = none)
    {n : Text} (hn : n ∈ listBuckets w.archive) : ∃ e, Holds w.archive n e := by
  have hfiled := (hrun.invariant (fun _ _ _ (ht : Filed _) hok hs => ht.step hok hs) .start).occupied
  rw [hrest] at hfiled
  obtain ⟨⟨b,hb,rfl⟩,-⟩ := mem_listBuckets.mp hn
  refine (hfiled b.name ?_).resolve_right (by rintro ⟨⟩)
  rw [KeyedTable.get?_eq_some.mpr ⟨hb,rfl⟩]
  rfl

end WickedBus
