import WickedBus.Gap
import WickedBus.TierMerge

namespace WickedBus

open GuardedRun
open WickedBus.Filter (Text)

def Contiguous (w : World) : Prop := ∀ i, 0 < i → i ≤ w.bus.eventSeq → ∃ r ∈ w.log, r.eventId = i

section RealLoss

variable {w w' : World} {lastEventId : ℤ} {filter : QueryFilter} {n : ℕ}

theorem Contiguous.step (h : Contiguous w) {a : Action} (hstep : w.step a = some w') : Contiguous w' := by
  intro i hpos hle
  cases a with
  | bus op =>
    obtain ⟨db,hop,rfl⟩ := Option.map_eq_some_iff.mp hstep
    cases busEffect hop with
    | emit params uuid live eventSeq bound frame =>
      rcases lt_or_ge w.bus.eventSeq i with hnew | hold
      · refine ⟨params.row (w.bus.eventSeq + 1),List.mem_append_right _ (List.mem_singleton_self _),?_⟩
        have hle' : i ≤ db.eventSeq := hle
        rw [NewEvent.row_eventId]
        omega
      · obtain ⟨r,hr,hid⟩ := h i hpos hold
        exact ⟨r,List.mem_append_left _ hr,hid⟩
    | shrink accepted live eventSeq =>
      obtain ⟨r,hr,hid⟩ := h i hpos (eventSeq ▸ hle)
      exact ⟨r,List.mem_append_left _ hr,hid⟩
  | beginSweep p config clock =>
    obtain ⟨cfg,-,-,rfl⟩ := World.step_begin hstep
    exact h i hpos hle
  | sweep p env =>
    obtain ⟨s,hs,rfl⟩ := World.step_sweep hstep
    exact h i hpos ((sweeperStep_live env s.cfg w.bus w.archive s.phase).2 ▸ hle)
  | crash p =>
    cases hstep
    exact h i hpos hle

theorem Contiguous.run {as : List Action} {ok : World → Action → Prop}
    (hrun : Run World.step ok (World.start .empty .empty) as w) : Contiguous w :=
  hrun.invariant (fun _ _ _ (ht : Contiguous _) _ hs => ht.step hs) fun _ hpos hle =>
    absurd (lt_of_lt_of_le hpos hle) (lt_irrefl 0)

end RealLoss

end WickedBus
