import WickedBus.Foundation.FirstOf
import WickedBus.Poll
import WickedBus.Sweep

namespace WickedBus

open WickedBus.Filter (Text)

inductive PageMove where
  | ack (now : ℤ) | afterEventId
  deriving DecidableEq, Repr

structure Page where
  batchSize : ℕ
  move : PageMove
  deriving DecidableEq, Repr

structure Pager where
  bus : Db
  afterEventId : Option ℤ
  rows : List EventRow
  ended : Bool

def Pager.start (db : Db) (afterEventId : Option ℤ) : Pager := ⟨db,afterEventId,[],false⟩

def Pager.take (cursorId : String) (s : Pager) (rows : List EventRow) (last : EventRow) :
    PageMove → Except BusError Pager
  | .ack now => do
    let db ← ack s.bus cursorId last.eventId now
    pure ⟨db,none,s.rows ++ rows,false⟩
  | .afterEventId => pure ⟨s.bus,some last.eventId,s.rows ++ rows,false⟩

def Pager.step (cursorId : String) (page : Page) (s : Pager) : Except BusError Pager :=
  if s.ended then pure s
  else do
    let rows ← poll s.bus cursorId page.batchSize s.afterEventId
    match rows.getLast? with
    | none => pure { s with ended := true }
    | some last => s.take cursorId rows last page.move

def Pager.pages (cursorId : String) (seq : ℕ → Page) : ℕ → Pager → Except BusError Pager
  | 0,s => pure s
  | n + 1,s => do
    let s ← s.step cursorId (seq 0)
    Pager.pages cursorId (fun i => seq (i + 1)) n s

def matchingRows (db : Db) (filter : Text) (floor : ℤ) : List EventRow :=
  (db.events.filter (fun e => decide (floor < e.eventId) && e.matchesSql filter)).rows

section MatchingRows

variable {db : Db} {filter : Text} {floor : ℤ} {n : ℕ} {e : EventRow}

theorem mem_matchingRows :
    e ∈ matchingRows db filter floor ↔ e ∈ db.events ∧ floor < e.eventId ∧ e.matchesSql filter = true := by
  rw [matchingRows,KeyedTable.mem_rows,KeyedTable.mem_filter]
  simp

theorem matchingRows_sorted (db : Db) (filter : Text) (floor : ℤ) :
    (matchingRows db filter floor).Pairwise (fun a b => a.eventId < b.eventId) :=
  KeyedTable.sorted _

theorem matchingRows_after (hlast : ((matchingRows db filter floor).take n).getLast? = some e) :
    matchingRows db filter e.eventId = (matchingRows db filter floor).drop n := by
  have hmem : e ∈ matchingRows db filter floor := List.mem_of_mem_take (List.mem_of_getLast? hlast)
  have hfloor : floor < e.eventId := (mem_matchingRows.mp hmem).2.1
  rw [← FirstOf.filter_after_take (matchingRows_sorted db filter floor) hlast]
  simp only [matchingRows,KeyedTable.filter,List.filter_filter]
  refine List.filter_congr fun x _ => ?_
  by_cases hx : e.eventId < x.eventId
  · simp [hx,hfloor.trans hx]
  · simp [hx]

end MatchingRows

structure PagingAt (cursorId : String) (filter : Text) (rest : List EventRow) (s : Pager) : Prop where
  running : s.ended = false
  ready : ∃ c, pollCursor s.bus cursorId = .ok c ∧ pollFilter s.bus c = .ok filter ∧
    pollWindow s.bus c = .ok () ∧ matchingRows s.bus filter (s.afterEventId.getD c.lastEventId) = rest

section Paging

variable {db db' : Db} {cursorId : String} {filter : Text} {rest : List EventRow} {s : Pager}
  {page : Page} {c : CursorRow} {e : EventRow}

theorem pollWindow_of_live (he : e ∈ db.events) (hle : e.eventId ≤ c.lastEventId) :
    pollWindow db c = .ok () := by
  unfold pollWindow
  cases hmin : db.events.minKey? with
  | none => rfl
  | some minId =>
    have hbound := (KeyedTable.minKey?_eq_some.mp hmin).2 e he
    exact if_neg (by omega)

theorem PagingAt.poll (h : PagingAt cursorId filter rest s) (hsize : 1 ≤ page.batchSize) :
    poll s.bus cursorId page.batchSize s.afterEventId = .ok (rest.take page.batchSize) := by
  obtain ⟨c,hcursor,hfilter,hwindow,rfl⟩ := h.ready
  have hbatch : effectiveBatchSize page.batchSize = page.batchSize := if_neg (by omega)
  rw [poll_eq hcursor hwindow hfilter,hbatch]
  rfl

theorem PagingAt.take (h : PagingAt cursorId filter rest s) (n : ℕ)
    (hlast : (rest.take n).getLast? = some e) (move : PageMove) :
    ∃ s', s.take cursorId (rest.take n) e move = .ok s' ∧ s'.rows = s.rows ++ rest.take n ∧
      PagingAt cursorId filter (rest.drop n) s' := by
  obtain ⟨c,hcursor,hfilter,hwindow,rfl⟩ := h.ready
  have hafter := matchingRows_after hlast
  cases move with
  | afterEventId => exact ⟨_,rfl,rfl,rfl,c,hcursor,hfilter,hwindow,hafter⟩
  | ack now =>
    have hmove := moveCursor_of_pollCursor hcursor e.eventId now
    have hlive := (mem_matchingRows.mp (List.mem_of_mem_take (List.mem_of_getLast? hlast))).1
    refine ⟨⟨updateCursors s.bus cursorId e.eventId now,none,s.rows ++ _,false⟩,?_,rfl,rfl,
      c.moveTo e.eventId now,pollCursor_moved hmove hcursor,hfilter,
      pollWindow_of_live hlive le_rfl,hafter⟩
    exact bind_eq_ok.mpr ⟨_,bind_eq_ok.mpr ⟨c,hcursor,hmove⟩,rfl⟩

theorem PagingAt.step_last (h : PagingAt cursorId filter [] s) (hsize : 1 ≤ page.batchSize) :
    s.step cursorId page = .ok { s with ended := true } := by
  rw [Pager.step,h.running]
  refine bind_eq_ok.mpr ⟨_,h.poll hsize,?_⟩
  rw [List.take_nil]
  rfl

theorem PagingAt.step (h : PagingAt cursorId filter rest s) (hsize : 1 ≤ page.batchSize)
    (hrest : rest ≠ []) : ∃ s', s.step cursorId page = .ok s' ∧
      s'.rows = s.rows ++ rest.take page.batchSize ∧ PagingAt cursorId filter (rest.drop page.batchSize) s' := by
  have htake : rest.take page.batchSize ≠ [] := by
    rw [Ne,List.take_eq_nil_iff]
    rintro (hzero | hnil)
    · omega
    · exact hrest hnil
  obtain ⟨e,hlast⟩ := List.getLast?_isSome.mpr htake |> Option.isSome_iff_exists.mp
  obtain ⟨s',hs',hrows,hat⟩ := h.take page.batchSize hlast page.move
  refine ⟨s',?_,hrows,hat⟩
  rw [Pager.step,h.running]
  refine bind_eq_ok.mpr ⟨_,h.poll hsize,?_⟩
  simp only [hlast]
  exact hs'

theorem PagingAt.pages {seq : ℕ → Page} (hsize : ∀ i, 1 ≤ (seq i).batchSize) (h : PagingAt cursorId filter rest s) :
    ∃ n s', s.pages cursorId seq n = .ok s' ∧ s'.ended = true ∧ s'.rows = s.rows ++ rest := by
  induction hlen : rest.length using Nat.strong_induction_on generalizing rest s seq with
  | _ k ih =>
    by_cases hrest : rest = []
    · subst hrest
      exact ⟨1,_,bind_eq_ok.mpr ⟨_,h.step_last (hsize 0),rfl⟩,rfl,(List.append_nil _).symm⟩
    · obtain ⟨s₁,hstep,hrows,hat⟩ := h.step (hsize 0) hrest
      have hpos := List.length_pos_iff.mpr hrest
      have hshort : (rest.drop (seq 0).batchSize).length < k := by
        have := hsize 0
        rw [List.length_drop]
        omega
      obtain ⟨n,s',hrun,hended,hall⟩ := ih _ hshort (fun i => hsize (i + 1)) hat rfl
      refine ⟨n + 1,s',bind_eq_ok.mpr ⟨s₁,hstep,hrun⟩,hended,?_⟩
      rw [hall,hrows,List.append_assoc,List.take_append_drop]

theorem Pager.pages_ended (hended : s.ended = true) (seq : ℕ → Page) (n : ℕ) :
    s.pages cursorId seq n = .ok s := by
  induction n generalizing seq with
  | zero => rfl
  | succ n ih => exact bind_eq_ok.mpr ⟨s,by rw [Pager.step,if_pos hended]; rfl,ih _⟩

theorem PagingAt.pages_ok {seq : ℕ → Page} (hsize : ∀ i, 1 ≤ (seq i).batchSize) (n : ℕ)
    (h : PagingAt cursorId filter rest s) : ∃ s', s.pages cursorId seq n = .ok s' := by
  induction n generalizing rest s seq with
  | zero => exact ⟨s,rfl⟩
  | succ n ih =>
    by_cases hrest : rest = []
    · subst hrest
      exact ⟨_,bind_eq_ok.mpr ⟨_,h.step_last (hsize 0),Pager.pages_ended rfl _ n⟩⟩
    · obtain ⟨s₁,hstep,-,hat⟩ := h.step (hsize 0) hrest
      obtain ⟨s',hrun⟩ := ih (fun i => hsize (i + 1)) hat
      exact ⟨s',bind_eq_ok.mpr ⟨s₁,hstep,hrun⟩⟩

end Paging

theorem paging_complete {db : Db} {cursorId : String} {c : CursorRow} {filter : Text}
    (hcursor : pollCursor db cursorId = .ok c) (hwindow : pollWindow db c = .ok ())
    (hfilter : pollFilter db c = .ok filter) (afterEventId : Option ℤ) {seq : ℕ → Page}
    (hsize : ∀ i, 1 ≤ (seq i).batchSize) :
    (∀ n, ∃ s, Pager.pages cursorId seq n (.start db afterEventId) = .ok s) ∧
      ∃ n s, Pager.pages cursorId seq n (.start db afterEventId) = .ok s ∧ s.ended = true ∧
        s.rows.Pairwise (fun a b => a.eventId < b.eventId) ∧
        ∀ e, e ∈ s.rows ↔ e ∈ db.events ∧ afterEventId.getD c.lastEventId < e.eventId ∧
          e.matchesSql filter = true := by
  have hat : PagingAt cursorId filter (matchingRows db filter (afterEventId.getD c.lastEventId))
      (.start db afterEventId) := ⟨rfl,c,hcursor,hfilter,hwindow,rfl⟩
  obtain ⟨n,s,hrun,hended,hrows⟩ := hat.pages hsize
  rw [Pager.start,List.nil_append] at hrows
  refine ⟨fun n => hat.pages_ok hsize n,n,s,hrun,hended,?_,?_⟩
  · rw [hrows]
    exact matchingRows_sorted _ _ _
  · intro e
    rw [hrows,mem_matchingRows]

def ackedBetween (batchSize : ℕ) (i : ℕ) : Page := ⟨batchSize,if i % 2 = 0 then .ack 5000 else .afterEventId⟩

def idsAfter (seq : ℕ → Page) (n : ℕ) : Option (List ℤ × Bool) :=
  (Pager.pages "c1" seq n (.start sweepSample none)).toOption.map (fun s => (s.rows.map EventRow.eventId,s.ended))

def PagesAll (seq : ℕ → Page) : Prop :=
  (∀ n, ∃ s, Pager.pages "c1" seq n (.start sweepSample none) = .ok s) ∧
    ∃ n s, Pager.pages "c1" seq n (.start sweepSample none) = .ok s ∧ s.ended = true ∧
      s.rows.Pairwise (fun a b => a.eventId < b.eventId) ∧
      ∀ e, e ∈ s.rows ↔ e ∈ sweepSample.events ∧ 2 < e.eventId ∧ e.matchesSql "wicked.*".toList = true

theorem paging_complete_sample :
    PagesAll (ackedBetween 1) ∧ idsAfter (ackedBetween 1) 3 = some ([3,4,6],false) ∧
      idsAfter (ackedBetween 1) 4 = some ([3,4,6],true) ∧
      PagesAll (ackedBetween 2) ∧ idsAfter (ackedBetween 2) 3 = some ([3,4,6],true) := by
  have hall (batchSize : ℕ) (hsize : 1 ≤ batchSize) : PagesAll (ackedBetween batchSize) :=
    @paging_complete sweepSample "c1" ⟨"c1","s1",2,none,0,none⟩ _ (by decide +kernel) (by decide +kernel)
      (by decide +kernel) none (ackedBetween batchSize) (fun _ => hsize)
  exact ⟨hall 1 le_rfl,by decide +kernel,by decide +kernel,hall 2 one_le_two,by decide +kernel⟩

end WickedBus
