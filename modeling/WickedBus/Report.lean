import WickedBus.Serial
import Mathlib.Data.Prod.Lex

namespace WickedBus

open WickedBus.Filter (Text)

structure TieredResult where
  unackedPolicy : UnackedPolicy
  unacked : UnackedReport
  eventsMoved : ℕ
  bucketsTouched : List Text
  bucketsSkippedLocked : List Text
  deriving DecidableEq

structure PassMemo where
  owedPairs : List OwedPair
  bucketsTouched : List Text
  bucketsSkipped : List Text
  deriving DecidableEq

inductive PassEnd where
  | returned (result : TieredResult)
  | threw
  deriving DecidableEq

def passFate (cfg : PassConfig) (moved : List ℤ) (p : OwedPair) : Fate :=
  match cfg.policy with
  | .discard => ⟨.discarded,.unackedPolicy⟩
  | .archive => ⟨.archived,.unackedPolicy⟩
  | .retain =>
    if p.overCap = false then ⟨.retained,.unackedPolicy⟩
    else if p.eventId ∈ moved then ⟨.archived,.retentionCap⟩
    else ⟨.retained,.retentionCapPending⟩

def reportedPairs (cfg : PassConfig) (moved : List ℤ) (pairs : List OwedPair) : List OwedPair :=
  if cfg.policy = .archive then pairs.filter (fun p => decide (p.eventId ∈ moved)) else pairs

def reportFor (cfg : PassConfig) (moved : List ℤ) (pairs : List OwedPair) : UnackedReport :=
  buildUnackedReport (reportedPairs cfg moved pairs) (passFate cfg moved) cfg.policy cfg.capDays

def owedPairsNow (cfg : PassConfig) (db : Db) : List OwedPair :=
  owedPairsWithCap db cfg.now cfg.capDays (collectOwedExpired db cfg.now)

def seenAtDelete (cfg : PassConfig) (db : Db) (moved : List ℤ) : List OwedPair :=
  if cfg.policy = .retain then (owedPairsNow cfg db).filter (fun p => decide (p.eventId ∈ moved)) else []

def knownPair (pairs : List OwedPair) (p : OwedPair) : Bool :=
  pairs.any (fun q => q.eventId = p.eventId ∧ q.cursorId = p.cursorId)

def pairsNow (cfg : PassConfig) (db : Db) (moved : List ℤ) (owedPairs : List OwedPair) : List OwedPair :=
  owedPairs ++ (seenAtDelete cfg db moved).filter (fun p => p.overCap && !knownPair owedPairs p)

def passResult (cfg : PassConfig) (memo : PassMemo) (moved : List ℤ) (pairs : List OwedPair) :
    TieredResult :=
  ⟨cfg.policy,reportFor cfg moved pairs,moved.length,memo.bucketsTouched,memo.bucketsSkipped⟩

def PassMemo.note (memo : PassMemo) (cfg : PassConfig) (env : StepEnv) (db : Db) (next : Phase) :
    Phase → PassMemo
  | .readPairs owed => { memo with owedPairs := owedPairsWithCap db cfg.now cfg.capDays owed }
  | .writeGroups ((name,_) :: _) _ =>
    if env.locked then { memo with bucketsSkipped := memo.bucketsSkipped ++ [name] } else memo
  | .readRange w | .writeRange w _ _ =>
    match next with
    | .writeGroups _ _ => { memo with bucketsTouched := memo.bucketsTouched ++ [w.bucketName] }
    | _ => memo
  | _ => memo

def passEnd (memo : PassMemo) (cfg : PassConfig) (db : Db) : Phase → PassEnd
  | .selectCandidates _ => .returned (passResult cfg memo [] memo.owedPairs)
  | .writeGroups _ moved => .returned (passResult cfg memo moved memo.owedPairs)
  | .deleteLive moved => .returned (passResult cfg memo moved (pairsNow cfg db moved memo.owedPairs))
  | _ => .threw

def Phase.collecting : Phase → Bool
  | .collectCursors | .collectOwed _ _ | .collectAttempts _ | .readPairs _ => true
  | _ => false

inductive PassPoint where
  | running (phase : Phase) (memo : PassMemo)
  | ended (result : PassEnd)
  deriving DecidableEq

def PassPoint.next (cfg : PassConfig) (env : StepEnv) (db : Db) (archive : Archive) : PassPoint → PassPoint
  | .running phase memo =>
    match (sweeperStep env cfg db archive phase).next with
    | some next => .running next (memo.note cfg env db next phase)
    | none => .ended (passEnd memo cfg db phase)
  | .ended result => .ended result

def PassPoint.begin : PassPoint := .running .collectCursors ⟨[],[],[]⟩

def PassPoint.result : PassPoint → Option TieredResult
  | .ended (.returned result) => some result
  | _ => none

theorem point_ended {point : PassPoint} {r : TieredResult} (h : point.result = some r) :
    point = .ended (.returned r) := by
  cases point with
  | running phase memo => cases h
  | ended result =>
    cases result with
    | threw => cases h
    | returned result =>
      cases h
      rfl

structure Pass where
  point : PassPoint
  bus : Db
  archive : Archive

def Pass.step (cfg : PassConfig) (env : StepEnv) (t : Pass) : Pass :=
  match t.point with
  | .running phase _ =>
    let r := sweeperStep env cfg t.bus t.archive phase
    ⟨t.point.next cfg env t.bus t.archive,r.bus,r.archive⟩
  | .ended _ => t

def Pass.after (cfg : PassConfig) (env : ℕ → StepEnv) (t : Pass) : ℕ → Pass
  | 0 => t
  | n + 1 => (t.after cfg env n).step cfg (env n)

def groupingLeft : List EventRow → ℕ
  | [] => 0
  | _ :: rest => 4 * rest.length + 8

def Phase.left : Phase → ℕ ×ₗ ℕ
  | .collectCursors => toLex (8,0)
  | .collectOwed cursors _ => toLex (7,cursors.length)
  | .collectAttempts _ => toLex (6,0)
  | .readPairs _ => toLex (5,0)
  | .discardOwed _ => toLex (4,0)
  | .selectCandidates _ => toLex (3,0)
  | .groupEvents g => toLex (2,groupingLeft g.todo)
  | .readMeta g _ => toLex (2,4 * g.todo.length + 3)
  | .statBucket g _ => toLex (2,4 * g.todo.length + 2)
  | .sealLatest g _ => toLex (2,4 * g.todo.length + 1)
  | .writeGroups groups _ => toLex (1,10 * groups.length)
  | .openBucket w => toLex (1,10 * w.rest.length + 9)
  | .createEvents w => toLex (1,10 * w.rest.length + 8)
  | .createMeta w => toLex (1,10 * w.rest.length + 7)
  | .setCreatedAt w => toLex (1,10 * w.rest.length + 6)
  | .setMinEventId w => toLex (1,10 * w.rest.length + 5)
  | .setMaxEventId w => toLex (1,10 * w.rest.length + 4)
  | .insertBatch w => toLex (1,10 * w.rest.length + 3)
  | .readRange w => toLex (1,10 * w.rest.length + 2)
  | .writeRange w _ _ => toLex (1,10 * w.rest.length + 1)
  | .deleteLive _ => toLex (0,0)

section Ends

variable {env : StepEnv} {cfg : PassConfig} {db : Db} {archive : Archive} {ph ph' : Phase}

theorem note_owedPairs (memo : PassMemo) (bus : Db) (hph : ph.collecting = false) :
    (memo.note cfg env bus ph' ph).owedPairs = memo.owedPairs := by
  cases ph with
  | readPairs owed => cases hph
  | writeGroups groups moved =>
    rcases groups with _ | ⟨⟨name,events⟩,rest⟩
    · rfl
    · simp only [PassMemo.note]
      split_ifs <;> rfl
  | readRange w | writeRange w lo hi => cases ph' <;> rfl
  | _ => rfl

theorem collecting_step (h : (sweeperStep env cfg db archive ph).next = some ph')
    (hph : ph.collecting = false) : ph'.collecting = false := by
  cases ph with
  | collectCursors | collectOwed cursors owed | collectAttempts owed | readPairs owed => cases hph
  | discardOwed ids =>
    cases h
    rfl
  | deleteLive moved => cases h
  | openBucket w | createEvents w | createMeta w =>
    cases h
    rfl
  | writeGroups groups moved =>
    rcases groups with _ | ⟨⟨name,events⟩,rest⟩ <;> simp only [sweeperStep] at h <;>
      (repeat' split at h) <;> cases h <;> rfl
  | _ =>
    simp only [sweeperStep] at h
    (repeat' split at h) <;> cases h <;> rfl

theorem knownPair_self {pairs : List OwedPair} {p : OwedPair} (hp : p ∈ pairs) : knownPair pairs p = true :=
  List.any_eq_true.mpr ⟨p,hp,by simp⟩

theorem lex_stage {a b c d : ℕ} (h : a < c) : toLex (a,b) < toLex (c,d) := Prod.Lex.toLex_lt_toLex.mpr (.inl h)

theorem lex_rest {a b d : ℕ} (h : b < d) : toLex (a,b) < toLex (a,d) :=
  Prod.Lex.toLex_lt_toLex.mpr (.inr ⟨rfl,h⟩)

theorem groupingLeft_le (todo : List EventRow) : groupingLeft todo ≤ 4 * todo.length + 4 := by
  cases todo with
  | nil => exact Nat.zero_le _
  | cons ev rest => exact le_rfl

theorem groupingLeft_assign (g : Grouping) (name : Text) :
    groupingLeft (g.assign name).todo < 4 * g.todo.length + 1 := by
  obtain ⟨todo,cache,groups⟩ := g
  cases todo with
  | nil => exact Nat.one_pos
  | cons ev rest => exact Nat.lt_succ_of_le (groupingLeft_le rest)

theorem sweeperStep_left (h : (sweeperStep env cfg db archive ph).next = some ph') : ph'.left < ph.left := by
  cases ph with
  | collectCursors =>
    cases h
    exact lex_stage (by decide)
  | collectOwed cursors owed =>
    cases cursors <;> cases h
    · exact lex_stage (by decide)
    · exact lex_rest (Nat.lt_succ_self _)
  | collectAttempts owed =>
    cases h
    exact lex_stage (by decide)
  | readPairs owed =>
    simp only [sweeperStep] at h
    split at h <;> cases h <;> exact lex_stage (by decide)
  | discardOwed ids =>
    cases h
    exact lex_stage (by decide)
  | selectCandidates held =>
    simp only [sweeperStep] at h
    split at h <;> cases h
    exact lex_stage (by decide)
  | groupEvents g =>
    simp only [sweeperStep] at h
    repeat' split at h
    all_goals cases h
    · exact lex_stage (by decide)
    · rename_i ev rest htodo _ _ _
      have hrest := groupingLeft_le rest
      simp only [Phase.left,htodo]
      exact lex_rest (show groupingLeft rest < 4 * rest.length + 8 by omega)
    · rename_i ev rest htodo _ _ _ _
      have hassign := groupingLeft_assign g (bucketPrefix g.month ++ dbSuffix)
      rw [htodo,List.length_cons] at hassign
      simp only [Phase.left,htodo]
      exact lex_rest (hassign.trans (by simp only [groupingLeft]; omega))
    · rename_i ev rest htodo _ _ _ _ _
      simp only [Phase.left,htodo]
      exact lex_rest (Nat.lt_succ_self _)
  | readMeta g latest =>
    simp only [sweeperStep] at h
    split at h <;> cases h <;> exact lex_rest (by omega)
  | statBucket g latest =>
    simp only [sweeperStep] at h
    split at h <;> cases h
    · exact lex_rest (Nat.lt_succ_self _)
    · exact lex_rest ((groupingLeft_assign g _).trans (Nat.lt_succ_self _))
  | sealLatest g latest =>
    simp only [sweeperStep] at h
    split at h <;> cases h
    exact lex_rest (groupingLeft_assign g _)
  | writeGroups groups moved =>
    rcases groups with _ | ⟨⟨name,events⟩,rest⟩ <;> simp only [sweeperStep] at h <;>
      (repeat' split at h) <;> cases h
    · exact lex_stage (by decide)
    · exact lex_rest (by simp)
    · exact lex_rest (by simp only [List.length_cons]; omega)
    · exact lex_rest (by simp only [List.length_cons]; omega)
  | readRange w =>
    simp only [sweeperStep] at h
    (repeat' split at h) <;> cases h <;> exact lex_rest (by omega)
  | deleteLive moved => cases h
  | openBucket w | createEvents w | createMeta w =>
    cases h
    exact lex_rest (Nat.lt_succ_self _)
  | setCreatedAt w | setMinEventId w | setMaxEventId w | insertBatch w | writeRange w lo hi =>
    simp only [sweeperStep] at h
    split at h <;> cases h
    exact lex_rest (Nat.lt_succ_self _)

theorem Pass.after_add (cfg : PassConfig) (env : ℕ → StepEnv) (t : Pass) (n m : ℕ) :
    t.after cfg env (n + m) = (t.after cfg env n).after cfg (fun i => env (n + i)) m := by
  induction m with
  | zero => rfl
  | succ m ih =>
    show (t.after cfg env (n + m)).step cfg (env (n + m)) = _
    rw [ih]
    rfl

theorem Pass.ends (cfg : PassConfig) (t : Pass) (env : ℕ → StepEnv) :
    ∃ n result, (t.after cfg env n).point = .ended result := by
  obtain ⟨point,bus,archive⟩ := t
  cases point with
  | ended result => exact ⟨0,result,rfl⟩
  | running phase memo =>
    induction hleft : phase.left using WellFoundedLT.induction generalizing phase memo bus archive env with
    | ind left ih =>
      subst hleft
      cases hnext : (sweeperStep (env 0) cfg bus archive phase).next with
      | none =>
        refine ⟨1,passEnd memo cfg bus phase,?_⟩
        simp only [Pass.after,Pass.step,PassPoint.next,hnext]
      | some next =>
        have hstep : Pass.after cfg env ⟨.running phase memo,bus,archive⟩ 1 =
            ⟨.running next (memo.note cfg (env 0) bus next phase),
              (sweeperStep (env 0) cfg bus archive phase).bus,
              (sweeperStep (env 0) cfg bus archive phase).archive⟩ := by
          simp only [Pass.after,Pass.step,PassPoint.next,hnext]
        obtain ⟨n,result,hend⟩ := ih next.left (sweeperStep_left hnext) (fun i => env (1 + i)) _ _ next _ rfl
        refine ⟨1 + n,result,?_⟩
        rw [Pass.after_add,hstep]
        exact hend

end Ends

end WickedBus
