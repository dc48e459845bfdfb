import WickedBus.Buckets
import WickedBus.Custody
import WickedBus.Recheck

namespace WickedBus

open GuardedRun
open WickedBus.Filter (Text)

structure Warm where
  archive : Archive
  pass : Option (PassConfig × Phase)
  created : List Text

inductive WarmAction where
  | begin (cfg : PassConfig)
  | step (env : StepEnv) (db : Db)
  | crash

def Warm.start : Warm := ⟨.empty,none,[]⟩

def createdBy (archive : Archive) (ph : Phase) : List Text :=
  (ph.opens.filter (fun name => (archive.get? name).isNone)).toList

def Warm.step (w : Warm) : WarmAction → Option Warm
  | .begin cfg => if w.pass.isNone then some { w with pass := some (cfg,.collectCursors) } else none
  | .step env db =>
    w.pass.map (fun p =>
      { archive := (sweeperStep env p.1 db w.archive p.2).archive
        pass := (sweeperStep env p.1 db w.archive p.2).next.map (fun next => (p.1,next))
        created := w.created ++ createdBy w.archive p.2 })
  | .crash => some { w with pass := none }

def SealingSucceeds (w : Warm) : WarmAction → Prop
  | .step env _ => ∀ p ∈ w.pass, ∀ latest ∈ p.2.seals,
    (getBucketMeta w.archive latest).isSome = true ∧ env.sealFails = false
  | _ => True

def inMonth (month name : Text) : Bool := bucketFileRe name && (bucketPrefix month).isPrefixOf name

structure Chosen (archive : Archive) (month name : Text) : Prop where
  key : ∃ t, month = monthKey t
  inMonth : bucketPrefix month <+: name
  isOpen : ¬ Sealed archive name
  last : ∀ n ∈ bucketsOfMonth archive month, n = name ∨ (n < name ∧ Sealed archive n)

structure Routed (archive : Archive) (plan : Text → Option Text) (names : List Text) : Prop where
  chosen : ∀ month name, plan month = some name → Chosen archive month name
  names : ∀ name ∈ names, ∃ month, plan month = some name

def Grouping.plan (g : Grouping) (month : Text) : Option Text := g.cache.lookup month

structure Choosing (archive : Archive) (g : Grouping) (latest : Text) : Prop where
  todo : g.todo ≠ []
  fresh : g.plan g.month = none
  latest : (bucketsOfMonth archive g.month).getLast? = some latest

def Targeted (archive : Archive) : Phase → Prop
  | .groupEvents g => Routed archive g.plan (g.groups.map Prod.fst)
  | .readMeta g latest | .sealLatest g latest =>
    Routed archive g.plan (g.groups.map Prod.fst) ∧ Choosing archive g latest
  | .statBucket g latest =>
    (Routed archive g.plan (g.groups.map Prod.fst) ∧ Choosing archive g latest) ∧ ¬ Sealed archive latest
  | .writeGroups groups _ => ∃ plan, Routed archive plan (groups.map Prod.fst)
  | .openBucket w =>
    (∃ plan, Routed archive plan (w.bucketName :: w.rest.map Prod.fst)) ∧ archive.get? w.bucketName = none
  | .createEvents w | .createMeta w | .setCreatedAt w | .setMinEventId w | .setMaxEventId w
  | .insertBatch w | .readRange w | .writeRange w _ _ =>
    ∃ plan, Routed archive plan (w.bucketName :: w.rest.map Prod.fst)
  | _ => True

def SealedButLast (archive : Archive) : Prop :=
  ∀ t, ∀ a ∈ bucketsOfMonth archive (monthKey t), ∀ b ∈ bucketsOfMonth archive (monthKey t),
    a < b → Sealed archive a

structure WellSealed (w : Warm) : Prop where
  listed : ∀ n, Sealed w.archive n → bucketFileRe n = true
  last : SealedButLast w.archive
  present : ∀ n, n ∈ w.created ↔ (w.archive.get? n).isSome = true
  order : ∀ t, (w.created.filter (inMonth (monthKey t))).Pairwise (fun a b => a < b)
  targeted : ∀ p ∈ w.pass, Targeted w.archive p.2

section Routing

variable {sealFails : Bool} {archive archive' : Archive} {plan : Text → Option Text} {names : List Text}
  {month name : Text}

theorem Chosen.grow (h : Chosen archive month name)
    (hpresent : ∀ n ∈ bucketsOfMonth archive' month, n = name ∨ n ∈ bucketsOfMonth archive month)
    (hsealed : ∀ n, Sealed archive n → Sealed archive' n) (hopen : ¬ Sealed archive' name) :
    Chosen archive' month name where
  key := h.key
  inMonth := h.inMonth
  isOpen := hopen
  last n hn := by
    rcases hpresent n hn with heq | hold
    · exact .inl heq
    · exact (h.last n hold).imp_right (fun hlt => ⟨hlt.1,hsealed n hlt.2⟩)

theorem mem_bucketsOfMonth_of_present {n : Text} (h : (archive'.get? n).isSome = (archive.get? n).isSome) :
    n ∈ bucketsOfMonth archive' month ↔ n ∈ bucketsOfMonth archive month := by
  rw [mem_bucketsOfMonth,mem_bucketsOfMonth,h]

theorem Chosen.same_bucket {month' name' n : Text} (h : Chosen archive month name)
    (h' : Chosen archive month' name') (hn : bucketFileRe n = true) (hm : bucketPrefix month <+: n)
    (hm' : bucketPrefix month' <+: n) : month = month' := by
  obtain ⟨s,rfl⟩ := h.key
  obtain ⟨t,rfl⟩ := h'.key
  exact month_of_bucket hn hm hm'

theorem Routed.sub {names' : List Text} (h : Routed archive plan names) (hsub : names' ⊆ names) :
    Routed archive plan names' :=
  ⟨h.chosen,fun name hname => h.names name (hsub hname)⟩

theorem Routed.bucketStep {ph : Phase} (h : Routed archive plan names) (hr : BucketStep sealFails archive ph archive')
    (hopens : ∀ n ∈ ph.opens, ∃ month, plan month = some n)
    (hseals : ∀ n ∈ ph.seals, ∃ t, n ∈ bucketsOfMonth archive (monthKey t) ∧ plan (monthKey t) = none) :
    Routed archive' plan names := by
  refine ⟨fun month name hplan => ?_,h.names⟩
  have hchosen := h.chosen month name hplan
  refine hchosen.grow (fun n hn => ?_) (fun n hn => hr.sealed_iff.mpr (.inl hn)) (fun hsealed => ?_)
  · obtain ⟨hpresent,hre,hstart⟩ := mem_bucketsOfMonth.mp hn
    rcases hr.present.mp hpresent with hold | hopened
    · exact .inr (mem_bucketsOfMonth.mpr ⟨hold,hre,hstart⟩)
    · obtain ⟨month',hplan'⟩ := hopens n hopened
      have hchosen' := h.chosen month' n hplan'
      obtain rfl := hchosen.same_bucket hchosen' hre hstart hchosen'.inMonth
      exact .inl (Option.some.inj (hplan'.symm.trans hplan))
  · rcases hr.sealed_iff.mp hsealed with hold | ⟨hname,-⟩
    · exact hchosen.isOpen hold
    · obtain ⟨t,hmem,hfresh⟩ := hseals name hname
      obtain ⟨-,hre,hstart⟩ := mem_bucketsOfMonth.mp hmem
      obtain ⟨s,rfl⟩ := hchosen.key
      rw [month_of_bucket hre hchosen.inMonth hstart,hfresh] at hplan
      cases hplan

theorem opens_writing {ph : Phase} {w : Writing} {n : Text} (hw : ph.writing = some w)
    (hn : ph.opens = some n) : n = w.bucketName := by
  cases ph with
  | openBucket v =>
    cases hw
    cases hn
    rfl
  | _ => cases hn

theorem Routed.write {ph : Phase} {w : Writing}
    (h : Routed archive plan (w.bucketName :: w.rest.map Prod.fst)) (hw : ph.writing = some w)
    (hr : BucketStep sealFails archive ph archive') : Routed archive' plan (w.bucketName :: w.rest.map Prod.fst) := by
  refine h.bucketStep hr (fun n hn => ?_) (fun n hn => ?_)
  · rw [opens_writing hw hn]
    exact h.names w.bucketName List.mem_cons_self
  · rw [seals_of_writing hw] at hn
    cases hn

theorem Grouping.plan_assign {g : Grouping} (hne : g.todo ≠ []) :
    (g.assign name).plan month = (g.plan month).or (if month = g.month then some name else none) := by
  obtain ⟨ev,rest,htodo⟩ := List.exists_cons_of_ne_nil hne
  rw [Grouping.assign_cons htodo,Grouping.month_cons htodo]
  exact lookup_snoc g.cache (monthKey ev.emittedAt) name month

theorem Grouping.names_assign {g : Grouping} {n : Text} (h : n ∈ (g.assign name).groups.map Prod.fst) :
    n = name ∨ n ∈ g.groups.map Prod.fst := by
  obtain ⟨todo,cache,groups⟩ := g
  cases todo with
  | nil => exact .inr h
  | cons ev rest => exact names_addToGroup h

theorem Routed.assign {g : Grouping} (h : Routed archive g.plan (g.groups.map Prod.fst)) (hne : g.todo ≠ [])
    (hfresh : g.plan g.month = none) (hchosen : Chosen archive g.month name) :
    Routed archive (g.assign name).plan ((g.assign name).groups.map Prod.fst) := by
  refine ⟨fun m n hplan => ?_,fun n hn => ?_⟩
  · rw [Grouping.plan_assign hne,Option.or_eq_some_iff] at hplan
    rcases hplan with hplan | ⟨-,hplan⟩
    · exact h.chosen m n hplan
    · split_ifs at hplan with hm
      cases hplan
      rwa [hm]
  · rcases Grouping.names_assign hn with rfl | hn
    · exact ⟨g.month,by rw [Grouping.plan_assign hne,hfresh]; simp⟩
    · obtain ⟨m,hm⟩ := h.names n hn
      exact ⟨m,by rw [Grouping.plan_assign hne,hm]; rfl⟩

theorem Routed.place {g : Grouping} {ev : EventRow} {rest : List EventRow}
    (h : Routed archive g.plan (g.groups.map Prod.fst)) (hhit : g.plan (monthKey ev.emittedAt) = some name) :
    Routed archive (g.place ev rest name).plan ((g.place ev rest name).groups.map Prod.fst) := by
  refine ⟨h.chosen,fun n hn => ?_⟩
  rcases names_addToGroup hn with rfl | hn
  · exact ⟨_,hhit⟩
  · exact h.names n hn

end Routing

section Selection

variable {sealFails : Bool} {archive archive' : Archive} {month latest name : Text}

theorem sealed_present {n : Text} (h : Sealed archive n) : (archive.get? n).isSome = true := by
  rw [Sealed,getBucketMeta] at h
  cases hb : archive.get? n with
  | none =>
    rw [hb] at h
    cases h
  | some b => rfl

theorem chosen_bare (hkey : ∃ t, month = monthKey t) (hnone : (bucketsOfMonth archive month).getLast? = none)
    (hlisted : ∀ n, Sealed archive n → bucketFileRe n = true) :
    Chosen archive month (bucketPrefix month ++ dbSuffix) := by
  have hempty : bucketsOfMonth archive month = [] := List.getLast?_eq_none_iff.mp hnone
  refine ⟨hkey,List.prefix_append _ _,fun hsealed => ?_,fun n hn => ?_⟩
  · have hmem := mem_bucketsOfMonth.mpr
      ⟨sealed_present hsealed,hlisted _ hsealed,List.prefix_append (bucketPrefix month) dbSuffix⟩
    rw [hempty] at hmem
    cases hmem
  · rw [hempty] at hn
    cases hn

theorem chosen_latest {t : ℤ} (hlatest : (bucketsOfMonth archive (monthKey t)).getLast? = some latest)
    (hopen : ¬ Sealed archive latest) (hlast : SealedButLast archive) : Chosen archive (monthKey t) latest := by
  obtain ⟨hmem,hmax⟩ := latest_spec hlatest
  refine ⟨⟨t,rfl⟩,(mem_bucketsOfMonth.mp hmem).2.2,hopen,fun n hn => ?_⟩
  exact (hmax n hn).imp_right fun hlt => ⟨hlt,hlast t n hn latest hmem hlt⟩

theorem chosen_next {t : ℤ} {ph : Phase}
    (hlatest : (bucketsOfMonth archive (monthKey t)).getLast? = some latest)
    (hread : (getBucketMeta archive latest).isSome = true) (hlast : SealedButLast archive)
    (hr : BucketStep false archive ph archive') (hph : ph.seals = some latest)
    (hname : nextSuffixedName latest (bucketPrefix (monthKey t)) = some name) :
    Chosen archive' (monthKey t) name := by
  obtain ⟨hmem,hmax⟩ := latest_spec hlatest
  obtain ⟨-,hre,hstart⟩ := mem_bucketsOfMonth.mp hmem
  obtain ⟨hlt,hname_re,hname_stem⟩ := nextSuffixedName_lt hre hstart hname
  have hpresent : ∀ n, (archive'.get? n).isSome = true ↔ (archive.get? n).isSome = true := by
    intro n
    rw [hr.present,opens_of_seals hph]
    simp
  refine ⟨⟨t,rfl⟩,hname_stem,fun hsealed => ?_,fun n hn => .inr ?_⟩
  · have hold := mem_bucketsOfMonth.mpr ⟨(hpresent name).mp (sealed_present hsealed),hname_re,hname_stem⟩
    rcases hmax name hold with heq | hlt'
    · exact hlt.ne' heq
    · exact lt_asymm hlt hlt'
  · have hold : n ∈ bucketsOfMonth archive (monthKey t) :=
      (mem_bucketsOfMonth_of_present (Bool.eq_iff_iff.mpr (hpresent n))).mp hn
    rcases hmax n hold with rfl | hbefore
    · exact ⟨hlt,hr.sealed_iff.mpr (.inr ⟨hph,hread,rfl⟩)⟩
    · exact ⟨hbefore.trans hlt,hr.sealed_iff.mpr (.inl (hlast t n hold latest hmem hbefore))⟩

end Selection

section Step

variable {env : StepEnv} {cfg : PassConfig} {db : Db} {archive : Archive} {ph ph' : Phase}

theorem Targeted.writing {w : Writing} (h : Targeted archive ph) (hw : ph.writing = some w) :
    ∃ plan, Routed archive plan (w.bucketName :: w.rest.map Prod.fst) := by
  cases ph with
  | openBucket v =>
    cases hw
    exact h.1
  | createEvents v | createMeta v | setCreatedAt v | setMinEventId v | setMaxEventId v | insertBatch v
  | readRange v | writeRange v lo hi =>
    cases hw
    exact h
  | _ => cases hw

theorem targeted_writing {w : Writing} {plan : Text → Option Text} (hw : ph.writing = some w)
    (hopens : ph.opens = none) (h : Routed archive plan (w.bucketName :: w.rest.map Prod.fst)) :
    Targeted archive ph := by
  cases ph with
  | openBucket v => cases hopens
  | createEvents v | createMeta v | setCreatedAt v | setMinEventId v | setMaxEventId v | insertBatch v
  | readRange v | writeRange v lo hi =>
    cases hw
    exact ⟨plan,h⟩
  | _ => cases hw

theorem next_of_writing {w : Writing} (hw : ph.writing = some w)
    (h : (sweeperStep env cfg db archive ph).next = some ph') :
    (ph'.writing = some w ∧ ph'.opens = none) ∨ ph' = w.finish := by
  cases ph with
  | openBucket v | createEvents v | createMeta v =>
    cases h
    exact .inl ⟨hw,rfl⟩
  | setCreatedAt v | setMinEventId v | setMaxEventId v | insertBatch v =>
    simp only [sweeperStep] at h
    split at h <;> cases h
    exact .inl ⟨hw,rfl⟩
  | readRange v =>
    cases hw
    simp only [sweeperStep] at h
    (repeat' split at h) <;> cases h
    · exact .inl ⟨rfl,rfl⟩
    · exact .inr rfl
  | writeRange v lo hi =>
    cases hw
    simp only [sweeperStep] at h
    split at h <;> cases h
    exact .inr rfl
  | _ => cases hw

theorem Targeted.step (h : Targeted archive ph) (hlast : SealedButLast archive)
    (hlisted : ∀ n, Sealed archive n → bucketFileRe n = true)
    (hread : ∀ latest ∈ ph.seals, (getBucketMeta archive latest).isSome = true ∧ env.sealFails = false)
    (hnext : (sweeperStep env cfg db archive ph).next = some ph') :
    Targeted (sweeperStep env cfg db archive ph).archive ph' := by
  have hr := sweeperStep_buckets env cfg db archive ph
  cases hw : ph.writing with
  | some w =>
    obtain ⟨plan,hplan⟩ := h.writing hw
    rcases next_of_writing hw hnext with ⟨hw',hopens⟩ | rfl
    · exact targeted_writing hw' hopens (hplan.write hw hr)
    · exact ⟨plan,(hplan.write hw hr).sub (List.subset_cons_self _ _)⟩
  | none =>
    cases ph with
    | openBucket v | createEvents v | createMeta v | setCreatedAt v | setMinEventId v | setMaxEventId v
    | insertBatch v | readRange v | writeRange v lo hi => cases hw
    | collectCursors | collectAttempts owed | discardOwed ids =>
      cases hnext
      trivial
    | collectOwed cursors owed => cases cursors <;> cases hnext <;> trivial
    | readPairs owed =>
      simp only [sweeperStep] at hnext
      split at hnext <;> cases hnext <;> trivial
    | deleteLive moved => cases hnext
    | selectCandidates held =>
      simp only [sweeperStep] at hnext
      split at hnext <;> cases hnext
      exact ⟨by rintro _ _ ⟨⟩,by rintro _ ⟨⟩⟩
    | groupEvents g =>
      rw [hr.quiet rfl rfl]
      simp only [sweeperStep] at hnext
      (repeat' split at hnext) <;> cases hnext
      · exact ⟨g.plan,h⟩
      · rename_i hhit
        exact h.place hhit
      · rename_i ev rest htodo _ hmiss _ hnone
        have hne : g.todo ≠ [] := by rw [htodo]; exact List.cons_ne_nil _ _
        have hfresh : g.plan g.month = none := by rwa [Grouping.month_cons htodo]
        exact h.assign hne hfresh (chosen_bare (Grouping.month_key hne) hnone hlisted)
      · rename_i ev rest htodo _ hmiss _ latest hlatest
        have hne : g.todo ≠ [] := by rw [htodo]; exact List.cons_ne_nil _ _
        have hfresh : g.plan g.month = none := by rwa [Grouping.month_cons htodo]
        exact ⟨h,hne,hfresh,hlatest⟩
    | readMeta g latest =>
      rw [hr.quiet rfl rfl]
      simp only [sweeperStep] at hnext
      split at hnext <;> cases hnext
      · exact h
      · rename_i hopen
        exact ⟨h,hopen⟩
    | statBucket g latest =>
      rw [hr.quiet rfl rfl]
      obtain ⟨⟨hrouted,hchoosing⟩,hopen⟩ := h
      simp only [sweeperStep] at hnext
      split at hnext <;> cases hnext
      · exact ⟨hrouted,hchoosing⟩
      · obtain ⟨t,ht⟩ := Grouping.month_key hchoosing.todo
        have hlatest := hchoosing.latest
        rw [ht] at hlatest
        exact hrouted.assign hchoosing.todo hchoosing.fresh (ht ▸ chosen_latest hlatest hopen hlast)
    | sealLatest g latest =>
      obtain ⟨hrouted,hchoosing⟩ := h
      obtain ⟨t,ht⟩ := Grouping.month_key hchoosing.todo
      have hlatest := hchoosing.latest
      have hfresh := hchoosing.fresh
      rw [ht] at hlatest hfresh
      have hrouted' := hrouted.bucketStep hr (by rintro _ ⟨⟩)
        (by rintro _ ⟨⟩; exact ⟨t,(latest_spec hlatest).1,hfresh⟩)
      generalize harchive : (sweeperStep env cfg db archive (.sealLatest g latest)).archive = archive' at *
      simp only [sweeperStep] at hnext
      split at hnext <;> cases hnext
      rename_i name hname
      rw [ht] at hname
      exact hrouted'.assign hchoosing.todo hchoosing.fresh
        (ht ▸ chosen_next hlatest (hread latest rfl).1 hlast ((hread latest rfl).2 ▸ hr) rfl hname)
    | writeGroups groups moved =>
      rw [hr.quiet rfl rfl]
      obtain ⟨plan,hplan⟩ := h
      rcases groups with _ | ⟨⟨name,events⟩,rest⟩ <;> simp only [sweeperStep] at hnext <;>
        (repeat' split at hnext) <;> cases hnext
      · trivial
      · exact ⟨plan,hplan.sub (List.subset_cons_self _ _)⟩
      · exact ⟨plan,hplan⟩
      · rename_i hfile
        exact ⟨⟨plan,hplan⟩,Option.not_isSome_iff_eq_none.mp hfile⟩

end Step

section Run

variable {w w' : Warm} {a : WarmAction}

theorem WellSealed.start : WellSealed .start where
  listed n h := by cases h
  last t a ha := by cases ha
  present n := iff_of_false List.not_mem_nil (by rintro ⟨⟩)
  order t := .nil
  targeted p hp := by cases hp

theorem mem_createdBy {archive : Archive} {ph : Phase} {n : Text} :
    n ∈ createdBy archive ph ↔ ph.opens = some n ∧ archive.get? n = none := by
  simp [createdBy]

theorem Targeted.opened {archive : Archive} {ph : Phase} {name : Text} {t : ℤ} (h : Targeted archive ph)
    (hopens : ph.opens = some name) (hre : bucketFileRe name = true)
    (hstart : bucketPrefix (monthKey t) <+: name) :
    archive.get? name = none ∧ ∀ n ∈ bucketsOfMonth archive (monthKey t), n < name ∧ Sealed archive n := by
  cases ph with
  | openBucket v =>
    cases hopens
    obtain ⟨⟨plan,hrouted⟩,habsent⟩ := h
    refine ⟨habsent,fun n hn => ?_⟩
    obtain ⟨month,hplan⟩ := hrouted.names v.bucketName List.mem_cons_self
    have hchosen := hrouted.chosen month v.bucketName hplan
    obtain ⟨s,rfl⟩ := hchosen.key
    rw [← month_of_bucket hre hchosen.inMonth hstart] at hn
    rcases hchosen.last n hn with rfl | hlt
    · have hpresent := (mem_bucketsOfMonth.mp hn).1
      rw [habsent] at hpresent
      cases hpresent
    · exact hlt
  | _ => cases hopens

theorem Targeted.sealed_listed {archive : Archive} {ph : Phase} {n : Text} (h : Targeted archive ph)
    (hn : ph.seals = some n) : bucketFileRe n = true := by
  cases ph with
  | sealLatest g latest =>
    cases hn
    exact (mem_bucketsOfMonth.mp (latest_spec h.2.latest).1).2.1
  | _ => cases hn

theorem SealedButLast.step {sealFails : Bool} {archive archive' : Archive} {ph : Phase} (h : SealedButLast archive)
    (htargeted : Targeted archive ph) (hr : BucketStep sealFails archive ph archive') : SealedButLast archive' := by
  intro t a ha b hb hlt
  obtain ⟨hpa,hra,hma⟩ := mem_bucketsOfMonth.mp ha
  obtain ⟨hpb,hrb,hmb⟩ := mem_bucketsOfMonth.mp hb
  refine hr.sealed_iff.mpr (.inl ?_)
  rcases hr.present.mp hpa with holda | hopena
  · have ha' := mem_bucketsOfMonth.mpr ⟨holda,hra,hma⟩
    rcases hr.present.mp hpb with holdb | hopenb
    · exact h t a ha' b (mem_bucketsOfMonth.mpr ⟨holdb,hrb,hmb⟩) hlt
    · exact ((htargeted.opened hopenb hrb hmb).2 a ha').2
  · rcases hr.present.mp hpb with holdb | hopenb
    · have hb' := mem_bucketsOfMonth.mpr ⟨holdb,hrb,hmb⟩
      exact absurd hlt (lt_asymm ((htargeted.opened hopena hra hma).2 b hb').1)
    · rw [Option.some.inj (hopena.symm.trans hopenb)] at hlt
      exact absurd hlt (lt_irrefl b)

theorem created_order {archive : Archive} {ph : Phase} {created : List Text} {t : ℤ}
    (horder : (created.filter (inMonth (monthKey t))).Pairwise (fun a b => a < b))
    (hpresent : ∀ n, n ∈ created ↔ (archive.get? n).isSome = true) (htargeted : Targeted archive ph) :
    ((created ++ createdBy archive ph).filter (inMonth (monthKey t))).Pairwise (fun a b => a < b) := by
  rw [List.filter_append,List.pairwise_append]
  refine ⟨horder,?_,fun a ha b hb => ?_⟩
  · refine List.Pairwise.filter _ ?_
    unfold createdBy
    cases ph.opens.filter (fun name => (archive.get? name).isNone) with
    | none => exact .nil
    | some name => exact List.pairwise_singleton _ name
  · obtain ⟨ha,hma⟩ := List.mem_filter.mp ha
    obtain ⟨hb,hmb⟩ := List.mem_filter.mp hb
    simp only [inMonth,Bool.and_eq_true,List.isPrefixOf_iff_prefix] at hma hmb
    have hbefore := htargeted.opened (mem_createdBy.mp hb).1 hmb.1 hmb.2
    exact (hbefore.2 a (mem_bucketsOfMonth.mpr ⟨(hpresent a).mp ha,hma⟩)).1

theorem WellSealed.advance (h : WellSealed w) {env : StepEnv} {db : Db}
    (hok : SealingSucceeds w (.step env db)) (hstep : w.step (.step env db) = some w') : WellSealed w' := by
  obtain ⟨p,hp,rfl⟩ := Option.map_eq_some_iff.mp hstep
  obtain ⟨cfg,ph⟩ := p
  have htargeted : Targeted w.archive ph := h.targeted _ hp
  have hr := sweeperStep_buckets env cfg db w.archive ph
  refine ⟨fun n hn => ?_,h.last.step htargeted hr,fun n => ?_,fun t => created_order (h.order t) h.present htargeted,
    fun q hq => ?_⟩
  · rcases hr.sealed_iff.mp hn with hold | ⟨hseals,-⟩
    · exact h.listed n hold
    · exact htargeted.sealed_listed hseals
  · rw [hr.present,List.mem_append,h.present,mem_createdBy]
    cases hfile : w.archive.get? n <;> simp
  · obtain ⟨next,hnext,rfl⟩ := Option.map_eq_some_iff.mp hq
    exact htargeted.step h.last h.listed (hok _ hp) hnext

theorem WellSealed.step (h : WellSealed w) (hok : SealingSucceeds w a) (hstep : w.step a = some w') :
    WellSealed w' := by
  cases a with
  | begin cfg =>
    simp only [Warm.step] at hstep
    split_ifs at hstep
    cases hstep
    exact ⟨h.listed,h.last,h.present,h.order,by rintro _ ⟨⟩; trivial⟩
  | step env db => exact h.advance hok hstep
  | crash =>
    cases hstep
    exact ⟨h.listed,h.last,h.present,h.order,by rintro _ ⟨⟩⟩

theorem Targeted.insert_open {archive : Archive} {wr : Writing} (h : Targeted archive (.insertBatch wr)) :
    ¬ Sealed archive wr.bucketName := by
  obtain ⟨plan,hrouted⟩ := h
  obtain ⟨month,hplan⟩ := hrouted.names wr.bucketName List.mem_cons_self
  exact (hrouted.chosen month _ hplan).isOpen

theorem sealed_rows_step (h : WellSealed w) (hstep : w.step a = some w') {n : Text} (hn : Sealed w.archive n) :
    Sealed w'.archive n ∧ ∀ e, Holds w'.archive n e ↔ Holds w.archive n e := by
  cases a with
  | begin cfg =>
    simp only [Warm.step] at hstep
    split_ifs at hstep
    cases hstep
    exact ⟨hn,fun _ => Iff.rfl⟩
  | crash =>
    cases hstep
    exact ⟨hn,fun _ => Iff.rfl⟩
  | step env db =>
    obtain ⟨p,hp,rfl⟩ := Option.map_eq_some_iff.mp hstep
    refine ⟨(sweeperStep_buckets env p.1 db w.archive p.2).sealed_iff.mpr (.inl hn),fun e => ?_⟩
    rcases sweeperStep_archive env p.1 db w.archive p.2 with hsame | ⟨wr,hph,hins⟩
    · exact hsame n e
    · have hopen := Targeted.insert_open (hph ▸ h.targeted p hp)
      refine ⟨fun he => ?_,holds_insertRows hins⟩
      rcases holds_of_insertRows hins he with he | ⟨rfl,-⟩
      · exact he
      · exact absurd hn hopen

def FourDigitYears : WarmAction → Prop
  | .step _ db => ∀ e ∈ db.events, ValidYear e.emittedAt
  | _ => True

structure NamesMatch (w : Warm) : Prop where
  created : ∀ n ∈ w.created, bucketFileRe n = true
  targets : ∀ p ∈ w.pass, ∀ n ∈ p.2.targets, bucketFileRe n = true
  held : ∀ p ∈ w.pass, ∀ e ∈ p.2.held, ValidYear e.emittedAt

theorem opens_target {ph : Phase} {n : Text} (h : ph.opens = some n) : n ∈ ph.targets := by
  cases ph with
  | openBucket v =>
    cases h
    exact List.mem_cons_self
  | _ => cases h

theorem NamesMatch.step (h : NamesMatch w) (hyears : FourDigitYears a) (hstep : w.step a = some w') :
    NamesMatch w' := by
  cases a with
  | begin cfg =>
    simp only [Warm.step] at hstep
    split_ifs at hstep
    cases hstep
    exact ⟨h.created,by rintro _ ⟨⟩ _ ⟨⟩,by rintro _ ⟨⟩ _ ⟨⟩⟩
  | crash =>
    cases hstep
    exact ⟨h.created,by rintro _ ⟨⟩,by rintro _ ⟨⟩⟩
  | step env db =>
    obtain ⟨p,hp,rfl⟩ := Option.map_eq_some_iff.mp hstep
    refine ⟨fun n hn => ?_,fun q hq => ?_,fun q hq e he => ?_⟩
    · rcases List.mem_append.mp hn with hn | hn
      · exact h.created n hn
      · exact h.targets p hp n (opens_target (mem_createdBy.mp hn).1)
    · obtain ⟨next,hnext,rfl⟩ := Option.map_eq_some_iff.mp hq
      exact sweeperStep_targets hnext
        (fun e he => monthText_monthKey (h.held p hp e he).1 (h.held p hp e he).2) (h.targets p hp)
    · obtain ⟨next,hnext,rfl⟩ := Option.map_eq_some_iff.mp hq
      rcases sweeperStep_held hnext e he with hold | hlive
      · exact h.held p hp e hold
      · exact hyears e hlive.1

theorem namesMatch_of_run {as : List WarmAction} (h : Run Warm.step SealingSucceeds .start as w)
    (hyears : ∀ a ∈ as, FourDigitYears a) : NamesMatch w := by
  induction h with
  | nil => exact ⟨by rintro _ ⟨⟩,by rintro _ ⟨⟩,by rintro _ ⟨⟩⟩
  | snoc hrun hok hstep ih =>
    exact (ih fun a ha => hyears a (List.mem_append_left _ ha)).step (hyears _ (by simp)) hstep

end Run

structure BucketRules (w : Warm) (later : Warm) : Prop where
  last : SealedButLast w.archive
  frozen : ∀ n, Sealed w.archive n → Sealed later.archive n ∧
    ∀ e, Holds later.archive n e ↔ Holds w.archive n e
  order : ∀ t, bucketsOfMonth w.archive (monthKey t) = w.created.filter (inMonth (monthKey t))

structure NamesAccepted (w : Warm) : Prop where
  created : ∀ n ∈ w.created, n ∈ listBuckets w.archive
  chosen : ∀ p ∈ w.pass, ∀ n ∈ p.2.targets, bucketFileRe n = true

theorem WellSealed.lexical_order {w : Warm} (h : WellSealed w) (t : ℤ) :
    bucketsOfMonth w.archive (monthKey t) = w.created.filter (inMonth (monthKey t)) := by
  refine List.Pairwise.eq_of_mem_iff bucketsOfMonth_sorted (h.order t) fun n => ?_
  rw [mem_bucketsOfMonth,List.mem_filter,h.present,inMonth,Bool.and_eq_true,List.isPrefixOf_iff_prefix]

theorem buckets_sealed_in_order {as bs : List WarmAction} {v w : Warm}
    (hv : Run Warm.step SealingSucceeds .start as v) (hw : Run Warm.step SealingSucceeds v bs w) :
    BucketRules v w ∧ ((∀ a ∈ as, FourDigitYears a) → NamesAccepted v) := by
  have hstep : ∀ t a u, WellSealed t → SealingSucceeds t a → t.step a = some u → WellSealed u :=
    fun _ _ _ h hok hs => h.step hok hs
  have hwell : WellSealed v := hv.invariant hstep .start
  refine ⟨⟨hwell.last,fun n hn => ?_,hwell.lexical_order⟩,fun hyears => ?_⟩
  · have hfrozen : WellSealed w ∧ Sealed w.archive n ∧ ∀ e, Holds w.archive n e ↔ Holds v.archive n e := by
      refine hw.invariant
        (I := fun u => WellSealed u ∧ Sealed u.archive n ∧ ∀ e, Holds u.archive n e ↔ Holds v.archive n e)
        (fun t a u hI hok hs => ?_) ⟨hwell,hn,fun _ => Iff.rfl⟩
      obtain ⟨hseal,hrows⟩ := sealed_rows_step hI.1 hs hI.2.1
      exact ⟨hI.1.step hok hs,hseal,fun e => (hrows e).trans (hI.2.2 e)⟩
    exact hfrozen.2
  · have haccepted := namesMatch_of_run hv hyears
    refine ⟨fun n hn => mem_listBuckets.mpr ⟨?_,haccepted.created n hn⟩,haccepted.targets⟩
    obtain ⟨b,hb⟩ := Option.isSome_iff_exists.mp ((hwell.present n).mp hn)
    exact ⟨b,KeyedTable.get?_eq_some.mp hb⟩

def fullEnv : StepEnv := ⟨5000,some defaultBucketMaxBytes,false,false⟩

def sweepSteps (n : ℕ) : List WarmAction := .begin sampleCfg :: List.replicate n (.step fullEnv expiredDb)

instance : ∀ w a, Decidable (SealingSucceeds w a)
  | w, .step env _ => inferInstanceAs (Decidable (∀ p ∈ w.pass, ∀ latest ∈ p.2.seals,
      (getBucketMeta w.archive latest).isSome = true ∧ env.sealFails = false))
  | _, .begin _ => inferInstanceAs (Decidable True)
  | _, .crash => inferInstanceAs (Decidable True)

theorem buckets_sealed_in_order_split :
    ∃ v w, BucketRules v w ∧ NamesAccepted v ∧ Sealed v.archive "bus-1970-01.db".toList ∧
      w.created = ["bus-1970-01.db".toList,"bus-1970-01a.db".toList] := by
  have hreach : (exec (guarded SealingSucceeds Warm.step) .start (sweepSteps 16 ++ .crash :: sweepSteps 9)).any
      (fun v => decide (Sealed v.archive "bus-1970-01.db".toList) &&
        (exec (guarded SealingSucceeds Warm.step) v (List.replicate 3 (.step fullEnv expiredDb))).any (fun w =>
          decide (w.created = ["bus-1970-01.db".toList,"bus-1970-01a.db".toList]))) = true := by decide +kernel
  obtain ⟨v,hv,hobs⟩ := (Option.any_eq_true _ _).mp hreach
  rw [Bool.and_eq_true] at hobs
  obtain ⟨w,hw,hcreated⟩ := (Option.any_eq_true _ _).mp hobs.2
  obtain ⟨hrules,hnames⟩ := buckets_sealed_in_order (run_of_guarded hv) (run_of_guarded hw)
  refine ⟨v,w,hrules,hnames ?_,of_decide_eq_true hobs.1,of_decide_eq_true hcreated⟩
  have hyears : ∀ e ∈ expiredDb.events, ValidYear e.emittedAt := by decide +kernel
  have hstep : ∀ n, ∀ a ∈ sweepSteps n, FourDigitYears a := by
    intro n a ha
    rcases List.mem_cons.mp ha with rfl | ha
    · trivial
    · rw [List.eq_of_mem_replicate ha]
      exact hyears
  intro a ha
  rcases List.mem_append.mp ha with ha | ha
  · exact hstep 16 a ha
  · rcases List.mem_cons.mp ha with rfl | ha
    · trivial
    · exact hstep 9 a ha

end WickedBus
