import WickedBus.UiServer
import WickedBus.Foundation.GuardedRun
import WickedBus.Foundation.Directory

namespace WickedBus.Ui

open GuardedRun
open WickedBus.Filter (Text)
open WickedBus.Causality (jsSpace)

structure TokenFile where
  inode : ℕ
  owner : ℕ
  content : Text
  deriving DecidableEq, Repr

inductive TokenError where
  | permissionMismatch (ownerUid expectedUid : ℕ)
  | ioError
  deriving DecidableEq, Repr

inductive TokenPhase where
  | lookup (rotate : Bool)
  | verifyOwnership
  | read
  | unlink
  | create
  | write (inode : ℕ) (token : Text)
  | close (token : Text)
  | serving (token : Text)
  | threw (err : TokenError)
  deriving DecidableEq, Repr

structure TokenDir where
  file : Option TokenFile
  nextInode : ℕ
  deriving DecidableEq, Repr

structure TokenEnv where
  fault : Bool
  bytes : Fin 32 → Fin 256

def hexDigits : Text := ['0','1','2','3','4','5','6','7','8','9','a','b','c','d','e','f']

def hexByte (b : Fin 256) : Text := [hexDigits.getD (b.val / 16) '0',hexDigits.getD (b.val % 16) '0']

def hex (bytes : Fin 32 → Fin 256) : Text := (List.ofFn bytes).flatMap hexByte

def TokenEnv.found (env : TokenEnv) (d : TokenDir) : Option TokenFile := if env.fault then none else d.file

def verifyTokenOwnership (uid : Option ℕ) (stat : Option TokenFile) : Except TokenError Unit :=
  match stat,uid with
  | some f,some expected => if f.owner = expected then .ok () else .error (.permissionMismatch f.owner expected)
  | _,_ => .ok ()

def TokenFile.write (inode : ℕ) (token : Text) (f : TokenFile) : TokenFile :=
  if f.inode = inode then { f with content := token } else f

def ensureToken (uid : Option ℕ) (env : TokenEnv) (d : TokenDir) : TokenPhase → Option (TokenPhase × TokenDir)
  | .lookup rotate =>
    if (env.found d).isNone then some (.create,d) else some (if rotate then .unlink else .verifyOwnership,d)
  | .verifyOwnership =>
    match verifyTokenOwnership uid (env.found d) with
    | .error err => some (.threw err,d)
    | .ok () => some (.read,d)
  | .read =>
    match env.found d with
    | none => some (.threw .ioError,d)
    | some f => some (.serving (trim f.content),d)
  | .unlink => some (.create,if env.fault then d else { d with file := none })
  | .create =>
    match d.file with
    | some _ => some (.threw .ioError,d)
    | none =>
      if env.fault then some (.threw .ioError,d)
      else some (.write d.nextInode (hex env.bytes),⟨some ⟨d.nextInode,uid.getD 0,[]⟩,d.nextInode + 1⟩)
  | .write inode token =>
    if env.fault then some (.threw .ioError,d)
    else some (.close token,{ d with file := d.file.map (TokenFile.write inode token) })
  | .close token => some (if env.fault then .threw .ioError else .serving token,d)
  | .serving _ | .threw _ => none

structure TokenWorld where
  dir : TokenDir
  servers : Directory ℕ TokenPhase

inductive TokenAction where
  | start (p : ℕ) (rotate : Bool)
  | step (p : ℕ) (env : TokenEnv)
  | stop (p : ℕ)

def TokenWorld.launched (d : TokenDir) : TokenWorld := ⟨d,fun _ => none⟩

def TokenWorld.step (uid : ℕ → Option ℕ) (w : TokenWorld) : TokenAction → Option TokenWorld
  | .start p rotate =>
    match w.servers p with
    | some _ => none
    | none => some ⟨w.dir,w.servers.link p (.lookup rotate)⟩
  | .step p env =>
    match w.servers p with
    | none => none
    | some phase => (ensureToken (uid p) env w.dir phase).map (fun r => ⟨r.2,w.servers.link p r.1⟩)
  | .stop p => some ⟨w.dir,w.servers.unlink p⟩

def NoRotation (_ : TokenWorld) : TokenAction → Prop
  | .start _ rotate => rotate = false
  | _ => True

def ReadsWritten (w : TokenWorld) : TokenAction → Prop
  | .start _ rotate => rotate = false
  | .step p _ => w.servers p = some .read → ∀ f ∈ w.dir.file, trim f.content ≠ []
  | .stop _ => True

def StatsOf (p : ℕ) (w : TokenWorld) : TokenAction → Prop
  | .start _ rotate => rotate = false
  | .step q env => q = p → w.servers p = some .verifyOwnership → env.fault = false
  | .stop _ => True

instance (w : TokenWorld) (a : TokenAction) : Decidable (NoRotation w a) := by
  cases a <;> unfold NoRotation <;> infer_instance

instance (w : TokenWorld) (a : TokenAction) : Decidable (ReadsWritten w a) := by
  cases a <;> unfold ReadsWritten <;> infer_instance

instance (p : ℕ) (w : TokenWorld) (a : TokenAction) : Decidable (StatsOf p w a) := by
  cases a <;> unfold StatsOf <;> infer_instance

section Texts

variable {t content : Text} {req : Request} {bytes : Fin 32 → Fin 256}

theorem digit_mem (n : ℕ) : hexDigits.getD n '0' ∈ hexDigits := by
  rw [List.getD_eq_getElem?_getD]
  cases h : hexDigits[n]? with
  | none => decide
  | some c => exact List.mem_of_getElem? h

theorem hexDigits_visible {c : Char} (h : c ∈ hexDigits) : jsSpace c = false := by
  have hlisted : c ∈ ['0','1','2','3','4','5','6','7','8','9','a','b','c','d','e','f'] := h
  fin_cases hlisted <;> rfl

theorem hex_visible : ∀ c ∈ hex bytes, jsSpace c = false := by
  intro c hc
  obtain ⟨b,-,hc⟩ := List.mem_flatMap.mp hc
  rcases List.mem_cons.mp hc with rfl | hc
  · exact hexDigits_visible (digit_mem _)
  · rw [List.mem_singleton.mp hc]
    exact hexDigits_visible (digit_mem _)

theorem hex_ne_nil : hex bytes ≠ [] := by
  rw [hex,List.ofFn_succ,List.flatMap_cons]
  exact List.cons_ne_nil _ _

theorem dropWhile_visible (h : ∀ c ∈ t, jsSpace c = false) : t.dropWhile jsSpace = t := by
  cases t with
  | nil => rfl
  | cons c t => exact List.dropWhile_cons_of_neg (by simp [h c List.mem_cons_self])

theorem trim_visible (h : ∀ c ∈ t, jsSpace c = false) : trim t = t := by
  rw [trim,dropWhile_visible h,dropWhile_visible (fun c hc => h c (List.mem_reverse.mp hc)),List.reverse_reverse]

theorem authorized_bearer (h : req.authorization = some ("Bearer ".toList ++ content)) :
    authorized req t = decide (trim content = t) := by
  have hstarts : "Bearer ".toList.isPrefixOf ("Bearer ".toList ++ content) = true :=
    List.isPrefixOf_iff_prefix.mpr (List.prefix_append _ _)
  have hdrop : ("Bearer ".toList ++ content).drop "Bearer ".length = content := List.drop_left
  simp only [authorized,h,Option.getD_some,hstarts,hdrop,Bool.not_true,Bool.false_eq_true,if_false]

end Texts

def ReadPhase (f : TokenFile) : TokenPhase → Prop
  | .lookup rotate => rotate = false
  | .verifyOwnership | .read | .create | .threw _ => True
  | .serving token => token = trim f.content
  | .unlink | .write _ _ | .close _ => False

structure Kept (f : TokenFile) (w : TokenWorld) : Prop where
  file : w.dir.file = some f
  servers : ∀ p phase, w.servers p = some phase → ReadPhase f phase

def Refusing (f : TokenFile) (expected : ℕ) : TokenPhase → Prop
  | .lookup rotate => rotate = false
  | .verifyOwnership | .create => True
  | .threw err => err = .ioError ∨ err = .permissionMismatch f.owner expected
  | .read | .unlink | .write _ _ | .close _ | .serving _ => False

structure Shut (f : TokenFile) (expected p : ℕ) (w : TokenWorld) : Prop where
  kept : Kept f w
  server : ∀ phase, w.servers p = some phase → Refusing f expected phase

section Steps

variable {uid : ℕ → Option ℕ} {w w' : TokenWorld} {a : TokenAction}

theorem TokenWorld.step_cases (hstep : w.step uid a = some w') :
    (∃ p rotate, a = .start p rotate ∧ w' = ⟨w.dir,w.servers.link p (.lookup rotate)⟩) ∨
    (∃ p env phase r, a = .step p env ∧ w.servers p = some phase ∧ ensureToken (uid p) env w.dir phase = some r ∧
      w' = ⟨r.2,w.servers.link p r.1⟩) ∨
    ∃ p, a = .stop p ∧ w' = ⟨w.dir,w.servers.unlink p⟩ := by
  cases a with
  | start p rotate =>
    cases hp : w.servers p with
    | some phase =>
      simp only [TokenWorld.step,hp] at hstep
      cases hstep
    | none =>
      simp only [TokenWorld.step,hp] at hstep
      cases hstep
      exact .inl ⟨p,rotate,rfl,rfl⟩
  | step p env =>
    cases hp : w.servers p with
    | none =>
      simp only [TokenWorld.step,hp] at hstep
      cases hstep
    | some phase =>
      simp only [TokenWorld.step,hp] at hstep
      obtain ⟨r,hr,rfl⟩ := Option.map_eq_some_iff.mp hstep
      exact .inr (.inl ⟨p,env,phase,r,rfl,hp,hr,rfl⟩)
  | stop p =>
    cases hstep
    exact .inr (.inr ⟨p,rfl,rfl⟩)

end Steps

section Existing

variable {uid : ℕ → Option ℕ} {u : Option ℕ} {env : TokenEnv} {d : TokenDir} {f : TokenFile} {phase : TokenPhase}
  {r : TokenPhase × TokenDir} {w w' : TokenWorld} {a : TokenAction} {p expected : ℕ}

theorem found_cases (hfile : d.file = some f) : env.found d = none ∨ env.found d = some f := by
  unfold TokenEnv.found
  split_ifs
  · exact .inl rfl
  · exact .inr hfile

theorem ensureToken_kept (hfile : d.file = some f) (h : ReadPhase f phase)
    (hstep : ensureToken u env d phase = some r) :
    r.2 = d ∧ ReadPhase f r.1 := by
  cases phase with
  | lookup rotate =>
    have hkeep : rotate = false := h
    subst hkeep
    simp only [ensureToken,Bool.false_eq_true,if_false] at hstep
    split_ifs at hstep <;> cases hstep <;> exact ⟨rfl,trivial⟩
  | verifyOwnership =>
    simp only [ensureToken] at hstep
    split at hstep <;> cases hstep <;> exact ⟨rfl,trivial⟩
  | read =>
    have hcases : env.found d = none ∨ env.found d = some f := found_cases hfile
    rcases hcases with hfound | hfound
    · simp only [ensureToken,hfound] at hstep
      cases hstep
      exact ⟨rfl,trivial⟩
    · simp only [ensureToken,hfound] at hstep
      cases hstep
      exact ⟨rfl,rfl⟩
  | create =>
    simp only [ensureToken,hfile] at hstep
    cases hstep
    exact ⟨rfl,trivial⟩
  | unlink | write inode token | close token => exact absurd h id
  | serving token | threw err => cases hstep

theorem Kept.step (h : Kept f w) (hok : NoRotation w a) (hstep : w.step uid a = some w') : Kept f w' := by
  rcases TokenWorld.step_cases hstep with ⟨p,rotate,rfl,rfl⟩ | ⟨p,env,phase,r,rfl,hp,hr,rfl⟩ | ⟨p,rfl,rfl⟩
  · refine ⟨h.file,fun q phase hq => ?_⟩
    rcases Directory.link_eq_some.mp hq with ⟨-,rfl⟩ | ⟨-,hq⟩
    · exact hok
    · exact h.servers q phase hq
  · obtain ⟨hdir,hphase⟩ := ensureToken_kept h.file (h.servers p phase hp) hr
    refine ⟨by rw [hdir]; exact h.file,fun q other hq => ?_⟩
    rcases Directory.link_eq_some.mp hq with ⟨-,rfl⟩ | ⟨-,hq⟩
    · exact hphase
    · exact h.servers q other hq
  · exact ⟨h.file,fun q phase hq => h.servers q phase (Directory.unlink_eq_some.mp hq).2⟩

theorem Kept.launched (hfile : d.file = some f) : Kept f (.launched d) := ⟨hfile,fun _ _ h => by cases h⟩

theorem ensureToken_refusing (hfile : d.file = some f) (hforeign : f.owner ≠ expected)
    (hstat : phase = .verifyOwnership → env.fault = false) (h : Refusing f expected phase)
    (hstep : ensureToken (some expected) env d phase = some r) : Refusing f expected r.1 := by
  cases phase with
  | lookup rotate =>
    have hkeep : rotate = false := h
    subst hkeep
    simp only [ensureToken,Bool.false_eq_true,if_false] at hstep
    split_ifs at hstep <;> cases hstep <;> exact trivial
  | verifyOwnership =>
    have hfound : env.found d = some f := by rw [TokenEnv.found,hstat rfl,if_neg Bool.false_ne_true,hfile]
    have hrefused : verifyTokenOwnership (some expected) (some f) = .error (.permissionMismatch f.owner expected) :=
      if_neg hforeign
    simp only [ensureToken,hfound,hrefused] at hstep
    cases hstep
    exact .inr rfl
  | create =>
    simp only [ensureToken,hfile] at hstep
    cases hstep
    exact .inl rfl
  | read | unlink | write inode token | close token | serving token => exact absurd h id
  | threw err => cases hstep

theorem Shut.step (huid : uid p = some expected) (hforeign : f.owner ≠ expected) (h : Shut f expected p w)
    (hok : StatsOf p w a) (hstep : w.step uid a = some w') : Shut f expected p w' := by
  have hrotation : NoRotation w a := by
    cases a with
    | start q rotate => exact hok
    | step q env | stop q => trivial
  refine ⟨h.kept.step hrotation hstep,fun phase hphase => ?_⟩
  rcases TokenWorld.step_cases hstep with ⟨q,rotate,rfl,rfl⟩ | ⟨q,env,before,r,rfl,hq,hr,rfl⟩ | ⟨q,rfl,rfl⟩
  · rcases Directory.link_eq_some.mp hphase with ⟨-,rfl⟩ | ⟨-,hold⟩
    · exact hok
    · exact h.server phase hold
  · rcases Directory.link_eq_some.mp hphase with ⟨rfl,rfl⟩ | ⟨-,hold⟩
    · rw [huid] at hr
      exact ensureToken_refusing h.kept.file hforeign (fun hverify => hok rfl (hverify ▸ hq)) (h.server before hq) hr
    · exact h.server phase hold
  · exact h.server phase (Directory.unlink_eq_some.mp hphase).2

end Existing

def plainStep (p : ℕ) : TokenAction := .step p ⟨false,fun _ => 0⟩

theorem foreign_token_refused {uid : ℕ → Option ℕ} {d : TokenDir} {f : TokenFile} (hfile : d.file = some f)
    {p expected : ℕ} (huid : uid p = some expected) (hforeign : f.owner ≠ expected) {as : List TokenAction}
    {w : TokenWorld} (hrun : Run (TokenWorld.step uid) (StatsOf p) (.launched d) as w) :
    w.dir.file = some f ∧ (∀ token, w.servers p ≠ some (.serving token)) ∧
      ∀ err, w.servers p = some (.threw err) → err = .ioError ∨ err = .permissionMismatch f.owner expected := by
  have h : Shut f expected p w := hrun.invariant (I := Shut f expected p)
    (fun _ _ _ ht hok hstep => ht.step huid hforeign hok hstep) ⟨.launched hfile,fun _ h => by cases h⟩
  exact ⟨h.kept.file,fun token hp => h.server _ hp,fun err hp => h.server _ hp⟩

theorem foreign_token_refused_sample : ∃ w : TokenWorld,
    w.servers 1 = some (.threw (.permissionMismatch 1001 1000)) ∧ w.dir.file = some ⟨0,1001,['a']⟩ ∧
      (∀ token, w.servers 1 ≠ some (.serving token)) ∧
      ∀ err, w.servers 1 = some (.threw err) → err = .ioError ∨ err = .permissionMismatch 1001 1000 := by
  have hrun : (exec (guarded (StatsOf 1) (TokenWorld.step (fun _ => some 1000)))
      (.launched ⟨some ⟨0,1001,['a']⟩,1⟩) [.start 1 false,plainStep 1,plainStep 1]).any
      (fun w => decide (w.servers 1 = some (.threw (.permissionMismatch 1001 1000)))) = true := by
    decide
  obtain ⟨w,hw,hobs⟩ := (Option.any_eq_true _ _).mp hrun
  exact ⟨w,of_decide_eq_true hobs,
    @foreign_token_refused (fun _ => some 1000) _ ⟨0,1001,['a']⟩ rfl 1 1000 rfl (by decide) _ _ (run_of_guarded hw)⟩

def TokenPhase.token? : TokenPhase → Option Text
  | .close token | .serving token => some token
  | _ => none

def Shared (d : TokenDir) (token : Text) : Prop := token ≠ [] ∧ ∃ f, d.file = some f ∧ trim f.content = token

structure OneToken (w : TokenWorld) : Prop where
  rotating : ∀ p phase, w.servers p = some phase → phase ≠ .lookup true ∧ phase ≠ .unlink
  generated : ∀ p inode token, w.servers p = some (.write inode token) → token ≠ [] ∧ trim token = token
  claimed : ∀ p inode token, w.servers p = some (.write inode token) →
    ∃ f, w.dir.file = some f ∧ f.inode = inode ∧ f.content = []
  alone : ∀ p q i j t u, w.servers p = some (.write i t) → w.servers q = some (.write j u) → p = q
  shared : ∀ p phase, w.servers p = some phase → ∀ token ∈ phase.token?, Shared w.dir token

section OneToken

variable {uid : ℕ → Option ℕ} {w w' : TokenWorld} {a : TokenAction} {p inode owner next : ℕ} {phase q : TokenPhase}
  {token : Text} {d : TokenDir}

theorem OneToken.launched (d : TokenDir) : OneToken (.launched d) where
  rotating := fun _ _ h => by cases h
  generated := fun _ _ _ h => by cases h
  claimed := fun _ _ _ h => by cases h
  alone := fun _ _ _ _ _ _ h => by cases h
  shared := fun _ _ h => by cases h

theorem OneToken.unlink (h : OneToken w) (p : ℕ) : OneToken ⟨w.dir,w.servers.unlink p⟩ where
  rotating := fun _ _ hq => h.rotating _ _ (Directory.unlink_eq_some.mp hq).2
  generated := fun _ _ _ hq => h.generated _ _ _ (Directory.unlink_eq_some.mp hq).2
  claimed := fun _ _ _ hq => h.claimed _ _ _ (Directory.unlink_eq_some.mp hq).2
  alone := fun _ _ _ _ _ _ hq hr =>
    h.alone _ _ _ _ _ _ (Directory.unlink_eq_some.mp hq).2 (Directory.unlink_eq_some.mp hr).2
  shared := fun _ _ hq => h.shared _ _ (Directory.unlink_eq_some.mp hq).2

theorem OneToken.quiet (h : OneToken w) (hrotating : q ≠ .lookup true ∧ q ≠ .unlink)
    (hwrite : ∀ inode token, q ≠ .write inode token) (hshared : ∀ token ∈ q.token?, Shared w.dir token) :
    OneToken ⟨w.dir,w.servers.link p q⟩ := by
  have hold : ∀ b i t, w.servers.link p q b = some (.write i t) → w.servers b = some (.write i t) := by
    intro b i t hb
    rcases Directory.link_eq_some.mp hb with ⟨-,hq⟩ | ⟨-,hb⟩
    · exact absurd hq (hwrite i t)
    · exact hb
  refine ⟨fun b phase hb => ?_,fun b i t hb => h.generated b i t (hold b i t hb),
    fun b i t hb => h.claimed b i t (hold b i t hb),
    fun b c i j t u hb hc => h.alone b c i j t u (hold b i t hb) (hold c j u hc),fun b phase hb => ?_⟩
  · rcases Directory.link_eq_some.mp hb with ⟨-,rfl⟩ | ⟨-,hb⟩
    · exact hrotating
    · exact h.rotating b phase hb
  · rcases Directory.link_eq_some.mp hb with ⟨-,rfl⟩ | ⟨-,hb⟩
    · exact hshared
    · exact h.shared b phase hb

theorem OneToken.made (h : OneToken w) (hnone : w.dir.file = none) (htoken : token ≠ [] ∧ trim token = token) :
    OneToken ⟨⟨some ⟨inode,owner,[]⟩,next⟩,w.servers.link p (.write inode token)⟩ := by
  have hsole : ∀ b i t, w.servers.link p (.write inode token) b = some (.write i t) →
      b = p ∧ i = inode ∧ t = token := by
    intro b i t hb
    rcases Directory.link_eq_some.mp hb with ⟨hbp,hq⟩ | ⟨-,hb⟩
    · cases hq
      exact ⟨hbp,rfl,rfl⟩
    · obtain ⟨f,hf,-⟩ := h.claimed b i t hb
      cases hnone.symm.trans hf
  refine ⟨fun b phase hb => ?_,fun b i t hb => ?_,fun b i t hb => ?_,fun b c i j t u hb hc => ?_,fun b phase hb => ?_⟩
  · rcases Directory.link_eq_some.mp hb with ⟨-,rfl⟩ | ⟨-,hb⟩
    · exact ⟨TokenPhase.noConfusion,TokenPhase.noConfusion⟩
    · exact h.rotating b phase hb
  · obtain ⟨-,-,rfl⟩ := hsole b i t hb
    exact htoken
  · obtain ⟨-,rfl,-⟩ := hsole b i t hb
    exact ⟨_,rfl,rfl,rfl⟩
  · exact (hsole b i t hb).1.trans (hsole c j u hc).1.symm
  · rcases Directory.link_eq_some.mp hb with ⟨-,rfl⟩ | ⟨-,hb⟩
    · exact fun _ ht => absurd ht (Option.not_mem_none _)
    · intro t ht
      obtain ⟨-,f,hf,-⟩ := h.shared b phase hb t ht
      cases hnone.symm.trans hf

theorem OneToken.written (h : OneToken w) (hp : w.servers p = some (.write inode token)) :
    OneToken ⟨{ w.dir with file := w.dir.file.map (TokenFile.write inode token) },
      w.servers.link p (.close token)⟩ := by
  obtain ⟨f,hf,rfl,hempty⟩ := h.claimed p inode token hp
  obtain ⟨hne,htrim⟩ := h.generated p f.inode token hp
  have hwritten : w.dir.file.map (TokenFile.write f.inode token) = some { f with content := token } := by
    rw [hf,Option.map_some,TokenFile.write,if_pos rfl]
  have hnone : ∀ b i t, w.servers.link p (.close token) b ≠ some (.write i t) := by
    intro b i t hb
    rcases Directory.link_eq_some.mp hb with ⟨-,hq⟩ | ⟨hbp,hb⟩
    · cases hq
    · exact hbp (h.alone b p i f.inode t token hb hp)
  refine ⟨fun b phase hb => ?_,fun b i t hb => absurd hb (hnone b i t),fun b i t hb => absurd hb (hnone b i t),
    fun b c i j t u hb => absurd hb (hnone b i t),fun b phase hb t ht => ?_⟩
  · rcases Directory.link_eq_some.mp hb with ⟨-,rfl⟩ | ⟨-,hb⟩
    · exact ⟨TokenPhase.noConfusion,TokenPhase.noConfusion⟩
    · exact h.rotating b phase hb
  · rcases Directory.link_eq_some.mp hb with ⟨-,rfl⟩ | ⟨-,hb⟩
    · cases ht
      exact ⟨hne,_,hwritten,htrim⟩
    · -- the file was still empty, so no server held a token yet
      obtain ⟨hfull,g,hg,hcontent⟩ := h.shared b phase hb t ht
      cases hf.symm.trans hg
      rw [hempty] at hcontent
      exact absurd hcontent.symm hfull

theorem OneToken.step (h : OneToken w) (hok : ReadsWritten w a) (hstep : w.step uid a = some w') : OneToken w' := by
  rcases TokenWorld.step_cases hstep with ⟨p,rotate,rfl,rfl⟩ | ⟨p,env,phase,r,rfl,hp,hr,rfl⟩ | ⟨p,rfl,rfl⟩
  · have hkeep : rotate = false := hok
    subst hkeep
    exact h.quiet ⟨by simp,by simp⟩ (by simp) (by simp [TokenPhase.token?])
  · cases phase with
    | lookup rotate =>
      have hkeep : rotate = false := Bool.eq_false_iff.mpr fun hrotate => (h.rotating p _ hp).1 (hrotate ▸ rfl)
      subst hkeep
      simp only [ensureToken,Bool.false_eq_true,if_false] at hr
      split_ifs at hr <;> cases hr <;> exact h.quiet ⟨by simp,by simp⟩ (by simp) (by simp [TokenPhase.token?])
    | verifyOwnership =>
      simp only [ensureToken] at hr
      split at hr <;> cases hr <;> exact h.quiet ⟨by simp,by simp⟩ (by simp) (by simp [TokenPhase.token?])
    | read =>
      simp only [ensureToken] at hr
      split at hr <;> rename_i hfound <;> cases hr
      · exact h.quiet ⟨by simp,by simp⟩ (by simp) (by simp [TokenPhase.token?])
      · refine h.quiet ⟨by simp,by simp⟩ (by simp) fun t ht => ?_
        cases ht
        have hfile := (Option.ite_none_left_eq_some.mp hfound).2
        exact ⟨hok hp _ hfile,_,hfile,rfl⟩
    | unlink => exact absurd rfl (h.rotating p _ hp).2
    | create =>
      cases hfile : w.dir.file with
      | some f =>
        simp only [ensureToken,hfile] at hr
        cases hr
        exact h.quiet ⟨by simp,by simp⟩ (by simp) (by simp [TokenPhase.token?])
      | none =>
        simp only [ensureToken,hfile] at hr
        split_ifs at hr <;> cases hr
        · exact h.quiet ⟨by simp,by simp⟩ (by simp) (by simp [TokenPhase.token?])
        · exact h.made hfile ⟨hex_ne_nil,trim_visible hex_visible⟩
    | write inode token =>
      simp only [ensureToken] at hr
      split_ifs at hr <;> cases hr
      · exact h.quiet ⟨by simp,by simp⟩ (by simp) (by simp [TokenPhase.token?])
      · exact h.written hp
    | close token =>
      simp only [ensureToken] at hr
      have hshared := h.shared p _ hp
      split_ifs at hr <;> cases hr
      · exact h.quiet ⟨by simp,by simp⟩ (by simp) (by simp [TokenPhase.token?])
      · exact h.quiet ⟨by simp,by simp⟩ (by simp) hshared
    | serving token | threw err => cases hr
  · exact h.unlink p

end OneToken

theorem token_shared {uid : ℕ → Option ℕ} {d : TokenDir} {as : List TokenAction} {w : TokenWorld}
    (hrun : Run (TokenWorld.step uid) ReadsWritten (.launched d) as w) {p : ℕ} {token : Text}
    (hp : w.servers p = some (.serving token)) :
    token ≠ [] ∧ ∃ f, w.dir.file = some f ∧ token = trim f.content ∧
      (∀ q token', w.servers q = some (.serving token') → token' = token) ∧
      ∀ req : Request, req.authorization = some ("Bearer ".toList ++ f.content) → authorized req token = true := by
  have h : OneToken w := hrun.invariant (I := OneToken) (fun _ _ _ ht hok hstep => ht.step hok hstep) (.launched d)
  obtain ⟨hne,f,hf,hcontent⟩ := h.shared p _ hp token rfl
  refine ⟨hne,f,hf,hcontent.symm,fun q token' hq => ?_,fun req hreq => ?_⟩
  · obtain ⟨-,g,hg,hcontent'⟩ := h.shared q _ hq token' rfl
    cases hf.symm.trans hg
    exact hcontent'.symm.trans hcontent
  · rw [authorized_bearer hreq,hcontent,decide_eq_true rfl]

theorem token_shared_sample : ∃ (w : TokenWorld) (token : Text),
    w.servers 1 = some (.serving token) ∧ w.servers 2 = some (.serving token) ∧ token ≠ [] ∧
      ∃ f, w.dir.file = some f ∧ token = trim f.content ∧
        (∀ q token', w.servers q = some (.serving token') → token' = token) ∧
        ∀ req : Request, req.authorization = some ("Bearer ".toList ++ f.content) → authorized req token = true := by
  have hrun : (exec (guarded ReadsWritten (TokenWorld.step (fun _ => some 1000))) (.launched ⟨none,0⟩)
      [.start 1 false,.start 2 false,plainStep 1,plainStep 1,plainStep 2,plainStep 2,plainStep 1,plainStep 2,
        plainStep 1]).any
      (fun w => decide (w.servers 1 = some (.serving (hex fun _ => 0))) &&
        decide (w.servers 2 = some (.serving (hex fun _ => 0)))) = true := by
    decide +kernel
  obtain ⟨w,hw,hobs⟩ := (Option.any_eq_true _ _).mp hrun
  obtain ⟨hfirst,hsecond⟩ := Bool.and_eq_true_iff.mp hobs
  exact ⟨w,_,of_decide_eq_true hfirst,of_decide_eq_true hsecond,
    token_shared (run_of_guarded hw) (of_decide_eq_true hfirst)⟩

end WickedBus.Ui
