import WickedBus.Atomic
import WickedBus.Foundation.GuardedRun

namespace WickedBus

open GuardedRun

abbrev Bytes := List UInt8

inductive CasContent where
  | buffer (bytes : Bytes)
  | string (text : String)
  | other (type : String)

inductive PutError where
  | notContent (received : String)
  | payloadTooLarge (size cap : ℕ)
  | os (code : ErrorCode)
  deriving DecidableEq, Repr

def defaultObjectMaxBytes : ℕ := 256 * 1024 * 1024

def ensureBuffer : CasContent → Except PutError Bytes
  | .buffer bytes => .ok bytes
  | .string text => .ok text.toUTF8.toList
  | .other type => .error (.notContent type)

inductive CasPath (S : Type) where
  | blob (sha : S)
  | tmp (sha : S) (pid : ℕ) (now : ℤ)
  deriving DecidableEq, Repr

inductive PutPhase where
  | existing
  | mkdir
  | openTmp (now : ℤ)
  | write (now : ℤ) (fd : ℕ)
  | fsync (now : ℤ) (fd : ℕ)
  | rename (now : ℤ) (fd : ℕ)
  | clearTarget (now : ℤ) (fd attempt : ℕ)
  | retryRename (now : ℤ) (fd attempt : ℕ)
  | cleanTmp (now : ℤ) (fd : ℕ) (code : ErrorCode)
  | returned
  | thrown (e : PutError)
  deriving DecidableEq, Repr

structure PutRequest where
  content : CasContent
  maxBytes : Option ℕ
  pid : ℕ
  win32 : Bool

structure PutCall where
  bytes : Bytes
  pid : ℕ
  win32 : Bool
  phase : PutPhase
  deriving DecidableEq, Repr

structure PutEnv where
  fault : Option ErrorCode
  written : ℕ
  now : ℤ

structure BlobFiles (S : Type) where
  dir : Directory (CasPath S) ℕ
  data : ℕ → Bytes
  next : ℕ

def PutRequest.begin (r : PutRequest) : PutCall :=
  match ensureBuffer r.content with
  | .error e => ⟨[],r.pid,r.win32,.thrown e⟩
  | .ok buf =>
    let cap := r.maxBytes.getD defaultObjectMaxBytes
    ⟨buf,r.pid,r.win32,if cap < buf.length then .thrown (.payloadTooLarge buf.length cap) else .existing⟩

def casSwallowCodes : List ErrorCode := ["EEXIST"]

section Calls

variable {S : Type} [DecidableEq S]

def PutCall.target (sha256 : Bytes → S) (c : PutCall) : CasPath S := .blob (sha256 c.bytes)

def PutCall.tmp (sha256 : Bytes → S) (c : PutCall) (now : ℤ) : CasPath S := .tmp (sha256 c.bytes) c.pid now

def BlobFiles.create (f : BlobFiles S) (p : CasPath S) : BlobFiles S where
  dir := f.dir.link p f.next
  data := Function.update f.data f.next []
  next := f.next + 1

def BlobFiles.append (f : BlobFiles S) (fd : ℕ) (bytes : Bytes) : BlobFiles S :=
  { f with data := Function.update f.data fd (f.data fd ++ bytes) }

def BlobFiles.redirect (f : BlobFiles S) (dir : Directory (CasPath S) ℕ) : BlobFiles S := { f with dir := dir }

def BlobFiles.get (f : BlobFiles S) (sha : S) : Option Bytes := (f.dir (.blob sha)).map f.data

def openTmp (sha256 : Bytes → S) (env : PutEnv) (f : BlobFiles S) (c : PutCall) (now : ℤ) :
    PutPhase × BlobFiles S :=
  match env.fault with
  | some code => (.thrown (.os code),f)
  | none =>
    if (f.dir (c.tmp sha256 now)).isSome then (.thrown (.os "EEXIST"),f)
    else (.write now f.next,f.create (c.tmp sha256 now))

def placeTmp (sha256 : Bytes → S) (env : PutEnv) (f : BlobFiles S) (c : PutCall) (now : ℤ)
    (refused : ErrorCode → PutPhase) : PutPhase × BlobFiles S :=
  match renameSync env.fault f.dir (c.tmp sha256 now) (c.target sha256) with
  | .ok placed => (.returned,f.redirect placed)
  | .error code => (refused code,f)

def proceed (env : PutEnv) (next : PutPhase) : PutPhase :=
  match env.fault with
  | some code => .thrown (.os code)
  | none => next

def putStep (sha256 : Bytes → S) (env : PutEnv) (f : BlobFiles S) (c : PutCall) : Option (PutPhase × BlobFiles S) :=
  match c.phase with
  | .existing => some (if env.fault = none ∧ (f.dir (c.target sha256)).isSome then .returned else .mkdir,f)
  | .mkdir => some (proceed env (.openTmp env.now),f)
  | .openTmp now => some (openTmp sha256 env f c now)
  | .write now fd => some (proceed env (.fsync now fd),f.append fd (c.bytes.take env.written))
  | .fsync now fd => some (proceed env (.rename now fd),f)
  | .rename now fd =>
    some (placeTmp sha256 env f c now fun code =>
      if c.win32 = true ∧ code ∈ replaceCodes then .clearTarget now fd 0 else .cleanTmp now fd code)
  | .clearTarget now fd attempt =>
    some (.retryRename now fd attempt,f.redirect (tryUnlink env.fault f.dir (c.target sha256)))
  | .retryRename now fd attempt =>
    some (placeTmp sha256 env f c now fun code =>
      if code = "EBUSY" ∧ attempt < win32EbusyRetries then .clearTarget now fd (attempt + 1)
      else .cleanTmp now fd code)
  | .cleanTmp now _ code =>
    some (if code ∈ casSwallowCodes then .returned else .thrown (.os code),
      f.redirect (tryUnlink env.fault f.dir (c.tmp sha256 now)))
  | .returned => none
  | .thrown _ => none

end Calls

def RenameResult.phase : RenameResult → PutPhase
  | .returned _ => .returned
  | .thrown code => .thrown (.os code)

section Alone

variable {S : Type} [DecidableEq S] {sha256 : Bytes → S} {c : PutCall} {now : ℤ} {fd : ℕ}

def PutCall.alone (sha256 : Bytes → S) (c : PutCall) (r : PutPhase × BlobFiles S) (env : PutEnv) :
    Option (PutPhase × BlobFiles S) :=
  putStep sha256 env r.2 { c with phase := r.1 }

def PutCall.renameCall (sha256 : Bytes → S) (c : PutCall) (now : ℤ) : RenameCall (CasPath S) :=
  ⟨c.tmp sha256 now,c.target sha256,c.win32,casSwallowCodes⟩

def faultEnv (fault : Option ErrorCode) : PutEnv := ⟨fault,0,0⟩

def looped (now : ℤ) (fd : ℕ) (files : BlobFiles S) : Directory (CasPath S) ℕ × Option ErrorCode → PutPhase × BlobFiles S
  | (placed,none) => (.returned,files.redirect placed)
  | (d,some code) => (.cleanTmp now fd code,files.redirect d)

theorem alone_placed {files : BlobFiles S} {attempt : ℕ} {d placed : Directory (CasPath S) ℕ}
    {unlinked renamed : Option ErrorCode}
    (hr : renameSync renamed (tryUnlink unlinked d (c.target sha256)) (c.tmp sha256 now) (c.target sha256) =
      .ok placed) :
    exec (c.alone sha256) (.clearTarget now fd attempt,files.redirect d) [faultEnv unlinked,faultEnv renamed] =
      some (.returned,files.redirect placed) := by
  have hplace : placeTmp sha256 (faultEnv renamed) (files.redirect (tryUnlink unlinked d (c.target sha256))) c now
      (fun code => if code = "EBUSY" ∧ attempt < win32EbusyRetries then .clearTarget now fd (attempt + 1)
        else .cleanTmp now fd code) = (.returned,files.redirect placed) := by
    simp only [placeTmp,BlobFiles.redirect,faultEnv,hr]
  exact congrArg some hplace

theorem alone_refused {files : BlobFiles S} {attempt : ℕ} {d : Directory (CasPath S) ℕ} {code : ErrorCode}
    {unlinked renamed : Option ErrorCode} (envs : List PutEnv)
    (hr : renameSync renamed (tryUnlink unlinked d (c.target sha256)) (c.tmp sha256 now) (c.target sha256) =
      .error code) :
    exec (c.alone sha256) (.clearTarget now fd attempt,files.redirect d)
        (faultEnv unlinked :: faultEnv renamed :: envs) =
      exec (c.alone sha256) (if code = "EBUSY" ∧ attempt < win32EbusyRetries then .clearTarget now fd (attempt + 1)
        else .cleanTmp now fd code,files.redirect (tryUnlink unlinked d (c.target sha256))) envs := by
  have hplace : placeTmp sha256 (faultEnv renamed) (files.redirect (tryUnlink unlinked d (c.target sha256))) c now
      (fun code => if code = "EBUSY" ∧ attempt < win32EbusyRetries then .clearTarget now fd (attempt + 1)
        else .cleanTmp now fd code) = (if code = "EBUSY" ∧ attempt < win32EbusyRetries then
          .clearTarget now fd (attempt + 1) else .cleanTmp now fd code,
        files.redirect (tryUnlink unlinked d (c.target sha256))) := by
    simp only [placeTmp,BlobFiles.redirect,faultEnv,hr]
  exact congrArg (exec (c.alone sha256) · envs) hplace

theorem alone_replaceLoop (f : RenameFaults) (files : BlobFiles S) (left attempt : ℕ) (d : Directory (CasPath S) ℕ)
    (hleft : attempt + left = win32EbusyRetries) :
    ∃ envs, exec (c.alone sha256) (.clearTarget now fd attempt,files.redirect d) envs =
      some (looped now fd files (replaceLoop (c.renameCall sha256 now) f left attempt d)) := by
  induction left generalizing attempt d with
  | zero =>
    rw [replaceLoop]
    cases hr : renameSync (f.rename (attempt + 1)) (tryUnlink (f.unlinkTarget attempt) d (c.target sha256))
      (c.tmp sha256 now) (c.target sha256) with
    | ok placed =>
      simp only [PutCall.renameCall,hr]
      exact ⟨_,alone_placed hr⟩
    | error code =>
      simp only [PutCall.renameCall,hr]
      have hlast : ¬ (code = "EBUSY" ∧ attempt < win32EbusyRetries) := fun h => absurd h.2 (by omega)
      refine ⟨[faultEnv (f.unlinkTarget attempt),faultEnv (f.rename (attempt + 1))],?_⟩
      rw [alone_refused [] hr,if_neg hlast]
      rfl
  | succ left ih =>
    rw [replaceLoop]
    cases hr : renameSync (f.rename (attempt + 1)) (tryUnlink (f.unlinkTarget attempt) d (c.target sha256))
      (c.tmp sha256 now) (c.target sha256) with
    | ok placed =>
      simp only [PutCall.renameCall,hr]
      exact ⟨_,alone_placed hr⟩
    | error code =>
      simp only [PutCall.renameCall,hr]
      by_cases hbusy : code = "EBUSY"
      · obtain ⟨envs,henvs⟩ := ih (attempt + 1) _ (by omega)
        refine ⟨faultEnv (f.unlinkTarget attempt) :: faultEnv (f.rename (attempt + 1)) :: envs,?_⟩
        rw [alone_refused envs hr,if_pos ⟨hbusy,by omega⟩,if_pos hbusy]
        exact henvs
      · refine ⟨[faultEnv (f.unlinkTarget attempt),faultEnv (f.rename (attempt + 1))],?_⟩
        rw [alone_refused [] hr,if_neg (fun h => hbusy h.1),if_neg hbusy]
        rfl

theorem alone_giveUp (f : RenameFaults) (files : BlobFiles S) (d : Directory (CasPath S) ℕ) (code : ErrorCode) :
    c.alone sha256 (.cleanTmp now fd code,files.redirect d) (faultEnv f.unlinkTmp) =
      some ((giveUp (c.renameCall sha256 now) f d code).2.phase,
        files.redirect (giveUp (c.renameCall sha256 now) f d code).1) := by
  have hresult : (giveUp (c.renameCall sha256 now) f d code).2.phase =
      if code ∈ casSwallowCodes then .returned else .thrown (.os code) := by
    rw [giveUp,apply_ite RenameResult.phase]
    rfl
  rw [hresult]
  rfl

theorem alone_afterLoop (f : RenameFaults) (files : BlobFiles S) {r : Directory (CasPath S) ℕ × Option ErrorCode}
    {start : PutPhase × BlobFiles S} {envs : List PutEnv}
    (h : exec (c.alone sha256) start envs = some (looped now fd files r)) :
    ∃ envs, exec (c.alone sha256) start envs = some ((afterLoop (c.renameCall sha256 now) f r).2.phase,
      files.redirect (afterLoop (c.renameCall sha256 now) f r).1) := by
  obtain ⟨d,_ | lastErr⟩ := r
  · exact ⟨envs,h⟩
  · refine ⟨envs ++ [faultEnv f.unlinkTmp],?_⟩
    rw [exec_snoc,h,Option.bind_some]
    exact alone_giveUp f files d lastErr

theorem alone_atomicRename (f : RenameFaults) (files : BlobFiles S) :
    ∃ envs, exec (c.alone sha256) (.rename now fd,files) envs =
      some ((atomicRename (c.renameCall sha256 now) f files.dir).2.phase,
        files.redirect (atomicRename (c.renameCall sha256 now) f files.dir).1) := by
  cases hr : renameSync (f.rename 0) files.dir (c.tmp sha256 now) (c.target sha256) with
  | ok placed =>
    have hplace : placeTmp sha256 (faultEnv (f.rename 0)) files c now (fun code =>
        if c.win32 = true ∧ code ∈ replaceCodes then .clearTarget now fd 0 else .cleanTmp now fd code) =
        (.returned,files.redirect placed) := by
      simp only [placeTmp,faultEnv,hr]
    simp only [atomicRename,PutCall.renameCall,hr]
    exact ⟨[faultEnv (f.rename 0)],congrArg some hplace⟩
  | error code =>
    have hplace : ∀ envs, exec (c.alone sha256) (.rename now fd,files) (faultEnv (f.rename 0) :: envs) =
        exec (c.alone sha256) (if c.win32 = true ∧ code ∈ replaceCodes then .clearTarget now fd 0
          else .cleanTmp now fd code,files) envs := by
      intro envs
      have hrefused : placeTmp sha256 (faultEnv (f.rename 0)) files c now (fun code =>
          if c.win32 = true ∧ code ∈ replaceCodes then .clearTarget now fd 0 else .cleanTmp now fd code) =
          (if c.win32 = true ∧ code ∈ replaceCodes then .clearTarget now fd 0 else .cleanTmp now fd code,files) := by
        simp only [placeTmp,faultEnv,hr]
      exact congrArg (exec (c.alone sha256) · envs) hrefused
    have hcall : renameSync (f.rename 0) files.dir (c.renameCall sha256 now).tmp (c.renameCall sha256 now).target =
        .error code := hr
    by_cases hspecial : c.win32 = true ∧ code ∈ replaceCodes
    · obtain ⟨envs,henvs⟩ := @alone_replaceLoop S _ sha256 c now fd f files
        win32EbusyRetries 0 files.dir (by omega)
      have hloop := hplace envs
      rw [if_pos hspecial] at hloop
      have hwhole : atomicRename (c.renameCall sha256 now) f files.dir =
          afterLoop (c.renameCall sha256 now) f
            (replaceLoop (c.renameCall sha256 now) f win32EbusyRetries 0 files.dir) := by
        simp only [atomicRename,hcall]
        exact if_pos hspecial
      rw [hwhole]
      exact alone_afterLoop f files (hloop.trans henvs)
    · have hwhole : atomicRename (c.renameCall sha256 now) f files.dir =
          giveUp (c.renameCall sha256 now) f files.dir code := by
        simp only [atomicRename,hcall]
        exact if_neg hspecial
      refine ⟨[faultEnv (f.rename 0),faultEnv f.unlinkTmp],?_⟩
      rw [hplace,if_neg hspecial,hwhole]
      exact alone_giveUp f files files.dir code

end Alone

structure PutStore (S : Type) where
  files : BlobFiles S
  puts : ℕ → Option PutCall

inductive PutAction where
  | call (p : ℕ) (r : PutRequest)
  | advance (p : ℕ) (env : PutEnv)

def PutStore.start {S : Type} (f : BlobFiles S) : PutStore S := ⟨f,fun _ => none⟩

section Store

variable {S : Type} [DecidableEq S]

def PutStore.step (sha256 : Bytes → S) (t : PutStore S) : PutAction → Option (PutStore S)
  | .call p r => if (t.puts p).isSome then none else some { t with puts := Function.update t.puts p (some r.begin) }
  | .advance p env =>
    match t.puts p with
    | none => none
    | some c => (putStep sha256 env t.files c).map (fun r =>
        ⟨r.2,Function.update t.puts p (some { c with phase := r.1 })⟩)

structure PutSound (sha256 : Bytes → S) (t : PutStore S) : Prop where
  blobs : ∀ sha bytes, t.files.get sha = some bytes → sha256 bytes = sha
  roundTrip : ∀ p, ∀ c ∈ t.puts p, c.phase = .returned → t.files.get (sha256 c.bytes) = some c.bytes

def PutPhaseOk (sha256 : Bytes → S) (t : PutStore S) (c : PutCall) (env : PutEnv) : PutPhase → Prop
  | .rename _ fd | .retryRename _ fd _ => env.fault = none → t.files.data fd = c.bytes
  | .clearTarget _ _ _ => env.fault = none → (t.files.dir (c.target sha256)).isSome →
    ∀ q, ∀ d ∈ t.puts q, d.phase = .returned → sha256 d.bytes ≠ sha256 c.bytes
  | .cleanTmp _ _ code => code ∈ casSwallowCodes → (t.files.dir (c.target sha256)).isSome
  | _ => True

def PutOk (sha256 : Bytes → S) (t : PutStore S) : PutAction → Prop
  | .call _ _ => True
  | .advance p env => ∀ c ∈ t.puts p, PutPhaseOk sha256 t c env c.phase

end Store

def PutPhase.handle : PutPhase → Option (ℤ × ℕ)
  | .write now fd | .fsync now fd | .rename now fd | .clearTarget now fd _ | .retryRename now fd _
  | .cleanTmp now fd _ => some (now,fd)
  | _ => none

def KeepsHandle (c : PutCall) (phase : PutPhase) : Prop := phase.handle = c.phase.handle ∨ phase.handle = none

section Reads

variable {S : Type} {sha256 : Bytes → S} {t : PutStore S} {c : PutCall} {phase : PutPhase} {f : BlobFiles S}
variable {p : ℕ} {now : ℤ}

theorem tmp_ne_target (c d : PutCall) : d.tmp sha256 now ≠ c.target sha256 := nofun

theorem blob_ne_tmp (hash : Bytes → S) (c : PutCall) (now : ℤ) (sha : S) : CasPath.blob sha ≠ c.tmp hash now := nofun

def PutStore.advanced (t : PutStore S) (p : ℕ) (c : PutCall) (phase : PutPhase) (f : BlobFiles S) : PutStore S :=
  ⟨f,Function.update t.puts p (some { c with phase := phase })⟩

theorem get_eq_some {sha : S} {bytes : Bytes} :
    f.get sha = some bytes ↔ ∃ i, f.dir (.blob sha) = some i ∧ f.data i = bytes := Option.map_eq_some_iff

theorem get_redirect (dir : Directory (CasPath S) ℕ) (sha : S) :
    (f.redirect dir).get sha = (dir (.blob sha)).map f.data := rfl

theorem get_congr {g : BlobFiles S} (hdir : ∀ sha, f.dir (.blob sha) = g.dir (.blob sha))
    (hdata : ∀ sha i, g.dir (.blob sha) = some i → f.data i = g.data i) (sha : S) : f.get sha = g.get sha := by
  rw [BlobFiles.get,BlobFiles.get,hdir]
  cases hi : g.dir (.blob sha) with
  | none => rfl
  | some i => exact congrArg some (hdata sha i hi)

theorem PutSound.same (h : PutSound sha256 t) (hget : ∀ sha, f.get sha = t.files.get sha)
    (hphase : phase = .returned → t.files.get (sha256 c.bytes) = some c.bytes) :
    PutSound sha256 (t.advanced p c phase f) := by
  refine ⟨fun sha bytes hbytes => h.blobs sha bytes ((hget sha).symm.trans hbytes),fun q d hd hreturned => ?_⟩
  refine (hget _).trans ?_
  rcases Directory.mem_update hd with ⟨-,rfl⟩ | ⟨-,hd⟩
  · exact hphase hreturned
  · exact h.roundTrip q d hd hreturned

theorem PutSound.read (h : PutSound sha256 t) (hinj : Function.Injective sha256) {bytes : Bytes}
    (hget : t.files.get (sha256 c.bytes) = some bytes) : t.files.get (sha256 c.bytes) = some c.bytes := by
  rw [hget,hinj (h.blobs _ bytes hget)]

end Reads

section Effects

variable {S : Type} [DecidableEq S]

inductive PutEffect (sha256 : Bytes → S) (t : PutStore S) (c : PutCall) : PutPhase → BlobFiles S → Prop → Prop
  | quiet (phase : PutPhase) (holds : KeepsHandle c phase) (pending : phase ≠ .returned) :
      PutEffect sha256 t c phase t.files True
  | found (bytes : Bytes) (blob : t.files.get (sha256 c.bytes) = some bytes) :
      PutEffect sha256 t c .returned t.files True
  | create (now : ℤ) (unlocked : c.phase.handle = none) (free : t.files.dir (c.tmp sha256 now) = none) :
      PutEffect sha256 t c (.write now t.files.next) (t.files.create (c.tmp sha256 now)) True
  | append (now : ℤ) (fd : ℕ) (phase : PutPhase) (bytes : Bytes) (handle : c.phase.handle = some (now,fd))
      (holds : KeepsHandle c phase) (pending : phase ≠ .returned) :
      PutEffect sha256 t c phase (t.files.append fd bytes) True
  | rename (now : ℤ) (fd : ℕ) (handle : c.phase.handle = some (now,fd)) :
      PutEffect sha256 t c .returned
        (t.files.redirect ((t.files.dir.unlink (c.tmp sha256 now)).link (c.target sha256) fd))
        (t.files.data fd = c.bytes)
  | clear (now : ℤ) (fd : ℕ) (phase : PutPhase) (handle : c.phase.handle = some (now,fd))
      (holds : KeepsHandle c phase) (pending : phase ≠ .returned) :
      PutEffect sha256 t c phase (t.files.redirect (t.files.dir.unlink (c.target sha256)))
        ((t.files.dir (c.target sha256)).isSome →
          ∀ q, ∀ d ∈ t.puts q, d.phase = .returned → sha256 d.bytes ≠ sha256 c.bytes)
  | clean (now : ℤ) (fd : ℕ) (code : ErrorCode) (fault : Option ErrorCode)
      (handle : c.phase.handle = some (now,fd)) :
      PutEffect sha256 t c (if code ∈ casSwallowCodes then .returned else .thrown (.os code))
        (t.files.redirect (tryUnlink fault t.files.dir (c.tmp sha256 now)))
        (code ∈ casSwallowCodes → (t.files.dir (c.target sha256)).isSome)

structure Inodes (sha256 : Bytes → S) (t : PutStore S) : Prop where
  fresh : ∀ a i, t.files.dir a = some i → i < t.files.next
  unique : t.files.dir.Injective
  owned : ∀ p, ∀ c ∈ t.puts p, ∀ now fd, c.phase.handle = some (now,fd) → t.files.dir (c.tmp sha256 now) = some fd
  apart : ∀ p, ∀ c ∈ t.puts p, ∀ q, ∀ d ∈ t.puts q, ∀ m n fd, c.phase.handle = some (m,fd) →
    d.phase.handle = some (n,fd) → p = q

variable {sha256 : Bytes → S} {t t' : PutStore S} {c : PutCall} {env : PutEnv} {phase : PutPhase}
variable {f : BlobFiles S} {p : ℕ} {a : PutAction} {now : ℤ} {fd : ℕ} {ok : Prop}

theorem proceed_pending {next : PutPhase} (h : next ≠ .returned) : proceed env next ≠ .returned := by
  unfold proceed
  split
  · nofun
  · exact h

theorem holds_proceed {next : PutPhase} (h : KeepsHandle c next) : KeepsHandle c (proceed env next) := by
  unfold proceed
  split
  · exact .inr rfl
  · exact h

theorem placeTmp_effect {refused : ErrorCode → PutPhase} (hphase : c.phase.handle = some (now,fd))
    (htmp : t.files.dir (c.tmp sha256 now) = some fd) (hrefused : ∀ code, (refused code).handle = some (now,fd)) :
    ∃ ok, PutEffect sha256 t c (placeTmp sha256 env t.files c now refused).1
        (placeTmp sha256 env t.files c now refused).2 ok ∧
      (ok ↔ (env.fault = none → t.files.data fd = c.bytes)) := by
  cases hfault : env.fault with
  | none =>
    simp only [placeTmp,hfault,renameSync_ok htmp]
    exact ⟨_,.rename now fd hphase,(true_implies _).symm ▸ Iff.rfl⟩
  | some code =>
    simp only [placeTmp,hfault,renameSync]
    refine ⟨_,.quiet _ (.inl ((hrefused code).trans hphase.symm)) ?_,
      iff_of_true trivial fun h => absurd h (Option.some_ne_none code)⟩
    intro hreturned
    have hhandle := hrefused code
    rw [hreturned] at hhandle
    cases hhandle

theorem openTmp_effect (hphase : c.phase = .openTmp now) :
    PutEffect sha256 t c (openTmp sha256 env t.files c now).1 (openTmp sha256 env t.files c now).2 True := by
  have hnone : c.phase.handle = none := by rw [hphase]; rfl
  cases hfault : env.fault with
  | some code =>
    simp only [openTmp,hfault]
    exact .quiet _ (.inr rfl) nofun
  | none =>
    simp only [openTmp,hfault]
    split_ifs with htaken
    · exact .quiet _ (.inr rfl) nofun
    · exact .create now hnone (Option.not_isSome_iff_eq_none.mp htaken)

theorem putStep_effect (howned : ∀ now fd, c.phase.handle = some (now,fd) → t.files.dir (c.tmp sha256 now) = some fd)
    {r : PutPhase × BlobFiles S} (h : putStep sha256 env t.files c = some r) :
    ∃ ok, PutEffect sha256 t c r.1 r.2 ok ∧ (ok ↔ PutPhaseOk sha256 t c env c.phase) := by
  unfold putStep at h
  cases hphase : c.phase with
  | existing =>
    rw [hphase] at h
    obtain rfl := Option.some.inj h
    refine ⟨True,?_,Iff.rfl⟩
    show PutEffect sha256 t c (if _ then .returned else .mkdir) t.files True
    split_ifs with hfound
    · obtain ⟨i,hi⟩ := Option.isSome_iff_exists.mp hfound.2
      exact .found (t.files.data i) (by rw [BlobFiles.get,show t.files.dir (.blob _) = some i from hi]; rfl)
    · exact .quiet _ (.inr rfl) nofun
  | mkdir =>
    rw [hphase] at h
    obtain rfl := Option.some.inj h
    exact ⟨True,.quiet _ (holds_proceed (.inr rfl)) (proceed_pending nofun),Iff.rfl⟩
  | openTmp now =>
    rw [hphase] at h
    obtain rfl := Option.some.inj h
    exact ⟨True,openTmp_effect hphase,Iff.rfl⟩
  | write now fd =>
    rw [hphase] at h
    obtain rfl := Option.some.inj h
    have hhandle : c.phase.handle = some (now,fd) := by rw [hphase]; rfl
    exact ⟨True,.append now fd _ _ hhandle (holds_proceed (.inl hhandle.symm)) (proceed_pending nofun),Iff.rfl⟩
  | fsync now fd =>
    rw [hphase] at h
    obtain rfl := Option.some.inj h
    have hhandle : c.phase.handle = some (now,fd) := by rw [hphase]; rfl
    exact ⟨True,.quiet _ (holds_proceed (.inl hhandle.symm)) (proceed_pending nofun),Iff.rfl⟩
  | rename now fd =>
    rw [hphase] at h
    obtain rfl := Option.some.inj h
    have hhandle : c.phase.handle = some (now,fd) := by rw [hphase]; rfl
    refine placeTmp_effect hhandle (howned now fd hhandle) fun code => ?_
    split_ifs <;> rfl
  | clearTarget now fd attempt =>
    rw [hphase] at h
    obtain rfl := Option.some.inj h
    have hhandle : c.phase.handle = some (now,fd) := by rw [hphase]; rfl
    cases hfault : env.fault with
    | some code =>
      exact ⟨True,.quiet _ (.inl hhandle.symm) nofun,iff_of_true trivial fun hnone => by cases hfault.symm.trans hnone⟩
    | none =>
      rw [tryUnlink_unlink]
      exact ⟨_,.clear now fd _ hhandle (.inl hhandle.symm) nofun,⟨fun h _ => h,fun h => h hfault⟩⟩
  | retryRename now fd attempt =>
    rw [hphase] at h
    obtain rfl := Option.some.inj h
    have hhandle : c.phase.handle = some (now,fd) := by rw [hphase]; rfl
    refine placeTmp_effect hhandle (howned now fd hhandle) fun code => ?_
    split_ifs <;> rfl
  | cleanTmp now fd code =>
    rw [hphase] at h
    obtain rfl := Option.some.inj h
    have hhandle : c.phase.handle = some (now,fd) := by rw [hphase]; rfl
    exact ⟨_,.clean now fd code env.fault hhandle,Iff.rfl⟩
  | returned =>
    rw [hphase] at h
    cases h
  | thrown e =>
    rw [hphase] at h
    cases h

theorem PutEffect.handle (h : PutEffect sha256 t c phase f ok) (hphase : phase.handle = some (now,fd)) :
    c.phase.handle = some (now,fd) ∨ fd = t.files.next := by
  have hheld : KeepsHandle c phase → c.phase.handle = some (now,fd) := by
    rintro (heq | hnone)
    · exact heq.symm.trans hphase
    · cases hnone.symm.trans hphase
  cases h with
  | quiet _ holds pending => exact .inl (hheld holds)
  | found bytes blob => cases hphase
  | create n unlocked free =>
    cases hphase
    exact .inr rfl
  | append n i _ bytes handle holds pending => exact .inl (hheld holds)
  | rename n i handle => cases hphase
  | clear n i _ handle holds pending => exact .inl (hheld holds)
  | clean n i code fault handle => split_ifs at hphase <;> cases hphase

theorem PutEffect.own (hinv : Inodes sha256 t) (hc : t.puts p = some c) (h : PutEffect sha256 t c phase f ok)
    (hphase : phase.handle = some (now,fd)) : f.dir (c.tmp sha256 now) = some fd := by
  have hheld : KeepsHandle c phase → t.files.dir (c.tmp sha256 now) = some fd := by
    rintro (heq | hnone)
    · exact hinv.owned p c hc now fd (heq.symm.trans hphase)
    · cases hnone.symm.trans hphase
  cases h with
  | quiet _ holds pending => exact hheld holds
  | found bytes blob => cases hphase
  | create n unlocked free =>
    cases hphase
    exact Directory.link_self _ _ _
  | append n i _ bytes handle holds pending => exact hheld holds
  | rename n i handle => cases hphase
  | clear n i _ handle holds pending => exact (Directory.unlink_of_ne _ (tmp_ne_target c c)).trans (hheld holds)
  | clean n i code fault handle => split_ifs at hphase <;> cases hphase

theorem PutEffect.other (hinv : Inodes sha256 t) (hc : t.puts p = some c) (h : PutEffect sha256 t c phase f ok)
    {q : ℕ} (hq : q ≠ p) {d : PutCall} (hd : t.puts q = some d) (hhandle : d.phase.handle = some (now,fd)) :
    f.dir (d.tmp sha256 now) = some fd := by
  have hold := hinv.owned q d hd now fd hhandle
  have hapart : ∀ n i, c.phase.handle = some (n,i) → d.tmp sha256 now ≠ c.tmp sha256 n := by
    intro n i hlocked heq
    have htmp := hinv.owned p c hc n i hlocked
    rw [← heq,hold] at htmp
    cases htmp
    exact hq (hinv.apart q d hd p c hc now n fd hhandle hlocked)
  cases h with
  | quiet _ holds pending => exact hold
  | found bytes blob => exact hold
  | create n unlocked free =>
    refine (Directory.link_of_ne _ _ fun heq => ?_).trans hold
    rw [← heq,hold] at free
    cases free
  | append n i _ bytes handle holds pending => exact hold
  | rename n i handle =>
    exact (Directory.link_of_ne _ i (tmp_ne_target c d)).trans ((Directory.unlink_of_ne _ (hapart n i handle)).trans hold)
  | clear n i _ handle holds pending => exact (Directory.unlink_of_ne _ (tmp_ne_target c d)).trans hold
  | clean n i code fault handle => exact (tryUnlink_of_ne (hapart n i handle)).trans hold

theorem PutEffect.unique (hinv : Inodes sha256 t) (hc : t.puts p = some c) (h : PutEffect sha256 t c phase f ok) :
    f.dir.Injective ∧ ∀ a i, f.dir a = some i → i < f.next := by
  have hnew : ∀ a, t.files.dir a ≠ some t.files.next := fun a ha => (hinv.fresh a _ ha).false
  cases h with
  | quiet _ holds pending => exact ⟨hinv.unique,hinv.fresh⟩
  | found bytes blob => exact ⟨hinv.unique,hinv.fresh⟩
  | create n unlocked free =>
    refine ⟨hinv.unique.link fun a ha => absurd ha (hnew a),fun a i ha => ?_⟩
    rcases Directory.link_eq_some.mp ha with ⟨-,rfl⟩ | ⟨-,ha⟩
    · exact Nat.lt_succ_self _
    · exact (hinv.fresh a i ha).trans (Nat.lt_succ_self _)
  | append n i _ bytes handle holds pending => exact ⟨hinv.unique,hinv.fresh⟩
  | rename n i handle =>
    have htmp := hinv.owned p c hc n i handle
    refine ⟨hinv.unique.rename htmp,fun a j ha => ?_⟩
    rcases Directory.link_eq_some.mp ha with ⟨-,rfl⟩ | ⟨-,ha⟩
    · exact hinv.fresh _ _ htmp
    · exact hinv.fresh a j (Directory.unlink_eq_some.mp ha).2
  | clear n i _ handle holds pending =>
    exact ⟨hinv.unique.unlink _,fun a i ha => hinv.fresh a i (Directory.unlink_eq_some.mp ha).2⟩
  | clean n i code fault handle =>
    cases fault with
    | some code => exact ⟨hinv.unique,hinv.fresh⟩
    | none =>
      rw [tryUnlink_unlink]
      exact ⟨hinv.unique.unlink _,fun a i ha => hinv.fresh a i (Directory.unlink_eq_some.mp ha).2⟩

theorem PutEffect.inodes (hinv : Inodes sha256 t) (hc : t.puts p = some c) (h : PutEffect sha256 t c phase f ok) :
    Inodes sha256 (t.advanced p c phase f) := by
  have hfree : ∀ q, q ≠ p → ∀ d ∈ t.puts q, ∀ m n fd, phase.handle = some (m,fd) → d.phase.handle ≠ some (n,fd) := by
    intro q hq d hd m n fd hphase hhandle
    rcases h.handle hphase with hold | rfl
    · exact hq (hinv.apart q d hd p c hc n m fd hhandle hold)
    · exact (hinv.fresh _ _ (hinv.owned q d hd n _ hhandle)).false
  obtain ⟨hunique,hfresh⟩ := h.unique hinv hc
  refine ⟨hfresh,hunique,?_,?_⟩
  · intro q d hd now fd hhandle
    rcases Directory.mem_update hd with ⟨rfl,rfl⟩ | ⟨hq,hd⟩
    · have hown := h.own hinv hc hhandle
      exact hown
    · exact h.other hinv hc hq hd hhandle
  · intro q d hd r e he m n fd hm hn
    rcases Directory.mem_update hd with ⟨hqp,rfl⟩ | ⟨hq,hd⟩
    · rcases Directory.mem_update he with ⟨hrp,-⟩ | ⟨hr,he⟩
      · exact hqp.trans hrp.symm
      · exact absurd hn (hfree r hr e he m n fd hm)
    · rcases Directory.mem_update he with ⟨hrp,rfl⟩ | ⟨hr,he⟩
      · exact absurd hm (hfree q hq d hd n m fd hn)
      · exact hinv.apart q d hd r e he m n fd hm hn

theorem PutEffect.sound_iff (hinj : Function.Injective sha256) (hinv : Inodes sha256 t) (hsound : PutSound sha256 t)
    (hc : t.puts p = some c) (h : PutEffect sha256 t c phase f ok) :
    PutSound sha256 (t.advanced p c phase f) ↔ ok := by
  cases h with
  | quiet _ holds pending =>
    exact iff_of_true (hsound.same (fun _ => rfl) fun h => absurd h pending) trivial
  | found bytes blob =>
    exact iff_of_true (hsound.same (fun _ => rfl) fun _ => hsound.read hinj blob) trivial
  | create n unlocked free =>
    have hget : ∀ sha, (t.files.create (c.tmp sha256 n)).get sha = t.files.get sha := by
      have hdir := fun sha => Directory.link_of_ne t.files.dir t.files.next (blob_ne_tmp sha256 c n sha)
      refine get_congr hdir fun sha i hi => ?_
      exact Function.update_of_ne (hinv.fresh _ i hi).ne _ _
    exact iff_of_true (hsound.same hget nofun) trivial
  | append n i _ bytes handle holds pending =>
    have hget : ∀ sha, (t.files.append i bytes).get sha = t.files.get sha := by
      refine get_congr (fun sha => rfl) fun sha j hj => Function.update_of_ne ?_ _ _
      rintro rfl
      cases hinv.unique _ _ _ hj (hinv.owned p c hc n _ handle)
    exact iff_of_true (hsound.same hget fun h => absurd h pending) trivial
  | rename n i handle =>
    have hnew : (t.files.redirect ((t.files.dir.unlink (c.tmp sha256 n)).link (c.target sha256) i)).get
        (sha256 c.bytes) = some (t.files.data i) := by
      rw [get_redirect,PutCall.target,Directory.link_self,Option.map_some]
    have hold : ∀ sha ≠ sha256 c.bytes,
        (t.files.redirect ((t.files.dir.unlink (c.tmp sha256 n)).link (c.target sha256) i)).get sha =
          t.files.get sha := by
      intro sha hsha
      have hpath : CasPath.blob sha ≠ c.target sha256 := fun heq => hsha (CasPath.blob.inj heq)
      rw [get_redirect,BlobFiles.get,Directory.link_of_ne _ _ hpath,
        Directory.unlink_of_ne _ (blob_ne_tmp sha256 c n sha)]
    constructor
    · intro h
      exact hinj (h.blobs _ _ hnew)
    · intro hdata
      rw [hdata] at hnew
      refine ⟨fun sha bytes hbytes => ?_,fun q d hd hreturned => ?_⟩
      · by_cases hsha : sha = sha256 c.bytes
        · subst hsha
          exact congrArg sha256 (Option.some.inj (hbytes.symm.trans hnew))
        · exact hsound.blobs sha bytes ((hold sha hsha).symm.trans hbytes)
      · by_cases hsha : sha256 d.bytes = sha256 c.bytes
        · rw [hinj hsha]
          exact hnew
        · rcases Directory.mem_update hd with ⟨-,rfl⟩ | ⟨-,hd⟩
          · exact absurd rfl hsha
          · exact (hold _ hsha).trans (hsound.roundTrip q d hd hreturned)
  | clear n i _ handle holds pending =>
    have hgone : (t.files.redirect (t.files.dir.unlink (c.target sha256))).get
        (sha256 c.bytes) = none := by
      rw [get_redirect,PutCall.target,Directory.unlink_self,Option.map_none]
    have hold : ∀ sha ≠ sha256 c.bytes,
        (t.files.redirect (t.files.dir.unlink (c.target sha256))).get sha = t.files.get sha := by
      intro sha hsha
      have hpath : CasPath.blob sha ≠ c.target sha256 := fun heq => hsha (CasPath.blob.inj heq)
      rw [get_redirect,BlobFiles.get,Directory.unlink_of_ne _ hpath]
    have hbusy : ∀ q, ∀ d ∈ t.puts q, d.phase = .returned → q ≠ p := by
      rintro q d hd hreturned rfl
      obtain rfl := Option.some.inj (hd.symm.trans hc)
      rw [hreturned] at handle
      cases handle
    constructor
    · intro h _ q d hd hreturned hsha
      have hother := Function.update_of_ne (hbusy q d hd hreturned) (some { c with phase := phase }) t.puts
      have hget := h.roundTrip q d (hother.trans hd) hreturned
      rw [hsha] at hget
      exact absurd (hgone.symm.trans hget) nofun
    · intro hnone
      refine ⟨fun sha bytes hbytes => ?_,fun q d hd hreturned => ?_⟩
      · by_cases hsha : sha = sha256 c.bytes
        · subst hsha
          exact absurd (hgone.symm.trans hbytes) nofun
        · exact hsound.blobs sha bytes ((hold sha hsha).symm.trans hbytes)
      · rcases Directory.mem_update hd with ⟨-,rfl⟩ | ⟨-,hd⟩
        · exact absurd hreturned pending
        · have hget := hsound.roundTrip q d hd hreturned
          have hsha : sha256 d.bytes ≠ sha256 c.bytes := by
            intro hsha
            refine hnone ?_ q d hd hreturned hsha
            rw [hsha] at hget
            obtain ⟨i,hi,-⟩ := get_eq_some.mp hget
            exact Option.isSome_iff_exists.mpr ⟨i,hi⟩
          exact (hold _ hsha).trans hget
  | clean n i code fault handle =>
    have hget : ∀ sha, (t.files.redirect (tryUnlink fault t.files.dir (c.tmp sha256 n))).get sha =
        t.files.get sha := get_congr (fun sha => tryUnlink_of_ne (blob_ne_tmp sha256 c n sha)) fun _ _ _ => rfl
    constructor
    · intro h hswallow
      have hreturned := h.roundTrip p _ (Function.update_self ..) (if_pos hswallow)
      obtain ⟨j,hj,-⟩ := get_eq_some.mp ((hget _).symm.trans hreturned)
      exact Option.isSome_iff_exists.mpr ⟨j,hj⟩
    · intro hkept
      refine hsound.same hget fun hreturned => ?_
      by_cases hswallow : code ∈ casSwallowCodes
      · obtain ⟨j,hj⟩ := Option.isSome_iff_exists.mp (hkept hswallow)
        exact hsound.read hinj (get_eq_some.mpr ⟨j,hj,rfl⟩)
      · rw [if_neg hswallow] at hreturned
        cases hreturned

theorem PutRequest.begin_handle (r : PutRequest) : r.begin.phase.handle = none ∧ r.begin.phase ≠ .returned := by
  unfold PutRequest.begin
  split
  · exact ⟨rfl,nofun⟩
  · dsimp only
    split_ifs
    · exact ⟨rfl,nofun⟩
    · exact ⟨rfl,nofun⟩

theorem PutStore.step_cases (h : t.step sha256 a = some t') :
    (∃ p r, a = .call p r ∧ t.puts p = none ∧ t' = { t with puts := Function.update t.puts p (some r.begin) }) ∨
      ∃ p env c r, a = .advance p env ∧ t.puts p = some c ∧ putStep sha256 env t.files c = some r ∧
        t' = t.advanced p c r.1 r.2 := by
  cases a with
  | call p r =>
    rw [PutStore.step] at h
    split_ifs at h with hnone
    exact .inl ⟨p,r,rfl,Option.not_isSome_iff_eq_none.mp hnone,(Option.some.inj h).symm⟩
  | advance p env =>
    rw [PutStore.step] at h
    cases hc : t.puts p with
    | none =>
      rw [hc] at h
      cases h
    | some c =>
      rw [hc] at h
      obtain ⟨r,hr,heq⟩ := Option.map_eq_some_iff.mp h
      exact .inr ⟨p,env,c,r,rfl,hc,hr,heq.symm⟩

omit [DecidableEq S] in
theorem Inodes.called (hinv : Inodes sha256 t) (r : PutRequest) :
    Inodes sha256 { t with puts := Function.update t.puts p (some r.begin) } := by
  have hidle := r.begin_handle.1
  refine ⟨hinv.fresh,hinv.unique,fun q d hd now fd hhandle => ?_,fun q d hd s e he m n fd hm hn => ?_⟩
  · rcases Directory.mem_update hd with ⟨-,rfl⟩ | ⟨-,hd⟩
    · cases hidle.symm.trans hhandle
    · exact hinv.owned q d hd now fd hhandle
  · rcases Directory.mem_update hd with ⟨-,rfl⟩ | ⟨-,hd⟩
    · cases hidle.symm.trans hm
    · rcases Directory.mem_update he with ⟨-,rfl⟩ | ⟨-,he⟩
      · cases hidle.symm.trans hn
      · exact hinv.apart q d hd s e he m n fd hm hn

omit [DecidableEq S] in
theorem PutSound.called (hsound : PutSound sha256 t) (r : PutRequest) :
    PutSound sha256 { t with puts := Function.update t.puts p (some r.begin) } := by
  refine ⟨hsound.blobs,fun q d hd hreturned => ?_⟩
  rcases Directory.mem_update hd with ⟨-,rfl⟩ | ⟨-,hd⟩
  · exact absurd hreturned r.begin_handle.2
  · exact hsound.roundTrip q d hd hreturned

theorem putStore_step (hinj : Function.Injective sha256) (hinv : Inodes sha256 t) (hsound : PutSound sha256 t)
    (h : t.step sha256 a = some t') : Inodes sha256 t' ∧ (PutSound sha256 t' ↔ PutOk sha256 t a) := by
  obtain ⟨p,r,rfl,-,rfl⟩ | ⟨p,env,c,r,rfl,hc,hr,rfl⟩ := PutStore.step_cases h
  · exact ⟨hinv.called r,iff_of_true (hsound.called r) trivial⟩
  · obtain ⟨ok,heffect,hok⟩ := putStep_effect (fun now fd => hinv.owned p c hc now fd) hr
    have hguard : PutOk sha256 t (.advance p env) ↔ PutPhaseOk sha256 t c env c.phase := by
      simp only [PutOk,hc,Option.mem_def,Option.some.injEq,forall_eq']
    rw [hguard,← hok]
    exact ⟨heffect.inodes hinv hc,heffect.sound_iff hinj hinv hsound hc⟩

end Effects

structure SoundFiles {S : Type} (sha256 : Bytes → S) (f : BlobFiles S) : Prop where
  fresh : ∀ a i, f.dir a = some i → i < f.next
  unique : f.dir.Injective
  blobs : ∀ sha bytes, f.get sha = some bytes → sha256 bytes = sha

theorem SoundFiles.start {S : Type} {sha256 : Bytes → S} {f : BlobFiles S} (h : SoundFiles sha256 f) :
    Inodes sha256 (.start f) ∧ PutSound sha256 (.start f) :=
  ⟨⟨h.fresh,h.unique,nofun,nofun⟩,⟨h.blobs,nofun⟩⟩

theorem put_round_trip_iff {S : Type} [DecidableEq S] {sha256 : Bytes → S} (hinj : Function.Injective sha256)
    {f : BlobFiles S} (hfiles : SoundFiles sha256 f) (as : List PutAction) (t : PutStore S) :
    (Run (PutStore.step sha256) (PutOk sha256) (.start f) as t → PutSound sha256 t) ∧
    (Run (PutStore.step sha256) (PutOk sha256) (.start f) as t ↔
      Run (PutStore.step sha256) (fun s a => ∀ s' ∈ s.step sha256 a, PutSound sha256 s') (.start f) as t) := by
  have hok : ∀ s a s', Inodes sha256 s ∧ PutSound sha256 s → PutOk sha256 s a → s.step sha256 a = some s' →
      Inodes sha256 s' ∧ PutSound sha256 s' := by
    intro s a s' hs hguard hstep
    obtain ⟨hinv,hsound⟩ := putStore_step hinj hs.1 hs.2 hstep
    exact ⟨hinv,hsound.mpr hguard⟩
  have hstays : ∀ s a s', Inodes sha256 s ∧ PutSound sha256 s → (∀ u ∈ s.step sha256 a, PutSound sha256 u) →
      s.step sha256 a = some s' → Inodes sha256 s' ∧ PutSound sha256 s' :=
    fun s a s' hs hsound hstep => ⟨(putStore_step hinj hs.1 hs.2 hstep).1,hsound s' hstep⟩
  have hstart := hfiles.start
  refine ⟨fun hrun => (hrun.invariant hok hstart).2,fun hrun => ?_,fun hrun => ?_⟩
  · refine hrun.strengthen hok (fun s a _ hs hguard _ s' hstep => ?_) hstart
    exact (hok s a s' hs hguard hstep).2
  · refine hrun.strengthen hstays (fun s a s' hs hsound hstep => ?_) hstart
    exact (putStore_step hinj hs.1 hs.2 hstep).2.mp (hsound s' hstep)

def abc : Bytes := [97,98,99]

def byteChar (u : UInt8) : Char := Char.ofNat u.toNat

theorem byteChar_injective : Function.Injective byteChar := by
  intro u v h
  have hvalid : ∀ w : UInt8, (byteChar w).toNat = w.toNat := by
    intro w
    have hlt : w.toNat < 256 := w.toNat_lt_size
    exact (Char.toNat_ofNat _).trans (if_pos (.inl (by omega)))
  apply UInt8.toNat_inj.mp
  rw [← hvalid u,← hvalid v,h]

def sampleDigest (b : Bytes) : String :=
  if b = abc then "ba7816bf8f01cfea414140de5dae2223b00361a396177a9cb410ff61f20015ad"
  else String.ofList ('x' :: b.map byteChar)

theorem sampleDigest_injective : Function.Injective sampleDigest := by
  intro a b h
  unfold sampleDigest at h
  split_ifs at h with ha hb hb
  · exact ha.trans hb.symm
  · have hlist := congrArg String.toList h
    simp at hlist
  · have hlist := congrArg String.toList h
    simp at hlist
  · have hlist := congrArg String.toList h
    simp only [String.toList_ofList,List.cons.injEq,true_and] at hlist
    exact List.map_injective_iff.mpr byteChar_injective hlist

def noFiles : BlobFiles String := ⟨fun _ => none,fun _ => [],0⟩

theorem noFiles_sound : SoundFiles sampleDigest noFiles := ⟨nofun,nofun,nofun⟩

def accepting (written : ℕ) : PutEnv := ⟨none,written,1700000000000⟩

def concurrentPuts : List PutAction :=
  [.call 0 ⟨.buffer abc,none,41,false⟩,.call 1 ⟨.string "abc",none,42,false⟩] ++
    (List.replicate 6 [.advance 0 (accepting 3),.advance 1 (accepting 3)]).flatten

def wholeWrites (t : PutStore String) : PutAction → Bool
  | .advance p _ => (t.puts p).all (fun c =>
    match c.phase with
    | .rename _ fd => decide (t.files.data fd = c.bytes)
    | .retryRename _ _ _ | .clearTarget _ _ _ | .cleanTmp _ _ _ => false
    | _ => true)
  | .call _ _ => true

theorem putOk_of_wholeWrites {t : PutStore String} {a : PutAction} (h : wholeWrites t a = true) :
    PutOk sampleDigest t a := by
  cases a with
  | call p r => trivial
  | advance p env =>
    intro c hc
    have hcall : t.puts p = some c := hc
    simp only [wholeWrites,hcall,Option.all_some] at h
    cases hphase : c.phase <;> rw [hphase] at h <;> first | trivial | cases h | exact fun _ => of_decide_eq_true h

theorem put_round_trip_sample :
    ∃ t, Run (PutStore.step sampleDigest) (PutOk sampleDigest) (.start noFiles) concurrentPuts t ∧
      t.puts 0 = some ⟨abc,41,false,.returned⟩ ∧ t.puts 1 = some ⟨abc,42,false,.returned⟩ ∧
      PutSound sampleDigest t := by
  have hexec : (exec (guarded (fun t a => wholeWrites t a = true) (PutStore.step sampleDigest)) (.start noFiles)
      concurrentPuts).any (fun t => decide (t.puts 0 = some ⟨abc,41,false,.returned⟩) &&
        decide (t.puts 1 = some ⟨abc,42,false,.returned⟩)) = true := by decide +kernel
  obtain ⟨t,ht,hobs⟩ := (Option.any_eq_true _ _).mp hexec
  have hrun : Run (PutStore.step sampleDigest) (PutOk sampleDigest) (.start noFiles) concurrentPuts t :=
    (run_of_guarded ht).mono fun _ _ h => putOk_of_wholeWrites h
  simp only [Bool.and_eq_true,decide_eq_true_eq] at hobs
  exact ⟨t,hrun,hobs.1,hobs.2,(put_round_trip_iff sampleDigest_injective noFiles_sound _ t).1 hrun⟩

def shortWrite : List PutAction :=
  .call 0 ⟨.buffer abc,none,41,false⟩ :: List.replicate 6 (.advance 0 (accepting 1))

theorem put_places_short_write :
    ∃ t, Run (PutStore.step sampleDigest) (fun _ _ => True) (.start noFiles) shortWrite t ∧
      t.puts 0 = some ⟨abc,41,false,.returned⟩ ∧ t.files.get (sampleDigest abc) = some [97] ∧
      ¬ PutSound sampleDigest t := by
  have hexec : (exec (PutStore.step sampleDigest) (.start noFiles) shortWrite).any (fun t =>
      decide (t.puts 0 = some ⟨abc,41,false,.returned⟩) &&
      decide (t.files.get (sampleDigest abc) = some [97])) = true := by decide +kernel
  obtain ⟨t,ht,hobs⟩ := (Option.any_eq_true _ _).mp hexec
  simp only [Bool.and_eq_true,decide_eq_true_eq] at hobs
  obtain ⟨hreturned,hget⟩ := hobs
  refine ⟨t,run_of_exec ht,hreturned,hget,fun hsound => ?_⟩
  have hread := hsound.roundTrip 0 _ hreturned rfl
  rw [hget] at hread
  exact absurd hread (by decide)

end WickedBus
