import WickedBus.Coercion
import WickedBus.Schema
import WickedBus.Foundation.AssocMap

namespace WickedBus.Config

open AssocMap (get set erase merge keys)
open Ipc (JsString ascii)

abbrev ConfigObject := List (JsString × AnyValue)

def defaults : ConfigObject :=
  [(ascii "ttl_hours",.rat 72),(ascii "dedup_ttl_hours",.rat 24),(ascii "sweep_interval_minutes",.rat 15),
    (ascii "checkpoint_interval_minutes",.rat 5),(ascii "archive_mode",.primitive (.bool false)),
    (ascii "unacked_policy",.text "retain"),(ascii "unacked_retention_days",.rat 30),
    (ascii "tiered_archive",.primitive (.bool false)),(ascii "log_level",.text "warn"),
    (ascii "db_path",.primitive .null),(ascii "max_payload_bytes",.rat 1048576)]

def validLogLevels : List JsString := ["debug","info","warn","error"].map ascii

def unackedPolicies : List JsString := ["retain","archive","discard"].map ascii

inductive ConfigError where
  | typeError
  | dedupExceedsTtl (dedupTtlHours ttlHours : AnyValue)
  | unackedPolicy (got : AnyValue)
  | unackedRetentionDays (got : AnyValue)
  | sweepInterval
  | checkpointInterval
  | maxPayloadBytes
  | logLevel

def whitespace (u : UInt16) : Bool :=
  decide (9 ≤ u ∧ u ≤ 13 ∨ u ∈ [0x20,0xa0,0x1680,0x2028,0x2029,0x202f,0x205f,0x3000,0xfeff] ∨
    0x2000 ≤ u ∧ u ≤ 0x200a)

def trim (s : JsString) : JsString := ((s.dropWhile whitespace).reverse.dropWhile whitespace).reverse

def coerceInterval (e : JsEngine) (value : AnyValue) (fallback : ℚ) : ℚ :=
  match value with
  | .primitive (.number (.finite q)) => q
  | .primitive (.string s) =>
    if trim s = [] then fallback
    else
      match e.stringToNumber (trim s) with
      | .finite q => q
      | _ => fallback
  | _ => fallback

def ownProperties : AnyValue → ConfigObject
  | .object fields => fields
  | .array items => items.zipIdx.map (fun x => (ascii (toString x.2),x.1))
  | .primitive (.string s) => s.zipIdx.map (fun x => (ascii (toString x.2),.primitive (.string [x.1])))
  | _ => []

def prototypeMember (k : JsString) : AnyValue :=
  if k = protoName then .object [] else if k ∈ prototypeMethods then .exotic .function else .primitive .undefined

def property (v : AnyValue) (k : JsString) : Except ConfigError AnyValue :=
  if v.nullish then .error .typeError else .ok ((get (ownProperties v) k).getD (prototypeMember k))

def field (config : ConfigObject) (name : String) : AnyValue :=
  (get config (ascii name)).getD (.primitive .undefined)

def nulled (overrides : ConfigObject) (k : JsString) : Bool :=
  ((get overrides k).getD (.primitive .undefined)).nullish

def restoreDefault (user : AnyValue) (overrides config : ConfigObject) (k : JsString) :
    Except ConfigError ConfigObject :=
  let fallback := (get defaults k).getD (prototypeMember k)
  if nulled overrides k then
    if fallback.nullish then .ok (erase config k)
    else
      match property user k with
      | .error err => .error err
      | .ok u => .ok (set (erase config k) k (if u.nullish then fallback else u))
  else .ok config

def listed (allowed : List JsString) : AnyValue → Bool
  | .primitive (.string s) => decide (s ∈ allowed)
  | _ => false

def positiveNumber : AnyValue → Bool
  | .primitive (.number (.finite q)) => decide (0 < q)
  | _ => false

def rejectWhen (test : Option Bool) (err : ConfigError) : Except ConfigError Unit :=
  match test with
  | none => .error .typeError
  | some true => .error err
  | some false => .ok ()

def validateConfig (e : JsEngine) (config : ConfigObject) : Except ConfigError Unit := do
  rejectWhen (e.less (field config "ttl_hours") (field config "dedup_ttl_hours"))
    (.dedupExceedsTtl (field config "dedup_ttl_hours") (field config "ttl_hours"))
  rejectWhen (some !(listed unackedPolicies (field config "unacked_policy")))
    (.unackedPolicy (field config "unacked_policy"))
  rejectWhen (some !(positiveNumber (field config "unacked_retention_days")))
    (.unackedRetentionDays (field config "unacked_retention_days"))
  rejectWhen (e.less (field config "sweep_interval_minutes") (.rat 0)) .sweepInterval
  rejectWhen (e.less (field config "checkpoint_interval_minutes") (.rat 0)) .checkpointInterval
  rejectWhen (e.less (field config "max_payload_bytes") (.rat 1)) .maxPayloadBytes
  rejectWhen (some !(listed validLogLevels (field config "log_level"))) .logLevel

def coerced (e : JsEngine) (config : ConfigObject) : ConfigObject :=
  let swept := set config (ascii "sweep_interval_minutes")
    (.rat (coerceInterval e (field config "sweep_interval_minutes") 15))
  set swept (ascii "checkpoint_interval_minutes")
    (.rat (coerceInterval e (field swept "checkpoint_interval_minutes") 5))

def loadConfig (e : JsEngine) (file : Option AnyValue) (overrides : ConfigObject) :
    Except ConfigError ConfigObject := do
  let user := file.getD (.object [])
  let merged := merge (merge defaults (ownProperties user)) overrides
  let restored ← (keys overrides).foldlM (restoreDefault user overrides) merged
  validateConfig e (coerced e restored)
  pure (coerced e restored)

def FiniteNumber (v : AnyValue) : Prop := ∃ q, v = .rat q

structure UsableLimits (config : ConfigObject) : Prop where
  ttl : ∃ ttl dedup, field config "ttl_hours" = .rat ttl ∧ field config "dedup_ttl_hours" = .rat dedup ∧ dedup ≤ ttl
  payload : ∃ bytes, field config "max_payload_bytes" = .rat bytes ∧ 1 ≤ bytes
  sweep : ∃ minutes, field config "sweep_interval_minutes" = .rat minutes ∧ 0 ≤ minutes
  checkpoint : ∃ minutes, field config "checkpoint_interval_minutes" = .rat minutes ∧ 0 ≤ minutes

def fallbackOf (user : AnyValue) (k : JsString) (fallback : AnyValue) : AnyValue :=
  ((get (ownProperties user) k).filter (fun u => !u.nullish)).getD fallback

def given (file : Option AnyValue) (overrides : ConfigObject) (name : String) (fallback : AnyValue) : AnyValue :=
  let user := file.getD (.object [])
  match get overrides (ascii name) with
  | some v => if v.nullish then fallbackOf user (ascii name) fallback else v
  | none => (get (ownProperties user) (ascii name)).getD fallback

section Merge

variable {e : JsEngine} {user : AnyValue} {file : Option AnyValue} {overrides config config' : ConfigObject}
variable {k j : JsString} {d : AnyValue}

theorem fallback_of_property {u : AnyValue} (hplain : prototypeMember k = .primitive .undefined)
    (h : property user k = .ok u) : (if u.nullish then d else u) = fallbackOf user k d := by
  unfold property at h
  split_ifs at h
  cases h
  unfold fallbackOf
  cases get (ownProperties user) k with
  | none => simp [hplain,AnyValue.nullish]
  | some v => cases hv : v.nullish <;> simp [Option.filter,hv]

theorem restoreDefault_get (hd : get defaults k = some d) (hnonnull : d.nullish = false)
    (hplain : prototypeMember k = .primitive .undefined)
    (h : restoreDefault user overrides config j = .ok config') :
    get config' k = if j = k ∧ nulled overrides k then some (fallbackOf user k d) else get config k := by
  unfold restoreDefault at h
  dsimp only at h
  by_cases hnull : nulled overrides j = true
  · rw [if_pos hnull] at h
    by_cases hj : j = k
    · subst hj
      rw [hd,Option.getD_some,if_neg (by rw [hnonnull]; exact Bool.false_ne_true)] at h
      cases hu : property user j with
      | error err =>
        rw [hu] at h
        cases h
      | ok u =>
        rw [hu] at h
        cases h
        rw [AssocMap.get_set,if_pos rfl,fallback_of_property hplain hu]
        exact (if_pos ⟨rfl,hnull⟩).symm
    · rw [if_neg (fun h => hj h.1)]
      split_ifs at h
      · cases h
        rw [AssocMap.get_erase,if_neg (Ne.symm hj)]
      · cases hu : property user j with
        | error err =>
          rw [hu] at h
          cases h
        | ok u =>
          rw [hu] at h
          cases h
          rw [AssocMap.get_set,if_neg (Ne.symm hj),AssocMap.get_erase,if_neg (Ne.symm hj)]
  · rw [if_neg hnull] at h
    cases h
    rw [if_neg]
    rintro ⟨rfl,hk⟩
    exact hnull hk

theorem restoreDefaults_get (hd : get defaults k = some d) (hnonnull : d.nullish = false)
    (hplain : prototypeMember k = .primitive .undefined) {ks : List JsString}
    (h : ks.foldlM (restoreDefault user overrides) config = .ok config') :
    get config' k = if k ∈ ks ∧ nulled overrides k then some (fallbackOf user k d) else get config k := by
  induction ks generalizing config with
  | nil =>
    cases h
    rw [if_neg (fun h => List.not_mem_nil h.1)]
  | cons j ks ih =>
    rw [List.foldlM_cons] at h
    obtain ⟨mid,hmid,hrest⟩ := bind_eq_ok.mp h
    rw [ih hrest,restoreDefault_get hd hnonnull hplain hmid]
    by_cases hnull : nulled overrides k = true
    · by_cases hj : j = k
      · subst hj
        simp [hnull]
      · simp [hnull,hj,Ne.symm hj]
    · simp [hnull]

theorem restored_field {name : String} (hd : get defaults (ascii name) = some d) (hnonnull : d.nullish = false)
    (hplain : prototypeMember (ascii name) = .primitive .undefined)
    (h : (keys overrides).foldlM (restoreDefault (file.getD (.object [])) overrides)
      (merge (merge defaults (ownProperties (file.getD (.object [])))) overrides) = .ok config) :
    field config name = given file overrides name d := by
  rw [field,restoreDefaults_get hd hnonnull hplain h,AssocMap.get_merge,AssocMap.get_merge,hd]
  cases hover : get overrides (ascii name) with
  | none =>
    have hnot : ascii name ∉ keys overrides := AssocMap.get_eq_none.mp hover
    rw [if_neg (fun h => hnot h.1)]
    simp only [given,hover]
    cases get (ownProperties (file.getD (.object []))) (ascii name) <;> rfl
  | some v =>
    have hin : ascii name ∈ keys overrides := AssocMap.get_isSome.mp (by rw [hover]; rfl)
    have hnulled : nulled overrides (ascii name) = v.nullish := by rw [nulled,hover]; rfl
    simp only [given,hover,hnulled,hin,true_and]
    split_ifs <;> rfl

end Merge

structure Accepts (e : JsEngine) (file : Option AnyValue) (overrides : ConfigObject) : Prop where
  readable : (file.getD (.object [])).nullish = true → ∀ k ∈ keys overrides, nulled overrides k = true →
    ((get defaults k).getD (prototypeMember k)).nullish = true
  dedup : e.less (given file overrides "ttl_hours" (.rat 72)) (given file overrides "dedup_ttl_hours" (.rat 24)) =
    some false
  policy : listed unackedPolicies (given file overrides "unacked_policy" (.text "retain")) = true
  retention : positiveNumber (given file overrides "unacked_retention_days" (.rat 30)) = true
  sweep : 0 ≤ coerceInterval e (given file overrides "sweep_interval_minutes" (.rat 15)) 15
  checkpoint : 0 ≤ coerceInterval e (given file overrides "checkpoint_interval_minutes" (.rat 5)) 5
  payload : e.less (given file overrides "max_payload_bytes" (.rat 1048576)) (.rat 1) = some false
  level : listed validLogLevels (given file overrides "log_level" (.text "warn")) = true

structure FiniteLimits (file : Option AnyValue) (overrides : ConfigObject) : Prop where
  ttl : FiniteNumber (given file overrides "ttl_hours" (.rat 72))
  dedup : FiniteNumber (given file overrides "dedup_ttl_hours" (.rat 24))
  payload : FiniteNumber (given file overrides "max_payload_bytes" (.rat 1048576))

section Load

variable {e : JsEngine} {user : AnyValue} {file : Option AnyValue} {overrides config config' : ConfigObject}
variable {k : JsString}

theorem restoreDefault_ok_iff : (∃ c, restoreDefault user overrides config k = .ok c) ↔
    (user.nullish = true → nulled overrides k = true → ((get defaults k).getD (prototypeMember k)).nullish = true) := by
  unfold restoreDefault
  dsimp only
  by_cases hnull : nulled overrides k = true
  · rw [if_pos hnull]
    by_cases hfallback : ((get defaults k).getD (prototypeMember k)).nullish = true
    · rw [if_pos hfallback]
      exact iff_of_true ⟨_,rfl⟩ fun _ _ => hfallback
    · rw [if_neg hfallback,property]
      cases huser : user.nullish with
      | true => simp [hnull,hfallback]
      | false => simp
  · rw [if_neg hnull]
    exact iff_of_true ⟨_,rfl⟩ fun _ h => absurd h hnull

theorem restoreDefaults_ok_iff {ks : List JsString} : (∃ c, ks.foldlM (restoreDefault user overrides) config = .ok c) ↔
    (user.nullish = true → ∀ k ∈ ks, nulled overrides k = true →
      ((get defaults k).getD (prototypeMember k)).nullish = true) := by
  induction ks generalizing config with
  | nil => exact iff_of_true ⟨config,rfl⟩ fun _ _ h => absurd h List.not_mem_nil
  | cons j ks ih =>
    simp only [List.foldlM_cons,List.mem_cons,forall_eq_or_imp]
    constructor
    · rintro ⟨c,hc⟩ huser
      obtain ⟨mid,hmid,hrest⟩ := bind_eq_ok.mp hc
      exact ⟨restoreDefault_ok_iff.mp ⟨mid,hmid⟩ huser,ih.mp ⟨c,hrest⟩ huser⟩
    · intro h
      obtain ⟨mid,hmid⟩ := restoreDefault_ok_iff.mpr fun huser => (h huser).1
      obtain ⟨c,hc⟩ := ih.mpr fun huser => (h huser).2
      exact ⟨c,bind_eq_ok.mpr ⟨mid,hmid,hc⟩⟩

theorem rejectWhen_ok {test : Option Bool} {err : ConfigError} :
    rejectWhen test err = .ok () ↔ test = some false := by
  match test with
  | none => exact ⟨nofun,nofun⟩
  | some true => exact ⟨nofun,nofun⟩
  | some false => exact ⟨fun _ => rfl,fun _ => rfl⟩

theorem rejectWhen_bind {α : Type} {test : Option Bool} {err : ConfigError} {f : Unit → Except ConfigError α} {b : α} :
    (rejectWhen test err >>= f) = .ok b ↔ test = some false ∧ f () = .ok b := by
  rw [bind_eq_ok]
  constructor
  · rintro ⟨_,htest,hf⟩
    exact ⟨rejectWhen_ok.mp htest,hf⟩
  · rintro ⟨htest,hf⟩
    exact ⟨(),rejectWhen_ok.mpr htest,hf⟩

theorem less_rat_eq_false {a b : ℚ} : e.less (.rat a) (.rat b) = some false ↔ b ≤ a := by
  rw [JsEngine.less_rat,Option.some.injEq,decide_eq_false_iff_not,not_lt]

theorem validateConfig_ok : validateConfig e config = .ok () ↔
    e.less (field config "ttl_hours") (field config "dedup_ttl_hours") = some false ∧
    listed unackedPolicies (field config "unacked_policy") = true ∧
    positiveNumber (field config "unacked_retention_days") = true ∧
    e.less (field config "sweep_interval_minutes") (.rat 0) = some false ∧
    e.less (field config "checkpoint_interval_minutes") (.rat 0) = some false ∧
    e.less (field config "max_payload_bytes") (.rat 1) = some false ∧
    listed validLogLevels (field config "log_level") = true := by
  simp only [validateConfig,rejectWhen_bind,rejectWhen_ok,Option.some.injEq,Bool.not_eq_false']

theorem field_set {name other : String} {v : AnyValue} : field (set config (ascii name) v) other =
    if ascii other = ascii name then v else field config other := by
  rw [field,AssocMap.get_set]
  split_ifs <;> rfl

theorem field_coerced {name : String} (hsweep : ascii name ≠ ascii "sweep_interval_minutes")
    (hcheckpoint : ascii name ≠ ascii "checkpoint_interval_minutes") :
    field (coerced e config) name = field config name := by
  rw [coerced,field_set,if_neg hcheckpoint,field_set,if_neg hsweep]

theorem sweep_coerced : field (coerced e config) "sweep_interval_minutes" =
    .rat (coerceInterval e (field config "sweep_interval_minutes") 15) := by
  rw [coerced,field_set,if_neg (by decide),field_set,if_pos rfl]

theorem checkpoint_coerced : field (coerced e config) "checkpoint_interval_minutes" =
    .rat (coerceInterval e (field config "checkpoint_interval_minutes") 5) := by
  rw [coerced,field_set,if_pos rfl,field_set,if_neg (by decide)]

structure Loaded (e : JsEngine) (file : Option AnyValue) (overrides config : ConfigObject) : Prop where
  ttl : field config "ttl_hours" = given file overrides "ttl_hours" (.rat 72)
  dedup : field config "dedup_ttl_hours" = given file overrides "dedup_ttl_hours" (.rat 24)
  policy : field config "unacked_policy" = given file overrides "unacked_policy" (.text "retain")
  retention : field config "unacked_retention_days" = given file overrides "unacked_retention_days" (.rat 30)
  sweep : field config "sweep_interval_minutes" =
    .rat (coerceInterval e (given file overrides "sweep_interval_minutes" (.rat 15)) 15)
  checkpoint : field config "checkpoint_interval_minutes" =
    .rat (coerceInterval e (given file overrides "checkpoint_interval_minutes" (.rat 5)) 5)
  payload : field config "max_payload_bytes" = given file overrides "max_payload_bytes" (.rat 1048576)
  level : field config "log_level" = given file overrides "log_level" (.text "warn")

theorem loaded_coerced (h : (keys overrides).foldlM (restoreDefault (file.getD (.object [])) overrides)
    (merge (merge defaults (ownProperties (file.getD (.object [])))) overrides) = .ok config) :
    Loaded e file overrides (coerced e config) where
  ttl := (field_coerced (by decide) (by decide)).trans (restored_field rfl rfl rfl h)
  dedup := (field_coerced (by decide) (by decide)).trans (restored_field rfl rfl rfl h)
  policy := (field_coerced (by decide) (by decide)).trans (restored_field rfl rfl rfl h)
  retention := (field_coerced (by decide) (by decide)).trans (restored_field rfl rfl rfl h)
  sweep := by rw [sweep_coerced,restored_field (d := .rat 15) rfl rfl rfl h]
  checkpoint := by rw [checkpoint_coerced,restored_field (d := .rat 5) rfl rfl rfl h]
  payload := (field_coerced (by decide) (by decide)).trans (restored_field rfl rfl rfl h)
  level := (field_coerced (by decide) (by decide)).trans (restored_field rfl rfl rfl h)

theorem Loaded.validate_iff (h : Loaded e file overrides config)
    (hreadable : (file.getD (.object [])).nullish = true → ∀ k ∈ keys overrides, nulled overrides k = true →
      ((get defaults k).getD (prototypeMember k)).nullish = true) :
    validateConfig e config = .ok () ↔ Accepts e file overrides := by
  rw [validateConfig_ok,h.ttl,h.dedup,h.policy,h.retention,h.sweep,h.checkpoint,h.payload,h.level,less_rat_eq_false,
    less_rat_eq_false]
  constructor
  · rintro ⟨hdedup,hpolicy,hretention,hsweep,hcheckpoint,hpayload,hlevel⟩
    exact ⟨hreadable,hdedup,hpolicy,hretention,hsweep,hcheckpoint,hpayload,hlevel⟩
  · intro h
    exact ⟨h.dedup,h.policy,h.retention,h.sweep,h.checkpoint,h.payload,h.level⟩

theorem loadConfig_ok (h : loadConfig e file overrides = .ok config) :
    Accepts e file overrides ∧ Loaded e file overrides config := by
  obtain ⟨restored,hrestored,h⟩ := bind_eq_ok.mp h
  obtain ⟨_,hvalid,h⟩ := bind_eq_ok.mp h
  cases h
  have hloaded := loaded_coerced (e := e) hrestored
  exact ⟨(hloaded.validate_iff (restoreDefaults_ok_iff.mp ⟨_,hrestored⟩)).mp hvalid,hloaded⟩

theorem loadConfig_of_accepts (h : Accepts e file overrides) : ∃ config, loadConfig e file overrides = .ok config := by
  obtain ⟨restored,hrestored⟩ := restoreDefaults_ok_iff.mpr h.readable
  have hvalid := ((loaded_coerced (e := e) hrestored).validate_iff h.readable).mpr h
  exact ⟨_,bind_eq_ok.mpr ⟨restored,hrestored,bind_eq_ok.mpr ⟨(),hvalid,rfl⟩⟩⟩

theorem Loaded.usable_iff (h : Loaded e file overrides config) (haccepts : Accepts e file overrides) :
    UsableLimits config ↔ FiniteLimits file overrides := by
  constructor
  · intro husable
    obtain ⟨ttl,dedup,httl,hdedup,-⟩ := husable.ttl
    obtain ⟨bytes,hbytes,-⟩ := husable.payload
    exact ⟨⟨ttl,h.ttl.symm.trans httl⟩,⟨dedup,h.dedup.symm.trans hdedup⟩,⟨bytes,h.payload.symm.trans hbytes⟩⟩
  · rintro ⟨⟨ttl,httl⟩,⟨dedup,hdedup⟩,⟨bytes,hbytes⟩⟩
    have hle := haccepts.dedup
    rw [httl,hdedup,less_rat_eq_false] at hle
    have hone := haccepts.payload
    rw [hbytes,less_rat_eq_false] at hone
    exact ⟨⟨ttl,dedup,h.ttl.trans httl,h.dedup.trans hdedup,hle⟩,⟨bytes,h.payload.trans hbytes,hone⟩,
      ⟨_,h.sweep,haccepts.sweep⟩,⟨_,h.checkpoint,haccepts.checkpoint⟩⟩

theorem loadConfig_usable_iff (e : JsEngine) (file : Option AnyValue) (overrides : ConfigObject) :
    (∀ config, loadConfig e file overrides = .ok config → UsableLimits config) ↔
      (Accepts e file overrides → FiniteLimits file overrides) := by
  constructor
  · intro h haccepts
    obtain ⟨config,hconfig⟩ := loadConfig_of_accepts haccepts
    exact ((loadConfig_ok hconfig).2.usable_iff haccepts).mp (h config hconfig)
  · intro h config hconfig
    obtain ⟨haccepts,hloaded⟩ := loadConfig_ok hconfig
    exact (hloaded.usable_iff haccepts).mpr (h haccepts)

end Load

def textTtl : AnyValue := .object [(ascii "ttl_hours",.text "abc")]

theorem loadConfig_keeps_text_ttl :
    ∃ config, loadConfig decimalEngine (some textTtl) [] = .ok config ∧ field config "ttl_hours" = .text "abc" ∧
      ¬ UsableLimits config := by
  refine ⟨_,rfl,rfl,fun h => ?_⟩
  obtain ⟨ttl,-,httl,-⟩ := h.ttl
  cases httl

end WickedBus.Config
