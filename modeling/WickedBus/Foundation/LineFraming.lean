import Mathlib

namespace LineFraming

variable {C F E : Type}

structure Drained (C F E : Type) where
  frames : List F
  buffer : List C
  error : Option E

def Drained.after (frames : List F) (r : Drained C F E) : Drained C F E :=
  { r with frames := frames ++ r.frames }

theorem Drained.after_after (xs ys : List F) (r : Drained C F E) :
    (r.after ys).after xs = r.after (xs ++ ys) := by
  simp [Drained.after]

variable [DecidableEq C]

def splitLine (nl : C) (buf : List C) : Option (List C × List C) :=
  (buf.idxOf? nl).map (fun i => (buf.take i,buf.drop (i + 1)))

section Split

variable {nl : C} {buf line rest : List C}

theorem splitLine_eq_none : splitLine nl buf = none ↔ nl ∉ buf := by
  simp [splitLine]

theorem splitLine_cons_self (nl : C) (buf : List C) : splitLine nl (nl :: buf) = some ([],buf) := by
  simp [splitLine,List.idxOf?_cons]

theorem splitLine_cons_ne {c : C} (h : c ≠ nl) :
    splitLine nl (c :: buf) = (splitLine nl buf).map (fun p => (c :: p.1,p.2)) := by
  have hne : (c == nl) = false := by simpa using h
  simp [splitLine,List.idxOf?_cons,hne,Function.comp_def]

theorem splitLine_line (h : nl ∉ line) (rest : List C) :
    splitLine nl (line ++ nl :: rest) = some (line,rest) := by
  induction line with
  | nil => exact splitLine_cons_self nl rest
  | cons c line ih =>
    have hc : c ≠ nl := fun heq => h (heq ▸ List.mem_cons_self)
    have hline : nl ∉ line := fun hmem => h (List.mem_cons_of_mem c hmem)
    rw [List.cons_append,splitLine_cons_ne hc,ih hline]
    rfl

theorem splitLine_eq_some (h : splitLine nl buf = some (line,rest)) :
    buf = line ++ nl :: rest ∧ nl ∉ line := by
  induction buf generalizing line with
  | nil => cases h
  | cons c buf ih =>
    by_cases hc : c = nl
    · subst hc
      rw [splitLine_cons_self] at h
      cases h
      exact ⟨rfl,List.not_mem_nil⟩
    · rw [splitLine_cons_ne hc] at h
      obtain ⟨⟨tail,rest'⟩,hp,heq⟩ := Option.map_eq_some_iff.mp h
      cases heq
      obtain ⟨rfl,hno⟩ := ih hp
      exact ⟨rfl,List.not_mem_cons_of_ne_of_not_mem (Ne.symm hc) hno⟩

theorem splitLine_append (h : splitLine nl buf = some (line,rest)) (more : List C) :
    splitLine nl (buf ++ more) = some (line,rest ++ more) := by
  obtain ⟨rfl,hno⟩ := splitLine_eq_some h
  rw [List.append_assoc,List.cons_append]
  exact splitLine_line hno (rest ++ more)

theorem splitLine_length (h : splitLine nl buf = some (line,rest)) : rest.length < buf.length := by
  obtain ⟨rfl,-⟩ := splitLine_eq_some h
  simp only [List.length_append,List.length_cons]
  omega

end Split

def drain (nl : C) (decode : List C → Except E (Option F)) (buf : List C) : Drained C F E :=
  match _h : splitLine nl buf with
  | none => ⟨[],buf,none⟩
  | some (line,rest) =>
    match decode line with
    | .error e => ⟨[],rest,some e⟩
    | .ok frame => (drain nl decode rest).after frame.toList
termination_by buf.length
decreasing_by exact splitLine_length _h

def feedAll (nl : C) (decode : List C → Except E (Option F)) :
    List C → List (List C) → Drained C F E
  | buf, [] => ⟨[],buf,none⟩
  | buf, chunk :: chunks =>
    let r := drain nl decode (buf ++ chunk)
    match r.error with
    | some _ => r
    | none => (feedAll nl decode r.buffer chunks).after r.frames

section Drain

variable {nl : C} {decode : List C → Except E (Option F)} {buf line rest : List C}

theorem drain_unfinished (h : nl ∉ buf) : drain nl decode buf = ⟨[],buf,none⟩ := by
  rw [drain]
  split
  · rfl
  · rename_i hsome
    rw [splitLine_eq_none.mpr h] at hsome
    cases hsome

theorem drain_error {e : E} (h : splitLine nl buf = some (line,rest)) (hdec : decode line = .error e) :
    drain nl decode buf = ⟨[],rest,some e⟩ := by
  rw [drain]
  split <;> rename_i heq <;> rw [h] at heq <;> cases heq
  rw [hdec]

theorem drain_ok {frame : Option F} (h : splitLine nl buf = some (line,rest))
    (hdec : decode line = .ok frame) :
    drain nl decode buf = (drain nl decode rest).after frame.toList := by
  conv_lhs => rw [drain]
  split <;> rename_i heq <;> rw [h] at heq <;> cases heq
  rw [hdec]

theorem drain_remainder (h : (drain nl decode buf).error = none) : nl ∉ (drain nl decode buf).buffer := by
  induction hlen : buf.length using Nat.strongRecOn generalizing buf with
  | ind n ih =>
    cases hsplit : splitLine nl buf with
    | none =>
      have hno := splitLine_eq_none.mp hsplit
      rw [drain_unfinished hno]
      exact hno
    | some p =>
      obtain ⟨line,rest⟩ := p
      cases hdec : decode line with
      | error e =>
        rw [drain_error hsplit hdec] at h
        cases h
      | ok frame =>
        rw [drain_ok hsplit hdec] at h ⊢
        exact ih rest.length (hlen ▸ splitLine_length hsplit) h rfl

theorem drain_append (buf more : List C) :
    drain nl decode (buf ++ more) =
      match (drain nl decode buf).error with
      | some _ => { drain nl decode buf with buffer := (drain nl decode buf).buffer ++ more }
      | none => (drain nl decode ((drain nl decode buf).buffer ++ more)).after (drain nl decode buf).frames := by
  induction hlen : buf.length using Nat.strongRecOn generalizing buf with
  | ind n ih =>
    cases hsplit : splitLine nl buf with
    | none =>
      rw [drain_unfinished (splitLine_eq_none.mp hsplit)]
      rfl
    | some p =>
      obtain ⟨line,rest⟩ := p
      have hlonger := splitLine_append hsplit more
      cases hdec : decode line with
      | error e => rw [drain_error hsplit hdec,drain_error hlonger hdec]
      | ok frame =>
        rw [drain_ok hsplit hdec,drain_ok hlonger hdec,
          ih rest.length (hlen ▸ splitLine_length hsplit) rest rfl]
        cases herr : (drain nl decode rest).error with
        | some e => simp only [Drained.after,herr]
        | none =>
          simp only [Drained.after,herr]
          exact (Drained.after_after ..)

theorem feedAll_eq_drain (chunks : List (List C)) (hbuf : nl ∉ buf)
    (hok : (drain nl decode (buf ++ chunks.flatten)).error = none) :
    feedAll nl decode buf chunks = drain nl decode (buf ++ chunks.flatten) := by
  induction chunks generalizing buf with
  | nil =>
    rw [List.flatten_nil,List.append_nil,drain_unfinished hbuf]
    rfl
  | cons chunk chunks ih =>
    rw [List.flatten_cons,← List.append_assoc,drain_append] at hok ⊢
    simp only [feedAll]
    cases herr : (drain nl decode (buf ++ chunk)).error with
    | some e =>
      simp only [herr] at hok
      cases hok
    | none =>
      simp only [herr] at hok ⊢
      rw [ih (drain_remainder herr) hok]

theorem drain_line (h : nl ∉ line) (lines : List (List C)) :
    drain nl decode ((line :: lines).flatMap (fun line => line ++ [nl])) =
      match decode line with
      | .error e => ⟨[],lines.flatMap (fun line => line ++ [nl]),some e⟩
      | .ok frame => (drain nl decode (lines.flatMap (fun line => line ++ [nl]))).after frame.toList := by
  have hsplit : splitLine nl ((line :: lines).flatMap (fun line => line ++ [nl])) =
      some (line,lines.flatMap (fun line => line ++ [nl])) := by
    rw [List.flatMap_cons,List.append_assoc]
    exact splitLine_line h _
  cases hdec : decode line with
  | error e => exact drain_error hsplit hdec
  | ok frame => exact drain_ok hsplit hdec

theorem drain_lines {lines : List (List C)} {frames : List F}
    (h : List.Forall₂ (fun line frame => nl ∉ line ∧ decode line = .ok (some frame)) lines frames) :
    drain nl decode (lines.flatMap (fun line => line ++ [nl])) = ⟨frames,[],none⟩ := by
  induction h with
  | nil => exact drain_unfinished List.not_mem_nil
  | cons hline hrest ih =>
    rw [drain_line hline.1,hline.2,ih]
    rfl

theorem feedAll_lines {lines chunks : List (List C)} {frames : List F}
    (h : List.Forall₂ (fun line frame => nl ∉ line ∧ decode line = .ok (some frame)) lines frames)
    (hcut : chunks.flatten = lines.flatMap (fun line => line ++ [nl])) :
    feedAll nl decode [] chunks = ⟨frames,[],none⟩ := by
  have hdrain := drain_lines h
  rw [← hcut] at hdrain
  have heq := @feedAll_eq_drain C F E _ nl decode [] chunks List.not_mem_nil (by rw [List.nil_append,hdrain])
  rw [heq,List.nil_append,hdrain]

theorem feedAll_frames (chunks : List (List C)) (hbuf : nl ∉ buf) :
    (feedAll nl decode buf chunks).frames = (drain nl decode (buf ++ chunks.flatten)).frames := by
  induction chunks generalizing buf with
  | nil =>
    rw [List.flatten_nil,List.append_nil,drain_unfinished hbuf]
    rfl
  | cons chunk chunks ih =>
    rw [List.flatten_cons,← List.append_assoc,drain_append]
    simp only [feedAll]
    cases herr : (drain nl decode (buf ++ chunk)).error with
    | some e => rfl
    | none =>
      simp only [Drained.after]
      rw [ih (drain_remainder herr)]

theorem drain_frames_length {lines : List (List C)} (hlines : ∀ line ∈ lines, nl ∉ line) :
    (drain nl decode (lines.flatMap (fun line => line ++ [nl]))).frames.length ≤ lines.length := by
  induction lines with
  | nil =>
    rw [List.flatMap_nil,drain_unfinished List.not_mem_nil]
    rfl
  | cons line lines ih =>
    obtain ⟨hline,hrest⟩ := List.forall_mem_cons.mp hlines
    have hlen := ih hrest
    rw [drain_line hline]
    cases decode line with
    | error e => exact Nat.zero_le _
    | ok frame =>
      have hone : frame.toList.length ≤ 1 := by cases frame <;> simp
      simp only [Drained.after,List.length_append,List.length_cons]
      omega

-- fewer frames than lines, or one frame from each
theorem lines_of_drain {lines : List (List C)} {frames : List F} (hlines : ∀ line ∈ lines, nl ∉ line)
    (h : (drain nl decode (lines.flatMap (fun line => line ++ [nl]))).frames = frames)
    (hlen : lines.length = frames.length) :
    List.Forall₂ (fun line frame => decode line = .ok (some frame)) lines frames := by
  induction lines generalizing frames with
  | nil =>
    rw [List.eq_nil_of_length_eq_zero hlen.symm]
    exact .nil
  | cons line lines ih =>
    obtain ⟨hline,hrest⟩ := List.forall_mem_cons.mp hlines
    have hmost : (drain nl decode (lines.flatMap (fun line => line ++ [nl]))).frames.length ≤ lines.length :=
      drain_frames_length hrest
    rw [drain_line hline] at h
    cases hdec : decode line with
    | error e =>
      rw [hdec] at h
      rw [← h] at hlen
      cases hlen
    | ok frame =>
      rw [hdec] at h
      simp only [Drained.after] at h
      cases frame with
      | none =>
        rw [← h,Option.toList_none,List.nil_append,List.length_cons] at hlen
        omega
      | some frame =>
        subst h
        rw [Option.toList_some,List.singleton_append,List.length_cons,List.length_cons] at hlen
        exact .cons hdec (ih hrest rfl (Nat.succ.inj hlen))

end Drain

end LineFraming
