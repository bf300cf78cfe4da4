import RegisterVM.Proofs.Machine.Effect

set_option autoImplicit false

namespace RegisterVM

namespace Machine

inductive GuardAnswer (m : Machine) (f : Frame) (exc : Value) (g : Sym) : Bool → Prop
  | names {v : Value} {k : ObjRef} {n : ClassNode} {b : Bool} :
      Reads (constLookup f g) m (some v) → Reads (liftStore (Store.classOf? v)) m (some (k, n)) →
      Reads (liftStore (Store.valueIsKindOf exc k)) m b → GuardAnswer m f exc g b
  | notClass {v : Value} :
      Reads (constLookup f g) m (some v) → Reads (liftStore (Store.classOf? v)) m none →
      GuardAnswer m f exc g false
  | undefined : Reads (constLookup f g) m none → GuardAnswer m f exc g false

def GuardsMatch (m : Machine) (f : Frame) (exc : Value) (guards : Array Sym) (b : Bool) :
    Prop :=
  if guards.isEmpty then
    Reads (liftStore (Store.valueIsKindOf exc m.store.core.standardError)) m b
  else if b then
    ∃ before g after, guards.toList = before ++ g :: after ∧
      (∀ g' ∈ before, GuardAnswer m f exc g' false) ∧ GuardAnswer m f exc g true
  else ∀ g ∈ guards.toList, GuardAnswer m f exc g false

theorem GuardAnswer.determ {m : Machine} {f : Frame} {exc : Value} {g : Sym} {b b' : Bool}
    (h : GuardAnswer m f exc g b) (h' : GuardAnswer m f exc g b') : b = b' := by
  cases h with
  | names lookup cls kind =>
    cases h' with
    | names lookup' cls' kind' =>
      cases lookup.determ lookup'
      cases cls.determ cls'
      exact kind.determ kind'
    | notClass lookup' cls' => cases lookup.determ lookup'; cases cls.determ cls'
    | undefined lookup' => cases lookup.determ lookup'
  | notClass lookup cls =>
    cases h' with
    | names lookup' cls' => cases lookup.determ lookup'; cases cls.determ cls'
    | notClass => rfl
    | undefined lookup' => cases lookup.determ lookup'
  | undefined lookup =>
    cases h' with
    | names lookup' => cases lookup.determ lookup'
    | notClass lookup' => cases lookup.determ lookup'
    | undefined => rfl

def guardPass (f : Frame) (exc : Value) (g : Sym) : MachineM (ForInStep (Option Bool × Unit)) := do
  match ← constLookup f g with
  | some v =>
    match ← liftStore (Store.classOf? v) with
    | some (k, _) =>
      if ← liftStore (Store.valueIsKindOf exc k) then pure (.done (some true, ()))
      else pure (.yield (none, ()))
    | _ => pure (.yield (none, ()))
  | _ => pure (.yield (none, ()))

theorem guardMatches_eq (f : Frame) (h : Handler) (exc : Value) : guardMatches f h exc = (do
    let c ← liftStore Store.wellKnown
    if h.guards.isEmpty then liftStore (Store.valueIsKindOf exc c.standardError)
    else do
      let r ← forIn h.guards (none, ()) fun g _ => guardPass f exc g
      pure (r.1.getD false)) := by
  unfold guardMatches
  congr 1
  funext c
  split
  · rfl
  · congr 1
    funext r
    rcases r with ⟨_ | _, _⟩ <;> rfl

theorem readOnly_guardPass (f : Frame) (exc : Value) (g : Sym) : ReadOnly (guardPass f exc g) := by
  refine Keeps.bind (readOnly_constLookup f g) fun found => ?_
  split
  · refine Keeps.bind (readOnly_liftStore (Store.readOnly_classOf? _)) fun k => ?_
    split
    · refine Keeps.bind (readOnly_liftStore (Store.readOnly_valueIsKindOf _ _)) fun b => ?_
      split <;> exact Keeps.pure _
    · exact Keeps.pure _
  · exact Keeps.pure _

theorem guardPass_of_answer {m : Machine} {f : Frame} {exc : Value} {g : Sym} {b : Bool}
    (h : GuardAnswer m f exc g b) :
    Reads (guardPass f exc g) m (if b then .done (some true, ()) else .yield (none, ())) := by
  cases h with
  | names lookup cls kind =>
    simp only [Reads, guardPass, EStateM.run_bind, Reads.run_eq lookup, Reads.run_eq cls, Reads.run_eq kind]
    split <;> rfl
  | notClass lookup cls =>
    simp only [Reads, guardPass, EStateM.run_bind, Reads.run_eq lookup, Reads.run_eq cls]
    rfl
  | undefined lookup =>
    simp only [Reads, guardPass, EStateM.run_bind, Reads.run_eq lookup]
    rfl

theorem guardPass_answer {m : Machine} {f : Frame} {exc : Value} {g : Sym}
    {r : ForInStep (Option Bool × Unit)} (h : Reads (guardPass f exc g) m r) :
    ∃ b, GuardAnswer m f exc g b ∧ r = if b then .done (some true, ()) else .yield (none, ()) := by
  simp only [Reads, guardPass, EStateM.run_bind] at h
  rcases (readOnly_constLookup f g).run_cases m with ⟨found, lookup⟩ | ⟨e, lookup⟩
  · cases found with
    | none =>
      simp only [lookup] at h
      cases h
      exact ⟨false, .undefined lookup, rfl⟩
    | some v =>
      rcases (readOnly_liftStore (Store.readOnly_classOf? v)).run_cases m with
        ⟨cls, hcls⟩ | ⟨e, hcls⟩
      · cases cls with
        | none =>
          simp only [lookup, hcls, EStateM.run_bind] at h
          cases h
          exact ⟨false, .notClass lookup hcls, rfl⟩
        | some kn =>
          obtain ⟨k, n⟩ := kn
          rcases (readOnly_liftStore (Store.readOnly_valueIsKindOf exc k)).run_cases m with
            ⟨b, hkind⟩ | ⟨e, hkind⟩
          · simp only [lookup, hcls, hkind, EStateM.run_bind] at h
            refine ⟨b, .names lookup hcls hkind, ?_⟩
            cases b <;> cases h <;> rfl
          · simp only [lookup, hcls, hkind, EStateM.run_bind] at h
            cases h
      · simp only [lookup, hcls, EStateM.run_bind] at h
        cases h
  · simp only [lookup] at h
    cases h

theorem guardMatches_reads_iff {m : Machine} {f : Frame} {h : Handler} {exc : Value} {b : Bool} :
    Reads (guardMatches f h exc) m b ↔ GuardsMatch m f exc h.guards b := by
  have core : Reads (liftStore Store.wellKnown) m m.store.core := rfl
  rw [guardMatches_eq, GuardsMatch]
  simp only [Reads, EStateM.run_bind, Reads.run_eq core]
  by_cases empty : h.guards.isEmpty = true
  · simp only [empty, if_true]
  simp only [empty, if_false, Bool.false_eq_true, ← Array.forIn_toList, EStateM.run_bind]
  constructor
  · intro run
    cases loop : (forIn h.guards.toList (none, ()) fun g _ => guardPass f exc g).run m with
    | error e t =>
      rw [loop] at run
      cases run
    | ok r t =>
      rw [loop] at run
      obtain ⟨rfl, found⟩ := forIn_search_cases (fun g => readOnly_guardPass f exc g)
        (fun g r t' pass => by
          obtain ⟨b', -, rfl⟩ := guardPass_answer ((readOnly_guardPass f exc g).reads pass)
          cases b' <;> simp) loop
      rcases found with ⟨rfl, misses⟩ | ⟨before, g, after, split, misses, hit⟩
      · cases run
        intro g member
        obtain ⟨b', answer, same⟩ := guardPass_answer (misses g member)
        cases b' with
        | false => exact answer
        | true => cases same
      · obtain ⟨b', answer, same⟩ := guardPass_answer hit
        cases b' with
        | false => cases same
        | true =>
          cases same
          cases run
          refine ⟨before, g, after, split, fun g' member => ?_, answer⟩
          obtain ⟨b'', answer', same'⟩ := guardPass_answer (misses g' member)
          cases b'' with
          | false => exact answer'
          | true => cases same'
  · intro spec
    cases b with
    | false =>
      have loop := forIn_reads_none m ((none : Option Bool), ()) (fun g _ => guardPass f exc g)
        fun g member => guardPass_of_answer (spec g member)
      rw [Reads.run_eq loop]
      rfl
    | true =>
      obtain ⟨before, g, after, split, misses, answer⟩ := spec
      have loop := forIn_reads_first m ((none : Option Bool), ()) (fun g _ => guardPass f exc g) after
        (fun g' member => guardPass_of_answer (misses g' member)) (guardPass_of_answer answer)
      rw [split, Reads.run_eq loop]
      rfl

inductive Verdict (m : Machine) (f : Frame) (exc : Value) (isBreak : Bool) (h : Handler) :
    Bool → Prop
  | outside : h.covers (f.pc - 1) = false → Verdict m f exc isBreak h false
  | ensure : h.covers (f.pc - 1) = true → h.kind = 1 → Verdict m f exc isBreak h true
  | rescue {b : Bool} : h.covers (f.pc - 1) = true → h.kind = 0 → isBreak = false →
      GuardsMatch m f exc h.guards b → Verdict m f exc isBreak h b
  | rescueBreak : h.covers (f.pc - 1) = true → h.kind = 0 → isBreak = true →
      Verdict m f exc isBreak h false
  | other : h.covers (f.pc - 1) = true → h.kind ≠ 0 → h.kind ≠ 1 → Verdict m f exc isBreak h false

def FirstCatch (m : Machine) (f : Frame) (exc : Value) (isBreak : Bool) (h : Handler) : Prop :=
  ∃ p body before after, f.code = .compiled p body ∧ body.handlers.toList = before ++ h :: after ∧
    (∀ h' ∈ before, Verdict m f exc isBreak h' false) ∧ Verdict m f exc isBreak h true

def NoCatch (m : Machine) (f : Frame) (exc : Value) (isBreak : Bool) : Prop :=
  ∀ p body, f.code = .compiled p body → ∀ h ∈ body.handlers.toList, Verdict m f exc isBreak h false

def TargetIn (f : Frame) (h : Handler) : Prop :=
  match f.code with
  | .compiled _ body => 0 ≤ h.target ∧ h.target < body.code.size
  | .native _ => False

def catchPass (f : Frame) (body : Procedure) (exc : Value) (isBreak : Bool) (h : Handler) :
    MachineM (ForInStep (Option (Option Handler) × Unit)) :=
  if h.covers (f.pc - 1) then
    if h.kind == 1 then do pure (.done (some (some (← checkTarget body h)), ()))
    else if h.kind == 0 && !isBreak then do
      if ← guardMatches f h exc then pure (.done (some (some (← checkTarget body h)), ()))
      else pure (.yield (none, ()))
    else pure (.yield (none, ()))
  else pure (.yield (none, ()))

theorem readOnly_catchPass (f : Frame) (body : Procedure) (exc : Value) (isBreak : Bool)
    (h : Handler) : ReadOnly (catchPass f body exc isBreak h) := by
  unfold catchPass
  split
  · split
    · exact Keeps.bind (readOnly_checkTarget body h) fun _ => Keeps.pure _
    · split
      · refine Keeps.bind (readOnly_guardMatches f h exc) fun b => ?_
        split
        · exact Keeps.bind (readOnly_checkTarget body h) fun _ => Keeps.pure _
        · exact Keeps.pure _
      · exact Keeps.pure _
  · exact Keeps.pure _

theorem findHandler_eq (f : Frame) (exc : Value) : findHandler f exc = (match f.code with
    | .native _ => pure none
    | .compiled _ body => do
      let isBreak := (← breakOf? exc).isSome
      let r ← forIn body.handlers (none, ()) fun h _ => catchPass f body exc isBreak h
      pure r.1.join) := by
  unfold findHandler
  cases f.code with
  | native t => rfl
  | compiled p body =>
    dsimp only
    congr 1
    funext brk
    congr 1
    funext r
    rcases r with ⟨_ | _, _⟩ <;> rfl

theorem checkTarget_reads {m : Machine} {body : Procedure} {h : Handler}
    (inside : 0 ≤ h.target ∧ h.target < body.code.size) : Reads (checkTarget body h) m h := by
  have fits : (decide (h.target < 0) || decide (h.target ≥ body.code.size)) = false := by
    simp only [Bool.or_eq_false_iff, decide_eq_false_iff_not]
    omega
  simp only [Reads, checkTarget, fits]
  rfl

theorem checkTarget_ok {m m' : Machine} {body : Procedure} {h h' : Handler}
    (run : (checkTarget body h).run m = .ok h' m') :
    h' = h ∧ m' = m ∧ 0 ≤ h.target ∧ h.target < body.code.size := by
  unfold checkTarget at run
  split at run
  · cases run
  · rename_i fits
    simp only [Bool.or_eq_true, decide_eq_true_eq, not_or] at fits
    cases run
    exact ⟨rfl, rfl, by omega, by omega⟩

section Pass

variable {m : Machine} {f : Frame} {body : Procedure} {exc : Value} {isBreak : Bool} {h : Handler}

theorem catchPass_of_verdict {b : Bool} (verdict : Verdict m f exc isBreak h b)
    (inside : b = true → 0 ≤ h.target ∧ h.target < body.code.size) :
    Reads (catchPass f body exc isBreak h) m
      (if b then .done (some (some h), ()) else .yield (none, ())) := by
  cases verdict with
  | outside cover =>
    simp only [catchPass, cover]
    rfl
  | ensure cover kind =>
    have target : Reads (checkTarget body h) m h := checkTarget_reads (inside rfl)
    simp only [Reads, catchPass, cover, kind, if_true, beq_self_eq_true, EStateM.run_bind,
      Reads.run_eq target]
    rfl
  | rescue cover kind notBreak guards =>
    have answer := guardMatches_reads_iff.mpr guards
    have notEnsure : (h.kind == 1) = false := by simp [kind]
    have isRescue : (h.kind == 0) = true := by simp [kind]
    simp only [Reads, catchPass, cover, isRescue, notBreak, notEnsure, if_true, if_false,
      Bool.false_eq_true, Bool.not_false, Bool.and_self, EStateM.run_bind, Reads.run_eq answer]
    cases b with
    | false => rfl
    | true =>
      have target : Reads (checkTarget body h) m h := checkTarget_reads (inside rfl)
      simp only [if_true, EStateM.run_bind, Reads.run_eq target]
      rfl
  | rescueBreak cover kind isBreak =>
    have notEnsure : (h.kind == 1) = false := by simp [kind]
    simp only [catchPass, cover, isBreak, notEnsure, if_true, if_false, Bool.false_eq_true,
      Bool.not_true, Bool.and_false]
    rfl
  | other cover notRescue notEnsure =>
    have notEnsure' : (h.kind == 1) = false := by simpa using notEnsure
    have notRescue' : (h.kind == 0) = false := by simpa using notRescue
    simp only [catchPass, cover, notEnsure', notRescue', if_true, if_false, Bool.false_eq_true,
      Bool.false_and]
    rfl

theorem catchPass_verdict {r : ForInStep (Option (Option Handler) × Unit)}
    (pass : Reads (catchPass f body exc isBreak h) m r) :
    ∃ b, Verdict m f exc isBreak h b ∧ (b = true → 0 ≤ h.target ∧ h.target < body.code.size) ∧
      r = if b then .done (some (some h), ()) else .yield (none, ()) := by
  unfold catchPass at pass
  by_cases cover : h.covers (f.pc - 1) = true
  case neg =>
    simp only [cover, Bool.false_eq_true, if_false] at pass
    cases pass
    exact ⟨false, .outside (by simpa using cover), nofun, rfl⟩
  simp only [cover, if_true] at pass
  by_cases ensure : h.kind = 1
  case pos =>
    simp only [ensure, beq_self_eq_true, if_true, Reads, EStateM.run_bind] at pass
    cases target : (checkTarget body h).run m with
    | error e t =>
      rw [target] at pass
      cases pass
    | ok h' t =>
      rw [target] at pass
      obtain ⟨rfl, rfl, inside⟩ := checkTarget_ok target
      cases pass
      exact ⟨true, .ensure cover ensure, fun _ => inside, rfl⟩
  have notEnsure : (h.kind == 1) = false := by simpa using ensure
  simp only [notEnsure, Bool.false_eq_true, if_false] at pass
  by_cases rescue : h.kind = 0
  case neg =>
    have notRescue : (h.kind == 0) = false := by simpa using rescue
    simp only [notRescue, Bool.false_and, Bool.false_eq_true, if_false] at pass
    cases pass
    exact ⟨false, .other cover rescue ensure, nofun, rfl⟩
  cases isBreak with
  | true =>
    simp only [rescue, beq_self_eq_true, Bool.not_true, Bool.and_false, Bool.false_eq_true,
      if_false] at pass
    cases pass
    exact ⟨false, .rescueBreak cover rescue rfl, nofun, rfl⟩
  | false =>
    simp only [rescue, beq_self_eq_true, Bool.not_false, Bool.and_self, if_true, Reads,
      EStateM.run_bind] at pass
    rcases (readOnly_guardMatches f h exc).run_cases m with ⟨b, guard⟩ | ⟨e, guard⟩
    · have guards := guardMatches_reads_iff.mp guard
      rw [guard] at pass
      cases b with
      | false =>
        cases pass
        exact ⟨false, .rescue cover rescue rfl guards, nofun, rfl⟩
      | true =>
        simp only [if_true, EStateM.run_bind] at pass
        cases target : (checkTarget body h).run m with
        | error e t =>
          rw [target] at pass
          cases pass
        | ok h' t =>
          rw [target] at pass
          obtain ⟨rfl, rfl, inside⟩ := checkTarget_ok target
          cases pass
          exact ⟨true, .rescue cover rescue rfl guards, fun _ => inside, rfl⟩
    · rw [guard] at pass
      cases pass

end Pass

section Search

variable {m : Machine} {f : Frame} {exc : Value} {brk : Option (BreakKind × Nat × Value)}

theorem findHandler_of_firstCatch {h : Handler} (isBreak : Reads (breakOf? exc) m brk)
    (first : FirstCatch m f exc brk.isSome h) (inside : TargetIn f h) :
    Reads (findHandler f exc) m (some h) := by
  obtain ⟨p, body, before, after, code, split, misses, hit⟩ := first
  have target : 0 ≤ h.target ∧ h.target < body.code.size := by
    simpa only [TargetIn, code] using inside
  have loop := forIn_reads_first m ((none : Option (Option Handler)), ())
    (fun h _ => catchPass f body exc brk.isSome h) after
    (fun h' member => catchPass_of_verdict (misses h' member) nofun)
    (catchPass_of_verdict hit fun _ => target)
  rw [Reads, findHandler_eq, code]
  simp only [EStateM.run_bind, Reads.run_eq isBreak, ← Array.forIn_toList, split,
    Reads.run_eq loop]
  rfl

theorem findHandler_of_noCatch (isBreak : Reads (breakOf? exc) m brk)
    (nothing : NoCatch m f exc brk.isSome) : Reads (findHandler f exc) m none := by
  rw [Reads, findHandler_eq]
  cases code : f.code with
  | native t => rfl
  | compiled p body =>
    have loop := forIn_reads_none m ((Option.none : Option (Option Handler)), ())
      (fun h _ => catchPass f body exc brk.isSome h)
      fun h member => catchPass_of_verdict (nothing p body code h member) (absurd · Bool.false_ne_true)
    simp only [EStateM.run_bind, Reads.run_eq isBreak, ← Array.forIn_toList, Reads.run_eq loop]
    rfl

theorem findHandler_cases {r : Option Handler} {m' : Machine}
    (isBreak : Reads (breakOf? exc) m brk) (run : (findHandler f exc).run m = .ok r m') :
    m' = m ∧ (∀ h, r = some h → FirstCatch m f exc brk.isSome h ∧ TargetIn f h) ∧
      (r = none → NoCatch m f exc brk.isSome) := by
  rw [findHandler_eq] at run
  cases code : f.code with
  | native t =>
    simp only [code, EStateM.run_pure, EStateM.Result.ok.injEq] at run
    obtain ⟨rfl, rfl⟩ := run
    refine ⟨rfl, (fun h found => by cases found), fun _ p body compiled => ?_⟩
    rw [code] at compiled
    cases compiled
  | compiled p body =>
    simp only [code, EStateM.run_bind, Reads.run_eq isBreak, ← Array.forIn_toList] at run
    cases loop : (forIn body.handlers.toList (none, ())
        fun h _ => catchPass f body exc brk.isSome h).run m with
    | error e t =>
      rw [loop] at run
      cases run
    | ok res t =>
      rw [loop] at run
      have readOnly := readOnly_catchPass f body exc brk.isSome
      obtain ⟨same, found⟩ := forIn_search_cases readOnly (fun h r t' pass => by
          obtain ⟨b, -, -, rfl⟩ := catchPass_verdict ((readOnly h).reads pass)
          cases b <;> simp) loop
      subst t
      simp only [EStateM.run_pure, EStateM.Result.ok.injEq] at run
      obtain ⟨rfl, rfl⟩ := run
      refine ⟨rfl, ?_⟩
      rcases found with ⟨rfl, misses⟩ | ⟨before, h, after, split, misses, hit⟩
      · refine ⟨(fun h found => by cases found), fun _ p' body' compiled h member => ?_⟩
        rw [code] at compiled
        cases compiled
        obtain ⟨b, verdict, -, same⟩ := catchPass_verdict (misses h member)
        cases b with
        | false => exact verdict
        | true => cases same
      · obtain ⟨b, verdict, inside, same⟩ := catchPass_verdict hit
        cases b with
        | false => cases same
        | true =>
          cases same
          have firstMisses : ∀ h' ∈ before, Verdict m f exc brk.isSome h' false := by
            intro h' member
            obtain ⟨b', verdict', -, same'⟩ := catchPass_verdict (misses h' member)
            cases b' with
            | false => exact verdict'
            | true => cases same'
          refine ⟨fun h' found => ?_, (fun found => by cases found)⟩
          cases found
          exact ⟨⟨p, body, before, after, code, split, firstMisses, verdict⟩,
            by simpa only [TargetIn, code] using inside rfl⟩

end Search

end Machine

end RegisterVM
