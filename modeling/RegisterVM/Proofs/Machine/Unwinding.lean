import RegisterVM.Proofs.Machine.CatchTable
import RegisterVM.Proofs.Machine.FrameStack

set_option autoImplicit false

namespace RegisterVM

def Frame.breakEntry? (f : Frame) : Option Handler :=
  match f.code with
  | .compiled _ body => body.handlers.find? fun h => h.kind == 2 && h.covers (f.pc - 1)
  | .native _ => none

def Frame.breakPc (f : Frame) : Int :=
  match f.breakEntry? with
  | some h => h.target
  | none => f.pc

namespace Machine

def stack (m : Machine) : Array Value := (m.contexts[m.current]?.map (·.stack)).getD #[]

def withSlot (m : Machine) (i : Nat) (v : Value) : Machine :=
  m.updCurrent fun c => { c with stack := c.stack.set! i v }

def withPc (m : Machine) (pc : Int) : Machine :=
  m.updCurrent fun c => { c with frames := c.frames.modify (c.frames.size - 1) fun f => { f with pc } }

def withExc (m : Machine) (exc : Value) : Machine := m.updCurrent fun c => { c with exc }

def resumeAt (m : Machine) (pc : Int) (exc : Value) : Machine :=
  { (m.withPc pc).withExc exc with mode := .run }

def receive (m : Machine) (f : Frame) (acc : Int) (v : Value) : Machine :=
  if 0 ≤ acc then m.withSlot (f.base + acc.toNat) v else m

theorem frames_updCurrent {m : Machine} {g : Context → Context} (keeps : ∀ c, (g c).frames = c.frames) :
    (m.updCurrent g).frames = m.frames := by
  simp [updCurrent, frames, Array.getElem?_modify, Option.map_map, Function.comp_def, keeps]

@[simp] theorem frames_withSlot (m : Machine) (i : Nat) (v : Value) :
    (m.withSlot i v).frames = m.frames := frames_updCurrent fun _ => rfl

@[simp] theorem frames_withExc (m : Machine) (exc : Value) : (m.withExc exc).frames = m.frames :=
  frames_updCurrent fun _ => rfl

@[simp] theorem frames_receive (m : Machine) (f : Frame) (acc : Int) (v : Value) :
    (m.receive f acc v).frames = m.frames := by
  unfold receive
  split <;> simp

@[simp] theorem top?_withExc (m : Machine) (exc : Value) : (m.withExc exc).top? = m.top? := by
  simp [top?]

@[simp] theorem top?_withSlot (m : Machine) (i : Nat) (v : Value) :
    (m.withSlot i v).top? = m.top? := by
  simp [top?]

@[simp] theorem top?_receive (m : Machine) (f : Frame) (acc : Int) (v : Value) :
    (m.receive f acc v).top? = m.top? := by
  simp [top?]

private theorem modify_of_fixed {α : Type} {xs : Array α} {i : Nat} {g : α → α}
    (fixed : ∀ a, xs[i]? = some a → g a = a) : xs.modify i g = xs := by
  apply Array.ext_getElem?
  intro j
  rw [Array.getElem?_modify]
  split
  · next same =>
    subst same
    cases found : xs[i]? with
    | none => rfl
    | some a => simp [fixed a found]
  · rfl

theorem withPc_self {m : Machine} {f : Frame} (top : m.top? = some f) : m.withPc f.pc = m := by
  cases stored : m.contexts[m.current]? with
  | none => simp [top?, frames, stored] at top
  | some c =>
    have last : c.frames[c.frames.size - 1]? = some f := by
      simpa [top?, frames, stored, Array.back?_eq_getElem?] using top
    have keep : { c with frames := c.frames.modify (c.frames.size - 1) fun g => { g with pc := f.pc } } = c := by
      rw [modify_of_fixed fun g found => by rw [last] at found; cases found; rfl]
    unfold withPc updCurrent
    rw [modify_of_fixed fun c' found => by rw [stored] at found; cases found; exact keep]

def breakPass (f : Frame) (body : Procedure) (h : Handler) :
    MachineM (ForInStep (Option (Option Handler) × Unit)) :=
  if h.kind == 2 && h.covers (f.pc - 1) then do pure (.done (some (some (← checkTarget body h)), ()))
  else pure (.yield (none, ()))

theorem findBreakHandler_eq (f : Frame) : findBreakHandler f = (match f.code with
    | .native _ => pure none
    | .compiled _ body => do
      let r ← forIn body.handlers (none, ()) fun h _ => breakPass f body h
      pure r.1.join) := by
  unfold findBreakHandler
  cases f.code with
  | native t => rfl
  | compiled p body =>
    dsimp only
    congr 1
    funext r
    rcases r with ⟨_ | _, _⟩ <;> rfl

section BreakPass

variable {m : Machine} {f : Frame} {body : Procedure} {h : Handler}

theorem readOnly_breakPass : ReadOnly (breakPass f body h) := by
  unfold breakPass
  split
  · exact Keeps.bind (readOnly_checkTarget body h) fun _ => Keeps.pure _
  · exact Keeps.pure _

theorem breakPass_miss (miss : (h.kind == 2 && h.covers (f.pc - 1)) = false) :
    Reads (breakPass f body h) m (.yield (none, ())) := by
  simp only [Reads, breakPass, miss, Bool.false_eq_true, if_false]
  rfl

theorem breakPass_hit (hit : (h.kind == 2 && h.covers (f.pc - 1)) = true)
    (inside : 0 ≤ h.target ∧ h.target < body.code.size) :
    Reads (breakPass f body h) m (.done (some (some h), ())) := by
  simp only [Reads, breakPass, hit, if_true, EStateM.run_bind, Reads.run_eq (checkTarget_reads inside)]
  rfl

theorem breakPass_cases {r : ForInStep (Option (Option Handler) × Unit)}
    (pass : Reads (breakPass f body h) m r) :
    ((h.kind == 2 && h.covers (f.pc - 1)) = false ∧ r = .yield (none, ())) ∨
      ((h.kind == 2 && h.covers (f.pc - 1)) = true ∧ (0 ≤ h.target ∧ h.target < body.code.size) ∧
        r = .done (some (some h), ())) := by
  unfold breakPass at pass
  split at pass
  · next hit =>
    obtain ⟨h', t, check, done⟩ := bind_run_ok pass
    obtain ⟨rfl, rfl, inside⟩ := checkTarget_ok check
    cases done
    exact .inr ⟨hit, inside, rfl⟩
  · next miss =>
    cases pass
    exact .inl ⟨by simpa using miss, rfl⟩

end BreakPass

theorem findBreakHandler_reads {m : Machine} {f : Frame}
    (inside : ∀ h, f.breakEntry? = some h → TargetIn f h) :
    Reads (findBreakHandler f) m f.breakEntry? := by
  rw [Reads, findBreakHandler_eq]
  cases code : f.code with
  | native t => simp [Frame.breakEntry?, code]
  | compiled p body =>
    have entry : f.breakEntry? =
        body.handlers.toList.find? fun h => h.kind == 2 && h.covers (f.pc - 1) := by
      simp [Frame.breakEntry?, code, Array.find?_toList]
    simp only [EStateM.run_bind, ← Array.forIn_toList]
    cases found : body.handlers.toList.find? fun h => h.kind == 2 && h.covers (f.pc - 1) with
    | none =>
      have loop := forIn_reads_none m ((none : Option (Option Handler)), ())
        (fun h _ => breakPass f body h) fun h member =>
          breakPass_miss (by simpa using List.find?_eq_none.mp found h member)
      rw [Reads.run_eq loop, entry, found]
      rfl
    | some h =>
      obtain ⟨hit, before, after, split, misses⟩ := List.find?_eq_some_iff_append.mp found
      have target : 0 ≤ h.target ∧ h.target < body.code.size := by
        simpa only [TargetIn, code] using inside h (entry.trans found)
      have loop := forIn_reads_first m ((none : Option (Option Handler)), ())
        (fun h _ => breakPass f body h) after
        (fun h' member => breakPass_miss (by simpa only [Bool.not_eq_true'] using misses h' member))
        (breakPass_hit hit target)
      rw [split, Reads.run_eq loop, entry, found]
      rfl

theorem findBreakHandler_ok {m m' : Machine} {f : Frame} {r : Option Handler}
    (run : (findBreakHandler f).run m = .ok r m') :
    m' = m ∧ r = f.breakEntry? ∧ ∀ h, r = some h → TargetIn f h := by
  rw [findBreakHandler_eq] at run
  cases code : f.code with
  | native t =>
    simp only [code, EStateM.run_pure, EStateM.Result.ok.injEq] at run
    obtain ⟨rfl, rfl⟩ := run
    exact ⟨rfl, by simp [Frame.breakEntry?, code], fun h found => by cases found⟩
  | compiled p body =>
    have entry : f.breakEntry? =
        body.handlers.toList.find? fun h => h.kind == 2 && h.covers (f.pc - 1) := by
      simp [Frame.breakEntry?, code, Array.find?_toList]
    simp only [code] at run
    obtain ⟨res, t, loop, done⟩ := bind_run_ok run
    rw [← Array.forIn_toList] at loop
    simp only [EStateM.run_pure, EStateM.Result.ok.injEq] at done
    obtain ⟨rfl, rfl⟩ := done
    obtain ⟨rfl, found⟩ := forIn_search_cases (fun h => readOnly_breakPass) (fun h r t' pass => by
        rcases breakPass_cases (readOnly_breakPass.reads pass) with ⟨-, rfl⟩ | ⟨-, -, rfl⟩ <;>
          simp) loop
    refine ⟨rfl, ?_⟩
    rcases found with ⟨rfl, misses⟩ | ⟨before, h, after, split, misses, hit⟩
    · have none : f.breakEntry? = none := by
        rw [entry, List.find?_eq_none]
        intro h member
        rcases breakPass_cases (misses h member) with ⟨miss, -⟩ | ⟨-, -, stop⟩
        · simp [miss]
        · cases stop
      exact ⟨none.symm, fun h found => by cases found⟩
    · rcases breakPass_cases hit with ⟨-, stop⟩ | ⟨cond, inside, stop⟩
      · cases stop
      cases stop
      have first : f.breakEntry? = some h := by
        rw [entry, List.find?_eq_some_iff_append]
        refine ⟨cond, before, after, split, fun h' member => ?_⟩
        rcases breakPass_cases (misses h' member) with ⟨miss, -⟩ | ⟨-, -, stop⟩
        · simp [miss]
        · cases stop
      refine ⟨first.symm, fun h' found => ?_⟩
      cases found
      simpa only [TargetIn, code] using inside

def resumeStep (exc : Value) (h : Handler) : MachineM Unit := do
  modifyTop fun f => { f with pc := h.target }
  setExc exc
  setMode .run

def catchOr (exc : Value) (f : Frame) (rest : MachineM Unit) : MachineM Unit := do
  match ← findHandler f exc with
  | some h => resumeStep exc h
  | none => rest

def leaveStep (exc : Value) (brk : Option (BreakKind × Nat × Value)) (fuel : Nat) (f : Frame) :
    MachineM Unit := do
  popFrame
  if f.kind.isBoundary then
    setExc .nil
    leaveWithException f.kind exc
  else unwind.go exc brk fuel f.acc

def breakResume (f : Frame) : MachineM Unit := do
  match ← findBreakHandler f with
  | some h => modifyTop fun f => { f with pc := h.target }
  | none => pure ()
  setExc .nil
  setMode .run

def deliverStep (f : Frame) (acc : Int) (val : Value) : MachineM Unit := do
  if acc ≥ 0 then setSlot (f.base + acc.toNat) val
  breakResume f

def returnHome (val : Value) : MachineM Unit := do
  setExc .nil
  returnFrom val

def frameStep (exc : Value) (brk : Option (BreakKind × Nat × Value)) (fuel : Nat) (acc : Int)
    (f : Frame) : MachineM Unit :=
  match brk with
  | some (.brk, target, val) =>
    if target == f.serial then deliverStep f acc val else catchOr exc f (leaveStep exc brk fuel f)
  | some (.ret, target, val) =>
    if target == f.serial then catchOr exc f (returnHome val)
    else catchOr exc f (leaveStep exc brk fuel f)
  | none => catchOr exc f (leaveStep exc brk fuel f)

theorem go_succ (exc : Value) (brk : Option (BreakKind × Nat × Value)) (fuel : Nat) (acc : Int) :
    unwind.go exc brk (fuel + 1) acc = (do frameStep exc brk fuel acc (← topFrame)) := by
  unfold unwind.go
  congr 1
  funext f
  -- the join points of the source become the named steps; only matchers and a final
  -- `pure ()` differ
  rcases brk with _ | ⟨_ | _, target, val⟩
  · simp only [frameStep, catchOr, resumeStep, leaveStep, bind_pure_unit]
    congr 1
    funext r
    cases r <;> rfl
  · dsimp only [frameStep]
    split
    · simp only [deliverStep, breakResume, bind_pure_unit]
      split
      · congr 1
        funext u
        congr 1
        funext r
        cases r <;> rfl
      · congr 1
        funext r
        cases r <;> rfl
    · simp only [catchOr, resumeStep, leaveStep, bind_pure_unit]
      congr 1
      funext r
      cases r <;> rfl
  · dsimp only [frameStep]
    split
    · simp only [catchOr, resumeStep, returnHome, bind_pure_unit]
      congr 1
      funext r
      cases r <;> rfl
    · simp only [catchOr, resumeStep, leaveStep, bind_pure_unit]
      congr 1
      funext r
      cases r <;> rfl

theorem frameStep_of_notAimed {exc : Value} {brk : Option (BreakKind × Nat × Value)} {fuel : Nat}
    {acc : Int} {f : Frame} (notAimed : ∀ kind val, brk ≠ some (kind, f.serial, val)) :
    frameStep exc brk fuel acc f = catchOr exc f (leaveStep exc brk fuel f) := by
  rcases brk with _ | ⟨kind, target, val⟩
  · rfl
  · have elsewhere : (target == f.serial) = false := by
      simpa using fun same => notAimed kind val (by rw [same])
    cases kind <;> simp [frameStep, elsewhere]

@[simp] theorem frameStep_brk (exc : Value) (fuel : Nat) (acc : Int) (f : Frame) (val : Value) :
    frameStep exc (some (.brk, f.serial, val)) fuel acc f = deliverStep f acc val := by
  simp [frameStep]

@[simp] theorem frameStep_ret (exc : Value) (fuel : Nat) (acc : Int) (f : Frame) (val : Value) :
    frameStep exc (some (.ret, f.serial, val)) fuel acc f = catchOr exc f (returnHome val) := by
  simp [frameStep]

theorem resumeStep_run (exc : Value) (h : Handler) (m : Machine) :
    (resumeStep exc h).run m = .ok () (m.resumeAt h.target exc) := rfl

theorem setExc_run (v : Value) (m : Machine) : (setExc v).run m = .ok () (m.withExc v) := rfl

theorem setSlot_run (i : Nat) (v : Value) (m : Machine) :
    (setSlot i v).run m = if i < m.stack.size then .ok () (m.withSlot i v) else .error .runtime m := by
  simp only [setSlot, writeSlot, currentIndex, EStateM.run_bind, EStateM.run_get, EStateM.run_pure,
    context_run]
  cases stored : m.contexts[m.current]? with
  | none => simp [stack, stored]
  | some c =>
    simp only [stack, stored, Option.map_some, Option.getD_some]
    split <;> rfl

section Catch

variable {exc : Value} {brk : Option (BreakKind × Nat × Value)} {m m' : Machine} {f : Frame}
  {rest : MachineM Unit}

theorem catchOr_of_firstCatch {h : Handler} (isBreak : Reads (breakOf? exc) m brk)
    (first : FirstCatch m f exc brk.isSome h) (inside : TargetIn f h) :
    (catchOr exc f rest).run m = .ok () (m.resumeAt h.target exc) := by
  simp only [catchOr, EStateM.run_bind, Reads.run_eq (findHandler_of_firstCatch isBreak first inside)]
  rfl

theorem catchOr_of_noCatch (isBreak : Reads (breakOf? exc) m brk)
    (nothing : NoCatch m f exc brk.isSome) : (catchOr exc f rest).run m = rest.run m := by
  simp only [catchOr, EStateM.run_bind, Reads.run_eq (findHandler_of_noCatch isBreak nothing)]

theorem catchOr_ok (isBreak : Reads (breakOf? exc) m brk) (run : (catchOr exc f rest).run m = .ok () m') :
    (∃ h, FirstCatch m f exc brk.isSome h ∧ TargetIn f h ∧ m' = m.resumeAt h.target exc) ∨
      (NoCatch m f exc brk.isSome ∧ rest.run m = .ok () m') := by
  obtain ⟨r, m₀, search, run⟩ := bind_run_ok run
  obtain ⟨rfl, found, nothing⟩ := findHandler_cases isBreak search
  cases r with
  | some h =>
    obtain ⟨first, inside⟩ := found h rfl
    rw [resumeStep_run] at run
    cases run
    exact .inl ⟨h, first, inside, rfl⟩
  | none => exact .inr ⟨nothing rfl, run⟩

end Catch

theorem isBoundary_iff (k : CallKind) : k.isBoundary = true ↔ k ≠ .vm := by
  cases k <;> simp [CallKind.isBoundary]

section Leave

variable {exc : Value} {brk : Option (BreakKind × Nat × Value)} {fuel : Nat} {m m₁ : Machine}
  {f : Frame}

theorem leaveStep_of_vm (pop : popFrame.run m = .ok () m₁) (vm : f.kind = .vm) :
    (leaveStep exc brk fuel f).run m = (unwind.go exc brk fuel f.acc).run m₁ := by
  have inner : f.kind.isBoundary = false := by simp [CallKind.isBoundary, vm]
  simp only [leaveStep, EStateM.run_bind, pop, inner, Bool.false_eq_true, if_false]

theorem leaveStep_of_boundary (pop : popFrame.run m = .ok () m₁) (boundary : f.kind ≠ .vm) :
    (leaveStep exc brk fuel f).run m = (leaveWithException f.kind exc).run (m₁.withExc .nil) := by
  have outer : f.kind.isBoundary = true := (isBoundary_iff _).mpr boundary
  simp only [leaveStep, EStateM.run_bind, pop, outer, if_true, setExc_run]

theorem leaveStep_ok {m' : Machine} (run : (leaveStep exc brk fuel f).run m = .ok () m') :
    ∃ m₁, popFrame.run m = .ok () m₁ ∧
      ((f.kind = .vm ∧ (unwind.go exc brk fuel f.acc).run m₁ = .ok () m') ∨
        (f.kind ≠ .vm ∧ (leaveWithException f.kind exc).run (m₁.withExc .nil) = .ok () m')) := by
  obtain ⟨_, m₁, pop, -⟩ := bind_run_ok run
  refine ⟨m₁, pop, ?_⟩
  by_cases vm : f.kind = .vm
  · exact .inl ⟨vm, by rwa [leaveStep_of_vm pop vm] at run⟩
  · exact .inr ⟨vm, by rwa [leaveStep_of_boundary pop vm] at run⟩

end Leave

theorem breakResume_ok {m m' : Machine} {f : Frame} (top : m.top? = some f) :
    (breakResume f).run m = .ok () m' ↔
      (∀ h, f.breakEntry? = some h → TargetIn f h) ∧ m' = m.resumeAt f.breakPc .nil := by
  constructor
  · intro run
    obtain ⟨r, m₀, search, run⟩ := bind_run_ok run
    obtain ⟨rfl, rfl, inside⟩ := findBreakHandler_ok search
    refine ⟨inside, ?_⟩
    cases entry : f.breakEntry? with
    | none =>
      simp only [entry, EStateM.run_bind, setExc_run, setMode_run, EStateM.Result.ok.injEq,
        true_and] at run
      rw [← run, resumeAt, Frame.breakPc, entry, withPc_self top]
    | some h =>
      simp only [entry] at run
      cases run
      simp only [resumeAt, Frame.breakPc, entry]
      rfl
  · rintro ⟨inside, rfl⟩
    simp only [breakResume, EStateM.run_bind, Reads.run_eq (findBreakHandler_reads inside)]
    cases entry : f.breakEntry? with
    | none =>
      simp only [EStateM.run_bind, setExc_run, setMode_run, resumeAt, Frame.breakPc, entry,
        withPc_self top]
    | some h =>
      simp only [resumeAt, Frame.breakPc, entry]
      rfl

theorem deliverStep_ok {m m' : Machine} {f : Frame} {acc : Int} {val : Value} (top : m.top? = some f) :
    (deliverStep f acc val).run m = .ok () m' ↔
      (0 ≤ acc → f.base + acc.toNat < m.stack.size) ∧ (∀ h, f.breakEntry? = some h → TargetIn f h) ∧
        m' = (m.receive f acc val).resumeAt f.breakPc .nil := by
  simp only [deliverStep]
  split
  · next landing =>
    have received : m.receive f acc val = m.withSlot (f.base + acc.toNat) val := if_pos landing
    simp only [EStateM.run_bind, setSlot_run]
    by_cases fits : f.base + acc.toNat < m.stack.size
    · simp only [fits, if_true]
      rw [breakResume_ok (by simpa using top), received]
      simp
    · simp [fits, landing]
  · next stays =>
    have received : m.receive f acc val = m := if_neg stays
    rw [breakResume_ok top, received]
    simp [stays]

theorem liftStore_getObj_run (r : ObjRef) (m : Machine) :
    (liftStore (Store.getObj r)).run m = match m.store.heap[r.idx]? with
      | some o => .ok o m
      | none => .error .runtime m := by
  simp only [liftStore_run, Store.getObj, EStateM.run_bind, EStateM.run_get]
  cases m.store.heap[r.idx]? <;> rfl

theorem breakOf?_run (v : Value) (m : Machine) : (breakOf? v).run m = match v with
    | .obj r =>
      match m.store.heap[r.idx]? with
      | some o => .ok o.body.breakInfo m
      | none => .error .runtime m
    | _ => .ok none m := by
  unfold breakOf?
  cases v with
  | obj r =>
    dsimp only
    rw [EStateM.run_bind, liftStore_getObj_run]
    cases m.store.heap[r.idx]? with
    | none => rfl
    | some o =>
      dsimp only
      cases o.body <;> rfl
  | _ => rfl

theorem breakOf?_of_kept {v : Value} {m m' : Machine} {b : Option (BreakKind × Nat × Value)}
    (read : Reads (breakOf? v) m b) (kept : Store.breaksKept.rel m.store m'.store) :
    Reads (breakOf? v) m' b := by
  unfold Reads at read ⊢
  rw [breakOf?_run] at read ⊢
  cases v with
  | obj r =>
    cases found : m.store.heap[r.idx]? with
    | none => simp [found] at read
    | some o =>
      obtain ⟨o', found', same⟩ := kept r.idx o found
      simp only [found, EStateM.Result.ok.injEq] at read
      simp [found', same, read.1]
  | _ =>
    cases read
    rfl

theorem frames_size_pos {m : Machine} {f : Frame} (top : m.top? = some f) : 0 < m.frames.size := by
  rw [top?, Array.back?_eq_getElem?] at top
  rcases Nat.eq_zero_or_pos m.frames.size with empty | pos
  · rw [Array.getElem?_eq_none (by omega)] at top
    cases top
  · exact pos

theorem popFrame_frames {m m₁ : Machine} (run : popFrame.run m = .ok () m₁) :
    m₁.frames = m.frames.pop ∧ 0 < m.frames.size ∧ Store.breaksKept.rel m.store m₁.store := by
  obtain ⟨f, top, s, kept, rfl⟩ := popFrame_ok run
  refine ⟨?_, frames_size_pos top, kept⟩
  simp only [frames, updCurrent, Array.getElem?_modify, if_true]
  cases m.contexts[m.current]? <;> rfl

theorem topFrame_ok {m m' : Machine} {f : Frame} (run : topFrame.run m = .ok f m') :
    m' = m ∧ m.top? = some f := by
  cases top : m.top? with
  | none =>
    rw [topFrame_run, top] at run
    cases run
  | some g =>
    rw [topFrame_run, top] at run
    cases run
    exact ⟨rfl, rfl⟩

theorem readOnly_depth : ReadOnly depth := by
  intro m
  rw [depth_run]
  split <;> rfl

theorem Keeps.unwindTo {o : StateOrder Machine} (pop : Keeps o popFrame) (n : Nat) : Keeps o (unwindTo n) := by
  unfold Machine.unwindTo
  exact Keeps.bind (readOnly_depth.keeps o) fun _ =>
    Keeps.bind (Keeps.forIn_range _ _ fun _ _ => Keeps.bind pop fun _ => Keeps.pure _) fun _ => Keeps.pure _

theorem depth_of_top {m : Machine} {f : Frame} (top : m.top? = some f) : Reads depth m m.frames.size := by
  cases stored : m.contexts[m.current]? with
  | none => simp [top?, frames, stored] at top
  | some c =>
    rw [Reads, depth_run, stored]
    simp [frames, stored]

theorem aimed_cases (brk : Option (BreakKind × Nat × Value)) (f : Frame) :
    (∀ kind val, brk ≠ some (kind, f.serial, val)) ∨ (∃ val, brk = some (.brk, f.serial, val)) ∨
      ∃ val, brk = some (.ret, f.serial, val) := by
  rcases brk with _ | ⟨kind, target, val⟩
  · exact .inl fun _ _ => nofun
  · by_cases aimed : target = f.serial
    · subst aimed
      cases kind
      · exact .inr (.inl ⟨val, rfl⟩)
      · exact .inr (.inr ⟨val, rfl⟩)
    · exact .inl fun _ _ same => aimed (by cases same; rfl)

inductive Unwinds (exc : Value) (brk : Option (BreakKind × Nat × Value)) :
    Int → Machine → Machine → Prop
  | caught {acc : Int} {m : Machine} {f : Frame} {h : Handler} :
      m.top? = some f → (∀ val, brk ≠ some (.brk, f.serial, val)) →
      FirstCatch m f exc brk.isSome h → TargetIn f h →
      Unwinds exc brk acc m (m.resumeAt h.target exc)
  | popped {acc : Int} {m m₁ m' : Machine} {f : Frame} :
      m.top? = some f → (∀ kind val, brk ≠ some (kind, f.serial, val)) →
      NoCatch m f exc brk.isSome → f.kind = .vm → popFrame.run m = .ok () m₁ →
      Unwinds exc brk f.acc m₁ m' → Unwinds exc brk acc m m'
  | left {acc : Int} {m m₁ m' : Machine} {f : Frame} :
      m.top? = some f → (∀ kind val, brk ≠ some (kind, f.serial, val)) →
      NoCatch m f exc brk.isSome → f.kind ≠ .vm → popFrame.run m = .ok () m₁ →
      (leaveWithException f.kind exc).run (m₁.withExc .nil) = .ok () m' → Unwinds exc brk acc m m'
  | delivered {acc : Int} {m : Machine} {f : Frame} {val : Value} :
      m.top? = some f → brk = some (.brk, f.serial, val) →
      (0 ≤ acc → f.base + acc.toNat < m.stack.size) → (∀ h, f.breakEntry? = some h → TargetIn f h) →
      Unwinds exc brk acc m ((m.receive f acc val).resumeAt f.breakPc .nil)
  | returned {acc : Int} {m m' : Machine} {f : Frame} {val : Value} :
      m.top? = some f → brk = some (.ret, f.serial, val) → NoCatch m f exc true →
      (returnFrom val).run (m.withExc .nil) = .ok () m' → Unwinds exc brk acc m m'

theorem Unwinds.top {exc : Value} {brk : Option (BreakKind × Nat × Value)} {acc : Int}
    {m m' : Machine} (unwinds : Unwinds exc brk acc m m') : ∃ f, m.top? = some f := by
  cases unwinds with
  | caught top => exact ⟨_, top⟩
  | popped top => exact ⟨_, top⟩
  | left top => exact ⟨_, top⟩
  | delivered top => exact ⟨_, top⟩
  | returned top => exact ⟨_, top⟩

section Relation

variable {exc : Value} {brk : Option (BreakKind × Nat × Value)}

theorem unwinds_of_go {fuel : Nat} {acc : Int} {m m' : Machine} (isBreak : Reads (breakOf? exc) m brk)
    (run : (unwind.go exc brk fuel acc).run m = .ok () m') : Unwinds exc brk acc m m' := by
  -- one frame per unit of fuel; the break the exception carries stays what it was
  induction fuel generalizing acc m with
  | zero => cases run
  | succ fuel ih =>
    rw [go_succ] at run
    obtain ⟨f, m₀, topRun, step⟩ := bind_run_ok run
    obtain ⟨rfl, top⟩ := topFrame_ok topRun
    rcases aimed_cases brk f with notAimed | ⟨val, rfl⟩ | ⟨val, rfl⟩
    · rw [frameStep_of_notAimed notAimed] at step
      rcases catchOr_ok isBreak step with ⟨h, first, inside, rfl⟩ | ⟨nothing, leave⟩
      · exact .caught top (fun val => notAimed .brk val) first inside
      · obtain ⟨m₁, pop, ⟨vm, run⟩ | ⟨boundary, run⟩⟩ := leaveStep_ok leave
        · have isBreak₁ := breakOf?_of_kept isBreak (popFrame_frames pop).2.2
          exact .popped top notAimed nothing vm pop (ih isBreak₁ run)
        · exact .left top notAimed nothing boundary pop run
    · rw [frameStep_brk] at step
      obtain ⟨fits, inside, rfl⟩ := (deliverStep_ok top).mp step
      exact .delivered top rfl fits inside
    · rw [frameStep_ret] at step
      rcases catchOr_ok isBreak step with ⟨h, first, inside, rfl⟩ | ⟨nothing, home⟩
      · exact .caught top (fun _ => nofun) first inside
      · refine .returned top rfl nothing ?_
        simpa only [returnHome, EStateM.run_bind, setExc_run] using home

theorem go_of_unwinds {acc : Int} {m m' : Machine} (unwinds : Unwinds exc brk acc m m') :
    ∀ {fuel : Nat}, Reads (breakOf? exc) m brk → m.frames.size < fuel →
      (unwind.go exc brk fuel acc).run m = .ok () m' := by
  -- the fuel covers the frames: each pop takes one frame and one unit of fuel
  induction unwinds with
  | @caught acc m f h top notBreak first inside =>
    intro fuel isBreak bound
    obtain ⟨fuel, rfl⟩ : ∃ k, fuel = k + 1 := ⟨fuel - 1, by omega⟩
    rw [go_succ, EStateM.run_bind, topFrame_run, top]
    dsimp only
    rcases aimed_cases brk f with notAimed | ⟨val, rfl⟩ | ⟨val, rfl⟩
    · rw [frameStep_of_notAimed notAimed]
      exact catchOr_of_firstCatch isBreak first inside
    · exact absurd rfl (notBreak val)
    · rw [frameStep_ret]
      exact catchOr_of_firstCatch isBreak first inside
  | popped top notAimed nothing vm pop _ ih =>
    intro fuel isBreak bound
    obtain ⟨fuel, rfl⟩ : ∃ k, fuel = k + 1 := ⟨fuel - 1, by omega⟩
    obtain ⟨popped, nonempty, kept⟩ := popFrame_frames pop
    rw [go_succ, EStateM.run_bind, topFrame_run, top]
    dsimp only
    rw [frameStep_of_notAimed notAimed, catchOr_of_noCatch isBreak nothing, leaveStep_of_vm pop vm]
    exact ih (breakOf?_of_kept isBreak kept) (by rw [popped, Array.size_pop]; omega)
  | left top notAimed nothing boundary pop run =>
    intro fuel isBreak bound
    obtain ⟨fuel, rfl⟩ : ∃ k, fuel = k + 1 := ⟨fuel - 1, by omega⟩
    rw [go_succ, EStateM.run_bind, topFrame_run, top]
    dsimp only
    rw [frameStep_of_notAimed notAimed, catchOr_of_noCatch isBreak nothing,
      leaveStep_of_boundary pop boundary]
    exact run
  | delivered top aimed fits inside =>
    intro fuel isBreak bound
    obtain ⟨fuel, rfl⟩ : ∃ k, fuel = k + 1 := ⟨fuel - 1, by omega⟩
    subst aimed
    rw [go_succ, EStateM.run_bind, topFrame_run, top]
    dsimp only
    rw [frameStep_brk]
    exact (deliverStep_ok top).mpr ⟨fits, inside, rfl⟩
  | returned top aimed nothing run =>
    intro fuel isBreak bound
    obtain ⟨fuel, rfl⟩ : ∃ k, fuel = k + 1 := ⟨fuel - 1, by omega⟩
    subst aimed
    rw [go_succ, EStateM.run_bind, topFrame_run, top]
    dsimp only
    rw [frameStep_ret, catchOr_of_noCatch isBreak nothing]
    simpa only [returnHome, EStateM.run_bind, setExc_run] using run

end Relation

theorem unwind_run_iff {exc : Value} {m m' : Machine} :
    (unwind exc).run m = .ok () m' ↔
      ∃ m₀ brk, (noteBacktrace exc).run m = .ok () m₀ ∧ Reads (breakOf? exc) m₀ brk ∧
        Unwinds exc brk (-1) m₀ m' := by
  constructor
  · intro run
    obtain ⟨_, m₀, noted, afterNote⟩ := bind_run_ok run
    obtain ⟨brk, m₁, breakRun, afterBreak⟩ := bind_run_ok afterNote
    obtain ⟨d, m₂, depthRun, search⟩ := bind_run_ok afterBreak
    obtain rfl := (readOnly_breakOf? exc).ok_state breakRun
    obtain rfl := readOnly_depth.ok_state depthRun
    have isBreak := (readOnly_breakOf? exc).reads breakRun
    exact ⟨_, brk, noted, isBreak, unwinds_of_go isBreak search⟩
  · rintro ⟨m₀, brk, noted, isBreak, unwinds⟩
    obtain ⟨f, top⟩ := unwinds.top
    simp only [unwind, EStateM.run_bind, noted, Reads.run_eq isBreak, Reads.run_eq (depth_of_top top)]
    exact go_of_unwinds unwinds isBreak (by omega)

end Machine

end RegisterVM
