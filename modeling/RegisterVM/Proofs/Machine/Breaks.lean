import RegisterVM.Proofs.Machine.Control
import RegisterVM.Machine.Run

set_option autoImplicit false

namespace RegisterVM

def Frame.ensureEntry? (f : Frame) : Option Handler :=
  match f.code with
  | .compiled _ body => body.handlers.find? fun h => h.kind == 1 && h.covers (f.pc - 1)
  | .native _ => none

def EnvSlots.frameOn : EnvSlots → Nat → Option Nat
  | .live c t _, ctx => if c = ctx then some t else none
  | .copied _, _ => none

namespace Machine

def popFrames : Nat → MachineM Unit
  | 0 => pure ()
  | k + 1 => do popFrame; popFrames k

theorem popFrames_succ_run {k : Nat} {m m' : Machine} :
    (popFrames (k + 1)).run m = .ok () m' ↔
      ∃ m₁, popFrame.run m = .ok () m₁ ∧ (popFrames k).run m₁ = .ok () m' := by
  constructor
  · intro run
    obtain ⟨_, m₁, pop, rest⟩ := bind_run_ok run
    exact ⟨m₁, pop, rest⟩
  · rintro ⟨m₁, pop, rest⟩
    simp only [popFrames, EStateM.run_bind, pop]
    exact rest

theorem frames_toList_of_pop {m m₁ : Machine} {below : List Frame} {g : Frame}
    (layout : m.frames.toList = below ++ [g]) (pop : popFrame.run m = .ok () m₁) :
    m₁.frames.toList = below := by
  rw [(popFrame_frames pop).1, Array.toList_pop, layout, List.dropLast_concat]

theorem top_of_frames_toList {m : Machine} {below : List Frame} {g : Frame}
    (layout : m.frames.toList = below ++ [g]) : m.top? = some g := by
  rw [top?, ← Array.getLast?_toList, layout, List.getLast?_concat]

section Catching

variable {m : Machine} {f : Frame} {exc : Value}

theorem verdict_break_iff {h : Handler} {b : Bool} :
    Verdict m f exc true h b ↔ b = (h.kind == 1 && h.covers (f.pc - 1)) := by
  constructor
  · intro verdict
    cases verdict with
    | outside cover => simp [cover]
    | ensure cover kind => simp [cover, kind]
    | rescue _ _ notBreak => cases notBreak
    | rescueBreak cover kind => simp [cover, kind]
    | other cover _ notEnsure => simp [cover, notEnsure]
  · rintro rfl
    by_cases cover : h.covers (f.pc - 1) = true
    · by_cases ensure : h.kind = 1
      · simpa [cover, ensure] using (Verdict.ensure cover ensure : Verdict m f exc true h true)
      · have notEnsure : (h.kind == 1) = false := by simpa using ensure
        by_cases rescue : h.kind = 0
        · simpa [cover, notEnsure] using
            (Verdict.rescueBreak cover rescue rfl : Verdict m f exc true h false)
        · simpa [cover, notEnsure] using
            (Verdict.other cover rescue ensure : Verdict m f exc true h false)
    · simpa [cover] using
        (Verdict.outside (Bool.eq_false_iff.mpr cover) : Verdict m f exc true h false)

theorem firstCatch_break_iff {h : Handler} :
    FirstCatch m f exc true h ↔ f.ensureEntry? = some h := by
  unfold FirstCatch Frame.ensureEntry?
  cases code : f.code with
  | native t => simp
  | compiled p body =>
    simp only [FrameCode.compiled.injEq, ← Array.find?_toList, List.find?_eq_some_iff_append,
      verdict_break_iff]
    constructor
    · rintro ⟨_, _, before, after, ⟨rfl, rfl⟩, split, misses, hit⟩
      exact ⟨hit.symm, before, after, split, fun h' member => by simp [← misses h' member]⟩
    · rintro ⟨hit, before, after, split, misses⟩
      exact ⟨p, body, before, after, ⟨rfl, rfl⟩, split,
        fun h' member => by simpa [Decidable.imp_iff_not_or] using misses h' member, hit.symm⟩

theorem noCatch_break_iff : NoCatch m f exc true ↔ f.ensureEntry? = none := by
  unfold NoCatch Frame.ensureEntry?
  cases code : f.code with
  | native t => simp
  | compiled p body =>
    simp only [FrameCode.compiled.injEq, ← Array.find?_toList, List.find?_eq_none,
      verdict_break_iff]
    constructor
    · intro misses h' member
      simpa using misses p body ⟨rfl, rfl⟩ h' member
    · rintro misses _ _ ⟨rfl, rfl⟩ h' member
      simpa using misses h' member

end Catching

section Passing

variable {exc : Value} {brk : Option (BreakKind × Nat × Value)} {acc : Int} {m m' : Machine}
  {g : Frame}

theorem unwinds_passing_iff (top : m.top? = some g)
    (notAimed : ∀ kind val, brk ≠ some (kind, g.serial, val)) (isBreak : brk.isSome = true) :
    Unwinds exc brk acc m m' ↔
      (∃ h, g.ensureEntry? = some h ∧ TargetIn g h ∧ m' = m.resumeAt h.target exc) ∨
        g.ensureEntry? = none ∧ ∃ m₁, popFrame.run m = .ok () m₁ ∧
          (g.kind = .vm ∧ Unwinds exc brk g.acc m₁ m' ∨
            g.kind ≠ .vm ∧ (leaveWithException g.kind exc).run (m₁.withExc .nil) = .ok () m') := by
  obtain ⟨b, rfl⟩ := Option.isSome_iff_exists.mp isBreak
  constructor
  · intro unwinds
    cases unwinds with
    | caught top' _ first inside =>
      cases top.symm.trans top'
      exact .inl ⟨_, firstCatch_break_iff.mp first, inside, rfl⟩
    | popped top' _ nothing vm pop rest =>
      cases top.symm.trans top'
      exact .inr ⟨noCatch_break_iff.mp nothing, _, pop, .inl ⟨vm, rest⟩⟩
    | left top' _ nothing boundary pop leave =>
      cases top.symm.trans top'
      exact .inr ⟨noCatch_break_iff.mp nothing, _, pop, .inr ⟨boundary, leave⟩⟩
    | delivered top' aimed =>
      cases top.symm.trans top'
      exact absurd aimed (notAimed _ _)
    | returned top' aimed =>
      cases top.symm.trans top'
      exact absurd aimed (notAimed _ _)
  · rintro (⟨h, entry, inside, rfl⟩ | ⟨none, m₁, pop, ⟨vm, rest⟩ | ⟨boundary, leave⟩⟩)
    · exact .caught top (fun val => notAimed .brk val) (firstCatch_break_iff.mpr entry) inside
    · exact .popped top notAimed (noCatch_break_iff.mpr none) vm pop rest
    · exact .left top notAimed (noCatch_break_iff.mpr none) boundary pop leave

end Passing

def Lands (v : Value) (T : Frame) (acc : Int) (m m' : Machine) : Prop :=
  (0 ≤ acc → T.base + acc.toNat < m.stack.size) ∧ (∀ h, T.breakEntry? = some h → TargetIn T h) ∧
    m' = (m.receive T acc v).resumeAt T.breakPc .nil

def ReturnsHome (exc v : Value) (T : Frame) (m m' : Machine) : Prop :=
  (∃ h, T.ensureEntry? = some h ∧ TargetIn T h ∧ m' = m.resumeAt h.target exc) ∨
    (T.ensureEntry? = none ∧ (returnFrom v).run (m.withExc .nil) = .ok () m')

section Arrival

variable {exc v : Value} {acc : Int} {m m' : Machine} {T : Frame}

theorem unwinds_break_arrival_iff (top : m.top? = some T) :
    Unwinds exc (some (.brk, T.serial, v)) acc m m' ↔ Lands v T acc m m' := by
  constructor
  · intro unwinds
    cases unwinds with
    | caught top' notBreak =>
      cases top.symm.trans top'
      exact absurd rfl (notBreak v)
    | popped top' notAimed =>
      cases top.symm.trans top'
      exact absurd rfl (notAimed .brk v)
    | left top' notAimed =>
      cases top.symm.trans top'
      exact absurd rfl (notAimed .brk v)
    | delivered top' aimed fits inside =>
      cases top.symm.trans top'
      cases aimed
      exact ⟨fits, inside, rfl⟩
    | returned top' aimed =>
      cases top.symm.trans top'
      cases aimed
  · rintro ⟨fits, inside, rfl⟩
    exact .delivered top rfl fits inside

theorem unwinds_return_arrival_iff (top : m.top? = some T) :
    Unwinds exc (some (.ret, T.serial, v)) acc m m' ↔ ReturnsHome exc v T m m' := by
  constructor
  · intro unwinds
    cases unwinds with
    | caught top' _ first inside =>
      cases top.symm.trans top'
      exact .inl ⟨_, firstCatch_break_iff.mp first, inside, rfl⟩
    | popped top' notAimed =>
      cases top.symm.trans top'
      exact absurd rfl (notAimed .ret v)
    | left top' notAimed =>
      cases top.symm.trans top'
      exact absurd rfl (notAimed .ret v)
    | delivered top' aimed =>
      cases top.symm.trans top'
      cases aimed
    | returned top' aimed nothing home =>
      cases top.symm.trans top'
      cases aimed
      exact .inr ⟨noCatch_break_iff.mp nothing, home⟩
  · rintro (⟨h, entry, inside, rfl⟩ | ⟨none, home⟩)
    · exact .caught top (fun _ => nofun) (firstCatch_break_iff.mpr entry) inside
    · exact .returned top rfl (noCatch_break_iff.mpr none) home

end Arrival

def lastAcc (up : List Frame) (acc : Int) : Int := (up.getLast?.map (·.acc)).getD acc

theorem lastAcc_cons (g : Frame) (up : List Frame) (acc : Int) :
    lastAcc (g :: up) acc = lastAcc up g.acc := by
  cases up with
  | nil => rfl
  | cons g' up => simp [lastAcc, List.getLast?_cons]

theorem lastAcc_of_ne_nil {up : List Frame} (nonempty : up ≠ []) (acc acc' : Int) :
    lastAcc up acc = lastAcc up acc' := by
  obtain ⟨g, found⟩ := List.getLast?_isSome.mpr nonempty |> Option.isSome_iff_exists.mp
  simp [lastAcc, found]

def Passage (exc : Value) (arrive : Int → Machine → Machine → Prop) (up : List Frame) (acc : Int)
    (m m' : Machine) : Prop :=
  ((∀ g ∈ up, g.ensureEntry? = none) ∧
      ∃ m₁, (popFrames up.length).run m = .ok () m₁ ∧ arrive (lastAcc up acc) m₁ m') ∨
    ∃ passed g rest h, up = passed ++ g :: rest ∧ (∀ g' ∈ passed, g'.ensureEntry? = none) ∧
      g.ensureEntry? = some h ∧ TargetIn g h ∧
      ∃ m₁, (popFrames passed.length).run m = .ok () m₁ ∧ m' = m₁.resumeAt h.target exc

section Passage

variable {exc : Value} {arrive : Int → Machine → Machine → Prop} {acc : Int} {m m' : Machine}

theorem passage_nil : Passage exc arrive [] acc m m' ↔ arrive acc m m' := by
  constructor
  · rintro (⟨_, m₁, none, arrived⟩ | ⟨passed, g, rest, h, split, _⟩)
    · cases none
      exact arrived
    · cases passed <;> cases split
  · intro arrived
    exact .inl ⟨(fun _ member => nomatch member), m, rfl, arrived⟩

theorem passage_cons {g : Frame} {up : List Frame} :
    Passage exc arrive (g :: up) acc m m' ↔
      (∃ h, g.ensureEntry? = some h ∧ TargetIn g h ∧ m' = m.resumeAt h.target exc) ∨
        g.ensureEntry? = none ∧ ∃ m₁, popFrame.run m = .ok () m₁ ∧ Passage exc arrive up g.acc m₁ m' := by
  constructor
  · rintro (⟨none, m₂, pops, arrived⟩ | ⟨passed, g', rest, h, split, none, entry, inside, m₂, pops, rfl⟩)
    · obtain ⟨m₁, pop, pops⟩ := popFrames_succ_run.mp pops
      refine .inr ⟨none g (by simp), m₁, pop, .inl ⟨fun g' member => none g' (by simp [member]), m₂, pops, ?_⟩⟩
      rwa [← lastAcc_cons]
    · cases passed with
      | nil =>
        cases split
        cases pops
        exact .inl ⟨h, entry, inside, rfl⟩
      | cons g₀ passed =>
        cases split
        obtain ⟨m₁, pop, pops⟩ := popFrames_succ_run.mp pops
        exact .inr ⟨none g (by simp), m₁, pop,
          .inr ⟨passed, g', rest, h, rfl, fun g'' member => none g'' (by simp [member]), entry, inside,
            m₂, pops, rfl⟩⟩
  · rintro (⟨h, entry, inside, rfl⟩ | ⟨none, m₁, pop, ⟨nones, m₂, pops, arrived⟩ |
      ⟨passed, g', rest, h, split, nones, entry, inside, m₂, pops, rfl⟩⟩)
    · exact .inr ⟨[], g, up, h, rfl, (fun _ member => nomatch member), entry, inside, m, rfl, rfl⟩
    · refine .inl ⟨?_, m₂, popFrames_succ_run.mpr ⟨m₁, pop, pops⟩, by rwa [lastAcc_cons]⟩
      rintro g' (_ | ⟨_, member⟩)
      · exact none
      · exact nones g' member
    · subst split
      refine .inr ⟨g :: passed, g', rest, h, rfl, ?_, entry, inside, m₂,
        popFrames_succ_run.mpr ⟨m₁, pop, pops⟩, rfl⟩
      rintro g'' (_ | ⟨_, member⟩)
      · exact none
      · exact nones g'' member

theorem passage_acc {up : List Frame} (nonempty : up ≠ []) (acc' : Int) :
    Passage exc arrive up acc m m' ↔ Passage exc arrive up acc' m m' := by
  unfold Passage
  rw [lastAcc_of_ne_nil nonempty acc acc']

theorem passage_withControl {e : Value} {md : Mode}
    (blind : ∀ {acc m m'}, arrive acc (m.withControl e md) m' ↔ arrive acc m m') :
    ∀ {up : List Frame} {acc : Int} {m m' : Machine},
      Passage exc arrive up acc (m.withControl e md) m' ↔ Passage exc arrive up acc m m'
  | [], acc, m, m' => by rw [passage_nil, passage_nil, blind]
  | g :: up, acc, m, m' => by
    simp only [passage_cons, resumeAt_withControl]
    refine or_congr Iff.rfl (and_congr_right fun _ => ?_)
    constructor
    · rintro ⟨n₁, pop, rest⟩
      obtain ⟨m₁, plain, rfl⟩ := oblivious_popFrame.run_ok_iff.mp pop
      exact ⟨m₁, plain, (passage_withControl blind).mp rest⟩
    · rintro ⟨m₁, pop, rest⟩
      exact ⟨_, oblivious_popFrame.run_ok_iff.mpr ⟨m₁, pop, rfl⟩, (passage_withControl blind).mpr rest⟩

end Passage

inductive Rethrows : Machine → Machine → Prop
  | settled {m : Machine} : (∀ exc, m.mode ≠ .throw exc) → Rethrows m m
  | next {m m₁ m' : Machine} {exc : Value} :
      m.mode = .throw exc → step.run m = .ok () m₁ → Rethrows m₁ m' → Rethrows m m'

theorem rethrows_settled_iff {m m' : Machine} (settled : ∀ exc, m.mode ≠ .throw exc) :
    Rethrows m m' ↔ m' = m := by
  constructor
  · intro rethrows
    cases rethrows with
    | settled _ => rfl
    | next mode => exact absurd mode (settled _)
  · rintro rfl
    exact .settled settled

theorem rethrows_throw_iff {m m' : Machine} {exc : Value} (mode : m.mode = .throw exc) :
    Rethrows m m' ↔ ∃ m₁, step.run m = .ok () m₁ ∧ Rethrows m₁ m' := by
  constructor
  · intro rethrows
    cases rethrows with
    | settled settled => exact absurd mode (settled exc)
    | next _ run rest => exact ⟨_, run, rest⟩
  · rintro ⟨m₁, run, rest⟩
    exact .next mode run rest

theorem resumeAt_settled (m : Machine) (pc : Int) (e : Value) :
    ∀ exc, (m.resumeAt pc e).mode ≠ .throw exc :=
  fun _ same => Mode.noConfusion same

theorem returnFrom_settled {v : Value} {n n' : Machine} (run : (returnFrom v).run n = .ok () n') :
    ∀ exc, n'.mode ≠ .throw exc := by
  obtain ⟨f, n₁, _, afterTop⟩ := bind_run_ok run
  obtain ⟨_, n₂, _, tail⟩ := bind_run_ok afterTop
  by_cases boundary : f.kind.isBoundary = true
  · simp only [boundary, if_true, leaveWithValue] at tail
    cases kind : f.kind with
    | resumed =>
      -- a finished fiber hands the value to its resumer
      simp only [kind, fiberEnded] at tail
      obtain ⟨c, n₃, _, rest⟩ := bind_run_ok tail
      cases prev : c.prev with
      | none => simp [prev, runtimeFault, throw_run] at rest
      | some r =>
        simp only [prev] at rest
        obtain ⟨_, n₄, _, rest⟩ := bind_run_ok rest
        obtain ⟨_, n₅, _, rest⟩ := bind_run_ok rest
        rw [setMode_run] at rest
        cases rest
        exact fun _ => Mode.noConfusion
    | vm | host =>
      simp only [kind] at tail
      obtain ⟨d, n₃, _, rest⟩ := bind_run_ok tail
      split at rest <;> rw [setMode_run] at rest <;> cases rest <;> exact fun _ => Mode.noConfusion
  · simp only [boundary, Bool.false_eq_true, if_false] at tail
    obtain ⟨_, n₃, _, rest⟩ := bind_run_ok tail
    obtain ⟨_, n₄, _, rest⟩ := bind_run_ok rest
    rw [setMode_run] at rest
    cases rest
    exact fun _ => Mode.noConfusion

theorem step_of_throw {m : Machine} {exc : Value} (mode : m.mode = .throw exc) :
    step.run m = (nativeRaise exc).run m := by
  simp only [step, EStateM.run_bind, EStateM.run_get, mode]

theorem nativeRaise_of_vm {m : Machine} {g : Frame} {exc : Value} (top : m.top? = some g)
    (vm : g.kind = .vm) : (nativeRaise exc).run m = (unwind exc).run m := by
  simp [nativeRaise, EStateM.run_bind, topFrame_run, top, vm]

theorem nativeRaise_of_boundary {m : Machine} {g : Frame} {exc : Value} (top : m.top? = some g)
    (boundary : g.kind ≠ .vm) :
    (nativeRaise exc).run m = (do noteBacktrace exc; popFrame; leaveWithException g.kind exc).run m := by
  simp [nativeRaise, EStateM.run_bind, topFrame_run, top, boundary]

theorem noteBacktrace_of_break {exc : Value} {m : Machine} {b : BreakKind × Nat × Value}
    (isBreak : Reads (breakOf? exc) m (some b)) : (noteBacktrace exc).run m = .ok () m := by
  unfold Reads at isBreak
  rw [breakOf?_run] at isBreak
  cases exc with
  | obj r =>
    cases found : m.store.heap[r.idx]? with
    | none => simp [found] at isBreak
    | some o =>
      simp only [found, EStateM.Result.ok.injEq] at isBreak
      simp only [noteBacktrace, EStateM.run_bind, liftStore_getObj_run, found]
      cases body : o.body <;> simp_all [Body.breakInfo]
  | _ => simp at isBreak

theorem unwind_break_iff {exc : Value} {m m' : Machine} {b : BreakKind × Nat × Value}
    (isBreak : Reads (breakOf? exc) m (some b)) :
    (unwind exc).run m = .ok () m' ↔ Unwinds exc (some b) (-1) m m' := by
  rw [unwind_run_iff]
  constructor
  · rintro ⟨m₀, brk, noted, isBreak₀, unwinds⟩
    rw [noteBacktrace_of_break isBreak] at noted
    cases noted
    cases isBreak.determ isBreak₀
    exact unwinds
  · intro unwinds
    exact ⟨m, some b, noteBacktrace_of_break isBreak, isBreak, unwinds⟩

theorem leaveWithException_of_top {kind : CallKind} {exc : Value} {n : Machine} {g : Frame}
    (notFiber : kind ≠ .resumed) (top : n.top? = some g) :
    (leaveWithException kind exc).run n = .ok () { n with mode := .throw exc } := by
  cases kind with
  | resumed => exact absurd rfl notFiber
  | vm | host =>
    simp only [leaveWithException, EStateM.run_bind, Reads.run_eq (depth_of_top top),
      if_pos (frames_size_pos top)]
    rfl

theorem withControl_own {m : Machine} {c : Context} (stored : m.contexts[m.current]? = some c)
    (md : Mode) : m.withControl c.exc md = { m with mode := md } := by
  simp only [withControl, withExc, updCurrent]
  congr 1
  apply Array.ext_getElem?
  intro j
  rw [Array.getElem?_modify]
  split
  · next here =>
    subst here
    simp [stored]
  · rfl

section ArrivalControl

variable {exc v : Value} {T : Frame} {acc : Int} {m m' : Machine} {e : Value} {md : Mode}

theorem lands_withControl : Lands v T acc (m.withControl e md) m' ↔ Lands v T acc m m' := by
  simp only [Lands, stack_withControl, receive_withControl, resumeAt_withControl]

theorem lands_settled (arrived : Lands v T acc m m') : ∀ exc, m'.mode ≠ .throw exc := by
  obtain ⟨_, _, rfl⟩ := arrived
  exact resumeAt_settled _ _ _

theorem returnsHome_withControl : ReturnsHome exc v T (m.withControl e md) m' ↔ ReturnsHome exc v T m m' := by
  simp only [ReturnsHome, resumeAt_withControl, withExc_withControl, returnFrom_withControl]

theorem returnsHome_settled (arrived : ReturnsHome exc v T m m') : ∀ e, m'.mode ≠ .throw e := by
  rcases arrived with ⟨h, _, _, rfl⟩ | ⟨_, home⟩
  · exact resumeAt_settled _ _ _
  · exact returnFrom_settled home

end ArrivalControl

structure Route (T : Frame) (up : List Frame) : Prop where
  notTarget : ∀ g ∈ up, g.serial ≠ T.serial
  notFiber : ∀ g ∈ up, g.kind ≠ .resumed
  called : ∀ g, up.getLast? = some g → g.kind = .vm
  onNative : ∀ (i : Nat) (g n : Frame), up[i]? = some g → up[i + 1]? = some n → g.kind ≠ .vm →
    n.ensureEntry? = none

theorem Route.tail {T g : Frame} {up : List Frame} (route : Route T (g :: up)) : Route T up where
  notTarget g' member := route.notTarget g' (List.mem_cons_of_mem g member)
  notFiber g' member := route.notFiber g' (List.mem_cons_of_mem g member)
  called g' last := by
    cases up with
    | nil => cases last
    | cons n rest => exact route.called g' (by rwa [List.getLast?_cons_cons])
  onNative i g' n found found' := route.onNative (i + 1) g' n found found'

theorem Route.below_boundary {T g : Frame} {up : List Frame} (route : Route T (g :: up))
    (boundary : g.kind ≠ .vm) : up ≠ [] ∧ ∀ n, up.head? = some n → n.ensureEntry? = none := by
  cases up with
  | nil => exact absurd (route.called g rfl) boundary
  | cons n rest =>
    refine ⟨nofun, fun n' first => ?_⟩
    cases first
    exact route.onNative 0 g n rfl rfl boundary

theorem withControl_of_top {m : Machine} {f : Frame} (top : m.top? = some f) (md : Mode) :
    ∃ e, m.withControl e md = { m with mode := md } := by
  cases stored : m.contexts[m.current]? with
  | none => simp [top?, frames, stored] at top
  | some c => exact ⟨c.exc, withControl_own stored md⟩

theorem exists_top_of_layout {m : Machine} {below rest : List Frame} {T : Frame}
    (layout : m.frames.toList = below ++ T :: rest) : ∃ f, m.top? = some f := by
  have nonempty : m.frames.toList ≠ [] := by simp [layout]
  rw [top?, ← Array.getLast?_toList]
  exact Option.isSome_iff_exists.mp (List.getLast?_isSome.mpr nonempty)

theorem passage_iff {exc v : Value} {kind : BreakKind} {below : List Frame} {T : Frame}
    {arrive : Int → Machine → Machine → Prop}
    (atTarget : ∀ {acc m m'}, m.top? = some T →
      (Unwinds exc (some (kind, T.serial, v)) acc m m' ↔ arrive acc m m'))
    (blind : ∀ {acc m m' e md}, arrive acc (m.withControl e md) m' ↔ arrive acc m m')
    (settles : ∀ {acc m m'}, arrive acc m m' → ∀ e, m'.mode ≠ .throw e) :
    ∀ {up : List Frame} {m : Machine}, Route T up →
      m.frames.toList = below ++ T :: up.reverse → Reads (breakOf? exc) m (some (kind, T.serial, v)) →
      (∀ {acc : Int} {m' : Machine}, (∃ m₁, Unwinds exc (some (kind, T.serial, v)) acc m m₁ ∧ Rethrows m₁ m') ↔
          Passage exc arrive up acc m m') ∧
        (m.mode = .throw exc → up ≠ [] → (∀ g, up.head? = some g → g.kind = .vm ∨ g.ensureEntry? = none) →
          ∀ {m' : Machine}, Rethrows m m' ↔ Passage exc arrive up (-1) m m') := by
  intro up
  -- one frame at a time from the top: raised there (first part) or re-raised there (second)
  induction up with
  | nil =>
    intro m _ layout _
    have top : m.top? = some T := top_of_frames_toList (by simpa using layout)
    refine ⟨fun {acc m'} => ⟨?_, fun passage => ?_⟩, fun _ nonempty _ => absurd rfl nonempty⟩
    · rintro ⟨m₁, unwinds, rest⟩
      have arrived := (atTarget top).mp unwinds
      rw [rethrows_settled_iff (settles arrived)] at rest
      subst rest
      exact passage_nil.mpr arrived
    · have arrived := passage_nil.mp passage
      exact ⟨m', (atTarget top).mpr arrived, .settled (settles arrived)⟩
  | cons g up ih =>
    intro m route layout isBreak
    have split : m.frames.toList = (below ++ T :: up.reverse) ++ [g] := by simpa using layout
    have top : m.top? = some g := top_of_frames_toList split
    have notAimed : ∀ kind' val, some (kind, T.serial, v) ≠ some (kind', g.serial, val) := by
      intro kind' val same
      simp only [Option.some.injEq, Prod.mk.injEq] at same
      exact route.notTarget g (by simp) same.2.1.symm
    have after : ∀ {m₁ : Machine}, popFrame.run m = .ok () m₁ →
        m₁.frames.toList = below ++ T :: up.reverse ∧ Reads (breakOf? exc) m₁ (some (kind, T.serial, v)) :=
      fun pop => ⟨frames_toList_of_pop split pop, breakOf?_of_kept isBreak (popFrame_frames pop).2.2⟩
    -- leaving through a boundary `g`, the break is re-raised below it in the next steps
    have rethrown : ∀ {m₁ : Machine}, popFrame.run m = .ok () m₁ → g.kind ≠ .vm → ∀ e {m'},
        Rethrows (m₁.withControl e (.throw exc)) m' ↔ Passage exc arrive up g.acc m₁ m' := by
      intro m₁ pop boundary e m'
      obtain ⟨layout₁, isBreak₁⟩ := after pop
      obtain ⟨nonempty, first⟩ := route.below_boundary boundary
      have layout₂ : (m₁.withControl e (.throw exc)).frames.toList = below ++ T :: up.reverse := by
        simpa using layout₁
      have isBreak₂ : Reads (breakOf? exc) (m₁.withControl e (.throw exc)) (some (kind, T.serial, v)) :=
        breakOf?_of_kept isBreak₁ (Store.breaksKept.refl _)
      rw [(ih route.tail layout₂ isBreak₂).2 rfl nonempty (fun n head => .inr (first n head)),
        passage_withControl blind, passage_acc nonempty]
    have leaves : ∀ {m₁ : Machine}, popFrame.run m = .ok () m₁ →
        (leaveWithException g.kind exc).run (m₁.withExc .nil) = .ok () (m₁.withControl .nil (.throw exc)) := by
      intro m₁ pop
      obtain ⟨f, top₁⟩ := exists_top_of_layout (after pop).1
      exact leaveWithException_of_top (route.notFiber g (by simp)) (by simpa using top₁)
    have raised : ∀ {acc m'}, (∃ m₁, Unwinds exc (some (kind, T.serial, v)) acc m m₁ ∧ Rethrows m₁ m') ↔
        Passage exc arrive (g :: up) acc m m' := by
      intro acc m'
      rw [passage_cons]
      constructor
      · rintro ⟨m₁, unwinds, rest⟩
        rcases (unwinds_passing_iff top notAimed rfl).mp unwinds with
          ⟨h, entry, inside, rfl⟩ | ⟨none, m₂, pop, ⟨_, onward⟩ | ⟨boundary, leave⟩⟩
        · rw [rethrows_settled_iff (resumeAt_settled _ _ _)] at rest
          exact .inl ⟨h, entry, inside, rest⟩
        · obtain ⟨layout₂, isBreak₂⟩ := after pop
          exact .inr ⟨none, m₂, pop, ((ih route.tail layout₂ isBreak₂).1).mp ⟨m₁, onward, rest⟩⟩
        · rw [leaves pop] at leave
          cases leave
          exact .inr ⟨none, m₂, pop, (rethrown pop boundary .nil).mp rest⟩
      · rintro (⟨h, entry, inside, rfl⟩ | ⟨none, m₂, pop, rest⟩)
        · exact ⟨_, (unwinds_passing_iff top notAimed rfl).mpr (.inl ⟨h, entry, inside, rfl⟩),
            .settled (resumeAt_settled _ _ _)⟩
        · obtain ⟨layout₂, isBreak₂⟩ := after pop
          by_cases vm : g.kind = .vm
          · obtain ⟨m₁, onward, rethrows⟩ := ((ih route.tail layout₂ isBreak₂).1).mpr rest
            exact ⟨m₁, (unwinds_passing_iff top notAimed rfl).mpr (.inr ⟨none, m₂, pop, .inl ⟨vm, onward⟩⟩),
              rethrows⟩
          · exact ⟨_, (unwinds_passing_iff top notAimed rfl).mpr (.inr ⟨none, m₂, pop, .inr ⟨vm, leaves pop⟩⟩),
              (rethrown pop vm .nil).mpr rest⟩
    refine ⟨raised, fun mode _ first {m'} => ?_⟩
    rw [rethrows_throw_iff mode]
    simp only [step_of_throw mode]
    by_cases vm : g.kind = .vm
    · -- the frame below a boundary raises again: a call instruction's frame unwinds
      simp only [nativeRaise_of_vm top vm, unwind_break_iff isBreak]
      exact raised
    · -- a built-in method entered from outside the loop is left as well
      have none : g.ensureEntry? = none := (first g rfl).resolve_left vm
      simp only [nativeRaise_of_boundary top vm, passage_cons, none, reduceCtorEq, false_and,
        exists_false, false_or, true_and]
      constructor
      · rintro ⟨m₁, run, rest⟩
        rw [EStateM.run_bind, noteBacktrace_of_break isBreak] at run
        obtain ⟨_, m₂, pop, leave⟩ := bind_run_ok run
        obtain ⟨f, top₂⟩ := exists_top_of_layout (after pop).1
        rw [leaveWithException_of_top (route.notFiber g (by simp)) top₂] at leave
        cases leave
        obtain ⟨e, same⟩ := withControl_of_top top₂ (.throw exc)
        rw [← same] at rest
        exact ⟨m₂, pop, (rethrown pop vm e).mp rest⟩
      · rintro ⟨m₂, pop, rest⟩
        obtain ⟨f, top₂⟩ := exists_top_of_layout (after pop).1
        obtain ⟨e, same⟩ := withControl_of_top top₂ (.throw exc)
        refine ⟨_, ?_, (rethrown pop vm e).mpr rest⟩
        rw [same]
        simp only [EStateM.run_bind, noteBacktrace_of_break isBreak, pop]
        exact leaveWithException_of_top (route.notFiber g (by simp)) top₂

def breakOp (a : Nat) (f : Frame) : MachineM Unit := do
  let d ← frameProc f
  if d.strict then returnFrom (← reg f a)
  else
    match ← breakTarget f with
    | .error exc => unwind exc
    | .ok t => raiseBreak .brk t (← reg f a)

def returnBlockOp (a : Nat) (f : Frame) : MachineM Unit := do
  let d ← frameProc f
  if d.strict || d.upper.isNone then returnFrom (← reg f a)
  else
    match ← returnTarget f with
    | .error exc => unwind exc
    | .ok t => raiseBreak .ret t (← reg f a)

theorem instruction_brk (a b c : Nat) (f : Frame) (body : Procedure) :
    instruction .brk a b c f body = (do let _ ← liftStore Store.wellKnown; breakOp a f) := by
  simp only [instruction]
  rfl

theorem instruction_retBlk (a b c : Nat) (f : Frame) (body : Procedure) :
    instruction .retBlk a b c f body = (do let _ ← liftStore Store.wellKnown; returnBlockOp a f) := by
  simp only [instruction]
  rfl

theorem instruction_ret (a b c : Nat) (f : Frame) (body : Procedure) :
    instruction .ret a b c f body = (do let _ ← liftStore Store.wellKnown; returnFrom (← reg f a)) := by
  simp only [instruction]

theorem wellKnown_run {α : Type} (x : MachineM α) (m : Machine) :
    (do let _ ← liftStore Store.wellKnown; x).run m = x.run m := rfl

def breakObj (kind : BreakKind) (t : Nat) (v : Value) : Obj := { cls := none, body := .brk kind t v }

def withObj (m : Machine) (o : Obj) : Machine :=
  { m with store := { m.store with heap := m.store.heap.push o } }

@[simp] theorem frames_withObj (m : Machine) (o : Obj) : (m.withObj o).frames = m.frames := rfl

theorem breakOf?_breakObj (m : Machine) (kind : BreakKind) (t : Nat) (v : Value) :
    Reads (breakOf? (.obj ⟨m.store.heap.size⟩)) (m.withObj (breakObj kind t v)) (some (kind, t, v)) := by
  unfold Reads
  rw [breakOf?_run]
  simp [withObj, breakObj, Body.breakInfo]

theorem raiseBreak_run_iff {kind : BreakKind} {t : Nat} {v : Value} {m m' : Machine} :
    (raiseBreak kind t v).run m = .ok () m' ↔
      Unwinds (.obj ⟨m.store.heap.size⟩) (some (kind, t, v)) (-1) (m.withObj (breakObj kind t v)) m' := by
  have alloc : (liftStore (Store.alloc (breakObj kind t v))).run m =
      .ok ⟨m.store.heap.size⟩ (m.withObj (breakObj kind t v)) := rfl
  simp only [raiseBreak, EStateM.run_bind]
  rw [show ({ cls := none, body := .brk kind t v } : Obj) = breakObj kind t v from rfl, alloc]
  exact unwind_break_iff (breakOf?_breakObj m kind t v)

def envSlots? (m : Machine) (e : ObjRef) : Option EnvSlots :=
  match m.store.heap[e.idx]? with
  | some o =>
    match o.body with
    | .env ed => some ed.slots
    | _ => none
  | none => none

theorem liveEnvFrame_reads {m : Machine} {e : ObjRef} {slots : EnvSlots} (found : m.envSlots? e = some slots) :
    Reads (breakTarget.liveEnvFrame (some e)) m (slots.frameOn m.current) := by
  unfold envSlots? at found
  cases stored : m.store.heap[e.idx]? with
  | none => simp [stored] at found
  | some o =>
    cases body : o.body with
    | env ed =>
      simp only [stored, body, Option.some.injEq] at found
      subst found
      simp only [Reads, breakTarget.liveEnvFrame, envData, EStateM.run_bind, liftStore_getObj_run, stored, body]
      cases slots : ed.slots with
      | live c t base =>
        by_cases here : c = m.current
        · simp [slots, EnvSlots.frameOn, here, currentIndex]
        · simp [slots, EnvSlots.frameOn, here, currentIndex]
      | copied own => simp [slots, EnvSlots.frameOn]
    | _ => simp [stored, body] at found

section Targets

variable {m : Machine} {f : Frame} {d : ProcData}

theorem breakTarget_reaches {t : Nat} (proc : Reads (frameProc f) m d) (notOrphan : d.orphan = false)
    (live : Reads (breakTarget.liveEnvFrame d.env) m (some t)) (other : t ≠ f.serial) :
    Reads (breakTarget f) m (.ok t) := by
  unfold Reads at *
  simp [breakTarget, EStateM.run_bind, proc, notOrphan, live, other]

theorem breakTarget_fails (proc : Reads (frameProc f) m d)
    (fails : d.orphan = true ∨ ∃ r, Reads (breakTarget.liveEnvFrame d.env) m r ∧ ∀ t ∈ r, t = f.serial) :
    (breakTarget f).run m =
      (do pure (Except.error (← newErr (·.localJumpError) "break from proc-closure"))).run m := by
  unfold Reads at proc
  by_cases orphan : d.orphan = true
  · simp [breakTarget, EStateM.run_bind, proc, orphan]
  · obtain ⟨r, live, own⟩ := fails.resolve_left orphan
    unfold Reads at live
    cases r with
    | none => simp [breakTarget, EStateM.run_bind, proc, orphan, live]
    | some t => simp [breakTarget, EStateM.run_bind, proc, orphan, live, own t rfl]

theorem returnTarget_fails {env : Option ObjRef} (proc : Reads (frameProc f) m d)
    (home : Reads (returnTarget.climb d.env d.upper (m.store.heap.size + 1)) m env)
    (dead : Reads (breakTarget.liveEnvFrame env) m none) :
    (returnTarget f).run m =
      (do pure (Except.error (← newErr (·.localJumpError) "unexpected return"))).run m := by
  unfold Reads at *
  simp [returnTarget, EStateM.run_bind, proc, home, dead]

end Targets

section Operations

variable {a : Nat} {m : Machine} {f : Frame} {d : ProcData} {v : Value}

theorem breakOp_strict (proc : Reads (frameProc f) m d) (strict : d.strict = true) :
    (breakOp a f).run m = (do returnFrom (← reg f a)).run m := by
  unfold Reads at proc
  simp [breakOp, EStateM.run_bind, proc, strict]

theorem breakOp_fails (proc : Reads (frameProc f) m d) (notStrict : d.strict = false)
    (fails : d.orphan = true ∨ ∃ r, Reads (breakTarget.liveEnvFrame d.env) m r ∧ ∀ t ∈ r, t = f.serial) :
    (breakOp a f).run m = (do unwind (← newErr (·.localJumpError) "break from proc-closure")).run m := by
  have target := breakTarget_fails proc fails
  unfold Reads at proc
  simp only [breakOp, EStateM.run_bind, proc, notStrict, Bool.false_eq_true, if_false, target]
  cases (newErr (·.localJumpError) "break from proc-closure").run m <;> rfl

theorem breakOp_reaches {t : Nat} (proc : Reads (frameProc f) m d) (notStrict : d.strict = false)
    (target : Reads (breakTarget f) m (.ok t)) (value : Reads (reg f a) m v) :
    (breakOp a f).run m = (raiseBreak .brk t v).run m := by
  unfold Reads at proc target value
  simp [breakOp, EStateM.run_bind, proc, notStrict, target, value]

theorem returnBlockOp_local (proc : Reads (frameProc f) m d) (isLocal : (d.strict || d.upper.isNone) = true) :
    (returnBlockOp a f).run m = (do returnFrom (← reg f a)).run m := by
  unfold Reads at proc
  simp only [returnBlockOp, EStateM.run_bind, proc, isLocal, if_true]

theorem returnBlockOp_fails {env : Option ObjRef} (proc : Reads (frameProc f) m d)
    (notLocal : (d.strict || d.upper.isNone) = false)
    (home : Reads (returnTarget.climb d.env d.upper (m.store.heap.size + 1)) m env)
    (dead : Reads (breakTarget.liveEnvFrame env) m none) :
    (returnBlockOp a f).run m = (do unwind (← newErr (·.localJumpError) "unexpected return")).run m := by
  have target := returnTarget_fails proc home dead
  unfold Reads at proc
  simp only [returnBlockOp, EStateM.run_bind, proc, notLocal, Bool.false_eq_true, if_false, target]
  cases (newErr (·.localJumpError) "unexpected return").run m <;> rfl

theorem returnBlockOp_reaches {t : Nat} (proc : Reads (frameProc f) m d)
    (notLocal : (d.strict || d.upper.isNone) = false) (target : Reads (returnTarget f) m (.ok t))
    (value : Reads (reg f a) m v) :
    (returnBlockOp a f).run m = (raiseBreak .ret t v).run m := by
  unfold Reads at proc target value
  simp only [returnBlockOp, EStateM.run_bind, proc, notLocal, Bool.false_eq_true, if_false, target, value]

end Operations

section Instructions

variable {a b c : Nat} {body : Procedure} {f T : Frame} {d : ProcData} {v : Value} {m m' : Machine}
  {below up : List Frame}

theorem brk_of_strict (proc : Reads (frameProc f) m d) (strict : d.strict = true) :
    (instruction .brk a b c f body).run m = (instruction .ret a b c f body).run m := by
  rw [instruction_brk, wellKnown_run, breakOp_strict proc strict, instruction_ret, wellKnown_run]

theorem brk_of_unreachable (proc : Reads (frameProc f) m d) (notStrict : d.strict = false)
    (unreachable : d.orphan = true ∨ d.env = none ∨ ∃ e slots, d.env = some e ∧ m.envSlots? e = some slots ∧
      ∀ t, slots.frameOn m.current = some t → t = f.serial) :
    (instruction .brk a b c f body).run m =
      (do unwind (← newErr (·.localJumpError) "break from proc-closure")).run m := by
  rw [instruction_brk, wellKnown_run]
  refine breakOp_fails proc notStrict ?_
  rcases unreachable with orphan | noEnv | ⟨e, slots, env, found, own⟩
  · exact .inl orphan
  · exact .inr ⟨Option.none, by rw [noEnv]; rfl, fun t member => by cases member⟩
  · exact .inr ⟨_, env ▸ liveEnvFrame_reads found, fun t found' => own t found'⟩

theorem brk_passage_iff {e : ObjRef} {base : Nat} (proc : Reads (frameProc f) m d)
    (notStrict : d.strict = false) (notOrphan : d.orphan = false) (env : d.env = some e)
    (live : m.envSlots? e = some (.live m.current T.serial base)) (other : T.serial ≠ f.serial)
    (value : Reads (reg f a) m v) (route : Route T up) (layout : m.frames.toList = below ++ T :: up.reverse) :
    (∃ m₁, (instruction .brk a b c f body).run m = .ok () m₁ ∧ Rethrows m₁ m') ↔
      Passage (.obj ⟨m.store.heap.size⟩) (Lands v T) up (-1) (m.withObj (breakObj .brk T.serial v)) m' := by
  have reach : Reads (breakTarget.liveEnvFrame d.env) m (some T.serial) := by
    simpa [env, EnvSlots.frameOn] using liveEnvFrame_reads live
  have target := breakTarget_reaches proc notOrphan reach other
  simp only [instruction_brk, wellKnown_run, breakOp_reaches proc notStrict target value, raiseBreak_run_iff]
  exact (passage_iff unwinds_break_arrival_iff lands_withControl lands_settled route
    (by simpa using layout) (breakOf?_breakObj m .brk T.serial v)).1

theorem retBlk_of_local (proc : Reads (frameProc f) m d) (isLocal : (d.strict || d.upper.isNone) = true) :
    (instruction .retBlk a b c f body).run m = (instruction .ret a b c f body).run m := by
  rw [instruction_retBlk, wellKnown_run, returnBlockOp_local proc isLocal, instruction_ret, wellKnown_run]

theorem retBlk_of_unreachable {env : Option ObjRef} (proc : Reads (frameProc f) m d)
    (notLocal : (d.strict || d.upper.isNone) = false)
    (home : Reads (returnTarget.climb d.env d.upper (m.store.heap.size + 1)) m env)
    (unreachable : env = none ∨ ∃ e slots, env = some e ∧ m.envSlots? e = some slots ∧
      slots.frameOn m.current = none) :
    (instruction .retBlk a b c f body).run m =
      (do unwind (← newErr (·.localJumpError) "unexpected return")).run m := by
  rw [instruction_retBlk, wellKnown_run]
  refine returnBlockOp_fails proc notLocal home ?_
  rcases unreachable with noEnv | ⟨e, slots, rfl, found, dead⟩
  · rw [noEnv]
    rfl
  · simpa [dead] using liveEnvFrame_reads found

theorem retBlk_passage_iff (proc : Reads (frameProc f) m d)
    (notLocal : (d.strict || d.upper.isNone) = false) (target : Reads (returnTarget f) m (.ok T.serial))
    (value : Reads (reg f a) m v) (route : Route T up) (layout : m.frames.toList = below ++ T :: up.reverse) :
    (∃ m₁, (instruction .retBlk a b c f body).run m = .ok () m₁ ∧ Rethrows m₁ m') ↔
      Passage (.obj ⟨m.store.heap.size⟩) (fun _ => ReturnsHome (.obj ⟨m.store.heap.size⟩) v T) up (-1)
        (m.withObj (breakObj .ret T.serial v)) m' := by
  simp only [instruction_retBlk, wellKnown_run, returnBlockOp_reaches proc notLocal target value,
    raiseBreak_run_iff]
  exact (passage_iff unwinds_return_arrival_iff returnsHome_withControl returnsHome_settled route
    (by simpa using layout) (breakOf?_breakObj m .ret T.serial v)).1

end Instructions

theorem breaks_and_block_returns {a b c : Nat} {body : Procedure} {f : Frame} {d : ProcData}
    {m : Machine} :
    (Reads (frameProc f) m d → d.strict = true →
      (instruction .brk a b c f body).run m = (instruction .ret a b c f body).run m) ∧
    (Reads (frameProc f) m d → d.strict = false →
      (d.orphan = true ∨ d.env = none ∨ ∃ e slots, d.env = some e ∧ m.envSlots? e = some slots ∧
        ∀ t, slots.frameOn m.current = some t → t = f.serial) →
      (instruction .brk a b c f body).run m =
        (do unwind (← newErr (·.localJumpError) "break from proc-closure")).run m) ∧
    (∀ {e : ObjRef} {base : Nat} {T : Frame} {v : Value} {below up : List Frame} {m' : Machine},
      Reads (frameProc f) m d → d.strict = false → d.orphan = false → d.env = some e →
      m.envSlots? e = some (.live m.current T.serial base) → T.serial ≠ f.serial →
      Reads (reg f a) m v → Route T up → m.frames.toList = below ++ T :: up.reverse →
      ((∃ m₁, (instruction .brk a b c f body).run m = .ok () m₁ ∧ Rethrows m₁ m') ↔
        Passage (.obj ⟨m.store.heap.size⟩) (Lands v T) up (-1)
          (m.withObj (breakObj .brk T.serial v)) m')) ∧
    (Reads (frameProc f) m d → (d.strict || d.upper.isNone) = true →
      (instruction .retBlk a b c f body).run m = (instruction .ret a b c f body).run m) ∧
    (∀ {env : Option ObjRef}, Reads (frameProc f) m d → (d.strict || d.upper.isNone) = false →
      Reads (returnTarget.climb d.env d.upper (m.store.heap.size + 1)) m env →
      (env = none ∨ ∃ e slots, env = some e ∧ m.envSlots? e = some slots ∧
        slots.frameOn m.current = none) →
      (instruction .retBlk a b c f body).run m =
        (do unwind (← newErr (·.localJumpError) "unexpected return")).run m) ∧
    (∀ {T : Frame} {v : Value} {below up : List Frame} {m' : Machine},
      Reads (frameProc f) m d → (d.strict || d.upper.isNone) = false →
      Reads (returnTarget f) m (.ok T.serial) → Reads (reg f a) m v → Route T up →
      m.frames.toList = below ++ T :: up.reverse →
      ((∃ m₁, (instruction .retBlk a b c f body).run m = .ok () m₁ ∧ Rethrows m₁ m') ↔
        Passage (.obj ⟨m.store.heap.size⟩) (fun _ => ReturnsHome (.obj ⟨m.store.heap.size⟩) v T)
          up (-1) (m.withObj (breakObj .ret T.serial v)) m')) :=
  ⟨brk_of_strict, brk_of_unreachable, brk_passage_iff, retBlk_of_local, retBlk_of_unreachable,
    retBlk_passage_iff⟩

-- A block whose break or return stands inside its own begin/ensure, called by the frame that made it.
def ensuredBlockBody : Procedure :=
  { code := #[0, 0, 0, 0], handlers := #[{ kind := 1, start := 0, stop := 4, target := 2 }] }

def ensuredBlockData : ProcData := { code := .compiled ensuredBlockBody, upper := some ⟨2⟩, env := some ⟨1⟩ }

def callerFrame : Frame :=
  { serial := 1, base := 0, nregs := 2, code := .compiled ⟨2⟩ {}, argc := 0, kwc := 0, kind := .host,
    mid := Sym.none, owner := none, acc := 0, blk := .nil }

def ensuredBlockFrame : Frame :=
  { serial := 2, base := 2, nregs := 2, code := .compiled ⟨0⟩ ensuredBlockBody, pc := 2, argc := 0, kwc := 0,
    kind := .vm, mid := Sym.none, owner := none, acc := 1, blk := .nil }

def ensuredBlockContext : Context :=
  { stack := #[.nil, .nil, .nil, .int 7], frames := #[callerFrame, ensuredBlockFrame], status := .running }

def ensuredBlockMachine : Machine :=
  { store := { heap := #[{ cls := none, body := .proc ensuredBlockData },
      { cls := none, body := .env { slots := .live 0 1 0, size := 1, mid := Sym.none, owner := none } },
      { cls := none, body := .proc { code := .compiled {} } }] },
    contexts := #[ensuredBlockContext] }

theorem block_break_and_return_run_ensure :
    (∃ m₁, (instruction .brk 1 0 0 ensuredBlockFrame ensuredBlockBody).run ensuredBlockMachine = .ok () m₁ ∧
      Rethrows m₁ ((ensuredBlockMachine.withObj (breakObj .brk 1 (.int 7))).resumeAt 2 (.obj ⟨3⟩))) ∧
    (∃ m₁, (instruction .retBlk 1 0 0 ensuredBlockFrame ensuredBlockBody).run ensuredBlockMachine = .ok () m₁ ∧
      Rethrows m₁ ((ensuredBlockMachine.withObj (breakObj .ret 1 (.int 7))).resumeAt 2 (.obj ⟨3⟩))) := by
  have returns := @breaks_and_block_returns 1 0 0 ensuredBlockBody ensuredBlockFrame ensuredBlockData
    ensuredBlockMachine
  have proc : Reads (frameProc ensuredBlockFrame) ensuredBlockMachine ensuredBlockData := rfl
  have value : Reads (reg ensuredBlockFrame 1) ensuredBlockMachine (.int 7) := rfl
  -- the block's home is its caller, found through the method's procedure above it
  have home : Reads (returnTarget ensuredBlockFrame) ensuredBlockMachine (.ok callerFrame.serial) := rfl
  -- the block frame stands right above its caller, and its ensure covers the break
  have route : Route callerFrame [ensuredBlockFrame] :=
    ⟨by decide, by decide, fun _ last => by cases last; rfl, fun i _ _ _ next _ => by cases i <;> cases next⟩
  have layout : ensuredBlockMachine.frames.toList = [] ++ callerFrame :: [ensuredBlockFrame].reverse := rfl
  have ensured : ensuredBlockFrame.ensureEntry? = some { kind := 1, start := 0, stop := 4, target := 2 } := rfl
  have inside : TargetIn ensuredBlockFrame { kind := 1, start := 0, stop := 4, target := 2 } :=
    show (0 : Int) ≤ 2 ∧ (2 : Int) < (4 : Nat) by decide
  have passage : ∀ {arrive : Int → Machine → Machine → Prop} (o : Obj),
      Passage (.obj ⟨3⟩) arrive [ensuredBlockFrame] (-1) (ensuredBlockMachine.withObj o)
        ((ensuredBlockMachine.withObj o).resumeAt 2 (.obj ⟨3⟩)) :=
    fun _ => .inr ⟨[], _, [], _, rfl, fun _ member => (by cases member), ensured, inside, _, rfl, rfl⟩
  exact ⟨(returns.2.2.1 proc rfl rfl rfl rfl (by decide) value route layout).mpr (passage _),
    (returns.2.2.2.2.2 proc rfl home value route layout).mpr (passage _)⟩

end Machine

end RegisterVM
