import RegisterVM.Proofs.Machine.ExceptionSlot
import RegisterVM.Proofs.Machine.Parameters

set_option autoImplicit false

namespace RegisterVM

namespace Machine

def Waiting (m : Machine) : Prop :=
  ∀ (i : Nat) (c : Context), m.contexts[i]? = some c → c.status ≠ .terminated → i ≠ m.current →
    c.exc = .nil

theorem Clear.waiting {m : Machine} (clear : m.Clear) : m.Waiting :=
  fun i c found live _ => clear i c found live

def Caught (m : Machine) : Prop :=
  ∃ m₀ f exc brk h, Calm m₀ ∧ m₀.top? = some f ∧ Reads (breakOf? exc) m₀ brk ∧
    FirstCatch m₀ f exc brk.isSome h ∧ TargetIn f h ∧ m = m₀.resumeAt h.target exc

structure Holding (m : Machine) : Prop where
  conventional : m.Conventional
  waiting : m.Waiting

structure Ending (m : Machine) : Prop extends Holding m where
  stopping : (∃ err, m.mode = .fatal err) ∨ ∃ f, m.mode = .halted (.fault f)

def Consumed (m : Machine) : Prop := Calm m ∨ Caught m ∨ Ending m

section Resuming

variable {m : Machine}

theorem slotsKept_withPc (pc : Int) : slotsKept.rel m (m.withPc pc) :=
  slotsKept_modifyTop_of (g := fun f => { f with pc }) (fun _ => rfl) m

theorem slotsKept_withExc_nil : slotsKept.rel m (m.withExc .nil) :=
  slotsKept_clearExc m

theorem slotsKept_withSlot (i : Nat) (v : Value) : slotsKept.rel m (m.withSlot i v) :=
  slotsKept_modifyContext_of _ (fun _ _ live => .inr ⟨live, rfl⟩) fun _ _ codes => codes

theorem slotsKept_receive (f : Frame) (acc : Int) (v : Value) : slotsKept.rel m (m.receive f acc v) := by
  unfold receive
  split
  · exact slotsKept_withSlot _ _
  · exact slotsKept.refl m

theorem slotsKept_resumeAt_nil (pc : Int) : slotsKept.rel m (m.resumeAt pc .nil) :=
  slotsKept.trans (slotsKept_withPc pc)
    (slotsKept.trans slotsKept_withExc_nil (slotsKept_of_contexts rfl rfl))

theorem top?_withPc (pc : Int) : (m.withPc pc).top? = m.top?.map fun f => { f with pc } := by
  simp only [withPc, updCurrent, top?, frames, Array.getElem?_modify]
  cases m.contexts[m.current]? with
  | none => rfl
  | some c => simp [Array.back?_eq_getElem?, Array.getElem?_modify]

theorem top?_resumeAt (pc : Int) (exc : Value) :
    (m.resumeAt pc exc).top? = m.top?.map fun f => { f with pc } := by
  show ((m.withPc pc).withExc exc).top? = _
  rw [top?_withExc, top?_withPc]

theorem Conventional.withExc (conv : m.Conventional) (exc : Value) : (m.withExc exc).Conventional := by
  refine ⟨conv.store, fun i c found => ?_⟩
  simp only [Machine.withExc, updCurrent, Array.getElem?_modify] at found
  split at found
  · obtain ⟨c₀, found₀, rfl⟩ := Option.map_eq_some_iff.mp found
    exact conv.frames i c₀ found₀
  · exact conv.frames i c found

theorem Conventional.withMode (conv : m.Conventional) (md : Mode) : ({ m with mode := md }).Conventional :=
  ⟨conv.store, conv.frames⟩

theorem Conventional.top (conv : m.Conventional) {f : Frame} (top : m.top? = some f) : f.Conventional := by
  simp only [top?, Machine.frames] at top
  cases stored : m.contexts[m.current]? with
  | none => simp [stored] at top
  | some c =>
    have back : c.frames.back? = some f := by simpa [stored] using top
    exact conv.frames _ c stored f (Array.mem_of_getElem? back)

theorem Verdict.catching {m : Machine} {f : Frame} {exc : Value} {isBreak : Bool} {h : Handler}
    (verdict : Verdict m f exc isBreak h true) : h.kind = 0 ∨ h.kind = 1 := by
  cases verdict with
  | ensure _ ensure => exact .inr ensure
  | rescue _ rescue _ _ => exact .inl rescue

theorem FirstCatch.entry {f : Frame} {exc : Value} {isBreak : Bool} {h : Handler}
    (first : FirstCatch m f exc isBreak h) :
    ∃ q p, f.code = .compiled q p ∧ h ∈ p.handlers ∧ (h.kind = 0 ∨ h.kind = 1) := by
  obtain ⟨q, p, before, after, code, table, -, verdict⟩ := first
  refine ⟨q, p, code, ?_, verdict.catching⟩
  rw [← Array.mem_toList_iff, table]
  simp

end Resuming

section Holding

variable {m m' : Machine}

theorem Calm.holding (calm : Calm m) : Holding m := ⟨calm.conventional, calm.clear.waiting⟩

theorem Holding.withMode (held : Holding m) (md : Mode) : Holding { m with mode := md } :=
  ⟨held.conventional.withMode md, held.waiting⟩

theorem Holding.calm (held : Holding m)
    (done : ∀ c, m.contexts[m.current]? = some c → c.status = .terminated ∨ c.exc = .nil) : Calm m := by
  refine ⟨held.conventional, fun i c found live => ?_⟩
  by_cases here : i = m.current
  · subst here
    exact (done c found).resolve_left live
  · exact held.waiting i c found live here

theorem Holding.of_slotsKept (held : Holding m) (kept : slotsKept.rel m m') (same : m'.current = m.current) :
    Holding m' := by
  refine ⟨kept.1 held.conventional, fun i c' found live other => ?_⟩
  rcases kept.2 i c' found live with empty | ⟨c, found₀, live₀, same₀⟩
  · exact empty
  · exact same₀ ▸ held.waiting i c found₀ live₀ (same ▸ other)

theorem Holding.calm_withExc_nil (held : Holding m) : Calm (m.withExc .nil) := by
  refine ⟨held.conventional.withExc .nil, fun i c found live => ?_⟩
  simp only [Machine.withExc, updCurrent, Array.getElem?_modify] at found
  split at found
  · obtain ⟨c₀, -, rfl⟩ := Option.map_eq_some_iff.mp found
    rfl
  · next other => exact held.waiting i c found live fun here => other here.symm

end Holding

section CaughtFacts

variable {m : Machine}

theorem Caught.mode (caught : Caught m) : m.mode = .run := by
  obtain ⟨m₀, f, exc, brk, h, -, -, -, -, -, rfl⟩ := caught
  rfl

theorem Caught.holding (caught : Caught m) : Holding m := by
  obtain ⟨m₀, f, exc, brk, h, calm, -, -, -, -, rfl⟩ := caught
  have kept : slotsKept.rel m₀ (m₀.withPc h.target) := slotsKept_withPc h.target
  refine ⟨((kept.1 calm.conventional).withExc exc).withMode .run, fun i c found live other => ?_⟩
  -- the exception lands in the running context; every other context is as it was
  have away : ¬(m₀.withPc h.target).current = i := fun same => other same.symm
  have unchanged : (m₀.withPc h.target).contexts[i]? = some c := by
    simpa only [resumeAt, withExc, updCurrent, Array.getElem?_modify, away, if_false] using found
  exact (calm.clear.of_slotsKept kept) i c unchanged live

theorem Caught.atExcept (caught : Caught m) :
    ∃ f q p h, m.top? = some f ∧ f.code = .compiled q p ∧ h ∈ p.handlers ∧ (h.kind = 0 ∨ h.kind = 1) ∧
      f.pc = h.target ∧ p.ExceptAt f.pc := by
  obtain ⟨m₀, f, exc, brk, h, calm, top, -, first, -, rfl⟩ := caught
  obtain ⟨q, p, code, entry, catching⟩ := first.entry
  have conv : p.Conventional := calm.conventional.top top q p code
  refine ⟨{ f with pc := h.target }, q, p, h, ?_, code, entry, catching, rfl, conv.exceptAt entry catching⟩
  simp [top?_resumeAt, top]

end CaughtFacts

def SettlesFrom {α : Type} (m : Machine) (x : MachineM α) : Prop :=
  Calm (endState (x.run m)) ∨ ∃ a m', x.run m = .ok a m' ∧ Caught m'

def Settles {α : Type} (x : MachineM α) : Prop := ∀ m, Calm m → SettlesFrom m x

def FaultsCalm {α : Type} (x : MachineM α) : Prop :=
  ∀ m e m', Calm m → x.run m = .error e m' → Calm m'

section Triples

variable {α β : Type} {x : MachineM α} {f : α → MachineM β}

theorem Settles.of_keeps (hx : Keeps slotsKept x) : Settles x :=
  fun m calm => .inl (calm.of_slotsKept (hx m))

theorem SettlesFrom.bind {m : Machine} (calm : Calm m) (first : slotsKept.rel m (endState (x.run m)))
    (hf : ∀ a m', x.run m = .ok a m' → Calm m' → SettlesFrom m' (f a)) : SettlesFrom m (x >>= f) := by
  unfold SettlesFrom
  rw [EStateM.run_bind]
  cases run : x.run m with
  | ok a m' =>
    rw [run] at first
    exact hf a m' run (calm.of_slotsKept first)
  | error e m' =>
    rw [run] at first
    exact .inl (calm.of_slotsKept first)

theorem SettlesFrom.set_bind {m t : Machine} {g : PUnit → MachineM β} (calm : Calm m)
    (kept : slotsKept.rel m t) (hg : Settles (g ⟨⟩)) : SettlesFrom m (set t >>= g) := by
  unfold SettlesFrom
  rw [EStateM.run_bind, EStateM.run_set]
  exact hg t (calm.of_slotsKept kept)

theorem Settles.bind_run (hx : Keeps slotsKept x)
    (hf : ∀ m a m', Calm m → x.run m = .ok a m' → Calm m' → SettlesFrom m' (f a)) :
    Settles (x >>= f) :=
  fun m calm => SettlesFrom.bind calm (hx m) fun a m' run => hf m a m' calm run

theorem Settles.bind (hx : Keeps slotsKept x) (hf : ∀ a, Settles (f a)) : Settles (x >>= f) :=
  Settles.bind_run hx fun _ a m' _ _ calm => hf a m' calm

theorem FaultsCalm.of_keeps (hx : Keeps slotsKept x) : FaultsCalm x := by
  intro m e m' calm run
  have kept := hx m
  rw [run] at kept
  exact calm.of_slotsKept kept

theorem FaultsCalm.bind (hx : Keeps slotsKept x) (hf : ∀ a, FaultsCalm (f a)) : FaultsCalm (x >>= f) := by
  intro m e m' calm run
  have kept := hx m
  rw [EStateM.run_bind] at run
  cases first : x.run m with
  | ok a m₁ =>
    rw [first] at run kept
    exact hf a m₁ e m' (calm.of_slotsKept kept) run
  | error e₁ m₁ =>
    rw [first] at run kept
    cases run
    exact calm.of_slotsKept kept

theorem FaultsCalm.of_ok (never : ∀ m, ∃ a m', x.run m = .ok a m') : FaultsCalm x := by
  intro m e m' _ run
  obtain ⟨a, m₁, ok⟩ := never m
  rw [ok] at run
  cases run

end Triples

section Unwinding

theorem slotsKept_breakResume (f : Frame) : Keeps slotsKept (breakResume f) := by
  unfold breakResume
  refine Keeps.bind (slotsKept_of_readOnly (readOnly_findBreakHandler f)) fun h => ?_
  dsimp only
  split
  · exact Keeps.bind (slotsKept_modifyTop_of fun _ => rfl) fun _ =>
      Keeps.bind slotsKept_clearExc fun _ => slotsKept_setMode _
  · exact Keeps.bind slotsKept_clearExc fun _ => slotsKept_setMode _

theorem slotsKept_deliverStep (f : Frame) (acc : Int) (val : Value) : Keeps slotsKept (deliverStep f acc val) := by
  unfold deliverStep
  dsimp only
  split
  · exact Keeps.bind (slotsKept_setSlot _ _) fun _ => slotsKept_breakResume f
  · exact slotsKept_breakResume f

theorem slotsKept_returnHome (val : Value) : Keeps slotsKept (returnHome val) :=
  Keeps.bind slotsKept_clearExc fun _ => slotsKept_returnFrom val

theorem faultsCalm_go (exc : Value) (brk : Option (BreakKind × Nat × Value)) (fuel : Nat) (acc : Int) :
    FaultsCalm (unwind.go exc brk fuel acc) := by
  induction fuel generalizing acc with
  | zero => exact FaultsCalm.of_keeps (slotsKept_of_readOnly readOnly_runtimeFault)
  | succ fuel ih =>
    rw [go_succ]
    refine FaultsCalm.bind (slotsKept_of_readOnly readOnly_topFrame) fun f => ?_
    have leave : FaultsCalm (leaveStep exc brk fuel f) := by
      unfold leaveStep
      refine FaultsCalm.bind slotsKept_popFrame fun _ => ?_
      split
      · exact FaultsCalm.of_keeps (Keeps.bind slotsKept_clearExc fun _ => slotsKept_leaveWithException _ _)
      · exact ih _
    have catching : ∀ rest, FaultsCalm rest → FaultsCalm (catchOr exc f rest) := fun rest hrest => by
      unfold catchOr
      refine FaultsCalm.bind (slotsKept_of_readOnly (readOnly_findHandler f exc)) fun found => ?_
      split
      · exact FaultsCalm.of_ok fun m => ⟨_, _, resumeStep_run _ _ m⟩
      · exact hrest
    unfold frameStep
    split
    · split
      · exact FaultsCalm.of_keeps (slotsKept_deliverStep _ _ _)
      · exact catching _ leave
    · split
      · exact catching _ (FaultsCalm.of_keeps (slotsKept_returnHome _))
      · exact catching _ leave
    · exact catching _ leave

theorem unwinds_settle {exc : Value} {brk : Option (BreakKind × Nat × Value)} {acc : Int} {m m' : Machine}
    (unwinds : Unwinds exc brk acc m m') (calm : Calm m) (isBreak : Reads (breakOf? exc) m brk) :
    Calm m' ∨ Caught m' := by
  induction unwinds with
  | caught top _ first inside => exact .inr ⟨_, _, exc, brk, _, calm, top, isBreak, first, inside, rfl⟩
  | popped _ _ _ _ pop _ ih =>
    exact ih (calm.of_slotsKept (Keeps.rel_of_ok slotsKept_popFrame pop))
      (breakOf?_of_kept isBreak (popFrame_frames pop).2.2)
  | left _ _ _ _ pop leave =>
    have popped := calm.of_slotsKept (Keeps.rel_of_ok slotsKept_popFrame pop)
    exact .inl ((popped.of_slotsKept slotsKept_withExc_nil).of_slotsKept
      (Keeps.rel_of_ok (slotsKept_leaveWithException _ _) leave))
  | delivered =>
    -- a break that reaches its frame leaves nothing in flight
    exact .inl ((calm.of_slotsKept (slotsKept_receive _ _ _)).of_slotsKept (slotsKept_resumeAt_nil _))
  | returned _ _ _ home =>
    exact .inl ((calm.of_slotsKept slotsKept_withExc_nil).of_slotsKept
      (Keeps.rel_of_ok (slotsKept_returnFrom _) home))

theorem settles_unwind (exc : Value) : Settles (unwind exc) := by
  intro m calm
  unfold SettlesFrom
  cases run : (unwind exc).run m with
  | ok _ m' =>
    obtain ⟨m₀, brk, noted, isBreak, unwinds⟩ := unwind_run_iff.mp run
    have calm₀ : Calm m₀ := calm.of_slotsKept (Keeps.rel_of_ok (slotsKept_noteBacktrace exc) noted)
    rcases unwinds_settle unwinds calm₀ isBreak with settled | caught
    · exact .inl settled
    · exact .inr ⟨(), m', rfl, caught⟩
  | error e m' =>
    -- before the search, only the backtrace is noted
    have faults : FaultsCalm (unwind exc) :=
      FaultsCalm.bind (slotsKept_noteBacktrace exc) fun _ =>
        FaultsCalm.bind (slotsKept_of_readOnly (readOnly_breakOf? exc)) fun brk =>
          FaultsCalm.bind (slotsKept_of_readOnly readOnly_depth) fun _ => faultsCalm_go _ _ _ _
    exact .inl (faults m e m' calm run)

theorem settles_nativeRaise (exc : Value) : Settles (nativeRaise exc) := by
  unfold nativeRaise
  refine Settles.bind (slotsKept_of_readOnly readOnly_topFrame) fun f => ?_
  split
  · exact settles_unwind exc
  · exact Settles.of_keeps (Keeps.bind (slotsKept_noteBacktrace exc) fun _ =>
      Keeps.bind slotsKept_popFrame fun _ => slotsKept_leaveWithException _ _)

end Unwinding

section Calls

theorem settles_dispatch (a : Nat) (recv : Value) (cls : Option ObjRef) (mid : Sym) (argc kwc : Nat)
    (isSuper : Bool) : Settles (dispatch a recv cls mid argc kwc isSuper) := by
  unfold dispatch
  dsimp only
  repeat' first
    | with_reducible apply settles_unwind _
    | with_reducible refine Settles.bind ?_ fun _ => ?_
    | with_reducible apply Keeps.pure _
    | with_reducible apply slotsKept_invokeAt _ _ _ _ _ _ _ _
    | with_reducible apply slotsKept_of_readOnly readOnly_topFrame
    | with_reducible apply slotsKept_of_readOnly (readOnly_liftStore Store.readOnly_wellKnown)
    | with_reducible apply slotsKept_of_readOnly (readOnly_liftStore (Store.readOnly_classOf _))
    | with_reducible apply slotsKept_liftStore (Store.shapesKept_resolve _ _)
    | with_reducible apply slotsKept_noMethodError _ _ _
    | with_reducible apply slotsKept_rawArgs _ _ _
    | with_reducible apply slotsKept_placeArgs _ _ _ _ _
    | with_reducible refine Keeps.bind ?_ fun _ => ?_
    | split
    | with_reducible refine Settles.of_keeps ?_

theorem settles_send (a : Nat) (mid : Sym) (callOperand : Nat) (withBlock : Bool) :
    Settles (send a mid callOperand withBlock) := by
  unfold send
  dsimp only
  repeat' first
    | with_reducible apply settles_unwind _
    | with_reducible apply settles_dispatch _ _ _ _ _ _ _
    | with_reducible refine Settles.bind ?_ fun _ => ?_
    | with_reducible apply Keeps.pure _
    | with_reducible apply slotsKept_of_readOnly readOnly_topFrame
    | with_reducible apply slotsKept_of_readOnly (readOnly_slot _)
    | with_reducible apply slotsKept_of_readOnly (readOnly_liftStore (Store.readOnly_classOf _))
    | with_reducible apply slotsKept_growStack _
    | with_reducible apply slotsKept_setSlot _ _
    | with_reducible apply slotsKept_checkBlock _
    | with_reducible refine Keeps.bind ?_ fun _ => ?_
    | split

theorem settles_superSend (a : Nat) (callOperand : Nat) : Settles (superSend a callOperand) := by
  unfold superSend
  dsimp only
  repeat' first
    | with_reducible apply settles_unwind _
    | with_reducible apply settles_dispatch _ _ _ _ _ _ _
    | with_reducible refine Settles.bind ?_ fun _ => ?_
    | with_reducible apply Keeps.pure _
    | with_reducible apply slotsKept_of_readOnly readOnly_topFrame
    | with_reducible apply slotsKept_of_readOnly (readOnly_slot _)
    | with_reducible apply slotsKept_of_readOnly (readOnly_liftStore (Store.readOnly_superOf _))
    | with_reducible apply slotsKept_liftStore (Store.shapesKept_newError _ _)
    | with_reducible apply slotsKept_growStack _
    | with_reducible apply slotsKept_setSlot _ _
    | with_reducible apply slotsKept_checkBlock _
    | with_reducible refine Keeps.bind ?_ fun _ => ?_
    | split

end Calls

section Instructions

theorem settles_enterParams (f : Frame) (body : Procedure) : Settles (enterParams f body) := by
  unfold enterParams
  refine Settles.bind (slotsKept_gatherArgs _ _) fun gathered => ?_
  obtain ⟨args, kw, blk, strict⟩ := gathered
  dsimp only
  split
  · exact Settles.bind (slotsKept_newErr _ _) settles_unwind
  · refine Settles.of_keeps (Keeps.bind (slotsKept_of_readOnly (readOnly_splitArgs _ _)) fun parts => ?_)
    obtain ⟨req, opt, rest, post⟩ := parts
    exact Keeps.bind (slotsKept_layParams _ _ _ _ _ _ _ _) fun _ => slotsKept_setMode _

theorem settles_classDef (f : Frame) (a : Nat) (name : Sym) (isModule : Bool) :
    Settles (classDef f a name isModule) := by
  unfold classDef
  dsimp only
  repeat' (first
    | with_reducible apply settles_unwind _
    | with_reducible refine Settles.bind ?_ fun _ => ?_
    | with_reducible apply slotsKept_setMode _
    | with_reducible apply Keeps.pure _
    | with_reducible apply Keeps.get
    | with_reducible apply slotsKept_of_readOnly (readOnly_slot _)
    | with_reducible apply slotsKept_of_readOnly (readOnly_targetClass _)
    | with_reducible apply slotsKept_of_readOnly (readOnly_liftStore (Store.readOnly_classOf? _))
    | with_reducible apply slotsKept_liftStore (Store.shapesKept_defineModule _ _)
    | with_reducible apply slotsKept_liftStore (Store.shapesKept_defineClass _ _ _)
    | with_reducible apply slotsKept_newErr _ _
    | with_reducible apply slotsKept_inspectValue _
    | with_reducible apply slotsKept_setSlot _ _
    | with_reducible apply Keeps.bind
    | with_reducible intro _
    | split
    | with_reducible refine Settles.of_keeps ?_)

theorem settles_arithStep (f : Frame) (op : ArithOp) (a : Nat) (y : Value) (imm : Option Value) :
    Settles (arithStep f op a y imm) := by
  unfold arithStep
  repeat' (first
    | with_reducible apply settles_unwind _
    | with_reducible apply settles_send _ _ _ _
    | with_reducible refine Settles.bind ?_ fun _ => ?_
    | with_reducible apply slotsKept_setMode _
    | with_reducible apply Keeps.pure _
    | with_reducible apply slotsKept_of_readOnly (readOnly_reg _ _)
    | with_reducible apply slotsKept_of_readOnly (readOnly_opSym _)
    | with_reducible apply slotsKept_newErr _ _
    | with_reducible apply slotsKept_setReg _ _ _
    | with_reducible apply Keeps.bind
    | with_reducible intro _
    | split
    | with_reducible refine Settles.of_keeps ?_)

theorem settles_raiseBreak (kind : BreakKind) (target : Nat) (v : Value) :
    Settles (raiseBreak kind target v) :=
  Settles.bind (slotsKept_liftStore (Store.shapesKept_alloc rfl)) fun b => settles_unwind (.obj b)

theorem childAt_conventional {body : Procedure} (conv : body.Conventional) {i : Nat} {m m' : Machine}
    {p : Procedure} (run : (childAt body i).run m = .ok p m') : p.Conventional := by
  unfold childAt at run
  split at run
  · next found =>
    cases run
    exact conv.child (Array.mem_of_getElem? found)
  · cases run

theorem slotsKept_childAt_bind {β : Type} {body : Procedure} (conv : body.Conventional) (i : Nat)
    {f : Procedure → MachineM β} (hf : ∀ p, p.Conventional → Keeps slotsKept (f p)) :
    Keeps slotsKept (childAt body i >>= f) :=
  Keeps.bind_run (slotsKept_of_readOnly (readOnly_childAt body i)) fun _ p t run =>
    hf p (childAt_conventional conv run) t

theorem settles_childAt_bind {β : Type} {body : Procedure} (conv : body.Conventional) (i : Nat)
    {f : Procedure → MachineM β} (hf : ∀ p, p.Conventional → Settles (f p)) :
    Settles (childAt body i >>= f) :=
  Settles.bind_run (slotsKept_of_readOnly (readOnly_childAt body i)) fun _ p m' _ run calm =>
    hf p (childAt_conventional conv run) m' calm

theorem settles_instruction (op : Opcode) (a b c : Nat) (f : Frame) {body : Procedure}
    (conv : body.Conventional) : Settles (instruction op a b c f body) := by
  unfold instruction
  dsimp only
  refine Settles.bind (slotsKept_of_readOnly (readOnly_liftStore Store.readOnly_wellKnown)) fun core => ?_
  cases op
  all_goals dsimp only
  all_goals repeat' (first
    | with_reducible apply settles_unwind _
    | with_reducible apply settles_send _ _ _ _
    | with_reducible apply settles_superSend _ _
    | with_reducible apply settles_enterParams _ _
    | with_reducible apply settles_raiseBreak _ _ _
    | with_reducible apply settles_arithStep _ _ _ _ _
    | with_reducible apply settles_classDef _ _ _ _
    | with_reducible refine settles_childAt_bind conv _ fun _ _ => ?_
    | with_reducible refine slotsKept_childAt_bind conv _ fun _ _ => ?_
    | with_reducible refine Settles.bind ?_ fun _ => ?_
    | with_reducible apply Settles.of_keeps (slotsKept_returnFrom _)
    | with_reducible apply Settles.of_keeps (slotsKept_execBody (by assumption) _ _)
    | with_reducible apply Keeps.bind
    | with_reducible intro _
    | split
    | with_reducible exact slotsKept_allocProc (by assumption) rfl rfl
    | with_reducible refine slotsKept_liftStore ?_
    | with_reducible apply slotsKept_setMode _
    | with_reducible apply slotsKept_returnFrom _
    | with_reducible apply slotsKept_ensureEnv
    | with_reducible apply slotsKept_newProc (by assumption) _ _ _ _
    | with_reducible apply Keeps.pure _
    | with_reducible apply Keeps.get
    | with_reducible apply slotsKept_of_readOnly (readOnly_reg _ _)
    | with_reducible apply slotsKept_of_readOnly (readOnly_symAt _ _)
    | with_reducible apply slotsKept_of_readOnly (readOnly_constLookup _ _)
    | with_reducible apply slotsKept_of_readOnly (readOnly_targetClass _)
    | with_reducible apply slotsKept_of_readOnly (readOnly_upvarEnv _ _)
    | with_reducible apply slotsKept_of_readOnly (readOnly_envGet _ _)
    | with_reducible apply slotsKept_of_readOnly readOnly_currentContext
    | with_reducible apply slotsKept_of_readOnly (readOnly_kdict _ _)
    | with_reducible apply slotsKept_of_readOnly (readOnly_frameProc _)
    | with_reducible apply slotsKept_of_readOnly (readOnly_procOf? _)
    | with_reducible apply slotsKept_of_readOnly readOnly_runtimeFault
    | with_reducible apply slotsKept_literalAt _ _
    | with_reducible apply slotsKept_ivarSet _ _ _
    | with_reducible apply slotsKept_breakTarget _
    | with_reducible apply slotsKept_returnTarget _
    | with_reducible apply slotsKept_newErr _ _
    | with_reducible apply slotsKept_inspectValue _
    | with_reducible apply slotsKept_regRange _ _ _
    | with_reducible exact slotsKept_modifyStore fun _ => rfl
    | with_reducible apply slotsKept_setReg _ _ _
    | with_reducible apply slotsKept_clearExc
    | with_reducible apply slotsKept_envSet _ _ _
    | with_reducible exact slotsKept_modifyTop_of fun _ => rfl
    | with_reducible apply Keeps.forIn_range
    | with_reducible apply Store.readOnly_wellKnown.keeps _
    | with_reducible apply (Store.readOnly_ivarGet _ _).keeps _
    | with_reducible apply (Store.readOnly_classOf? _).keeps _
    | with_reducible apply (Store.readOnly_constGet _ _).keeps _
    | with_reducible apply (Store.readOnly_className _).keeps _
    | with_reducible apply (Store.readOnly_valueIsKindOf _ _).keeps _
    | with_reducible apply (Store.readOnly_getObj _).keeps _
    | with_reducible apply (Store.readOnly_tableGet _ _).keeps _
    | with_reducible apply (Store.readOnly_tableDelete _ _).keeps _
    | with_reducible apply (Store.readOnly_tableSet _ _ _).keeps _
    | with_reducible apply (Store.readOnly_arrayOf? _).keeps _
    | with_reducible apply (Store.readOnly_realClassName _).keeps _
    | with_reducible apply Store.shapesKept_constSet _ _ _
    | with_reducible apply Store.shapesKept_newArray _
    | with_reducible apply Store.shapesKept_newHash _
    | with_reducible apply Store.shapesKept_newRange _ _ _
    | with_reducible apply Store.shapesKept_frozenError _
    | with_reducible exact Store.shapesKept_alloc rfl
    | with_reducible apply Store.shapesKept_defineRaw _ _ _
    | with_reducible apply Store.shapesKept_aliasMethod _ _ _
    | with_reducible apply Store.shapesKept_resolve _ _
    | with_reducible apply Store.shapesKept_singletonClassOf _
    | with_reducible exact Store.shapesKept_modifyObj _ fun o => by split <;> simp_all [Obj.shape]
    | with_reducible refine Settles.of_keeps ?_)

end Instructions

section Steps

variable {m : Machine}

theorem settles_execute : Settles execute := by
  unfold execute
  refine Settles.bind_run (slotsKept_of_readOnly readOnly_topFrame) fun m₀ f m calm got _ => ?_
  obtain ⟨rfl, top⟩ := topFrame_ok got
  split
  · exact Settles.of_keeps (slotsKept_of_readOnly readOnly_runtimeFault) m calm
  · next q body compiled =>
    have conv : body.Conventional := calm.conventional.top top q body compiled
    refine Settles.bind_run Keeps.get (fun s _ _ calm' got _ => ?_) m calm
    cases got
    -- counting the fetch touches no slot
    refine SettlesFrom.set_bind calm' (slotsKept_of_contexts rfl rfl) ?_
    dsimp only
    repeat' (first
      | with_reducible exact settles_instruction _ _ _ _ _ conv
      | with_reducible refine Settles.bind ?_ fun _ => ?_
      | split
      | with_reducible refine Settles.of_keeps ?_
      | with_reducible apply Keeps.bind
      | with_reducible intro _
      | with_reducible apply slotsKept_setMode _
      | with_reducible apply slotsKept_of_readOnly (readOnly_panic _)
      | with_reducible exact slotsKept_of_readOnly (Keeps.bind Keeps.get fun _ => Keeps.pure _)
      | with_reducible apply Keeps.throw _
      | with_reducible apply Keeps.pure _
      | with_reducible exact slotsKept_modifyTop_of fun _ => rfl)

theorem settles_resumeFiber (r : ObjRef) (args : Array Value) : Settles (resumeFiber r args) := by
  unfold resumeFiber
  refine Settles.bind (slotsKept_of_readOnly (readOnly_fiberData _)) fun fd => ?_
  refine Settles.bind_run (slotsKept_of_readOnly (readOnly_context _)) fun m₀ c m calm got _ => ?_
  obtain ⟨rfl, stored⟩ := context_ok got
  have raise : ∀ msg, Settles (do nativeRaise (← newErr (·.fiberError) msg)) := fun _ =>
    Settles.bind (slotsKept_newErr _ _) settles_nativeRaise
  dsimp only
  split
  · exact raise _ m calm
  · split
    · exact raise _ m calm
    · next dead _ =>
      refine SettlesFrom.bind calm (slotsKept_of_readOnly readOnly_currentIndex m) fun cur m₂ got _ => ?_
      obtain rfl := readOnly_currentIndex.ok_state got
      refine SettlesFrom.bind calm (slotsKept_of_readOnly (readOnly_context cur) _) fun _ m₂ got _ => ?_
      obtain rfl := (readOnly_context cur).ok_state got
      -- the fiber comes back to life only if it was not dead
      have live : c.status ≠ .terminated := by simpa using dead
      refine SettlesFrom.bind calm (slotsKept_modifyContext_of fd.ctx
        (fun c' found _ => .inr ⟨Option.some.inj (found.symm.trans stored) ▸ live, rfl⟩)
        fun _ _ codes => codes) fun _ m₃ _ calm₃ => ?_
      refine (?_ : Settles _) m₃ calm₃
      refine Settles.bind (slotsKept_switch _) fun _ => ?_
      split
      · exact Settles.of_keeps (Keeps.bind (slotsKept_packValues _) fun _ => slotsKept_setMode _)
      · refine Settles.bind (slotsKept_modifyObj_shape _ fun o => ?_) fun _ =>
          Settles.of_keeps (slotsKept_callProc _ _ _ _ _)
        split
        · next fiber => simp [Obj.shape, fiber]
        · rfl

theorem live_withTop (live : ∀ c, m.contexts[m.current]? = some c → c.status ≠ .terminated)
    (g : Frame → Frame) :
    ∀ c, (m.withTop g).contexts[(m.withTop g).current]? = some c → c.status ≠ .terminated := by
  intro c found
  simp only [withTop, updCurrent, Array.getElem?_modify, if_true] at found
  obtain ⟨c₀, found₀, rfl⟩ := Option.map_eq_some_iff.mp found
  exact live c₀ found₀

theorem settlesFrom_applyNative (step : NativeStep) (calm : Calm m)
    (live : ∀ c, m.contexts[m.current]? = some c → c.status ≠ .terminated) :
    SettlesFrom m (applyNative step) := by
  cases step with
  | done v => exact Settles.of_keeps (slotsKept_returnFrom v) m calm
  | raise exc => exact settles_nativeRaise exc m calm
  | call req task =>
    exact Settles.bind (slotsKept_setTask task) (fun _ => Settles.of_keeps (slotsKept_request req)) m calm
  | resume fiber args =>
    exact Settles.bind (slotsKept_setTask .pass) (fun _ => settles_resumeFiber fiber args) m calm
  | suspend vals =>
    refine SettlesFrom.bind calm (slotsKept_setTask .pass m) fun _ m₁ run calm₁ => ?_
    rw [setTask, modifyTop_run] at run
    cases run
    exact .inl (calm₁.of_slotsKept (slotsKept_suspendFiber (live_withTop live _) vals))
  | spawn p cls =>
    exact Settles.bind (slotsKept_spawnFiber p cls) (fun v => Settles.of_keeps (slotsKept_returnFrom v)) m calm
  | turn task => exact Settles.bind (slotsKept_setTask task) (fun _ => Settles.of_keeps (slotsKept_setMode _)) m calm

theorem settlesFrom_runNative {x : NativeM NativeStep} (hx : Native.Preserves Store.shapesKept x)
    (calm : Calm m) (live : ∀ c, m.contexts[m.current]? = some c → c.status ≠ .terminated) :
    SettlesFrom m (runNative x) := by
  unfold runNative
  refine SettlesFrom.bind calm (Keeps.get m) fun m₀ m₁ got _ => ?_
  cases got
  refine SettlesFrom.bind calm (slotsKept_liftStore (hx m) m) fun answer m₂ run calm₂ => ?_
  -- the built-in method changes the store only
  have same : m₂ = { m with store := m₂.store } := by
    have kept := storeOnly_liftStore (x.run.run m) m
    rwa [run] at kept
  have live₂ : ∀ c, m₂.contexts[m₂.current]? = some c → c.status ≠ .terminated := by
    rw [same]
    exact live
  split
  · exact settlesFrom_applyNative _ calm₂ live₂
  · exact settles_nativeRaise _ m₂ calm₂

theorem Sound.live {root : Nat} (sound : Sound root m) (going : ¬m.Failing)
    (running : m.mode.isHalted = false) :
    ∀ c, m.contexts[m.current]? = some c → c.status ≠ .terminated := by
  rcases sound with ⟨disciplined, -⟩ | failing
  · obtain ⟨⟨o, found, status⟩, -⟩ := disciplined.live running
    intro c stored ended
    simp only [outlineAt, stored, Option.map_some, Option.some.injEq] at found
    subst found
    simp [Context.outline, ended] at status
  · exact absurd failing going

theorem settlesFrom_step {root : Nat} (calm : Calm m) (sound : Sound root m) : SettlesFrom m step := by
  unfold step
  refine SettlesFrom.bind calm (Keeps.get m) fun m₀ m₁ got _ => ?_
  cases got
  split
  · exact settles_execute m calm
  · next mode =>
    exact settlesFrom_runNative (Native.preserves_start _ _) calm
      (sound.live (by simp [Failing, mode]) (by simp [Mode.isHalted, mode]))
  · next mode =>
    refine SettlesFrom.bind calm (slotsKept_of_readOnly readOnly_topFrame m) fun f m₂ got _ => ?_
    obtain ⟨same, -⟩ := topFrame_ok got
    subst same
    split
    · exact settlesFrom_runNative (Native.preserves_resume _ _) calm
        (sound.live (by simp [Failing, mode]) (by simp [Mode.isHalted, mode]))
    · exact Settles.of_keeps (slotsKept_of_readOnly readOnly_runtimeFault) _ calm
  · exact settles_nativeRaise _ m calm
  · exact Settles.of_keeps (slotsKept_failContext _) m calm
  · exact Settles.of_keeps (Keeps.pure _) m calm

end Steps

end Machine

end RegisterVM
