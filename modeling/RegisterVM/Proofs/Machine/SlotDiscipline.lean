import RegisterVM.Proofs.Machine.ExceptionRuns
import RegisterVM.Proofs.Machine.StepLimit
import RegisterVM.Proofs.Machine.Breaks

set_option autoImplicit false

namespace RegisterVM

namespace Machine

section Steps

variable {m : Machine}

theorem Calm.withMode (calm : Calm m) (md : Mode) : Calm { m with mode := md } :=
  ⟨calm.conventional.withMode md, calm.clear⟩

theorem Holding.calm_terminate (held : Holding m) {g : Context → Context}
    (ended : ∀ c, (g c).status = .terminated) (frames : ∀ c, (g c).frames = c.frames) :
    Calm (m.updCurrent g) := by
  have kept : slotsKept.rel m (m.updCurrent g) := slotsKept_terminate ended frames m
  refine (held.of_slotsKept kept rfl).calm fun c found => .inl ?_
  simp only [updCurrent, Array.getElem?_modify, if_true] at found
  obtain ⟨c₀, -, rfl⟩ := Option.map_eq_some_iff.mp found
  exact ended c₀

def Drains (r : EStateM.Result Fault Machine Unit) : Prop :=
  match r with
  | .ok _ m => Consumed m
  | .error _ m => Holding m

theorem Holding.handled (held : Holding m) (flt : Fault) :
    Consumed (match (fault flt).run m with
      | .ok () m => m
      | .error f m => { m with mode := .halted (.fault f) }) := by
  have halted : ∀ f, Consumed { m with mode := .halted (.fault f) } :=
    fun _ => .inr (.inr ⟨held.withMode _, .inr ⟨_, rfl⟩⟩)
  unfold fault
  rw [EStateM.run_bind, currentContext_run]
  cases stored : m.contexts[m.current]? with
  | none => exact halted _
  | some c =>
    dsimp only
    -- a fiber with a resumer ends; anything else halts the run
    cases fiber : c.fiber with
    | none => exact halted _
    | some _ =>
    cases prev : c.prev with
    | none => exact halted _
    | some _ =>
    dsimp only
    rw [EStateM.run_bind, modifyCurrent_run]
    dsimp only
    have calm : Calm (m.updCurrent fun c => { c with status := .terminated }) :=
      held.calm_terminate (fun _ => rfl) fun _ => rfl
    split
    · next m' run => exact .inl (calm.of_slotsKept (Keeps.rel_of_ok (slotsKept_leaveContext _) run))
    · next f m' run =>
      exact .inl ((calm.of_slotsKept (Keeps.rel_of_error (slotsKept_leaveContext _) run)).withMode _)

theorem consumed_advance_of_drains (drains : Drains (step.run m)) : Consumed (advance m) := by
  unfold advance
  cases run : step.run m with
  | ok u m' =>
    rw [run] at drains
    exact drains
  | error f m₁ =>
    rw [run] at drains
    exact drains.handled f

theorem Holding.drains_bind {α : Type} {x : MachineM α} {f : α → MachineM Unit} (held : Holding m)
    (slots : Keeps slotsKept x) (running : Keeps runningKept x)
    (hf : ∀ a t, x.run m = .ok a t → Holding t → Drains ((f a).run t)) : Drains ((x >>= f).run m) := by
  have kept : Holding (endState (x.run m)) := held.of_slotsKept (slots m) (running m).1
  rw [EStateM.run_bind]
  cases run : x.run m with
  | ok a t =>
    rw [run] at kept
    exact hf a t run kept
  | error e t =>
    rw [run] at kept
    exact kept

theorem drains_of_calm {r : EStateM.Result Fault Machine Unit} (calm : Calm (endState r)) : Drains r := by
  cases r with
  | ok _ t => exact (.inl calm : Consumed t)
  | error _ t => exact calm.holding

theorem Calm.drains_of_keeps {x : MachineM Unit} (calm : Calm m) (hx : Keeps slotsKept x) :
    Drains (x.run m) :=
  drains_of_calm (calm.of_slotsKept (hx m))

theorem Holding.drains_failContext (held : Holding m) (err : Fatal) : Drains ((failContext err).run m) := by
  unfold failContext
  refine held.drains_bind (slotsKept_of_readOnly readOnly_currentContext)
    (runningKept_of_storeOnly (ReadOnly.storeOnly readOnly_currentContext)) fun c m₀ got held₀ => ?_
  -- ending the context calms the machine; built-in methods entered from outside go first
  have ending : ∀ t, Holding t → Drains ((do
      modifyCurrent fun c => { c with status := .terminated }
      failContext.leaveContext err : MachineM Unit).run t) := fun t held' => by
    rw [EStateM.run_bind, modifyCurrent_run]
    exact (held'.calm_terminate (g := fun c => { c with status := .terminated }) (fun _ => rfl)
      fun _ => rfl).drains_of_keeps (slotsKept_leaveContext err)
  dsimp only
  split
  · exact held₀.drains_bind (slotsKept_unwindTo _) (runningKept_unwindTo _) fun _ t _ held₁ => ending t held₁
  · exact ending m₀ held₀

theorem runningKept_setSlot (i : Nat) (v : Value) : Keeps runningKept (setSlot i v) := by
  intro m
  rw [setSlot_run]
  split
  · exact ⟨rfl, Array.size_modify⟩
  · exact runningKept.refl m

theorem runningKept_setReg (f : Frame) (i : Nat) (v : Value) : Keeps runningKept (setReg f i v) := by
  unfold setReg
  split
  · exact runningKept_setSlot _ _
  · exact Keeps.throw _

theorem Holding.drains_except (held : Holding m) (a b c : Nat) (f : Frame) (body : Procedure) :
    Drains ((instruction .except a b c f body).run m) := by
  unfold instruction
  dsimp only
  refine held.drains_bind (slotsKept_of_readOnly (readOnly_liftStore Store.readOnly_wellKnown))
    (runningKept_of_storeOnly (ReadOnly.storeOnly (readOnly_liftStore Store.readOnly_wellKnown)))
    fun _ m₁ _ held₁ => ?_
  refine held₁.drains_bind (slotsKept_of_readOnly readOnly_currentContext)
    (runningKept_of_storeOnly (ReadOnly.storeOnly readOnly_currentContext)) fun c m₂ _ held₂ => ?_
  refine held₂.drains_bind (slotsKept_setReg f a c.exc) (runningKept_setReg f a c.exc)
    fun _ m₃ _ held₃ => ?_
  rw [EStateM.run_bind, setExc_run]
  exact held₃.calm_withExc_nil.drains_of_keeps (slotsKept_setMode .run)

theorem Holding.drains_execute_except {f : Frame} {q : ObjRef} {p : Procedure} (held : Holding m)
    (top : m.top? = some f) (code : f.code = .compiled q p) (except : p.ExceptAt f.pc) :
    Drains (execute.run m) := by
  unfold execute
  rw [EStateM.run_bind, topFrame_run, top]
  dsimp only
  rw [code]
  dsimp only
  rw [EStateM.run_bind, EStateM.run_get]
  dsimp only
  rw [EStateM.run_bind, EStateM.run_set]
  dsimp only
  -- counting the fetch changes neither the contexts nor the code
  have counted : Holding { m with steps := m.steps + 1 } :=
    ⟨⟨held.conventional.store, held.conventional.frames⟩, held.waiting⟩
  have named : Keeps slotsKept (frameName f) := Keeps.bind Keeps.get fun _ => Keeps.pure _
  have namedRunning : Keeps runningKept (frameName f) := Keeps.bind Keeps.get fun _ => Keeps.pure _
  split
  · exact (.inr (.inr ⟨counted.withMode _, .inl ⟨_, rfl⟩⟩) : Consumed _)
  · split
    · exact counted.drains_bind named namedRunning fun _ _ _ held₁ => held₁
    · rw [show Opcode.ofNat? (p.code.getD f.pc.toNat 0).toNat = some .except from except]
      dsimp only
      split
      · exact counted
      · exact counted.drains_bind (slotsKept_modifyTop_of fun _ => rfl) (runningKept_modifyCurrent _)
          fun _ _ _ held₁ => held₁.drains_except _ _ _ _ _

theorem Caught.drains (caught : Caught m) : Drains (step.run m) := by
  obtain ⟨f, q, p, -, top, code, -, -, -, except⟩ := caught.atExcept
  rw [step_run_of_running caught.mode]
  exact caught.holding.drains_execute_except top code except

theorem Ending.drains (ending : Ending m) : Drains (step.run m) := by
  rcases ending.stopping with ⟨err, mode⟩ | ⟨f, mode⟩
  · rw [step_run_of_fatal mode]
    exact ending.toHolding.drains_failContext err
  · rw [step_run_of_halted mode]
    exact (.inr (.inr ending) : Consumed m)

theorem Calm.drains {root : Nat} (calm : Calm m) (sound : Sound root m) : Drains (step.run m) := by
  rcases settlesFrom_step calm sound with settled | ⟨_, m', run, caught⟩
  · exact drains_of_calm settled
  · rw [run]
    exact (.inr (.inl caught) : Consumed m')

theorem advance_consumed {root : Nat} (consumed : Consumed m) (sound : Sound root m) :
    Consumed (advance m) := by
  refine consumed_advance_of_drains ?_
  rcases consumed with calm | caught | ending
  · exact calm.drains sound
  · exact caught.drains
  · exact ending.drains

theorem runFor_consumed {root : Nat} (fuel : Nat) (consumed : Consumed m) (sound : Sound root m) :
    Consumed (runFor fuel m) := by
  induction fuel generalizing m with
  | zero => exact consumed
  | succ fuel ih =>
    unfold runFor
    split
    · exact consumed
    · exact ih (advance_consumed consumed sound) (advance_sound sound)

end Steps

section Kept

variable {m : Machine}

def RunningClear (m : Machine) : Prop := ∀ c, m.contexts[m.current]? = some c → c.exc = .nil

def Returning (m : Machine) : Prop :=
  match m.mode with
  | .resume _ | .throw _ | .halted (.value _) | .halted (.raised _) | .halted (.fatal _) => True
  | _ => False

theorem Consumed.waiting (consumed : Consumed m) : m.Waiting := by
  rcases consumed with calm | caught | ending
  · exact calm.clear.waiting
  · exact caught.holding.waiting
  · exact ending.waiting

theorem Ending.not_fetches (ending : Ending m) : m.fetches = false := by
  rcases ending.stopping with ⟨_, mode⟩ | ⟨_, mode⟩ <;> simp [fetches, mode]

theorem Consumed.fetch {root : Nat} (consumed : Consumed m) (sound : Sound root m)
    (fetching : m.fetches = true) : m.RunningClear ∨ Caught m := by
  rcases consumed with calm | caught | ending
  · have running : m.mode = .run := (fetches_iff.mp fetching).1
    refine .inl fun c found => calm.clear _ c found ?_
    exact sound.live (by simp [Failing, running]) (by simp [Mode.isHalted, running]) c found
  · exact .inr caught
  · rw [ending.not_fetches] at fetching
    cases fetching

theorem Consumed.returning (consumed : Consumed m) (returning : m.Returning) : m.Clear := by
  rcases consumed with calm | caught | ending
  · exact calm.clear
  · rw [Returning, caught.mode] at returning
    exact returning.elim
  · rcases ending.stopping with ⟨_, mode⟩ | ⟨_, mode⟩ <;> simp [Returning, mode] at returning

structure SlotDiscipline (m : Machine) : Prop where
  waiting : m.Waiting
  fetch : m.fetches = true → m.RunningClear ∨ Caught m
  returning : m.Returning → m.Clear

theorem Consumed.slotDiscipline {root : Nat} (consumed : Consumed m) (sound : Sound root m) :
    SlotDiscipline m :=
  ⟨consumed.waiting, consumed.fetch sound, consumed.returning⟩

theorem unwinds_delivered_calm {exc val : Value} {t : Nat} {acc : Int} {m' : Machine} {f : Frame}
    (unwinds : Unwinds exc (some (.brk, t, val)) acc m m') (calm : Calm m) (top : m'.top? = some f)
    (target : f.serial = t) : Calm m' := by
  induction unwinds with
  | caught top₀ outside _ _ =>
    -- the frame that catches keeps its serial, which is not the target's
    rw [top?_resumeAt, top₀] at top
    simp only [Option.map_some, Option.some.injEq] at top
    subst top
    exact absurd (by rw [target]) (outside val)
  | popped _ _ _ _ pop _ ih => exact ih (calm.of_slotsKept (Keeps.rel_of_ok slotsKept_popFrame pop)) top
  | left _ _ _ _ pop leave =>
    have popped := calm.of_slotsKept (Keeps.rel_of_ok slotsKept_popFrame pop)
    exact (popped.of_slotsKept slotsKept_withExc_nil).of_slotsKept
      (Keeps.rel_of_ok (slotsKept_leaveWithException _ _) leave)
  | delivered =>
    exact (calm.of_slotsKept (slotsKept_receive _ _ _)).of_slotsKept (slotsKept_resumeAt_nil _)
  | returned _ brk => cases brk

end Kept

section Host

variable {m : Machine}

inductive ConventionalCall : MachineM Unit → Prop
  | runTop {body : Procedure} : body.Conventional → ConventionalCall (runTop body)
  | send (recv : Value) (name : String) (args : Array Value) : ConventionalCall (hostSend recv name args)
  | callProc (p : ObjRef) (args : Array Value) : ConventionalCall (callProc p args none .nil .host)

theorem ConventionalCall.hostCall {start : MachineM Unit} (call : ConventionalCall start) :
    HostCall start := by
  cases call with
  | runTop => exact .runTop _
  | send recv name args => exact .send recv name args
  | callProc p args => exact .callProc p args

theorem ConventionalCall.slotsKept {start : MachineM Unit} (call : ConventionalCall start) :
    Keeps slotsKept start := by
  cases call with
  | runTop conv =>
    unfold Machine.runTop
    refine Keeps.bind (slotsKept_of_readOnly (readOnly_liftStore Store.readOnly_wellKnown)) fun c => ?_
    exact Keeps.bind (slotsKept_allocProc conv rfl rfl) fun _ => slotsKept_callMethod _ _ _ _ _ _ _ _
  | send recv name args =>
    unfold hostSend
    exact Keeps.bind (slotsKept_liftStore (Store.shapesKept_intern name)) fun _ => slotsKept_funcall _ _ _ _ _
  | callProc p args => exact slotsKept_callProc _ _ _ _ _

theorem Calm.entered (calm : Calm m) (clear : m.RunningClear) :
    Calm { { m with contexts := m.contexts.modify m.current fun c => { c with status := .running } } with
      mode := .run } :=
  (calm.of_slotsKept (slotsKept_modifyContext_of (g := fun c => { c with status := .running }) m.current
    (fun c found _ => .inl (clear c found)) fun _ _ codes => codes)).withMode .run

def started (start : MachineM Unit) (m : Machine) : Machine :=
  match start.run { { m with contexts := m.contexts.modify m.current fun c => { c with status := .running } } with
      mode := .run } with
  | .ok () m => m
  | .error f m =>
    match (fault f).run m with
    | .ok () m => m
    | .error f m => { m with mode := .halted (.fault f) }

theorem Calm.started {start : MachineM Unit} (calm : Calm m) (clear : m.RunningClear)
    (kept : Keeps slotsKept start) : Calm (started start m) := by
  have ran := (calm.entered clear).of_slotsKept (kept _)
  unfold Machine.started
  cases run : start.run _ with
  | ok _ m₁ =>
    rw [run] at ran
    exact ran
  | error f m₁ =>
    rw [run] at ran
    dsimp only
    cases ended : (fault f).run m₁ with
    | ok _ m₂ => exact ran.of_slotsKept (Keeps.rel_of_ok (slotsKept_fault f) ended)
    | error _ m₂ => exact (ran.of_slotsKept (Keeps.rel_of_error (slotsKept_fault f) ended)).withMode _

theorem caught_exceptions_consumed {start : MachineM Unit} (entry : Entry m) (calm : Calm m)
    (clear : m.RunningClear) (call : ConventionalCall start) :
    (∀ n, SlotDiscipline (runFor n (started start m))) ∧
    ∀ (m₁ m₂ : Machine) (exc val : Value) (t : Nat) (f : Frame), Calm m₁ →
      Reads (breakOf? exc) m₁ (some (.brk, t, val)) → (unwind exc).run m₁ = .ok () m₂ →
      m₂.top? = some f → f.serial = t → m₂.Clear := by
  have begun := calm.started clear call.slotsKept
  have sound : Sound m.root (started start m) :=
    sound_of_start (g := fun c => { c with status := .running }) entry call.hostCall fun _ => rfl
  refine ⟨fun n => ?_, fun m₁ m₂ exc val t f calm₁ isBreak run top target => ?_⟩
  · exact (runFor_consumed n (.inl begun) sound).slotDiscipline (runFor_sound n sound)
  · exact (unwinds_delivered_calm ((unwind_break_iff isBreak).mp run) calm₁ top target).clear

end Host

def ensureAroundRaise : Procedure :=
  { code := #[3, 1, 1, 27, 1, 25, 2, 27, 2, 37, 1], nregs := 3, handlers := #[⟨1, 0, 5, 5, #[]⟩] }

theorem ensureAroundRaise_conventional : ensureAroundRaise.Conventional :=
  .intro (by decide) (by simp [ensureAroundRaise])

theorem calm_fresh (limits : Limits) : Calm { store := {}, contexts := #[freshContext limits], limits } := by
  have only : ∀ (i : Nat) (c : Context), (#[freshContext limits])[i]? = some c → c = freshContext limits := by
    intro i c found
    cases i with
    | zero => simpa using found.symm
    | succ i => simp at found
  refine ⟨⟨fun r p code => ?_, fun i c found f mem => ?_⟩, fun i c found _ => ?_⟩
  · simp [Store.shapeAt] at code
  · rw [only i c found] at mem
    simp [freshContext] at mem
  · rw [only i c found]
    rfl

theorem ensure_around_raise_consumed :
    let m : Machine := { store := {}, contexts := #[freshContext {}], limits := {} }
    Entry m ∧ Calm m ∧ m.RunningClear ∧ ConventionalCall (runTop ensureAroundRaise) ∧
    (∀ n, SlotDiscipline (runFor n (started (runTop ensureAroundRaise) m))) ∧
    ∀ (m₁ m₂ : Machine) (exc val : Value) (t : Nat) (f : Frame), Calm m₁ →
      Reads (breakOf? exc) m₁ (some (.brk, t, val)) → (unwind exc).run m₁ = .ok () m₂ →
      m₂.top? = some f → f.serial = t → m₂.Clear := by
  intro m
  have entry : Entry m := ⟨(ready_fresh _ _).toLinked, rfl, ⟨freshContext {}, rfl, rfl⟩⟩
  have clear : m.RunningClear := by
    intro c found
    simp only [m, List.getElem?_toArray, List.getElem?_cons_zero, Option.some.injEq] at found
    rw [← found]
    rfl
  have calm : Calm m := calm_fresh {}
  have call : ConventionalCall (runTop ensureAroundRaise) := .runTop ensureAroundRaise_conventional
  exact ⟨entry, calm, clear, call, @caught_exceptions_consumed m _ entry calm clear call⟩

end Machine

end RegisterVM
