import RegisterVM.Proofs.Machine.ClosureRuns

set_option autoImplicit false

namespace RegisterVM

structure StopKind where
  holds : Fatal → Prop
  not_overflow : ∀ depth mid, ¬holds (.overflow depth mid)
  not_fiberPanic : ∀ msg, ¬holds (.fiberPanic msg)

theorem Fatal.overflow_ne_stepLimit (depth : Nat) (mid : String) : Fatal.overflow depth mid ≠ .stepLimit := by
  intro same
  cases same

theorem Fatal.fiberPanic_ne_stepLimit (msg : Option String) : Fatal.fiberPanic msg ≠ .stepLimit := by
  intro same
  cases same

namespace StopKind

def stepLimit : StopKind := ⟨(· = .stepLimit), Fatal.overflow_ne_stepLimit, Fatal.fiberPanic_ne_stepLimit⟩

def interruption : StopKind :=
  ⟨fun err => ∃ steps why, err = .interrupted steps why, by simp, by simp⟩

def empty : StopKind := ⟨fun _ => False, fun _ _ => id, fun _ => id⟩

end StopKind

def Mode.StopsBy (k : StopKind) : Mode → Prop
  | .fatal err => k.holds err
  | .halted (.fatal err) => k.holds err
  | .run | .start _ _ | .resume _ | .throw _ => False
  | .halted (.value _) | .halted (.raised _) | .halted (.fault _) => False

namespace Machine

def fetches (m : Machine) : Bool :=
  match m.mode, m.top? with
  | .run, some f =>
    match f.code with
    | .compiled _ _ => true
    | .native _ => false
  | _, _ => false

def countKept (k : StopKind) : StateOrder Machine where
  rel m m' := m'.steps = m.steps ∧ m'.limits = m.limits ∧ (m'.mode.StopsBy k → m.mode.StopsBy k)
  refl _ := ⟨rfl, rfl, id⟩
  trans h₁ h₂ := ⟨h₂.1.trans h₁.1, h₂.2.1.trans h₁.2.1, fun stops => h₁.2.2 (h₂.2.2 stops)⟩

section Leaves

variable (k : StopKind)

theorem countKept_of_storeOnly {m m' : Machine} (h : storeOnly.rel m m') : (countKept k).rel m m' := by
  have same : m' = { m with store := m'.store } := h
  rw [same]
  exact ⟨rfl, rfl, id⟩

theorem Keeps.countKept_of_storeOnly {α : Type} {x : MachineM α} (hx : Keeps storeOnly x) :
    Keeps (countKept k) x :=
  fun m => Machine.countKept_of_storeOnly k (hx m)

theorem countKept_of_readOnly {α : Type} {x : MachineM α} (hx : ReadOnly x) : Keeps (countKept k) x :=
  Keeps.countKept_of_storeOnly k (ReadOnly.storeOnly hx)

theorem countKept_liftStore {α : Type} (x : StoreM α) : Keeps (countKept k) (liftStore x) :=
  Keeps.countKept_of_storeOnly k (storeOnly_liftStore x)

theorem countKept_modifyContext (i : Nat) (g : Context → Context) :
    Keeps (countKept k) (modifyContext i g) :=
  fun _ => ⟨rfl, rfl, id⟩

theorem countKept_modifyCurrent (g : Context → Context) : Keeps (countKept k) (modifyCurrent g) :=
  fun m => countKept_modifyContext k m.current g m

theorem countKept_modifyTop (g : Frame → Frame) : Keeps (countKept k) (modifyTop g) :=
  countKept_modifyCurrent k _

theorem countKept_switch (r : Nat) :
    Keeps (countKept k) (modify fun m => { m with current := r } : MachineM Unit) :=
  fun _ => ⟨rfl, rfl, id⟩

theorem countKept_modifyStore (g : Machine → Store) :
    Keeps (countKept k) (modify fun m => { m with store := g m } : MachineM Unit) :=
  fun _ => ⟨rfl, rfl, id⟩

theorem countKept_nextSerial : Keeps (countKept k) nextSerial :=
  fun _ => ⟨rfl, rfl, id⟩

theorem countKept_writeSlot (ci i : Nat) (v : Value) : Keeps (countKept k) (writeSlot ci i v) := by
  unfold writeSlot
  refine Keeps.bind (countKept_of_readOnly k (readOnly_context ci)) fun c => ?_
  split
  · exact countKept_modifyContext k ci _
  · exact Keeps.throw _

theorem countKept_setSlot (i : Nat) (v : Value) : Keeps (countKept k) (setSlot i v) :=
  Keeps.bind (countKept_of_readOnly k readOnly_currentIndex) fun ci => countKept_writeSlot k ci i v

theorem countKept_setReg (f : Frame) (i : Nat) (v : Value) : Keeps (countKept k) (setReg f i v) := by
  unfold setReg
  split
  · exact countKept_setSlot k _ _
  · exact Keeps.throw _

theorem countKept_growStack (n : Nat) : Keeps (countKept k) (growStack n) :=
  countKept_modifyCurrent k _

theorem countKept_setExc (v : Value) : Keeps (countKept k) (setExc v) :=
  countKept_modifyCurrent k _

theorem countKept_setTask (task : Task) : Keeps (countKept k) (setTask task) :=
  countKept_modifyTop k _

theorem countKept_setMode {md : Mode} (h : ¬md.StopsBy k) : Keeps (countKept k) (setMode md) :=
  fun _ => ⟨rfl, rfl, fun stops => absurd stops h⟩

theorem countKept_envSet (r : ObjRef) (i : Nat) (v : Value) : Keeps (countKept k) (envSet r i v) := by
  unfold envSet
  refine Keeps.bind (countKept_of_readOnly k (readOnly_envData r)) fun e => ?_
  repeat' (first
    | with_reducible apply Keeps.pure _
    | with_reducible apply Keeps.throw _
    | with_reducible apply countKept_of_readOnly k readOnly_runtimeFault
    | with_reducible apply countKept_liftStore k _
    | with_reducible apply countKept_writeSlot k _ _ _
    | split)

theorem countKept_unshareEnv (r : ObjRef) : Keeps (countKept k) (unshareEnv r) := by
  unfold unshareEnv
  refine Keeps.bind (countKept_of_readOnly k (readOnly_envData r)) fun e => ?_
  repeat' (first
    | with_reducible apply Keeps.pure _
    | with_reducible apply Keeps.throw _
    | with_reducible apply countKept_of_readOnly k readOnly_runtimeFault
    | with_reducible apply countKept_liftStore k _
    | with_reducible apply countKept_of_readOnly k (readOnly_context _)
    | with_reducible apply Keeps.bind
    | with_reducible intro _
    | split)

theorem countKept_ensureEnv : Keeps (countKept k) ensureEnv := by
  unfold ensureEnv
  refine Keeps.bind (countKept_of_readOnly k readOnly_topFrame) fun f => ?_
  split
  · exact Keeps.pure _
  · refine Keeps.bind (countKept_of_readOnly k readOnly_currentIndex) fun ci => ?_
    refine Keeps.bind (countKept_liftStore k _) fun e => ?_
    exact Keeps.bind (countKept_modifyTop k _) fun _ => Keeps.pure _

theorem countKept_placeArgs (base : Nat) (recv : Value) (args : Array Value) (kw : Option HashTable)
    (blk : Value) : Keeps (countKept k) (placeArgs base recv args kw blk) := by
  unfold placeArgs copyTable
  dsimp only
  repeat' (first
    | with_reducible apply Keeps.pure _
    | with_reducible apply countKept_liftStore k _
    | with_reducible apply countKept_setSlot k _ _
    | with_reducible apply countKept_growStack k _
    | with_reducible apply Keeps.forIn_array
    | with_reducible apply Keeps.forIn_list
    | with_reducible apply Keeps.bind
    | split
    | intro _)

theorem countKept_gatherArgs (f : Frame) (ps : ParamSpec) : Keeps (countKept k) (gatherArgs f ps) := by
  unfold gatherArgs
  dsimp only
  repeat' (first
    | with_reducible apply Keeps.pure _
    | with_reducible apply countKept_liftStore k _
    | with_reducible apply Keeps.countKept_of_storeOnly k (storeOnly_rawArgs _ _ _)
    | with_reducible apply countKept_of_readOnly k (readOnly_frameProc _)
    | with_reducible apply Keeps.bind
    | with_reducible intro _
    | split)

theorem countKept_layParams (f : Frame) (ps : ParamSpec) (req opt rest post : Array Value)
    (kw : Option HashTable) (blk : Value) :
    Keeps (countKept k) (layParams f ps req opt rest post kw blk) := by
  unfold layParams
  dsimp only
  repeat' (first
    | with_reducible apply Keeps.pure _
    | with_reducible apply Keeps.throw _
    | with_reducible apply countKept_of_readOnly k readOnly_runtimeFault
    | with_reducible apply countKept_liftStore k _
    | with_reducible apply countKept_setSlot k _ _
    | with_reducible apply countKept_growStack k _
    | with_reducible apply countKept_modifyTop k _
    | with_reducible apply Keeps.forIn_range
    | with_reducible apply Keeps.bind
    | with_reducible intro _
    | split)

end Leaves

section Frames

variable (k : StopKind)

theorem countKept_popFrame : Keeps (countKept k) popFrame := by
  unfold popFrame
  refine Keeps.bind (countKept_of_readOnly k readOnly_currentContext) fun c => ?_
  repeat' (first
    | with_reducible apply Keeps.pure _
    | with_reducible apply Keeps.throw _
    | with_reducible apply countKept_of_readOnly k readOnly_runtimeFault
    | with_reducible apply countKept_liftStore k _
    | with_reducible apply countKept_of_readOnly k (readOnly_procOf? _)
    | with_reducible apply countKept_unshareEnv k _
    | with_reducible apply countKept_modifyCurrent k _
    | with_reducible apply Keeps.bind
    | with_reducible intro _
    | split)

theorem countKept_unwindTo (n : Nat) : Keeps (countKept k) (unwindTo n) :=
  Keeps.unwindTo (countKept_popFrame k) n

theorem countKept_pushFrame (code : FrameCode) (base argc kwc : Nat) (mid : Sym) (owner : Option ObjRef)
    (acc : Int) (blk : Value) (kind : CallKind) :
    Keeps (countKept k) (pushFrame code base argc kwc mid owner acc blk kind) := by
  unfold pushFrame
  dsimp only
  repeat' (first
    | with_reducible apply Keeps.pure _
    | with_reducible apply Keeps.get
    | with_reducible apply countKept_of_readOnly k readOnly_currentContext
    | with_reducible apply countKept_growStack k _
    | with_reducible apply countKept_modifyCurrent k _
    | with_reducible apply countKept_nextSerial k
    | with_reducible apply Keeps.bind
    | with_reducible intro _
    | split)

theorem pushFrame_overflow {code : FrameCode} {base argc kwc : Nat} {mid : Sym} {owner : Option ObjRef}
    {acc : Int} {blk : Value} {kind : CallKind} {m m' : Machine} {err : Fatal}
    (run : (pushFrame code base argc kwc mid owner acc blk kind).run m = .ok (some err) m') :
    ∃ depth name, err = .overflow depth name := by
  unfold pushFrame at run
  obtain ⟨c, m₁, -, run⟩ := bind_run_ok run
  obtain ⟨_, m₂, -, run⟩ := bind_run_ok run
  dsimp only at run
  split at run
  · cases run
    exact ⟨_, _, rfl⟩
  · -- past the depth check the frame is pushed and nothing is reported
    obtain ⟨_, m₃, -, run⟩ := bind_run_ok run
    obtain ⟨_, m₄, -, run⟩ := bind_run_ok run
    obtain ⟨_, m₅, -, run⟩ := bind_run_ok run
    obtain ⟨_, m₆, -, run⟩ := bind_run_ok run
    cases run

theorem countKept_bind_pushFrame {β : Type} {code : FrameCode} {base argc kwc : Nat} {mid : Sym}
    {owner : Option ObjRef} {acc : Int} {blk : Value} {kind : CallKind} {f : Option Fatal → MachineM β}
    (hf : ∀ r, (∀ err, r = some err → ¬k.holds err) → Keeps (countKept k) (f r)) :
    Keeps (countKept k) (pushFrame code base argc kwc mid owner acc blk kind >>= f) := by
  refine Keeps.bind_run (countKept_pushFrame k _ _ _ _ _ _ _ _ _) fun s r t run => ?_
  refine hf r (fun err reported => ?_) t
  subst reported
  obtain ⟨depth, name, rfl⟩ := pushFrame_overflow run
  exact k.not_overflow depth name

end Frames

section Unwinding

variable (k : StopKind)

theorem countKept_fiberEnded (result : Except Value Value) : Keeps (countKept k) (fiberEnded result) := by
  unfold fiberEnded
  refine Keeps.bind (countKept_of_readOnly k readOnly_currentContext) fun c => ?_
  split
  · exact Keeps.throw _
  · refine Keeps.bind (countKept_modifyCurrent k _) fun _ => ?_
    refine Keeps.bind (countKept_switch k _) fun _ => ?_
    split <;> exact countKept_setMode k nofun

theorem countKept_leaveWithValue (kind : CallKind) (v : Value) :
    Keeps (countKept k) (leaveWithValue kind v) := by
  unfold leaveWithValue
  split
  · exact countKept_fiberEnded k _
  · refine Keeps.bind (countKept_of_readOnly k readOnly_depth) fun _ => ?_
    split <;> exact countKept_setMode k nofun

theorem countKept_leaveWithException (kind : CallKind) (exc : Value) :
    Keeps (countKept k) (leaveWithException kind exc) := by
  unfold leaveWithException
  split
  · exact countKept_fiberEnded k _
  · refine Keeps.bind (countKept_of_readOnly k readOnly_depth) fun _ => ?_
    split <;> exact countKept_setMode k nofun

theorem countKept_returnFrom (v : Value) : Keeps (countKept k) (returnFrom v) := by
  unfold returnFrom
  refine Keeps.bind (countKept_of_readOnly k readOnly_topFrame) fun f => ?_
  refine Keeps.bind (countKept_popFrame k) fun _ => ?_
  split
  · exact countKept_leaveWithValue k _ _
  · refine Keeps.bind (countKept_of_readOnly k readOnly_topFrame) fun _ => ?_
    exact Keeps.bind (countKept_setSlot k _ _) fun _ => countKept_setMode k nofun

theorem countKept_unwind_go (exc : Value) (brk : Option (BreakKind × Nat × Value)) (fuel : Nat)
    (acc : Int) : Keeps (countKept k) (unwind.go exc brk fuel acc) := by
  -- the search for a handler pops one frame per round, for at most its fuel
  induction fuel generalizing acc with
  | zero => exact Keeps.throw _
  | succ fuel ih =>
    simp only [unwind.go]
    repeat' first
      | with_reducible apply Keeps.pure _
      | with_reducible apply ih _
      | with_reducible apply countKept_popFrame k
      | with_reducible apply countKept_returnFrom k _
      | with_reducible apply countKept_of_readOnly k readOnly_topFrame
      | with_reducible apply countKept_of_readOnly k (readOnly_findHandler _ _)
      | with_reducible apply countKept_of_readOnly k (readOnly_findBreakHandler _)
      | with_reducible apply countKept_setSlot k _ _
      | with_reducible apply countKept_setExc k _
      | with_reducible apply countKept_modifyTop k _
      | with_reducible apply countKept_leaveWithException k _ _
      | exact countKept_setMode k nofun
      | with_reducible refine Keeps.bind ?_ fun _ => ?_
      | split

theorem countKept_unwind (exc : Value) : Keeps (countKept k) (unwind exc) := by
  unfold unwind
  refine Keeps.bind (Keeps.countKept_of_storeOnly k (storeOnly_noteBacktrace exc)) fun _ => ?_
  refine Keeps.bind (countKept_of_readOnly k (readOnly_breakOf? exc)) fun brk => ?_
  exact Keeps.bind (countKept_of_readOnly k readOnly_depth) fun _ => countKept_unwind_go k _ _ _ _

theorem countKept_nativeRaise (exc : Value) : Keeps (countKept k) (nativeRaise exc) := by
  unfold nativeRaise
  refine Keeps.bind (countKept_of_readOnly k readOnly_topFrame) fun f => ?_
  split
  · exact countKept_unwind k exc
  · refine Keeps.bind (Keeps.countKept_of_storeOnly k (storeOnly_noteBacktrace exc)) fun _ => ?_
    exact Keeps.bind (countKept_popFrame k) fun _ => countKept_leaveWithException k _ _

theorem countKept_throwToCaller (exc : Value) : Keeps (countKept k) (throwToCaller exc) := by
  unfold throwToCaller
  refine Keeps.bind (countKept_of_readOnly k readOnly_depth) fun _ => ?_
  split <;> exact countKept_setMode k nofun

theorem countKept_leaveContext {err : Fatal} (h : ¬k.holds err) :
    Keeps (countKept k) (failContext.leaveContext err) := by
  unfold failContext.leaveContext
  refine Keeps.bind (countKept_of_readOnly k readOnly_currentContext) fun c => ?_
  split
  · refine Keeps.bind (countKept_modifyCurrent k _) fun _ => ?_
    exact Keeps.bind (countKept_switch k _) fun _ => countKept_setMode k h
  · exact countKept_setMode k h

theorem countKept_failContext {err : Fatal} (h : ¬k.holds err) : Keeps (countKept k) (failContext err) := by
  unfold failContext
  refine Keeps.bind (countKept_of_readOnly k readOnly_currentContext) fun c => ?_
  have ending : Keeps (countKept k) (do
      modifyCurrent fun c => { c with status := .terminated }
      failContext.leaveContext err) :=
    Keeps.bind (countKept_modifyCurrent k _) fun _ => countKept_leaveContext k h
  dsimp only
  split
  · exact Keeps.bind (countKept_unwindTo k _) fun _ => ending
  · exact ending

theorem countKept_fault (f : Fault) : Keeps (countKept k) (fault f) := by
  unfold fault
  refine Keeps.bind (countKept_of_readOnly k readOnly_currentContext) fun c => ?_
  split
  · refine Keeps.bind (countKept_modifyCurrent k _) fun _ => countKept_leaveContext k ?_
    split <;> exact k.not_fiberPanic _
  · exact countKept_setMode k nofun

end Unwinding

section Calls

variable (k : StopKind)

theorem countKept_noMethodError (recv : Value) (mid : Sym) (isSuper : Bool) :
    Keeps (countKept k) (noMethodError recv mid isSuper) :=
  countKept_liftStore k _

theorem countKept_startNative (prim : Primitive) (self : Value) :
    Keeps (countKept k) (startNative prim self) :=
  Keeps.bind (Keeps.countKept_of_storeOnly k (storeOnly_nativeCall self)) fun _ =>
    countKept_setMode k nofun

theorem countKept_invokeAt (base acc : Nat) (recv : Value) (meth : Method) (owner : Option ObjRef)
    (mid : Sym) (argc kwc : Nat) :
    Keeps (countKept k) (invokeAt base acc recv meth owner mid argc kwc) := by
  unfold invokeAt
  dsimp only
  repeat' first
    | with_reducible apply Keeps.pure _
    | with_reducible apply Keeps.throw _
    | with_reducible apply countKept_of_readOnly k readOnly_runtimeFault
    | with_reducible apply countKept_liftStore k _
    | with_reducible apply countKept_of_readOnly k (readOnly_slot _)
    | with_reducible apply countKept_of_readOnly k (readOnly_procOf? _)
    | with_reducible apply countKept_of_readOnly k (readOnly_procSelf _)
    | with_reducible apply countKept_of_readOnly k (readOnly_codeOf _)
    | with_reducible apply countKept_setSlot k _ _
    | with_reducible apply countKept_startNative k _ _
    | with_reducible refine countKept_setMode k ?_
    | simp only [Mode.StopsBy, not_false_eq_true]
    | exact reported _ rfl
    | with_reducible refine countKept_bind_pushFrame k fun _ reported => ?_
    | with_reducible refine Keeps.bind ?_ fun _ => ?_
    | split

theorem countKept_dispatch (a : Nat) (recv : Value) (cls : Option ObjRef) (mid : Sym) (argc kwc : Nat)
    (isSuper : Bool) : Keeps (countKept k) (dispatch a recv cls mid argc kwc isSuper) := by
  unfold dispatch
  dsimp only
  repeat' first
    | with_reducible apply Keeps.pure _
    | with_reducible apply countKept_invokeAt k _ _ _ _ _ _ _ _
    | with_reducible apply countKept_unwind k _
    | with_reducible apply countKept_of_readOnly k readOnly_topFrame
    | with_reducible apply countKept_liftStore k _
    | with_reducible apply Keeps.countKept_of_storeOnly k (storeOnly_rawArgs _ _ _)
    | with_reducible apply countKept_noMethodError k _ _ _
    | with_reducible apply countKept_placeArgs k _ _ _ _ _
    | with_reducible refine Keeps.bind ?_ fun _ => ?_
    | split

theorem countKept_send (a : Nat) (mid : Sym) (callOperand : Nat) (withBlock : Bool) :
    Keeps (countKept k) (send a mid callOperand withBlock) := by
  unfold send
  dsimp only
  repeat' first
    | with_reducible apply Keeps.pure _
    | with_reducible apply countKept_dispatch k _ _ _ _ _ _ _
    | with_reducible apply countKept_unwind k _
    | with_reducible apply countKept_of_readOnly k readOnly_topFrame
    | with_reducible apply countKept_of_readOnly k (readOnly_slot _)
    | with_reducible apply countKept_liftStore k _
    | with_reducible apply countKept_growStack k _
    | with_reducible apply countKept_setSlot k _ _
    | with_reducible apply Keeps.countKept_of_storeOnly k (storeOnly_checkBlock _)
    | with_reducible refine Keeps.bind ?_ fun _ => ?_
    | split

theorem countKept_superSend (a : Nat) (callOperand : Nat) :
    Keeps (countKept k) (superSend a callOperand) := by
  unfold superSend
  dsimp only
  repeat' first
    | with_reducible apply Keeps.pure _
    | with_reducible apply countKept_dispatch k _ _ _ _ _ _ _
    | with_reducible apply countKept_unwind k _
    | with_reducible apply countKept_of_readOnly k readOnly_topFrame
    | with_reducible apply countKept_of_readOnly k (readOnly_slot _)
    | with_reducible apply countKept_liftStore k _
    | with_reducible apply countKept_growStack k _
    | with_reducible apply countKept_setSlot k _ _
    | with_reducible apply Keeps.countKept_of_storeOnly k (storeOnly_checkBlock _)
    | with_reducible refine Keeps.bind ?_ fun _ => ?_
    | split

theorem countKept_callMethod (recv : Value) (meth : Method) (owner : Option ObjRef) (mid : Sym)
    (args : Array Value) (kw : Option HashTable) (blk : Value) (kind : CallKind) :
    Keeps (countKept k) (callMethod recv meth owner mid args kw blk kind) := by
  unfold callMethod
  repeat' first
    | with_reducible apply Keeps.pure _
    | with_reducible apply countKept_of_readOnly k readOnly_runtimeFault
    | with_reducible apply countKept_of_readOnly k readOnly_stackTop
    | with_reducible apply countKept_of_readOnly k (readOnly_codeOf _)
    | with_reducible apply countKept_placeArgs k _ _ _ _ _
    | with_reducible apply countKept_startNative k _ _
    | with_reducible refine countKept_setMode k ?_
    | simp only [Mode.StopsBy, not_false_eq_true]
    | exact reported _ rfl
    | with_reducible refine countKept_bind_pushFrame k fun _ reported => ?_
    | with_reducible refine Keeps.bind ?_ fun _ => ?_
    | split

theorem countKept_callProc (p : ObjRef) (args : Array Value) (kw : Option HashTable) (blk : Value)
    (kind : CallKind) : Keeps (countKept k) (callProc p args kw blk kind) := by
  unfold callProc
  refine Keeps.bind (countKept_of_readOnly k (readOnly_procOf? _)) fun found => ?_
  split
  · exact Keeps.bind (countKept_of_readOnly k (readOnly_procSelf _)) fun _ =>
      countKept_callMethod k _ _ _ _ _ _ _ _
  · exact countKept_of_readOnly k readOnly_runtimeFault

theorem countKept_funcall (recv : Value) (mid : Sym) (args : Array Value) (kw : Option HashTable)
    (blk : Value) : Keeps (countKept k) (funcall recv mid args kw blk) := by
  unfold funcall
  dsimp only
  repeat' first
    | with_reducible apply Keeps.pure _
    | with_reducible apply countKept_callMethod k _ _ _ _ _ _ _ _
    | with_reducible apply countKept_callProc k _ _ _ _ _
    | with_reducible apply countKept_of_readOnly k (readOnly_procOf? _)
    | with_reducible apply countKept_liftStore k _
    | with_reducible apply countKept_throwToCaller k _
    | with_reducible apply countKept_noMethodError k _ _ _
    | with_reducible refine Keeps.bind ?_ fun _ => ?_
    | split

theorem countKept_request (req : Request) : Keeps (countKept k) (request req) := by
  unfold request
  split
  · exact countKept_funcall k _ _ _ _ _
  · exact countKept_callProc k _ _ _ _ _

end Calls

section Instructions

variable (k : StopKind)

theorem countKept_newErr (cls : Core → ObjRef) (msg : String) : Keeps (countKept k) (newErr cls msg) :=
  countKept_liftStore k _

theorem countKept_inspectValue (v : Value) : Keeps (countKept k) (inspectValue v) :=
  countKept_liftStore k _

theorem countKept_regRange (f : Frame) (lo hi : Nat) : Keeps (countKept k) (regRange f lo hi) :=
  countKept_of_readOnly k (readOnly_slots _ _)

theorem countKept_raiseBreak (kind : BreakKind) (target : Nat) (v : Value) :
    Keeps (countKept k) (raiseBreak kind target v) :=
  Keeps.bind (countKept_liftStore k _) fun b => countKept_unwind k (.obj b)

theorem countKept_enterParams (f : Frame) (body : Procedure) :
    Keeps (countKept k) (enterParams f body) := by
  unfold enterParams
  refine Keeps.bind (countKept_gatherArgs k _ _) fun gathered => ?_
  obtain ⟨args, kw, blk, strict⟩ := gathered
  dsimp only
  split
  · exact Keeps.bind (countKept_liftStore k _) (countKept_unwind k)
  · refine Keeps.bind (countKept_of_readOnly k (readOnly_splitArgs _ _)) fun parts => ?_
    obtain ⟨req, opt, rest, post⟩ := parts
    exact Keeps.bind (countKept_layParams k _ _ _ _ _ _ _ _) fun _ => countKept_setMode k nofun

theorem countKept_classDef (f : Frame) (a : Nat) (name : Sym) (isModule : Bool) :
    Keeps (countKept k) (classDef f a name isModule) := by
  unfold classDef
  dsimp only
  repeat' (first
    | with_reducible apply countKept_unwind k _
    | with_reducible apply Keeps.pure _
    | with_reducible apply Keeps.get
    | with_reducible apply countKept_of_readOnly k (readOnly_slot _)
    | with_reducible apply countKept_of_readOnly k (readOnly_targetClass _)
    | with_reducible apply countKept_liftStore k _
    | with_reducible apply countKept_newErr k _ _
    | with_reducible apply countKept_inspectValue k _
    | with_reducible apply countKept_setSlot k _ _
    | with_reducible refine countKept_setMode k ?_
    | simp only [Mode.StopsBy, not_false_eq_true]
    | with_reducible apply Keeps.bind
    | with_reducible intro _
    | split)

theorem countKept_execBody (f : Frame) (a : Nat) (body : Procedure) :
    Keeps (countKept k) (execBody f a body) := by
  unfold execBody
  dsimp only
  repeat' (first
    | with_reducible apply Keeps.pure _
    | with_reducible apply countKept_of_readOnly k (readOnly_slot _)
    | with_reducible apply countKept_of_readOnly k (readOnly_targetClass _)
    | with_reducible apply countKept_liftStore k _
    | with_reducible apply countKept_growStack k _
    | with_reducible apply countKept_setSlot k _ _
    | with_reducible refine countKept_setMode k ?_
    | simp only [Mode.StopsBy, not_false_eq_true]
    | exact reported _ rfl
    | with_reducible refine countKept_bind_pushFrame k fun _ reported => ?_
    | with_reducible apply Keeps.bind
    | with_reducible intro _
    | split)

theorem countKept_arithStep (f : Frame) (op : ArithOp) (a : Nat) (y : Value) (imm : Option Value) :
    Keeps (countKept k) (arithStep f op a y imm) := by
  unfold arithStep
  repeat' (first
    | with_reducible apply countKept_unwind k _
    | with_reducible apply countKept_send k _ _ _ _
    | with_reducible apply Keeps.pure _
    | with_reducible apply countKept_of_readOnly k (readOnly_reg _ _)
    | with_reducible apply countKept_of_readOnly k (readOnly_opSym _)
    | with_reducible apply countKept_newErr k _ _
    | with_reducible apply countKept_setReg k _ _ _
    | with_reducible refine countKept_setMode k ?_
    | simp only [Mode.StopsBy, not_false_eq_true]
    | with_reducible apply Keeps.bind
    | with_reducible intro _
    | split)

theorem countKept_instruction (op : Opcode) (a b c : Nat) (f : Frame) (body : Procedure) :
    Keeps (countKept k) (instruction op a b c f body) := by
  unfold instruction
  dsimp only
  refine Keeps.bind (countKept_liftStore k _) fun core => ?_
  cases op
  all_goals dsimp only
  all_goals repeat' (first
    | with_reducible apply Keeps.bind
    | with_reducible intro _
    | split
    | with_reducible apply countKept_liftStore k _
    | with_reducible apply countKept_newErr k _ _
    | with_reducible apply countKept_inspectValue k _
    | with_reducible apply countKept_unwind k _
    | with_reducible apply countKept_returnFrom k _
    | with_reducible apply countKept_send k _ _ _ _
    | with_reducible apply countKept_superSend k _ _
    | with_reducible apply countKept_enterParams k _ _
    | with_reducible apply countKept_raiseBreak k _ _ _
    | with_reducible apply countKept_arithStep k _ _ _ _ _
    | with_reducible apply countKept_classDef k _ _ _ _
    | with_reducible apply countKept_execBody k _ _ _
    | with_reducible apply countKept_ensureEnv k
    | with_reducible apply Keeps.pure _
    | with_reducible apply Keeps.get
    | with_reducible apply countKept_of_readOnly k (readOnly_reg _ _)
    | with_reducible apply countKept_of_readOnly k (readOnly_symAt _ _)
    | with_reducible apply countKept_of_readOnly k (readOnly_childAt _ _)
    | with_reducible apply countKept_of_readOnly k (readOnly_constLookup _ _)
    | with_reducible apply countKept_of_readOnly k (readOnly_targetClass _)
    | with_reducible apply countKept_of_readOnly k (readOnly_upvarEnv _ _)
    | with_reducible apply countKept_of_readOnly k (readOnly_envGet _ _)
    | with_reducible apply countKept_of_readOnly k readOnly_currentContext
    | with_reducible apply countKept_of_readOnly k (readOnly_kdict _ _)
    | with_reducible apply countKept_of_readOnly k (readOnly_frameProc _)
    | with_reducible apply countKept_of_readOnly k (readOnly_procOf? _)
    | with_reducible apply countKept_of_readOnly k readOnly_runtimeFault
    | with_reducible apply countKept_regRange k _ _ _
    | with_reducible apply Keeps.countKept_of_storeOnly k (storeOnly_literalAt _ _)
    | with_reducible apply Keeps.countKept_of_storeOnly k (storeOnly_ivarSet _ _ _)
    | with_reducible apply Keeps.countKept_of_storeOnly k (storeOnly_newProc _ _ _ _ _)
    | with_reducible apply Keeps.countKept_of_storeOnly k (storeOnly_breakTarget _)
    | with_reducible apply Keeps.countKept_of_storeOnly k (storeOnly_returnTarget _)
    | with_reducible apply countKept_modifyStore k _
    | with_reducible apply countKept_setReg k _ _ _
    | with_reducible apply countKept_setExc k _
    | with_reducible apply countKept_envSet k _ _ _
    | with_reducible apply countKept_modifyTop k _
    | with_reducible refine countKept_setMode k ?_
    | simp only [Mode.StopsBy, not_false_eq_true]
    | with_reducible apply Keeps.forIn_range)

end Instructions

section Natives

variable (k : StopKind)

theorem countKept_resumeFiber (r : ObjRef) (args : Array Value) :
    Keeps (countKept k) (resumeFiber r args) := by
  unfold resumeFiber
  dsimp only
  repeat' (first
    | with_reducible apply Keeps.pure _
    | with_reducible apply countKept_of_readOnly k (readOnly_fiberData _)
    | with_reducible apply countKept_of_readOnly k (readOnly_context _)
    | with_reducible apply countKept_of_readOnly k readOnly_currentIndex
    | with_reducible apply countKept_newErr k _ _
    | with_reducible apply countKept_nativeRaise k _
    | with_reducible apply countKept_modifyContext k _ _
    | with_reducible apply countKept_switch k _
    | with_reducible apply Keeps.countKept_of_storeOnly k (storeOnly_packValues _)
    | with_reducible apply countKept_liftStore k _
    | with_reducible apply countKept_callProc k _ _ _ _ _
    | with_reducible refine countKept_setMode k ?_
    | simp only [Mode.StopsBy, not_false_eq_true]
    | with_reducible apply Keeps.bind
    | with_reducible intro _
    | split)

theorem countKept_suspendFiber (vals : Array Value) : Keeps (countKept k) (suspendFiber vals) := by
  unfold suspendFiber
  refine Keeps.bind (countKept_of_readOnly k readOnly_currentContext) fun c => ?_
  split
  · exact countKept_of_readOnly k readOnly_runtimeFault
  · refine Keeps.bind (countKept_modifyCurrent k _) fun _ => ?_
    refine Keeps.bind (countKept_switch k _) fun _ => ?_
    exact Keeps.bind (Keeps.countKept_of_storeOnly k (storeOnly_packValues _)) fun _ =>
      countKept_setMode k nofun

theorem countKept_spawnFiber (p : ObjRef) (cls : Option ObjRef) : Keeps (countKept k) (spawnFiber p cls) := by
  unfold spawnFiber
  refine Keeps.bind_run Keeps.get fun s m t got => ?_
  cases got
  exact rel_set_bind ⟨rfl, rfl, id⟩ (Keeps.bind (countKept_liftStore k _) fun r =>
    Keeps.bind (countKept_modifyContext k _ _) fun _ => Keeps.pure _)

theorem countKept_applyNative (step : NativeStep) : Keeps (countKept k) (applyNative step) := by
  cases step with
  | done v => exact countKept_returnFrom k v
  | raise exc => exact countKept_nativeRaise k exc
  | call req task => exact Keeps.bind (countKept_setTask k task) fun _ => countKept_request k req
  | resume fiber args =>
    exact Keeps.bind (countKept_setTask k .pass) fun _ => countKept_resumeFiber k fiber args
  | suspend vals => exact Keeps.bind (countKept_setTask k .pass) fun _ => countKept_suspendFiber k vals
  | spawn p cls => exact Keeps.bind (countKept_spawnFiber k p cls) (countKept_returnFrom k)
  | turn task => exact Keeps.bind (countKept_setTask k task) fun _ => countKept_setMode k nofun

theorem countKept_runNative (x : NativeM NativeStep) : Keeps (countKept k) (runNative x) := by
  unfold runNative
  refine Keeps.bind Keeps.get fun m => ?_
  refine Keeps.bind (countKept_liftStore k _) fun answer => ?_
  split
  · exact countKept_applyNative k _
  · exact countKept_nativeRaise k _

end Natives

section Fetching

theorem fetches_iff {m : Machine} :
    m.fetches = true ↔ m.mode = .run ∧ ∃ f p body, m.top? = some f ∧ f.code = .compiled p body := by
  unfold fetches
  split
  · next running top =>
    split <;> simp_all
  · next notFetching =>
    constructor
    · nofun
    · rintro ⟨running, f, p, body, top, -⟩
      exact (notFetching f running top).elim

theorem execute_of_checkpoint {m : Machine} {err : Fatal} (fetching : m.fetches = true)
    (stop : m.checkpoint (m.steps + 1) = some err) :
    execute.run m = .ok () { m with steps := m.steps + 1, mode := .fatal err } := by
  obtain ⟨-, f, p, body, top, compiled⟩ := fetches_iff.mp fetching
  unfold execute
  rw [EStateM.run_bind, topFrame_run, top]
  dsimp only
  rw [compiled]
  dsimp only
  rw [EStateM.run_bind, EStateM.run_get]
  dsimp only
  rw [EStateM.run_bind, EStateM.run_set]
  dsimp only
  rw [stop]
  rfl

theorem countKept_frameName (k : StopKind) (f : Frame) : Keeps (countKept k) (frameName f) :=
  Keeps.bind Keeps.get fun _ => Keeps.pure _

theorem countKept_execute (k : StopKind) {m : Machine} (fetching : m.fetches = true)
    (pass : m.checkpoint (m.steps + 1) = none) :
    (countKept k).rel { m with steps := m.steps + 1 } (endState (execute.run m)) := by
  obtain ⟨-, f, p, body, top, compiled⟩ := fetches_iff.mp fetching
  unfold execute
  rw [EStateM.run_bind, topFrame_run, top]
  dsimp only
  rw [compiled]
  dsimp only
  rw [EStateM.run_bind, EStateM.run_get]
  dsimp only
  rw [EStateM.run_bind, EStateM.run_set]
  dsimp only
  rw [pass]
  dsimp only
  refine (?_ : Keeps (countKept k) _) _
  repeat' (first
    | with_reducible apply Keeps.pure _
    | with_reducible apply Keeps.throw _
    | with_reducible apply countKept_frameName k _
    | with_reducible apply countKept_of_readOnly k (readOnly_panic _)
    | with_reducible apply countKept_modifyTop k _
    | with_reducible apply countKept_instruction k _ _ _ _ _ _
    | with_reducible apply Keeps.bind
    | with_reducible intro _
    | split)

theorem execute_of_idle {m : Machine} (running : m.mode = .run) (idle : m.fetches = false) :
    execute.run m = .error .runtime m := by
  unfold fetches at idle
  rw [running] at idle
  unfold execute
  rw [EStateM.run_bind, topFrame_run]
  cases top : m.top? with
  | none => rfl
  | some f =>
    rw [top] at idle
    dsimp only at idle ⊢
    split at idle
    · cases idle
    · next native => rw [native]; rfl

end Fetching

section Step

variable (k : StopKind)

theorem step_run_of_running {m : Machine} (running : m.mode = .run) : step.run m = execute.run m := by
  simp only [step, EStateM.run_bind, EStateM.run_get, running]

theorem countKept_step_of_idle {m : Machine} (idle : m.fetches = false) :
    (countKept k).rel m (endState (step.run m)) := by
  unfold step
  rw [EStateM.run_bind, EStateM.run_get]
  dsimp only
  split
  · next running =>
    rw [execute_of_idle running idle]
    exact (countKept k).refl m
  · exact countKept_runNative k _ m
  · refine Keeps.bind (countKept_of_readOnly k readOnly_topFrame) (fun f => ?_) m
    split
    · exact countKept_runNative k _
    · exact countKept_of_readOnly k readOnly_runtimeFault
  · exact countKept_nativeRaise k _ m
  · next err failing =>
    -- a context ending with a stop of kind `k` was already stopping with it
    by_cases stop : k.holds err
    · obtain ⟨steps, limits, -⟩ :=
        countKept_failContext StopKind.empty (show ¬StopKind.empty.holds err from id) m
      exact ⟨steps, limits, fun _ => by rw [failing]; exact stop⟩
    · exact countKept_failContext k stop m
  · exact (countKept k).refl m

theorem countKept_step {m : Machine} (pass : m.fetches = true → m.checkpoint (m.steps + 1) = none) :
    (countKept k).rel { m with steps := m.steps + if m.fetches then 1 else 0 } (endState (step.run m)) := by
  cases fetching : m.fetches
  · obtain ⟨steps, limits, stops⟩ := countKept_step_of_idle k fetching
    exact ⟨by simpa using steps, limits, stops⟩
  · rw [step_run_of_running (fetches_iff.mp fetching).1]
    simpa using countKept_execute k fetching (pass fetching)

theorem advance_of_checkpoint {m : Machine} {err : Fatal} (fetching : m.fetches = true)
    (stop : m.checkpoint (m.steps + 1) = some err) :
    advance m = { m with steps := m.steps + 1, mode := .fatal err } := by
  unfold advance
  rw [step_run_of_running (fetches_iff.mp fetching).1, execute_of_checkpoint fetching stop]

theorem countKept_handled {x : MachineM Unit} {m₀ m : Machine}
    (ran : (countKept k).rel m₀ (endState (x.run m))) :
    (countKept k).rel m₀ (match x.run m with
      | .ok () m => m
      | .error f m =>
        match (fault f).run m with
        | .ok () m => m
        | .error f m => { m with mode := .halted (.fault f) }) := by
  cases run : x.run m with
  | ok _ m₁ => rw [run] at ran; exact ran
  | error f m₁ =>
    rw [run] at ran
    have faulted := countKept_fault k f m₁
    dsimp only
    cases ended : (fault f).run m₁ with
    | ok _ m₂ => rw [ended] at faulted; exact (countKept k).trans ran faulted
    | error _ m₂ =>
      rw [ended] at faulted
      exact (countKept k).trans ran ((countKept k).trans faulted ⟨rfl, rfl, nofun⟩)

theorem countKept_advance {m : Machine} (pass : m.fetches = true → m.checkpoint (m.steps + 1) = none) :
    (countKept k).rel { m with steps := m.steps + if m.fetches then 1 else 0 } (advance m) :=
  countKept_handled k (countKept_step k pass)

theorem advance_counts (m : Machine) :
    (advance m).steps = m.steps + (if m.fetches then 1 else 0) ∧ (advance m).limits = m.limits := by
  cases stop : m.checkpoint (m.steps + 1) with
  | some err =>
    cases fetching : m.fetches
    · obtain ⟨steps, limits, -⟩ := countKept_advance StopKind.empty (fun fetches => by cases fetching.symm.trans fetches)
      exact ⟨by simpa [fetching] using steps, limits⟩
    · rw [advance_of_checkpoint fetching stop]
      exact ⟨rfl, rfl⟩
  | none =>
    obtain ⟨steps, limits, -⟩ := countKept_advance StopKind.empty fun _ => stop
    exact ⟨steps, limits⟩

theorem steps_advance (m : Machine) : (advance m).steps = m.steps + if m.fetches then 1 else 0 :=
  (advance_counts m).1

theorem limits_advance (m : Machine) : (advance m).limits = m.limits :=
  (advance_counts m).2

end Step

end Machine

end RegisterVM
