import Mathlib.Logic.Relation
import RegisterVM.Proofs.Machine.Closures
import RegisterVM.Proofs.Host.Calls

set_option autoImplicit false

namespace RegisterVM

namespace Machine

open Store (envsKept)

section Links

theorem linksKept_newErr (cls : Core → ObjRef) (msg : String) : Keeps linksKept (newErr cls msg) :=
  linksKept_liftStore (Store.shapesKept_newError cls msg).envs

theorem linksKept_inspectValue (v : Value) : Keeps linksKept (inspectValue v) :=
  linksKept_of_readOnly (readOnly_liftStore (Store.readOnly_inspect v))

theorem linksKept_noteBacktrace (exc : Value) : Keeps linksKept (noteBacktrace exc) := by
  unfold noteBacktrace
  split
  · refine Keeps.bind (linksKept_of_readOnly (readOnly_liftStore (Store.readOnly_getObj _))) fun o => ?_
    split
    · exact Keeps.bind (linksKept_of_readOnly readOnly_backtrace) fun _ =>
        linksKept_liftStore (Store.envsKept_modifyObj _ fun o => by split <;> simp_all [Obj.env?])
    · exact Keeps.pure _
  · exact Keeps.pure _

theorem linksKept_literalAt (body : Procedure) (i : Nat) : Keeps linksKept (literalAt body i) := by
  unfold literalAt
  split
  · exact Keeps.throw _
  · split
    · exact Keeps.pure _
    · split
      · exact Keeps.pure _
      · exact linksKept_liftStore (Store.shapesKept_newString _).envs

theorem linksKept_breakTarget (f : Frame) : Keeps linksKept (breakTarget f) := by
  unfold breakTarget
  refine Keeps.bind (linksKept_of_readOnly (readOnly_frameProc f)) fun d => ?_
  have err : Keeps linksKept (do pure (Except.error (← newErr (·.localJumpError) "break from proc-closure")) :
      MachineM (Except Value Nat)) :=
    Keeps.bind (linksKept_newErr _ _) fun _ => Keeps.pure _
  dsimp only
  split
  · exact Keeps.bind err fun _ => Keeps.pure _
  · refine Keeps.bind (linksKept_of_readOnly (readOnly_liveEnvFrame _)) fun t => ?_
    split
    · split
      · exact err
      · exact Keeps.pure _
    · exact err

theorem linksKept_returnTarget (f : Frame) : Keeps linksKept (returnTarget f) := by
  unfold returnTarget
  refine Keeps.bind (linksKept_of_readOnly (readOnly_frameProc f)) fun d => ?_
  refine Keeps.bind Keeps.get fun _ => ?_
  refine Keeps.bind (linksKept_of_readOnly (readOnly_climb _ _ _)) fun env => ?_
  refine Keeps.bind (linksKept_of_readOnly (readOnly_liveEnvFrame _)) fun t => ?_
  split
  · exact Keeps.pure _
  · exact Keeps.bind (linksKept_newErr _ _) fun _ => Keeps.pure _

theorem linksKept_ivarSet (self : Value) (sym : Sym) (v : Value) : Keeps linksKept (ivarSet self sym v) :=
  Keeps.linksKept_of_storeOnly (storeOnly_ivarSet self sym v) (Keeps.toStoreEnvs (storeShapes_ivarSet self sym v))

theorem linksKept_newProc (body : Procedure) (upper env : Option ObjRef) (strict : Bool) (target : ObjRef) :
    Keeps linksKept (newProc body upper env strict target) := by
  unfold newProc
  dsimp only
  repeat' first
    | with_reducible apply Keeps.pure _
    | with_reducible apply linksKept_of_readOnly (readOnly_liftStore Store.readOnly_wellKnown)
    | with_reducible apply linksKept_of_readOnly (readOnly_procOf? _)
    | with_reducible exact linksKept_liftStore (Store.envsKept_alloc rfl)
    | with_reducible refine Keeps.bind ?_ fun _ => ?_
    | split

theorem linksKept_checkBlock (blk : Value) : Keeps linksKept (checkBlock blk) := by
  unfold checkBlock
  repeat' first
    | with_reducible apply Keeps.pure _
    | with_reducible apply linksKept_of_readOnly (readOnly_procOf? _)
    | with_reducible apply linksKept_of_readOnly (readOnly_liftStore (Store.readOnly_realClassName _))
    | with_reducible apply linksKept_liftStore (Store.shapesKept_newError _ _).envs
    | with_reducible refine Keeps.bind ?_ fun _ => ?_
    | split

theorem linksKept_rawArgs (base argc kwc : Nat) : Keeps linksKept (rawArgs base argc kwc) := by
  unfold rawArgs copyTable
  dsimp only
  repeat' first
    | with_reducible apply Keeps.pure _
    | with_reducible apply linksKept_of_readOnly (readOnly_slot _)
    | with_reducible apply linksKept_of_readOnly (readOnly_slots _ _)
    | with_reducible apply linksKept_of_readOnly (readOnly_liftStore (Store.readOnly_arrayOf? _))
    | with_reducible apply linksKept_of_readOnly (readOnly_liftStore (Store.readOnly_hashOf? _))
    | with_reducible apply linksKept_of_readOnly (readOnly_liftStore (Store.readOnly_tableCopy _))
    | with_reducible apply linksKept_of_readOnly (readOnly_liftStore (Store.readOnly_tableSet _ _ _))
    | with_reducible refine Keeps.forIn_range _ _ fun _ _ => ?_
    | with_reducible refine Keeps.bind ?_ fun _ => ?_
    | split

theorem linksKept_placeArgs (base : Nat) (recv : Value) (args : Array Value) (kw : Option HashTable)
    (blk : Value) : Keeps linksKept (placeArgs base recv args kw blk) := by
  unfold placeArgs copyTable
  dsimp only
  repeat' first
    | with_reducible apply Keeps.pure _
    | with_reducible apply linksKept_growStack _
    | with_reducible apply linksKept_setSlot _ _
    | with_reducible apply linksKept_liftStore (Store.shapesKept_newArray _).envs
    | with_reducible apply linksKept_liftStore (Store.shapesKept_newHash _).envs
    | with_reducible apply linksKept_of_readOnly (readOnly_liftStore (Store.readOnly_tableCopy _))
    | with_reducible refine Keeps.forIn_list _ _ fun _ _ => ?_
    | with_reducible refine Keeps.forIn_array _ _ fun _ _ => ?_
    | with_reducible refine Keeps.bind ?_ fun _ => ?_
    | split

theorem linksKept_packValues (vals : Array Value) : Keeps linksKept (Native.packValues vals) := by
  unfold Native.packValues
  split
  · exact Keeps.pure _
  · split
    · exact Keeps.pure _
    · exact linksKept_liftStore (Store.shapesKept_newArray _).envs

theorem linksKept_nativeCall (self : Value) : Keeps linksKept (nativeCall self) :=
  Keeps.bind (linksKept_of_readOnly readOnly_topFrame) fun _ =>
    Keeps.bind (linksKept_rawArgs _ _ _) fun _ => Keeps.pure _

theorem linksKept_startNative (prim : Primitive) (self : Value) : Keeps linksKept (startNative prim self) :=
  Keeps.bind (linksKept_nativeCall self) fun _ => linksKept_setMode _

theorem linksKept_noMethodError (recv : Value) (mid : Sym) (isSuper : Bool) :
    Keeps linksKept (noMethodError recv mid isSuper) :=
  Keeps.linksKept_of_storeOnly (storeOnly_liftStore _) (Keeps.toStoreEnvs (storeShapes_noMethodError recv mid isSuper))

theorem linksKept_throwToCaller (exc : Value) : Keeps linksKept (throwToCaller exc) :=
  Keeps.bind (linksKept_of_readOnly readOnly_depth) fun _ => by
    split <;> exact linksKept_setMode _

theorem linksKept_gatherArgs (f : Frame) (ps : ParamSpec) : Keeps linksKept (gatherArgs f ps) := by
  unfold gatherArgs
  dsimp only
  repeat' first
    | with_reducible apply Keeps.pure _
    | with_reducible apply linksKept_rawArgs _ _ _
    | with_reducible apply linksKept_of_readOnly (readOnly_frameProc _)
    | with_reducible apply linksKept_of_readOnly (readOnly_liftStore (Store.readOnly_arrayOf? _))
    | with_reducible apply linksKept_liftStore (Store.shapesKept_newHash _).envs
    | with_reducible refine Keeps.bind ?_ fun _ => ?_
    | split

theorem linksKept_layParams (f : Frame) (ps : ParamSpec) (req opt rest post : Array Value)
    (kw : Option HashTable) (blk : Value) : Keeps linksKept (layParams f ps req opt rest post kw blk) := by
  unfold layParams
  dsimp only
  repeat' first
    | with_reducible apply Keeps.pure _
    | with_reducible apply linksKept_of_readOnly readOnly_runtimeFault
    | with_reducible apply linksKept_growStack _
    | with_reducible apply linksKept_setSlot _ _
    | with_reducible exact linksKept_modifyTop fun _ => rfl
    | with_reducible apply linksKept_liftStore (Store.shapesKept_newArray _).envs
    | with_reducible apply linksKept_liftStore (Store.shapesKept_newHash _).envs
    | with_reducible refine Keeps.forIn_range _ _ fun _ _ => ?_
    | with_reducible refine Keeps.bind ?_ fun _ => ?_
    | split

theorem linksKept_setTask (task : Task) : Keeps linksKept (setTask task) :=
  linksKept_modifyTop fun _ => rfl

theorem linksKept_switch (r : Nat) : Keeps linksKept (modify fun m => { m with current := r } : MachineM Unit) :=
  fun _ => ⟨fun _ => rfl, fun _ _ => rfl⟩

theorem linksKept_fiberEnded (result : Except Value Value) : Keeps linksKept (fiberEnded result) := by
  unfold fiberEnded
  refine Keeps.bind (linksKept_of_readOnly readOnly_currentContext) fun c => ?_
  split
  · exact linksKept_of_readOnly readOnly_runtimeFault
  · refine Keeps.bind (linksKept_modifyCurrent_of fun _ => rfl) fun _ => ?_
    refine Keeps.bind (linksKept_switch _) fun _ => ?_
    split <;> exact linksKept_setMode _

theorem linksKept_leaveWithValue (kind : CallKind) (v : Value) : Keeps linksKept (leaveWithValue kind v) := by
  unfold leaveWithValue
  split
  · exact linksKept_fiberEnded _
  · exact Keeps.bind (linksKept_of_readOnly readOnly_depth) fun _ => by split <;> exact linksKept_setMode _

theorem linksKept_leaveWithException (kind : CallKind) (exc : Value) :
    Keeps linksKept (leaveWithException kind exc) := by
  unfold leaveWithException
  split
  · exact linksKept_fiberEnded _
  · exact Keeps.bind (linksKept_of_readOnly readOnly_depth) fun _ => by split <;> exact linksKept_setMode _

theorem linksKept_leaveContext (err : Fatal) : Keeps linksKept (failContext.leaveContext err) := by
  unfold failContext.leaveContext
  refine Keeps.bind (linksKept_of_readOnly readOnly_currentContext) fun c => ?_
  split
  · refine Keeps.bind (linksKept_modifyCurrent_of fun _ => rfl) fun _ => ?_
    exact Keeps.bind (linksKept_switch _) fun _ => linksKept_setMode _
  · exact linksKept_setMode _

end Links

section Unwinding

theorem envsSound_of_readOnly {α : Type} {x : MachineM α} (hx : ReadOnly x) : Keeps envsSound x :=
  hx.keeps _

theorem envsSound_returnFrom (v : Value) : Keeps envsSound (returnFrom v) := by
  unfold returnFrom
  refine Keeps.bind (envsSound_of_readOnly readOnly_topFrame) fun f => ?_
  refine Keeps.bind envsSound_popFrame fun _ => ?_
  split
  · exact Keeps.envsSound_of_linksKept (linksKept_leaveWithValue _ _)
  · refine Keeps.bind (envsSound_of_readOnly readOnly_topFrame) fun _ => ?_
    exact Keeps.envsSound_of_linksKept (Keeps.bind (linksKept_setSlot _ _) fun _ => linksKept_setMode _)

theorem envsSound_unwind_go (exc : Value) (brk : Option (BreakKind × Nat × Value)) (fuel : Nat)
    (acc : Int) : Keeps envsSound (unwind.go exc brk fuel acc) := by
  induction fuel generalizing acc with
  | zero => exact envsSound_of_readOnly readOnly_runtimeFault
  | succ fuel ih =>
    simp only [unwind.go]
    repeat' first
      | with_reducible apply Keeps.pure _
      | with_reducible apply ih _
      | with_reducible apply envsSound_popFrame
      | with_reducible apply envsSound_returnFrom _
      | with_reducible apply envsSound_of_readOnly readOnly_topFrame
      | with_reducible apply envsSound_of_readOnly (readOnly_findHandler _ _)
      | with_reducible apply envsSound_of_readOnly (readOnly_findBreakHandler _)
      | with_reducible apply Keeps.envsSound_of_linksKept (linksKept_setSlot _ _)
      | with_reducible apply Keeps.envsSound_of_linksKept (linksKept_setExc _)
      | with_reducible apply Keeps.envsSound_of_linksKept (linksKept_setMode _)
      | with_reducible exact Keeps.envsSound_of_linksKept (linksKept_modifyTop fun _ => rfl)
      | with_reducible apply Keeps.envsSound_of_linksKept (linksKept_leaveWithException _ _)
      | with_reducible refine Keeps.bind ?_ fun _ => ?_
      | split

theorem envsSound_unwind (exc : Value) : Keeps envsSound (unwind exc) := by
  unfold unwind
  refine Keeps.bind (Keeps.envsSound_of_linksKept (linksKept_noteBacktrace exc)) fun _ => ?_
  refine Keeps.bind (envsSound_of_readOnly (readOnly_breakOf? exc)) fun brk => ?_
  exact Keeps.bind (envsSound_of_readOnly readOnly_depth) fun _ => envsSound_unwind_go _ _ _ _

theorem envsSound_nativeRaise (exc : Value) : Keeps envsSound (nativeRaise exc) := by
  unfold nativeRaise
  refine Keeps.bind (envsSound_of_readOnly readOnly_topFrame) fun f => ?_
  split
  · exact envsSound_unwind exc
  · refine Keeps.bind (Keeps.envsSound_of_linksKept (linksKept_noteBacktrace exc)) fun _ => ?_
    exact Keeps.bind envsSound_popFrame fun _ =>
      Keeps.envsSound_of_linksKept (linksKept_leaveWithException _ _)

theorem envsSound_unwindTo (n : Nat) : Keeps envsSound (unwindTo n) :=
  Keeps.unwindTo envsSound_popFrame n

theorem envsSound_failContext (err : Fatal) : Keeps envsSound (failContext err) := by
  unfold failContext
  refine Keeps.bind (envsSound_of_readOnly readOnly_currentContext) fun c => ?_
  -- built-in methods entered from outside are unwound, then the context ends
  have ending : Keeps envsSound (do
      modifyCurrent fun c => { c with status := .terminated }
      failContext.leaveContext err) := Keeps.envsSound_of_linksKept
    (Keeps.bind (linksKept_modifyCurrent_of fun _ => rfl) fun _ => linksKept_leaveContext err)
  dsimp only
  split
  · exact Keeps.bind (envsSound_unwindTo _) fun _ => ending
  · exact ending

theorem linksKept_fault (f : Fault) : Keeps linksKept (fault f) := by
  unfold fault
  refine Keeps.bind (linksKept_of_readOnly readOnly_currentContext) fun c => ?_
  split
  · exact Keeps.bind (linksKept_modifyCurrent_of fun _ => rfl) fun _ => linksKept_leaveContext _
  · exact linksKept_setMode _

end Unwinding

section Calls

theorem envsSound_invokeAt (base acc : Nat) (recv : Value) (meth : Method) (owner : Option ObjRef)
    (mid : Sym) (argc kwc : Nat) : Keeps envsSound (invokeAt base acc recv meth owner mid argc kwc) := by
  unfold invokeAt
  dsimp only
  repeat' first
    | with_reducible apply Keeps.pure _
    | with_reducible apply envsSound_pushFrame _ _ _ _ _ _ _ _ _
    | with_reducible apply envsSound_of_readOnly readOnly_runtimeFault
    | with_reducible apply envsSound_of_readOnly (readOnly_liftStore Store.readOnly_wellKnown)
    | with_reducible apply envsSound_of_readOnly (readOnly_slot _)
    | with_reducible apply envsSound_of_readOnly (readOnly_procOf? _)
    | with_reducible apply envsSound_of_readOnly (readOnly_procSelf _)
    | with_reducible apply envsSound_of_readOnly (readOnly_codeOf _)
    | with_reducible apply Keeps.envsSound_of_linksKept (linksKept_setSlot _ _)
    | with_reducible apply Keeps.envsSound_of_linksKept (linksKept_setMode _)
    | with_reducible apply Keeps.envsSound_of_linksKept (linksKept_startNative _ _)
    | with_reducible refine Keeps.bind ?_ fun _ => ?_
    | split

theorem envsSound_dispatch (a : Nat) (recv : Value) (cls : Option ObjRef) (mid : Sym) (argc kwc : Nat)
    (isSuper : Bool) : Keeps envsSound (dispatch a recv cls mid argc kwc isSuper) := by
  unfold dispatch
  dsimp only
  repeat' first
    | with_reducible apply Keeps.pure _
    | with_reducible apply envsSound_invokeAt _ _ _ _ _ _ _ _
    | with_reducible apply envsSound_unwind _
    | with_reducible apply envsSound_of_readOnly readOnly_topFrame
    | with_reducible apply envsSound_of_readOnly (readOnly_liftStore Store.readOnly_wellKnown)
    | with_reducible apply envsSound_of_readOnly (readOnly_liftStore (Store.readOnly_classOf _))
    | with_reducible apply Keeps.envsSound_of_linksKept (linksKept_liftStore (Store.shapesKept_resolve _ _).envs)
    | with_reducible apply Keeps.envsSound_of_linksKept (linksKept_noMethodError _ _ _)
    | with_reducible apply Keeps.envsSound_of_linksKept (linksKept_rawArgs _ _ _)
    | with_reducible apply Keeps.envsSound_of_linksKept (linksKept_placeArgs _ _ _ _ _)
    | with_reducible refine Keeps.bind ?_ fun _ => ?_
    | split

theorem envsSound_send (a : Nat) (mid : Sym) (callOperand : Nat) (withBlock : Bool) :
    Keeps envsSound (send a mid callOperand withBlock) := by
  unfold send
  dsimp only
  repeat' first
    | with_reducible apply Keeps.pure _
    | with_reducible apply envsSound_dispatch _ _ _ _ _ _ _
    | with_reducible apply envsSound_unwind _
    | with_reducible apply envsSound_of_readOnly readOnly_topFrame
    | with_reducible apply envsSound_of_readOnly (readOnly_slot _)
    | with_reducible apply envsSound_of_readOnly (readOnly_liftStore (Store.readOnly_classOf _))
    | with_reducible apply Keeps.envsSound_of_linksKept (linksKept_growStack _)
    | with_reducible apply Keeps.envsSound_of_linksKept (linksKept_setSlot _ _)
    | with_reducible apply Keeps.envsSound_of_linksKept (linksKept_checkBlock _)
    | with_reducible refine Keeps.bind ?_ fun _ => ?_
    | split

theorem envsSound_superSend (a : Nat) (callOperand : Nat) : Keeps envsSound (superSend a callOperand) := by
  unfold superSend
  dsimp only
  repeat' first
    | with_reducible apply Keeps.pure _
    | with_reducible apply envsSound_dispatch _ _ _ _ _ _ _
    | with_reducible apply envsSound_unwind _
    | with_reducible apply envsSound_of_readOnly readOnly_topFrame
    | with_reducible apply envsSound_of_readOnly (readOnly_slot _)
    | with_reducible apply envsSound_of_readOnly (readOnly_liftStore (Store.readOnly_superOf _))
    | with_reducible apply Keeps.envsSound_of_linksKept (linksKept_liftStore (Store.shapesKept_newError _ _).envs)
    | with_reducible apply Keeps.envsSound_of_linksKept (linksKept_growStack _)
    | with_reducible apply Keeps.envsSound_of_linksKept (linksKept_setSlot _ _)
    | with_reducible apply Keeps.envsSound_of_linksKept (linksKept_checkBlock _)
    | with_reducible refine Keeps.bind ?_ fun _ => ?_
    | split

theorem envsSound_callMethod (recv : Value) (meth : Method) (owner : Option ObjRef) (mid : Sym)
    (args : Array Value) (kw : Option HashTable) (blk : Value) (kind : CallKind) :
    Keeps envsSound (callMethod recv meth owner mid args kw blk kind) := by
  unfold callMethod
  repeat' first
    | with_reducible apply Keeps.pure _
    | with_reducible apply envsSound_pushFrame _ _ _ _ _ _ _ _ _
    | with_reducible apply envsSound_of_readOnly readOnly_runtimeFault
    | with_reducible apply envsSound_of_readOnly readOnly_stackTop
    | with_reducible apply envsSound_of_readOnly (readOnly_codeOf _)
    | with_reducible apply Keeps.envsSound_of_linksKept (linksKept_placeArgs _ _ _ _ _)
    | with_reducible apply Keeps.envsSound_of_linksKept (linksKept_setMode _)
    | with_reducible apply Keeps.envsSound_of_linksKept (linksKept_startNative _ _)
    | with_reducible refine Keeps.bind ?_ fun _ => ?_
    | split

theorem envsSound_callProc (p : ObjRef) (args : Array Value) (kw : Option HashTable) (blk : Value)
    (kind : CallKind) : Keeps envsSound (callProc p args kw blk kind) := by
  unfold callProc
  refine Keeps.bind (envsSound_of_readOnly (readOnly_procOf? _)) fun found => ?_
  split
  · exact Keeps.bind (envsSound_of_readOnly (readOnly_procSelf _)) fun _ =>
      envsSound_callMethod _ _ _ _ _ _ _ _
  · exact envsSound_of_readOnly readOnly_runtimeFault

theorem envsSound_funcall (recv : Value) (mid : Sym) (args : Array Value) (kw : Option HashTable)
    (blk : Value) : Keeps envsSound (funcall recv mid args kw blk) := by
  unfold funcall
  dsimp only
  repeat' first
    | with_reducible apply Keeps.pure _
    | with_reducible apply envsSound_callMethod _ _ _ _ _ _ _ _
    | with_reducible apply envsSound_callProc _ _ _ _ _
    | with_reducible apply envsSound_of_readOnly (readOnly_procOf? _)
    | with_reducible apply envsSound_of_readOnly (readOnly_liftStore Store.readOnly_wellKnown)
    | with_reducible apply envsSound_of_readOnly (readOnly_liftStore (Store.readOnly_classOf _))
    | with_reducible apply Keeps.envsSound_of_linksKept (linksKept_liftStore (Store.shapesKept_resolve _ _).envs)
    | with_reducible apply Keeps.envsSound_of_linksKept (linksKept_noMethodError _ _ _)
    | with_reducible apply Keeps.envsSound_of_linksKept (linksKept_throwToCaller _)
    | with_reducible refine Keeps.bind ?_ fun _ => ?_
    | split

theorem envsSound_request (req : Request) : Keeps envsSound (request req) := by
  unfold request
  split
  · exact envsSound_funcall _ _ _ _ _
  · exact envsSound_callProc _ _ _ _ _

end Calls

section Instructions

theorem linksKept_modifyStore {g : Machine → Store} (heap : ∀ m, (g m).heap = m.store.heap) :
    Keeps linksKept (modify fun m => { m with store := g m } : MachineM Unit) := fun m =>
  ⟨fun r => by simp [Store.sharing, Store.envAt, endState, heap], fun _ _ => rfl⟩

theorem linksKept_regRange (f : Frame) (lo hi : Nat) : Keeps linksKept (regRange f lo hi) :=
  linksKept_of_readOnly (readOnly_slots _ _)

theorem envsSound_next : Keeps envsSound (setMode .run) :=
  Keeps.envsSound_of_linksKept (linksKept_setMode _)

theorem envsSound_raiseBreak (kind : BreakKind) (target : Nat) (v : Value) :
    Keeps envsSound (raiseBreak kind target v) :=
  Keeps.bind (Keeps.envsSound_of_linksKept (linksKept_liftStore (Store.envsKept_alloc rfl)))
    fun b => envsSound_unwind (.obj b)

theorem envsSound_enterParams (f : Frame) (body : Procedure) :
    Keeps envsSound (enterParams f body) := by
  unfold enterParams
  refine Keeps.bind (Keeps.envsSound_of_linksKept (linksKept_gatherArgs _ _)) fun gathered => ?_
  obtain ⟨args, kw, blk, strict⟩ := gathered
  dsimp only
  split
  · exact Keeps.bind (Keeps.envsSound_of_linksKept (linksKept_newErr _ _)) envsSound_unwind
  · refine Keeps.bind (envsSound_of_readOnly (readOnly_splitArgs _ _)) fun parts => ?_
    obtain ⟨req, opt, rest, post⟩ := parts
    exact Keeps.bind (Keeps.envsSound_of_linksKept (linksKept_layParams _ _ _ _ _ _ _ _))
      fun _ => envsSound_next

theorem envsSound_classDef (f : Frame) (a : Nat) (name : Sym) (isModule : Bool) :
    Keeps envsSound (classDef f a name isModule) := by
  unfold classDef
  dsimp only
  repeat' (first
    | with_reducible apply envsSound_next
    | with_reducible apply envsSound_unwind _
    | with_reducible apply Keeps.pure _
    | with_reducible apply Keeps.get
    | with_reducible apply envsSound_of_readOnly (readOnly_slot _)
    | with_reducible apply envsSound_of_readOnly (readOnly_targetClass _)
    | with_reducible apply envsSound_of_readOnly (readOnly_liftStore (Store.readOnly_classOf? _))
    | with_reducible apply Keeps.envsSound_of_linksKept (linksKept_liftStore (Store.shapesKept_defineModule _ _).envs)
    | with_reducible apply Keeps.envsSound_of_linksKept (linksKept_liftStore (Store.shapesKept_defineClass _ _ _).envs)
    | with_reducible apply Keeps.envsSound_of_linksKept (linksKept_newErr _ _)
    | with_reducible apply Keeps.envsSound_of_linksKept (linksKept_inspectValue _)
    | with_reducible apply Keeps.envsSound_of_linksKept (linksKept_setSlot _ _)
    | with_reducible apply Keeps.bind
    | with_reducible intro _
    | split)

theorem envsSound_execBody (f : Frame) (a : Nat) (body : Procedure) :
    Keeps envsSound (execBody f a body) := by
  unfold execBody
  dsimp only
  repeat' (first
    | with_reducible apply Keeps.envsSound_of_linksKept (linksKept_setMode _)
    | with_reducible apply envsSound_pushFrame _ _ _ _ _ _ _ _ _
    | with_reducible apply Keeps.pure _
    | with_reducible apply envsSound_of_readOnly (readOnly_slot _)
    | with_reducible apply envsSound_of_readOnly (readOnly_targetClass _)
    | with_reducible apply envsSound_of_readOnly (readOnly_liftStore (Store.readOnly_classOf? _))
    | with_reducible apply envsSound_of_readOnly (readOnly_liftStore Store.readOnly_wellKnown)
    | with_reducible exact Keeps.envsSound_of_linksKept (linksKept_liftStore (Store.envsKept_alloc rfl))
    | with_reducible apply Keeps.envsSound_of_linksKept (linksKept_growStack _)
    | with_reducible apply Keeps.envsSound_of_linksKept (linksKept_setSlot _ _)
    | with_reducible apply Keeps.bind
    | with_reducible intro _
    | split)

theorem envsSound_arithStep (f : Frame) (op : ArithOp) (a : Nat) (y : Value) (imm : Option Value) :
    Keeps envsSound (arithStep f op a y imm) := by
  unfold arithStep
  repeat' (first
    | with_reducible apply envsSound_next
    | with_reducible apply envsSound_unwind _
    | with_reducible apply envsSound_send _ _ _ _
    | with_reducible apply Keeps.pure _
    | with_reducible apply envsSound_of_readOnly (readOnly_reg _ _)
    | with_reducible apply envsSound_of_readOnly (readOnly_opSym _)
    | with_reducible apply Keeps.envsSound_of_linksKept (linksKept_newErr _ _)
    | with_reducible apply Keeps.envsSound_of_linksKept (linksKept_setReg _ _ _)
    | with_reducible apply Keeps.bind
    | with_reducible intro _
    | split)

theorem envsSound_instruction (op : Opcode) (a b c : Nat) (f : Frame) (body : Procedure) :
    Keeps envsSound (instruction op a b c f body) := by
  unfold instruction
  dsimp only
  refine Keeps.bind (envsSound_of_readOnly (readOnly_liftStore Store.readOnly_wellKnown)) fun core => ?_
  cases op
  all_goals dsimp only
  all_goals repeat' (first
    | with_reducible apply Keeps.bind
    | with_reducible intro _
    | split
    | with_reducible refine Keeps.envsSound_of_linksKept (linksKept_liftStore ?_)
    | with_reducible apply envsSound_next
    | with_reducible apply envsSound_unwind _
    | with_reducible apply envsSound_returnFrom _
    | with_reducible apply envsSound_send _ _ _ _
    | with_reducible apply envsSound_superSend _ _
    | with_reducible apply envsSound_enterParams _ _
    | with_reducible apply envsSound_raiseBreak _ _ _
    | with_reducible apply envsSound_arithStep _ _ _ _ _
    | with_reducible apply envsSound_classDef _ _ _ _
    | with_reducible apply envsSound_execBody _ _ _
    | with_reducible apply envsSound_ensureEnv
    | with_reducible apply Keeps.pure _
    | with_reducible apply Keeps.get
    | with_reducible apply envsSound_of_readOnly (readOnly_reg _ _)
    | with_reducible apply envsSound_of_readOnly (readOnly_symAt _ _)
    | with_reducible apply envsSound_of_readOnly (readOnly_childAt _ _)
    | with_reducible apply envsSound_of_readOnly (readOnly_constLookup _ _)
    | with_reducible apply envsSound_of_readOnly (readOnly_targetClass _)
    | with_reducible apply envsSound_of_readOnly (readOnly_upvarEnv _ _)
    | with_reducible apply envsSound_of_readOnly (readOnly_envGet _ _)
    | with_reducible apply envsSound_of_readOnly readOnly_currentContext
    | with_reducible apply envsSound_of_readOnly (readOnly_kdict _ _)
    | with_reducible apply envsSound_of_readOnly (readOnly_frameProc _)
    | with_reducible apply envsSound_of_readOnly (readOnly_procOf? _)
    | with_reducible apply envsSound_of_readOnly readOnly_runtimeFault
    | with_reducible apply Keeps.envsSound_of_linksKept (linksKept_literalAt _ _)
    | with_reducible apply Keeps.envsSound_of_linksKept (linksKept_ivarSet _ _ _)
    | with_reducible apply Keeps.envsSound_of_linksKept (linksKept_newProc _ _ _ _ _)
    | with_reducible apply Keeps.envsSound_of_linksKept (linksKept_breakTarget _)
    | with_reducible apply Keeps.envsSound_of_linksKept (linksKept_returnTarget _)
    | with_reducible apply Keeps.envsSound_of_linksKept (linksKept_newErr _ _)
    | with_reducible apply Keeps.envsSound_of_linksKept (linksKept_inspectValue _)
    | with_reducible apply Keeps.envsSound_of_linksKept (linksKept_regRange _ _ _)
    | with_reducible exact Keeps.envsSound_of_linksKept (linksKept_modifyStore fun _ => rfl)
    | with_reducible apply Keeps.envsSound_of_linksKept (linksKept_setReg _ _ _)
    | with_reducible apply Keeps.envsSound_of_linksKept (linksKept_setExc _)
    | with_reducible apply Keeps.envsSound_of_linksKept (linksKept_envSet _ _ _)
    | with_reducible exact Keeps.envsSound_of_linksKept (linksKept_modifyTop fun _ => rfl)
    | with_reducible apply Keeps.forIn_range
    | with_reducible apply Store.readOnly_wellKnown.keeps _
    | with_reducible apply (Store.readOnly_ivarGet _ _).keeps _
    | with_reducible apply (Store.readOnly_classOf? _).keeps _
    | with_reducible apply (Store.readOnly_constGet _ _).keeps _
    | with_reducible apply (Store.readOnly_className _).keeps _
    | with_reducible apply (Store.readOnly_valueIsKindOf _ _).keeps _
    | with_reducible apply (Store.readOnly_getObj _).keeps _
    | with_reducible apply (Store.readOnly_tableGet _ _).keeps _
    | with_reducible apply (Store.readOnly_tableDelete _ _).keeps _
    | with_reducible apply (Store.readOnly_tableSet _ _ _).keeps _
    | with_reducible apply (Store.readOnly_arrayOf? _).keeps _
    | with_reducible apply (Store.readOnly_realClassName _).keeps _
    | with_reducible apply (Store.shapesKept_constSet _ _ _).envs
    | with_reducible apply (Store.shapesKept_newArray _).envs
    | with_reducible apply (Store.shapesKept_newHash _).envs
    | with_reducible apply (Store.shapesKept_newRange _ _ _).envs
    | with_reducible apply (Store.shapesKept_frozenError _).envs
    | with_reducible exact Store.envsKept_alloc rfl
    | with_reducible apply (Store.shapesKept_defineRaw _ _ _).envs
    | with_reducible apply (Store.shapesKept_aliasMethod _ _ _).envs
    | with_reducible apply (Store.shapesKept_resolve _ _).envs
    | with_reducible apply (Store.shapesKept_singletonClassOf _).envs
    | with_reducible exact Store.envsKept_modifyObj _ fun o => by split <;> simp_all [Obj.env?])

end Instructions

section Steps

theorem rel_set_bind {σ ε β : Type} {o : StateOrder σ} {s t : σ} {f : PUnit → EStateM ε σ β}
    (first : o.rel s t) (hf : Keeps o (f ⟨⟩)) : o.rel s (endState ((set t >>= f).run s)) := by
  rw [EStateM.run_bind, EStateM.run_set]
  exact o.trans first (hf t)

theorem linksKept_setSteps (m : Machine) (n : Nat) : linksKept.rel m { m with steps := n } :=
  ⟨fun _ => rfl, fun _ _ => rfl⟩

theorem envsSound_execute : Keeps envsSound execute := by
  unfold execute
  refine Keeps.bind (envsSound_of_readOnly readOnly_topFrame) fun f => ?_
  split
  · exact envsSound_of_readOnly readOnly_runtimeFault
  · refine Keeps.bind_run Keeps.get fun s m t got => ?_
    cases got
    refine rel_set_bind (envsSound_of_linksKept (linksKept_setSteps s (s.steps + 1))) ?_
    dsimp only
    repeat' (first
      | with_reducible apply Keeps.bind
      | with_reducible intro _
      | split
      | with_reducible apply Keeps.envsSound_of_linksKept (linksKept_setMode _)
      | with_reducible apply envsSound_instruction _ _ _ _ _ _
      | with_reducible apply envsSound_of_readOnly (readOnly_panic _)
      | with_reducible exact envsSound_of_readOnly (Keeps.bind Keeps.get fun _ => Keeps.pure _)
      | with_reducible apply Keeps.throw _
      | with_reducible apply Keeps.pure _
      | with_reducible apply Keeps.get
      | with_reducible exact Keeps.envsSound_of_linksKept (linksKept_modifyTop fun _ => rfl))

theorem envsSound_resumeFiber (r : ObjRef) (args : Array Value) : Keeps envsSound (resumeFiber r args) := by
  unfold resumeFiber
  refine Keeps.bind (envsSound_of_readOnly (readOnly_fiberData _)) fun fd => ?_
  refine Keeps.bind (envsSound_of_readOnly (readOnly_context _)) fun c => ?_
  have raise : ∀ msg, Keeps envsSound (do nativeRaise (← newErr (·.fiberError) msg)) := fun _ =>
    Keeps.bind (Keeps.envsSound_of_linksKept (linksKept_newErr _ _)) envsSound_nativeRaise
  dsimp only
  split
  · exact raise _
  · split
    · exact raise _
    · refine Keeps.bind (Keeps.envsSound_of_linksKept (linksKept_of_readOnly readOnly_currentIndex)) fun cur => ?_
      refine Keeps.bind (envsSound_of_readOnly (readOnly_context _)) fun _ => ?_
      refine Keeps.bind (Keeps.envsSound_of_linksKept (linksKept_modifyContext _ fun _ _ => rfl)) fun _ => ?_
      refine Keeps.bind (Keeps.envsSound_of_linksKept (linksKept_switch _)) fun _ => ?_
      split
      · exact Keeps.bind (Keeps.envsSound_of_linksKept (linksKept_packValues _)) fun _ =>
          Keeps.envsSound_of_linksKept (linksKept_setMode _)
      · -- the fiber object stays a fiber object, holding no environment
        refine Keeps.bind (Keeps.envsSound_of_linksKept (linksKept_liftStore
          (Store.envsKept_modifyObj _ fun o => by split <;> simp_all [Obj.env?]))) fun _ => ?_
        exact envsSound_callProc _ _ _ _ _

theorem linksKept_suspendFiber (vals : Array Value) : Keeps linksKept (suspendFiber vals) := by
  unfold suspendFiber
  refine Keeps.bind (linksKept_of_readOnly readOnly_currentContext) fun c => ?_
  split
  · exact linksKept_of_readOnly readOnly_runtimeFault
  · refine Keeps.bind (linksKept_modifyCurrent_of fun _ => rfl) fun _ => ?_
    refine Keeps.bind (linksKept_switch _) fun _ => ?_
    exact Keeps.bind (linksKept_packValues _) fun _ => linksKept_setMode _

theorem linksKept_pushContext (m : Machine) (c : Context) (empty : c.frames = #[]) :
    linksKept.rel m { m with contexts := m.contexts.push c } := by
  refine ⟨fun _ => rfl, fun ci j => ?_⟩
  simp only [linkAt, frameAt, Array.getElem?_push]
  split
  · next fresh => simp [empty, fresh]
  · rfl

theorem linksKept_spawnFiber (p : ObjRef) (cls : Option ObjRef) : Keeps linksKept (spawnFiber p cls) := by
  unfold spawnFiber
  refine Keeps.bind_run Keeps.get fun s m t got => ?_
  cases got
  exact rel_set_bind (linksKept_pushContext s { stack := Array.replicate s.limits.stackSize .nil } rfl)
    (Keeps.bind (linksKept_liftStore (Store.envsKept_alloc rfl)) fun r =>
      Keeps.bind (linksKept_modifyContext _ fun _ _ => rfl) fun _ => Keeps.pure _)

theorem envsSound_applyNative (step : NativeStep) : Keeps envsSound (applyNative step) := by
  cases step with
  | done v => exact envsSound_returnFrom v
  | raise exc => exact envsSound_nativeRaise exc
  | call req task =>
    exact Keeps.bind (Keeps.envsSound_of_linksKept (linksKept_setTask task)) fun _ => envsSound_request req
  | resume fiber args =>
    exact Keeps.bind (Keeps.envsSound_of_linksKept (linksKept_setTask .pass)) fun _ =>
      envsSound_resumeFiber fiber args
  | suspend vals =>
    exact Keeps.envsSound_of_linksKept (Keeps.bind (linksKept_setTask .pass) fun _ =>
      linksKept_suspendFiber vals)
  | spawn p cls =>
    exact Keeps.bind (Keeps.envsSound_of_linksKept (linksKept_spawnFiber p cls)) envsSound_returnFrom
  | turn task =>
    exact Keeps.envsSound_of_linksKept (Keeps.bind (linksKept_setTask task) fun _ => linksKept_setMode _)

theorem envsSound_runNative {x : NativeM NativeStep} (hx : Native.Preserves Store.envsKept x) :
    Keeps envsSound (runNative x) := by
  unfold runNative
  refine Keeps.bind Keeps.get fun m => ?_
  refine Keeps.bind (Keeps.envsSound_of_linksKept (linksKept_liftStore (hx m))) fun answer => ?_
  split
  · exact envsSound_applyNative _
  · exact envsSound_nativeRaise _

theorem envsSound_step : Keeps envsSound step := by
  unfold step
  refine Keeps.bind Keeps.get fun m => ?_
  split
  · exact envsSound_execute
  · exact envsSound_runNative (Native.preserves_start _ _).envs
  · refine Keeps.bind (envsSound_of_readOnly readOnly_topFrame) fun f => ?_
    split
    · exact envsSound_runNative (Native.preserves_resume _ _).envs
    · exact envsSound_of_readOnly readOnly_runtimeFault
  · exact envsSound_nativeRaise _
  · exact envsSound_failContext _
  · exact Keeps.pure _

theorem envsSound_advance (m : Machine) : envsSound.rel m (advance m) := by
  have stepped := envsSound_step m
  unfold advance
  cases run : step.run m with
  | ok _ m₁ => rw [run] at stepped; exact stepped
  | error f m₁ =>
    rw [run] at stepped
    have faulted := Keeps.envsSound_of_linksKept (linksKept_fault f) m₁
    dsimp only
    cases ended : (fault f).run m₁ with
    | ok _ m₂ => rw [ended] at faulted; exact envsSound.trans stepped faulted
    | error _ m₂ =>
      rw [ended] at faulted
      exact envsSound.trans stepped (envsSound.trans faulted
        (envsSound_of_linksKept ⟨fun _ => rfl, fun _ _ => rfl⟩))

theorem envsSound_runFor (fuel : Nat) (m : Machine) : envsSound.rel m (runFor fuel m) := by
  induction fuel generalizing m with
  | zero => exact envsSound.refl m
  | succ fuel ih =>
    rw [runFor]
    split
    · exact envsSound.refl m
    · exact envsSound.trans (envsSound_advance m) (ih _)

end Steps

section Host

theorem linksKept_of_frames {m m' : Machine} (heap : m'.store.heap = m.store.heap)
    (frames : ∀ ci : Nat, m'.contexts[ci]?.map Context.frames = m.contexts[ci]?.map Context.frames) :
    linksKept.rel m m' := by
  refine ⟨fun r => by simp only [Store.sharing, Store.envAt, heap], fun ci j => ?_⟩
  have same := frames ci
  simp only [linkAt, frameAt]
  cases h' : m'.contexts[ci]? <;> cases h : m.contexts[ci]? <;> simp_all

theorem linksKept_setStatus (m : Machine) (ci : Nat) (st : Status) (h : HostContext) :
    linksKept.rel m { m with contexts := m.contexts.modify ci fun c => { c with status := st, host := h } } :=
  linksKept_of_frames rfl fun j => by
    simp only [Array.getElem?_modify]
    split <;> cases m.contexts[j]? <;> rfl

theorem linksKept_enterRunning (m : Machine) (ci : Nat) (h : HostContext) : linksKept.rel m
    { m with contexts := m.contexts.modify ci fun c => { c with status := .running, host := h }, mode := .run } :=
  linksKept.trans (linksKept_setStatus m ci .running h) ⟨fun _ => rfl, fun _ _ => rfl⟩

theorem linksKept_prepareEntry : Keeps linksKept prepareEntry := by
  unfold prepareEntry
  refine Keeps.bind (linksKept_of_readOnly readOnly_currentContext) fun c => ?_
  split
  · exact Keeps.pure _
  · refine Keeps.bind_run Keeps.get fun s m t got => ?_
    cases got
    split
    · exact linksKept.refl _
    · exact rel_set_bind (linksKept.trans (linksKept_pushContext s (freshContext s.limits) rfl)
        ⟨fun _ => rfl, fun _ _ => rfl⟩) (Keeps.pure _)

theorem linksKept_escaped (exc : Value) : Keeps linksKept (escaped exc) := by
  unfold escaped
  repeat' (first
    | with_reducible apply Keeps.pure _
    | with_reducible apply linksKept_of_readOnly (readOnly_breakOf? _)
    | with_reducible apply linksKept_liftStore (Store.shapesKept_newError _ _).envs
    | with_reducible apply linksKept_liftStore ((Store.readOnly_realClassName _).keeps _)
    | with_reducible apply linksKept_liftStore ((Store.readOnly_exceptionMessage _).keeps _)
    | with_reducible apply linksKept_liftStore ((Store.readOnly_getObj _).keeps _)
    | with_reducible apply Keeps.bind
    | with_reducible intro _
    | split)

theorem envsSound_hostCall {start : MachineM Unit} (call : HostCall start) : Keeps envsSound start := by
  cases call with
  | runTop body =>
    unfold runTop
    refine Keeps.bind (envsSound_of_readOnly (readOnly_liftStore Store.readOnly_wellKnown)) fun _ => ?_
    refine Keeps.bind (Keeps.envsSound_of_linksKept (linksKept_liftStore (Store.envsKept_alloc rfl)))
      fun _ => ?_
    exact envsSound_callMethod _ _ _ _ _ _ _ _
  | send recv name args =>
    unfold hostSend
    exact Keeps.bind (Keeps.envsSound_of_linksKept (linksKept_liftStore (Store.shapesKept_intern _).envs))
      fun _ => envsSound_funcall _ _ _ _ _
  | callProc p args => exact envsSound_callProc _ _ _ _ _

theorem envsSound_started {start : MachineM Unit} (call : HostCall start) (x : Machine) :
    envsSound.rel x (match start.run x with
      | .ok () m => m
      | .error f m =>
        match (fault f).run m with
        | .ok () m => m
        | .error f m => { m with mode := .halted (.fault f) }) := by
  have ran := envsSound_hostCall call x
  cases hrun : start.run x with
  | ok _ m₁ => rw [hrun] at ran; exact ran
  | error f m₁ =>
    rw [hrun] at ran
    have faulted := Keeps.envsSound_of_linksKept (linksKept_fault f) m₁
    dsimp only
    cases hf : (fault f).run m₁ with
    | ok _ m₂ => rw [hf] at faulted; exact envsSound.trans ran faulted
    | error _ m₂ =>
      rw [hf] at faulted
      exact envsSound.trans ran (envsSound.trans faulted
        (envsSound_of_linksKept ⟨fun _ => rfl, fun _ _ => rfl⟩))

theorem envsSound_enter {m m' : Machine} {ctx : HostContext} {start : MachineM Unit}
    {r : Except HostError Value} (call : HostCall start) (ran : enter ctx start m = (r, m')) :
    envsSound.rel m m' := by
  have cleared : linksKept.rel m { m with store := { m.store with out := "" } } :=
    ⟨fun _ => rfl, fun _ _ => rfl⟩
  have prepared := linksKept_prepareEntry { m with store := { m.store with out := "" } }
  unfold enter at ran
  dsimp only at ran
  split at ran
  · next f m₁ run =>
    cases ran
    rw [run] at prepared
    exact envsSound_of_linksKept (linksKept.trans cleared prepared)
  · next err m₁ run =>
    cases ran
    rw [run] at prepared
    exact envsSound_of_linksKept (linksKept.trans cleared prepared)
  · next m₁ run =>
    rw [run] at prepared
    have entered := envsSound_of_linksKept (linksKept.trans cleared prepared)
    split at ran
    · cases ran; exact entered
    · -- the call starts from the entered context, with the step counter restarted or not
      generalize hS : (if ((m₁.contexts.getD m₁.current default).status != Status.running) = true then
        { m₁ with steps := 0 } else m₁) = mS at ran
      have counted : linksKept.rel m₁ mS := by
        rw [← hS]
        split
        · exact ⟨fun _ => rfl, fun _ _ => rfl⟩
        · exact linksKept.refl _
      -- the run, from the context marked running
      generalize hU : runFor stepBudget _ = mU at ran
      have ranRel : envsSound.rel _ mU := hU ▸ envsSound.trans (envsSound_started call _)
        (envsSound_runFor stepBudget _)
      have upTo : envsSound.rel m mU := envsSound.trans entered (envsSound.trans
        (envsSound_of_linksKept counted) (envsSound.trans
          (envsSound_of_linksKept (linksKept_enterRunning mS m₁.current ctx)) ranRel))
      -- the context gets its former status back, unless the call ended it
      generalize hV : (if ((mU.contexts.getD m₁.current default).status != Status.terminated) = true then
        { mU with contexts := mU.contexts.modify m₁.current fun c =>
          { c with
            status := (m₁.contexts.getD m₁.current default).status,
            host := (m₁.contexts.getD m₁.current default).host } } else mU) = mV at ran
      have restored : envsSound.rel m mV := by
        rw [← hV]
        split
        · exact envsSound.trans upTo (envsSound_of_linksKept (linksKept_setStatus _ _ _ _))
        · exact upTo
      -- reporting an escaped exception only reads the store and adds to it
      split at ran
      · cases ran; exact restored
      · next exc halted =>
        split at ran
        · next err m₆ escapedRun =>
          cases ran
          have reported := Keeps.envsSound_of_linksKept (linksKept_escaped exc) mV
          rw [escapedRun] at reported
          exact envsSound.trans restored reported
        · next f m₆ escapedRun =>
          cases ran
          have reported := Keeps.envsSound_of_linksKept (linksKept_escaped exc) mV
          rw [escapedRun] at reported
          exact envsSound.trans restored reported
      all_goals (cases ran; exact restored)

end Host

section Reached

def envSize (f : Frame) : Nat :=
  match f.code with
  | .compiled _ body => max body.nlocals.toNat 1
  | .native _ => 1

theorem ensureEnv_creates {m m' : Machine} {F : Frame} {E : ObjRef} (top : m.top? = some F)
    (unheld : F.env = none) (run : ensureEnv.run m = .ok E m') :
    m'.store.envAt E = some ⟨.live m.current F.serial F.base, envSize F, F.mid, F.owner⟩ := by
  unfold ensureEnv at run
  rw [EStateM.run_bind, topFrame_run, top] at run
  simp only [unheld] at run
  -- the new object is the last of the heap; the frame's link moves, the heap does not
  change EStateM.Result.ok (ObjRef.mk m.store.heap.size) _ = _ at run
  cases run
  simp only [Store.envAt, Array.getElem?_push_size, Option.bind_some, Obj.env?]
  -- the size is the same match on the frame's code as the one of envSize
  rfl

inductive Move : Machine → Machine → Prop
  | call {m : Machine} (ctx : HostContext) {start : MachineM Unit} (host : HostCall start) :
      Move m (enter ctx start m).2
  | start {m : Machine} {start : MachineM Unit} (host : HostCall start) : Move m (endState (start.run m))
  | step (m : Machine) : Move m (advance m)

theorem envsSound_move {m m' : Machine} (move : Move m m') : envsSound.rel m m' := by
  cases move with
  | call ctx host => exact envsSound_enter host (Prod.eta _).symm
  | start host => exact envsSound_hostCall host m
  | step => exact envsSound_advance m

theorem envsSound_moves {m m' : Machine} (moves : Relation.ReflTransGen Move m m') :
    envsSound.rel m m' := by
  induction moves with
  | refl => exact envsSound.refl m
  | tail _ move ih => exact envsSound.trans ih (envsSound_move move)

def booted (limits : Limits) : Machine :=
  { store := endState (Store.boot.run {}), contexts := #[freshContext limits], limits }

theorem boot_eq_booted {opts : Options} {m : Machine} (h : boot opts = .ok m) : m = booted opts.limits := by
  unfold boot at h
  unfold booted
  cases run : Store.boot.run {} with
  | ok _ st => rw [run] at h; cases h; rfl
  | error f st => rw [run] at h; cases h

theorem envsLinked_booted (limits : Limits) : EnvsLinked (booted limits) where
  shared r ci s b := by
    simp only [booted, Store.sharing, Store.envAt_boot, Option.map_none, reduceCtorEq, false_iff]
    rintro ⟨j, held⟩
    cases ci <;> simp [linkAt, frameAt, freshContext] at held
  owner {_ ci _ _ _ _ _ _ _} held _ := by
    cases ci <;> simp [linkAt, frameAt, booted, freshContext] at held

def Reached (m : Machine) : Prop := ∃ limits, Relation.ReflTransGen Move (booted limits) m

theorem reached_of_boot {opts : Options} {m : Machine} (h : boot opts = .ok m) : Reached m :=
  ⟨opts.limits, boot_eq_booted h ▸ .refl⟩

structure EnvsAlias (m : Machine) : Prop where
  shared : ∀ E ci s b, m.store.sharing E = some (some (ci, s, b)) ↔ ∃ j, m.linkAt ci j = some (s, b, some E)
  window : ∀ ci j F E, m.frameAt ci j = some F → F.env = some E → ∃ e, m.store.envAt E = some e ∧
    e.slots = .live ci F.serial F.base ∧ ∀ i < e.size,
      (envGet E i).run m = (readSlot ci (F.base + i)).run m ∧
      ∀ v, (envSet E i v).run m = (writeSlot ci (F.base + i) v).run m
  popped : ∀ F E m', m.top? = some F → F.env = some E → popFrame.run m = .ok () m' →
    ∃ e c, m.store.envAt E = some e ∧ m.contexts[m.current]? = some c ∧
      m'.store.envAt E = some { e with slots := .copied (c.stack.extract F.base (F.base + e.size)) }
  private_after : ∀ E m', m.store.sharing E = some none → Relation.ReflTransGen Move m m' →
    m'.store.sharing E = some none
  created : ∀ F E m', m.top? = some F → F.env = none → ensureEnv.run m = .ok E m' →
    m'.store.envAt E = some ⟨.live m.current F.serial F.base, envSize F, F.mid, F.owner⟩

theorem envs_alias_frames {m : Machine} (reached : Reached m) : EnvsAlias m := by
  obtain ⟨limits, moves⟩ := reached
  have linked : EnvsLinked m := (envsSound_moves moves).2 (envsLinked_booted limits)
  refine ⟨linked.shared, fun ci j F E held env => ?_, fun F E m' top env run => popFrame_copies linked run top env,
    fun E m' copied later => (envsSound_moves later).1 E copied,
    fun F E m' top unheld run => ensureEnv_creates top unheld run⟩
  have linkHeld : m.linkAt ci j = some (F.serial, F.base, some E) := by
    simp [linkAt, held, Frame.link, env]
  obtain ⟨e, found, live⟩ := linked.window linkHeld
  exact ⟨e, found, live, fun i within =>
    ⟨envGet_of_live found live within, fun v => envSet_of_live v found live within⟩⟩

-- One fetch: the step is counted, the pc moves past the operands, and the instruction runs.
theorem execute_fetch {m : Machine} {f : Frame} {p : ObjRef} {body : Procedure} {op : Opcode} {ops : Operands}
    (top : m.top? = some f) (code : f.code = .compiled p body) (unchecked : m.checkpoint (m.steps + 1) = none)
    (inside : (f.pc < 0 || f.pc ≥ body.code.size) = false)
    (opcode : Opcode.ofNat? (body.code.getD f.pc.toNat 0).toNat = some op)
    (decoded : decode body.code (f.pc.toNat + 1) op.shape = .ok ops) :
    execute.run m = (instruction op ops.a ops.b ops.c { f with pc := ops.next } body).run
      ({ m with steps := m.steps + 1 }.withPc ops.next) := by
  simp only [execute, EStateM.run_bind, topFrame_run, top, code, EStateM.run_get, EStateM.run_set, unchecked,
    inside, Bool.false_eq_true, if_false, opcode, decoded]
  rfl

-- BLOCK r1 ← child 0; RETURN r1: the block captures the frame's environment and is returned.
def capturing : Procedure :=
  { code := #[58, 1, 0, 37, 1], nregs := 2, nlocals := 1, children := #[{ code := #[71] }] }

def capturedEnv : Obj :=
  { cls := none, body := .env { slots := .live 0 0 0, size := 1, mid := Sym.none, owner := none } }

section Capturing

-- The run over any store: only objects the run itself allocates are read.
variable (st : Store)

def capturingProc : Obj :=
  { cls := some st.core.proc, body := .proc { code := .compiled capturing, target := some st.core.object } }

def capturingFrame : Frame :=
  { serial := 0, base := 0, nregs := 2, code := .compiled ⟨st.heap.size⟩ capturing, argc := 0, kwc := 0,
    kind := .host, mid := Sym.none, owner := none, acc := -1, blk := .nil }

def capturingBlock : Obj :=
  { cls := some st.core.proc,
    body := .proc { code := .compiled { code := #[71] }, upper := some ⟨st.heap.size⟩,
                    env := some ⟨st.heap.size + 1⟩, target := some st.core.object } }

def capturedCopy (o : Obj) : Obj :=
  { o with body := .env { slots := .copied #[.obj st.core.main], size := 1, mid := Sym.none, owner := none } }

def capturingStarted : Machine :=
  { store := { st with heap := st.heap.push (capturingProc st) },
    contexts := #[{ stack := ((Array.replicate 4 .nil).setIfInBounds 0 (.obj st.core.main)).setIfInBounds 1 .nil,
                    frames := #[capturingFrame st] }],
    serial := 1, limits := { stackSize := 4 } }

def capturingBlocked : Machine :=
  { store := { st with heap := ((st.heap.push (capturingProc st)).push capturedEnv).push (capturingBlock st) },
    contexts := #[{ stack := (((Array.replicate 4 .nil).setIfInBounds 0 (.obj st.core.main)).setIfInBounds 1 .nil).setIfInBounds
                      1 (.obj ⟨st.heap.size + 2⟩),
                    frames := #[{ capturingFrame st with pc := 3, env := some ⟨st.heap.size + 1⟩ }] }],
    steps := 1, serial := 1, limits := { stackSize := 4 } }

def capturingReturned : Machine :=
  { store := { st with heap := (((st.heap.push (capturingProc st)).push capturedEnv).push
                 (capturingBlock st)).modify (st.heap.size + 1) (capturedCopy st) },
    contexts := #[{ stack := (((Array.replicate 4 .nil).setIfInBounds 0 (.obj st.core.main)).setIfInBounds 1 .nil).setIfInBounds
                      1 (.obj ⟨st.heap.size + 2⟩),
                    frames := #[] }],
    steps := 2, serial := 1, limits := { stackSize := 4 }, mode := .halted (.value (.obj ⟨st.heap.size + 2⟩)) }

theorem capturing_starts : (runTop capturing).run
    { store := st, contexts := #[freshContext { stackSize := 4 }], limits := { stackSize := 4 } } =
      .ok () (capturingStarted st) := by
  -- the proc object is the last of the heap, so its code is read back without the rest of the store
  simp only [runTop, callMethod, EStateM.run_bind, liftStore_run, wellKnown_run_store, Store.alloc_run,
    stackTop, currentContext_run, codeOf, procOf?, Store.procOf?, Store.getObj_run, Array.getElem?_push_size,
    freshContext, placeArgs, growStack, setSlot_run, modifyCurrent_run, packedArgs, stack, updCurrent, withSlot,
    pushFrame, nextSerial, EStateM.run_pure, EStateM.run_get, Array.getElem?_modify, List.getElem?_toArray,
    List.getElem?_cons_zero, Option.map_some, Option.getD_some, Array.size_replicate,
    Array.set!_eq_setIfInBounds, Array.size_setIfInBounds, Array.back?, Array.size_empty, List.getElem?_nil,
    Option.map_none, Option.getD_none, if_true, Nat.add_zero, Nat.mul_zero, Nat.zero_add,
    List.forIn_toArray, List.forIn_nil, Nat.reduceLeDiff, Nat.reduceLT, ge_iff_le, reduceIte, pure_bind]
  rfl

theorem capturing_blocks : advance (capturingStarted st) = capturingBlocked st := by
  have child : capturing.children[0]? = some { code := #[71] } := rfl
  have strict : (Opcode.block == Opcode.lambda) = false := rfl
  -- BLOCK r1 ← child 0 at pc 0
  have fetched := @execute_fetch (capturingStarted st) (capturingFrame st) _ _ .block ⟨1, 0, 0, 3⟩
    rfl rfl rfl rfl rfl rfl
  have stepped : step.run (capturingStarted st) = execute.run (capturingStarted st) := rfl
  unfold advance
  rw [stepped, fetched]
  -- the target class and the upper proc are read from the proc object pushed at the start
  simp only [withPc, updCurrent, capturingStarted, instruction, liftStore_run, wellKnown_run_store,
    ensureEnv, EStateM.run_bind, topFrame_run, top?, frames, EStateM.run_get, currentIndex, EStateM.run_pure,
    Store.alloc_run, childAt, child, targetClass, procOf?, Store.procOf?, Store.getObj_run, Array.getElem?_push,
    Array.size_push, newProc, Frame.proc?, setReg, setMode_run, modifyTop, modifyCurrent_run, if_true,
    List.getElem?_toArray, List.getElem?_cons_zero, Option.map_some, Option.getD_some, List.back?_toArray,
    List.getLast?_singleton, List.modify_toArray, List.modify_zero_cons, List.size_toArray, List.length_cons,
    List.length_nil, Nat.sub_self, Nat.zero_add, Nat.left_eq_add, Nat.one_ne_zero, capturingFrame,
    capturingProc, strict, Option.bind_some, if_false]
  rfl

theorem capturing_returns : advance (capturingBlocked st) = capturingReturned st := by
  have inside : st.heap.size + 1 < st.heap.size + 1 + 1 + 1 := by omega
  -- RETURN r1 at pc 3
  have fetched := @execute_fetch (capturingBlocked st) { capturingFrame st with pc := 3, env := some ⟨st.heap.size + 1⟩ }
    _ _ .ret ⟨1, 0, 0, 5⟩ rfl rfl rfl rfl rfl rfl
  have stepped : step.run (capturingBlocked st) = execute.run (capturingBlocked st) := rfl
  unfold advance
  rw [stepped, fetched]
  -- popping the frame copies the one register the environment covers
  simp only [withPc, updCurrent, capturingBlocked, instruction, liftStore_run, wellKnown_run_store, EStateM.run_bind,
    EStateM.run_pure, returnFrom, reg, slot, readSlot, context_run, currentIndex, EStateM.run_get, topFrame_run, top?,
    frames, popFrame, currentContext_run, unshareEnv, envData, Store.getObj_run, Array.getElem?_push,
    Array.size_push, capturedEnv, Store.modifyObj_run, procOf?, Store.procOf?, leaveWithValue, depth,
    CallKind.isBoundary, modifyCurrent_run, if_true, if_false, List.getElem?_toArray, List.getElem?_cons_zero,
    Option.map_some, Option.getD_some, List.back?_toArray, List.getLast?_singleton, List.modify_toArray,
    List.modify_zero_cons, List.size_toArray, List.length_cons, List.length_nil, Nat.sub_self, Nat.left_eq_add,
    Nat.one_ne_zero, Nat.reduceAdd, Nat.reduceLT, Nat.reduceLeDiff, Array.getElem?_setIfInBounds,
    Array.size_setIfInBounds, Array.size_replicate, inside, capturingFrame, ge_iff_le]
  rfl

end Capturing

def capturedAfterBoot : Machine := capturingBlocked (endState (Store.boot.run {}))

def returnedAfterBoot : Machine := capturingReturned (endState (Store.boot.run {}))

def capturedRef : ObjRef := ⟨(endState (Store.boot.run {})).heap.size + 1⟩

theorem captured_env_window_then_private :
    Reached capturedAfterBoot ∧ capturedAfterBoot.top?.bind Frame.env = some capturedRef ∧
    EnvsAlias capturedAfterBoot ∧
    Reached returnedAfterBoot ∧ returnedAfterBoot.store.sharing capturedRef = some none ∧
    EnvsAlias returnedAfterBoot := by
  -- the host call starts on the booted machine, then BLOCK and RETURN are two steps
  have startRun : (runTop capturing).run (booted { stackSize := 4 }) =
      .ok () (capturingStarted (endState (Store.boot.run {}))) := capturing_starts _
  have started : Move (booted { stackSize := 4 }) (capturingStarted (endState (Store.boot.run {}))) := by
    have start := Move.start (m := booted { stackSize := 4 }) (.runTop capturing)
    rw [startRun] at start
    exact start
  have blocked := Move.step (capturingStarted (endState (Store.boot.run {})))
  rw [capturing_blocks] at blocked
  have returned := Move.step (capturingBlocked (endState (Store.boot.run {})))
  rw [capturing_returns] at returned
  have toCaptured : Relation.ReflTransGen Move (booted { stackSize := 4 }) capturedAfterBoot :=
    .tail (.single started) blocked
  have toReturned : Relation.ReflTransGen Move (booted { stackSize := 4 }) returnedAfterBoot :=
    toCaptured.tail returned
  -- after RETURN the environment holds a copy of the register and no frame
  have copied : returnedAfterBoot.store.sharing capturedRef = some none := by
    simp only [returnedAfterBoot, capturingReturned, capturedRef, Store.sharing, Store.envAt, Array.getElem?_modify,
      Array.getElem?_push, Array.size_push, Nat.left_eq_add, Nat.one_ne_zero, if_true,
      if_false, Option.map_some, Option.bind_some, capturedCopy, Obj.env?, EnvSlots.frame?]
  exact ⟨⟨_, toCaptured⟩, rfl, envs_alias_frames ⟨_, toCaptured⟩, ⟨_, toReturned⟩, copied,
    envs_alias_frames ⟨_, toReturned⟩⟩

end Reached

end Machine

end RegisterVM
