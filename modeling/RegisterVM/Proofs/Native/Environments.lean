import RegisterVM.Proofs.Store.Environments
import RegisterVM.Proofs.Machine.Outline

set_option autoImplicit false

namespace RegisterVM

namespace Machine

def storeEnvs : StateOrder Machine where
  rel m m' := Store.envsKept.rel m.store m'.store
  refl m := Store.envsKept.refl m.store
  trans first second := Store.envsKept.trans first second

def storeShapes : StateOrder Machine where
  rel m m' := Store.shapesKept.rel m.store m'.store
  refl m := Store.shapesKept.refl m.store
  trans first second := Store.shapesKept.trans first second

theorem storeEnvs_liftStore {α : Type} {x : StoreM α} (hx : Keeps Store.envsKept x) :
    Keeps storeEnvs (liftStore x) := by
  intro m
  have kept := hx m.store
  rw [liftStore_run]
  cases run : x.run m.store with
  | ok a s => rw [run] at kept; exact kept
  | error f s => rw [run] at kept; exact kept

theorem storeShapes_liftStore {α : Type} {x : StoreM α} (hx : Keeps Store.shapesKept x) :
    Keeps storeShapes (liftStore x) := by
  intro m
  have kept := hx m.store
  rw [liftStore_run]
  cases run : x.run m.store with
  | ok a s => rw [run] at kept; exact kept
  | error f s => rw [run] at kept; exact kept

theorem Keeps.toStoreEnvs {α : Type} {x : MachineM α} (hx : Keeps storeShapes x) : Keeps storeEnvs x :=
  fun m => Store.envsKept_of_shapesKept (hx m)

theorem storeShapes_newErr (cls : Core → ObjRef) (msg : String) : Keeps storeShapes (newErr cls msg) :=
  storeShapes_liftStore (Store.shapesKept_newError cls msg)

theorem storeShapes_returnTarget (f : Frame) : Keeps storeShapes (returnTarget f) := by
  unfold returnTarget
  refine Keeps.bind ((readOnly_frameProc f).keeps _) fun d => ?_
  refine Keeps.bind Keeps.get fun _ => ?_
  refine Keeps.bind ((readOnly_climb _ _ _).keeps _) fun env => ?_
  refine Keeps.bind ((readOnly_liveEnvFrame _).keeps _) fun t => ?_
  split
  · exact Keeps.pure _
  · exact Keeps.bind (storeShapes_newErr _ _) fun _ => Keeps.pure _

theorem storeShapes_noMethodError (recv : Value) (mid : Sym) (isSuper : Bool) :
    Keeps storeShapes (noMethodError recv mid isSuper) := by
  refine storeShapes_liftStore (Keeps.bind Keeps.get fun _ => ?_)
  dsimp only
  -- the receiver is described by what it is, its class read off the heap
  split
  all_goals repeat' first
    | with_reducible apply Keeps.pure _
    | with_reducible apply Store.shapesKept_newError _ _
    | with_reducible apply (Store.readOnly_classOf? _).keeps _
    | with_reducible apply (Store.readOnly_className _).keeps _
    | with_reducible apply (Store.readOnly_realClassName _).keeps _
    | with_reducible refine Keeps.bind ?_ fun _ => ?_
    | split

theorem storeShapes_ivarSet (self : Value) (sym : Sym) (v : Value) : Keeps storeShapes (ivarSet self sym v) := by
  unfold ivarSet
  split
  · refine Keeps.bind ((readOnly_liftStore (Store.readOnly_getObj _)).keeps _) fun o => ?_
    split
    · exact Keeps.bind (storeShapes_liftStore (Store.shapesKept_frozenError _)) fun _ => Keeps.pure _
    · exact Keeps.bind (storeShapes_liftStore (Store.shapesKept_ivarSet _ _ _)) fun _ => Keeps.pure _
  · exact Keeps.bind (storeShapes_liftStore (Store.shapesKept_frozenError _)) fun _ => Keeps.pure _

end Machine

namespace Native

open Machine

def Preserves {α : Type} (o : StateOrder Store) (x : NativeM α) : Prop := ∀ m, Keeps o (x.run.run m)

theorem lift_run {α : Type} (x : MachineM α) (m : Machine) (s : Store) :
    ((lift x).run.run m).run s = match x.run { m with store := s } with
      | .ok a m' => .ok (.ok a) m'.store
      | .error f m' => .error f m'.store := by
  unfold lift
  simp only [ExceptT.lift, ExceptT.run_mk]
  show (Except.ok <$> _ : EStateM Fault Store (Except Value α)).run s = _
  simp only [Functor.map, EStateM.map, EStateM.run]
  generalize x _ = r
  cases r <;> rfl

namespace Preserves

variable {o : StateOrder Store} {α β : Type}

theorem bind {x : NativeM α} {f : α → NativeM β} (hx : Preserves o x) (hf : ∀ a, Preserves o (f a)) :
    Preserves o (x >>= f) := by
  intro m
  simp only [ExceptT.run_bind, ReaderT.run_bind]
  refine Keeps.bind (hx m) fun r => ?_
  cases r with
  | ok a => exact hf a m
  | error e => exact Keeps.pure _

theorem pure (a : α) : Preserves o (Pure.pure a : NativeM α) := fun _ => Keeps.pure _

theorem throw (e : Value) : Preserves o (MonadExcept.throw e : NativeM α) := fun _ => Keeps.pure _

theorem lift {x : MachineM α} (hx : ∀ m, o.rel m.store (endState (x.run m)).store) :
    Preserves o (Native.lift x) := by
  intro m s
  have kept := hx { m with store := s }
  simp only [lift_run]
  cases run : x.run { m with store := s } with
  | ok a m' => rw [run] at kept; exact kept
  | error f m' => rw [run] at kept; exact kept

theorem store {x : StoreM α} (hx : Keeps o x) : Preserves o (Native.store x) :=
  lift fun m => by
    have kept := hx m.store
    rw [liftStore_run]
    cases run : x.run m.store with
    | ok a s => rw [run] at kept; exact kept
    | error f s => rw [run] at kept; exact kept

theorem envs {x : NativeM α} (hx : Preserves Store.shapesKept x) : Preserves Store.envsKept x :=
  fun m => (hx m).envs

theorem forIn_list {γ : Type} (xs : List γ) (b : β) {f : γ → β → NativeM (ForInStep β)}
    (hf : ∀ a b, Preserves o (f a b)) : Preserves o (forIn xs b f) := by
  induction xs generalizing b with
  | nil => exact pure b
  | cons a rest ih =>
    rw [List.forIn_cons]
    refine bind (hf a b) fun step => ?_
    cases step with
    | done b' => exact pure b'
    | yield b' => exact ih b'

theorem forIn_array {γ : Type} (xs : Array γ) (b : β) {f : γ → β → NativeM (ForInStep β)}
    (hf : ∀ a b, Preserves o (f a b)) : Preserves o (forIn xs b f) := by
  rw [← Array.forIn_toList]
  exact forIn_list xs.toList b hf

theorem forIn_range (r : Std.Legacy.Range) (b : β) {f : Nat → β → NativeM (ForInStep β)}
    (hf : ∀ a b, Preserves o (f a b)) : Preserves o (forIn r b f) := by
  rw [Std.Legacy.Range.forIn_eq_forIn_range']
  exact forIn_list _ b hf

end Preserves

section Running

variable (m : Machine) {s : Store}

theorem bind_run_of_ok {α β : Type} {x : NativeM α} {f : α → NativeM β} {a : α}
    (ran : ((x.run.run m).run s) = .ok (.ok a) s) :
    (((x >>= f).run.run m).run s) = ((f a).run.run m).run s := by
  simp only [ExceptT.run_bind, ReaderT.run_bind]
  show (EStateM.bind _ _).run s = _
  simp only [EStateM.bind, EStateM.run] at ran ⊢
  rw [ran]

theorem store_run {α : Type} (x : StoreM α) (s : Store) :
    ((store x).run.run m).run s = match x.run s with
      | .ok a s' => .ok (.ok a) s'
      | .error f s' => .error f s' := by
  rw [store, lift_run, liftStore_run]
  cases x.run s <;> rfl

end Running

section Support

open Store (shapesKept)

theorem preserves_liftShapes {α : Type} {x : MachineM α} (hx : Keeps storeShapes x) :
    Preserves shapesKept (lift x) :=
  Preserves.lift hx

theorem preserves_liftReads {α : Type} {x : MachineM α} (hx : ReadOnly x) : Preserves shapesKept (lift x) :=
  Preserves.lift (hx.keeps storeShapes)

theorem preserves_storeReads {α : Type} {x : StoreM α} (hx : ReadOnly x) : Preserves shapesKept (store x) :=
  Preserves.store (hx.keeps _)

theorem preserves_fault {α : Type} : Preserves shapesKept (lift runtimeFault : NativeM α) :=
  preserves_liftReads readOnly_runtimeFault

theorem preserves_core : Preserves shapesKept core := preserves_storeReads Store.readOnly_wellKnown

theorem preserves_raiseErr {α : Type} (cls : Core → ObjRef) (msg : String) :
    Preserves shapesKept (raiseErr cls msg : NativeM α) :=
  Preserves.bind (preserves_liftShapes (storeShapes_newErr cls msg)) fun _ => Preserves.throw _

theorem preserves_inspect (v : Value) : Preserves shapesKept (inspect v) :=
  preserves_storeReads (Store.readOnly_inspect v)

theorem preserves_classNameOf (v : Value) : Preserves shapesKept (classNameOf v) :=
  preserves_storeReads (Store.readOnly_realClassName v)

theorem preserves_symText (sym : Sym) : Preserves shapesKept (symText sym) :=
  Preserves.bind (preserves_liftReads Keeps.get) fun _ => Preserves.pure _

theorem preserves_intern (name : String) : Preserves shapesKept (intern name) :=
  Preserves.store (Store.shapesKept_intern name)

theorem preserves_newString (text : String) : Preserves shapesKept (newString text) :=
  Preserves.store (Store.shapesKept_newString text)

theorem preserves_newArray (es : Array Value) : Preserves shapesKept (newArray es) :=
  Preserves.store (Store.shapesKept_newArray es)

theorem preserves_checkArgs (call : NativeCall) (lo : Nat) (hi : Option Nat) :
    Preserves shapesKept (checkArgs call lo hi) := by
  unfold checkArgs
  dsimp only
  split
  · exact Preserves.pure _
  · exact preserves_raiseErr _ _

theorem preserves_stringOf? (v : Value) : Preserves shapesKept (stringOf? v) :=
  preserves_storeReads (Store.readOnly_stringOf? v)

theorem preserves_symbolArg (call : NativeCall) (i : Nat) : Preserves shapesKept (symbolArg call i) := by
  unfold symbolArg
  dsimp only
  split
  · exact Preserves.pure _
  · refine Preserves.bind (preserves_stringOf? _) fun found => ?_
    split
    · exact preserves_intern _
    · exact Preserves.bind (preserves_inspect _) fun _ => preserves_raiseErr _ _

theorem preserves_ivarNameArg (call : NativeCall) (i : Nat) : Preserves shapesKept (ivarNameArg call i) := by
  refine Preserves.bind (preserves_symbolArg call i) fun _ => Preserves.bind (preserves_symText _) fun _ => ?_
  dsimp only
  split
  · exact Preserves.bind (preserves_raiseErr _ _) fun _ => Preserves.pure _
  · exact Preserves.pure _

theorem preserves_classArg (call : NativeCall) (i : Nat) : Preserves shapesKept (classArg call i) := by
  refine Preserves.bind (preserves_storeReads (Store.readOnly_classOf? _)) fun found => ?_
  split
  · exact Preserves.pure _
  · exact preserves_raiseErr _ _

theorem preserves_intArg (call : NativeCall) (i : Nat) : Preserves shapesKept (intArg call i) := by
  unfold intArg
  split
  · exact Preserves.pure _
  · exact Preserves.pure _
  · exact Preserves.bind (preserves_classNameOf _) fun _ => preserves_raiseErr _ _

theorem preserves_stringArg (call : NativeCall) (i : Nat) : Preserves shapesKept (stringArg call i) := by
  refine Preserves.bind (preserves_stringOf? _) fun found => ?_
  split
  · exact Preserves.pure _
  · exact Preserves.bind (preserves_classNameOf _) fun _ => preserves_raiseErr _ _

theorem preserves_numArg (call : NativeCall) (i : Nat) : Preserves shapesKept (numArg call i) := by
  unfold numArg
  dsimp only
  split
  · exact Preserves.pure _
  · exact Preserves.bind (preserves_classNameOf _) fun _ => preserves_raiseErr _ _

theorem preserves_procOf? (v : Value) : Preserves shapesKept (lift (procOf? v)) :=
  preserves_liftReads (readOnly_procOf? v)

theorem preserves_blockProc (call : NativeCall) (msg : String) : Preserves shapesKept (blockProc call msg) := by
  refine Preserves.bind (preserves_procOf? _) fun found => ?_
  split
  · exact Preserves.pure _
  · exact preserves_raiseErr _ _

theorem preserves_yieldTo (call : NativeCall) (args : Array Value) : Preserves shapesKept (yieldTo call args) := by
  refine Preserves.bind (preserves_procOf? _) fun found => ?_
  split
  · exact Preserves.pure _
  · exact preserves_raiseErr _ _

theorem preserves_sendPlain (recv : Value) (name : String) (args : Array Value) :
    Preserves shapesKept (sendPlain recv name args) :=
  Preserves.bind (preserves_intern name) fun _ => Preserves.pure _

theorem preserves_defaultToS (v : Value) : Preserves shapesKept (store (Store.defaultToS v)) :=
  preserves_storeReads (Store.readOnly_defaultToS v)

theorem preserves_stringifyStart (v : Value) : Preserves shapesKept (stringifyStart v) := by
  refine Preserves.bind (preserves_stringOf? v) fun found => ?_
  split
  · exact Preserves.pure _
  · split
    · exact Preserves.bind (preserves_sendPlain _ _ _) fun _ => Preserves.pure _
    · exact Preserves.bind (preserves_defaultToS _) fun _ => Preserves.pure _

theorem preserves_stringifyFinish (orig r : Value) : Preserves shapesKept (stringifyFinish orig r) := by
  refine Preserves.bind (preserves_stringOf? r) fun found => ?_
  split
  · exact Preserves.pure _
  · exact preserves_defaultToS _

theorem preserves_inspectStart (v : Value) : Preserves shapesKept (inspectStart v) := by
  unfold inspectStart
  split
  · exact Preserves.bind (preserves_sendPlain _ _ _) fun _ => Preserves.pure _
  · exact Preserves.bind (preserves_inspect _) fun _ => Preserves.pure _

theorem preserves_inspectFinish (orig r : Value) : Preserves shapesKept (inspectFinish orig r) := by
  refine Preserves.bind (preserves_stringOf? r) fun found => ?_
  split
  · exact Preserves.pure _
  · exact preserves_inspect _

theorem preserves_equalStart (x y : Value) : Preserves shapesKept (equalStart x y) := by
  unfold equalStart
  split
  · exact Preserves.pure _
  · split
    · exact Preserves.pure _
    · exact Preserves.bind (preserves_sendPlain _ _ _) fun _ => Preserves.pure _

theorem preserves_objOf (v : Value) : Preserves shapesKept (objOf v) := by
  unfold objOf
  split
  · exact Preserves.bind (preserves_storeReads (Store.readOnly_getObj _)) fun _ => Preserves.pure _
  · exact preserves_fault

theorem preserves_arrayElems (v : Value) : Preserves shapesKept (arrayElems v) := by
  refine Preserves.bind (preserves_objOf v) fun ⟨r, o⟩ => ?_
  dsimp only
  split <;> first | exact Preserves.pure _ | exact preserves_fault

theorem preserves_hashTable (v : Value) : Preserves shapesKept (hashTable v) := by
  refine Preserves.bind (preserves_objOf v) fun ⟨r, o⟩ => ?_
  dsimp only
  split <;> first | exact Preserves.pure _ | exact preserves_fault

theorem preserves_stringText (v : Value) : Preserves shapesKept (stringText v) := by
  refine Preserves.bind (preserves_objOf v) fun ⟨r, o⟩ => ?_
  dsimp only
  split <;> first | exact Preserves.pure _ | exact preserves_fault

theorem preserves_classNode (v : Value) : Preserves shapesKept (classNode v) := by
  refine Preserves.bind (preserves_objOf v) fun ⟨r, o⟩ => ?_
  dsimp only
  split <;> first | exact Preserves.pure _ | exact preserves_fault

theorem preserves_raiseFrozen {α : Type} (v : Value) : Preserves shapesKept (raiseFrozen v : NativeM α) :=
  Preserves.bind (Preserves.store (Store.shapesKept_frozenError v)) fun _ => Preserves.throw _

theorem preserves_isFrozen (r : ObjRef) : Preserves shapesKept (isFrozen r) :=
  Preserves.bind (preserves_storeReads (Store.readOnly_getObj r)) fun _ => Preserves.pure _

theorem preserves_setBody (r : ObjRef) {f : Obj → Obj}
    (same : ∀ o, (f o).body = o.body ∨ (f o).shape = none ∧ o.shape = none) :
    Preserves shapesKept (store (Store.modifyObj r f)) :=
  Preserves.store (Store.shapesKept_modifyObj r fun o => by
    rcases same o with body | ⟨after, before⟩
    · simp [Obj.shape, body]
    · rw [after, before])

theorem preserves_setElems (r : ObjRef) (es : Array Value) : Preserves shapesKept (setElems r es) :=
  preserves_setBody r fun o => by split <;> simp_all [Obj.shape]

theorem preserves_setTable (r : ObjRef) (t : HashTable) : Preserves shapesKept (setTable r t) :=
  preserves_setBody r fun o => by split <;> simp_all [Obj.shape]

theorem preserves_setText (r : ObjRef) (t : String) : Preserves shapesKept (setText r t) :=
  preserves_setBody r fun o => by split <;> simp_all [Obj.shape]

theorem preserves_setMessage (r : ObjRef) (msg : Value) : Preserves shapesKept (setMessage r msg) :=
  preserves_setBody r fun o => by split <;> simp_all [Obj.shape]

end Support

section Kernel

open Store (shapesKept)

theorem preserves_write (text : String) : Preserves shapesKept (write text) :=
  Preserves.store (Store.shapesKept_write text)

theorem preserves_mixin (k : ObjRef) (m : Value) (prepend : Bool) : Preserves shapesKept (mixin k m prepend) := by
  refine Preserves.bind (preserves_storeReads (Store.readOnly_classOf? _)) fun found => ?_
  dsimp only
  -- a value that is not a module is refused before the mixing, and a refused mixing raises
  -- after it: the store changes only by the mixing itself
  repeat' first
    | with_reducible exact Preserves.pure _
    | with_reducible exact preserves_raiseErr _ _
    | with_reducible exact Store.shapesKept_prependModule _ _
    | with_reducible exact Store.shapesKept_includeModule _ _
    | with_reducible refine Preserves.bind (Preserves.pure _) fun _ => ?_
    | with_reducible refine Preserves.bind (preserves_classNameOf _) fun _ => ?_
    | with_reducible refine Preserves.bind (preserves_raiseErr _ _) fun _ => ?_
    | with_reducible refine Preserves.bind (Preserves.store ?_) fun _ => ?_
    | split

theorem preserves_callerBlock : Preserves shapesKept callerBlock := by
  refine Preserves.bind (preserves_liftReads readOnly_currentContext) fun c => ?_
  dsimp only
  -- the home frame is searched only for a block's caller
  repeat' first
    | with_reducible apply Preserves.pure _
    | with_reducible apply preserves_procOf? _
    | with_reducible apply preserves_liftShapes (storeShapes_returnTarget _)
    | with_reducible refine Preserves.bind ?_ fun _ => ?_
    | split

theorem preserves_putsAdvance (items : List Value) : Preserves shapesKept (putsAdvance items) := by
  have walk : ∀ fuel items, Preserves shapesKept (putsAdvance.go items fuel) := by
    intro fuel
    induction fuel with
    | zero => intro items; cases items <;> first | exact Preserves.pure _ | exact preserves_fault
    | succ fuel ih =>
      intro items
      cases items with
      | nil => exact Preserves.pure _
      | cons v rest =>
        simp only [putsAdvance.go]
        refine Preserves.bind (preserves_storeReads (Store.readOnly_arrayOf? _)) fun found => ?_
        split
        · split
          · exact Preserves.bind (preserves_write _) fun _ => ih _
          · exact ih _
        · refine Preserves.bind (preserves_stringifyStart _) fun text => ?_
          split
          · exact Preserves.bind (preserves_write _) fun _ => ih _
          · exact Preserves.pure _
  exact walk _ items

theorem preserves_printAdvance (items : List Value) : Preserves shapesKept (printAdvance items) := by
  induction items with
  | nil => exact Preserves.pure _
  | cons v rest ih =>
    simp only [printAdvance]
    refine Preserves.bind (preserves_stringifyStart _) fun text => ?_
    split
    · exact Preserves.bind (preserves_write _) fun _ => ih
    · exact Preserves.pure _

theorem preserves_inspectPrintAdvance (args : Array Value) (i : Nat) :
    Preserves shapesKept (inspectPrintAdvance args i) := by
  have walk : ∀ fuel i, Preserves shapesKept (inspectPrintAdvance.go args i fuel) := by
    intro fuel
    induction fuel with
    | zero => exact fun _ => preserves_fault
    | succ fuel ih =>
      intro i
      simp only [inspectPrintAdvance.go]
      split
      · refine Preserves.bind (preserves_inspectStart _) fun text => ?_
        split
        · exact Preserves.bind (preserves_write _) fun _ => ih _
        · exact Preserves.pure _
      · split
        · exact Preserves.pure _
        · split
          · exact Preserves.pure _
          · exact Preserves.bind (preserves_newArray _) fun _ => Preserves.pure _
  exact walk _ i

theorem preserves_raiseChecked (exc : Value) : Preserves shapesKept (raiseChecked exc) := by
  unfold raiseChecked
  split
  · refine Preserves.bind (preserves_storeReads (Store.readOnly_getObj _)) fun o => ?_
    split
    · exact Preserves.pure _
    · exact preserves_raiseErr _ _
  · exact preserves_raiseErr _ _

theorem preserves_raiseWith (call : NativeCall) : Preserves shapesKept (raiseWith call) := by
  unfold raiseWith
  refine Preserves.bind (preserves_checkArgs _ _ _) fun _ => ?_
  dsimp only
  repeat' first
    | with_reducible apply Preserves.pure _
    | with_reducible apply preserves_raiseChecked _
    | with_reducible apply preserves_sendPlain _ _ _
    | with_reducible apply preserves_stringOf? _
    | with_reducible apply preserves_core
    | with_reducible apply preserves_liftReads readOnly_currentContext
    | with_reducible apply preserves_liftShapes (storeShapes_newErr _ _)
    | with_reducible apply preserves_storeReads (Store.readOnly_classOf? _)
    | with_reducible exact Preserves.store (Store.shapesKept_alloc rfl)
    | with_reducible refine Preserves.bind ?_ fun _ => ?_
    | split

theorem preserves_strictCopy (p : ObjRef) : Preserves shapesKept (strictCopy p) := by
  intro m
  unfold strictCopy
  simp only [ExceptT.run_bind, ReaderT.run_bind]
  refine Keeps.bind_run (preserves_storeReads (Store.readOnly_getObj p) m) fun s r t ran => ?_
  rw [store_run, Store.getObj_run] at ran
  cases found : s.heap[p.idx]? with
  | none =>
    rw [found] at ran
    cases ran
  | some o =>
    rw [found] at ran
    cases ran
    dsimp only
    split
    · next d proc =>
      -- the copy is allocated in the store the procedure was read from
      have copied := @Store.shapesKept_alloc_copy _ _ _ { o with body := .proc { d with strict := true } }
        found (by simp [Obj.env?, proc]) (by simp [Obj.shape, proc])
      rw [store_run]
      revert copied
      cases (Store.alloc _).run s <;> exact id
    · exact preserves_fault m s

theorem preserves_kernel (prim : KernelPrim) (call : NativeCall) : Preserves shapesKept (kernel prim call) := by
  unfold kernel
  cases prim
  all_goals dsimp only
  -- each method is a sequence of the steps above, of reads, and of store operations
  all_goals repeat' first
    | with_reducible apply Preserves.pure _
    | with_reducible apply Preserves.throw _
    | with_reducible apply preserves_fault
    | with_reducible apply preserves_raiseErr _ _
    | with_reducible apply preserves_checkArgs _ _ _
    | with_reducible apply preserves_sendPlain _ _ _
    | with_reducible apply preserves_symbolArg _ _
    | with_reducible apply preserves_ivarNameArg _ _
    | with_reducible apply preserves_classArg _ _
    | with_reducible apply preserves_newArray _
    | with_reducible apply preserves_newString _
    | with_reducible apply preserves_inspect _
    | with_reducible apply preserves_isFrozen _
    | with_reducible apply preserves_mixin _ _ _
    | with_reducible apply preserves_yieldTo _ _
    | with_reducible apply preserves_write _
    | with_reducible apply preserves_putsAdvance _
    | with_reducible apply preserves_printAdvance _
    | with_reducible apply preserves_inspectPrintAdvance _ _
    | with_reducible apply preserves_raiseWith _
    | with_reducible apply preserves_callerBlock
    | with_reducible apply preserves_blockProc _ _
    | with_reducible apply preserves_procOf? _
    | with_reducible apply preserves_strictCopy _
    | with_reducible apply preserves_defaultToS _
    | with_reducible apply preserves_liftReads Keeps.get
    | with_reducible apply preserves_liftShapes (storeShapes_noMethodError _ _ _)
    | with_reducible apply preserves_liftShapes (storeShapes_ivarSet _ _ _)
    | with_reducible apply preserves_storeReads (Store.readOnly_realClassOf _)
    | with_reducible apply preserves_storeReads (Store.readOnly_valueIsKindOf _ _)
    | with_reducible apply preserves_storeReads (Store.readOnly_ivarGet _ _)
    | with_reducible apply preserves_storeReads (Store.readOnly_ivarFind _ _)
    | with_reducible apply preserves_storeReads (Store.readOnly_getObj _)
    | with_reducible apply Preserves.store (Store.shapesKept_singletonClassOf _)
    | with_reducible apply Preserves.store (Store.shapesKept_respondTo _ _)
    | with_reducible apply Preserves.store (Store.shapesKept_objectId _)
    | with_reducible exact Preserves.store (Store.shapesKept_modifyObj _ fun _ => rfl)
    | with_reducible refine Preserves.bind ?_ fun _ => ?_
    | refine Preserves.forIn_list _ _ fun _ _ => ?_
    | split

end Kernel

section Module

open Store (shapesKept)

theorem preserves_allocate (k : ObjRef) : Preserves shapesKept (allocate k) := by
  unfold allocate
  -- each branch that picks the body answers it with `pure`: run it into the allocation, so
  -- that every allocation names the body it stores
  simp only [pure_bind]
  repeat' first
    | with_reducible apply Preserves.pure _
    | with_reducible apply preserves_raiseErr _ _
    | with_reducible apply preserves_core
    | with_reducible apply preserves_storeReads (Store.readOnly_node _)
    | with_reducible apply preserves_storeReads (Store.readOnly_className _)
    | with_reducible apply preserves_storeReads (Store.readOnly_isKindOf _ _)
    | with_reducible exact Preserves.store (Store.shapesKept_alloc rfl)
    | with_reducible refine Preserves.bind ?_ fun _ => ?_
    | refine Preserves.forIn_list _ _ fun _ _ => ?_
    | split

theorem preserves_defineAttrs (k : ObjRef) (call : NativeCall) (reader writer : Bool) :
    Preserves shapesKept (defineAttrs k call reader writer) := by
  unfold defineAttrs
  refine Preserves.bind (Preserves.forIn_range _ _ fun i out => ?_) fun out => preserves_newArray _
  repeat' first
    | with_reducible apply Preserves.pure _
    | with_reducible apply preserves_symbolArg _ _
    | with_reducible apply preserves_symText _
    | with_reducible apply preserves_intern _
    | with_reducible apply Preserves.store (Store.shapesKept_defineRaw _ _ _)
    | with_reducible refine Preserves.bind ?_ fun _ => ?_
    | split

theorem preserves_undefinedMethod {α : Type} (mid : Sym) (k : ObjRef) :
    Preserves shapesKept (undefinedMethod mid k : NativeM α) :=
  Preserves.bind (preserves_symText _) fun _ =>
    Preserves.bind (preserves_storeReads (Store.readOnly_className _)) fun _ => preserves_raiseErr _ _

theorem preserves_includesModule (r m : ObjRef) : Preserves shapesKept (store (Store.includesModule r m)) :=
  preserves_storeReads (Keeps.bind Store.readOnly_chainFuel fun _ => Store.readOnly_includesModule_go _ _ _)

theorem preserves_module (prim : ModulePrim) (call : NativeCall) : Preserves shapesKept (module prim call) := by
  unfold module
  cases prim
  all_goals dsimp only
  all_goals repeat' first
    | with_reducible apply Preserves.pure _
    | with_reducible apply Preserves.throw _
    | with_reducible apply preserves_raiseErr _ _
    | with_reducible apply preserves_core
    | with_reducible apply preserves_checkArgs _ _ _
    | with_reducible apply preserves_classNode _
    | with_reducible apply preserves_classArg _ _
    | with_reducible apply preserves_symbolArg _ _
    | with_reducible apply preserves_symText _
    | with_reducible apply preserves_intern _
    | with_reducible apply preserves_newArray _
    | with_reducible apply preserves_newString _
    | with_reducible apply preserves_procOf? _
    | with_reducible apply preserves_yieldTo _ _
    | with_reducible apply preserves_mixin _ _ _
    | with_reducible apply preserves_strictCopy _
    | with_reducible apply preserves_allocate _
    | with_reducible apply preserves_defineAttrs _ _ _ _
    | with_reducible apply preserves_undefinedMethod _ _
    | with_reducible apply preserves_includesModule _ _
    | with_reducible apply preserves_liftShapes (storeShapes_ivarSet _ _ _)
    | with_reducible apply preserves_storeReads (Store.readOnly_ivarFind _ _)
    | with_reducible apply preserves_storeReads (Store.readOnly_ivarGet _ _)
    | with_reducible apply preserves_storeReads (Store.readOnly_className _)
    | with_reducible apply preserves_storeReads (Store.readOnly_valueIsKindOf _ _)
    | with_reducible apply preserves_storeReads (Store.readOnly_ancestors _)
    | with_reducible apply preserves_storeReads (Store.readOnly_instanceMethods _ _)
    | with_reducible apply preserves_storeReads (Store.readOnly_constGet _ _)
    | with_reducible apply preserves_storeReads (Store.readOnly_constNames _)
    | with_reducible apply preserves_storeReads (Store.readOnly_superclass _)
    | with_reducible apply Preserves.store (Store.shapesKept_defineRaw _ _ _)
    | with_reducible apply Preserves.store (Store.shapesKept_aliasMethod _ _ _)
    | with_reducible apply Preserves.store (Store.shapesKept_removeMethod _ _)
    | with_reducible apply Preserves.store (Store.shapesKept_resolve _ _)
    | with_reducible apply Preserves.store (Store.shapesKept_constSet _ _ _)
    | with_reducible apply Preserves.store Store.shapesKept_newModule
    | with_reducible apply Preserves.store (Store.shapesKept_newClass _)
    | with_reducible refine Preserves.bind ?_ fun _ => ?_
    | refine Preserves.forIn_list _ _ fun _ _ => ?_
    | refine Preserves.forIn_array _ _ fun _ _ => ?_
    | refine Preserves.forIn_range _ _ fun _ _ => ?_
    | split

end Module

section Values

open Store (shapesKept)

theorem preserves_arithValue (op : ArithOp) (x y : Value) : Preserves shapesKept (arithValue op x y) := by
  unfold arithValue
  split
  · exact Preserves.pure _
  · exact preserves_raiseErr _ _
  · exact Preserves.pure _

theorem preserves_floatToInt (x : Float) : Preserves shapesKept (floatToInt x) := by
  unfold floatToInt
  dsimp only
  split
  · exact Preserves.bind (preserves_raiseErr _ _) fun _ => Preserves.pure _
  · exact Preserves.pure _

theorem preserves_numeric (prim : NumericPrim) (call : NativeCall) : Preserves shapesKept (numeric prim call) := by
  unfold numeric
  cases prim
  all_goals dsimp only
  all_goals repeat' first
    | with_reducible apply Preserves.pure _
    | with_reducible apply preserves_fault
    | with_reducible apply preserves_raiseErr _ _
    | with_reducible apply preserves_checkArgs _ _ _
    | with_reducible apply preserves_classNameOf _
    | with_reducible apply preserves_numArg _ _
    | with_reducible apply preserves_intArg _ _
    | with_reducible apply preserves_blockProc _ _
    | with_reducible apply preserves_newString _
    | with_reducible apply preserves_arithValue _ _ _
    | with_reducible apply preserves_floatToInt _
    | with_reducible refine Preserves.bind ?_ fun _ => ?_
    | split

theorem preserves_repeatText (s : String) (n : Nat) : Preserves shapesKept (repeatText s n) := by
  unfold repeatText
  repeat' first
    | with_reducible apply Preserves.pure _
    | with_reducible apply preserves_liftReads (Machine.readOnly_panic _)
    | with_reducible refine Preserves.bind ?_ fun _ => ?_
    | split

theorem preserves_string (prim : StringPrim) (call : NativeCall) : Preserves shapesKept (string prim call) := by
  unfold string
  refine Preserves.bind (preserves_stringText _) fun ⟨r, s⟩ => ?_
  cases prim
  all_goals dsimp only
  all_goals repeat' first
    | with_reducible apply Preserves.pure _
    | with_reducible apply preserves_raiseErr _ _
    | with_reducible apply preserves_checkArgs _ _ _
    | with_reducible apply preserves_stringArg _ _
    | with_reducible apply preserves_stringOf? _
    | with_reducible apply preserves_intArg _ _
    | with_reducible apply preserves_intern _
    | with_reducible apply preserves_newString _
    | with_reducible apply preserves_newArray _
    | with_reducible apply preserves_isFrozen _
    | with_reducible apply preserves_raiseFrozen _
    | with_reducible apply preserves_stringifyStart _
    | with_reducible apply preserves_setText _ _
    | with_reducible apply preserves_repeatText _ _
    | with_reducible refine Preserves.bind ?_ fun _ => ?_
    | refine Preserves.forIn_list _ _ fun _ _ => ?_
    | split

theorem preserves_appendFinish (target : ObjRef) (arg result : Value) :
    Preserves shapesKept (appendFinish target arg result) :=
  Preserves.bind (preserves_stringifyFinish _ _) fun _ =>
    Preserves.bind (preserves_stringText _) fun _ =>
      Preserves.bind (preserves_setText _ _) fun _ => Preserves.pure _

theorem preserves_symbol (prim : SymbolPrim) (call : NativeCall) : Preserves shapesKept (symbol prim call) := by
  unfold symbol
  dsimp only
  repeat' first
    | with_reducible apply Preserves.pure _
    | with_reducible apply preserves_fault
    | with_reducible apply preserves_core
    | with_reducible apply preserves_checkArgs _ _ _
    | with_reducible apply preserves_intern _
    | with_reducible apply preserves_symText _
    | with_reducible apply preserves_newString _
    | with_reducible apply preserves_inspect _
    | with_reducible exact Preserves.store (Store.shapesKept_alloc rfl)
    | with_reducible refine Preserves.bind ?_ fun _ => ?_
    | split

end Values

section Arrays

open Store (shapesKept)

theorem preserves_mutableElems (v : Value) : Preserves shapesKept (mutableElems v) := by
  refine Preserves.bind (preserves_arrayElems v) fun ⟨r, _⟩ => ?_
  refine Preserves.bind (preserves_isFrozen r) fun frozen => ?_
  dsimp only
  split
  · exact Preserves.bind (preserves_raiseFrozen v) fun _ => Preserves.pure _
  · exact Preserves.pure _

theorem preserves_elemAt (arr : ObjRef) (i : Nat) : Preserves shapesKept (elemAt arr i) := by
  refine Preserves.bind (preserves_arrayElems _) fun ⟨_, es⟩ => ?_
  dsimp only
  split
  · exact Preserves.pure _
  · exact preserves_fault

theorem preserves_arrayEachStep (self : Value) (arr blk : ObjRef) (i : Nat) (withIndex : Bool) :
    Preserves shapesKept (arrayEachStep self arr blk i withIndex) := by
  refine Preserves.bind (preserves_arrayElems _) fun ⟨_, es⟩ => ?_
  dsimp only
  split <;> exact Preserves.pure _

theorem preserves_arrayMapStep (arr blk : ObjRef) (i : Nat) (out : Array Value) :
    Preserves shapesKept (arrayMapStep arr blk i out) := by
  refine Preserves.bind (preserves_arrayElems _) fun ⟨_, es⟩ => ?_
  dsimp only
  split
  · exact Preserves.pure _
  · exact Preserves.bind (preserves_newArray _) fun _ => Preserves.pure _

theorem preserves_arrayFilterStep (arr blk : ObjRef) (i : Nat) (keep : Bool) (out : Array Value) :
    Preserves shapesKept (arrayFilterStep arr blk i keep out) := by
  refine Preserves.bind (preserves_arrayElems _) fun ⟨_, es⟩ => ?_
  dsimp only
  split
  · exact Preserves.pure _
  · exact Preserves.bind (preserves_newArray _) fun _ => Preserves.pure _

theorem preserves_reduceStep (elems : Array Value) (i : Nat) (op : Option Sym) (blk acc : Value) :
    Preserves shapesKept (reduceStep elems i op blk acc) := by
  unfold reduceStep
  repeat' first
    | with_reducible apply Preserves.pure _
    | with_reducible apply preserves_raiseErr _ _
    | with_reducible apply preserves_procOf? _
    | with_reducible refine Preserves.bind ?_ fun _ => ?_
    | split

theorem preserves_searchStep (arr : ObjRef) (target : Value) (i : Nat) (wantIndex : Bool) :
    Preserves shapesKept (searchStep arr target i wantIndex) := by
  -- the search compares one element a round until its fuel, one more than the elements
  -- left, runs out
  have walk : ∀ es fuel i, Preserves shapesKept (searchStep.go arr target wantIndex es i fuel) := by
    intro es fuel
    induction fuel with
    | zero => exact fun _ => preserves_fault
    | succ fuel ih =>
      intro i
      simp only [searchStep.go]
      split
      · refine Preserves.bind (preserves_equalStart _ _) fun answer => ?_
        split
        · exact Preserves.pure _
        · exact ih _
        · exact Preserves.pure _
      · exact Preserves.pure _
  exact Preserves.bind (preserves_arrayElems _) fun ⟨_, es⟩ => walk es _ i

theorem preserves_arrayEqualStep (a b : ObjRef) (i n : Nat) :
    Preserves shapesKept (arrayEqualStep a b i n) := by
  have walk : ∀ fuel i, Preserves shapesKept (arrayEqualStep.go a b n i fuel) := by
    intro fuel
    induction fuel with
    | zero => exact fun _ => preserves_fault
    | succ fuel ih =>
      intro i
      simp only [arrayEqualStep.go]
      split
      · refine Preserves.bind (preserves_elemAt _ _) fun x => ?_
        refine Preserves.bind (preserves_elemAt _ _) fun y => ?_
        refine Preserves.bind (preserves_equalStart _ _) fun answer => ?_
        split
        · exact ih _
        · exact Preserves.pure _
        · exact Preserves.pure _
      · exact Preserves.pure _
  exact walk _ i

theorem preserves_sortStep (blk : Option ObjRef) (run : Order.Asking Value (Array Value)) :
    Preserves shapesKept (sortStep blk run) := by
  cases run with
  | pure sorted => exact Preserves.bind (preserves_newArray _) fun _ => Preserves.pure _
  | less x y next =>
    simp only [sortStep]
    repeat' first
      | with_reducible apply Preserves.pure _
      | with_reducible apply preserves_raiseErr _ _
      | with_reducible apply preserves_procOf? _
      | with_reducible apply preserves_sendPlain _ _ _
      | with_reducible refine Preserves.bind ?_ fun _ => ?_
      | split

theorem preserves_joinStep (elems : Array Value) (i : Nat) (sep acc : String) :
    Preserves shapesKept (joinStep elems i sep acc) := by
  have walk : ∀ fuel i acc, Preserves shapesKept (joinStep.go elems sep i acc fuel) := by
    intro fuel
    induction fuel with
    | zero => exact fun _ _ => preserves_fault
    | succ fuel ih =>
      intro i acc
      simp only [joinStep.go]
      split
      · refine Preserves.bind (preserves_stringifyStart _) fun text => ?_
        split
        · exact ih _ _
        · exact Preserves.pure _
      · exact Preserves.bind (preserves_newString _) fun _ => Preserves.pure _
  exact walk _ i acc

theorem preserves_inspectArrayStep (elems : Array Value) (i : Nat) (acc : String) :
    Preserves shapesKept (inspectArrayStep elems i acc) := by
  have walk : ∀ fuel i acc, Preserves shapesKept (inspectArrayStep.go elems i acc fuel) := by
    intro fuel
    induction fuel with
    | zero => exact fun _ _ => preserves_fault
    | succ fuel ih =>
      intro i acc
      simp only [inspectArrayStep.go]
      split
      · refine Preserves.bind (preserves_inspectStart _) fun text => ?_
        split
        · exact ih _ _
        · exact Preserves.pure _
      · exact Preserves.bind (preserves_newString _) fun _ => Preserves.pure _
  exact walk _ i acc

theorem preserves_array (prim : ArrayPrim) (call : NativeCall) : Preserves shapesKept (array prim call) := by
  unfold array
  cases prim
  all_goals dsimp only
  all_goals repeat' first
    | with_reducible apply Preserves.pure _
    | with_reducible apply preserves_fault
    | with_reducible apply preserves_raiseErr _ _
    | with_reducible apply preserves_checkArgs _ _ _
    | with_reducible apply preserves_intArg _ _
    | with_reducible apply preserves_symbolArg _ _
    | with_reducible apply preserves_stringArg _ _
    | with_reducible apply preserves_classNameOf _
    | with_reducible apply preserves_blockProc _ _
    | with_reducible apply preserves_procOf? _
    | with_reducible apply preserves_newArray _
    | with_reducible apply preserves_arrayElems _
    | with_reducible apply preserves_mutableElems _
    | with_reducible apply preserves_setElems _ _
    | with_reducible apply preserves_arrayEachStep _ _ _ _ _
    | with_reducible apply preserves_arrayMapStep _ _ _ _
    | with_reducible apply preserves_arrayFilterStep _ _ _ _ _
    | with_reducible apply preserves_reduceStep _ _ _ _ _
    | with_reducible apply preserves_searchStep _ _ _ _
    | with_reducible apply preserves_arrayEqualStep _ _ _ _
    | with_reducible apply preserves_sortStep _ _
    | with_reducible apply preserves_joinStep _ _ _ _
    | with_reducible apply preserves_inspectArrayStep _ _ _
    | with_reducible apply preserves_storeReads (Store.readOnly_arrayOf? _)
    | with_reducible refine Preserves.bind ?_ fun _ => ?_
    | split

end Arrays

section Hashes

open Store (shapesKept)

theorem preserves_mutableTable (v : Value) : Preserves shapesKept (mutableTable v) := by
  refine Preserves.bind (preserves_hashTable v) fun ⟨r, _⟩ => ?_
  refine Preserves.bind (preserves_isFrozen r) fun frozen => ?_
  dsimp only
  split
  · exact Preserves.bind (preserves_raiseFrozen v) fun _ => Preserves.pure _
  · exact Preserves.pure _

theorem preserves_hashGet (h : ObjRef) (k : Value) : Preserves shapesKept (hashGet h k) :=
  Preserves.bind (preserves_hashTable _) fun _ => preserves_storeReads (Store.readOnly_tableGet _ _)

theorem preserves_hashEachStep (self : Value) (h blk : ObjRef) (keys : Array Value) (i : Nat) :
    Preserves shapesKept (hashEachStep self h blk keys i) := by
  -- entries removed by the block are skipped, one round each, until the fuel runs out
  have walk : ∀ fuel i, Preserves shapesKept (hashEachStep.go self h blk keys i fuel) := by
    intro fuel
    induction fuel with
    | zero => exact fun _ => preserves_fault
    | succ fuel ih =>
      intro i
      simp only [hashEachStep.go]
      split
      · refine Preserves.bind (preserves_hashGet _ _) fun found => ?_
        split
        · exact Preserves.bind (preserves_newArray _) fun _ => Preserves.pure _
        · exact ih _
      · exact Preserves.pure _
  exact walk _ i

theorem preserves_hashEqualStep (a b : ObjRef) (keys : Array Value) (i : Nat) :
    Preserves shapesKept (hashEqualStep a b keys i) := by
  have walk : ∀ fuel i, Preserves shapesKept (hashEqualStep.go a b keys i fuel) := by
    intro fuel
    induction fuel with
    | zero => exact fun _ => preserves_fault
    | succ fuel ih =>
      intro i
      simp only [hashEqualStep.go]
      split
      · refine Preserves.bind (preserves_hashGet _ _) fun x => ?_
        refine Preserves.bind (preserves_hashGet _ _) fun y => ?_
        split
        · exact Preserves.pure _
        · refine Preserves.bind (preserves_equalStart _ _) fun answer => ?_
          split
          · exact ih _
          · exact Preserves.pure _
          · exact Preserves.pure _
      · exact Preserves.pure _
  exact walk _ i

theorem preserves_inspectHashStep (entries : Array (Value × Value)) (i : Nat) (acc : String)
    (keyText : Option String) : Preserves shapesKept (inspectHashStep entries i acc keyText) := by
  -- a round inspects a key, then its value; the fuel counts two rounds an entry
  have walk : ∀ fuel i acc keyText,
      Preserves shapesKept (inspectHashStep.go entries i acc keyText fuel) := by
    intro fuel
    induction fuel with
    | zero => exact fun _ _ _ => preserves_fault
    | succ fuel ih =>
      intro i acc keyText
      simp only [inspectHashStep.go]
      split
      · repeat' first
          | with_reducible apply Preserves.pure _
          | with_reducible apply ih _ _ _
          | with_reducible apply preserves_symText _
          | with_reducible apply preserves_inspectStart _
          | with_reducible apply preserves_sendPlain _ _ _
          | with_reducible refine Preserves.bind ?_ fun _ => ?_
          | split
      · exact Preserves.bind (preserves_newString _) fun _ => Preserves.pure _
  exact walk _ i acc keyText

theorem preserves_hash (prim : HashPrim) (call : NativeCall) : Preserves shapesKept (hash prim call) := by
  unfold hash
  cases prim
  all_goals dsimp only
  all_goals repeat' first
    | with_reducible apply Preserves.pure _
    | with_reducible apply preserves_fault
    | with_reducible apply preserves_raiseErr _ _
    | with_reducible apply preserves_checkArgs _ _ _
    | with_reducible apply preserves_classNameOf _
    | with_reducible apply preserves_blockProc _ _
    | with_reducible apply preserves_yieldTo _ _
    | with_reducible apply preserves_inspectStart _
    | with_reducible apply preserves_newArray _
    | with_reducible apply preserves_newString _
    | with_reducible apply preserves_hashTable _
    | with_reducible apply preserves_mutableTable _
    | with_reducible apply preserves_setTable _ _
    | with_reducible apply preserves_hashGet _ _
    | with_reducible apply preserves_hashEachStep _ _ _ _ _
    | with_reducible apply preserves_hashEqualStep _ _ _ _
    | with_reducible apply preserves_inspectHashStep _ _ _ _
    | with_reducible apply preserves_storeReads (Store.readOnly_getObj _)
    | with_reducible apply preserves_storeReads (Store.readOnly_hashOf? _)
    | with_reducible apply preserves_storeReads (Store.readOnly_tableSet _ _ _)
    | with_reducible apply preserves_storeReads (Store.readOnly_tableDelete _ _)
    | with_reducible apply preserves_storeReads (Store.readOnly_tableCopy _)
    | with_reducible apply Preserves.store (Store.shapesKept_newHash _)
    | with_reducible exact Preserves.store (Store.shapesKept_modifyObj _ fun _ => rfl)
    | with_reducible refine Preserves.bind ?_ fun _ => ?_
    | refine Preserves.forIn_list _ _ fun _ _ => ?_
    | split

end Hashes

section Others

open Store (shapesKept)

theorem preserves_rangeParts (v : Value) : Preserves shapesKept (rangeParts v) := by
  refine Preserves.bind (preserves_objOf v) fun ⟨_, o⟩ => ?_
  dsimp only
  split
  · exact Preserves.pure _
  · exact preserves_fault

theorem preserves_intBounds (v : Value) : Preserves shapesKept (intBounds v) := by
  refine Preserves.bind (preserves_rangeParts v) fun ⟨first, last, excl⟩ => ?_
  dsimp only
  split
  · exact Preserves.pure _
  · exact Preserves.bind (preserves_classNameOf _) fun _ => preserves_raiseErr _ _

theorem preserves_coverHighStart (v last low : Value) (excl : Bool) :
    Preserves shapesKept (coverHighStart v last low excl) :=
  Preserves.bind (preserves_sendPlain _ _ _) fun _ => Preserves.pure _

theorem preserves_rangeCollectStep (k hi : Int64) (out : Array Value) :
    Preserves shapesKept (rangeCollectStep k hi out) := by
  unfold rangeCollectStep
  split
  · exact Preserves.pure _
  · exact Preserves.bind (preserves_newArray _) fun _ => Preserves.pure _

theorem preserves_rangeLastEqual (x y : Value) : Preserves shapesKept (rangeLastEqual x y) := by
  refine Preserves.bind (preserves_equalStart x y) fun answer => ?_
  split <;> exact Preserves.pure _

theorem preserves_rangeLastTextStep (firstText sep : String) (last : Value) :
    Preserves shapesKept (rangeLastTextStep firstText sep last) := by
  refine Preserves.bind (preserves_stringifyStart last) fun answer => ?_
  split
  · exact Preserves.bind (preserves_newString _) fun _ => Preserves.pure _
  · exact Preserves.pure _

theorem preserves_range (prim : RangePrim) (call : NativeCall) : Preserves shapesKept (range prim call) := by
  unfold range
  cases prim
  all_goals dsimp only
  all_goals repeat' first
    | with_reducible apply Preserves.pure _
    | with_reducible apply preserves_checkArgs _ _ _
    | with_reducible apply preserves_blockProc _ _
    | with_reducible apply preserves_sendPlain _ _ _
    | with_reducible apply preserves_equalStart _ _
    | with_reducible apply preserves_stringifyStart _
    | with_reducible apply preserves_inspect _
    | with_reducible apply preserves_newArray _
    | with_reducible apply preserves_newString _
    | with_reducible apply preserves_rangeParts _
    | with_reducible apply preserves_intBounds _
    | with_reducible apply preserves_rangeLastEqual _ _
    | with_reducible apply preserves_rangeLastTextStep _ _ _
    | with_reducible apply preserves_storeReads (Store.readOnly_classOf? _)
    | with_reducible apply preserves_storeReads (Store.readOnly_getObj _)
    | with_reducible apply Preserves.store (Store.shapesKept_newRange _ _ _)
    | with_reducible exact Preserves.store (Store.shapesKept_modifyObj _ fun _ => rfl)
    | with_reducible refine Preserves.bind ?_ fun _ => ?_
    | split

theorem preserves_procData (v : Value) : Preserves shapesKept (procData v) := by
  refine Preserves.bind (preserves_procOf? v) fun found => ?_
  split
  · exact Preserves.pure _
  · exact preserves_fault

theorem preserves_proc (prim : ProcPrim) (call : NativeCall) : Preserves shapesKept (proc prim call) := by
  unfold proc
  cases prim
  all_goals dsimp only
  all_goals repeat' first
    | with_reducible apply Preserves.pure _
    | with_reducible apply preserves_procData _
    | with_reducible apply preserves_blockProc _ _
    | with_reducible apply preserves_inspect _
    | with_reducible apply preserves_newString _
    | with_reducible refine Preserves.bind ?_ fun _ => ?_

theorem preserves_exception (prim : ExceptionPrim) (call : NativeCall) :
    Preserves shapesKept (exception prim call) := by
  unfold exception
  cases prim
  all_goals dsimp only
  all_goals repeat' first
    | with_reducible apply Preserves.pure _
    | with_reducible apply preserves_fault
    | with_reducible apply preserves_checkArgs _ _ _
    | with_reducible apply preserves_objOf _
    | with_reducible apply preserves_setMessage _ _
    | with_reducible apply preserves_classNameOf _
    | with_reducible apply preserves_sendPlain _ _ _
    | with_reducible apply preserves_newString _
    | with_reducible apply preserves_newArray _
    | with_reducible apply preserves_storeReads (Store.readOnly_exceptionMessage _)
    | with_reducible refine Preserves.bind ?_ fun _ => ?_
    | refine Preserves.forIn_list _ _ fun _ _ => ?_
    | refine Preserves.forIn_array _ _ fun _ _ => ?_
    | split

theorem preserves_fiber (prim : FiberPrim) (call : NativeCall) : Preserves shapesKept (fiber prim call) := by
  unfold fiber
  cases prim
  all_goals dsimp only
  all_goals repeat' first
    | with_reducible apply Preserves.pure _
    | with_reducible apply preserves_fault
    | with_reducible apply preserves_raiseErr _ _
    | with_reducible apply preserves_blockProc _ _
    | with_reducible apply preserves_objOf _
    | with_reducible apply preserves_liftReads readOnly_currentContext
    | with_reducible apply preserves_liftReads (readOnly_context _)
    | with_reducible apply preserves_storeReads (Store.readOnly_classOf? _)
    | with_reducible refine Preserves.bind ?_ fun _ => ?_
    | split

end Others

section Dispatch

open Store (shapesKept)

theorem preserves_start (prim : Primitive) (call : NativeCall) : Preserves shapesKept (start prim call) := by
  cases prim with
  | kernel p => exact preserves_kernel p call
  | module p => exact preserves_module p call
  | numeric p => exact preserves_numeric p call
  | string p => exact preserves_string p call
  | symbol p => exact preserves_symbol p call
  | array p => exact preserves_array p call
  | hash p => exact preserves_hash p call
  | range p => exact preserves_range p call
  | proc p => exact preserves_proc p call
  | exception p => exact preserves_exception p call
  | fiber p => exact preserves_fiber p call

theorem preserves_resume (task : Task) (v : Value) : Preserves shapesKept (resume task v) := by
  unfold resume
  cases task
  all_goals dsimp only
  all_goals repeat' first
    | with_reducible apply Preserves.pure _
    | with_reducible apply preserves_fault
    | with_reducible apply preserves_raiseErr _ _
    | with_reducible apply preserves_classNameOf _
    | with_reducible apply preserves_newString _
    | with_reducible apply preserves_write _
    | with_reducible apply preserves_stringifyFinish _ _
    | with_reducible apply preserves_inspectFinish _ _
    | with_reducible apply preserves_putsAdvance _
    | with_reducible apply preserves_printAdvance _
    | with_reducible apply preserves_inspectPrintAdvance _ _
    | with_reducible apply preserves_raiseChecked _
    | with_reducible apply preserves_appendFinish _ _ _
    | with_reducible apply preserves_arrayElems _
    | with_reducible apply preserves_setElems _ _
    | with_reducible apply preserves_elemAt _ _
    | with_reducible apply preserves_arrayEachStep _ _ _ _ _
    | with_reducible apply preserves_arrayMapStep _ _ _ _
    | with_reducible apply preserves_arrayFilterStep _ _ _ _ _
    | with_reducible apply preserves_reduceStep _ _ _ _ _
    | with_reducible apply preserves_searchStep _ _ _ _
    | with_reducible apply preserves_arrayEqualStep _ _ _ _
    | with_reducible apply preserves_sortStep _ _
    | with_reducible apply preserves_joinStep _ _ _ _
    | with_reducible apply preserves_inspectArrayStep _ _ _
    | with_reducible apply preserves_coverHighStart _ _ _ _
    | with_reducible apply preserves_rangeCollectStep _ _ _
    | with_reducible apply preserves_rangeLastEqual _ _
    | with_reducible apply preserves_rangeLastTextStep _ _ _
    | with_reducible apply preserves_hashEachStep _ _ _ _ _
    | with_reducible apply preserves_hashEqualStep _ _ _ _
    | with_reducible apply preserves_inspectHashStep _ _ _ _
    | with_reducible refine Preserves.bind ?_ fun _ => ?_
    | split

end Dispatch

end Native

end RegisterVM
