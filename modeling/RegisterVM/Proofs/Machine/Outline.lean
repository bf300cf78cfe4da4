import RegisterVM.Machine.Run
import RegisterVM.Proofs.Machine.Unwinding

set_option autoImplicit false

namespace RegisterVM

structure Context.Outline where
  kinds : List CallKind
  status : Status
  prev : Option Nat
  fiber : Bool

def Context.outline (c : Context) : Context.Outline :=
  ⟨c.frames.toList.map (·.kind), c.status, c.prev, c.fiber.isSome⟩

@[simp] theorem Context.outline_kinds (c : Context) :
    c.outline.kinds = c.frames.toList.map (·.kind) := rfl

@[simp] theorem Context.outline_status (c : Context) : c.outline.status = c.status := rfl

@[simp] theorem Context.outline_prev (c : Context) : c.outline.prev = c.prev := rfl

@[simp] theorem Context.outline_fiber (c : Context) : c.outline.fiber = c.fiber.isSome := rfl

namespace Machine

def outlineAt (m : Machine) (i : Nat) : Option Context.Outline := m.contexts[i]?.map Context.outline

theorem outlineAt_modifyContext (m : Machine) (i j : Nat) (g : Context → Context) :
    ({ m with contexts := m.contexts.modify i g } : Machine).outlineAt j =
      if i = j then m.contexts[j]?.map fun c => (g c).outline else m.outlineAt j := by
  simp only [outlineAt, Array.getElem?_modify]
  split <;> simp [Option.map_map, Function.comp_def]

theorem outlineAt_updCurrent (m : Machine) (j : Nat) (g : Context → Context) :
    (m.updCurrent g).outlineAt j =
      if m.current = j then m.contexts[j]?.map fun c => (g c).outline else m.outlineAt j :=
  outlineAt_modifyContext m m.current j g

theorem outlineAt_modifyContext_of_kept (m : Machine) (i j : Nat) {g : Context → Context}
    (kept : ∀ c, (g c).outline = c.outline) :
    ({ m with contexts := m.contexts.modify i g } : Machine).outlineAt j = m.outlineAt j := by
  rw [outlineAt_modifyContext]
  split
  · next same => subst same; simp [outlineAt, kept]
  · rfl

def outlineKept : StateOrder Machine where
  rel m m' := m'.root = m.root ∧ m'.current = m.current ∧ m'.mode = m.mode ∧
    ∀ i, m'.outlineAt i = m.outlineAt i
  refl _ := ⟨rfl, rfl, rfl, fun _ => rfl⟩
  trans h₁ h₂ := ⟨h₂.1.trans h₁.1, h₂.2.1.trans h₁.2.1, h₂.2.2.1.trans h₁.2.2.1,
    fun i => (h₂.2.2.2 i).trans (h₁.2.2.2 i)⟩

def runKept : StateOrder Machine where
  rel m m' := m'.root = m.root ∧ m'.current = m.current ∧ (m'.mode = m.mode ∨ m'.mode = .run) ∧
    ∀ i, m'.outlineAt i = m.outlineAt i
  refl _ := ⟨rfl, rfl, .inl rfl, fun _ => rfl⟩
  trans h₁ h₂ := by
    refine ⟨h₂.1.trans h₁.1, h₂.2.1.trans h₁.2.1, ?_, fun i => (h₂.2.2.2 i).trans (h₁.2.2.2 i)⟩
    rcases h₂.2.2.1 with same | run
    · rcases h₁.2.2.1 with same' | run'
      · exact .inl (same.trans same')
      · exact .inr (same.trans run')
    · exact .inr run

theorem outlineKept_of_storeOnly {m m' : Machine} (h : storeOnly.rel m m') : outlineKept.rel m m' := by
  have same : m' = { m with store := m'.store } := h
  rw [same]
  exact ⟨rfl, rfl, rfl, fun _ => rfl⟩

theorem runKept_of_outlineKept {m m' : Machine} (h : outlineKept.rel m m') : runKept.rel m m' :=
  ⟨h.1, h.2.1, .inl h.2.2.1, h.2.2.2⟩

theorem Keeps.outlineKept_of_storeOnly {α : Type} {x : MachineM α} (hx : Keeps storeOnly x) :
    Keeps outlineKept x :=
  fun m => Machine.outlineKept_of_storeOnly (hx m)

theorem Keeps.runKept_of_outlineKept {α : Type} {x : MachineM α} (hx : Keeps outlineKept x) :
    Keeps runKept x :=
  fun m => Machine.runKept_of_outlineKept (hx m)

theorem outlineKept_of_readOnly {α : Type} {x : MachineM α} (hx : ReadOnly x) : Keeps outlineKept x :=
  Keeps.outlineKept_of_storeOnly (ReadOnly.storeOnly hx)

theorem outlineKept_modifyContext (i : Nat) {g : Context → Context}
    (kept : ∀ c, (g c).outline = c.outline) : Keeps outlineKept (modifyContext i g) :=
  fun m => ⟨rfl, rfl, rfl, fun j => outlineAt_modifyContext_of_kept m i j kept⟩

theorem outlineKept_modifyCurrent {g : Context → Context} (kept : ∀ c, (g c).outline = c.outline) :
    Keeps outlineKept (modifyCurrent g) :=
  fun m => outlineKept_modifyContext m.current kept m

theorem outlineKept_modifyTop {g : Frame → Frame} (kind : ∀ f, (g f).kind = f.kind) :
    Keeps outlineKept (modifyTop g) := by
  refine outlineKept_modifyCurrent fun c => ?_
  simp only [Context.outline, Context.Outline.mk.injEq, and_true]
  apply List.ext_getElem?
  intro j
  simp only [List.getElem?_map, Array.getElem?_toList, Array.getElem?_modify]
  split <;> cases c.frames[j]? <;> simp [kind]

theorem outlineKept_writeSlot (ci i : Nat) (v : Value) : Keeps outlineKept (writeSlot ci i v) := by
  unfold writeSlot
  refine Keeps.bind (outlineKept_of_readOnly (readOnly_context ci)) fun c => ?_
  split
  · exact outlineKept_modifyContext ci fun _ => rfl
  · exact Keeps.throw _

theorem outlineKept_currentIndex : Keeps outlineKept currentIndex :=
  Keeps.bind Keeps.get fun _ => Keeps.pure _

theorem outlineKept_setSlot (i : Nat) (v : Value) : Keeps outlineKept (setSlot i v) :=
  Keeps.bind outlineKept_currentIndex fun ci => outlineKept_writeSlot ci i v

theorem outlineKept_setReg (f : Frame) (i : Nat) (v : Value) : Keeps outlineKept (setReg f i v) := by
  unfold setReg
  split
  · exact outlineKept_setSlot _ _
  · exact Keeps.throw _

theorem outlineKept_growStack (n : Nat) : Keeps outlineKept (growStack n) := by
  refine outlineKept_modifyCurrent fun c => ?_
  split <;> rfl

theorem outlineKept_setExc (v : Value) : Keeps outlineKept (setExc v) :=
  outlineKept_modifyCurrent fun _ => rfl

theorem outlineKept_envSet (r : ObjRef) (i : Nat) (v : Value) : Keeps outlineKept (envSet r i v) := by
  unfold envSet
  refine Keeps.bind (outlineKept_of_readOnly (readOnly_envData r)) fun e => ?_
  split
  · exact Keeps.pure _
  · split
    · split
      · exact Keeps.outlineKept_of_storeOnly (storeOnly_liftStore _)
      · exact Keeps.throw _
    · exact outlineKept_writeSlot _ _ _

theorem outlineKept_ensureEnv : Keeps outlineKept ensureEnv := by
  unfold ensureEnv
  refine Keeps.bind (outlineKept_of_readOnly readOnly_topFrame) fun f => ?_
  split
  · exact Keeps.pure _
  · refine Keeps.bind outlineKept_currentIndex fun ci => ?_
    refine Keeps.bind (Keeps.outlineKept_of_storeOnly (storeOnly_liftStore _)) fun e => ?_
    exact Keeps.bind (outlineKept_modifyTop fun _ => rfl) fun _ => Keeps.pure _

theorem outlineKept_placeArgs (base : Nat) (recv : Value) (args : Array Value) (kw : Option HashTable)
    (blk : Value) : Keeps outlineKept (placeArgs base recv args kw blk) := by
  unfold placeArgs copyTable
  dsimp only
  repeat' (first
    | with_reducible exact Keeps.pure _
    | with_reducible exact Keeps.outlineKept_of_storeOnly (storeOnly_liftStore _)
    | with_reducible exact outlineKept_setSlot _ _
    | with_reducible exact outlineKept_growStack _
    | with_reducible apply Keeps.forIn_array
    | with_reducible apply Keeps.forIn_list
    | with_reducible apply Keeps.bind
    | split
    | intro _)

theorem readOnly_currentIndex : ReadOnly currentIndex := Keeps.bind Keeps.get fun _ => Keeps.pure _

theorem readOnly_readSlot (ci i : Nat) : ReadOnly (readSlot ci i) := by
  unfold readSlot
  refine Keeps.bind (readOnly_context ci) fun c => ?_
  split
  · exact Keeps.pure _
  · exact Keeps.throw _

theorem readOnly_slot (i : Nat) : ReadOnly (slot i) :=
  Keeps.bind readOnly_currentIndex fun ci => readOnly_readSlot ci i

theorem readOnly_reg (f : Frame) (i : Nat) : ReadOnly (reg f i) := by
  unfold reg
  split
  · exact readOnly_slot _
  · exact Keeps.throw _

theorem readOnly_slots (lo hi : Nat) : ReadOnly (slots lo hi) := by
  unfold slots
  refine Keeps.bind readOnly_currentContext fun c => ?_
  split
  · exact Keeps.pure _
  · exact Keeps.throw _

theorem readOnly_stackTop : ReadOnly stackTop := by
  unfold stackTop
  refine Keeps.bind readOnly_currentContext fun c => ?_
  split <;> exact Keeps.pure _

theorem readOnly_symAt (body : Procedure) (i : Nat) : ReadOnly (symAt body i) := by
  unfold symAt
  split
  · exact Keeps.pure _
  · exact Keeps.throw _

theorem readOnly_childAt (body : Procedure) (i : Nat) : ReadOnly (childAt body i) := by
  unfold childAt
  split
  · exact Keeps.pure _
  · exact Keeps.throw _

theorem readOnly_frameProc (f : Frame) : ReadOnly (frameProc f) := by
  unfold frameProc
  split
  · refine Keeps.bind (readOnly_procOf? _) fun found => ?_
    split
    · exact Keeps.pure _
    · exact Keeps.throw _
  · exact Keeps.throw _

theorem readOnly_upvarEnv (f : Frame) (level : Nat) : ReadOnly (upvarEnv f level) := by
  unfold upvarEnv
  refine Keeps.bind (readOnly_frameProc f) fun d => ?_
  refine Keeps.bind (Keeps.forIn_range _ _ fun _ p => ?_) fun _ => Keeps.pure _
  dsimp only
  split
  · split
    · exact Keeps.bind (readOnly_procOf? _) fun _ => Keeps.pure _
    · exact Keeps.pure _
  · exact Keeps.pure _

theorem readOnly_envGet (r : ObjRef) (i : Nat) : ReadOnly (envGet r i) := by
  unfold envGet
  refine Keeps.bind (readOnly_envData r) fun e => ?_
  split
  · exact Keeps.pure _
  · split
    · split
      · exact Keeps.pure _
      · exact Keeps.throw _
    · exact readOnly_readSlot _ _

theorem readOnly_kdict (f : Frame) (body : Procedure) : ReadOnly (kdict f body) := by
  unfold kdict
  dsimp only
  split
  -- both sides of the bounds test go on to the same register read, one after its fault
  all_goals try refine Keeps.bind (Keeps.throw _) fun _ => ?_
  all_goals
    refine Keeps.bind (readOnly_slot _) fun v => ?_
    split
    · refine Keeps.bind (readOnly_liftStore (Store.readOnly_getObj _)) fun o => ?_
      split <;> exact Keeps.pure _
    · exact Keeps.pure _

theorem readOnly_sliceOf (xs : Array Value) (lo hi : Int) : ReadOnly (sliceOf xs lo hi) := by
  unfold sliceOf
  split
  · exact Keeps.pure _
  · exact Keeps.throw _

theorem readOnly_opSym (op : ArithOp) : ReadOnly (opSym op) :=
  Keeps.bind (readOnly_liftStore Store.readOnly_wellKnown) fun _ => Keeps.pure _

theorem readOnly_codeOf (m : Method) : ReadOnly (codeOf m) := by
  unfold codeOf
  split
  · exact Keeps.pure _
  · exact Keeps.pure _
  · refine Keeps.bind (readOnly_procOf? _) fun found => ?_
    split
    · split <;> exact Keeps.pure _
    · exact Keeps.throw _

theorem readOnly_procSelf (d : ProcData) : ReadOnly (procSelf d) := by
  unfold procSelf
  split
  · exact Keeps.pure _
  · exact Keeps.bind (readOnly_envData _) fun _ => Keeps.bind (readOnly_envGet _ _) fun _ => Keeps.pure _

theorem readOnly_fiberData (r : ObjRef) : ReadOnly (fiberData r) := by
  unfold fiberData
  refine Keeps.bind (readOnly_liftStore (Store.readOnly_getObj r)) fun o => ?_
  split
  · exact Keeps.pure _
  · exact Keeps.throw _

theorem readOnly_frameLabel (f : Frame) : ReadOnly (frameLabel f) := by
  unfold frameLabel
  dsimp only
  repeat' (first
    | with_reducible exact Keeps.pure _
    | with_reducible exact Keeps.get
    | with_reducible exact readOnly_procOf? _
    | with_reducible apply Keeps.bind
    | split
    | intro _)

theorem readOnly_backtrace : ReadOnly backtrace := by
  unfold backtrace
  refine Keeps.bind readOnly_currentContext fun c => ?_
  refine Keeps.bind (Keeps.forIn_array _ _ fun f out => ?_) fun _ => Keeps.pure _
  refine Keeps.bind (readOnly_frameLabel f) fun _ => ?_
  split <;> exact Keeps.pure _

theorem storeOnly_noteBacktrace (exc : Value) : Keeps storeOnly (noteBacktrace exc) := by
  unfold noteBacktrace
  split
  · refine Keeps.bind (storeOnly_liftStore _) fun o => ?_
    split
    · exact Keeps.bind (ReadOnly.storeOnly readOnly_backtrace) fun _ => storeOnly_liftStore _
    · exact Keeps.pure _
  · exact Keeps.pure _

theorem storeOnly_literalAt (body : Procedure) (i : Nat) : Keeps storeOnly (literalAt body i) := by
  unfold literalAt
  split
  · exact Keeps.throw _
  · split
    · exact Keeps.pure _
    · split
      · exact Keeps.pure _
      · exact storeOnly_liftStore _

theorem readOnly_liveEnvFrame (env : Option ObjRef) : ReadOnly (breakTarget.liveEnvFrame env) := by
  unfold breakTarget.liveEnvFrame
  split
  · exact Keeps.pure _
  · refine Keeps.bind (readOnly_envData _) fun e => ?_
    split
    · exact Keeps.bind readOnly_currentIndex fun _ => by split <;> exact Keeps.pure _
    · exact Keeps.pure _

theorem storeOnly_breakTarget (f : Frame) : Keeps storeOnly (breakTarget f) := by
  unfold breakTarget
  refine Keeps.bind (ReadOnly.storeOnly (readOnly_frameProc f)) fun d => ?_
  have err : Keeps storeOnly (do pure (Except.error (← newErr (·.localJumpError) "break from proc-closure")) :
      MachineM (Except Value Nat)) :=
    Keeps.bind (storeOnly_liftStore _) fun _ => Keeps.pure _
  dsimp only
  split
  · exact Keeps.bind err fun _ => Keeps.pure _
  · refine Keeps.bind (ReadOnly.storeOnly (readOnly_liveEnvFrame _)) fun t => ?_
    split
    · split
      · exact err
      · exact Keeps.pure _
    · exact err

theorem readOnly_climb (env up : Option ObjRef) (fuel : Nat) : ReadOnly (returnTarget.climb env up fuel) := by
  induction fuel generalizing env up with
  | zero => exact Keeps.pure _
  | succ fuel ih =>
    unfold returnTarget.climb
    split
    · exact Keeps.pure _
    · refine Keeps.bind (readOnly_procOf? _) fun found => ?_
      split
      · split
        · exact ih _ _
        · exact Keeps.pure _
      · exact Keeps.pure _

theorem storeOnly_returnTarget (f : Frame) : Keeps storeOnly (returnTarget f) := by
  unfold returnTarget
  refine Keeps.bind (ReadOnly.storeOnly (readOnly_frameProc f)) fun d => ?_
  refine Keeps.bind Keeps.get fun _ => ?_
  refine Keeps.bind (ReadOnly.storeOnly (readOnly_climb _ _ _)) fun env => ?_
  refine Keeps.bind (ReadOnly.storeOnly (readOnly_liveEnvFrame _)) fun t => ?_
  split
  · exact Keeps.pure _
  · exact Keeps.bind (storeOnly_liftStore _) fun _ => Keeps.pure _

theorem storeOnly_ivarSet (self : Value) (sym : Sym) (v : Value) : Keeps storeOnly (ivarSet self sym v) := by
  unfold ivarSet
  split
  · refine Keeps.bind (storeOnly_liftStore _) fun o => ?_
    split
    · exact Keeps.bind (storeOnly_liftStore _) fun _ => Keeps.pure _
    · exact Keeps.bind (storeOnly_liftStore _) fun _ => Keeps.pure _
  · exact Keeps.bind (storeOnly_liftStore _) fun _ => Keeps.pure _

theorem storeOnly_newProc (body : Procedure) (upper env : Option ObjRef) (strict : Bool) (target : ObjRef) :
    Keeps storeOnly (newProc body upper env strict target) := by
  unfold newProc
  dsimp only
  repeat' (first
    | with_reducible exact Keeps.pure _
    | with_reducible exact storeOnly_liftStore _
    | with_reducible exact ReadOnly.storeOnly (readOnly_procOf? _)
    | with_reducible apply Keeps.bind
    | split
    | intro _)

theorem storeOnly_checkBlock (blk : Value) : Keeps storeOnly (checkBlock blk) := by
  unfold checkBlock
  repeat' (first
    | with_reducible exact Keeps.pure _
    | with_reducible exact storeOnly_liftStore _
    | with_reducible exact ReadOnly.storeOnly (readOnly_procOf? _)
    | with_reducible apply Keeps.bind
    | split
    | intro _)

theorem storeOnly_rawArgs (base argc kwc : Nat) : Keeps storeOnly (rawArgs base argc kwc) := by
  unfold rawArgs copyTable
  dsimp only
  repeat' (first
    | with_reducible exact Keeps.pure _
    | with_reducible exact storeOnly_liftStore _
    | with_reducible exact ReadOnly.storeOnly (readOnly_slot _)
    | with_reducible exact ReadOnly.storeOnly (readOnly_slots _ _)
    | with_reducible apply Keeps.forIn_range
    | with_reducible apply Keeps.bind
    | split
    | intro _)

theorem storeOnly_packValues (vals : Array Value) : Keeps storeOnly (Native.packValues vals) := by
  unfold Native.packValues
  split
  · exact Keeps.pure _
  · split
    · exact Keeps.pure _
    · exact storeOnly_liftStore _

theorem storeOnly_nativeCall (self : Value) : Keeps storeOnly (nativeCall self) :=
  Keeps.bind (ReadOnly.storeOnly readOnly_topFrame) fun _ =>
    Keeps.bind (storeOnly_rawArgs _ _ _) fun _ => Keeps.pure _

end Machine

end RegisterVM
