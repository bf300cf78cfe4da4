import RegisterVM.Proofs.Class.Super
import RegisterVM.Proofs.Machine.Parameters

set_option autoImplicit false

namespace RegisterVM

namespace Machine

open Store

variable {m : Machine} {f : Frame} {a : Nat}

theorem superSend_outside (top : m.top? = some f) (outside : f.owner = none ∨ f.mid = Sym.none)
    (callOperand : Nat) :
    (superSend a callOperand).run m =
      (do unwind (← liftStore (Store.newError (·.runtimeError) "super called outside of method"))).run m := by
  simp only [superSend]
  rw [EStateM.run_bind, topFrame_run, top]
  dsimp only
  rcases outside with none | unnamed
  · rw [none]
  · cases f.owner with
    | none => rfl
    | some o =>
      simp only [unnamed, beq_self_eq_true, if_true]

theorem growStack_run_of_le {n : Nat} (live : m.current < m.contexts.size) (room : n ≤ m.stack.size) :
    (growStack n).run m = .ok () m := by
  obtain ⟨c, found⟩ : ∃ c, m.contexts[m.current]? = some c := ⟨_, Array.getElem?_eq_getElem live⟩
  have fits : n ≤ c.stack.size := by simpa [stack, found] using room
  show EStateM.Result.ok () (m.updCurrent _) = _
  congr 1
  cases m
  simp only [updCurrent, Machine.mk.injEq, and_true, true_and]
  apply Array.ext (by simp)
  intro j within _
  rw [Array.getElem_modify]
  split
  · rename_i same
    subst same
    have here := Array.getElem?_eq_some_iff.mp found
    simp [here.2, fits]
  · rfl

theorem superSend_inside (top : m.top? = some f) {o : ObjRef} (owner : f.owner = some o)
    (named : f.mid ≠ Sym.none) {callOperand : Nat} {self : Value} {s : Option ObjRef}
    (noBlock : m.stack[f.base + a + 1 + argSlots (callCounts callOperand).1 +
      kwSlots (callCounts callOperand).2]? = some .nil)
    (selfAt : m.stack[f.base]? = some self)
    (linked : (Store.superOf o).run m.store = .ok s m.store) :
    (superSend a callOperand).run m =
      (dispatch a self s f.mid (callCounts callOperand).1 (callCounts callOperand).2 true).run
        (m.withSlot (f.base + a) self) := by
  have live := live_of_top top
  have within := (Array.getElem?_eq_some_iff.mp noBlock).1
  simp only [superSend]
  rw [EStateM.run_bind, topFrame_run, top]
  dsimp only
  rw [owner]
  dsimp only
  have unnamed : (f.mid == Sym.none) = false := by simpa using named
  rw [unnamed]
  simp only [Bool.false_eq_true, if_false]
  rw [run_bind_of_ok (growStack_run_of_le live (by omega)), run_bind_of_ok (by rw [slot_run, noBlock]),
    run_bind_of_ok (show (checkBlock .nil).run m = .ok none m from rfl)]
  dsimp only
  rw [run_bind_of_ok (by rw [slot_run, selfAt]),
    run_bind_of_ok (by rw [setSlot_run, if_pos (by omega)]),
    run_bind_of_ok (liftStore_run_ok (m := m.withSlot (f.base + a) self) linked)]
  -- writing a slot leaves the store as it was
  rfl

variable {recv : Value} {cls : Option ObjRef} {mid : Sym} {argc kwc : Nat} {isSuper : Bool}

theorem dispatch_found (top : m.top? = some f) {st : Store} {meth : Method} {owner : ObjRef}
    (looked : (Store.resolve cls mid).run m.store = .ok (some (meth, owner)) st) :
    (dispatch a recv cls mid argc kwc isSuper).run m =
      (invokeAt (f.base + a) a recv meth (some owner) mid argc kwc).run (m.withStore st) := by
  simp only [dispatch]
  rw [EStateM.run_bind, topFrame_run, top]
  dsimp only
  rw [run_bind_of_ok (liftStore_run_ok (wellKnown_run_store _)), withStore_store,
    run_bind_of_ok (liftStore_run_ok looked)]

theorem getElem?_clear_below (lo : Nat) {i : Nat} (below : i < lo) :
    ∀ (js : List Nat) (st : Array Value), (js.foldl (fun st j => st.set! (lo + j) .nil) st)[i]? = st[i]? := by
  intro js
  induction js with
  | nil => intro st; rfl
  | cons j js ih =>
    intro st
    rw [List.foldl_cons, ih]
    simp only [Array.set!_eq_setIfInBounds, Array.getElem?_setIfInBounds]
    rw [if_neg (by omega)]

theorem getElem?_grown {c : Context} {n i : Nat} (inside : i < c.stack.size) :
    (if n ≤ c.stack.size then c
      else { c with stack := c.stack ++ Array.replicate (max (2 * c.stack.size) n - c.stack.size) .nil }).stack[i]? =
      c.stack[i]? := by
  split
  · rfl
  · exact Array.getElem?_append_left inside

theorem top?_updCurrent_push (live : m.current < m.contexts.size) (f : Frame) :
    (m.updCurrent fun c => { c with frames := c.frames.push f }).top? = some f := by
  simp [top?, frames, updCurrent, Array.getElem?_modify, Array.getElem?_eq_getElem live]

theorem pushFrame_pushes {code : FrameCode} {base argc kwc : Nat} {mid : Sym} {owner : Option ObjRef}
    {acc : Int} {blk : Value} {kind : CallKind} (live : m.current < m.contexts.size)
    (room : m.frames.size < m.limits.maxDepth) :
    ∃ m', (pushFrame code base argc kwc mid owner acc blk kind).run m = .ok none m' ∧
      m'.store = m.store ∧ m'.mode = m.mode ∧
      (∀ i < m.stack.size, i < base + (1 + argSlots argc + kwSlots kwc + 1) → m'.stack[i]? = m.stack[i]?) ∧
      ∃ serial nregs, m'.top? = some { serial, base, nregs, code, argc, kwc, kind, mid, owner, acc, blk } := by
  obtain ⟨c, stored⟩ : ∃ c, m.contexts[m.current]? = some c := ⟨_, Array.getElem?_eq_getElem live⟩
  have fits : ¬ c.frames.size ≥ m.limits.maxDepth := by
    simp only [frames, stored, Option.map_some, Option.getD_some] at room
    omega
  unfold pushFrame
  rw [run_bind_of_ok (by rw [currentContext_run, stored]),
    run_bind_of_ok (show (get : MachineM Machine).run m = .ok m m from rfl)]
  dsimp only
  rw [if_neg fits]
  refine ⟨_, rfl, rfl, rfl, ?_, _, _, top?_updCurrent_push (by simpa [updCurrent] using live) _⟩
  intro i inside below
  have inside' : i < c.stack.size := by simpa [stack, stored] using inside
  simp only [stack, Array.getElem?_modify, stored, if_true, Option.map_some, Option.getD_some]
  rw [getElem?_clear_below _ below]
  exact getElem?_grown inside'

theorem codeOf_compiled {r : ObjRef} {d : ProcData} {body : Procedure}
    (proc : m.store.bodyAt r = some (.proc d)) (compiled : d.code = .compiled body) :
    (codeOf (.proc r)).run m = .ok (some (.inl (r, body))) m := by
  obtain ⟨o, stored, shape⟩ : ∃ o, m.store.heap[r.idx]? = some o ∧ o.body = .proc d := by
    simpa [Store.bodyAt] using proc
  simp only [codeOf, procOf?, EStateM.run_bind, liftStore_run, Store.procOf?, Store.getObj, EStateM.run_get, stored]
  cases o with
  | mk _ _ _ _ b =>
    subst shape
    simp only [EStateM.run_pure, compiled]

theorem invokeAt_compiled {base acc argc kwc : Nat} {recv : Value} {meth : Method} {owner : Option ObjRef}
    {mid : Sym} {r : ObjRef} {body : Procedure} {blk : Value} (live : m.current < m.contexts.size)
    (notCall : isProcEntry meth m.store.core.procCall = false)
    (code : (codeOf meth).run m = .ok (some (.inl (r, body))) m)
    (blkAt : m.stack[base + 1 + argSlots argc + kwSlots kwc]? = some blk)
    (room : m.frames.size < m.limits.maxDepth) :
    ∃ m', (invokeAt base acc recv meth owner mid argc kwc).run m = .ok () m' ∧ m'.mode = .run ∧
      m'.store = m.store ∧
      (∀ i < m.stack.size, i < base + (1 + argSlots argc + kwSlots kwc + 1) → m'.stack[i]? = m.stack[i]?) ∧
      ∃ serial nregs, m'.top? = some
        { serial, base, nregs, code := .compiled r body, argc, kwc, kind := .vm, mid, owner, acc, blk } := by
  obtain ⟨m', pushed, store, -, kept, top⟩ :=
    @pushFrame_pushes m (.compiled r body) base argc kwc mid owner acc blk .vm live room
  unfold invokeAt
  rw [run_bind_of_ok (liftStore_run_ok (wellKnown_run_store _)), withStore_store,
    run_bind_of_ok (by rw [slot_run, blkAt])]
  dsimp only
  simp only [notCall, Bool.false_eq_true, if_false]
  rw [run_bind_of_ok code]
  dsimp only
  rw [run_bind_of_ok pushed]
  exact ⟨_, rfl, rfl, store, kept, top⟩

section Missing

variable {st st' : Store} {k : Option ObjRef}

theorem dispatch_missing (top : m.top? = some f) {missing : Option (Method × ObjRef)}
    (looked : (Store.resolve cls mid).run m.store = .ok none st)
    (classOf : (Store.classOf recv).run st = .ok k st)
    (lookedMissing : (Store.resolve k m.store.core.symMethodMissing).run st = .ok missing st')
    {x : MachineM Unit}
    (next : ∀ m', m'.store = st' → (match missing with
      | some (meth, owner) =>
        if (mid == m.store.core.symMethodMissing || isProcEntry meth m.store.core.defaultMissing) = true then do
          unwind (← noMethodError recv mid isSuper)
        else do
          let args ← rawArgs (f.base + a) argc kwc
          let placed ← placeArgs (f.base + a) recv (#[Value.sym mid] ++ args.1) args.2.1 args.2.2
          invokeAt (f.base + a) a recv meth (some owner) m.store.core.symMethodMissing placed.1 placed.2
      | none => do unwind (← noMethodError recv mid isSuper)).run m' = x.run m') :
    (dispatch a recv cls mid argc kwc isSuper).run m = x.run (m.withStore st') := by
  simp only [dispatch]
  rw [EStateM.run_bind, topFrame_run, top]
  dsimp only
  rw [run_bind_of_ok (liftStore_run_ok (wellKnown_run_store _)), withStore_store,
    run_bind_of_ok (liftStore_run_ok looked)]
  dsimp only
  rw [run_bind_of_ok (liftStore_run_ok classOf), withStore_withStore,
    run_bind_of_ok (liftStore_run_ok lookedMissing), withStore_withStore]
  exact next _ rfl

theorem dispatch_calls_method_missing (top : m.top? = some f) {meth : Method} {owner : ObjRef}
    (looked : (Store.resolve cls mid).run m.store = .ok none st)
    (classOf : (Store.classOf recv).run st = .ok k st)
    (lookedMissing : (Store.resolve k m.store.core.symMethodMissing).run st = .ok (some (meth, owner)) st')
    (other : (mid == m.store.core.symMethodMissing) = false)
    (own : isProcEntry meth m.store.core.defaultMissing = false) :
    (dispatch a recv cls mid argc kwc isSuper).run m =
      (do
        let args ← rawArgs (f.base + a) argc kwc
        let placed ← placeArgs (f.base + a) recv (#[Value.sym mid] ++ args.1) args.2.1 args.2.2
        invokeAt (f.base + a) a recv meth (some owner) m.store.core.symMethodMissing placed.1 placed.2).run
        (m.withStore st') :=
  dispatch_missing top looked classOf lookedMissing fun _ _ => by simp only [other, own, Bool.or_false,
    Bool.false_eq_true, if_false]

theorem dispatch_raises_noMethodError (top : m.top? = some f) {missing : Option (Method × ObjRef)}
    (looked : (Store.resolve cls mid).run m.store = .ok none st)
    (classOf : (Store.classOf recv).run st = .ok k st)
    (lookedMissing : (Store.resolve k m.store.core.symMethodMissing).run st = .ok missing st')
    (noneOwn : ∀ meth owner, missing = some (meth, owner) →
      (mid == m.store.core.symMethodMissing || isProcEntry meth m.store.core.defaultMissing) = true) :
    (dispatch a recv cls mid argc kwc isSuper).run m =
      (do unwind (← noMethodError recv mid isSuper)).run (m.withStore st') := by
  refine dispatch_missing top looked classOf lookedMissing fun _ _ => ?_
  cases missing with
  | none => rfl
  | some found =>
    obtain ⟨meth, owner⟩ := found
    simp only [noneOwn meth owner rfl, if_true]

end Missing

theorem superSend_continues_walk {m : Machine} {f : Frame} {a callOperand : Nat}
    (settled : GraphSettled m.store) (top : m.top? = some f) {o : ObjRef} {l : List ObjRef} {self : Value}
    (owner : f.owner = some o) (named : f.mid ≠ Sym.none) (chain : Chain m.store (some o) (o :: l))
    (noBlock : m.stack[f.base + a + 1 + argSlots (callCounts callOperand).1 +
      kwSlots (callCounts callOperand).2]? = some .nil)
    (selfAt : m.stack[f.base]? = some self) :
    (∀ (meth : Method) (o' r : ObjRef) (d : ProcData) (body : Procedure),
      nextDefinition (m.store.entriesAlong f.mid l) = some (meth, o') → meth = .proc r →
      m.store.bodyAt r = some (.proc d) → d.code = .compiled body →
      isProcEntry meth m.store.core.procCall = false → m.frames.size < m.limits.maxDepth →
      ∃ m', (superSend a callOperand).run m = .ok () m' ∧ m'.mode = .run ∧ m'.stack[f.base + a]? = some self ∧
        ∃ serial nregs, m'.top? = some
          { serial, base := f.base + a, nregs, code := .compiled r body, argc := (callCounts callOperand).1,
            kwc := (callCounts callOperand).2, kind := .vm, mid := f.mid, owner := some o', acc := a,
            blk := .nil }) ∧
    (nextDefinition (m.store.entriesAlong f.mid l) = none →
      ∀ (k : Option ObjRef) (missing : Option (Method × ObjRef)) (s' : Store),
      (classOf self).run m.store = .ok k m.store →
      (resolve k m.store.core.symMethodMissing).run m.store = .ok missing s' →
      (∀ meth owner, missing = some (meth, owner) → (f.mid == m.store.core.symMethodMissing) = false →
        isProcEntry meth m.store.core.defaultMissing = false →
        ∃ t, (superSend a callOperand).run m =
          (do
            let args ← rawArgs (f.base + a) (callCounts callOperand).1 (callCounts callOperand).2
            let placed ← placeArgs (f.base + a) self (#[Value.sym f.mid] ++ args.1) args.2.1 args.2.2
            invokeAt (f.base + a) a self meth (some owner) m.store.core.symMethodMissing placed.1 placed.2).run
            ((m.withSlot (f.base + a) self).withStore t)) ∧
      ((∀ meth owner, missing = some (meth, owner) →
        (f.mid == m.store.core.symMethodMissing || isProcEntry meth m.store.core.defaultMissing) = true) →
        ∃ t, (superSend a callOperand).run m =
          (do unwind (← noMethodError self f.mid true)).run ((m.withSlot (f.base + a) self).withStore t))) := by
  have moored := settled.reachable.moored
  have acyclic := settled.reachable.acyclic
  have coherent := settled.coherent
  obtain ⟨s, linked, rest⟩ : ∃ s, (superOf o).run m.store = .ok s m.store ∧ Chain m.store s l := by
    cases chain with
    | @cons _ s _ linked rest =>
      have next : (m.store.nodeAt o).map (·.super) = some s := by rw [← link_eq_nodeAt]; exact linked
      exact ⟨_, by rw [superOf_run, next, answerIn_some], rest⟩
  have step := superSend_inside top owner named noBlock selfAt linked
  obtain ⟨t, looked⟩ := resolve_nextDefinition moored coherent rest f.mid
  obtain ⟨coherentT, heapT, coreT⟩ := coherent_resolve acyclic coherent looked
  have within := (Array.getElem?_eq_some_iff.mp noBlock).1
  -- writing the receiver's slot moves no frame and keeps the store
  have top' : (m.withSlot (f.base + a) self).top? = some f := by rw [top?_withSlot, top]
  refine ⟨fun meth o' r d body next isProc proc compiled notCall room => ?_, fun none k missing s' classOf lookedMissing => ?_⟩
  · rw [next] at looked
    rw [step, dispatch_found top' looked]
    subst isProc
    have proc' : ((m.withSlot (f.base + a) self).withStore t).store.bodyAt r = some (.proc d) := by
      simpa [Store.bodyAt, heapT] using proc
    have slots : ((m.withSlot (f.base + a) self).withStore t).stack = m.stack.set! (f.base + a) self := by
      rw [stack_withStore, stack_withSlot]
    have blkAt : ((m.withSlot (f.base + a) self).withStore t).stack[f.base + a + 1 +
        argSlots (callCounts callOperand).1 + kwSlots (callCounts callOperand).2]? = some .nil := by
      rw [slots, Array.set!_eq_setIfInBounds, Array.getElem?_setIfInBounds_ne (by omega)]
      exact noBlock
    have room' : ((m.withSlot (f.base + a) self).withStore t).frames.size <
        ((m.withSlot (f.base + a) self).withStore t).limits.maxDepth := by
      rw [show ((m.withSlot (f.base + a) self).withStore t).frames = m.frames from frames_withSlot _ _ _]
      exact room
    obtain ⟨m', ran, mode, -, kept, pushed⟩ := invokeAt_compiled (live_of_top (by rw [top?_withStore, top']))
      (by simpa [coreT] using notCall) (codeOf_compiled proc' compiled) blkAt room'
    refine ⟨m', ran, mode, ?_, pushed⟩
    rw [kept _ (by simp [slots]; omega) (by omega), slots, Array.set!_eq_setIfInBounds,
      Array.getElem?_setIfInBounds_self_of_lt (by omega)]
  · rw [none] at looked
    -- the receiver's class and its method_missing read the same after the first lookup
    have classOf' := classOf_of_heap heapT coreT classOf
    obtain ⟨t', lookedMissing'⟩ := resolve_of_heap acyclic coherent coherentT heapT lookedMissing
    refine ⟨fun meth owner found other own => ⟨t', ?_⟩, fun raises => ⟨t', ?_⟩⟩
    · subst found
      rw [step]
      exact dispatch_calls_method_missing top' looked classOf' lookedMissing' other own
    · rw [step]
      exact dispatch_raises_noMethodError top' looked classOf' lookedMissing' raises

theorem super_finds_later_definitions_once {m : Machine} {f : Frame} {a callOperand : Nat}
    (settled : GraphSettled m.store) (top : m.top? = some f) :
    (∀ (cls : Option ObjRef) (l : List ObjRef) (mid : Sym), Chain m.store cls l →
      ((m.store.entriesAlong mid l).map Prod.snd).Sublist l ∧
      ((m.store.entriesAlong mid l).map Prod.snd).Nodup ∧
      (∃ t, (resolve cls mid).run m.store = .ok (nextDefinition (m.store.entriesAlong mid l)) t) ∧
      ∀ meth o rest, m.store.entriesAlong mid l = (meth, o) :: rest →
        ∀ ws, SuperWalk m.store mid o ws ↔ ws = rest.takeWhile (·.1.defined)) ∧
    ((f.owner = none ∨ f.mid = Sym.none) →
      (superSend a callOperand).run m =
        (do unwind (← liftStore (Store.newError (·.runtimeError) "super called outside of method"))).run m) ∧
    ∀ (o : ObjRef) (l : List ObjRef) (self : Value), f.owner = some o → f.mid ≠ Sym.none →
      Chain m.store (some o) (o :: l) →
      m.stack[f.base + a + 1 + argSlots (callCounts callOperand).1 +
        kwSlots (callCounts callOperand).2]? = some .nil →
      m.stack[f.base]? = some self →
      (∀ (meth : Method) (o' r : ObjRef) (d : ProcData) (body : Procedure),
        nextDefinition (m.store.entriesAlong f.mid l) = some (meth, o') → meth = .proc r →
        m.store.bodyAt r = some (.proc d) → d.code = .compiled body →
        isProcEntry meth m.store.core.procCall = false → m.frames.size < m.limits.maxDepth →
        ∃ m', (superSend a callOperand).run m = .ok () m' ∧ m'.mode = .run ∧
          m'.stack[f.base + a]? = some self ∧
          ∃ serial nregs, m'.top? = some
            { serial, base := f.base + a, nregs, code := .compiled r body, argc := (callCounts callOperand).1,
              kwc := (callCounts callOperand).2, kind := .vm, mid := f.mid, owner := some o', acc := a,
              blk := .nil }) ∧
      (nextDefinition (m.store.entriesAlong f.mid l) = none →
        ∀ (k : Option ObjRef) (missing : Option (Method × ObjRef)) (s' : Store),
        (classOf self).run m.store = .ok k m.store →
        (resolve k m.store.core.symMethodMissing).run m.store = .ok missing s' →
        (∀ meth owner, missing = some (meth, owner) → (f.mid == m.store.core.symMethodMissing) = false →
          isProcEntry meth m.store.core.defaultMissing = false →
          ∃ t, (superSend a callOperand).run m =
            (do
              let args ← rawArgs (f.base + a) (callCounts callOperand).1 (callCounts callOperand).2
              let placed ← placeArgs (f.base + a) self (#[Value.sym f.mid] ++ args.1) args.2.1 args.2.2
              invokeAt (f.base + a) a self meth (some owner) m.store.core.symMethodMissing placed.1 placed.2).run
              ((m.withSlot (f.base + a) self).withStore t)) ∧
        ((∀ meth owner, missing = some (meth, owner) →
          (f.mid == m.store.core.symMethodMissing || isProcEntry meth m.store.core.defaultMissing) = true) →
          ∃ t, (superSend a callOperand).run m =
            (do unwind (← noMethodError self f.mid true)).run ((m.withSlot (f.base + a) self).withStore t))) :=
  ⟨fun _ _ mid chain => super_walks_later_definitions settled chain mid,
    fun outside => superSend_outside top outside callOperand,
    fun _ _ _ owner named chain noBlock selfAt => superSend_continues_walk settled top owner named chain noBlock selfAt⟩

def bootFrame : Frame :=
  { serial := 0, base := 0, nregs := 1, code := .compiled ⟨0⟩ {}, argc := 0, kwc := 0, kind := .vm,
    mid := Sym.none, owner := none, acc := 0, blk := .nil }

def bootCall : Machine :=
  { store := endState (Store.boot.run {}), contexts := #[{ stack := #[.nil], frames := #[bootFrame] }] }

theorem booted_top_level_super :
    GraphSettled bootCall.store ∧ bootCall.top? = some bootFrame ∧
    (∀ (cls : Option ObjRef) (l : List ObjRef) (mid : Sym), Chain bootCall.store cls l →
      ((bootCall.store.entriesAlong mid l).map Prod.snd).Sublist l ∧
      ((bootCall.store.entriesAlong mid l).map Prod.snd).Nodup ∧
      (∃ t, (resolve cls mid).run bootCall.store = .ok (nextDefinition (bootCall.store.entriesAlong mid l)) t) ∧
      ∀ meth o rest, bootCall.store.entriesAlong mid l = (meth, o) :: rest →
        ∀ ws, SuperWalk bootCall.store mid o ws ↔ ws = rest.takeWhile (·.1.defined)) ∧
    ((bootFrame.owner = none ∨ bootFrame.mid = Sym.none) →
      (superSend 0 0).run bootCall =
        (do unwind (← liftStore (Store.newError (·.runtimeError) "super called outside of method"))).run bootCall) ∧
    ∀ (o : ObjRef) (l : List ObjRef) (self : Value), bootFrame.owner = some o → bootFrame.mid ≠ Sym.none →
      Chain bootCall.store (some o) (o :: l) →
      bootCall.stack[bootFrame.base + 0 + 1 + argSlots (callCounts 0).1 +
        kwSlots (callCounts 0).2]? = some .nil →
      bootCall.stack[bootFrame.base]? = some self →
      (∀ (meth : Method) (o' r : ObjRef) (d : ProcData) (body : Procedure),
        nextDefinition (bootCall.store.entriesAlong bootFrame.mid l) = some (meth, o') → meth = .proc r →
        bootCall.store.bodyAt r = some (.proc d) → d.code = .compiled body →
        isProcEntry meth bootCall.store.core.procCall = false → bootCall.frames.size < bootCall.limits.maxDepth →
        ∃ m', (superSend 0 0).run bootCall = .ok () m' ∧ m'.mode = .run ∧
          m'.stack[bootFrame.base + 0]? = some self ∧
          ∃ serial nregs, m'.top? = some
            { serial, base := bootFrame.base + 0, nregs, code := .compiled r body, argc := (callCounts 0).1,
              kwc := (callCounts 0).2, kind := .vm, mid := bootFrame.mid, owner := some o', acc := 0,
              blk := .nil }) ∧
      (nextDefinition (bootCall.store.entriesAlong bootFrame.mid l) = none →
        ∀ (k : Option ObjRef) (missing : Option (Method × ObjRef)) (s' : Store),
        (classOf self).run bootCall.store = .ok k bootCall.store →
        (resolve k bootCall.store.core.symMethodMissing).run bootCall.store = .ok missing s' →
        (∀ meth owner, missing = some (meth, owner) → (bootFrame.mid == bootCall.store.core.symMethodMissing) = false →
          isProcEntry meth bootCall.store.core.defaultMissing = false →
          ∃ t, (superSend 0 0).run bootCall =
            (do
              let args ← rawArgs (bootFrame.base + 0) (callCounts 0).1 (callCounts 0).2
              let placed ← placeArgs (bootFrame.base + 0) self (#[Value.sym bootFrame.mid] ++ args.1) args.2.1 args.2.2
              invokeAt (bootFrame.base + 0) 0 self meth (some owner) bootCall.store.core.symMethodMissing placed.1 placed.2).run
              ((bootCall.withSlot (bootFrame.base + 0) self).withStore t)) ∧
        ((∀ meth owner, missing = some (meth, owner) →
          (bootFrame.mid == bootCall.store.core.symMethodMissing || isProcEntry meth bootCall.store.core.defaultMissing) = true) →
          ∃ t, (superSend 0 0).run bootCall =
            (do unwind (← noMethodError self bootFrame.mid true)).run ((bootCall.withSlot (bootFrame.base + 0) self).withStore t))) := by
  have settled : GraphSettled bootCall.store := by
    dsimp only [bootCall]
    exact .boot
  exact ⟨settled, rfl, @super_finds_later_definitions_once bootCall bootFrame 0 0 settled rfl⟩

def missingNode : ClassNode :=
  { kind := .ordinary, super := none, methods := ({} : Std.HashMap Sym Method).insert ⟨1⟩ (.proc ⟨1⟩) }

def missingStore : Store :=
  { heap := #[{ cls := none, body := .cls missingNode }, { cls := none, body := .proc { code := .compiled {} } },
      { cls := some ⟨0⟩, body := .plain }],
    core := { symMethodMissing := ⟨1⟩, defaultMissing := ⟨3⟩, procCall := ⟨3⟩ } }

def missingFrame : Frame :=
  { serial := 0, base := 0, nregs := 4, code := .compiled ⟨1⟩ {}, argc := 0, kwc := 0, kind := .vm,
    mid := ⟨2⟩, owner := some ⟨0⟩, acc := 0, blk := .nil }

def missingCall : Machine :=
  { store := missingStore,
    contexts := #[{ stack := #[.obj ⟨2⟩, .nil, .nil, .nil], frames := #[missingFrame] }] }

theorem super_miss_runs_method_missing :
    (endState ((superSend 1 0).run missingCall)).mode = .run ∧
    (endState ((superSend 1 0).run missingCall)).top?.map (fun f => (f.mid, f.owner)) =
      some (missingStore.core.symMethodMissing, some ⟨0⟩) := by
  -- the class has no superclass, so the walk from above it finds nothing
  have looked : (resolve none ⟨2⟩).run missingStore =
      .ok none { missingStore with cache := missingStore.cache.insert (none, ⟨2⟩) (.undef, none) } := by
    simp only [resolve, lookupAnswer, lookup, chainFuel, bind_pure_comp, bind_map_left, lookup.go,
      LawfulMonadStateOf.get_map_const, pure_bind, missingStore, missingNode, EStateM.run_bind, EStateM.run_get,
      Std.HashMap.not_mem_empty, not_false_eq_true, getElem?_neg]
    rfl
  have missing : (resolve (some ⟨0⟩) ⟨1⟩).run
      { missingStore with cache := missingStore.cache.insert (none, ⟨2⟩) (.undef, none) } =
      .ok (some (.proc ⟨1⟩, ⟨0⟩))
        { missingStore with
          cache := (missingStore.cache.insert (none, ⟨2⟩) (.undef, none)).insert (some ⟨0⟩, ⟨1⟩)
            (.proc ⟨1⟩, some ⟨0⟩) } := by
    simp only [resolve, lookupAnswer, lookup, chainFuel, bind_pure_comp, bind_map_left, lookup.go, tableOf, node,
      getObj, bind_assoc, map_bind, Std.HashMap.get?_eq_getElem?, LawfulMonadStateOf.get_bind_get_bind, missingStore,
      missingNode, EStateM.run_bind, EStateM.run_get, Std.HashMap.mem_insert, beq_iff_eq, Prod.mk.injEq, reduceCtorEq,
      Sym.mk.injEq, Nat.succ_ne_self, and_self, Std.HashMap.not_mem_empty, or_self, not_false_eq_true, getElem?_neg,
      List.size_toArray, List.length_cons, List.length_nil, Nat.zero_add, Nat.reduceAdd, Nat.zero_lt_succ, getElem?_pos,
      List.getElem_toArray, List.getElem_cons_zero, pure_bind, BEq.rfl, or_false, Std.HashMap.getElem_insert_self]
    rfl
  rw [superSend_inside (f := missingFrame) rfl rfl (by decide) (by decide)
    (show missingCall.stack[missingFrame.base]? = some (.obj ⟨2⟩) from rfl) rfl,
    dispatch_calls_method_missing rfl looked
      (show (classOf (.obj ⟨2⟩)).run _ = .ok (some ⟨0⟩) _ from rfl) missing rfl rfl]
  exact ⟨rfl, rfl⟩

end Machine

end RegisterVM
