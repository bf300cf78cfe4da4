import RegisterVM.Proofs.Machine.Discipline

set_option autoImplicit false

namespace RegisterVM

namespace Machine

def Busy (m : Machine) : Prop := Live m ∧ m.HasTop

theorem Busy.of_outlineKept {m m' : Machine} (h : Busy m) (kept : outlineKept.rel m m') : Busy m' :=
  ⟨h.1.of_outlineKept kept, h.2.of_outlineKept kept⟩

theorem Busy.stable : ∀ m m', Busy m → outlineKept.rel m m' → Busy m' :=
  fun _ _ h kept => h.of_outlineKept kept

theorem Busy.room {m : Machine} (h : Busy m) (kind : CallKind) : Room kind m :=
  ⟨h.1, .inr (.inl h.2)⟩

theorem Guards.bind_get {α : Type} {P : Machine → Prop} {Q : α → Machine → Prop}
    {g : Machine → MachineM α} (h : ∀ m, Guards (fun s => P s ∧ s = m) Q (g m)) :
    Guards P Q (get >>= g) := by
  intro m a m' pre run
  rw [EStateM.run_bind] at run
  exact h m m a m' ⟨pre, rfl⟩ run

section Closing

theorem guards_runtimeFault {α : Type} {P : Machine → Prop} {Q : α → Machine → Prop} :
    Guards P Q (runtimeFault : MachineM α) := Guards.throw _

theorem guards_panic {α : Type} {P : Machine → Prop} {Q : α → Machine → Prop} (msg : String) :
    Guards P Q (panic msg : MachineM α) := Guards.throw _

theorem guards_next : Guards Busy (fun _ => Disciplined) (setMode .run) :=
  guards_run.mono (fun _ h => h.1) fun _ _ post => post

theorem guards_busy_fatal (err : Fatal) : Guards Busy (fun _ => Disciplined) (setMode (.fatal err)) :=
  (guards_fatal err).mono (fun _ h => h.1) fun _ _ post => post

theorem guards_busy_unwind (exc : Value) : Guards Busy (fun _ => Disciplined) (unwind exc) :=
  (guards_unwind exc).mono (fun _ h => h.1) fun _ _ post => post

theorem guards_busy_returnFrom (v : Value) : Guards Busy (fun _ => Disciplined) (returnFrom v) :=
  (guards_returnFrom v).mono (fun _ h => h.1) fun _ _ post => post

theorem guards_busy_nativeRaise (exc : Value) :
    Guards Busy (fun _ => Disciplined) (nativeRaise exc) :=
  (guards_nativeRaise exc).mono (fun _ h => h.1) fun _ _ post => post

theorem guards_busy_pushFrame (code : FrameCode) (base argc kwc : Nat) (mid : Sym)
    (owner : Option ObjRef) (acc : Int) (blk : Value) :
    Guards Busy Pushed (pushFrame code base argc kwc mid owner acc blk .vm) :=
  (guards_pushFrame code base argc kwc mid owner acc blk .vm).mono (fun _ h => h.room .vm)
    fun _ _ post => post

end Closing

section Calls

theorem guards_invokeAt (base acc : Nat) (recv : Value) (meth : Method) (owner : Option ObjRef)
    (mid : Sym) (argc kwc : Nat) :
    Guards Busy (fun _ => Disciplined) (invokeAt base acc recv meth owner mid argc kwc) := by
  unfold invokeAt
  simp only [bind_pure_unit]
  repeat' (first
    | with_reducible apply Guards.throw _
    | with_reducible apply guards_runtimeFault
    | with_reducible apply guards_next
    | with_reducible apply guards_pushed_fatal _
    | with_reducible apply guards_pushed_start _ _
    | with_reducible apply guards_pushed_run
    | with_reducible refine Guards.bind (guards_busy_pushFrame _ _ _ _ _ _ _ _) fun _ => ?_
    | with_reducible refine Guards.bind (Guards.keep ?_ Busy.stable) fun _ => ?_
    | with_reducible apply Keeps.outlineKept_of_storeOnly (storeOnly_liftStore _)
    | with_reducible apply outlineKept_of_readOnly (readOnly_slot _)
    | with_reducible apply outlineKept_of_readOnly (readOnly_procOf? _)
    | with_reducible apply outlineKept_of_readOnly (readOnly_procSelf _)
    | with_reducible apply outlineKept_of_readOnly (readOnly_codeOf _)
    | with_reducible apply outlineKept_setSlot _ _
    | split)

theorem outlineKept_noMethodError (recv : Value) (mid : Sym) (isSuper : Bool) :
    Keeps outlineKept (noMethodError recv mid isSuper) :=
  Keeps.outlineKept_of_storeOnly (storeOnly_liftStore _)

theorem guards_dispatch (a : Nat) (recv : Value) (cls : Option ObjRef) (mid : Sym) (argc kwc : Nat)
    (isSuper : Bool) :
    Guards Busy (fun _ => Disciplined) (dispatch a recv cls mid argc kwc isSuper) := by
  unfold dispatch
  repeat' (first
    | with_reducible apply guards_runtimeFault
    | with_reducible apply guards_invokeAt _ _ _ _ _ _ _ _
    | with_reducible apply guards_busy_unwind _
    | with_reducible refine Guards.bind (Guards.keep ?_ Busy.stable) fun _ => ?_
    | with_reducible apply Keeps.outlineKept_of_storeOnly (storeOnly_liftStore _)
    | with_reducible apply outlineKept_of_readOnly readOnly_topFrame
    | with_reducible apply Keeps.outlineKept_of_storeOnly (storeOnly_rawArgs _ _ _)
    | with_reducible apply outlineKept_placeArgs _ _ _ _ _
    | with_reducible apply outlineKept_noMethodError _ _ _
    | split)

theorem guards_send (a : Nat) (mid : Sym) (callOperand : Nat) (withBlock : Bool) :
    Guards Busy (fun _ => Disciplined) (send a mid callOperand withBlock) := by
  unfold send
  repeat' (first
    | with_reducible apply guards_runtimeFault
    | with_reducible apply guards_dispatch _ _ _ _ _ _ _
    | with_reducible apply guards_busy_unwind _
    | with_reducible refine Guards.bind (Guards.keep ?_ Busy.stable) fun _ => ?_
    | with_reducible apply Keeps.outlineKept_of_storeOnly (storeOnly_liftStore _)
    | with_reducible apply outlineKept_of_readOnly readOnly_topFrame
    | with_reducible apply outlineKept_of_readOnly (readOnly_slot _)
    | with_reducible apply outlineKept_setSlot _ _
    | with_reducible apply outlineKept_growStack _
    | with_reducible apply Keeps.outlineKept_of_storeOnly (storeOnly_checkBlock _)
    | split)

theorem guards_superSend (a : Nat) (callOperand : Nat) :
    Guards Busy (fun _ => Disciplined) (superSend a callOperand) := by
  unfold superSend
  repeat' (first
    | with_reducible apply guards_runtimeFault
    | with_reducible apply guards_dispatch _ _ _ _ _ _ _
    | with_reducible apply guards_busy_unwind _
    | with_reducible refine Guards.bind (Guards.keep ?_ Busy.stable) fun _ => ?_
    | with_reducible apply Keeps.outlineKept_of_storeOnly (storeOnly_liftStore _)
    | with_reducible apply outlineKept_of_readOnly readOnly_topFrame
    | with_reducible apply outlineKept_of_readOnly (readOnly_slot _)
    | with_reducible apply outlineKept_setSlot _ _
    | with_reducible apply outlineKept_growStack _
    | with_reducible apply Keeps.outlineKept_of_storeOnly (storeOnly_checkBlock _)
    | split)

end Calls

section Bodies

theorem outlineKept_newErr (cls : Core → ObjRef) (msg : String) : Keeps outlineKept (newErr cls msg) :=
  Keeps.outlineKept_of_storeOnly (storeOnly_liftStore _)

theorem outlineKept_inspectValue (v : Value) : Keeps outlineKept (inspectValue v) :=
  Keeps.outlineKept_of_storeOnly (storeOnly_liftStore _)

theorem outlineKept_gatherArgs (f : Frame) (ps : ParamSpec) : Keeps outlineKept (gatherArgs f ps) := by
  unfold gatherArgs
  dsimp only
  repeat' (first
    | with_reducible apply Keeps.pure _
    | with_reducible apply Keeps.outlineKept_of_storeOnly (storeOnly_liftStore _)
    | with_reducible apply Keeps.outlineKept_of_storeOnly (storeOnly_rawArgs _ _ _)
    | with_reducible apply outlineKept_of_readOnly (readOnly_frameProc _)
    | with_reducible apply Keeps.bind
    | with_reducible intro _
    | split)

theorem readOnly_splitArgs (ps : ParamSpec) (args : Array Value) : ReadOnly (splitArgs ps args) := by
  unfold splitArgs
  dsimp only
  repeat' (first
    | with_reducible apply Keeps.pure _
    | with_reducible apply readOnly_sliceOf _ _ _
    | with_reducible apply Keeps.bind
    | with_reducible intro _
    | split)

theorem outlineKept_layParams (f : Frame) (ps : ParamSpec) (req opt rest post : Array Value)
    (kw : Option HashTable) (blk : Value) : Keeps outlineKept (layParams f ps req opt rest post kw blk) := by
  unfold layParams
  dsimp only
  repeat' (first
    | with_reducible apply Keeps.pure _
    | with_reducible apply Keeps.outlineKept_of_storeOnly (storeOnly_liftStore _)
    | with_reducible apply outlineKept_of_readOnly readOnly_runtimeFault
    | with_reducible apply outlineKept_setSlot _ _
    | with_reducible apply outlineKept_growStack _
    | with_reducible exact outlineKept_modifyTop fun _ => rfl
    | with_reducible apply Keeps.forIn_range
    | with_reducible apply Keeps.bind
    | with_reducible intro _
    | split)

theorem guards_enterParams (f : Frame) (body : Procedure) :
    Guards Busy (fun _ => Disciplined) (enterParams f body) := by
  unfold enterParams
  refine Guards.bind (Guards.keep (outlineKept_gatherArgs _ _) Busy.stable) fun gathered => ?_
  obtain ⟨args, kw, blk, strict⟩ := gathered
  dsimp only
  -- a strict procedure with the wrong number of arguments raises
  split
  · exact Guards.bind (Guards.keep (outlineKept_newErr _ _) Busy.stable) fun exc => guards_busy_unwind exc
  · refine Guards.bind (Guards.keep (outlineKept_of_readOnly (readOnly_splitArgs _ _)) Busy.stable)
      fun parts => ?_
    obtain ⟨req, opt, rest, post⟩ := parts
    dsimp only
    exact Guards.bind (Guards.keep (outlineKept_layParams _ _ _ _ _ _ _ _) Busy.stable) fun _ => guards_next

theorem guards_classDef (f : Frame) (a : Nat) (name : Sym) (isModule : Bool) :
    Guards Busy (fun _ => Disciplined) (classDef f a name isModule) := by
  unfold classDef
  dsimp only
  repeat' (first
    | with_reducible apply guards_next
    | with_reducible apply guards_busy_unwind _
    | with_reducible refine Guards.bind (Guards.keep ?_ Busy.stable) fun _ => ?_
    | with_reducible apply Keeps.pure _
    | with_reducible apply Keeps.get
    | with_reducible apply Keeps.outlineKept_of_storeOnly (storeOnly_liftStore _)
    | with_reducible apply outlineKept_of_readOnly (readOnly_slot _)
    | with_reducible apply outlineKept_of_readOnly (readOnly_targetClass _)
    | with_reducible apply outlineKept_newErr _ _
    | with_reducible apply outlineKept_inspectValue _
    | with_reducible apply outlineKept_setSlot _ _
    | with_reducible apply Keeps.bind
    | with_reducible intro _
    | split)

theorem guards_execBody (f : Frame) (a : Nat) (body : Procedure) :
    Guards Busy (fun _ => Disciplined) (execBody f a body) := by
  unfold execBody
  dsimp only
  repeat' (first
    | with_reducible apply guards_pushed_fatal _
    | with_reducible apply guards_pushed_run
    | with_reducible refine Guards.bind (guards_busy_pushFrame _ _ _ _ _ _ _ _) fun _ => ?_
    | with_reducible refine Guards.bind (Guards.keep ?_ Busy.stable) fun _ => ?_
    | with_reducible apply Keeps.pure _
    | with_reducible apply Keeps.outlineKept_of_storeOnly (storeOnly_liftStore _)
    | with_reducible apply outlineKept_of_readOnly (readOnly_slot _)
    | with_reducible apply outlineKept_of_readOnly (readOnly_targetClass _)
    | with_reducible apply outlineKept_setSlot _ _
    | with_reducible apply outlineKept_growStack _
    | with_reducible apply Keeps.bind
    | with_reducible intro _
    | split)

theorem guards_arithStep (f : Frame) (op : ArithOp) (a : Nat) (y : Value) (imm : Option Value) :
    Guards Busy (fun _ => Disciplined) (arithStep f op a y imm) := by
  unfold arithStep
  repeat' (first
    | with_reducible apply guards_next
    | with_reducible apply guards_busy_unwind _
    | with_reducible apply guards_send _ _ _ _
    | with_reducible refine Guards.bind (Guards.keep ?_ Busy.stable) fun _ => ?_
    | with_reducible apply Keeps.pure _
    | with_reducible apply outlineKept_of_readOnly (readOnly_reg _ _)
    | with_reducible apply outlineKept_of_readOnly (readOnly_opSym _)
    | with_reducible apply outlineKept_newErr _ _
    | with_reducible apply outlineKept_setReg _ _ _
    | split)

theorem guards_raiseBreak (kind : BreakKind) (target : Nat) (v : Value) :
    Guards Busy (fun _ => Disciplined) (raiseBreak kind target v) :=
  Guards.bind (Guards.keep (Keeps.outlineKept_of_storeOnly (storeOnly_liftStore _)) Busy.stable)
    fun b => guards_busy_unwind (.obj b)

end Bodies

section Loop

theorem outlineKept_regRange (f : Frame) (lo hi : Nat) : Keeps outlineKept (regRange f lo hi) :=
  outlineKept_of_readOnly (readOnly_slots _ _)

theorem outlineKept_modifyStore (g : Machine → Store) :
    Keeps outlineKept (modify fun m => { m with store := g m } : MachineM Unit) :=
  fun _ => ⟨rfl, rfl, rfl, fun _ => rfl⟩

theorem guards_instruction (op : Opcode) (a b c : Nat) (f : Frame) (body : Procedure) :
    Guards Busy (fun _ => Disciplined) (instruction op a b c f body) := by
  unfold instruction
  dsimp only
  refine Guards.bind (Guards.keep (Keeps.outlineKept_of_storeOnly (storeOnly_liftStore _))
    Busy.stable) fun core => ?_
  cases op
  all_goals repeat' (first
    | with_reducible apply guards_runtimeFault
    | with_reducible apply guards_next
    | with_reducible apply guards_busy_unwind _
    | with_reducible apply guards_busy_returnFrom _
    | with_reducible apply guards_send _ _ _ _
    | with_reducible apply guards_superSend _ _
    | with_reducible apply guards_enterParams _ _
    | with_reducible apply guards_raiseBreak _ _ _
    | with_reducible apply guards_arithStep _ _ _ _ _
    | with_reducible apply guards_classDef _ _ _ _
    | with_reducible apply guards_execBody _ _ _
    | with_reducible refine Guards.bind (Guards.keep ?_ Busy.stable) fun _ => ?_
    | with_reducible apply Keeps.pure _
    | with_reducible apply Keeps.get
    | with_reducible apply Keeps.outlineKept_of_storeOnly (storeOnly_liftStore _)
    | with_reducible apply Keeps.outlineKept_of_storeOnly (storeOnly_literalAt _ _)
    | with_reducible apply Keeps.outlineKept_of_storeOnly (storeOnly_ivarSet _ _ _)
    | with_reducible apply Keeps.outlineKept_of_storeOnly (storeOnly_newProc _ _ _ _ _)
    | with_reducible apply Keeps.outlineKept_of_storeOnly (storeOnly_breakTarget _)
    | with_reducible apply Keeps.outlineKept_of_storeOnly (storeOnly_returnTarget _)
    | with_reducible apply outlineKept_of_readOnly (readOnly_reg _ _)
    | with_reducible apply outlineKept_of_readOnly (readOnly_symAt _ _)
    | with_reducible apply outlineKept_of_readOnly (readOnly_childAt _ _)
    | with_reducible apply outlineKept_of_readOnly (readOnly_constLookup _ _)
    | with_reducible apply outlineKept_of_readOnly (readOnly_targetClass _)
    | with_reducible apply outlineKept_of_readOnly (readOnly_upvarEnv _ _)
    | with_reducible apply outlineKept_of_readOnly (readOnly_envGet _ _)
    | with_reducible apply outlineKept_of_readOnly readOnly_currentContext
    | with_reducible apply outlineKept_of_readOnly (readOnly_kdict _ _)
    | with_reducible apply outlineKept_of_readOnly (readOnly_frameProc _)
    | with_reducible apply outlineKept_of_readOnly (readOnly_procOf? _)
    | with_reducible apply outlineKept_of_readOnly readOnly_runtimeFault
    | with_reducible apply outlineKept_newErr _ _
    | with_reducible apply outlineKept_inspectValue _
    | with_reducible apply outlineKept_regRange _ _ _
    | with_reducible apply outlineKept_modifyStore _
    | with_reducible apply outlineKept_setReg _ _ _
    | with_reducible apply outlineKept_setExc _
    | with_reducible apply outlineKept_envSet _ _ _
    | with_reducible apply outlineKept_ensureEnv
    | with_reducible exact outlineKept_modifyTop fun _ => rfl
    | with_reducible apply Keeps.forIn_range
    | with_reducible apply Keeps.bind
    | with_reducible intro _
    | split)

theorem guards_topFrame : Guards Live (fun _ => Busy) topFrame := by
  rintro m f m' live run
  rw [topFrame_run] at run
  split at run
  · next top => cases run; exact ⟨⟨live, hasTop_of_top top⟩, rfl⟩
  · cases run

theorem guards_setSteps (m : Machine) (n : Nat) :
    Guards (fun s => Busy s ∧ s = m) (fun _ => Busy) (set { m with steps := n } : MachineM Unit) := by
  rintro s _ s' ⟨busy, rfl⟩ run
  cases run
  exact ⟨busy.of_outlineKept ⟨rfl, rfl, rfl, fun _ => rfl⟩, rfl⟩

theorem outlineKept_frameName (f : Frame) : Keeps outlineKept (frameName f) :=
  Keeps.bind Keeps.get fun _ => Keeps.pure _

theorem guards_execute : Guards Live (fun _ => Disciplined) execute := by
  unfold execute
  refine Guards.bind guards_topFrame fun f => ?_
  split
  · exact guards_runtimeFault
  · refine Guards.bind_get fun m => ?_
    refine Guards.bind (guards_setSteps m _) fun _ => ?_
    dsimp only
    repeat' (first
      | with_reducible apply guards_busy_fatal _
      | with_reducible apply guards_panic _
      | with_reducible apply Guards.throw _
      | with_reducible apply guards_instruction _ _ _ _ _ _
      | with_reducible refine Guards.bind (Guards.keep ?_ Busy.stable) fun _ => ?_
      | with_reducible apply outlineKept_frameName _
      | with_reducible exact outlineKept_modifyTop fun _ => rfl
      | split)

end Loop

section Natives

theorem Room.stable (kind : CallKind) : ∀ m m', Room kind m → outlineKept.rel m m' → Room kind m' :=
  fun _ _ h kept => h.of_outlineKept kept

theorem guards_host_throwToCaller (exc : Value) :
    Guards (Room .host) (fun _ => Disciplined) (throwToCaller exc) := by
  refine (guards_throwToCaller exc).mono ?_ fun _ _ post => post
  rintro m ⟨live, atRoot | top | resumed⟩
  · exact ⟨live, .inl atRoot⟩
  · exact ⟨live, .inr top⟩
  · cases resumed

theorem guards_funcall (recv : Value) (mid : Sym) (args : Array Value) (kw : Option HashTable)
    (blk : Value) : Guards (Room .host) (fun _ => Disciplined) (funcall recv mid args kw blk) := by
  unfold funcall
  dsimp only
  repeat' (first
    | with_reducible apply guards_host_throwToCaller _
    | with_reducible apply guards_callProc _ _ _ _ _
    | with_reducible apply guards_callMethod _ _ _ _ _ _ _ _
    | with_reducible refine Guards.bind (Guards.keep ?_ (Room.stable .host)) fun _ => ?_
    | with_reducible apply Keeps.pure _
    | with_reducible apply Keeps.outlineKept_of_storeOnly (storeOnly_liftStore _)
    | with_reducible apply outlineKept_of_readOnly (readOnly_procOf? _)
    | with_reducible apply outlineKept_noMethodError _ _ _
    | with_reducible apply Keeps.bind
    | with_reducible intro _
    | split)

theorem guards_request (req : Request) : Guards Busy (fun _ => Disciplined) (request req) := by
  refine Guards.mono ?_ (fun _ busy => busy.room .host) fun _ _ post => post
  cases req with
  | send recv mid args kw blk => exact guards_funcall recv mid args kw blk
  | callProc p args kw blk => exact guards_callProc p args kw blk .host

theorem outlineKept_setTask (task : Task) : Keeps outlineKept (setTask task) :=
  outlineKept_modifyTop fun _ => rfl

theorem guards_context {P : Machine → Prop} (i : Nat) :
    Guards P (fun c m => P m ∧ m.contexts[i]? = some c) (context i) := by
  intro m c m' pre run
  rw [context_run] at run
  split at run
  · next found => cases run; exact ⟨⟨pre, found⟩, rfl⟩
  · cases run

theorem live_stable : ∀ m m', Live m → outlineKept.rel m m' → Live m' :=
  fun _ _ h kept => h.of_outlineKept kept

theorem guards_resumeSwitch {x : Nat} {c : Context} {α : Type} {Q : α → Machine → Prop}
    {rest : MachineM α} (notEnded : c.status ≠ .terminated) (notRunning : c.status ≠ .running)
    (hrest : Guards Live Q rest) :
    Guards (fun m => Busy m ∧ m.contexts[x]? = some c) Q (do
      let cur ← currentIndex
      let host := (← context cur).host
      modifyContext x fun c => { c with prev := some cur, status := .running, host }
      modify fun m => { m with current := x }
      rest) := by
  rintro m a m' ⟨⟨⟨s, live⟩, _⟩, found⟩ run
  obtain ⟨cur, m₀, got, run⟩ := bind_run_ok run
  cases got
  obtain ⟨d, m₁, got, run⟩ := bind_run_ok run
  rw [(context_ok got).1] at run
  have target : m.outlineAt x = some c.outline := by simp [outlineAt, found]
  let entered : Machine := { m with
    contexts := m.contexts.modify x fun c => { c with prev := some m.current, status := .running, host := d.host },
    current := x }
  -- the host context the fiber takes over is no part of any outline
  have switched : Settled entered :=
    s.resumed live target notEnded notRunning
      (fun i => by simp only [entered, outlineAt, Array.getElem?_modify]; split <;> cases m.contexts[i]? <;> rfl)
      rfl rfl rfl
  exact hrest entered a m' ⟨switched, live⟩ run

theorem guards_suspendSwitch {c : Context} {r : Nat} {α : Type} {Q : α → Machine → Prop}
    {rest : MachineM α} (waits : c.prev = some r) (hrest : Guards Live Q rest) :
    Guards (fun m => Busy m ∧ m.contexts[m.current]? = some c) Q (do
      modifyCurrent fun c => { c with status := .suspended, prev := none }
      modify fun m => { m with current := r }
      rest) := by
  rintro m a m' ⟨⟨⟨s, live⟩, _⟩, stored⟩ run
  have cur : m.outlineAt m.current = some c.outline := by simp [outlineAt, stored]
  have back : Settled { m.updCurrent fun c => { c with status := .suspended, prev := none } with
      current := r } :=
    s.handBack live cur waits .suspended (fun _ => rfl) rfl rfl live
  obtain ⟨post, root⟩ := hrest _ a m' ⟨back, live⟩ run
  exact ⟨post, root⟩

theorem guards_resumeFiber (r : ObjRef) (args : Array Value) :
    Guards Busy (fun _ => Disciplined) (resumeFiber r args) := by
  unfold resumeFiber
  refine Guards.bind (Guards.keep (outlineKept_of_readOnly (readOnly_fiberData _)) Busy.stable)
    fun fd => ?_
  refine Guards.bind (guards_context fd.ctx) fun c => ?_
  have raise : ∀ msg, Guards (fun m => Busy m ∧ m.contexts[fd.ctx]? = some c) (fun _ => Disciplined)
      (do nativeRaise (← newErr (·.fiberError) msg)) := fun _ =>
    (Guards.bind (Guards.keep (outlineKept_newErr _ _) Busy.stable) guards_busy_nativeRaise).mono
      (fun _ h => h.1) fun _ _ post => post
  dsimp only
  -- a finished or running fiber is refused
  by_cases ended : c.status = .terminated
  · simpa [ended] using raise "dead fiber called"
  by_cases running : c.status = .running
  · simpa [running] using raise "double resume"
  simp only [ended, running, beq_iff_eq, if_false]
  refine guards_resumeSwitch ended running ?_
  split
  · exact Guards.bind (Guards.keep (Keeps.outlineKept_of_storeOnly (storeOnly_packValues _))
      live_stable) fun v => (guards_setMode (.resume v) rfl).mono
        (fun _ live => ⟨live, fun _ _ start => nomatch start⟩) fun _ _ post => post
  · exact Guards.bind (Guards.keep (Keeps.outlineKept_of_storeOnly (storeOnly_liftStore _))
      live_stable) fun _ => (guards_callProc _ _ _ _ .resumed).mono
        (fun _ live => ⟨live, .inr (.inr rfl)⟩) fun _ _ post => post

theorem guards_suspendFiber (vals : Array Value) :
    Guards Busy (fun _ => Disciplined) (suspendFiber vals) := by
  unfold suspendFiber
  refine Guards.bind (Q := fun c m => Busy m ∧ m.contexts[m.current]? = some c) ?_ fun c => ?_
  · rintro m c m' busy run
    obtain ⟨rfl, stored⟩ := currentContext_ok run
    exact ⟨⟨busy, stored⟩, rfl⟩
  split
  · exact guards_runtimeFault
  · next r waits =>
    refine guards_suspendSwitch waits ?_
    exact Guards.bind (Guards.keep (Keeps.outlineKept_of_storeOnly (storeOnly_packValues _))
      live_stable) fun v => (guards_setMode (.resume v) rfl).mono
        (fun _ live => ⟨live, fun _ _ start => nomatch start⟩) fun _ _ post => post

theorem guards_spawnFiber (p : ObjRef) (cls : Option ObjRef) :
    Guards Busy (fun _ => Live) (spawnFiber p cls) := by
  rintro m v m' ⟨⟨s, live⟩, _⟩ run
  simp only [spawnFiber, EStateM.run_bind, EStateM.run_get, EStateM.run_set, liftStore_run] at run
  split at run
  · next r st alloc =>
    simp only [modifyContext, EStateM.run_modify, EStateM.run_pure] at run
    split at alloc
    · cases alloc
      cases run
      -- the new context has no frames, waits on no one, and belongs to the fiber just made
      refine ⟨⟨s.spawned live { stack := Array.replicate m.limits.stackSize .nil, fiber := some r }
        rfl rfl rfl (fun i => ?_) rfl rfl rfl, live⟩, rfl⟩
      simp only [outlineAt, Array.getElem?_modify, Array.getElem?_push]
      by_cases here : i = m.contexts.size
      · simp [here]
      · simp [here, Ne.symm here]
    · cases alloc
  · cases run

theorem guards_applyNative (step : NativeStep) :
    Guards Busy (fun _ => Disciplined) (applyNative step) := by
  cases step with
  | done v => exact guards_busy_returnFrom v
  | raise exc => exact guards_busy_nativeRaise exc
  | call req task =>
    exact Guards.bind (Guards.keep (outlineKept_setTask task) Busy.stable) fun _ => guards_request req
  | resume fiber args =>
    exact Guards.bind (Guards.keep (outlineKept_setTask .pass) Busy.stable) fun _ =>
      guards_resumeFiber fiber args
  | suspend vals =>
    exact Guards.bind (Guards.keep (outlineKept_setTask .pass) Busy.stable) fun _ =>
      guards_suspendFiber vals
  | spawn p cls => exact Guards.bind (guards_spawnFiber p cls) guards_returnFrom
  | turn task =>
    exact Guards.bind (Guards.keep (outlineKept_setTask task) Busy.stable) fun _ =>
      (guards_setMode (.resume .nil) rfl).mono (fun _ busy => ⟨busy.1, fun _ _ start => by cases start⟩)
        fun _ _ post => post

theorem guards_runNative (x : NativeM NativeStep) :
    Guards Busy (fun _ => Disciplined) (runNative x) := by
  unfold runNative
  refine Guards.bind (Guards.keep Keeps.get Busy.stable) fun m => ?_
  refine Guards.bind (Guards.keep (Keeps.outlineKept_of_storeOnly (storeOnly_liftStore _))
    Busy.stable) fun answer => ?_
  split
  · exact guards_applyNative _
  · exact guards_busy_nativeRaise _

end Natives

def Failing (m : Machine) : Prop :=
  match m.mode with
  | .fatal _ | .halted (.fatal _) | .halted (.fault _) => True
  | _ => False

theorem guards_step :
    Guards (fun m => Disciplined m ∧ ¬m.Failing) (fun _ => Disciplined) step := by
  unfold step
  refine Guards.bind_get fun m => ?_
  split
  · next running =>
    exact guards_execute.mono (fun _ ⟨⟨d, _⟩, same⟩ => ⟨d.toSettled, by
      rw [same, running]; rfl⟩) fun _ _ post => post
  · next prim call starting =>
    exact (guards_runNative _).mono (fun _ ⟨⟨d, _⟩, same⟩ => ⟨⟨d.toSettled, by
      rw [same, starting]; rfl⟩, d.started prim call (same ▸ starting)⟩) fun _ _ post => post
  · next v resuming =>
    have live : ∀ s, (Disciplined s ∧ ¬s.Failing) ∧ s = m → Live s :=
      fun _ ⟨⟨d, _⟩, same⟩ => ⟨d.toSettled, by rw [same, resuming]; rfl⟩
    refine Guards.bind (guards_topFrame.mono live fun _ _ post => post) fun f => ?_
    split
    · exact guards_runNative _
    · exact guards_runtimeFault
  · next exc throwing =>
    exact (guards_nativeRaise exc).mono (fun _ ⟨⟨d, _⟩, same⟩ => ⟨d.toSettled, by
      rw [same, throwing]; rfl⟩) fun _ _ post => post
  · next err failing =>
    rintro _ _ _ ⟨⟨_, notFailing⟩, same⟩
    rw [same] at notFailing
    exact absurd (by simp [Failing, failing]) notFailing
  · exact (Guards.pure ()).mono (fun _ ⟨⟨d, _⟩, _⟩ => d) fun _ _ post => post

end Machine

end RegisterVM
