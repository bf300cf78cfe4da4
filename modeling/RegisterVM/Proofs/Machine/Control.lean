import RegisterVM.Proofs.Machine.Unwinding

set_option autoImplicit false

namespace RegisterVM

namespace Machine

def withControl (m : Machine) (e : Value) (md : Mode) : Machine := { m.withExc e with mode := md }

def Oblivious {α : Type} (x : MachineM α) : Prop :=
  ∀ m e md, x.run (m.withControl e md) = match x.run m with
    | .ok a m' => .ok a (m'.withControl e md)
    | .error f m' => .error f (m'.withControl e md)

@[simp] theorem frames_withControl (m : Machine) (e : Value) (md : Mode) :
    (m.withControl e md).frames = m.frames := frames_withExc m e

@[simp] theorem top?_withControl (m : Machine) (e : Value) (md : Mode) :
    (m.withControl e md).top? = m.top? := top?_withExc m e

@[simp] theorem store_withControl (m : Machine) (e : Value) (md : Mode) :
    (m.withControl e md).store = m.store := rfl

theorem contexts_withControl (m : Machine) (e : Value) (md : Mode) (i : Nat) :
    (m.withControl e md).contexts[i]? =
      if m.current = i then m.contexts[i]?.map fun c => { c with exc := e } else m.contexts[i]? := by
  simp [withControl, withExc, updCurrent, Array.getElem?_modify]

@[simp] theorem current_withControl (m : Machine) (e : Value) (md : Mode) :
    (m.withControl e md).current = m.current := rfl

@[simp] theorem stack_withControl (m : Machine) (e : Value) (md : Mode) :
    (m.withControl e md).stack = m.stack := by
  simp [stack, contexts_withControl, Option.map_map, Function.comp_def]

theorem updCurrent_updCurrent (m : Machine) (g h : Context → Context) :
    (m.updCurrent g).updCurrent h = m.updCurrent (h ∘ g) := by
  simp only [updCurrent]
  congr 1
  apply Array.ext_getElem?
  intro j
  simp only [Array.getElem?_modify]
  split <;> simp [Option.map_map]

theorem updCurrent_mode (m : Machine) (g : Context → Context) (md : Mode) :
    { m with mode := md }.updCurrent g = { m.updCurrent g with mode := md } := rfl

theorem resumeAt_withControl (m : Machine) (e : Value) (md : Mode) (pc : Int) (e' : Value) :
    (m.withControl e md).resumeAt pc e' = m.resumeAt pc e' := by
  simp only [resumeAt, withControl, withPc, withExc, updCurrent_mode, updCurrent_updCurrent]
  rfl

theorem withExc_withControl (m : Machine) (e : Value) (md : Mode) (e' : Value) :
    (m.withControl e md).withExc e' = m.withControl e' md := by
  simp only [withControl, withExc, updCurrent_mode, updCurrent_updCurrent]
  rfl

theorem receive_withControl (m : Machine) (e : Value) (md : Mode) (f : Frame) (acc : Int) (v : Value) :
    (m.withControl e md).receive f acc v = (m.receive f acc v).withControl e md := by
  unfold receive
  split
  · simp only [withSlot, withControl, withExc, updCurrent_mode, updCurrent_updCurrent]
    rfl
  · rfl

section Oblivious

variable {α β : Type}

theorem Oblivious.bind {x : MachineM α} {f : α → MachineM β} (hx : Oblivious x)
    (hf : ∀ a, Oblivious (f a)) : Oblivious (x >>= f) := by
  intro m e md
  rw [EStateM.run_bind, hx m e md, EStateM.run_bind]
  cases x.run m with
  | ok a m' => exact hf a m' e md
  | error f m' => rfl

theorem oblivious_pure (a : α) : Oblivious (pure a : MachineM α) := fun _ _ _ => rfl

theorem oblivious_runtimeFault : Oblivious (runtimeFault : MachineM α) := fun _ _ _ => rfl

theorem oblivious_liftStore (x : StoreM α) : Oblivious (liftStore x) := by
  intro m e md
  rw [liftStore_run, liftStore_run, store_withControl]
  cases x.run m.store <;> rfl

theorem oblivious_context_bind {i : Nat} {k : Context → MachineM β}
    (blind : ∀ c e, k { c with exc := e } = k c) (hk : ∀ c, Oblivious (k c)) :
    Oblivious (context i >>= k) := by
  intro m e md
  rw [EStateM.run_bind, EStateM.run_bind, context_run, context_run, contexts_withControl]
  by_cases here : m.current = i
  · simp only [here, if_true]
    cases m.contexts[i]? with
    | none => rfl
    | some c =>
      dsimp only [Option.map_some]
      rw [blind]
      exact hk c m e md
  · simp only [here, if_false]
    cases m.contexts[i]? with
    | none => rfl
    | some c => exact hk c m e md

theorem oblivious_currentContext_bind {k : Context → MachineM β}
    (blind : ∀ c e, k { c with exc := e } = k c) (hk : ∀ c, Oblivious (k c)) :
    Oblivious (currentContext >>= k) := by
  intro m e md
  exact oblivious_context_bind (i := m.current) blind hk m e md

theorem oblivious_modifyCurrent {g : Context → Context}
    (commutes : ∀ c e, g { c with exc := e } = { g c with exc := e }) : Oblivious (modifyCurrent g) := by
  intro m e md
  rw [modifyCurrent_run, modifyCurrent_run]
  simp only [withControl, withExc, updCurrent, EStateM.Result.ok.injEq, true_and]
  congr 1
  apply Array.ext_getElem?
  intro j
  simp only [Array.getElem?_modify]
  by_cases here : m.current = j
  · simp only [here, if_true]
    cases m.contexts[j]? with
    | none => rfl
    | some c => exact congrArg some (commutes c e)
  · simp [here]

theorem oblivious_modifyContext {i : Nat} {g : Context → Context}
    (commutes : ∀ c e, g { c with exc := e } = { g c with exc := e }) :
    Oblivious (modifyContext i g) := by
  intro m e md
  simp only [modifyContext, EStateM.run_modify, withControl, withExc, updCurrent]
  congr 2
  apply Array.ext_getElem?
  intro j
  simp only [Array.getElem?_modify]
  by_cases here : m.current = j <;> by_cases mine : i = j
  · subst here mine
    simp only [if_true]
    cases m.contexts[m.current]? with
    | none => rfl
    | some c => exact congrArg some (commutes c e)
  · simp [here, mine]
  · simp [here, mine]
  · simp [here, mine]

theorem Oblivious.run_ok_iff {x : MachineM α} (hx : Oblivious x) {m n : Machine} {e : Value}
    {md : Mode} {a : α} :
    x.run (m.withControl e md) = .ok a n ↔ ∃ m₁, x.run m = .ok a m₁ ∧ n = m₁.withControl e md := by
  rw [hx m e md]
  cases x.run m with
  | ok b m₁ =>
    simp only [EStateM.Result.ok.injEq]
    constructor
    · rintro ⟨rfl, rfl⟩
      exact ⟨m₁, ⟨rfl, rfl⟩, rfl⟩
    · rintro ⟨_, ⟨rfl, rfl⟩, rfl⟩
      exact ⟨rfl, rfl⟩
  | error f m₁ => simp

end Oblivious

theorem oblivious_orphanStep (c : Context) (f : Frame) : Oblivious (orphanStep c f) := by
  unfold orphanStep
  split
  · refine Oblivious.bind (oblivious_liftStore _) fun found => ?_
    rcases found with _ | ⟨r, p⟩
    · exact oblivious_pure ()
    · dsimp only
      split
      · exact oblivious_liftStore _
      · exact oblivious_pure ()
  · exact oblivious_pure ()

theorem oblivious_envData (r : ObjRef) : Oblivious (envData r) := by
  refine Oblivious.bind (oblivious_liftStore _) fun o => ?_
  split
  · exact oblivious_pure _
  · exact oblivious_runtimeFault

theorem oblivious_unshareStep (f : Frame) : Oblivious (unshareStep f) := by
  unfold unshareStep
  cases f.env with
  | none => exact oblivious_pure ()
  | some r =>
    refine Oblivious.bind (oblivious_envData r) fun ed => ?_
    split
    · exact oblivious_pure ()
    · -- the slots are copied from the stack of the context, never from its exception slot
      refine oblivious_context_bind (fun _ _ => rfl) fun c => ?_
      split
      · exact oblivious_liftStore _
      · exact oblivious_runtimeFault

theorem oblivious_popFrame : Oblivious popFrame := by
  rw [popFrame_eq]
  refine oblivious_currentContext_bind (fun _ _ => rfl) fun c => ?_
  cases c.frames.back? with
  | none => exact oblivious_runtimeFault
  | some f =>
    exact (oblivious_orphanStep c f).bind fun _ => (oblivious_unshareStep f).bind fun _ =>
      oblivious_modifyCurrent fun _ _ => rfl

theorem oblivious_topFrame : Oblivious topFrame := by
  refine oblivious_currentContext_bind (fun _ _ => rfl) fun c => ?_
  split
  · exact oblivious_pure _
  · exact oblivious_runtimeFault

theorem oblivious_depth : Oblivious depth :=
  oblivious_currentContext_bind (fun _ _ => rfl) fun _ => oblivious_pure _

theorem oblivious_setSlot (i : Nat) (v : Value) : Oblivious (setSlot i v) := by
  intro m e md
  exact oblivious_context_bind (i := m.current) (fun _ _ => rfl)
    (fun c => by
      split
      · exact oblivious_modifyContext fun _ _ => rfl
      · exact oblivious_runtimeFault) m e md

def ModeBlind {α : Type} (x : MachineM α) : Prop :=
  ∀ (m : Machine) (e : Value) (md md' : Mode) (a : α) (n : Machine),
    x.run (m.withControl e md) = .ok a n → x.run (m.withControl e md') = .ok a n

section ModeBlind

variable {α β : Type}

theorem Oblivious.bind_modeBlind {x : MachineM α} {f : α → MachineM β} (hx : Oblivious x)
    (hf : ∀ a, ModeBlind (f a)) : ModeBlind (x >>= f) := by
  intro m e md md' b n run
  obtain ⟨a, n₁, head, rest⟩ := bind_run_ok run
  obtain ⟨m₁, plain, rfl⟩ := hx.run_ok_iff.mp head
  rw [EStateM.run_bind, hx.run_ok_iff.mpr ⟨m₁, plain, rfl⟩]
  exact hf a m₁ e md md' b n rest

theorem modeBlind_setMode (x : Mode) : ModeBlind (setMode x) := by
  intro m e md md' a n run
  exact run

theorem modeBlind_context_bind {i : Nat} {k : Context → MachineM β}
    (blind : ∀ c e, k { c with exc := e } = k c) (hk : ∀ c, ModeBlind (k c)) :
    ModeBlind (context i >>= k) := by
  intro m e md md' a n run
  rw [EStateM.run_bind, context_run, contexts_withControl] at run ⊢
  by_cases here : m.current = i
  · simp only [here, if_true] at run ⊢
    cases found : m.contexts[i]? with
    | none => simp [found] at run
    | some c =>
      simp only [found, Option.map_some] at run ⊢
      rw [blind] at run ⊢
      exact hk c m e md md' a n run
  · simp only [here, if_false] at run ⊢
    cases found : m.contexts[i]? with
    | none => simp [found] at run
    | some c =>
      simp only [found] at run ⊢
      exact hk c m e md md' a n run

theorem modeBlind_currentContext_bind {k : Context → MachineM β}
    (blind : ∀ c e, k { c with exc := e } = k c) (hk : ∀ c, ModeBlind (k c)) :
    ModeBlind (currentContext >>= k) := by
  intro m e md md' a n run
  exact modeBlind_context_bind (i := m.current) blind hk m e md md' a n run

theorem modeBlind_fiberEnded (result : Except Value Value) : ModeBlind (fiberEnded result) := by
  refine modeBlind_currentContext_bind (fun _ _ => rfl) fun c => ?_
  split
  · intro _ _ _ _ _ _ run
    cases run
  · -- the running context changes only after its own slots are set, and the mode last
    refine (oblivious_modifyCurrent fun _ _ => rfl).bind_modeBlind fun _ => ?_
    intro m e md md' a n run
    cases result <;> exact run

theorem modeBlind_leaveWithValue (kind : CallKind) (v : Value) : ModeBlind (leaveWithValue kind v) := by
  unfold leaveWithValue
  split
  · exact modeBlind_fiberEnded _
  · refine oblivious_depth.bind_modeBlind fun d => ?_
    split
    · exact modeBlind_setMode _
    · exact modeBlind_setMode _

theorem modeBlind_returnFrom (v : Value) : ModeBlind (returnFrom v) := by
  refine oblivious_topFrame.bind_modeBlind fun f => oblivious_popFrame.bind_modeBlind fun _ => ?_
  split
  · exact modeBlind_leaveWithValue _ _
  · exact oblivious_topFrame.bind_modeBlind fun _ =>
      (oblivious_setSlot _ _).bind_modeBlind fun _ => modeBlind_setMode _

end ModeBlind

theorem returnFrom_withControl {v e : Value} {md : Mode} {m m' : Machine} :
    (returnFrom v).run (m.withControl e md) = .ok () m' ↔ (returnFrom v).run (m.withExc e) = .ok () m' :=
  ⟨fun run => modeBlind_returnFrom v m e md m.mode () m' run,
    fun run => modeBlind_returnFrom v m e m.mode md () m' run⟩

end Machine

end RegisterVM
