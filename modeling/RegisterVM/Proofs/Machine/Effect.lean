import RegisterVM.Machine.Unwind

set_option autoImplicit false

namespace RegisterVM

def endState {ε σ α : Type} : EStateM.Result ε σ α → σ
  | .ok _ s => s
  | .error _ s => s

@[simp] theorem throw_run {ε σ α : Type} (e : ε) (s : σ) :
    (throw e : EStateM ε σ α).run s = .error e s := rfl

structure StateOrder (σ : Type) where
  rel : σ → σ → Prop
  refl : ∀ s, rel s s
  trans : ∀ {s t u}, rel s t → rel t u → rel s u

def Keeps {ε σ α : Type} (o : StateOrder σ) (x : EStateM ε σ α) : Prop :=
  ∀ s, o.rel s (endState (x.run s))

def Reads {ε σ α : Type} (x : EStateM ε σ α) (s : σ) (a : α) : Prop := x.run s = .ok a s

def StateOrder.same (σ : Type) : StateOrder σ := ⟨Eq, fun _ => rfl, Eq.trans⟩

@[simp] theorem StateOrder.same_rel {σ : Type} (s t : σ) : (StateOrder.same σ).rel s t ↔ s = t :=
  Iff.rfl

abbrev ReadOnly {ε σ α : Type} (x : EStateM ε σ α) : Prop := Keeps (StateOrder.same σ) x

namespace Keeps

variable {ε σ : Type} {o : StateOrder σ}

theorem pure {α : Type} (a : α) : Keeps o (Pure.pure a : EStateM ε σ α) := fun s => o.refl s

theorem get : Keeps o (MonadState.get : EStateM ε σ σ) := fun s => o.refl s

theorem throw {α : Type} (e : ε) : Keeps o (MonadExcept.throw e : EStateM ε σ α) :=
  fun s => o.refl s

theorem bind {α β : Type} {x : EStateM ε σ α} {f : α → EStateM ε σ β} (hx : Keeps o x)
    (hf : ∀ a, Keeps o (f a)) : Keeps o (x >>= f) := by
  intro s
  have first := hx s
  rw [EStateM.run_bind]
  cases h : x.run s with
  | ok a t =>
    rw [h] at first
    exact o.trans first (hf a t)
  | error e t =>
    rw [h] at first
    exact first

theorem rel_bind {α β : Type} {x : EStateM ε σ α} {f : α → EStateM ε σ β} {s : σ} (hx : Keeps o x)
    (hf : ∀ a t, x.run s = .ok a t → o.rel t (endState ((f a).run t))) :
    o.rel s (endState ((x >>= f).run s)) := by
  have first := hx s
  rw [EStateM.run_bind]
  cases h : x.run s with
  | ok a t =>
    rw [h] at first
    exact o.trans first (hf a t h)
  | error e t =>
    rw [h] at first
    exact first

theorem bind_run {α β : Type} {x : EStateM ε σ α} {f : α → EStateM ε σ β} (hx : Keeps o x)
    (hf : ∀ s a t, x.run s = .ok a t → o.rel t (endState ((f a).run t))) : Keeps o (x >>= f) :=
  fun s => rel_bind hx (hf s)

theorem map {α β : Type} {x : EStateM ε σ α} (g : α → β) (hx : Keeps o x) :
    Keeps o (g <$> x) := by
  rw [← bind_pure_comp]
  exact bind hx fun a => pure (g a)

theorem forIn_list {α β : Type} (xs : List α) (b : β) {f : α → β → EStateM ε σ (ForInStep β)}
    (hf : ∀ a b, Keeps o (f a b)) : Keeps o (forIn xs b f) := by
  induction xs generalizing b with
  | nil => exact pure b
  | cons a rest ih =>
    rw [List.forIn_cons]
    refine bind (hf a b) fun step => ?_
    cases step with
    | done b' => exact pure b'
    | yield b' => exact ih b'

theorem forIn_array {α β : Type} (xs : Array α) (b : β) {f : α → β → EStateM ε σ (ForInStep β)}
    (hf : ∀ a b, Keeps o (f a b)) : Keeps o (forIn xs b f) := by
  rw [← Array.forIn_toList]
  exact forIn_list xs.toList b hf

theorem forIn_range {β : Type} (r : Std.Legacy.Range) (b : β) {f : Nat → β → EStateM ε σ (ForInStep β)}
    (hf : ∀ a b, Keeps o (f a b)) : Keeps o (forIn r b f) := by
  rw [Std.Legacy.Range.forIn_eq_forIn_range']
  exact forIn_list _ b hf

end Keeps

namespace ReadOnly

variable {ε σ α : Type}

theorem reads {x : EStateM ε σ α} (hx : ReadOnly x) {s t : σ} {a : α}
    (h : x.run s = .ok a t) : Reads x s a := by
  have same : s = t := by simpa [h, endState] using hx s
  rw [Reads, h, same]

theorem keeps {x : EStateM ε σ α} (hx : ReadOnly x) (o : StateOrder σ) : Keeps o x :=
  fun s => (hx s) ▸ o.refl s

theorem ok_state {x : EStateM ε σ α} (hx : ReadOnly x) {s t : σ} {a : α}
    (h : x.run s = .ok a t) : t = s := by
  have same : s = t := by simpa [h, endState] using hx s
  exact same.symm

theorem run_cases {x : EStateM ε σ α} (hx : ReadOnly x) (s : σ) :
    (∃ a, x.run s = .ok a s) ∨ ∃ e, x.run s = .error e s := by
  have same := hx s
  cases h : x.run s with
  | ok a t =>
    rw [h] at same
    cases same
    exact .inl ⟨a, rfl⟩
  | error e t =>
    rw [h] at same
    cases same
    exact .inr ⟨e, rfl⟩

end ReadOnly

section Search

variable {ε σ α β : Type} {s : σ} {b₀ : β} {body : α → β → EStateM ε σ (ForInStep β)}

theorem forIn_reads_none (s : σ) (b₀ : β) (body : α → β → EStateM ε σ (ForInStep β)) {xs : List α}
    (miss : ∀ a ∈ xs, Reads (body a b₀) s (.yield b₀)) :
    Reads (forIn xs b₀ body) s b₀ := by
  induction xs with
  | nil => rfl
  | cons a rest ih =>
    simp only [Reads, List.forIn_cons, EStateM.run_bind]
    rw [miss a List.mem_cons_self]
    exact ih fun a' member => miss a' (List.mem_cons_of_mem a member)

theorem forIn_reads_first (s : σ) (b₀ : β) (body : α → β → EStateM ε σ (ForInStep β))
    {before : List α} (after : List α) {a : α} {b : β}
    (miss : ∀ a' ∈ before, Reads (body a' b₀) s (.yield b₀)) (hit : Reads (body a b₀) s (.done b)) :
    Reads (forIn (before ++ a :: after) b₀ body) s b := by
  induction before with
  | nil =>
    simp only [Reads, List.nil_append, List.forIn_cons, EStateM.run_bind]
    rw [hit]
    rfl
  | cons a' rest ih =>
    simp only [Reads, List.cons_append, List.forIn_cons, EStateM.run_bind]
    rw [miss a' List.mem_cons_self]
    exact ih fun a'' member => miss a'' (List.mem_cons_of_mem a' member)

theorem forIn_search_cases {xs : List α} {b : β} {t : σ}
    (readOnly : ∀ a, ReadOnly (body a b₀))
    (shape : ∀ a r t', (body a b₀).run s = .ok r t' → r = .yield b₀ ∨ ∃ b', r = .done b')
    (h : (forIn xs b₀ body).run s = .ok b t) :
    t = s ∧ ((b = b₀ ∧ ∀ a ∈ xs, Reads (body a b₀) s (.yield b₀)) ∨
      ∃ before a after, xs = before ++ a :: after ∧ (∀ a' ∈ before, Reads (body a' b₀) s (.yield b₀)) ∧
        Reads (body a b₀) s (.done b)) := by
  induction xs with
  | nil =>
    simp only [List.forIn_nil, EStateM.run_pure, EStateM.Result.ok.injEq] at h
    obtain ⟨rfl, rfl⟩ := h
    exact ⟨rfl, .inl ⟨rfl, fun a member => nomatch member⟩⟩
  | cons a rest ih =>
    simp only [List.forIn_cons, EStateM.run_bind] at h
    cases first : (body a b₀).run s with
    | error e t' =>
      rw [first] at h
      cases h
    | ok r t' =>
      rw [first] at h
      have pass : Reads (body a b₀) s r := ReadOnly.reads (readOnly a) first
      have same : t' = s := by
        rw [Reads] at pass
        rw [pass] at first
        cases first
        rfl
      subst same
      rcases shape a r t' first with rfl | ⟨b', rfl⟩
      · obtain ⟨same, found⟩ := ih h
        refine ⟨same, ?_⟩
        rcases found with ⟨rfl, misses⟩ | ⟨before, a', after, split, misses, hit⟩
        · refine .inl ⟨rfl, fun a' member => ?_⟩
          rcases List.mem_cons.mp member with rfl | member
          · exact pass
          · exact misses a' member
        · refine .inr ⟨a :: before, a', after, by rw [split]; rfl, fun a'' member => ?_, hit⟩
          rcases List.mem_cons.mp member with rfl | member
          · exact pass
          · exact misses a'' member
      · simp only [EStateM.run_pure, EStateM.Result.ok.injEq] at h
        obtain ⟨rfl, rfl⟩ := h
        refine ⟨rfl, .inr ⟨[], a, rest, rfl, fun a' member => ?_, pass⟩⟩
        exact absurd member List.not_mem_nil

end Search

theorem bind_run_ok {ε σ α β : Type} {x : EStateM ε σ α} {f : α → EStateM ε σ β} {s t : σ}
    {b : β} (h : (x >>= f).run s = .ok b t) : ∃ a u, x.run s = .ok a u ∧ (f a).run u = .ok b t := by
  rw [EStateM.run_bind] at h
  cases first : x.run s with
  | ok a u =>
    rw [first] at h
    exact ⟨a, u, rfl, h⟩
  | error e u =>
    rw [first] at h
    cases h

theorem Keeps.rel_of_ok {ε σ α : Type} {o : StateOrder σ} {x : EStateM ε σ α} {s t : σ} {a : α}
    (hx : Keeps o x) (h : x.run s = .ok a t) : o.rel s t := by
  have kept := hx s
  rw [h] at kept
  exact kept

theorem Keeps.rel_of_error {ε σ α : Type} {o : StateOrder σ} {x : EStateM ε σ α} {s t : σ} {e : ε}
    (hx : Keeps o x) (h : x.run s = .error e t) : o.rel s t := by
  have kept := hx s
  rw [h] at kept
  exact kept

theorem Reads.run_eq {ε σ α : Type} {x : EStateM ε σ α} {s : σ} {a : α} (h : Reads x s a) :
    x.run s = .ok a s := h

theorem Reads.determ {ε σ α : Type} {x : EStateM ε σ α} {s : σ} {a b : α} (ha : Reads x s a)
    (hb : Reads x s b) : a = b := by
  rw [Reads, ha] at hb
  cases hb
  rfl

namespace Store

theorem readOnly_runtimeFault {α : Type} : ReadOnly (runtimeFault : StoreM α) := Keeps.throw _

theorem readOnly_panic {α : Type} (msg : String) : ReadOnly (panic msg : StoreM α) :=
  Keeps.throw _

theorem readOnly_getObj (r : ObjRef) : ReadOnly (getObj r) := by
  refine Keeps.bind Keeps.get fun s => ?_
  split
  · exact Keeps.pure _
  · exact readOnly_runtimeFault

theorem readOnly_wellKnown : ReadOnly wellKnown := Keeps.bind Keeps.get fun _ => Keeps.pure _

theorem readOnly_chainFuel : ReadOnly chainFuel := Keeps.bind Keeps.get fun _ => Keeps.pure _

theorem readOnly_node (r : ObjRef) : ReadOnly (node r) := by
  refine Keeps.bind (readOnly_getObj r) fun o => ?_
  split
  · exact Keeps.pure _
  · exact readOnly_runtimeFault

theorem readOnly_ivarFind (r : ObjRef) (sym : Sym) : ReadOnly (ivarFind r sym) :=
  Keeps.bind (readOnly_getObj r) fun _ => Keeps.pure _

theorem readOnly_classOf (v : Value) : ReadOnly (classOf v) := by
  refine Keeps.bind readOnly_wellKnown fun c => ?_
  cases v with
  | obj r => exact Keeps.bind (readOnly_getObj r) fun _ => Keeps.pure _
  | bool b => cases b <;> exact Keeps.pure _
  | _ => exact Keeps.pure _

theorem readOnly_classOf? (v : Value) : ReadOnly (classOf? v) := by
  unfold classOf?
  split
  · refine Keeps.bind (readOnly_getObj _) fun o => ?_
    split <;> exact Keeps.pure _
  · exact Keeps.pure _

theorem readOnly_procOf? (v : Value) : ReadOnly (procOf? v) := by
  unfold procOf?
  split
  · refine Keeps.bind (readOnly_getObj _) fun o => ?_
    split <;> exact Keeps.pure _
  · exact Keeps.pure _

theorem readOnly_includesModule_go (m : ObjRef) (s : Option ObjRef) (fuel : Nat) :
    ReadOnly (includesModule.go m s fuel) := by
  induction fuel generalizing s with
  | zero => exact Keeps.pure _
  | succ fuel ih =>
    simp only [includesModule.go]
    split
    · exact Keeps.pure _
    · refine Keeps.bind (readOnly_node _) fun n => ?_
      split
      · exact Keeps.pure _
      · exact ih _

theorem readOnly_isKindOf (r target : ObjRef) : ReadOnly (isKindOf r target) := by
  refine Keeps.bind (readOnly_node target) fun t => ?_
  exact Keeps.bind readOnly_chainFuel fun fuel => readOnly_includesModule_go _ _ fuel

theorem readOnly_valueIsKindOf (v : Value) (target : ObjRef) :
    ReadOnly (valueIsKindOf v target) := by
  refine Keeps.bind (readOnly_classOf v) fun c => ?_
  split
  · exact readOnly_isKindOf _ _
  · exact Keeps.pure _

theorem readOnly_constGet_go (sym : Sym) (s : Option ObjRef) (fuel : Nat) :
    ReadOnly (constGet.go sym s fuel) := by
  induction fuel generalizing s with
  | zero => exact Keeps.pure _
  | succ fuel ih =>
    simp only [constGet.go]
    split
    · exact Keeps.pure _
    · refine Keeps.bind (readOnly_node _) fun n => ?_
      refine Keeps.bind (readOnly_ivarFind _ _) fun found => ?_
      split
      · exact Keeps.pure _
      · exact ih _

theorem readOnly_constGet (r : ObjRef) (sym : Sym) : ReadOnly (constGet r sym) := by
  refine Keeps.bind readOnly_wellKnown fun c => ?_
  refine Keeps.bind readOnly_chainFuel fun fuel => ?_
  refine Keeps.bind (readOnly_constGet_go sym _ fuel) fun found => ?_
  split
  · exact Keeps.pure _
  · exact readOnly_ivarFind _ _

end Store

namespace Machine

def frames (m : Machine) : Array Frame := (m.contexts[m.current]?.map (·.frames)).getD #[]

def top? (m : Machine) : Option Frame := m.frames.back?

def updCurrent (m : Machine) (g : Context → Context) : Machine :=
  { m with contexts := m.contexts.modify m.current g }

def storeOnly : StateOrder Machine where
  rel m m' := m' = { m with store := m'.store }
  refl _ := rfl
  trans h₁ h₂ := by rw [h₂, h₁]

theorem liftStore_run {α : Type} (x : StoreM α) (m : Machine) :
    (liftStore x).run m = match x.run m.store with
      | .ok a s => .ok a { m with store := s }
      | .error f s => .error f { m with store := s } := rfl

theorem wellKnown_run_store (st : Store) : Store.wellKnown.run st = .ok st.core st := rfl

theorem storeOnly_liftStore {α : Type} (x : StoreM α) : Keeps storeOnly (liftStore x) := by
  intro m
  rw [liftStore_run]
  cases x.run m.store <;> rfl

theorem readOnly_liftStore {α : Type} {x : StoreM α} (hx : ReadOnly x) :
    ReadOnly (liftStore x) := by
  intro m
  have same := hx m.store
  rw [liftStore_run]
  cases h : x.run m.store with
  | ok a s =>
    rw [h] at same
    simp only [endState, StateOrder.same_rel] at same ⊢
    rw [← same]
  | error e s =>
    rw [h] at same
    simp only [endState, StateOrder.same_rel] at same ⊢
    rw [← same]

theorem ReadOnly.storeOnly {α : Type} {x : MachineM α} (hx : ReadOnly x) : Keeps storeOnly x := by
  intro m
  have same : m = endState (x.run m) := hx m
  show endState (x.run m) = { m with store := (endState (x.run m)).store }
  rw [← same]

theorem readOnly_runtimeFault {α : Type} : ReadOnly (runtimeFault : MachineM α) := Keeps.throw _

theorem readOnly_panic {α : Type} (msg : String) : ReadOnly (panic msg : MachineM α) :=
  Keeps.throw _

theorem context_run (i : Nat) (m : Machine) :
    (context i).run m = match m.contexts[i]? with
      | some c => .ok c m
      | none => .error .runtime m := by
  simp only [context, EStateM.run_bind, EStateM.run_get]
  cases m.contexts[i]? <;> rfl

theorem context_ok {i : Nat} {m m' : Machine} {c : Context} (run : (context i).run m = .ok c m') :
    m' = m ∧ m.contexts[i]? = some c := by
  rw [context_run] at run
  split at run
  · next stored => cases run; exact ⟨rfl, stored⟩
  · cases run

theorem readOnly_context (i : Nat) : ReadOnly (context i) := by
  intro m
  rw [context_run]
  split <;> rfl

theorem currentContext_run (m : Machine) :
    currentContext.run m = match m.contexts[m.current]? with
      | some c => .ok c m
      | none => .error .runtime m := context_run m.current m

theorem readOnly_currentContext : ReadOnly currentContext := fun m => readOnly_context m.current m

theorem topFrame_run (m : Machine) :
    topFrame.run m = match m.top? with
      | some f => .ok f m
      | none => .error .runtime m := by
  simp only [topFrame, EStateM.run_bind, currentContext_run, top?, frames]
  cases m.contexts[m.current]? with
  | none => rfl
  | some c =>
    simp only [Option.map_some, Option.getD_some]
    cases c.frames.back? <;> rfl

theorem readOnly_topFrame : ReadOnly topFrame := by
  intro m
  rw [topFrame_run]
  split <;> rfl

theorem depth_run (m : Machine) :
    depth.run m = match m.contexts[m.current]? with
      | some c => .ok c.frames.size m
      | none => .error .runtime m := by
  simp only [depth, EStateM.run_bind, currentContext_run]
  cases m.contexts[m.current]? <;> rfl

theorem modifyCurrent_run (g : Context → Context) (m : Machine) :
    (modifyCurrent g).run m = .ok () (m.updCurrent g) := rfl

theorem setMode_run (mode : Mode) (m : Machine) :
    (setMode mode).run m = .ok () { m with mode } := rfl

theorem readOnly_procOf? (v : Value) : ReadOnly (procOf? v) :=
  readOnly_liftStore (Store.readOnly_procOf? v)

theorem readOnly_targetClass (f : Frame) : ReadOnly (targetClass f) := by
  refine Keeps.bind (readOnly_liftStore Store.readOnly_wellKnown) fun c => ?_
  split
  · refine Keeps.bind (readOnly_procOf? _) fun found => ?_
    split <;> exact Keeps.pure _
  · exact Keeps.pure _

theorem readOnly_constLookup_go (sym : Sym) (k : ObjRef) (fuel : Nat) :
    ReadOnly (constLookup.go sym k fuel) := by
  induction fuel generalizing k with
  | zero =>
    exact Keeps.bind Store.readOnly_wellKnown fun c => Store.readOnly_constGet _ _
  | succ fuel ih =>
    simp only [constLookup.go]
    refine Keeps.bind Store.readOnly_wellKnown fun c => ?_
    refine Keeps.bind (Store.readOnly_constGet _ _) fun found => ?_
    split
    · exact Keeps.pure _
    · refine Keeps.bind (Store.readOnly_ivarFind _ _) fun outer => ?_
      split
      · refine Keeps.bind (Store.readOnly_getObj _) fun o => ?_
        split
        · split
          · exact Store.readOnly_constGet _ _
          · exact ih _
        · exact Store.readOnly_constGet _ _
      · exact Store.readOnly_constGet _ _

theorem readOnly_constLookup (f : Frame) (sym : Sym) : ReadOnly (constLookup f sym) := by
  refine Keeps.bind (readOnly_targetClass f) fun start => ?_
  refine Keeps.bind (readOnly_liftStore Store.readOnly_chainFuel) fun fuel => ?_
  exact readOnly_liftStore (readOnly_constLookup_go sym start fuel)

theorem readOnly_breakOf? (v : Value) : ReadOnly (breakOf? v) := by
  unfold breakOf?
  split
  · refine Keeps.bind (readOnly_liftStore (Store.readOnly_getObj _)) fun o => ?_
    split <;> exact Keeps.pure _
  · exact Keeps.pure _

theorem readOnly_checkTarget (body : Procedure) (h : Handler) : ReadOnly (checkTarget body h) := by
  unfold checkTarget
  split
  · exact readOnly_panic _
  · exact Keeps.pure _

theorem readOnly_guardMatches (f : Frame) (h : Handler) (exc : Value) :
    ReadOnly (guardMatches f h exc) := by
  unfold guardMatches
  refine Keeps.bind (readOnly_liftStore Store.readOnly_wellKnown) fun c => ?_
  split
  · exact readOnly_liftStore (Store.readOnly_valueIsKindOf _ _)
  · refine Keeps.bind (Keeps.forIn_array _ _ fun g _ => ?_) fun r => ?_
    · refine Keeps.bind (readOnly_constLookup f g) fun found => ?_
      split
      · refine Keeps.bind (readOnly_liftStore (Store.readOnly_classOf? _)) fun k => ?_
        split
        · refine Keeps.bind (readOnly_liftStore (Store.readOnly_valueIsKindOf _ _)) fun b => ?_
          split <;> exact Keeps.pure _
        · exact Keeps.pure _
      · exact Keeps.pure _
    · rcases r with ⟨_ | _, _⟩ <;> exact Keeps.pure _

theorem readOnly_findHandler (f : Frame) (exc : Value) : ReadOnly (findHandler f exc) := by
  unfold findHandler
  split
  · exact Keeps.pure _
  · refine Keeps.bind (readOnly_breakOf? exc) fun brk => ?_
    refine Keeps.bind (Keeps.forIn_array _ _ fun h _ => ?_) fun r => ?_
    · split
      · split
        · exact Keeps.bind (readOnly_checkTarget _ h) fun _ => Keeps.pure _
        · split
          · refine Keeps.bind (readOnly_guardMatches f h exc) fun b => ?_
            split
            · exact Keeps.bind (readOnly_checkTarget _ h) fun _ => Keeps.pure _
            · exact Keeps.pure _
          · exact Keeps.pure _
      · exact Keeps.pure _
    · rcases r with ⟨_ | _, _⟩ <;> exact Keeps.pure _

theorem readOnly_findBreakHandler (f : Frame) : ReadOnly (findBreakHandler f) := by
  unfold findBreakHandler
  split
  · exact Keeps.pure _
  · refine Keeps.bind (Keeps.forIn_array _ _ fun h _ => ?_) fun r => ?_
    · split
      · exact Keeps.bind (readOnly_checkTarget _ h) fun _ => Keeps.pure _
      · exact Keeps.pure _
    · rcases r with ⟨_ | _, _⟩ <;> exact Keeps.pure _

end Machine

end RegisterVM
