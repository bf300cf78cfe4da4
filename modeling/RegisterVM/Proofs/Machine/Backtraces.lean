import RegisterVM.Proofs.Machine.Outline

set_option autoImplicit false

namespace RegisterVM

namespace Procedure

def lineBefore (p : Procedure) (pc : Int) : Int :=
  (((p.lines.toList.filter (·.pc ≤ pc)).getLast?).map (·.line)).getD 0

def LinesSorted (p : Procedure) : Prop := p.lines.toList.Pairwise (·.pc ≤ ·.pc)

variable {p : Procedure} {pc : Int}

theorem pc_le_of_sorted (sorted : p.LinesSorted) (i j : Nat) (le : i ≤ j) (within : j < p.lines.size) :
    (p.lines.getD i default).pc ≤ (p.lines.getD j default).pc := by
  rcases Nat.lt_or_eq_of_le le with lt | rfl
  · have ordered := List.pairwise_iff_getElem.1 sorted i j (by simpa using Nat.lt_trans lt within)
      (by simpa using within) lt
    simpa [Array.getD_eq_getD_getElem?, Nat.lt_trans lt within, within] using ordered
  · exact Int.le_refl _

structure Splits (p : Procedure) (pc : Int) (lo hi : Nat) : Prop where
  le : lo ≤ hi
  within : hi ≤ p.lines.size
  below : ∀ j, j < lo → (p.lines.getD j default).pc ≤ pc
  above : ∀ j, hi ≤ j → j < p.lines.size → pc < (p.lines.getD j default).pc

theorem search_splits (sorted : p.LinesSorted) (fuel : Nat) {lo hi : Nat}
    (split : Splits p pc lo hi) (enough : hi - lo < fuel) :
    Splits p pc (lineAt.search p pc lo hi fuel) (lineAt.search p pc lo hi fuel) := by
  induction fuel generalizing lo hi with
  | zero => omega
  | succ fuel ih =>
    have := split.le
    have := split.within
    simp only [lineAt.search]
    split
    next searching =>
      have half : (lo + hi) / 2 < hi := by omega
      split
      next later =>
        -- the probe lies past `pc`, and with it everything after it
        refine ih ⟨by omega, by omega, split.below, fun j past inside => ?_⟩ (by omega)
        exact Int.lt_of_lt_of_le (by omega) (pc_le_of_sorted sorted _ _ past inside)
      next earlier =>
        refine ih ⟨by omega, split.within, fun j before => ?_, split.above⟩ (by omega)
        rcases Nat.lt_or_ge j lo with low | high
        · exact split.below j low
        · exact Int.le_trans (pc_le_of_sorted sorted j ((lo + hi) / 2) (by omega) (by omega))
            (by omega)
    next closed =>
      have same : lo = hi := by have := split.le; omega
      subst same
      exact split

theorem filter_eq_take {k : Nat} (split : Splits p pc k k) :
    p.lines.toList.filter (·.pc ≤ pc) = p.lines.toList.take k := by
  calc p.lines.toList.filter (·.pc ≤ pc)
      = (p.lines.toList.take k ++ p.lines.toList.drop k).filter (·.pc ≤ pc) := by
        rw [List.take_append_drop]
    _ = p.lines.toList.take k := by
      rw [List.filter_append, List.filter_eq_self.2, List.filter_eq_nil_iff.2, List.append_nil]
      · intro e member
        obtain ⟨j, inside, rfl⟩ := List.getElem_of_mem member
        have past := split.above (k + j) (by omega) (by simp at inside; omega)
        simp only [List.getElem_drop, Array.getElem_toList, decide_eq_true_eq, Int.not_le]
        simpa [Array.getD_eq_getD_getElem?, show k + j < p.lines.size by simp at inside; omega] using past
      · intro e member
        obtain ⟨j, inside, rfl⟩ := List.getElem_of_mem member
        have before := split.below j (by simp at inside; omega)
        simp only [List.getElem_take, Array.getElem_toList, decide_eq_true_eq]
        simpa [Array.getD_eq_getD_getElem?, show j < p.lines.size by simp at inside; omega] using before

theorem lineAt_eq_lineBefore (sorted : p.LinesSorted) (pc : Int) : p.lineAt pc = p.lineBefore pc := by
  have whole : Splits p pc 0 p.lines.size :=
    ⟨Nat.zero_le _, Nat.le_refl _, fun _ none => absurd none (Nat.not_lt_zero _),
      fun _ past inside => absurd inside (Nat.not_lt.2 past)⟩
  have split := search_splits sorted (p.lines.size + 1) whole (by omega)
  have search : p.lineAt pc = (let k := lineAt.search p pc 0 p.lines.size (p.lines.size + 1)
      if k == 0 then 0 else (p.lines.getD (k - 1) default).line) := rfl
  rw [search, lineBefore, filter_eq_take split]
  generalize lineAt.search p pc 0 p.lines.size (p.lines.size + 1) = k at split ⊢
  have within := split.within
  rcases k with _ | k
  · simp
  · simp [List.getLast?_take, Array.getD_eq_getD_getElem?, show k < p.lines.size by omega]

end Procedure

def Store.procAt? (s : Store) (r : ObjRef) : Option ProcData :=
  (s.heap[r.idx]?).bind fun o => match o.body with
    | .proc d => some d
    | _ => none

namespace Frame

def title (f : Frame) (s : Store) : String :=
  if s.symText f.mid != "" then s.symText f.mid
  else if (f.proc?.bind s.procAt?).any (·.upper.isSome) then "block" else "<main>"

def traceLine (f : Frame) (s : Store) : String :=
  match f.code with
  | .native _ => "(native):in '" ++ f.title s ++ "'"
  | .compiled _ body =>
    (if body.filename == "" then "(unknown)" else body.filename) ++ ":" ++
      Text.intText (body.lineBefore (f.pc - 1)) ++ ":in '" ++ f.title s ++ "'"

structure Traceable (f : Frame) (s : Store) : Prop where
  resolves : ∀ p, f.proc? = some p → p.idx < s.heap.size
  sorted : ∀ body, f.body? = some body → body.LinesSorted

theorem traceable_native {f : Frame} {s : Store} {t : Option Task} (code : f.code = .native t) :
    f.Traceable s :=
  ⟨fun p found => by simp [proc?, code] at found, fun b found => by simp [body?, code] at found⟩

end Frame

def Body.exceptionInfo : Body → Option (Value × Option (Array String))
  | .exception msg bt => some (msg, bt)
  | _ => none

theorem Body.exceptionInfo_eq_some {b : Body} {msg : Value} {bt : Option (Array String)} :
    b.exceptionInfo = some (msg, bt) ↔ b = .exception msg bt := by
  cases b <;> simp [Body.exceptionInfo]

namespace Store

def infoKept {β : Type} (info : Body → β) : StateOrder Store where
  rel s s' := ∀ (i : Nat) (o : Obj), s.heap[i]? = some o →
    ∃ o' : Obj, s'.heap[i]? = some o' ∧ info o'.body = info o.body
  refl s i o found := ⟨o, found, rfl⟩
  trans h₁ h₂ i o found := by
    obtain ⟨o₁, found₁, same₁⟩ := h₁ i o found
    obtain ⟨o₂, found₂, same₂⟩ := h₂ i o₁ found₁
    exact ⟨o₂, found₂, same₂.trans same₁⟩

theorem modifyObj_infoKept {β : Type} {info : Body → β} {s : Store} {r : ObjRef} {g : Obj → Obj}
    (same : ∀ o, s.heap[r.idx]? = some o → info (g o).body = info o.body) :
    (infoKept info).rel s (endState ((modifyObj r g).run s)) := by
  simp only [modifyObj, EStateM.run_bind, EStateM.run_get]
  split
  · intro i o found
    simp only [EStateM.run_modify, endState, Array.getElem?_modify]
    by_cases here : r.idx = i
    · subst here
      exact ⟨g o, by simp [found], same o found⟩
    · exact ⟨o, by simp [here, found], rfl⟩
  · exact (infoKept info).refl s

end Store

theorem Keeps.rel_after {ε σ α β : Type} {o : StateOrder σ} {x : EStateM ε σ α}
    {f : α → EStateM ε σ β} (hf : ∀ a, Keeps o (f a)) (s : σ) :
    o.rel (endState (x.run s)) (endState ((x >>= f).run s)) := by
  rw [EStateM.run_bind]
  cases x.run s with
  | ok a t => exact hf a t
  | error e t => exact o.refl t

namespace Machine

theorem frameLabel_run {f : Frame} {m : Machine} (traceable : f.Traceable m.store) :
    (frameLabel f).run m = .ok (f.title m.store) m := by
  by_cases nameless : m.store.symText f.mid = ""
  · have titled : f.title m.store =
        if (f.proc?.bind m.store.procAt?).any (·.upper.isSome) then "block" else "<main>" := by
      simp [Frame.title, nameless]
    rw [titled]
    cases code : f.code with
    | native q => simp [frameLabel, nameless, code, Frame.proc?]
    | compiled p body =>
      have found : p.idx < m.store.heap.size := traceable.resolves p (by simp [Frame.proc?, code])
      obtain ⟨o, stored⟩ : ∃ o, m.store.heap[p.idx]? = some o := ⟨_, Array.getElem?_eq_getElem found⟩
      cases kind : o.body <;>
        simp [frameLabel, nameless, code, Frame.proc?, procOf?, Store.procOf?, Store.getObj,
          liftStore_run, stored, kind, Store.procAt?]
      -- left over: a procedure, named `block` exactly when it has an enclosing one
      split <;> rfl
  · simp [frameLabel, Frame.title, nameless]

theorem forIn_reads_yield {σ α β : Type} (s : σ) (g : α → β → β)
    {body : α → β → EStateM Fault σ (ForInStep β)} {xs : List α}
    (each : ∀ a ∈ xs, ∀ b, Reads (body a b) s (.yield (g a b))) (b₀ : β) :
    Reads (forIn xs b₀ body) s (xs.foldl (fun b a => g a b) b₀) := by
  induction xs generalizing b₀ with
  | nil => rfl
  | cons a rest ih =>
    simp only [Reads, List.forIn_cons, EStateM.run_bind, List.foldl_cons]
    rw [each a List.mem_cons_self b₀]
    exact ih (fun a' member => each a' (List.mem_cons_of_mem a member)) _

theorem foldl_push_eq_map {α β : Type} (h : α → β) (xs : List α) (acc : Array β) :
    xs.foldl (fun out a => out.push (h a)) acc = acc ++ (xs.map h).toArray := by
  induction xs generalizing acc with
  | nil => simp
  | cons a rest ih => simp [ih]

theorem backtrace_run {m : Machine} {c : Context} (running : m.contexts[m.current]? = some c)
    (traceable : ∀ f ∈ c.frames, f.Traceable m.store) :
    backtrace.run m = .ok (c.frames.reverse.map (·.traceLine m.store)) m := by
  unfold backtrace
  rw [EStateM.run_bind, currentContext_run, running]
  dsimp only
  rw [EStateM.run_bind, ← Array.forIn_toList,
    (forIn_reads_yield m (fun f out => out.push (f.traceLine m.store)) ?each #[]).run_eq,
    foldl_push_eq_map]
  · dsimp only
    rw [EStateM.run_pure]
    congr 1
    apply Array.toList_inj.1
    simp
  case each =>
    intro f member out
    have frame := traceable f (by simpa using member)
    simp only [Reads, EStateM.run_bind, frameLabel_run frame]
    cases code : f.code with
    | native q => simp [Frame.traceLine, code]
    | compiled p body =>
      have sorted := frame.sorted body (by simp [Frame.body?, code])
      simp [Frame.traceLine, code, Procedure.lineAt_eq_lineBefore sorted]

def raisedKept : StateOrder Machine where
  rel m m' := (Store.infoKept Body.exceptionInfo).rel m.store m'.store
  refl m := (Store.infoKept _).refl m.store
  trans h₁ h₂ := (Store.infoKept _).trans h₁ h₂

theorem raisedKept_of_readOnly {α : Type} {x : MachineM α} (hx : ReadOnly x) : Keeps raisedKept x :=
  fun m => by
    have same : m = endState (x.run m) := hx m
    rw [← same]
    exact raisedKept.refl m

theorem raisedKept_of_store {α : Type} {x : MachineM α}
    (fixed : ∀ m, (endState (x.run m)).store = m.store) : Keeps raisedKept x := fun m => by
  show (Store.infoKept _).rel _ _
  rw [fixed m]
  exact (Store.infoKept _).refl _

theorem raisedKept_modifyObj {r : ObjRef} {g : Obj → Obj} {m : Machine}
    (same : ∀ o, m.store.heap[r.idx]? = some o → (g o).body.exceptionInfo = o.body.exceptionInfo) :
    raisedKept.rel m (endState ((liftStore (Store.modifyObj r g)).run m)) := by
  have kept := Store.modifyObj_infoKept same
  rw [liftStore_run]
  cases h : (Store.modifyObj r g).run m.store with
  | ok a s => rw [h] at kept; exact kept
  | error e s => rw [h] at kept; exact kept

theorem raisedKept_modifyContext (i : Nat) (g : Context → Context) :
    Keeps raisedKept (modifyContext i g) := raisedKept_of_store fun _ => rfl

theorem raisedKept_modifyCurrent (g : Context → Context) : Keeps raisedKept (modifyCurrent g) :=
  raisedKept_of_store fun _ => rfl

theorem raisedKept_modifyTop (g : Frame → Frame) : Keeps raisedKept (modifyTop g) :=
  raisedKept_modifyCurrent _

theorem raisedKept_setExc (v : Value) : Keeps raisedKept (setExc v) :=
  raisedKept_modifyCurrent _

theorem raisedKept_switch (r : Nat) :
    Keeps raisedKept (modify fun m => { m with current := r } : MachineM Unit) :=
  raisedKept_of_store fun _ => rfl

theorem raisedKept_setMode (md : Mode) : Keeps raisedKept (setMode md) :=
  raisedKept_of_store fun _ => rfl

theorem raisedKept_setSlot (i : Nat) (v : Value) : Keeps raisedKept (setSlot i v) := by
  refine Keeps.bind (raisedKept_of_readOnly readOnly_currentIndex) fun ci => ?_
  unfold writeSlot
  refine Keeps.bind (raisedKept_of_readOnly (readOnly_context ci)) fun c => ?_
  split
  · exact raisedKept_modifyContext ci _
  · exact Keeps.throw _

theorem raisedKept_fiberEnded (result : Except Value Value) : Keeps raisedKept (fiberEnded result) := by
  unfold fiberEnded
  refine Keeps.bind (raisedKept_of_readOnly readOnly_currentContext) fun c => ?_
  split
  · exact Keeps.throw _
  · refine Keeps.bind (raisedKept_modifyCurrent _) fun _ => ?_
    refine Keeps.bind (raisedKept_switch _) fun _ => ?_
    split <;> exact raisedKept_setMode _

theorem raisedKept_leaveWithValue (kind : CallKind) (v : Value) :
    Keeps raisedKept (leaveWithValue kind v) := by
  unfold leaveWithValue
  split
  · exact raisedKept_fiberEnded _
  · refine Keeps.bind (raisedKept_of_readOnly readOnly_depth) fun _ => ?_
    split <;> exact raisedKept_setMode _

theorem raisedKept_leaveWithException (kind : CallKind) (exc : Value) :
    Keeps raisedKept (leaveWithException kind exc) := by
  unfold leaveWithException
  split
  · exact raisedKept_fiberEnded _
  · refine Keeps.bind (raisedKept_of_readOnly readOnly_depth) fun _ => ?_
    split <;> exact raisedKept_setMode _

theorem raisedKept_orphanStep (c : Context) (f : Frame) : Keeps raisedKept (orphanStep c f) := by
  unfold orphanStep
  split
  · refine Keeps.bind_run (raisedKept_of_readOnly (readOnly_procOf? _)) fun s found t read => ?_
    obtain rfl := (readOnly_procOf? _).ok_state read
    split
    · obtain ⟨o, stored, body⟩ := procOf?_found ((readOnly_procOf? _).reads read)
      split
      · -- the object rewritten is the procedure found, and stays one
        exact raisedKept_modifyObj fun o' stored' => by
          rw [stored] at stored'
          cases stored'
          simp [body, Body.exceptionInfo]
      · exact raisedKept.refl _
    · exact raisedKept.refl _
  · exact Keeps.pure _

theorem raisedKept_unshareEnv (r : ObjRef) : Keeps raisedKept (unshareEnv r) := by
  refine Keeps.bind_run (raisedKept_of_readOnly (readOnly_envData r)) fun m e t found => ?_
  obtain rfl := (readOnly_envData r).ok_state found
  obtain ⟨o, stored, body⟩ := envData_found ((readOnly_envData r).reads found)
  split
  · exact raisedKept.refl t
  · refine Keeps.rel_bind (raisedKept_of_readOnly (readOnly_context _)) fun c t' found' => ?_
    obtain rfl := (readOnly_context _).ok_state found'
    split
    · exact raisedKept_modifyObj fun o' stored' => by
        rw [stored] at stored'
        cases stored'
        simp [body, Body.exceptionInfo]
    · exact raisedKept.refl _

theorem raisedKept_popFrame : Keeps raisedKept popFrame := by
  rw [popFrame_eq]
  refine Keeps.bind (raisedKept_of_readOnly readOnly_currentContext) fun c => ?_
  split
  · exact Keeps.throw _
  · refine Keeps.bind (raisedKept_orphanStep _ _) fun _ => ?_
    refine Keeps.bind ?_ fun _ => raisedKept_modifyCurrent _
    unfold unshareStep
    split
    · exact raisedKept_unshareEnv _
    · exact Keeps.pure _

theorem raisedKept_returnFrom (v : Value) : Keeps raisedKept (returnFrom v) := by
  unfold returnFrom
  refine Keeps.bind (raisedKept_of_readOnly readOnly_topFrame) fun f => ?_
  refine Keeps.bind raisedKept_popFrame fun _ => ?_
  split
  · exact raisedKept_leaveWithValue _ _
  · refine Keeps.bind (raisedKept_of_readOnly readOnly_topFrame) fun _ => ?_
    exact Keeps.bind (raisedKept_setSlot _ _) fun _ => raisedKept_setMode _

theorem raisedKept_unwind_go (exc : Value) (brk : Option (BreakKind × Nat × Value)) (fuel : Nat)
    (acc : Int) : Keeps raisedKept (unwind.go exc brk fuel acc) := by
  -- the search for a handler pops one frame per round, for at most its fuel
  induction fuel generalizing acc with
  | zero => exact Keeps.throw _
  | succ fuel ih =>
    simp only [unwind.go]
    repeat' first
      | with_reducible apply Keeps.pure _
      | with_reducible apply ih _
      | with_reducible apply raisedKept_popFrame
      | with_reducible apply raisedKept_returnFrom _
      | with_reducible apply raisedKept_of_readOnly readOnly_topFrame
      | with_reducible apply raisedKept_of_readOnly (readOnly_findHandler _ _)
      | with_reducible apply raisedKept_of_readOnly (readOnly_findBreakHandler _)
      | with_reducible apply raisedKept_setSlot _ _
      | with_reducible apply raisedKept_setExc _
      | with_reducible apply raisedKept_modifyTop _
      | with_reducible apply raisedKept_leaveWithException _ _
      | with_reducible apply raisedKept_setMode _
      | with_reducible refine Keeps.bind ?_ fun _ => ?_
      | split

theorem raisedKept_unwind_rest (exc : Value) : Keeps raisedKept (do
    let brk ← breakOf? exc
    unwind.go exc brk ((← depth) + 1) (-1)) := by
  refine Keeps.bind (raisedKept_of_readOnly (readOnly_breakOf? exc)) fun brk => ?_
  exact Keeps.bind (raisedKept_of_readOnly readOnly_depth) fun _ => raisedKept_unwind_go _ _ _ _

section Recording

variable {m : Machine} {c : Context} {r : ObjRef} {o : Obj} {msg : Value} {bt? : Option (Array String)}

theorem noteBacktrace_records (running : m.contexts[m.current]? = some c)
    (traceable : ∀ f ∈ c.frames, f.Traceable m.store) (stored : m.store.heap[r.idx]? = some o)
    (raised : o.body = .exception msg bt?) :
    ∃ o', (endState ((noteBacktrace (.obj r)).run m)).store.heap[r.idx]? = some o' ∧
      o'.body = .exception msg (some (bt?.getD (c.frames.reverse.map (·.traceLine m.store)))) := by
  cases bt? with
  | some bt =>
    refine ⟨o, ?_, raised⟩
    simp [noteBacktrace, liftStore_run, Store.getObj, stored, raised, EStateM.run_bind, endState]
  | none =>
    obtain ⟨within, got⟩ := Array.getElem?_eq_some_iff.1 stored
    refine ⟨{ o with body := .exception msg (some (c.frames.reverse.map (·.traceLine m.store))) },
      ?_, rfl⟩
    simp [noteBacktrace, liftStore_run, Store.getObj, within, got, raised, EStateM.run_bind,
      backtrace_run running traceable, Store.modifyObj, endState, Array.getElem_modify]

theorem recorded_after {x : MachineM Unit} (rest : Keeps raisedKept x)
    (running : m.contexts[m.current]? = some c) (traceable : ∀ f ∈ c.frames, f.Traceable m.store)
    (stored : m.store.heap[r.idx]? = some o) (raised : o.body = .exception msg bt?) :
    ∃ o', (endState ((noteBacktrace (.obj r) >>= fun _ => x).run m)).store.heap[r.idx]? = some o' ∧
      o'.body = .exception msg (some (bt?.getD (c.frames.reverse.map (·.traceLine m.store)))) := by
  obtain ⟨o₁, noted, recorded⟩ := noteBacktrace_records running traceable stored raised
  obtain ⟨o₂, found, same⟩ := Keeps.rel_after (fun _ => rest) m r.idx o₁ noted
  refine ⟨o₂, found, Body.exceptionInfo_eq_some.1 ?_⟩
  rw [same, recorded]
  rfl

theorem raise_records_backtrace (live : m.frames ≠ #[])
    (traceable : ∀ f ∈ m.frames, f.Traceable m.store) (stored : m.store.heap[r.idx]? = some o)
    (raised : o.body = .exception msg bt?) :
    ∀ raise ∈ [unwind (.obj r), nativeRaise (.obj r)],
      ∃ o', (endState (raise.run m)).store.heap[r.idx]? = some o' ∧
        o'.body = .exception msg (some (bt?.getD (m.frames.reverse.map (·.traceLine m.store)))) := by
  obtain ⟨c, running⟩ : ∃ c, m.contexts[m.current]? = some c := by
    cases h : m.contexts[m.current]? with
    | none => simp [frames, h] at live
    | some c => exact ⟨c, rfl⟩
  have onStack : m.frames = c.frames := by simp [frames, running]
  rw [onStack] at live traceable ⊢
  have throughUnwind := recorded_after (raisedKept_unwind_rest (.obj r)) running traceable stored raised
  simp only [List.mem_cons, List.not_mem_nil, or_false]
  rintro raise (rfl | rfl)
  · exact throughUnwind
  · -- a built-in method raises from the top frame, which is there
    obtain ⟨f, top⟩ : ∃ f, c.frames.back? = some f :=
      Option.isSome_iff_exists.1 (by simpa [Array.back?_isSome] using live)
    unfold nativeRaise
    rw [EStateM.run_bind, topFrame_run, show m.top? = some f by simp [top?, frames, running, top]]
    dsimp only
    split
    · exact throughUnwind
    · exact recorded_after (Keeps.bind raisedKept_popFrame fun _ => raisedKept_leaveWithException _ _)
        running traceable stored raised

end Recording

theorem first_raise_in_builtin_records_backtrace :
    let m : Machine :=
      { store := { heap := #[{ cls := none, body := .exception .nil none }] }
        contexts := #[{ stack := #[], frames := #[
          { serial := 0, base := 0, nregs := 0, code := .native none, argc := 0, kwc := 0,
            kind := .host, mid := ⟨0⟩, owner := none, acc := -1, blk := .nil }] }] }
    let recorded : Body := .exception .nil (some #["(native):in '<main>'"])
    (∃ o', (endState ((unwind (.obj ⟨0⟩)).run m)).store.heap[0]? = some o' ∧ o'.body = recorded) ∧
      (∃ o', (endState ((nativeRaise (.obj ⟨0⟩)).run m)).store.heap[0]? = some o' ∧ o'.body = recorded) := by
  intro m recorded
  have each := @raise_records_backtrace m ⟨0⟩ { cls := none, body := .exception .nil none } .nil none
    (by simp [m, frames]) (by simpa [m, frames] using Frame.traceable_native rfl) rfl rfl
  have text : (none : Option (Array String)).getD (m.frames.reverse.map (·.traceLine m.store)) =
      #["(native):in '<main>'"] := by
    decide +kernel
  rw [text] at each
  exact ⟨each _ List.mem_cons_self, each _ (by simp)⟩

end Machine

end RegisterVM
