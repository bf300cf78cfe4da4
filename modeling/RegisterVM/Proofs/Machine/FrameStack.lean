import RegisterVM.Proofs.Machine.Effect

set_option autoImplicit false

namespace RegisterVM

def Body.breakInfo : Body → Option (BreakKind × Nat × Value)
  | .brk kind target val => some (kind, target, val)
  | _ => none

namespace Store

def breaksKept : StateOrder Store where
  rel s s' := ∀ (i : Nat) (o : Obj), s.heap[i]? = some o →
    ∃ o' : Obj, s'.heap[i]? = some o' ∧ o'.body.breakInfo = o.body.breakInfo
  refl s i o found := ⟨o, found, rfl⟩
  trans h₁ h₂ i o found := by
    obtain ⟨o₁, found₁, same₁⟩ := h₁ i o found
    obtain ⟨o₂, found₂, same₂⟩ := h₂ i o₁ found₁
    exact ⟨o₂, found₂, same₂.trans same₁⟩

theorem breaksKept_rel (s s' : Store) : breaksKept.rel s s' ↔ ∀ (i : Nat) (o : Obj), s.heap[i]? = some o →
    ∃ o' : Obj, s'.heap[i]? = some o' ∧ o'.body.breakInfo = o.body.breakInfo := Iff.rfl

theorem modifyObj_breaksKept {s : Store} {r : ObjRef} {g : Obj → Obj}
    (same : ∀ o, s.heap[r.idx]? = some o → (g o).body.breakInfo = o.body.breakInfo) :
    breaksKept.rel s (endState ((modifyObj r g).run s)) := by
  simp only [modifyObj, EStateM.run_bind, EStateM.run_get]
  split
  · rw [breaksKept_rel]
    intro i o found
    simp only [EStateM.run_modify, endState, Array.getElem?_modify]
    by_cases here : r.idx = i
    · subst here
      exact ⟨g o, by simp [found], same o found⟩
    · exact ⟨o, by simp [here, found], rfl⟩
  · exact breaksKept.refl s

end Store

namespace Machine

def framesKept : StateOrder Machine where
  rel m m' := storeOnly.rel m m' ∧ Store.breaksKept.rel m.store m'.store
  refl m := ⟨storeOnly.refl m, Store.breaksKept.refl m.store⟩
  trans h₁ h₂ := ⟨storeOnly.trans h₁.1 h₂.1, Store.breaksKept.trans h₁.2 h₂.2⟩

theorem framesKept_of_readOnly {α : Type} {x : MachineM α} (hx : ReadOnly x) : Keeps framesKept x :=
  fun m => by
    have same : m = endState (x.run m) := hx m
    rw [← same]
    exact framesKept.refl m

theorem framesKept_modifyObj {r : ObjRef} {g : Obj → Obj} {m : Machine}
    (same : ∀ o, m.store.heap[r.idx]? = some o → (g o).body.breakInfo = o.body.breakInfo) :
    framesKept.rel m (endState ((liftStore (Store.modifyObj r g)).run m)) := by
  refine ⟨storeOnly_liftStore _ m, ?_⟩
  have kept := Store.modifyObj_breaksKept same
  rw [liftStore_run]
  cases h : (Store.modifyObj r g).run m.store with
  | ok a s => rw [h] at kept; exact kept
  | error e s => rw [h] at kept; exact kept

theorem procOf?_found {v : Value} {r : ObjRef} {p : ProcData} {m : Machine}
    (found : Reads (procOf? v) m (some (r, p))) :
    ∃ o, m.store.heap[r.idx]? = some o ∧ o.body = .proc p := by
  cases v with
  | obj r' =>
    simp only [Reads, procOf?, liftStore_run, Store.procOf?, Store.getObj, EStateM.run_bind,
      EStateM.run_get] at found
    cases h : m.store.heap[r'.idx]? with
    | none => simp [h, Store.runtimeFault, throw_run] at found
    | some o =>
      simp only [h] at found
      cases hb : o.body with
      | proc q =>
        simp only [hb, EStateM.run_pure, EStateM.Result.ok.injEq, Option.some.injEq,
          Prod.mk.injEq] at found
        obtain ⟨⟨rfl, rfl⟩, -⟩ := found
        exact ⟨o, h, hb⟩
      | _ => simp [hb] at found
  | _ => simp [Reads, procOf?, liftStore_run, Store.procOf?] at found

theorem readOnly_envData (r : ObjRef) : ReadOnly (envData r) := by
  refine Keeps.bind (readOnly_liftStore (Store.readOnly_getObj r)) fun o => ?_
  split
  · exact Keeps.pure _
  · exact readOnly_runtimeFault

theorem envData_found {r : ObjRef} {e : EnvData} {m : Machine} (found : Reads (envData r) m e) :
    ∃ o, m.store.heap[r.idx]? = some o ∧ o.body = .env e := by
  simp only [Reads, envData, liftStore_run, Store.getObj, EStateM.run_bind, EStateM.run_get] at found
  cases h : m.store.heap[r.idx]? with
  | none => simp [h, Store.runtimeFault, throw_run] at found
  | some o =>
    simp only [h] at found
    cases hb : o.body with
    | env e' =>
      simp only [hb, EStateM.run_pure, EStateM.Result.ok.injEq] at found
      obtain ⟨rfl, -⟩ := found
      exact ⟨o, rfl, hb⟩
    | _ => simp [hb, runtimeFault, throw_run] at found

theorem framesKept_unshareEnv (r : ObjRef) : Keeps framesKept (unshareEnv r) := by
  refine Keeps.bind_run (framesKept_of_readOnly (readOnly_envData r)) fun m e t found => ?_
  obtain rfl := (readOnly_envData r).ok_state found
  obtain ⟨o, stored, body⟩ := envData_found ((readOnly_envData r).reads found)
  split
  · exact framesKept.refl t
  · refine Keeps.rel_bind (framesKept_of_readOnly (readOnly_context _)) fun c t' found' => ?_
    obtain rfl := (readOnly_context _).ok_state found'
    split
    · exact framesKept_modifyObj fun o' stored' => by
        rw [stored] at stored'
        cases stored'
        simp [body, Body.breakInfo]
    · exact framesKept.refl _

def orphanStep (c : Context) (f : Frame) : MachineM Unit :=
  if c.frames.size ≥ 2 then do
    let parent := c.frames.getD (c.frames.size - 2) default
    match ← procOf? f.blk with
    | some (r, p) =>
      if !p.strict && p.env.isSome && p.env == parent.env then
        liftStore (Store.modifyObj r fun o => { o with body := .proc { p with orphan := true } })
      else pure ()
    | none => pure ()
  else pure ()

def unshareStep (f : Frame) : MachineM Unit :=
  match f.env with
  | some e => unshareEnv e
  | none => pure ()

theorem popFrame_eq : popFrame = (do
    let c ← currentContext
    match c.frames.back? with
    | none => runtimeFault
    | some f => do
      orphanStep c f
      unshareStep f
      modifyCurrent fun c => { c with frames := c.frames.pop }) := by
  unfold popFrame
  congr 1
  funext c
  cases c.frames.back? with
  | none => rfl
  | some f =>
    simp only [orphanStep, unshareStep]
    -- each test is decided by hand, so that both sides take the same branch
    by_cases two : c.frames.size ≥ 2
    · simp only [two, if_true, bind_assoc]
      congr 1
      funext found
      rcases found with _ | ⟨r, p⟩
      · cases f.env <;> rfl
      · dsimp only
        by_cases cond : (!p.strict && p.env.isSome &&
            p.env == (c.frames.getD (c.frames.size - 2) default).env) = true
        · simp only [cond, if_true]
          congr 1
          funext u
          cases f.env <;> rfl
        · simp only [cond, Bool.false_eq_true, if_false]
          cases f.env <;> rfl
    · simp only [two, if_false]
      cases f.env <;> rfl

theorem popFrame_ok {m m' : Machine} (run : popFrame.run m = .ok () m') :
    ∃ f, m.top? = some f ∧ ∃ s, Store.breaksKept.rel m.store s ∧
      m' = { m.updCurrent (fun c => { c with frames := c.frames.pop }) with store := s } := by
  rw [popFrame_eq] at run
  obtain ⟨c, m₀, current, run⟩ := bind_run_ok run
  have same := readOnly_currentContext.ok_state current
  subst m₀
  rw [currentContext_run] at current
  have stored : m.contexts[m.current]? = some c := by
    cases h : m.contexts[m.current]? with
    | none => rw [h] at current; cases current
    | some c' => rw [h] at current; cases current; rfl
  cases top : c.frames.back? with
  | none =>
    simp only [top] at run
    cases run
  | some f =>
    simp only [top] at run
    obtain ⟨_, m₁, orphan, run⟩ := bind_run_ok run
    obtain ⟨_, m₂, unshare, run⟩ := bind_run_ok run
    rw [modifyCurrent_run] at run
    cases run
    -- orphaning the block only rewrites a procedure object as a procedure object
    have kept₁ : framesKept.rel m m₁ := by
      refine Keeps.rel_of_ok ?_ orphan
      unfold orphanStep
      split
      · refine Keeps.bind_run (framesKept_of_readOnly (readOnly_procOf? _)) fun s found t read => ?_
        obtain rfl := (readOnly_procOf? _).ok_state read
        split
        · rename_i r p _
          obtain ⟨o, stored, body⟩ := procOf?_found ((readOnly_procOf? _).reads read)
          split
          · exact framesKept_modifyObj fun o' stored' => by
              rw [stored] at stored'
              cases stored'
              simp [body, Body.breakInfo]
          · exact framesKept.refl _
        · exact framesKept.refl _
      · exact Keeps.pure _
    have kept₂ : framesKept.rel m₁ m₂ := by
      refine Keeps.rel_of_ok ?_ unshare
      unfold unshareStep
      split
      · exact framesKept_unshareEnv _
      · exact Keeps.pure _
    obtain ⟨same, breaks⟩ := framesKept.trans kept₁ kept₂
    refine ⟨f, by simp [top?, frames, stored, top], m₂.store, breaks, ?_⟩
    rw [same]
    rfl

end Machine

end RegisterVM
