import RegisterVM.Proofs.Native.Environments
import RegisterVM.Proofs.Machine.FrameStack

set_option autoImplicit false

namespace RegisterVM

def EnvSlots.frame? : EnvSlots → Option (Nat × Nat × Nat)
  | .live ci s b => some (ci, s, b)
  | .copied _ => none

namespace Store

def sharing (st : Store) (r : ObjRef) : Option (Option (Nat × Nat × Nat)) :=
  (st.envAt r).map (·.slots.frame?)

theorem sharing_of_envsKept {s t : Store} (kept : envsKept.rel s t) (r : ObjRef) :
    t.sharing r = s.sharing r := by
  simp only [sharing, kept r]

theorem lt_size_of_sharing {st : Store} {r : ObjRef} {x : Option (Nat × Nat × Nat)}
    (h : st.sharing r = some x) : r.idx < st.heap.size := by
  simp only [sharing, envAt, Option.map_eq_some_iff, Option.bind_eq_some_iff] at h
  obtain ⟨_, ⟨o, found, _⟩, _⟩ := h
  exact (Array.getElem?_eq_some_iff.mp found).1

theorem sharing_modify {st : Store} {r : ObjRef} {g : Obj → Obj} (r' : ObjRef) :
    ({ st with heap := st.heap.modify r.idx g } : Store).sharing r' =
      if r.idx = r'.idx then (st.heap[r'.idx]?.bind fun o => (g o).env?).map (·.slots.frame?)
      else st.sharing r' := by
  simp only [sharing, envAt, Array.getElem?_modify]
  split
  · cases st.heap[r'.idx]? <;> rfl
  · rfl

theorem sharing_push {st : Store} (o : Obj) (r : ObjRef) :
    ({ st with heap := st.heap.push o } : Store).sharing r =
      if r.idx = st.heap.size then o.env?.map (·.slots.frame?) else st.sharing r := by
  simp only [sharing, envAt, Array.getElem?_push]
  by_cases fresh : r.idx = st.heap.size
  · simp [fresh]
  · simp only [fresh, if_false]

theorem envAt_modifyObj (r : ObjRef) (g : Obj → Obj) (st : Store) (r' : ObjRef) :
    (endState ((modifyObj r g).run st)).envAt r' =
      if r.idx = r'.idx then (st.heap[r.idx]?.map g).bind Obj.env? else st.envAt r' := by
  rw [modifyObj_run]
  by_cases within : r.idx < st.heap.size
  · simp only [within, if_true, endState, envAt, Array.getElem?_modify]
    split
    · next here => rw [here]
    · rfl
  · simp only [within, if_false, endState]
    split
    · next here =>
      -- past the end of the heap there is nothing to rewrite, nor an environment
      have past : st.heap.size ≤ r.idx := Nat.le_of_not_lt within
      simp [envAt, ← here, Array.getElem?_eq_none past]
    · rfl

end Store

def Frame.link (f : Frame) : Nat × Nat × Option ObjRef := (f.serial, f.base, f.env)

namespace Machine

def frameAt (m : Machine) (ci j : Nat) : Option Frame := m.contexts[ci]?.bind (·.frames[j]?)

def linkAt (m : Machine) (ci j : Nat) : Option (Nat × Nat × Option ObjRef) :=
  (m.frameAt ci j).map Frame.link

structure EnvsLinked (m : Machine) : Prop where
  shared : ∀ r ci s b, m.store.sharing r = some (some (ci, s, b)) ↔
    ∃ j, m.linkAt ci j = some (s, b, some r)
  owner : ∀ {r : ObjRef} {ci j ci' j' s b s' b' : Nat}, m.linkAt ci j = some (s, b, some r) →
    m.linkAt ci' j' = some (s', b', some r) → ci' = ci ∧ j' = j

def linksKept : StateOrder Machine where
  rel m m' := (∀ r, m'.store.sharing r = m.store.sharing r) ∧ ∀ ci j, m'.linkAt ci j = m.linkAt ci j
  refl _ := ⟨fun _ => rfl, fun _ _ => rfl⟩
  trans first second :=
    ⟨fun r => (second.1 r).trans (first.1 r), fun ci j => (second.2 ci j).trans (first.2 ci j)⟩

def envsSound : StateOrder Machine where
  rel m m' := (∀ r, m.store.sharing r = some none → m'.store.sharing r = some none) ∧
    (EnvsLinked m → EnvsLinked m')
  refl _ := ⟨fun _ copied => copied, id⟩
  trans first second := ⟨fun r copied => second.1 r (first.1 r copied), fun linked => second.2 (first.2 linked)⟩

section Links

variable {m m' : Machine}

theorem EnvsLinked.lt_size (h : EnvsLinked m) {ci j s b : Nat} {r : ObjRef}
    (held : m.linkAt ci j = some (s, b, some r)) : r.idx < m.store.heap.size :=
  Store.lt_size_of_sharing ((h.shared r ci s b).mpr ⟨j, held⟩)

theorem EnvsLinked.congr (h : EnvsLinked m) (sharing : ∀ r, m'.store.sharing r = m.store.sharing r)
    (holds : ∀ ci j s b r, m'.linkAt ci j = some (s, b, some r) ↔ m.linkAt ci j = some (s, b, some r)) :
    EnvsLinked m' where
  shared r ci s b := by
    simp only [sharing, holds]
    exact h.shared r ci s b
  owner held held' := h.owner ((holds ..).mp held) ((holds ..).mp held')

theorem envsSound_of_linksKept (kept : linksKept.rel m m') : envsSound.rel m m' :=
  ⟨fun r copied => (kept.1 r).trans copied,
    fun linked => linked.congr kept.1 fun ci j _ _ _ => by rw [kept.2 ci j]⟩

theorem Keeps.envsSound_of_linksKept {α : Type} {x : MachineM α} (hx : Keeps linksKept x) :
    Keeps envsSound x :=
  fun m => Machine.envsSound_of_linksKept (hx m)

theorem linksKept_of_storeOnly (same : storeOnly.rel m m') (envs : storeEnvs.rel m m') :
    linksKept.rel m m' := by
  refine ⟨Store.sharing_of_envsKept envs, fun ci j => ?_⟩
  have outside : m' = { m with store := m'.store } := same
  rw [outside]
  rfl

theorem Keeps.linksKept_of_storeOnly {α : Type} {x : MachineM α} (same : Keeps storeOnly x)
    (envs : Keeps storeEnvs x) : Keeps linksKept x :=
  fun m => Machine.linksKept_of_storeOnly (same m) (envs m)

theorem linksKept_of_readOnly {α : Type} {x : MachineM α} (hx : ReadOnly x) : Keeps linksKept x :=
  hx.keeps _

theorem linksKept_liftStore {α : Type} {x : StoreM α} (hx : Keeps Store.envsKept x) :
    Keeps linksKept (liftStore x) :=
  Keeps.linksKept_of_storeOnly (storeOnly_liftStore x) (storeEnvs_liftStore hx)

theorem frameAt_modifyContext (m : Machine) (i ci j : Nat) (g : Context → Context) :
    ({ m with contexts := m.contexts.modify i g } : Machine).frameAt ci j =
      if i = ci then m.contexts[ci]?.bind fun c => (g c).frames[j]? else m.frameAt ci j := by
  simp only [frameAt, Array.getElem?_modify]
  split
  · cases m.contexts[ci]? <;> rfl
  · rfl

theorem linksKept_modifyContext (i : Nat) {g : Context → Context}
    (same : ∀ c (j : Nat), ((g c).frames[j]?).map Frame.link = (c.frames[j]?).map Frame.link) :
    Keeps linksKept (modifyContext i g) := fun m => by
  refine ⟨fun _ => rfl, fun ci j => ?_⟩
  show (({ m with contexts := m.contexts.modify i g } : Machine).frameAt ci j).map Frame.link =
    (m.frameAt ci j).map Frame.link
  rw [frameAt_modifyContext]
  split
  · simp only [frameAt]
    cases m.contexts[ci]? with
    | none => rfl
    | some c => exact same c j
  · rfl

theorem linksKept_modifyCurrent {g : Context → Context}
    (same : ∀ c (j : Nat), ((g c).frames[j]?).map Frame.link = (c.frames[j]?).map Frame.link) :
    Keeps linksKept (modifyCurrent g) :=
  Keeps.bind (linksKept_of_readOnly readOnly_currentIndex) fun i => linksKept_modifyContext i same

theorem linksKept_modifyCurrent_of {g : Context → Context} (frames : ∀ c, (g c).frames = c.frames) :
    Keeps linksKept (modifyCurrent g) :=
  linksKept_modifyCurrent fun c _ => by rw [frames c]

theorem linksKept_modifyTop {g : Frame → Frame} (kept : ∀ f, (g f).link = f.link) :
    Keeps linksKept (modifyTop g) :=
  linksKept_modifyCurrent fun c j => by
    simp only [Array.getElem?_modify]
    split
    · cases c.frames[j]? <;> simp [kept]
    · rfl

theorem linksKept_writeSlot (ci i : Nat) (v : Value) : Keeps linksKept (writeSlot ci i v) := by
  unfold writeSlot
  refine Keeps.bind (linksKept_of_readOnly (readOnly_context ci)) fun c => ?_
  split
  · exact linksKept_modifyContext ci fun _ _ => rfl
  · exact linksKept_of_readOnly readOnly_runtimeFault

theorem linksKept_setSlot (i : Nat) (v : Value) : Keeps linksKept (setSlot i v) :=
  Keeps.bind (linksKept_of_readOnly readOnly_currentIndex) fun ci => linksKept_writeSlot ci i v

theorem linksKept_setReg (f : Frame) (i : Nat) (v : Value) : Keeps linksKept (setReg f i v) := by
  unfold setReg
  split
  · exact linksKept_setSlot _ _
  · exact linksKept_of_readOnly readOnly_runtimeFault

theorem linksKept_growStack (n : Nat) : Keeps linksKept (growStack n) :=
  linksKept_modifyCurrent_of fun c => by split <;> rfl

theorem linksKept_setExc (v : Value) : Keeps linksKept (setExc v) :=
  linksKept_modifyCurrent_of fun _ => rfl

theorem linksKept_nextSerial : Keeps linksKept nextSerial := fun _ => ⟨fun _ => rfl, fun _ _ => rfl⟩

theorem linksKept_setMode (md : Mode) : Keeps linksKept (setMode md) :=
  fun _ => ⟨fun _ => rfl, fun _ _ => rfl⟩

theorem linksKept_modifyObj {r : ObjRef} {g : Obj → Obj}
    (same : ∀ o, m.store.heap[r.idx]? = some o →
      ((g o).env?).map (·.slots.frame?) = (o.env?).map (·.slots.frame?)) :
    linksKept.rel m (endState ((liftStore (Store.modifyObj r g)).run m)) := by
  rw [liftStore_run, Store.modifyObj_run]
  by_cases within : r.idx < m.store.heap.size
  · simp only [within, if_true, endState]
    refine ⟨fun r' => ?_, fun _ _ => rfl⟩
    rw [Store.sharing_modify]
    split
    · next here =>
      simp only [Store.sharing, Store.envAt, ← here]
      cases found : m.store.heap[r.idx]? with
      | none => rfl
      | some o => simp [same o found]
    · rfl
  · simp only [within, if_false, endState]
    exact linksKept.refl m

theorem linksKept_envSet (r : ObjRef) (i : Nat) (v : Value) : Keeps linksKept (envSet r i v) := by
  unfold envSet
  refine Keeps.bind_run (linksKept_of_readOnly (readOnly_envData r)) fun m e t found => ?_
  obtain rfl := (readOnly_envData r).ok_state found
  obtain ⟨o, stored, body⟩ := envData_found ((readOnly_envData r).reads found)
  split
  · exact linksKept.refl _
  · split
    · next slots copied =>
      split
      · -- the copied slots stay copied
        exact linksKept_modifyObj fun o' stored' => by
          rw [stored] at stored'
          cases stored'
          simp [Obj.env?, body, copied, EnvSlots.frame?]
      · exact linksKept.refl _
    · exact linksKept_writeSlot _ _ _ _

end Links

section Moves

variable {m : Machine}

theorem linkAt_updCurrent (m : Machine) (g : Context → Context) (ci j : Nat) :
    (m.updCurrent g).linkAt ci j =
      if m.current = ci then (m.contexts[ci]?.bind fun c => (g c).frames[j]?).map Frame.link
      else m.linkAt ci j := by
  simp only [linkAt, updCurrent, frameAt_modifyContext]
  split <;> rfl

theorem linkAt_top {c : Context} {f : Frame} (stored : m.contexts[m.current]? = some c)
    (top : c.frames.back? = some f) : m.linkAt m.current (c.frames.size - 1) = some f.link := by
  rw [Array.back?_eq_getElem?] at top
  simp [linkAt, frameAt, stored, top]

theorem EnvsLinked.pushed (h : EnvsLinked m) {f : Frame} (fresh : f.env = none) :
    EnvsLinked (m.updCurrent fun c => { c with frames := c.frames.push f }) := by
  refine h.congr (fun _ => rfl) fun ci j s b r => ?_
  rw [linkAt_updCurrent]
  split
  · next here =>
    subst here
    simp only [linkAt, frameAt]
    cases m.contexts[m.current]? with
    | none => rfl
    | some c =>
      simp only [Option.bind_some, Array.getElem?_push]
      split
      · next last => simp [last, Frame.link, fresh]
      · rfl
  · rfl

theorem linkAt_popped {c : Context} (stored : m.contexts[m.current]? = some c) (s : Store)
    (ci j : Nat) (x : Nat × Nat × Option ObjRef) :
    ({ m with store := s }.updCurrent fun c => { c with frames := c.frames.pop }).linkAt ci j = some x ↔
      m.linkAt ci j = some x ∧ ¬(ci = m.current ∧ j = c.frames.size - 1) := by
  rw [linkAt_updCurrent]
  split
  · next here =>
    subst here
    simp only [linkAt, frameAt, stored, Option.bind_some, Array.getElem?_pop]
    split
    · next below =>
      simp only [true_and]
      exact ⟨fun held => ⟨held, by omega⟩, And.left⟩
    · next above =>
      simp only [Option.map_none, reduceCtorEq, false_iff, not_and, not_not, true_and]
      intro held
      -- a frame at or past the top that is not the top is past the end
      by_contra notTop
      have past : c.frames.size ≤ j := by omega
      simp [Array.getElem?_eq_none past] at held
  · next other =>
    constructor
    · intro held
      exact ⟨held, fun ⟨same, _⟩ => other same.symm⟩
    · exact fun held => held.1

theorem envsSound_popped {c : Context} {f : Frame} {s : Store}
    (stored : m.contexts[m.current]? = some c) (top : c.frames.back? = some f)
    (others : ∀ r, f.env ≠ some r → s.sharing r = m.store.sharing r)
    (own : ∀ r, f.env = some r → s.sharing r = some none) :
    envsSound.rel m ({ m with store := s }.updCurrent fun c => { c with frames := c.frames.pop }) := by
  have topLink := linkAt_top stored top
  refine ⟨fun r copied => ?_, fun h => ⟨fun r ci s₀ b => ?_, fun held held' => ?_⟩⟩
  · by_cases mine : f.env = some r
    · exact own r mine
    · exact (others r mine).trans copied
  · show s.sharing r = _ ↔ ∃ j, _
    simp only [linkAt_popped stored]
    by_cases mine : f.env = some r
    · -- the popped frame held `r`, and no other frame does
      simp only [own r mine, Option.some.injEq, reduceCtorEq, false_iff, not_exists]
      rintro j ⟨held, notTop⟩
      have topHeld : m.linkAt m.current (c.frames.size - 1) = some (f.serial, f.base, some r) := by
        rw [topLink, Frame.link, mine]
      exact notTop (h.owner topHeld held)
    · rw [others r mine, h.shared]
      constructor
      · rintro ⟨j, held⟩
        refine ⟨j, held, fun isTop => mine ?_⟩
        obtain ⟨rfl, rfl⟩ := isTop
        rw [topLink] at held
        simp only [Frame.link, Option.some.injEq, Prod.mk.injEq] at held
        exact held.2.2
      · rintro ⟨j, held, _⟩
        exact ⟨j, held⟩
  · rw [linkAt_popped stored] at held held'
    exact h.owner held.1 held'.1

theorem linkAt_ensured {c : Context} {f : Frame} (stored : m.contexts[m.current]? = some c)
    (top : c.frames.back? = some f) (st : Store) (e : ObjRef) (ci j : Nat) :
    ({ m with store := st }.updCurrent fun c =>
        { c with frames := c.frames.modify (c.frames.size - 1) fun f => { f with env := some e } }).linkAt ci j =
      if ci = m.current ∧ j = c.frames.size - 1 then some (f.serial, f.base, some e) else m.linkAt ci j := by
  rw [Array.back?_eq_getElem?] at top
  rw [linkAt_updCurrent]
  split
  · next here =>
    subst here
    simp only [linkAt, frameAt, stored, Option.bind_some, Array.getElem?_modify, true_and]
    split
    · next last => simp [← last, top, Frame.link]
    · next other => simp [Ne.symm other]
  · next other =>
    rw [if_neg fun isTop => other isTop.1.symm]
    rfl

theorem envsSound_ensured {c : Context} {f : Frame} {s : Store}
    (stored : m.contexts[m.current]? = some c) (top : c.frames.back? = some f) (unheld : f.env = none)
    (sharing : ∀ r, s.sharing r =
      if r.idx = m.store.heap.size then some (some (m.current, f.serial, f.base)) else m.store.sharing r) :
    envsSound.rel m ({ m with store := s }.updCurrent fun c =>
      { c with frames := c.frames.modify (c.frames.size - 1) fun f =>
        { f with env := some ⟨m.store.heap.size⟩ } }) := by
  have topLink := linkAt_top stored top
  refine ⟨fun r copied => ?_, fun h => ⟨fun r ci s₀ b => ?_, fun held held' => ?_⟩⟩
  · show s.sharing r = _
    rw [sharing, if_neg (Nat.ne_of_lt (Store.lt_size_of_sharing copied))]
    exact copied
  · show s.sharing r = _ ↔ ∃ j, _
    simp only [linkAt_ensured stored top, sharing]
    by_cases fresh : r.idx = m.store.heap.size
    · have named : r = ⟨m.store.heap.size⟩ := by cases r; simp_all
      subst named
      simp only [if_true, Option.some.injEq, Prod.mk.injEq]
      constructor
      · rintro ⟨rfl, rfl, rfl⟩
        exact ⟨c.frames.size - 1, by simp⟩
      · rintro ⟨j, held⟩
        split at held
        · next isTop =>
          simp only [Option.some.injEq, Prod.mk.injEq] at held
          exact ⟨isTop.1.symm, held.1, held.2.1⟩
        · exact absurd (h.lt_size held) (by simp)
    · rw [if_neg fresh, h.shared]
      constructor
      · rintro ⟨j, held⟩
        refine ⟨j, ?_⟩
        rw [if_neg]
        · exact held
        · rintro ⟨rfl, rfl⟩
          rw [topLink] at held
          simp [Frame.link, unheld] at held
      · rintro ⟨j, held⟩
        split at held
        · simp only [Option.some.injEq, Prod.mk.injEq] at held
          exact absurd (by rw [← held.2.2]) fresh
        · exact ⟨j, held⟩
  · rw [linkAt_ensured stored top] at held held'
    split at held <;> split at held'
    · next isTop isTop' => exact ⟨isTop'.1.trans isTop.1.symm, isTop'.2.trans isTop.2.symm⟩
    · -- the new environment is held by no frame before it is created
      simp only [Option.some.injEq, Prod.mk.injEq] at held
      have := h.lt_size held'
      simp [← held.2.2] at this
    · simp only [Option.some.injEq, Prod.mk.injEq] at held'
      have := h.lt_size held
      simp [← held'.2.2] at this
    · exact h.owner held held'

theorem envsSound_pushTop {f : Frame} (fresh : f.env = none) :
    Keeps envsSound (modifyCurrent fun c => { c with frames := c.frames.push f }) := fun _ =>
  ⟨fun _ copied => copied, fun h => h.pushed fresh⟩

theorem envsSound_pushFrame (code : FrameCode) (base argc kwc : Nat) (mid : Sym)
    (owner : Option ObjRef) (acc : Int) (blk : Value) (kind : CallKind) :
    Keeps envsSound (pushFrame code base argc kwc mid owner acc blk kind) := by
  unfold pushFrame
  dsimp only
  repeat' first
    | with_reducible exact Keeps.pure _
    | with_reducible exact Keeps.get
    | with_reducible exact Keeps.envsSound_of_linksKept (linksKept_of_readOnly readOnly_currentContext)
    | with_reducible exact Keeps.envsSound_of_linksKept (linksKept_growStack _)
    | with_reducible exact Keeps.envsSound_of_linksKept (linksKept_modifyCurrent_of fun _ => rfl)
    | with_reducible exact Keeps.envsSound_of_linksKept linksKept_nextSerial
    | with_reducible exact envsSound_pushTop rfl
    | with_reducible refine Keeps.bind ?_ fun _ => ?_
    | split

theorem storeOnly_orphanStep (c : Context) (f : Frame) : Keeps storeOnly (orphanStep c f) := by
  unfold orphanStep
  repeat' first
    | with_reducible exact Keeps.pure _
    | with_reducible exact storeOnly_liftStore _
    | with_reducible exact ReadOnly.storeOnly (readOnly_procOf? _)
    | with_reducible refine Keeps.bind ?_ fun _ => ?_
    | split

theorem linksKept_orphanStep (c : Context) (f : Frame) : Keeps linksKept (orphanStep c f) := by
  unfold orphanStep
  split
  · refine Keeps.bind_run (linksKept_of_readOnly (readOnly_procOf? _)) fun _ found t read => ?_
    obtain rfl := (readOnly_procOf? _).ok_state read
    split
    · obtain ⟨o, stored, body⟩ := procOf?_found ((readOnly_procOf? _).reads read)
      split
      · exact linksKept_modifyObj fun o' stored' => by
          rw [stored] at stored'
          cases stored'
          simp [Obj.env?, body]
      · exact linksKept.refl _
    · exact linksKept.refl _
  · exact Keeps.pure _

theorem unshareEnv_cases (r : ObjRef) (m : Machine) :
    (∃ e, (unshareEnv r).run m = .error e m) ∨
      ∃ s, (unshareEnv r).run m = .ok () { m with store := s } ∧
        (∀ r', r' ≠ r → s.sharing r' = m.store.sharing r') ∧ s.sharing r = some none := by
  unfold unshareEnv
  rw [EStateM.run_bind]
  rcases (readOnly_envData r).run_cases m with ⟨e, found⟩ | ⟨err, failed⟩
  · rw [found]
    obtain ⟨o, stored, body⟩ := envData_found found
    have shares : m.store.sharing r = some e.slots.frame? := by
      simp [Store.sharing, Store.envAt, stored, Obj.env?, body]
    dsimp only
    split
    · next slots copied =>
      exact .inr ⟨m.store, rfl, fun _ _ => rfl, by rw [shares, copied]; rfl⟩
    · rw [EStateM.run_bind]
      rcases (readOnly_context _).run_cases m with ⟨c, got⟩ | ⟨err, failed⟩
      · rw [got]
        dsimp only
        split
        · right
          rw [liftStore_run, Store.modifyObj_run, if_pos (Array.getElem?_eq_some_iff.mp stored).1]
          refine ⟨_, rfl, fun r' other => ?_, ?_⟩
          · rw [Store.sharing_modify, if_neg fun same => other (by cases r; cases r'; simp_all)]
          · rw [Store.sharing_modify, if_pos rfl]
            simp [stored, Obj.env?, EnvSlots.frame?]
        · exact .inl ⟨_, rfl⟩
      · rw [failed]
        exact .inl ⟨_, rfl⟩
  · rw [failed]
    exact .inl ⟨_, rfl⟩

theorem envsSound_popFrame : Keeps envsSound popFrame := by
  intro m
  rw [popFrame_eq, EStateM.run_bind, currentContext_run]
  cases stored : m.contexts[m.current]? with
  | none => exact envsSound.refl m
  | some c =>
    dsimp only
    cases top : c.frames.back? with
    | none => exact envsSound.refl m
    | some f =>
      dsimp only
      rw [EStateM.run_bind]
      have kept₁ := linksKept_orphanStep c f m
      have outside₁ := storeOnly_orphanStep c f m
      cases orphan : (orphanStep c f).run m with
      | error e m₁ =>
        rw [orphan] at kept₁
        exact envsSound_of_linksKept kept₁
      | ok _ m₁ =>
        rw [orphan] at kept₁ outside₁
        have same : m₁ = { m with store := m₁.store } := outside₁
        have stored₁ : m₁.contexts[m₁.current]? = some c := by rw [same]; exact stored
        refine envsSound.trans (envsSound_of_linksKept kept₁) ?_
        dsimp only
        rw [EStateM.run_bind]
        cases env : f.env with
        | none =>
          simp only [unshareStep, env]
          exact envsSound_popped (s := m₁.store) stored₁ top (fun _ _ => rfl)
            fun r mine => by simp [env] at mine
        | some e =>
          simp only [unshareStep, env]
          rcases unshareEnv_cases e m₁ with ⟨err, failed⟩ | ⟨s, done, others, own⟩
          · rw [failed]
            exact envsSound.refl m₁
          · rw [done]
            exact envsSound_popped stored₁ top (fun r other => others r fun mine => other (by rw [env, mine]))
              fun r mine => by
                rw [env, Option.some.injEq] at mine
                rw [← mine]
                exact own

theorem envsSound_ensureEnv : Keeps envsSound ensureEnv := by
  intro m
  unfold ensureEnv
  rw [EStateM.run_bind, topFrame_run]
  cases top : m.top? with
  | none => exact envsSound.refl m
  | some f =>
    dsimp only
    cases env : f.env with
    | some e => exact envsSound.refl m
    | none =>
      -- the top frame is the last frame of the running context
      obtain ⟨c, stored, back⟩ : ∃ c, m.contexts[m.current]? = some c ∧ c.frames.back? = some f := by
        simp only [top?, frames] at top
        cases found : m.contexts[m.current]? with
        | none => simp [found] at top
        | some c => exact ⟨c, rfl, by simpa [found] using top⟩
      exact envsSound_ensured (s := { m.store with heap := m.store.heap.push _ }) stored back env
        fun r => by
          rw [Store.sharing_push]
          rfl

end Moves

section Window

variable {m : Machine}

theorem envData_of_envAt {r : ObjRef} {e : EnvData} (found : m.store.envAt r = some e) :
    (envData r).run m = .ok e m := by
  simp only [Store.envAt, Option.bind_eq_some_iff] at found
  obtain ⟨o, stored, env⟩ := found
  have body : o.body = .env e := by
    unfold Obj.env? at env
    split at env <;> simp_all
  simp [envData, EStateM.run_bind, liftStore_run, Store.getObj_run, stored, body]

theorem EnvsLinked.window (h : EnvsLinked m) {ci j s b : Nat} {r : ObjRef}
    (held : m.linkAt ci j = some (s, b, some r)) :
    ∃ e, m.store.envAt r = some e ∧ e.slots = .live ci s b := by
  have shares := (h.shared r ci s b).mpr ⟨j, held⟩
  simp only [Store.sharing, Option.map_eq_some_iff] at shares
  obtain ⟨e, found, slots⟩ := shares
  refine ⟨e, found, ?_⟩
  cases live : e.slots <;> simp_all [EnvSlots.frame?]

theorem envGet_of_live {r : ObjRef} {e : EnvData} {ci s b i : Nat} (found : m.store.envAt r = some e)
    (live : e.slots = .live ci s b) (within : i < e.size) :
    (envGet r i).run m = (readSlot ci (b + i)).run m := by
  rw [envGet, EStateM.run_bind, envData_of_envAt found]
  simp [live, Nat.not_le.mpr within]

theorem envSet_of_live {r : ObjRef} {e : EnvData} {ci s b i : Nat} (v : Value)
    (found : m.store.envAt r = some e) (live : e.slots = .live ci s b) (within : i < e.size) :
    (envSet r i v).run m = (writeSlot ci (b + i) v).run m := by
  rw [envSet, EStateM.run_bind, envData_of_envAt found]
  simp [live, Nat.not_le.mpr within]

theorem unshareEnv_live {r : ObjRef} {e : EnvData} {ci s b : Nat} {c : Context}
    (found : m.store.envAt r = some e) (live : e.slots = .live ci s b) (stored : m.contexts[ci]? = some c) :
    (unshareEnv r).run m = if b + e.size ≤ c.stack.size then
      .ok () { m with store := { m.store with heap := m.store.heap.modify r.idx fun o =>
        { o with body := .env { e with slots := .copied (c.stack.extract b (b + e.size)) } } } }
      else .error .runtime m := by
  have within : r.idx < m.store.heap.size := by
    simp only [Store.envAt, Option.bind_eq_some_iff] at found
    obtain ⟨o, stored, _⟩ := found
    exact (Array.getElem?_eq_some_iff.mp stored).1
  rw [unshareEnv, EStateM.run_bind, envData_of_envAt found]
  simp only [live, EStateM.run_bind, context_run, stored]
  split
  · rw [liftStore_run, Store.modifyObj_run, if_pos within]
  · rfl

theorem top?_eq_some {f : Frame} (top : m.top? = some f) :
    ∃ c, m.contexts[m.current]? = some c ∧ c.frames.back? = some f := by
  simp only [top?, frames] at top
  cases found : m.contexts[m.current]? with
  | none => simp [found] at top
  | some c => exact ⟨c, rfl, by simpa [found] using top⟩

theorem store_endState_liftStore {α : Type} (x : StoreM α) (m : Machine) :
    (endState ((liftStore x).run m)).store = endState (x.run m.store) := by
  rw [liftStore_run]
  cases x.run m.store <;> rfl

theorem storeEnvs_modifyObj {r : ObjRef} {g : Obj → Obj}
    (same : ∀ o, m.store.heap[r.idx]? = some o → (g o).env? = o.env?) :
    storeEnvs.rel m (endState ((liftStore (Store.modifyObj r g)).run m)) := by
  intro r'
  rw [store_endState_liftStore, Store.envAt_modifyObj]
  split
  · next here =>
    cases found : m.store.heap[r.idx]? with
    | none => simp [Store.envAt, ← here, found]
    | some o => simp [Store.envAt, ← here, found, same o found]
  · rfl

theorem storeEnvs_orphanStep (c : Context) (f : Frame) : Keeps storeEnvs (orphanStep c f) := by
  unfold orphanStep
  split
  · refine Keeps.bind_run ((readOnly_procOf? _).keeps _) fun _ found t read => ?_
    obtain rfl := (readOnly_procOf? _).ok_state read
    split
    · obtain ⟨o, stored, body⟩ := procOf?_found ((readOnly_procOf? _).reads read)
      split
      · -- the procedure object stays a procedure object
        exact storeEnvs_modifyObj fun o' stored' => by
          rw [stored] at stored'
          cases stored'
          simp [Obj.env?, body]
      · exact storeEnvs.refl _
    · exact storeEnvs.refl _
  · exact Keeps.pure _

theorem popFrame_copies (h : EnvsLinked m) {m' : Machine} {f : Frame} {r : ObjRef}
    (run : popFrame.run m = .ok () m') (top : m.top? = some f) (holds : f.env = some r) :
    ∃ e c, m.store.envAt r = some e ∧ m.contexts[m.current]? = some c ∧
      m'.store.envAt r = some { e with slots := .copied (c.stack.extract f.base (f.base + e.size)) } := by
  obtain ⟨c, stored, back⟩ := top?_eq_some top
  obtain ⟨e, found, live⟩ := h.window (linkAt_top stored back ▸ by rw [Frame.link, holds] :
    m.linkAt m.current (c.frames.size - 1) = some (f.serial, f.base, some r))
  refine ⟨e, c, found, stored, ?_⟩
  rw [popFrame_eq] at run
  obtain ⟨c₀, m₀, current, run⟩ := bind_run_ok run
  obtain rfl := readOnly_currentContext.ok_state current
  rw [currentContext_run, stored] at current
  cases current
  simp only [back] at run
  obtain ⟨_, m₁, orphan, run⟩ := bind_run_ok run
  obtain ⟨_, m₂, unshare, run⟩ := bind_run_ok run
  rw [modifyCurrent_run] at run
  cases run
  -- orphaning the block changes neither the contexts nor any environment
  have same₁ : m₁ = { m₀ with store := m₁.store } := Keeps.rel_of_ok (storeOnly_orphanStep c f) orphan
  have envs₁ : storeEnvs.rel m₀ m₁ := Keeps.rel_of_ok (storeEnvs_orphanStep c f) orphan
  have found₁ : m₁.store.envAt r = some e := (envs₁ r).trans found
  have stored₁ : m₁.contexts[m₀.current]? = some c := by rw [same₁]; exact stored
  simp only [unshareStep, holds] at unshare
  rw [unshareEnv_live found₁ live stored₁] at unshare
  split at unshare
  · cases unshare
    simp only [Store.envAt, Option.bind_eq_some_iff] at found₁
    obtain ⟨o, stored', _⟩ := found₁
    simp [updCurrent, Store.envAt, Array.getElem?_modify, stored', Obj.env?]
  · cases unshare

end Window

end Machine

end RegisterVM
