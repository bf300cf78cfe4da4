import RegisterVM.Proofs.Machine.ClosureRuns
import RegisterVM.Proofs.Machine.Unwinding

set_option autoImplicit false

namespace RegisterVM

namespace Procedure

def ExceptAt (p : Procedure) (pc : Int) : Prop :=
  Opcode.ofNat? (p.code.getD pc.toNat 0).toNat = some .except

instance (p : Procedure) (pc : Int) : Decidable (p.ExceptAt pc) :=
  inferInstanceAs (Decidable (Opcode.ofNat? _ = _))

inductive Conventional : Procedure → Prop
  | intro {p : Procedure} :
      (∀ h ∈ p.handlers, h.kind = 0 ∨ h.kind = 1 → p.ExceptAt h.target) →
      (∀ q ∈ p.children, Conventional q) → Conventional p

theorem Conventional.exceptAt {p : Procedure} (conv : p.Conventional) {h : Handler}
    (entry : h ∈ p.handlers) (catching : h.kind = 0 ∨ h.kind = 1) : p.ExceptAt h.target := by
  cases conv with
  | intro targets _ => exact targets h entry catching

theorem Conventional.child {p : Procedure} (conv : p.Conventional) {q : Procedure}
    (child : q ∈ p.children) : q.Conventional := by
  cases conv with
  | intro _ children => exact children q child

end Procedure

def Frame.Conventional (f : Frame) : Prop := ∀ q p, f.code = .compiled q p → p.Conventional

theorem Frame.conventional_native {f : Frame} {t : Option Task} (native : f.code = .native t) :
    f.Conventional := by
  intro q p compiled
  rw [native] at compiled
  cases compiled

namespace Store

def Conventional (st : Store) : Prop := ∀ r p, st.shapeAt r = some (.code p) → p.Conventional

theorem Conventional.of_shapesKept {s t : Store} (conv : s.Conventional) (kept : shapesKept.rel s t) :
    t.Conventional := by
  intro r p code
  rcases kept r with same | ⟨_, p', copied, r', held⟩
  · exact conv r p (same ▸ code)
  · rw [code] at copied
    cases copied
    exact conv r' p held

theorem Conventional.proc {st : Store} (conv : st.Conventional) {r : ObjRef} {o : Obj} {d : ProcData}
    {p : Procedure} (found : st.heap[r.idx]? = some o) (body : o.body = .proc d)
    (code : d.code = .compiled p) : p.Conventional :=
  conv r p (by simp [shapeAt, found, Obj.shape, body, code])

theorem Conventional.push {st : Store} (conv : st.Conventional) {o : Obj}
    (made : ∀ p, o.shape = some (.code p) → p.Conventional) :
    ({ st with heap := st.heap.push o } : Store).Conventional := by
  intro r p code
  simp only [shapeAt, Array.getElem?_push] at code
  split at code
  · exact made p (by simpa using code)
  · exact conv r p code

theorem Conventional.modify {st : Store} (conv : st.Conventional) (i : Nat) {g : Obj → Obj}
    (kept : ∀ o, st.heap[i]? = some o → ∀ p, (g o).shape = some (.code p) → o.shape = some (.code p)) :
    ({ st with heap := st.heap.modify i g } : Store).Conventional := by
  intro r p code
  simp only [shapeAt, Array.getElem?_modify] at code
  split at code
  · next here =>
    cases found : st.heap[r.idx]? with
    | none => simp [found] at code
    | some o =>
      simp only [found, Option.map_some, Option.bind_some] at code
      exact conv r p (by simp [shapeAt, found, kept o (here ▸ found) p code])
  · exact conv r p code

end Store

namespace Machine

structure Conventional (m : Machine) : Prop where
  store : m.store.Conventional
  frames : ∀ (i : Nat) (c : Context), m.contexts[i]? = some c → ∀ f ∈ c.frames, f.Conventional

def Clear (m : Machine) : Prop :=
  ∀ (i : Nat) (c : Context), m.contexts[i]? = some c → c.status ≠ .terminated → c.exc = .nil

structure Calm (m : Machine) : Prop where
  conventional : m.Conventional
  clear : m.Clear

def slotsKept : StateOrder Machine where
  rel m m' := (m.Conventional → m'.Conventional) ∧ ∀ (i : Nat) (c' : Context), m'.contexts[i]? = some c' →
    c'.status ≠ .terminated → c'.exc = .nil ∨ ∃ c, m.contexts[i]? = some c ∧ c.status ≠ .terminated ∧ c.exc = c'.exc
  refl _ := ⟨id, fun _ c' found live => .inr ⟨c', found, live, rfl⟩⟩
  trans first second := ⟨second.1 ∘ first.1, fun i c'' found live => by
    rcases second.2 i c'' found live with empty | ⟨c', found', live', same⟩
    · exact .inl empty
    · rcases first.2 i c' found' live' with empty | ⟨c, found₀, live₀, same₀⟩
      · exact .inl (same ▸ empty)
      · exact .inr ⟨c, found₀, live₀, same₀.trans same⟩⟩

theorem Clear.of_slotsKept {m m' : Machine} (clear : m.Clear) (kept : slotsKept.rel m m') : m'.Clear := by
  intro i c' found live
  rcases kept.2 i c' found live with empty | ⟨c, found₀, live₀, same⟩
  · exact empty
  · exact same ▸ clear i c found₀ live₀

theorem Calm.of_slotsKept {m m' : Machine} (calm : Calm m) (kept : slotsKept.rel m m') : Calm m' :=
  ⟨kept.1 calm.conventional, calm.clear.of_slotsKept kept⟩

section Leaves

variable {m m' : Machine}

theorem mem_of_mem_pop {α : Type} {xs : Array α} {a : α} (mem : a ∈ xs.pop) : a ∈ xs := by
  rw [← Array.mem_toList_iff, Array.toList_pop] at mem
  exact Array.mem_toList_iff.mp (List.mem_of_mem_dropLast mem)

theorem mem_of_mem_modify {α : Type} {xs : Array α} {k : Nat} {g : α → α} {a : α}
    (mem : a ∈ xs.modify k g) : a ∈ xs ∨ ∃ a₀ ∈ xs, a = g a₀ := by
  obtain ⟨j, found⟩ := Array.mem_iff_getElem?.mp mem
  rw [Array.getElem?_modify] at found
  split at found
  · obtain ⟨a₀, found₀, rfl⟩ := Option.map_eq_some_iff.mp found
    exact .inr ⟨a₀, Array.mem_iff_getElem?.mpr ⟨j, found₀⟩, rfl⟩
  · exact .inl (Array.mem_iff_getElem?.mpr ⟨j, found⟩)

theorem slotsKept_of_storeOnly (same : storeOnly.rel m m')
    (codes : m.store.Conventional → m'.store.Conventional) : slotsKept.rel m m' := by
  have contexts : m'.contexts = m.contexts := by rw [same]
  refine ⟨fun conv => ⟨codes conv.store, fun i c found => ?_⟩, fun i c' found live => ?_⟩
  · rw [contexts] at found
    exact conv.frames i c found
  · rw [contexts] at found
    exact .inr ⟨c', found, live, rfl⟩

theorem Keeps.slotsKept_of_storeOnly {α : Type} {x : MachineM α} (same : Keeps storeOnly x)
    (codes : ∀ m, m.store.Conventional → (endState (x.run m)).store.Conventional) :
    Keeps slotsKept x :=
  fun m => Machine.slotsKept_of_storeOnly (same m) (codes m)

theorem slotsKept_of_readOnly {α : Type} {x : MachineM α} (hx : ReadOnly x) : Keeps slotsKept x :=
  hx.keeps _

theorem slotsKept_liftStore_of {α : Type} {x : StoreM α}
    (codes : ∀ s, s.Conventional → (endState (x.run s)).Conventional) : Keeps slotsKept (liftStore x) := by
  refine Keeps.slotsKept_of_storeOnly (storeOnly_liftStore x) fun m conv => ?_
  have kept := codes m.store conv
  rw [liftStore_run]
  cases run : x.run m.store with
  | ok a s => rw [run] at kept; exact kept
  | error f s => rw [run] at kept; exact kept

theorem slotsKept_liftStore {α : Type} {x : StoreM α} (hx : Keeps Store.shapesKept x) :
    Keeps slotsKept (liftStore x) :=
  slotsKept_liftStore_of fun s conv => conv.of_shapesKept (hx s)

theorem slotsKept_modifyObj {r : ObjRef} {g : Obj → Obj}
    (kept : ∀ o, m.store.heap[r.idx]? = some o → ∀ p, (g o).shape = some (.code p) → o.shape = some (.code p)) :
    slotsKept.rel m (endState ((liftStore (Store.modifyObj r g)).run m)) := by
  refine slotsKept_of_storeOnly (storeOnly_liftStore _ m) fun conv => ?_
  rw [store_endState_liftStore, Store.modifyObj_run]
  split
  · exact conv.modify r.idx kept
  · exact conv

theorem slotsKept_modifyContext_of (i : Nat) {g : Context → Context}
    (slot : ∀ c, m.contexts[i]? = some c → (g c).status ≠ .terminated →
      (g c).exc = .nil ∨ c.status ≠ .terminated ∧ (g c).exc = c.exc)
    (codes : m.Conventional → ∀ c, (∀ f ∈ c.frames, f.Conventional) → ∀ f ∈ (g c).frames, f.Conventional) :
    slotsKept.rel m { m with contexts := m.contexts.modify i g } := by
  refine ⟨fun conv => ⟨conv.store, fun j c found => ?_⟩, fun j c' found live => ?_⟩
  all_goals
    change (m.contexts.modify i g)[j]? = some _ at found
    rw [Array.getElem?_modify] at found
  · split at found
    · obtain ⟨c₀, found₀, rfl⟩ := Option.map_eq_some_iff.mp found
      exact codes conv c₀ (conv.frames j c₀ found₀)
    · exact conv.frames j c found
  · split at found
    · next here =>
      obtain ⟨c₀, found₀, rfl⟩ := Option.map_eq_some_iff.mp found
      rcases slot c₀ (here ▸ found₀) live with empty | ⟨live₀, same⟩
      · exact .inl empty
      · exact .inr ⟨c₀, found₀, live₀, same.symm⟩
    · exact .inr ⟨c', found, live, rfl⟩

theorem slotsKept_modifyContext (i : Nat) {g : Context → Context}
    (slot : ∀ c, (g c).status ≠ .terminated →
      (g c).exc = .nil ∨ c.status ≠ .terminated ∧ (g c).exc = c.exc)
    (codes : ∀ c, (∀ f ∈ c.frames, f.Conventional) → ∀ f ∈ (g c).frames, f.Conventional) :
    Keeps slotsKept (modifyContext i g) :=
  fun _ => slotsKept_modifyContext_of i (fun c _ => slot c) fun _ => codes

theorem slotsKept_modifyCurrent {g : Context → Context}
    (slot : ∀ c, (g c).status ≠ .terminated →
      (g c).exc = .nil ∨ c.status ≠ .terminated ∧ (g c).exc = c.exc)
    (codes : ∀ c, (∀ f ∈ c.frames, f.Conventional) → ∀ f ∈ (g c).frames, f.Conventional) :
    Keeps slotsKept (modifyCurrent g) :=
  Keeps.bind (slotsKept_of_readOnly readOnly_currentIndex) fun i => slotsKept_modifyContext i slot codes

theorem slotsKept_modifyCurrent_of {g : Context → Context} (exc : ∀ c, (g c).exc = c.exc)
    (status : ∀ c, (g c).status = c.status) (frames : ∀ c, (g c).frames = c.frames) :
    Keeps slotsKept (modifyCurrent g) :=
  slotsKept_modifyCurrent (fun c live => .inr ⟨status c ▸ live, exc c⟩) fun c conv => frames c ▸ conv

theorem slotsKept_modifyTop {g : Frame → Frame} (codes : ∀ f, f.Conventional → (g f).Conventional) :
    Keeps slotsKept (modifyTop g) :=
  slotsKept_modifyCurrent (fun _ live => .inr ⟨live, rfl⟩) fun c conv f mem => by
    rcases mem_of_mem_modify mem with kept | ⟨f₀, mem₀, rfl⟩
    · exact conv f kept
    · exact codes f₀ (conv f₀ mem₀)

theorem slotsKept_writeSlot (ci i : Nat) (v : Value) : Keeps slotsKept (writeSlot ci i v) := by
  unfold writeSlot
  refine Keeps.bind (slotsKept_of_readOnly (readOnly_context ci)) fun c => ?_
  split
  · exact slotsKept_modifyContext ci (fun _ live => .inr ⟨live, rfl⟩) fun _ conv => conv
  · exact Keeps.throw _

theorem slotsKept_setSlot (i : Nat) (v : Value) : Keeps slotsKept (setSlot i v) :=
  Keeps.bind (slotsKept_of_readOnly readOnly_currentIndex) fun ci => slotsKept_writeSlot ci i v

theorem slotsKept_setReg (f : Frame) (i : Nat) (v : Value) : Keeps slotsKept (setReg f i v) := by
  unfold setReg
  split
  · exact slotsKept_setSlot _ _
  · exact Keeps.throw _

theorem slotsKept_growStack (n : Nat) : Keeps slotsKept (growStack n) :=
  slotsKept_modifyCurrent_of (fun c => by split <;> rfl) (fun c => by split <;> rfl)
    fun c => by split <;> rfl

theorem slotsKept_of_contexts (store : m'.store = m.store) (contexts : m'.contexts = m.contexts) :
    slotsKept.rel m m' := by
  refine ⟨fun conv => ⟨store ▸ conv.store, fun i c found => ?_⟩, fun i c' found live => ?_⟩
  · rw [contexts] at found
    exact conv.frames i c found
  · rw [contexts] at found
    exact .inr ⟨c', found, live, rfl⟩

theorem slotsKept_nextSerial : Keeps slotsKept nextSerial :=
  fun _ => slotsKept_of_contexts rfl rfl

theorem slotsKept_setMode (md : Mode) : Keeps slotsKept (setMode md) :=
  fun _ => slotsKept_of_contexts rfl rfl

theorem slotsKept_switch (r : Nat) :
    Keeps slotsKept (modify fun m => { m with current := r } : MachineM Unit) :=
  fun _ => slotsKept_of_contexts rfl rfl

theorem slotsKept_clearExc : Keeps slotsKept (setExc .nil) :=
  slotsKept_modifyCurrent (fun _ _ => .inl rfl) fun _ conv => conv

theorem slotsKept_modifyObj_shape (r : ObjRef) {g : Obj → Obj} (same : ∀ o, (g o).shape = o.shape) :
    Keeps slotsKept (liftStore (Store.modifyObj r g)) :=
  fun _ => slotsKept_modifyObj fun o _ _ code => same o ▸ code

theorem rel_bind_of_rel {α β : Type} {x : MachineM α} {f : α → MachineM β}
    (first : slotsKept.rel m (endState (x.run m)))
    (hf : ∀ a t, x.run m = .ok a t → slotsKept.rel t (endState ((f a).run t))) :
    slotsKept.rel m (endState ((x >>= f).run m)) := by
  rw [EStateM.run_bind]
  cases run : x.run m with
  | ok a t =>
    rw [run] at first
    exact slotsKept.trans first (hf a t run)
  | error e t =>
    rw [run] at first
    exact first

theorem Keeps.slotsKept_of_storeShapes {α : Type} {x : MachineM α} (same : Keeps storeOnly x)
    (shapes : Keeps storeShapes x) : Keeps slotsKept x :=
  Keeps.slotsKept_of_storeOnly same fun m conv => conv.of_shapesKept (shapes m)

end Leaves

section Moves

variable {m : Machine}

theorem slotsKept_pushTop {f : Frame} (conv : m.Conventional → f.Conventional) :
    slotsKept.rel m (m.updCurrent fun c => { c with frames := c.frames.push f }) :=
  slotsKept_modifyContext_of _ (fun _ _ live => .inr ⟨live, rfl⟩) fun conv' _ codes g mem => by
    rcases Array.mem_push.mp mem with old | rfl
    · exact codes g old
    · exact conv conv'

theorem slotsKept_pushFrame_of {code : FrameCode}
    (conv : m.store.Conventional → ∀ q p, code = .compiled q p → p.Conventional) (base argc kwc : Nat)
    (mid : Sym) (owner : Option ObjRef) (acc : Int) (blk : Value) (kind : CallKind) :
    slotsKept.rel m (endState ((pushFrame code base argc kwc mid owner acc blk kind).run m)) := by
  unfold pushFrame
  refine Keeps.rel_bind (slotsKept_of_readOnly readOnly_currentContext) fun c m₁ got => ?_
  obtain rfl := readOnly_currentContext.ok_state got
  refine Keeps.rel_bind Keeps.get fun _ m₂ got => ?_
  cases got
  dsimp only
  split
  · exact slotsKept.refl _
  · -- the stack grows and the serial counter moves on; the store stays as it is
    refine Keeps.rel_bind (slotsKept_growStack _) fun _ m₃ grown => ?_
    refine Keeps.rel_bind (slotsKept_modifyCurrent_of (fun _ => rfl) (fun _ => rfl) fun _ => rfl)
      fun _ m₄ cleared => ?_
    refine Keeps.rel_bind slotsKept_nextSerial fun serial m₅ counted => ?_
    cases grown
    cases cleared
    cases counted
    exact rel_bind_of_rel (slotsKept_pushTop fun conv' q p pushed => conv conv'.store q p pushed)
      fun _ _ _ => slotsKept.refl _

theorem slotsKept_pushFrame {code : FrameCode} (conv : ∀ q p, code = .compiled q p → p.Conventional)
    (base argc kwc : Nat) (mid : Sym) (owner : Option ObjRef) (acc : Int) (blk : Value) (kind : CallKind) :
    Keeps slotsKept (pushFrame code base argc kwc mid owner acc blk kind) :=
  fun _ => slotsKept_pushFrame_of (fun _ => conv) base argc kwc mid owner acc blk kind

theorem slotsKept_orphanStep (c : Context) (f : Frame) : Keeps slotsKept (orphanStep c f) := by
  unfold orphanStep
  split
  · refine Keeps.bind_run (slotsKept_of_readOnly (readOnly_procOf? _)) fun _ found t read => ?_
    obtain rfl := (readOnly_procOf? _).ok_state read
    split
    · obtain ⟨o, stored, body⟩ := procOf?_found ((readOnly_procOf? _).reads read)
      split
      · exact slotsKept_modifyObj fun o' stored' q code => by
          rw [stored] at stored'
          cases stored'
          simpa [Obj.shape, body] using code
      · exact slotsKept.refl _
    · exact slotsKept.refl _
  · exact Keeps.pure _

theorem slotsKept_unshareEnv (r : ObjRef) : Keeps slotsKept (unshareEnv r) := by
  unfold unshareEnv
  refine Keeps.bind (slotsKept_of_readOnly (readOnly_envData r)) fun e => ?_
  split
  · exact Keeps.pure _
  · refine Keeps.bind (slotsKept_of_readOnly (readOnly_context _)) fun c => ?_
    split
    · exact fun _ => slotsKept_modifyObj fun _ _ q code => by simp [Obj.shape] at code
    · exact slotsKept_of_readOnly readOnly_runtimeFault

theorem slotsKept_popFrame : Keeps slotsKept popFrame := by
  rw [popFrame_eq]
  refine Keeps.bind (slotsKept_of_readOnly readOnly_currentContext) fun c => ?_
  split
  · exact slotsKept_of_readOnly readOnly_runtimeFault
  · refine Keeps.bind (slotsKept_orphanStep _ _) fun _ => Keeps.bind ?_ fun _ => ?_
    · unfold unshareStep
      split
      · exact slotsKept_unshareEnv _
      · exact Keeps.pure _
    · exact slotsKept_modifyCurrent (fun _ live => .inr ⟨live, rfl⟩) fun _ codes f mem =>
        codes f (mem_of_mem_pop mem)

theorem slotsKept_unwindTo (n : Nat) : Keeps slotsKept (unwindTo n) :=
  Keeps.unwindTo slotsKept_popFrame n

theorem slotsKept_ensureEnv : Keeps slotsKept ensureEnv := by
  unfold ensureEnv
  refine Keeps.bind (slotsKept_of_readOnly readOnly_topFrame) fun f => ?_
  dsimp only
  split
  · exact Keeps.pure _
  · refine Keeps.bind (slotsKept_of_readOnly readOnly_currentIndex) fun ci => ?_
    refine Keeps.bind (slotsKept_liftStore_of fun s conv => ?_) fun e => ?_
    · rw [Store.alloc_run]
      exact conv.push fun p shape => by simp [Obj.shape] at shape
    · exact Keeps.bind (slotsKept_modifyTop fun _ conv => conv) fun _ => Keeps.pure _

theorem slotsKept_envSet (r : ObjRef) (i : Nat) (v : Value) : Keeps slotsKept (envSet r i v) := by
  unfold envSet
  refine Keeps.bind (slotsKept_of_readOnly (readOnly_envData r)) fun e => ?_
  split
  · exact Keeps.pure _
  · split
    · split
      · exact fun _ => slotsKept_modifyObj fun _ _ q code => by simp [Obj.shape] at code
      · exact slotsKept_of_readOnly readOnly_runtimeFault
    · exact slotsKept_writeSlot _ _ _

theorem codeOf_conventional {meth : Method} {r : ObjRef} {body : Procedure} {m' : Machine}
    (run : (codeOf meth).run m = .ok (some (.inl (r, body))) m') (conv : m.store.Conventional) :
    body.Conventional := by
  unfold codeOf at run
  split at run
  · cases run
  · cases run
  · obtain ⟨found, m₁, read, rest⟩ := bind_run_ok run
    obtain rfl := (readOnly_procOf? _).ok_state read
    split at rest
    · obtain ⟨o, stored, proc⟩ := procOf?_found ((readOnly_procOf? _).reads read)
      split at rest
      · next compiled =>
        cases rest
        exact conv.proc stored proc compiled
      · cases rest
    · cases rest

end Moves

section Links

variable {m : Machine}

theorem slotsKept_newErr (cls : Core → ObjRef) (msg : String) : Keeps slotsKept (newErr cls msg) :=
  slotsKept_liftStore (Store.shapesKept_newError cls msg)

theorem slotsKept_inspectValue (v : Value) : Keeps slotsKept (inspectValue v) :=
  slotsKept_of_readOnly (readOnly_liftStore (Store.readOnly_inspect v))

theorem slotsKept_noteBacktrace (exc : Value) : Keeps slotsKept (noteBacktrace exc) := by
  unfold noteBacktrace
  split
  · refine Keeps.bind (slotsKept_of_readOnly (readOnly_liftStore (Store.readOnly_getObj _))) fun o => ?_
    split
    · exact Keeps.bind (slotsKept_of_readOnly readOnly_backtrace) fun _ =>
        slotsKept_modifyObj_shape _ fun o => by split <;> simp_all [Obj.shape]
    · exact Keeps.pure _
  · exact Keeps.pure _

theorem slotsKept_literalAt (body : Procedure) (i : Nat) : Keeps slotsKept (literalAt body i) :=
  Keeps.slotsKept_of_storeOnly (storeOnly_literalAt body i) fun m conv => by
    unfold literalAt
    split
    · exact conv
    · split
      · exact conv
      · split
        · exact conv
        · exact conv.of_shapesKept (storeShapes_liftStore (Store.shapesKept_newString _) m)

theorem slotsKept_breakTarget (f : Frame) : Keeps slotsKept (breakTarget f) := by
  unfold breakTarget
  refine Keeps.bind (slotsKept_of_readOnly (readOnly_frameProc f)) fun d => ?_
  have err : Keeps slotsKept (do pure (Except.error (← newErr (·.localJumpError) "break from proc-closure")) :
      MachineM (Except Value Nat)) :=
    Keeps.bind (slotsKept_newErr _ _) fun _ => Keeps.pure _
  dsimp only
  split
  · exact Keeps.bind err fun _ => Keeps.pure _
  · refine Keeps.bind (slotsKept_of_readOnly (readOnly_liveEnvFrame _)) fun t => ?_
    split
    · split
      · exact err
      · exact Keeps.pure _
    · exact err

theorem slotsKept_returnTarget (f : Frame) : Keeps slotsKept (returnTarget f) :=
  Keeps.slotsKept_of_storeShapes (storeOnly_returnTarget f) (storeShapes_returnTarget f)

theorem slotsKept_ivarSet (self : Value) (sym : Sym) (v : Value) : Keeps slotsKept (ivarSet self sym v) :=
  Keeps.slotsKept_of_storeShapes (storeOnly_ivarSet self sym v) (storeShapes_ivarSet self sym v)

theorem slotsKept_alloc {o : Obj} (made : ∀ p, o.shape = some (.code p) → p.Conventional) :
    Keeps slotsKept (liftStore (Store.alloc o)) :=
  slotsKept_liftStore_of fun s held => by
    rw [Store.alloc_run]
    exact held.push made

theorem slotsKept_allocProc {body : Procedure} (conv : body.Conventional) {o : Obj} {d : ProcData}
    (proc : o.body = .proc d) (code : d.code = .compiled body) :
    Keeps slotsKept (liftStore (Store.alloc o)) :=
  slotsKept_alloc fun p made => by
    simp only [Obj.shape, proc, code, Option.some.injEq, ObjShape.code.injEq] at made
    exact made ▸ conv

theorem slotsKept_modifyTop_of {g : Frame → Frame} (code : ∀ f, (g f).code = f.code) :
    Keeps slotsKept (modifyTop g) :=
  slotsKept_modifyTop fun f conv q p compiled => conv q p (code f ▸ compiled)

theorem slotsKept_newProc {body : Procedure} (conv : body.Conventional) (upper env : Option ObjRef)
    (strict : Bool) (target : ObjRef) : Keeps slotsKept (newProc body upper env strict target) := by
  unfold newProc
  dsimp only
  repeat' first
    | with_reducible apply Keeps.pure _
    | with_reducible apply slotsKept_of_readOnly (readOnly_liftStore Store.readOnly_wellKnown)
    | with_reducible apply slotsKept_of_readOnly (readOnly_procOf? _)
    | with_reducible exact slotsKept_allocProc conv rfl rfl
    | with_reducible refine Keeps.bind ?_ fun _ => ?_
    | split

theorem slotsKept_checkBlock (blk : Value) : Keeps slotsKept (checkBlock blk) := by
  unfold checkBlock
  repeat' first
    | with_reducible apply Keeps.pure _
    | with_reducible apply slotsKept_of_readOnly (readOnly_procOf? _)
    | with_reducible apply slotsKept_of_readOnly (readOnly_liftStore (Store.readOnly_realClassName _))
    | with_reducible apply slotsKept_liftStore (Store.shapesKept_newError _ _)
    | with_reducible refine Keeps.bind ?_ fun _ => ?_
    | split

theorem slotsKept_rawArgs (base argc kwc : Nat) : Keeps slotsKept (rawArgs base argc kwc) := by
  unfold rawArgs copyTable
  dsimp only
  repeat' first
    | with_reducible apply Keeps.pure _
    | with_reducible apply slotsKept_of_readOnly (readOnly_slot _)
    | with_reducible apply slotsKept_of_readOnly (readOnly_slots _ _)
    | with_reducible apply slotsKept_of_readOnly (readOnly_liftStore (Store.readOnly_arrayOf? _))
    | with_reducible apply slotsKept_of_readOnly (readOnly_liftStore (Store.readOnly_hashOf? _))
    | with_reducible apply slotsKept_of_readOnly (readOnly_liftStore (Store.readOnly_tableCopy _))
    | with_reducible apply slotsKept_of_readOnly (readOnly_liftStore (Store.readOnly_tableSet _ _ _))
    | with_reducible refine Keeps.forIn_range _ _ fun _ _ => ?_
    | with_reducible refine Keeps.bind ?_ fun _ => ?_
    | split

theorem slotsKept_placeArgs (base : Nat) (recv : Value) (args : Array Value) (kw : Option HashTable)
    (blk : Value) : Keeps slotsKept (placeArgs base recv args kw blk) := by
  unfold placeArgs copyTable
  dsimp only
  repeat' first
    | with_reducible apply Keeps.pure _
    | with_reducible apply slotsKept_growStack _
    | with_reducible apply slotsKept_setSlot _ _
    | with_reducible apply slotsKept_liftStore (Store.shapesKept_newArray _)
    | with_reducible apply slotsKept_liftStore (Store.shapesKept_newHash _)
    | with_reducible apply slotsKept_of_readOnly (readOnly_liftStore (Store.readOnly_tableCopy _))
    | with_reducible refine Keeps.forIn_list _ _ fun _ _ => ?_
    | with_reducible refine Keeps.forIn_array _ _ fun _ _ => ?_
    | with_reducible refine Keeps.bind ?_ fun _ => ?_
    | split

theorem slotsKept_packValues (vals : Array Value) : Keeps slotsKept (Native.packValues vals) := by
  unfold Native.packValues
  split
  · exact Keeps.pure _
  · split
    · exact Keeps.pure _
    · exact slotsKept_liftStore (Store.shapesKept_newArray _)

theorem slotsKept_nativeCall (self : Value) : Keeps slotsKept (nativeCall self) :=
  Keeps.bind (slotsKept_of_readOnly readOnly_topFrame) fun _ =>
    Keeps.bind (slotsKept_rawArgs _ _ _) fun _ => Keeps.pure _

theorem slotsKept_startNative (prim : Primitive) (self : Value) : Keeps slotsKept (startNative prim self) :=
  Keeps.bind (slotsKept_nativeCall self) fun _ => slotsKept_setMode _

theorem slotsKept_noMethodError (recv : Value) (mid : Sym) (isSuper : Bool) :
    Keeps slotsKept (noMethodError recv mid isSuper) :=
  Keeps.slotsKept_of_storeShapes (storeOnly_liftStore _) (storeShapes_noMethodError recv mid isSuper)

theorem slotsKept_throwToCaller (exc : Value) : Keeps slotsKept (throwToCaller exc) :=
  Keeps.bind (slotsKept_of_readOnly readOnly_depth) fun _ => by
    split <;> exact slotsKept_setMode _

theorem slotsKept_gatherArgs (f : Frame) (ps : ParamSpec) : Keeps slotsKept (gatherArgs f ps) := by
  unfold gatherArgs
  dsimp only
  repeat' first
    | with_reducible apply Keeps.pure _
    | with_reducible apply slotsKept_rawArgs _ _ _
    | with_reducible apply slotsKept_of_readOnly (readOnly_frameProc _)
    | with_reducible apply slotsKept_of_readOnly (readOnly_liftStore (Store.readOnly_arrayOf? _))
    | with_reducible apply slotsKept_liftStore (Store.shapesKept_newHash _)
    | with_reducible refine Keeps.bind ?_ fun _ => ?_
    | split

theorem slotsKept_layParams (f : Frame) (ps : ParamSpec) (req opt rest post : Array Value)
    (kw : Option HashTable) (blk : Value) : Keeps slotsKept (layParams f ps req opt rest post kw blk) := by
  unfold layParams
  dsimp only
  repeat' first
    | with_reducible apply Keeps.pure _
    | with_reducible apply slotsKept_of_readOnly readOnly_runtimeFault
    | with_reducible apply slotsKept_growStack _
    | with_reducible apply slotsKept_setSlot _ _
    | with_reducible exact slotsKept_modifyTop_of fun _ => rfl
    | with_reducible apply slotsKept_liftStore (Store.shapesKept_newArray _)
    | with_reducible apply slotsKept_liftStore (Store.shapesKept_newHash _)
    | with_reducible refine Keeps.forIn_range _ _ fun _ _ => ?_
    | with_reducible refine Keeps.bind ?_ fun _ => ?_
    | split

theorem slotsKept_setTask (task : Task) : Keeps slotsKept (setTask task) :=
  slotsKept_modifyTop fun _ _ => Frame.conventional_native rfl

theorem slotsKept_terminate {g : Context → Context} (ended : ∀ c, (g c).status = .terminated)
    (frames : ∀ c, (g c).frames = c.frames) : Keeps slotsKept (modifyCurrent g) :=
  slotsKept_modifyCurrent (fun c live => absurd (ended c) live) fun c conv => frames c ▸ conv

theorem slotsKept_fiberEnded (result : Except Value Value) : Keeps slotsKept (fiberEnded result) := by
  unfold fiberEnded
  refine Keeps.bind (slotsKept_of_readOnly readOnly_currentContext) fun c => ?_
  split
  · exact slotsKept_of_readOnly readOnly_runtimeFault
  · refine Keeps.bind (slotsKept_terminate (fun _ => rfl) fun _ => rfl) fun _ => ?_
    refine Keeps.bind (slotsKept_switch _) fun _ => ?_
    split <;> exact slotsKept_setMode _

theorem slotsKept_leaveWithValue (kind : CallKind) (v : Value) : Keeps slotsKept (leaveWithValue kind v) := by
  unfold leaveWithValue
  split
  · exact slotsKept_fiberEnded _
  · exact Keeps.bind (slotsKept_of_readOnly readOnly_depth) fun _ => by split <;> exact slotsKept_setMode _

theorem slotsKept_leaveWithException (kind : CallKind) (exc : Value) :
    Keeps slotsKept (leaveWithException kind exc) := by
  unfold leaveWithException
  split
  · exact slotsKept_fiberEnded _
  · exact Keeps.bind (slotsKept_of_readOnly readOnly_depth) fun _ => by split <;> exact slotsKept_setMode _

theorem slotsKept_leaveContext (err : Fatal) : Keeps slotsKept (failContext.leaveContext err) := by
  unfold failContext.leaveContext
  refine Keeps.bind (slotsKept_of_readOnly readOnly_currentContext) fun c => ?_
  split
  · refine Keeps.bind (slotsKept_modifyCurrent_of (fun _ => rfl) (fun _ => rfl) fun _ => rfl) fun _ => ?_
    exact Keeps.bind (slotsKept_switch _) fun _ => slotsKept_setMode _
  · exact slotsKept_setMode _

theorem slotsKept_returnFrom (v : Value) : Keeps slotsKept (returnFrom v) := by
  unfold returnFrom
  refine Keeps.bind (slotsKept_of_readOnly readOnly_topFrame) fun f => ?_
  refine Keeps.bind slotsKept_popFrame fun _ => ?_
  split
  · exact slotsKept_leaveWithValue _ _
  · exact Keeps.bind (slotsKept_of_readOnly readOnly_topFrame) fun _ =>
      Keeps.bind (slotsKept_setSlot _ _) fun _ => slotsKept_setMode _

theorem slotsKept_failContext (err : Fatal) : Keeps slotsKept (failContext err) := by
  unfold failContext
  refine Keeps.bind (slotsKept_of_readOnly readOnly_currentContext) fun c => ?_
  have ending : Keeps slotsKept (do
      modifyCurrent fun c => { c with status := .terminated }
      failContext.leaveContext err) :=
    Keeps.bind (slotsKept_terminate (fun _ => rfl) fun _ => rfl) fun _ => slotsKept_leaveContext err
  dsimp only
  split
  · exact Keeps.bind (slotsKept_unwindTo _) fun _ => ending
  · exact ending

theorem slotsKept_fault (f : Fault) : Keeps slotsKept (fault f) := by
  unfold fault
  refine Keeps.bind (slotsKept_of_readOnly readOnly_currentContext) fun c => ?_
  split
  · exact Keeps.bind (slotsKept_terminate (fun _ => rfl) fun _ => rfl) fun _ => slotsKept_leaveContext _
  · exact slotsKept_setMode _

theorem conventional_native_code (t : Option Task) :
    ∀ q p, FrameCode.native t = .compiled q p → p.Conventional :=
  fun _ _ compiled => by cases compiled

theorem store_setSlot {i : Nat} {v : Value} {m m' : Machine} (run : (setSlot i v).run m = .ok () m') :
    m'.store = m.store := by
  rw [setSlot_run] at run
  split at run
  · cases run
    rfl
  · cases run

theorem slotsKept_pushFrame_bind {β : Type} {code : FrameCode}
    (conv : m.store.Conventional → ∀ q p, code = .compiled q p → p.Conventional) {base argc kwc : Nat}
    {mid : Sym} {owner : Option ObjRef} {acc : Int} {blk : Value} {kind : CallKind}
    {f : Option Fatal → MachineM β} (hf : ∀ r, Keeps slotsKept (f r)) :
    slotsKept.rel m (endState ((pushFrame code base argc kwc mid owner acc blk kind >>= f).run m)) :=
  rel_bind_of_rel (slotsKept_pushFrame_of conv base argc kwc mid owner acc blk kind) fun r t _ => hf r t

theorem slotsKept_codeOf_bind {β : Type} (meth : Method)
    {f : Option (Sum (ObjRef × Procedure) Primitive) → MachineM β}
    (native : ∀ prim, Keeps slotsKept (f (some (.inr prim))))
    (compiled : ∀ r body (m : Machine), (m.store.Conventional → body.Conventional) →
      slotsKept.rel m (endState ((f (some (.inl (r, body)))).run m)))
    (missing : Keeps slotsKept (f none)) : Keeps slotsKept (codeOf meth >>= f) := by
  refine Keeps.bind_run (slotsKept_of_readOnly (readOnly_codeOf meth)) fun m a t run => ?_
  obtain rfl := (readOnly_codeOf meth).ok_state run
  rcases a with _ | (⟨r, body⟩ | prim)
  · exact missing _
  · exact compiled r body _ fun conv => codeOf_conventional run conv
  · exact native prim _

theorem slotsKept_invokeAt (base acc : Nat) (recv : Value) (meth : Method) (owner : Option ObjRef)
    (mid : Sym) (argc kwc : Nat) : Keeps slotsKept (invokeAt base acc recv meth owner mid argc kwc) := by
  unfold invokeAt
  dsimp only
  refine Keeps.bind (slotsKept_of_readOnly (readOnly_liftStore Store.readOnly_wellKnown)) fun c => ?_
  refine Keeps.bind (slotsKept_of_readOnly (readOnly_slot _)) fun blk => ?_
  split
  case' isTrue =>
    -- `Proc#call` on a procedure object runs the procedure's own code, held by the object
    refine Keeps.bind_run (slotsKept_of_readOnly (readOnly_procOf? _)) fun m found t read => ?_
    obtain rfl := (readOnly_procOf? _).ok_state read
    split
    case h_1 p d =>
      obtain ⟨o, stored, proc⟩ := procOf?_found ((readOnly_procOf? _).reads read)
      refine Keeps.rel_bind (slotsKept_of_readOnly (readOnly_procSelf d)) fun x m₁ self => ?_
      obtain rfl := (readOnly_procSelf d).ok_state self
      refine Keeps.rel_bind (slotsKept_setSlot _ _) fun _ m₂ placed => ?_
      have store := store_setSlot placed
      split
      · exact Keeps.bind (slotsKept_pushFrame (conventional_native_code none) _ _ _ _ _ _ _ _)
          (fun r => by split <;> exact Keeps.bind (by first
            | exact slotsKept_setMode _
            | exact slotsKept_startNative _ _) fun _ => Keeps.pure _) m₂
      · next body compiled =>
        refine slotsKept_pushFrame_bind (fun conv _ _ pushed => ?_) fun r => ?_
        · cases pushed
          exact (store ▸ conv).proc stored proc compiled
        · split <;> exact Keeps.bind (slotsKept_setMode _) fun _ => Keeps.pure _
    case' h_2 => refine slotsKept_codeOf_bind meth (fun prim => ?_) (fun r body m conv => ?_) ?_ t
  case' isFalse => refine slotsKept_codeOf_bind meth (fun prim => ?_) (fun r body m conv => ?_) ?_
  -- the code a method entry names, in both branches
  all_goals first
    | exact Keeps.bind (slotsKept_pushFrame (conventional_native_code none) _ _ _ _ _ _ _ _) fun r => by
        split
        · exact slotsKept_setMode _
        · exact slotsKept_startNative _ _
    | exact slotsKept_pushFrame_bind (fun held _ _ pushed => by cases pushed; exact conv held) fun r => by
        split <;> exact slotsKept_setMode _
    | exact slotsKept_of_readOnly readOnly_runtimeFault

theorem slotsKept_callMethod (recv : Value) (meth : Method) (owner : Option ObjRef) (mid : Sym)
    (args : Array Value) (kw : Option HashTable) (blk : Value) (kind : CallKind) :
    Keeps slotsKept (callMethod recv meth owner mid args kw blk kind) := by
  unfold callMethod
  refine Keeps.bind (slotsKept_of_readOnly readOnly_stackTop) fun base => ?_
  refine Keeps.bind (slotsKept_placeArgs _ _ _ _ _) fun counts => ?_
  obtain ⟨argc, kwc⟩ := counts
  refine slotsKept_codeOf_bind meth (fun prim => ?_) (fun r body m conv => ?_)
    (slotsKept_of_readOnly readOnly_runtimeFault)
  · exact Keeps.bind (slotsKept_pushFrame (conventional_native_code none) _ _ _ _ _ _ _ _) fun r => by
      split
      · exact slotsKept_setMode _
      · exact slotsKept_startNative _ _
  · exact slotsKept_pushFrame_bind (fun held _ _ pushed => by cases pushed; exact conv held) fun r => by
      split <;> exact slotsKept_setMode _

theorem slotsKept_callProc (p : ObjRef) (args : Array Value) (kw : Option HashTable) (blk : Value)
    (kind : CallKind) : Keeps slotsKept (callProc p args kw blk kind) := by
  unfold callProc
  refine Keeps.bind (slotsKept_of_readOnly (readOnly_procOf? _)) fun found => ?_
  split
  · exact Keeps.bind (slotsKept_of_readOnly (readOnly_procSelf _)) fun _ =>
      slotsKept_callMethod _ _ _ _ _ _ _ _
  · exact slotsKept_of_readOnly readOnly_runtimeFault

theorem slotsKept_funcall (recv : Value) (mid : Sym) (args : Array Value) (kw : Option HashTable)
    (blk : Value) : Keeps slotsKept (funcall recv mid args kw blk) := by
  unfold funcall
  dsimp only
  repeat' first
    | with_reducible apply Keeps.pure _
    | with_reducible apply slotsKept_callMethod _ _ _ _ _ _ _ _
    | with_reducible apply slotsKept_callProc _ _ _ _ _
    | with_reducible apply slotsKept_of_readOnly (readOnly_procOf? _)
    | with_reducible apply slotsKept_of_readOnly (readOnly_liftStore Store.readOnly_wellKnown)
    | with_reducible apply slotsKept_of_readOnly (readOnly_liftStore (Store.readOnly_classOf _))
    | with_reducible apply slotsKept_liftStore (Store.shapesKept_resolve _ _)
    | with_reducible apply slotsKept_noMethodError _ _ _
    | with_reducible apply slotsKept_throwToCaller _
    | with_reducible refine Keeps.bind ?_ fun _ => ?_
    | split

theorem slotsKept_request (req : Request) : Keeps slotsKept (request req) := by
  unfold request
  split
  · exact slotsKept_funcall _ _ _ _ _
  · exact slotsKept_callProc _ _ _ _ _

theorem slotsKept_regRange (f : Frame) (lo hi : Nat) : Keeps slotsKept (regRange f lo hi) :=
  slotsKept_of_readOnly (readOnly_slots _ _)

theorem slotsKept_modifyStore {g : Machine → Store} (heap : ∀ m, (g m).heap = m.store.heap) :
    Keeps slotsKept (modify fun m => { m with store := g m } : MachineM Unit) := fun m =>
  slotsKept_of_storeOnly rfl fun conv r p code => conv r p (by simpa [Store.shapeAt, endState, heap] using code)

theorem slotsKept_execBody {body : Procedure} (conv : body.Conventional) (f : Frame) (a : Nat) :
    Keeps slotsKept (execBody f a body) := by
  unfold execBody
  dsimp only
  repeat' (first
    | with_reducible apply slotsKept_setMode _
    | with_reducible apply slotsKept_pushFrame (fun _ _ pushed => by cases pushed; exact conv) _ _ _ _ _ _ _ _
    | with_reducible apply Keeps.pure _
    | with_reducible apply slotsKept_of_readOnly (readOnly_slot _)
    | with_reducible apply slotsKept_of_readOnly (readOnly_targetClass _)
    | with_reducible apply slotsKept_of_readOnly (readOnly_liftStore (Store.readOnly_classOf? _))
    | with_reducible apply slotsKept_of_readOnly (readOnly_liftStore Store.readOnly_wellKnown)
    | with_reducible exact slotsKept_allocProc conv rfl rfl
    | with_reducible apply slotsKept_growStack _
    | with_reducible apply slotsKept_setSlot _ _
    | with_reducible apply Keeps.bind
    | with_reducible intro _
    | split)

theorem slotsKept_suspendFiber (live : ∀ c, m.contexts[m.current]? = some c → c.status ≠ .terminated)
    (vals : Array Value) : slotsKept.rel m (endState ((suspendFiber vals).run m)) := by
  unfold suspendFiber
  refine Keeps.rel_bind (slotsKept_of_readOnly readOnly_currentContext) fun c m₁ got => ?_
  obtain rfl := readOnly_currentContext.ok_state got
  split
  · exact slotsKept_of_readOnly readOnly_runtimeFault _
  · refine rel_bind_of_rel (slotsKept_modifyContext_of _ (fun c' stored _ => .inr ⟨live c' stored, rfl⟩)
      fun _ _ codes => codes) fun _ m₂ _ => ?_
    exact Keeps.bind (slotsKept_switch _) (fun _ =>
      Keeps.bind (slotsKept_packValues _) fun _ => slotsKept_setMode _) m₂

theorem slotsKept_pushContext {c : Context} (empty : c.exc = .nil) (bare : c.frames = #[]) :
    slotsKept.rel m { m with contexts := m.contexts.push c } := by
  refine ⟨fun conv => ⟨conv.store, fun i c' found => ?_⟩, fun i c' found live => ?_⟩
  all_goals
    change (m.contexts.push c)[i]? = some c' at found
    rw [Array.getElem?_push] at found
  · split at found
    · cases found
      intro f mem
      simp [bare] at mem
    · exact conv.frames i c' found
  · split at found
    · cases found
      exact .inl empty
    · exact .inr ⟨c', found, live, rfl⟩

theorem slotsKept_spawnFiber (p : ObjRef) (cls : Option ObjRef) : Keeps slotsKept (spawnFiber p cls) := by
  unfold spawnFiber
  refine Keeps.bind_run Keeps.get fun s m t got => ?_
  cases got
  exact rel_set_bind (slotsKept_pushContext rfl rfl)
    (Keeps.bind (slotsKept_liftStore (Store.shapesKept_alloc rfl)) fun r =>
      Keeps.bind (slotsKept_modifyContext _ (fun _ live => .inr ⟨live, rfl⟩) fun _ codes => codes)
        fun _ => Keeps.pure _)

end Links

end Machine

end RegisterVM
