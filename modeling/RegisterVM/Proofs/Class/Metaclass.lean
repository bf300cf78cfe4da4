import RegisterVM.Proofs.Bundle.Interning
import RegisterVM.Proofs.Class.Outer
import RegisterVM.Proofs.Class.Super
import RegisterVM.Proofs.Store.Environments

set_option autoImplicit false

namespace RegisterVM

namespace Store

def clsAt (st : Store) (r : ObjRef) : Option ObjRef := st.heap[r.idx]?.bind (·.cls)

def kindAt (st : Store) (r : ObjRef) : Option ClassKind := (st.nodeAt r).map (·.kind)

def attachedAt (st : Store) (r : ObjRef) : Option Value :=
  st.heap[r.idx]?.map (·.ivars.getD st.core.symAttached .nil)

def metaOf (st : Store) : Option ObjRef → Option ObjRef
  | some d => st.clsAt d
  | none => some st.core.klass

inductive Skips (st : Store) (skip : ClassKind → Bool) : Option ObjRef → Option ObjRef → Prop
  | none : Skips st skip none none
  | stop {p : ObjRef} {n : ClassNode} : st.nodeAt p = some n → skip n.kind = false →
      Skips st skip (some p) (some p)
  | pass {p : ObjRef} {n : ClassNode} {t : Option ObjRef} : st.nodeAt p = some n →
      skip n.kind = true → Skips st skip n.super t → Skips st skip (some p) t

def Above (st : Store) (r : ObjRef) (t : Option ObjRef) : Prop :=
  ∃ n, st.nodeAt r = some n ∧ st.Skips ClassKind.isInner n.super t

def HasMetaclass (st : Store) (c : ObjRef) : Prop :=
  ∃ s d, st.clsAt c = some s ∧ st.kindAt s = some .singleton ∧ st.attachedAt s = some (.obj c) ∧
    st.Above c d ∧ (∀ x, d = some x → st.kindAt x = some .ordinary) ∧ st.Above s (st.metaOf d)

def MetaclassedBut (st : Store) (pending : List ObjRef) : Prop :=
  ∀ c, st.kindAt c = some .ordinary → c ∉ pending →
    st.HasMetaclass c ∧ ∀ d, st.Above c (some d) → d ∉ pending

structure Metaclassed (st : Store) : Prop where
  klass : st.kindAt st.core.klass = some .ordinary
  sound : st.symbols.Sound
  attachedName : st.symbols.ids.get? "__attached__" = some st.core.symAttached.id
  classes : st.MetaclassedBut []

section Skips

variable {st t : Store} {skip : ClassKind → Bool}

theorem Skips.determ {s a b : Option ObjRef} (h : st.Skips skip s a) (h' : st.Skips skip s b) :
    a = b := by
  induction h with
  | none => cases h'; rfl
  | stop found outer =>
    cases h' with
    | stop => rfl
    | pass found' inner _ =>
      rw [found] at found'
      cases found'
      rw [outer] at inner
      cases inner
  | pass found inner _ ih =>
    cases h' with
    | stop found' outer =>
      rw [found] at found'
      cases found'
      rw [inner] at outer
      cases outer
    | pass found' _ rest =>
      rw [found] at found'
      cases found'
      exact ih rest

theorem Skips.mono (kept : ∀ p n, st.nodeAt p = some n → ∃ n', t.nodeAt p = some n' ∧
      n'.kind = n.kind ∧ n'.super = n.super) {s a : Option ObjRef} (h : st.Skips skip s a) :
    t.Skips skip s a := by
  induction h with
  | none => exact .none
  | stop found outer =>
    obtain ⟨n', found', kind, -⟩ := kept _ _ found
    exact .stop found' (kind ▸ outer)
  | pass found inner _ ih =>
    obtain ⟨n', found', kind, super⟩ := kept _ _ found
    exact .pass found' (kind ▸ inner) (super ▸ ih)

theorem Above.mono (kept : ∀ p n, st.nodeAt p = some n → ∃ n', t.nodeAt p = some n' ∧
      n'.kind = n.kind ∧ n'.super = n.super) {r : ObjRef} {a : Option ObjRef} (h : st.Above r a) :
    t.Above r a := by
  obtain ⟨n, found, next⟩ := h
  obtain ⟨n', found', -, super⟩ := kept _ _ found
  exact ⟨n', found', super ▸ next.mono kept⟩

theorem Above.determ {r : ObjRef} {a b : Option ObjRef} (ha : st.Above r a) (hb : st.Above r b) :
    a = b := by
  obtain ⟨n, found, next⟩ := ha
  obtain ⟨n', found', next'⟩ := hb
  rw [found] at found'
  cases found'
  exact next.determ next'

theorem above_of_link {r : ObjRef} {n : ClassNode} (found : st.nodeAt r = some n)
    (outer : ∀ d, n.super = some d → st.kindAt d = some .ordinary) : st.Above r n.super := by
  refine ⟨n, found, ?_⟩
  cases linked : n.super with
  | none => exact .none
  | some d =>
    obtain ⟨nd, at_d, kind⟩ := Option.map_eq_some_iff.mp (outer d linked)
    exact .stop at_d (by simp [kind, ClassKind.isInner])

section Splice

variable {p q : ObjRef} {np nq np' : ClassNode}

structure InnerSplice (st t : Store) (p q : ObjRef) (np nq np' : ClassNode) : Prop where
  at_p : st.nodeAt p = some np
  at_q : st.nodeAt q = some nq
  inner : nq.kind.isInner = true
  links : nq.super = np.super
  apart : q ≠ p
  at_p' : t.nodeAt p = some np'
  kind : np'.kind = np.kind
  toQ : np'.super = some q
  others : ∀ r, r ≠ p → t.nodeAt r = st.nodeAt r

theorem InnerSplice.skips (spliced : InnerSplice st t p q np nq np') (passes : skip nq.kind = true)
    {s a : Option ObjRef} (h : st.Skips skip s a) : t.Skips skip s a := by
  have at_q : t.nodeAt q = some nq := by rw [spliced.others q spliced.apart, spliced.at_q]
  have kind : skip np'.kind = skip np.kind := by rw [spliced.kind]
  induction h with
  | none => exact .none
  | @stop r n found outer =>
    by_cases here : r = p
    · subst here
      rw [spliced.at_p] at found
      cases found
      exact .stop spliced.at_p' (kind.trans outer)
    · exact .stop (by rw [spliced.others r here, found]) outer
  | @pass r n a found inner _ ih =>
    by_cases here : r = p
    · -- the way now passes the new node too
      subst here
      rw [spliced.at_p] at found
      cases found
      refine .pass spliced.at_p' (kind.trans inner) ?_
      rw [spliced.toQ]
      exact .pass at_q passes (spliced.links ▸ ih)
    · exact .pass (by rw [spliced.others r here, found]) inner ih

theorem InnerSplice.above (spliced : InnerSplice st t p q np nq np') {r : ObjRef}
    {a : Option ObjRef} (h : st.Above r a) : t.Above r a := by
  obtain ⟨n, found, next⟩ := h
  by_cases here : r = p
  · subst here
    rw [spliced.at_p] at found
    cases found
    have at_q : t.nodeAt q = some nq := by rw [spliced.others q spliced.apart, spliced.at_q]
    refine ⟨np', spliced.at_p', ?_⟩
    rw [spliced.toQ]
    exact .pass at_q spliced.inner (spliced.links ▸ spliced.skips spliced.inner next)
  · exact ⟨n, by rw [spliced.others r here, found], spliced.skips spliced.inner next⟩

end Splice

end Skips

structure ShapeKept (s t : Store) : Prop where
  kinds : ∀ r k, s.kindAt r = some k → t.kindAt r = some k
  noneNew : ∀ r, t.kindAt r = some .ordinary → s.kindAt r = some .ordinary
  above : ∀ r a, s.Above r a → t.Above r a
  attached : ∀ x c, s.kindAt x = some .singleton → s.attachedAt x = some (.obj c) →
    t.attachedAt x = some (.obj c)
  klass : t.core.klass = s.core.klass
  symAttached : t.core.symAttached = s.core.symAttached
  symbols : s.symbols.Extends t.symbols
  sound : s.symbols.Sound → t.symbols.Sound

theorem ShapeKept.refl (s : Store) : ShapeKept s s :=
  ⟨fun _ _ h => h, fun _ h => h, fun _ _ h => h, fun _ _ _ h => h, rfl, rfl,
    SymbolTable.Extends.refl _, id⟩

theorem ShapeKept.trans {s t u : Store} (first : ShapeKept s t) (second : ShapeKept t u) :
    ShapeKept s u where
  kinds r k h := second.kinds r k (first.kinds r k h)
  noneNew r h := first.noneNew r (second.noneNew r h)
  above r a h := second.above r a (first.above r a h)
  attached x c single h := second.attached x c (first.kinds x _ single) (first.attached x c single h)
  klass := second.klass.trans first.klass
  symAttached := second.symAttached.trans first.symAttached
  symbols := first.symbols.trans second.symbols
  sound h := second.sound (first.sound h)

def metaKept : StateOrder Store where
  rel s t := ShapeKept s t ∧ ∀ c, s.kindAt c = some .ordinary → t.clsAt c = s.clsAt c
  refl s := ⟨ShapeKept.refl s, fun _ _ => rfl⟩
  trans h₁ h₂ := ⟨h₁.1.trans h₂.1, fun c ordinary =>
    (h₂.2 c (h₁.1.kinds c _ ordinary)).trans (h₁.2 c ordinary)⟩

theorem MetaclassedBut.of_shapeKept {s t : Store} {pending : List ObjRef}
    (h : s.MetaclassedBut pending) (kept : ShapeKept s t)
    (classes : ∀ c, s.kindAt c = some .ordinary → c ∉ pending → t.clsAt c = s.clsAt c) :
    t.MetaclassedBut pending := by
  intro c ordinary waiting
  have ordinary' := kept.noneNew c ordinary
  obtain ⟨⟨sc, d, cls, single, attached, above, outer, metaAbove⟩, clear⟩ := h c ordinary' waiting
  -- the class above `c` is no pending class, so its singleton class is where it was
  have metaOf_same : t.metaOf d = s.metaOf d := by
    cases d with
    | none => simp [metaOf, kept.klass]
    | some x => exact classes x (outer x rfl) (clear x above)
  refine ⟨⟨sc, d, ?_, kept.kinds _ _ single, kept.attached _ _ single attached,
    kept.above _ _ above, fun x same => kept.kinds _ _ (outer x same), ?_⟩, fun x above' => ?_⟩
  · rw [classes c ordinary' waiting, cls]
  · rw [metaOf_same]
    exact kept.above _ _ metaAbove
  · have same := (kept.above _ _ above).determ above'
    subst same
    exact clear x above

theorem Metaclassed.of_metaKept {s t : Store} (h : s.Metaclassed) (kept : metaKept.rel s t) :
    t.Metaclassed where
  klass := by rw [kept.1.klass]; exact kept.1.kinds _ _ h.klass
  sound := kept.1.sound h.sound
  attachedName := by rw [kept.1.symAttached]; exact kept.1.symbols _ _ h.attachedName
  classes := h.classes.of_shapeKept kept.1 fun c ordinary _ => kept.2 c ordinary

theorem MetaclassedBut.settle {st : Store} {k : ObjRef} {rest : List ObjRef}
    (h : st.MetaclassedBut (k :: rest)) (has : st.HasMetaclass k)
    (clear : ∀ d, st.Above k (some d) → d ∉ rest) : st.MetaclassedBut rest := by
  intro c ordinary waiting
  by_cases here : c = k
  · subst here
    exact ⟨has, clear⟩
  · obtain ⟨has', clear'⟩ := h c ordinary (by simp [here, waiting])
    exact ⟨has', fun d above => fun mem => clear' d above (List.mem_cons_of_mem _ mem)⟩

section Primitive

variable {st t : Store}

theorem within_of_kindAt {r : ObjRef} {k : ClassKind} (h : st.kindAt r = some k) :
    r.idx < st.heap.size :=
  within_of_nodeAt (Option.map_eq_some_iff.mp h).choose_spec.1

theorem clsAt_push (o : Obj) (r : ObjRef) :
    ({ st with heap := st.heap.push o } : Store).clsAt r =
      if r.idx = st.heap.size then o.cls else st.clsAt r := by
  simp only [clsAt, Array.getElem?_push]
  split <;> rfl

theorem attachedAt_push (o : Obj) (r : ObjRef) :
    ({ st with heap := st.heap.push o } : Store).attachedAt r =
      if r.idx = st.heap.size then some (o.ivars.getD st.core.symAttached .nil)
      else st.attachedAt r := by
  simp only [attachedAt, Array.getElem?_push]
  split <;> rfl

theorem ShapeKept.of_nodes (kept : ∀ p n, st.nodeAt p = some n → ∃ n', t.nodeAt p = some n' ∧
      n'.kind = n.kind ∧ n'.super = n.super)
    (noneNew : ∀ r, t.kindAt r = some .ordinary → st.kindAt r = some .ordinary)
    (attached : ∀ x c, st.kindAt x = some .singleton → st.attachedAt x = some (.obj c) →
      t.attachedAt x = some (.obj c))
    (core : t.core = st.core) (symbols : t.symbols = st.symbols) : ShapeKept st t where
  kinds r k h := by
    obtain ⟨n, found, rfl⟩ := Option.map_eq_some_iff.mp h
    obtain ⟨n', found', kind, -⟩ := kept r n found
    simp [kindAt, found', kind]
  noneNew := noneNew
  above _ _ h := h.mono kept
  attached := attached
  klass := by rw [core]
  symAttached := by rw [core]
  symbols := by rw [symbols]; exact SymbolTable.Extends.refl _
  sound h := by rw [symbols]; exact h

theorem metaKept_of_heap (heap : t.heap = st.heap) (klass : t.core.klass = st.core.klass)
    (symAttached : t.core.symAttached = st.core.symAttached)
    (symbols : st.symbols.Extends t.symbols) (sound : st.symbols.Sound → t.symbols.Sound) :
    metaKept.rel st t := by
  have nodes : ∀ r, t.nodeAt r = st.nodeAt r := fun r => by simp [nodeAt, heap]
  refine ⟨⟨fun r k h => ?_, fun r h => ?_, fun r a h => h.mono fun p n found => ?_,
    fun x c _ h => ?_, klass, symAttached, symbols, sound⟩, fun c _ => by simp [clsAt, heap]⟩
  · simpa [kindAt, nodes] using h
  · simpa [kindAt, nodes] using h
  · exact ⟨n, by rw [nodes, found], rfl, rfl⟩
  · simpa [attachedAt, heap, symAttached] using h

theorem metaKept_flushCache : Keeps metaKept flushCache :=
  fun _ => metaKept_of_heap rfl rfl rfl (SymbolTable.Extends.refl _) id

theorem metaKept_intern (name : String) : Keeps metaKept (intern name) :=
  fun st => metaKept_of_heap rfl rfl rfl (SymbolTable.extends_intern st.symbols name)
    fun sound => sound.intern name

theorem wellKnown_run_core : wellKnown.run st = .ok st.core st := rfl

theorem intern_run (name : String) :
    (intern name).run st = .ok (st.symbols.intern name).2 { st with symbols := (st.symbols.intern name).1 } :=
  rfl

theorem metaKept_setCore {f : Core → Core} (klass : ∀ c, (f c).klass = c.klass)
    (symAttached : ∀ c, (f c).symAttached = c.symAttached) : Keeps metaKept (setCore f) :=
  fun st => metaKept_of_heap rfl (klass st.core) (symAttached st.core)
    (SymbolTable.Extends.refl _) id

theorem metaKept_resolve (cls : Option ObjRef) (mid : Sym) : Keeps metaKept (resolve cls mid) := by
  refine Keeps.bind Keeps.get fun st => ?_
  split
  · exact Keeps.pure _
  · refine Keeps.bind ((readOnly_lookup cls mid).keeps _) fun e => ?_
    exact Keeps.bind (fun _ => metaKept_of_heap rfl rfl rfl (SymbolTable.Extends.refl _) id)
      fun _ => Keeps.pure _

theorem metaKept_alloc {o : Obj} (plain : ∀ n, o.node? = some n → n.kind ≠ .ordinary) :
    Keeps metaKept (alloc o) := by
  intro st
  rw [alloc_run]
  dsimp only [endState]
  -- every reference to an old object is below the heap's size
  have old : ∀ r : ObjRef, st.heap[r.idx]? ≠ none → r.idx ≠ st.heap.size := fun r present same => by
    rw [same] at present
    simp at present
  have oldNode : ∀ r : ObjRef, st.nodeAt r ≠ none → r.idx ≠ st.heap.size := fun r present =>
    old r fun absent => present (by simp [nodeAt, absent])
  refine ⟨ShapeKept.of_nodes (fun p n found => ⟨n, ?_, rfl, rfl⟩) (fun r h => ?_)
    (fun x c single h => ?_) rfl rfl, fun c ordinary => ?_⟩
  · rw [nodeAt_push, if_neg (oldNode p (by simp [found])), found]
  · simp only [kindAt, nodeAt_push] at h ⊢
    split at h
    · obtain ⟨n, node, kind⟩ := Option.map_eq_some_iff.mp h
      exact absurd kind (plain n node)
    · exact h
  · have at_x : st.nodeAt x ≠ none := fun absent => by simp [kindAt, absent] at single
    rw [attachedAt_push, if_neg (oldNode x at_x)]
    exact h
  · have at_c : st.nodeAt c ≠ none := fun absent => by simp [kindAt, absent] at ordinary
    rw [clsAt_push, if_neg (oldNode c at_c)]

theorem modifyNode_ok {r : ObjRef} {f : ClassNode → ClassNode} (run : (modifyNode r f).run st = .ok () t) :
    ∃ n, st.nodeAt r = some n ∧ (∀ x, t.nodeAt x = if x = r then some (f n) else st.nodeAt x) ∧
      (∀ x, t.clsAt x = st.clsAt x) ∧ (∀ x, t.attachedAt x = st.attachedAt x) ∧
      t.core = st.core ∧ t.symbols = st.symbols := by
  rw [modifyNode_run] at run
  split at run
  · rename_i o found
    split at run
    · rename_i c body
      cases run
      have within := (Array.getElem?_eq_some_iff.mp found).1
      -- the object at `r` is rewritten with the same class and instance variables
      have heap : ∀ x : ObjRef, (st.heap.set! r.idx { o with body := .cls (f c) })[x.idx]? =
          if x = r then some { o with body := .cls (f c) } else st.heap[x.idx]? := by
        intro x
        simp only [Array.set!_eq_setIfInBounds, Array.getElem?_setIfInBounds]
        by_cases same : x = r
        · subst same
          simp [within]
        · have apart : r.idx ≠ x.idx := fun h => same (by cases r; cases x; simp_all)
          simp [same, apart]
      refine ⟨c, by simp [nodeAt, found, Obj.node?, body], fun x => ?_, fun x => ?_, fun x => ?_,
        rfl, rfl⟩
      · simp only [nodeAt, heap]
        split
        · simp [Obj.node?]
        · rfl
      · simp only [clsAt, heap]
        split
        · rename_i same
          subst same
          simp [found]
        · rfl
      · simp only [attachedAt, heap]
        split
        · rename_i same
          subst same
          simp [found]
        · rfl
    · cases run
  · cases run

theorem metaKept_modifyNode (r : ObjRef) {f : ClassNode → ClassNode} (kind : ∀ c, (f c).kind = c.kind)
    (super : ∀ c, (f c).super = c.super) : Keeps metaKept (modifyNode r f) := by
  intro st
  cases run : (modifyNode r f).run st with
  | error e t =>
    rw [modifyNode_error run]
    exact metaKept.refl st
  | ok u t =>
    obtain ⟨n, at_r, nodes, classes, attached, core, symbols⟩ := modifyNode_ok run
    dsimp only [endState]
    have kept : ∀ p m, st.nodeAt p = some m → ∃ m', t.nodeAt p = some m' ∧ m'.kind = m.kind ∧
        m'.super = m.super := by
      intro p m found
      rw [nodes p]
      split
      · rename_i same
        subst same
        rw [at_r] at found
        cases found
        exact ⟨_, rfl, kind _, super _⟩
      · exact ⟨m, found, rfl, rfl⟩
    refine ⟨ShapeKept.of_nodes kept (fun x h => ?_) (fun x c _ h => by rw [attached]; exact h) core
      symbols, fun c _ => classes c⟩
    simp only [kindAt, nodes x] at h ⊢
    split at h
    · rename_i same
      subst same
      simpa [at_r, kind] using h
    · exact h

theorem shapeKept_modifyObj (r : ObjRef) {f : Obj → Obj} (body : ∀ o, (f o).body = o.body)
    (ivars : ∀ o c, st.heap[r.idx]? = some o → st.kindAt r = some .singleton →
      st.attachedAt r = some (.obj c) → (f o).ivars.getD st.core.symAttached .nil = .obj c) :
    ShapeKept st (endState ((modifyObj r f).run st)) ∧
      ∀ c, (endState ((modifyObj r f).run st)).clsAt c =
        if c = r then (st.heap[r.idx]?.map f).bind (·.cls) else st.clsAt c := by
  rw [modifyObj_run]
  split
  · rename_i within
    dsimp only [endState]
    have heap : ∀ x : ObjRef, (st.heap.modify r.idx f)[x.idx]? =
        if x = r then st.heap[x.idx]?.map f else st.heap[x.idx]? := by
      intro x
      rw [Array.getElem?_modify]
      by_cases same : x = r
      · subst same
        simp
      · have apart : r.idx ≠ x.idx := fun h => same (by cases r; cases x; simp_all)
        simp [same, apart]
    have nodes : ∀ x, ({ st with heap := st.heap.modify r.idx f } : Store).nodeAt x = st.nodeAt x := by
      intro x
      simp only [nodeAt, heap]
      split
      · cases st.heap[x.idx]? with
        | none => rfl
        | some o => simp [Obj.node?, body]
      · rfl
    refine ⟨ShapeKept.of_nodes (fun p n found => ⟨n, by rw [nodes, found], rfl, rfl⟩)
      (fun x h => by simpa [kindAt, nodes] using h) (fun x c single h => ?_) rfl rfl,
      fun c => by simp only [clsAt, heap]; split <;> simp_all⟩
    simp only [attachedAt, heap] at h ⊢
    split
    · rename_i same
      subst same
      obtain ⟨o, found, attachedO⟩ := Option.map_eq_some_iff.mp h
      simp [found, ivars o c found single (by simp [attachedAt, found, attachedO])]
    · exact h
  · rename_i outside
    refine ⟨ShapeKept.refl st, fun c => ?_⟩
    dsimp only [endState]
    split
    · rename_i same
      subst same
      simp [clsAt, Array.getElem?_eq_none (Nat.le_of_not_lt outside)]
    · rfl

theorem metaKept_ivarSet (r : ObjRef) (sym : Sym) (v : Value)
    (keeps : ∀ c, st.kindAt r = some .singleton → st.attachedAt r = some (.obj c) →
      sym ≠ st.core.symAttached) :
    metaKept.rel st (endState ((ivarSet r sym v).run st)) := by
  obtain ⟨kept, classes⟩ := @shapeKept_modifyObj st r (fun o => { o with ivars := o.ivars.insert sym v })
    (fun _ => rfl) fun o c found single attached => by
      have other := keeps c single attached
      simp only [attachedAt, found, Option.map_some, Option.some.injEq] at attached
      simp [Std.HashMap.getD_insert, other, attached]
  refine ⟨kept, fun c _ => ?_⟩
  rw [ivarSet, classes]
  split
  · rename_i same
    subst same
    unfold clsAt
    cases st.heap[c.idx]? <;> rfl
  · rfl

theorem setCls_run (r sc : ObjRef) :
    ShapeKept st (endState ((modifyObj r fun o => { o with cls := some sc }).run st)) ∧
      ∀ c, (endState ((modifyObj r fun o => { o with cls := some sc }).run st)).clsAt c =
        if c = r ∧ r.idx < st.heap.size then some sc else st.clsAt c := by
  obtain ⟨kept, classes⟩ := @shapeKept_modifyObj st r
    (fun o => { o with cls := some sc }) (fun _ => rfl) fun o c found _ attached => by
      simpa [attachedAt, found] using attached
  refine ⟨kept, fun c => ?_⟩
  rw [classes]
  by_cases same : c = r
  · subst same
    cases found : st.heap[c.idx]? with
    | none => simp [clsAt, Array.getElem?_eq_none_iff.mp found]
    | some o => simp [(Array.getElem?_eq_some_iff.mp found).1]
  · simp [same]

end Primitive

section Singleton

variable {st : Store}

theorem superclass_of_link {r : ObjRef} {d : Option ObjRef} (linked : st.link r = some d)
    (outer : ∀ D, d = some D → ∃ n, st.nodeAt D = some n ∧ n.kind.isInner = false) :
    (superclass r).run st = .ok d st := by
  rw [link_eq_nodeAt] at linked
  obtain ⟨n, found, rfl⟩ := Option.map_eq_some_iff.mp linked
  cases super : n.super with
  | none =>
    simp [superclass, EStateM.run_bind, superOf_run, found, super, chainFuel, superclass.go]
  | some D =>
    obtain ⟨nd, at_D, outer'⟩ := outer D super
    simp [superclass, EStateM.run_bind, superOf_run, found, super, chainFuel, superclass.go,
      node_run_nodeAt, at_D, outer']

theorem singletonClassOf_go_attached {r s : ObjRef} (cls : st.clsAt r = some s)
    (single : st.kindAt s = some .singleton) (attached : st.attachedAt s = some (.obj r))
    (fuel : Nat) : (singletonClassOf.go (.obj r) (fuel + 1)).run st = .ok (some s) st := by
  obtain ⟨o, at_r, o_cls⟩ := Option.bind_eq_some_iff.mp cls
  obtain ⟨ns, at_s, kind⟩ := Option.map_eq_some_iff.mp single
  obtain ⟨so, obj_s, ivars⟩ := Option.map_eq_some_iff.mp attached
  simp [singletonClassOf.go, EStateM.run_bind, wellKnown, getObj_run, at_r, o_cls,
    node_run_nodeAt, at_s, kind, obj_s, ivars]

theorem nodeAt_push_old (o : Obj) {p : ObjRef} {n : ClassNode} (found : st.nodeAt p = some n) :
    ({ st with heap := st.heap.push o } : Store).nodeAt p = some n := by
  rw [nodeAt_push, if_neg (Nat.ne_of_lt (within_of_nodeAt found)), found]

@[simp] theorem clsAt_withIvar (r : ObjRef) (sym : Sym) (v : Value) (c : ObjRef) :
    (st.withIvar r sym v).clsAt c = st.clsAt c := by
  simp only [clsAt, withIvar, Array.getElem?_modify]
  split <;> cases st.heap[c.idx]? <;> rfl

@[simp] theorem nodeAt_withIvar (r : ObjRef) (sym : Sym) (v : Value) (c : ObjRef) :
    (st.withIvar r sym v).nodeAt c = st.nodeAt c := by
  simp only [nodeAt, withIvar, Array.getElem?_modify]
  split <;> cases st.heap[c.idx]? <;> rfl

@[simp] theorem kindAt_withIvar (r : ObjRef) (sym : Sym) (v : Value) (c : ObjRef) :
    (st.withIvar r sym v).kindAt c = st.kindAt c := by
  simp [kindAt]

theorem attachedAt_withIvar_of_ne {r c : ObjRef} (other : c ≠ r) (sym : Sym) (v : Value) :
    (st.withIvar r sym v).attachedAt c = st.attachedAt c := by
  have apart : r.idx ≠ c.idx := fun h => other (by cases r; cases c; simp_all)
  simp [attachedAt, withIvar, Array.getElem?_modify, apart]

theorem attachedAt_withIvar_self {r : ObjRef} (within : r.idx < st.heap.size) (v : Value) :
    (st.withIvar r st.core.symAttached v).attachedAt r = some v := by
  obtain ⟨o, found⟩ : ∃ o, st.heap[r.idx]? = some o := ⟨_, Array.getElem?_eq_getElem within⟩
  simp [attachedAt, withIvar, Array.getElem?_modify, found]

theorem hang_run {r : ObjRef} (within : r.idx < st.heap.size) (x : ObjRef) (super : Option ObjRef) :
    ∃ t, (do
        let sc ← allocClass .singleton st.core.klass super
        ivarSet sc st.core.symAttached (.obj x)
        modifyObj r fun o => { o with cls := some sc }
        flushCache
        pure (some sc) : StoreM (Option ObjRef)).run st = .ok (some ⟨st.heap.size⟩) t ∧
      ShapeKept st t ∧
      (∀ c : ObjRef, c.idx < st.heap.size →
        t.clsAt c = if c = r then some ⟨st.heap.size⟩ else st.clsAt c) ∧
      t.kindAt ⟨st.heap.size⟩ = some .singleton ∧ t.attachedAt ⟨st.heap.size⟩ = some (.obj x) ∧
      (∀ a, st.Skips ClassKind.isInner super a → t.Above ⟨st.heap.size⟩ a) ∧
      (∀ y a, st.link y = some a → t.link y = some a) := by
  -- the store after each step
  let node : ClassNode := { kind := .singleton, super }
  let o : Obj := { cls := some st.core.klass, body := .cls node }
  let sc : ObjRef := ⟨st.heap.size⟩
  let s₁ : Store := { st with heap := st.heap.push o }
  let s₂ : Store := s₁.withIvar sc st.core.symAttached (.obj x)
  let s₃ : Store := { s₂ with heap := s₂.heap.modify r.idx fun o => { o with cls := some sc } }
  have fresh : sc.idx < s₁.heap.size := by simp [s₁, sc]
  have within₂ : r.idx < s₂.heap.size := by simp [s₂, s₁]; omega
  have alloc₁ : (allocClass .singleton st.core.klass super).run st = .ok sc s₁ := alloc_run o st
  have set₂ : (ivarSet sc st.core.symAttached (.obj x)).run s₁ = .ok () s₂ := by
    rw [ivarSet_run, if_pos fresh]
  have cls₃ : (modifyObj r fun o => { o with cls := some sc }).run s₂ = .ok () s₃ := by
    rw [modifyObj_run, if_pos within₂]
  refine ⟨{ s₃ with cache := {} }, by simp only [EStateM.run_bind, alloc₁, set₂, cls₃]; rfl, ?_⟩
  have at_sc : s₁.nodeAt sc = some node := by simp [s₁, sc, o, nodeAt_push, Obj.node?]
  have kept₁ : metaKept.rel st s₁ := metaKept_alloc (o := o) (fun n made => by
    simp only [o, Obj.node?, Option.some.injEq] at made
    simp [← made, node]) st
  -- the new singleton class is attached to nothing yet
  have kept₂ : metaKept.rel s₁ s₂ := by
    have kept := @metaKept_ivarSet s₁ sc st.core.symAttached (.obj x) fun c _ attached => by
      simp [s₁, sc, o, attachedAt_push] at attached
    rwa [set₂] at kept
  have kept₃ := @setCls_run s₂ r sc
  rw [cls₃] at kept₃
  have kept₄ : metaKept.rel s₃ { s₃ with cache := {} } := metaKept_flushCache s₃
  have shape₁ : ShapeKept s₁ { s₃ with cache := {} } := kept₂.1.trans (kept₃.1.trans kept₄.1)
  refine ⟨kept₁.1.trans shape₁, fun c old => ?_, shape₁.kinds sc _ (by simp [kindAt, at_sc, node]),
    ?_, fun a next => shape₁.above sc a ⟨node, at_sc, next.mono fun p n found =>
      ⟨n, nodeAt_push_old o found, rfl, rfl⟩⟩, fun y a linked => ?_⟩
  · have classes := kept₃.2 c
    simp only [endState] at classes
    show s₃.clsAt c = _
    rw [classes]
    by_cases same : c = r <;>
      simp [s₂, s₁, sc, clsAt_push, Nat.ne_of_lt old, same, Nat.lt_succ_of_lt within]
  · have attached : s₂.attachedAt sc = some (.obj x) := by
      simpa [s₂, s₁] using @attachedAt_withIvar_self s₁ sc fresh (.obj x)
    exact (kept₃.1.trans kept₄.1).attached sc x (kept₂.1.kinds sc _ (by simp [kindAt, at_sc, node]))
      attached
  · have linked₁ : s₁.link y = some a := by
      rw [link_push, if_neg (Nat.ne_of_lt (lt_size_of_link linked))]
      exact linked
    have same₃ := (sameLinks_modifyObj (f := fun o => { o with cls := some sc }) r (fun _ => rfl) s₂).1 y
    rw [cls₃] at same₃
    dsimp only [endState] at same₃
    show s₃.link y = some a
    rw [same₃]
    simpa [s₂] using linked₁

theorem singletonClassOf_pending {k : ObjRef} {rest : List ObjRef} {d : Option ObjRef}
    (pending : st.MetaclassedBut (k :: rest)) (ordinary : st.kindAt k = some .ordinary)
    (linked : st.link k = some d)
    (outer : ∀ D, d = some D → st.kindAt D = some .ordinary ∧ D ∉ k :: rest)
    (cls : st.clsAt k = some st.core.klass) (klass : st.kindAt st.core.klass = some .ordinary) :
    ∃ sc t, (singletonClassOf (.obj k)).run st = .ok (some sc) t ∧ t.MetaclassedBut rest ∧
      ShapeKept st t ∧ (∀ c : ObjRef, c ≠ k → c.idx < st.heap.size → t.clsAt c = st.clsAt c) ∧
      (∀ y a, st.link y = some a → t.link y = some a) := by
  -- what the walk reads on its way
  obtain ⟨o, at_k, o_cls⟩ := Option.bind_eq_some_iff.mp cls
  obtain ⟨nk, node_k, kind_k⟩ := Option.map_eq_some_iff.mp ordinary
  have body : o.body = .cls nk := by
    simp only [nodeAt, at_k, Option.bind_some, Obj.node?] at node_k
    split at node_k <;> simp_all
  obtain ⟨nkl, at_klass, kind_klass⟩ := Option.map_eq_some_iff.mp klass
  obtain ⟨kObj, obj_klass, -⟩ := Option.bind_eq_some_iff.mp at_klass
  have within : k.idx < st.heap.size := within_of_nodeAt node_k
  obtain ⟨f, size⟩ : ∃ f, st.heap.size = f + 1 := ⟨st.heap.size - 1, by omega⟩
  have outer' : ∀ D, d = some D → ∃ n, st.nodeAt D = some n ∧ n.kind.isInner = false := by
    intro D same
    obtain ⟨nd, at_D, kind_D⟩ := Option.map_eq_some_iff.mp (outer D same).1
    exact ⟨nd, at_D, by simp [kind_D, ClassKind.isInner]⟩
  have sup := superclass_of_link linked outer'
  -- the new singleton class hangs below the singleton class of the superclass, or Class
  have below : st.Skips ClassKind.isInner (st.metaOf d) (st.metaOf d) ∧
      (singletonClassOf (.obj k)).run st = (do
        let sc ← allocClass .singleton st.core.klass (st.metaOf d)
        ivarSet sc st.core.symAttached (.obj k)
        modifyObj k fun o => { o with cls := some sc }
        flushCache
        pure (some sc) : StoreM (Option ObjRef)).run st := by
    cases d with
    | none =>
      refine ⟨.stop at_klass (by simp [kind_klass, ClassKind.isInner]), ?_⟩
      simp [singletonClassOf, chainFuel, singletonClassOf.go, EStateM.run_bind, wellKnown, getObj_run,
        at_k, o_cls, node_run_nodeAt, at_klass, obj_klass, kind_klass, body, kind_k, sup, metaOf]
    | some D =>
      obtain ⟨sD, -, clsD, singleD, attachedD, -⟩ :=
        (pending D (outer D rfl).1 (outer D rfl).2).1
      obtain ⟨nD, at_sD, kind_sD⟩ := Option.map_eq_some_iff.mp singleD
      have inner : (singletonClassOf.go (.obj D) st.heap.size).run st = .ok (some sD) st := by
        rw [size]
        exact singletonClassOf_go_attached clsD singleD attachedD f
      refine ⟨by simpa [metaOf, clsD] using Skips.stop at_sD (by simp [kind_sD, ClassKind.isInner]),
        ?_⟩
      simp [singletonClassOf, chainFuel, singletonClassOf.go, EStateM.run_bind, wellKnown, getObj_run,
        at_k, o_cls, node_run_nodeAt, at_klass, obj_klass, kind_klass, body, kind_k, sup, inner,
        metaOf, clsD]
  obtain ⟨next, run⟩ := below
  obtain ⟨t, hung, kept, classes, single, attached, above, links⟩ := hang_run within k (st.metaOf d)
  have others : ∀ c : ObjRef, c ≠ k → c.idx < st.heap.size → t.clsAt c = st.clsAt c :=
    fun c other old => by rw [classes c old, if_neg other]
  refine ⟨_, t, run.trans hung, ?_, kept, others, links⟩
  have oldOrdinary : ∀ c, st.kindAt c = some .ordinary → c.idx < st.heap.size := fun c h =>
    within_of_kindAt h
  have moved : t.MetaclassedBut (k :: rest) :=
    pending.of_shapeKept kept fun c h waiting =>
      others c (fun same => waiting (by simp [same])) (oldOrdinary c h)
  have aboveK : st.Above k d := by
    have := above_of_link node_k fun D same => (outer D (by
      rw [link_eq_nodeAt, node_k] at linked
      simpa [same] using linked.symm)).1
    rwa [show nk.super = d by rw [link_eq_nodeAt, node_k] at linked; simpa using linked] at this
  -- above the new singleton class lies the singleton class of the superclass, which stays
  have metaOf_same : t.metaOf d = st.metaOf d := by
    cases d with
    | none => simp [metaOf, kept.klass]
    | some D =>
      exact others D (fun same => (outer D rfl).2 (by simp [same])) (oldOrdinary D (outer D rfl).1)
  refine moved.settle ⟨_, d, by rw [classes k within, if_pos rfl], single, attached,
    kept.above _ _ aboveK, fun x same => kept.kinds _ _ (outer x same).1,
    metaOf_same ▸ above _ next⟩ fun x aboveX => ?_
  have same := (kept.above _ _ aboveK).determ aboveX
  subst same
  exact fun mem => (outer x rfl).2 (List.mem_cons_of_mem _ mem)

end Singleton

section Operations

variable {st : Store}

theorem meta_of_keeps {α : Type} {x : StoreM α} (hx : Keeps metaKept x) :
    Triple Metaclassed (fun _ => True) (fun _ _ => True) x :=
  Triple.of_keeps hx (fun _ _ kept h => h.of_metaKept kept) fun _ _ _ h => h

theorem metaKept_defineRaw (r : ObjRef) (mid : Sym) (m : Method) :
    Keeps metaKept (defineRaw r mid m) :=
  Keeps.bind ((readOnly_definitionTarget r).keeps _) fun t =>
    Keeps.bind (metaKept_modifyNode t (fun _ => rfl) fun _ => rfl) fun _ => metaKept_flushCache

theorem metaKept_removeMethod (r : ObjRef) (mid : Sym) : Keeps metaKept (removeMethod r mid) := by
  refine Keeps.bind ((readOnly_origin r).keeps _) fun o => Keeps.bind ((readOnly_node o).keeps _) fun n => ?_
  split
  · exact Keeps.bind (metaKept_modifyNode o (fun _ => rfl) fun _ => rfl) fun _ =>
      Keeps.bind metaKept_flushCache fun _ => Keeps.pure _
  · exact Keeps.pure _

theorem metaKept_aliasMethod (r : ObjRef) (new old : Sym) :
    Keeps metaKept (aliasMethod r new old) := by
  refine Keeps.bind (metaKept_resolve _ _) fun found => ?_
  split
  · exact Keeps.bind (metaKept_defineRaw _ _ _) fun _ => Keeps.pure _
  · exact Keeps.pure _

theorem metaKept_nativeProc (p : Primitive) : Keeps metaKept (nativeProc p) :=
  Keeps.bind (readOnly_wellKnown.keeps _) fun _ => metaKept_alloc fun _ none_ => by cases none_

theorem metaKept_defineNative (k : ObjRef) (name : String) (p : Primitive) :
    Keeps metaKept (defineNative k name p) :=
  Keeps.bind (metaKept_intern name) fun _ => metaKept_defineRaw _ _ _

def Beside (st : Store) (p q : ObjRef) : Prop :=
  ∃ np nq, st.nodeAt p = some np ∧ st.nodeAt q = some nq ∧ nq.kind.isInner = true ∧
    nq.super = np.super ∧ q ≠ p

theorem meta_alloc_beside {o : Obj} {n : ClassNode} (p : ObjRef) (s : Option ObjRef)
    (body : o.body = .cls n) (inner : n.kind.isInner = true) (links : n.super = s) :
    Triple Metaclassed (fun st => st.link p = some s) (fun k t => t.Beside p k) (alloc o) := by
  intro st inv linked
  have plain : ∀ n', o.node? = some n' → n'.kind ≠ .ordinary := fun n' made => by
    simp only [Obj.node?, body, Option.some.injEq] at made
    subst made
    intro same
    simp [same, ClassKind.isInner] at inner
  refine ⟨inv.of_metaKept (metaKept_alloc plain st), fun k t run => ?_⟩
  rw [alloc_run] at run
  cases run
  rw [link_eq_nodeAt] at linked
  obtain ⟨np, at_p, super⟩ := Option.map_eq_some_iff.mp linked
  have below := within_of_nodeAt at_p
  refine ⟨np, n, nodeAt_push_old o at_p, by simp [nodeAt_push, Obj.node?, body], inner,
    links.trans super.symm, fun same => ?_⟩
  rw [← same] at below
  exact Nat.lt_irrefl _ below

theorem meta_newIncludeNode (m p : ObjRef) (s : Option ObjRef) :
    Triple Metaclassed (fun st => st.link p = some s) (fun k t => t.Beside p k) (newIncludeNode m s) :=
  Triple.bind_readOnly (readOnly_node m) fun _ =>
    Triple.bind_readOnly readOnly_wellKnown fun _ => meta_alloc_beside p s rfl rfl rfl

theorem meta_splice (p q : ObjRef) {f : ClassNode → ClassNode} (kind : ∀ c, (f c).kind = c.kind)
    (toQ : ∀ c, (f c).super = some q) :
    Triple Metaclassed (fun st => st.Beside p q) (fun _ _ => True) (modifyNode p f) := by
  intro st inv ⟨np, nq, at_p, at_q, inner, links, apart⟩
  cases run : (modifyNode p f).run st with
  | error e t =>
    rw [modifyNode_error run]
    exact ⟨inv, fun _ _ h => by cases h⟩
  | ok u t =>
    obtain ⟨n, found, nodes, classes, attached, core, symbols⟩ := modifyNode_ok run
    rw [at_p] at found
    cases found
    dsimp only [endState]
    have spliced : InnerSplice st t p q np nq (f np) :=
      ⟨at_p, at_q, inner, links, apart, by rw [nodes, if_pos rfl], kind np, toQ np,
        fun r other => by rw [nodes, if_neg other]⟩
    have kinds : ∀ r, t.kindAt r = st.kindAt r := fun r => by
      simp only [kindAt, nodes r]
      split
      · rename_i same
        subst same
        simp [at_p, kind]
      · rfl
    refine ⟨inv.of_metaKept ⟨⟨fun r k h => by rwa [kinds], fun r h => by rwa [← kinds],
      fun r a h => spliced.above h, fun x c _ h => by rwa [attached], by rw [core], by rw [core],
      by rw [symbols]; exact SymbolTable.Extends.refl _, fun h => by rwa [symbols]⟩,
      fun c _ => classes c⟩, fun _ _ _ => trivial⟩

theorem meta_includeAt_go (r : ObjRef) (searchSuper : Bool) (fuel : Nat) :
    ∀ s insPos, Triple Metaclassed (fun _ => True) (fun _ _ => True)
      (includeAt.go r searchSuper s insPos fuel) := by
  induction fuel with
  | zero => exact fun _ _ => Triple.pure_of fun _ _ => trivial
  | succ fuel ih =>
    intro s insPos
    simp only [includeAt.go]
    split
    · exact Triple.pure_of fun _ _ => trivial
    · refine Triple.bind_readOnly (readOnly_node _) fun n => ?_
      split
      · exact Triple.pure_of fun _ _ => trivial
      split
      · exact ih _ _
      refine Triple.bind_readOnly (readOnly_findIncluded _ _ _ _) fun found => ?_
      obtain ⟨present, insPos'⟩ := found
      split
      · exact ih _ _
      -- a new include node goes in right after the insertion point
      refine Triple.bind (Triple.of_readOnly (readOnly_superOf insPos')) fun after => ?_
      refine Triple.bind ((meta_newIncludeNode _ insPos' after).mono
        (fun _ h => link_of_superOf h.2) (fun _ _ h => h)) fun ic => ?_
      exact Triple.bind (meta_splice insPos' ic (fun _ => rfl) fun _ => rfl) fun _ => ih _ _

theorem meta_includeAt (r insPos m : ObjRef) (searchSuper : Bool) :
    Triple Metaclassed (fun _ => True) (fun _ _ => True) (includeAt r insPos m searchSuper) :=
  Triple.bind_readOnly readOnly_chainFuel fun fuel => meta_includeAt_go r searchSuper fuel _ _

theorem meta_includeModule (r m : ObjRef) :
    Triple Metaclassed (fun _ => True) (fun _ _ => True) (includeModule r m) := by
  refine Triple.bind_readOnly (readOnly_checkMixin r m) fun refused => ?_
  split
  · exact Triple.pure_of fun _ _ => trivial
  · refine Triple.bind_readOnly (readOnly_origin r) fun o => ?_
    refine Triple.bind_true (meta_includeAt _ _ _ _) fun _ => ?_
    exact Triple.bind_true (meta_of_keeps metaKept_flushCache) fun _ =>
      Triple.pure_of fun _ _ => trivial

theorem meta_prependModule (r m : ObjRef) :
    Triple Metaclassed (fun _ => True) (fun _ _ => True) (prependModule r m) := by
  refine Triple.bind_readOnly (readOnly_checkMixin r m) fun refused => ?_
  split
  · exact Triple.pure_of fun _ _ => trivial
  · have rest : Triple Metaclassed (fun _ => True) (fun _ _ => True)
        (includeAt r r m false >>= fun _ => flushCache >>= fun _ => pure (none : Option MixinError)) :=
      Triple.bind_true (meta_includeAt _ _ _ _) fun _ =>
        Triple.bind_true (meta_of_keeps metaKept_flushCache) fun _ =>
          Triple.pure_of fun _ _ => trivial
    refine Triple.bind (Triple.of_readOnly (readOnly_node r)) fun n => ?_
    dsimp only
    split
    · refine Triple.bind_readOnly readOnly_wellKnown fun c => ?_
      refine Triple.bind ((meta_alloc_beside r n.super (by rfl) (by rfl) (by rfl)).mono
        (fun _ h => (link_of_node h.2).2) (fun _ _ h => h)) fun o => ?_
      exact Triple.bind (meta_splice r o (fun _ => rfl) fun _ => rfl) fun _ => rest
    · exact rest.weaken

theorem meta_hang (c : Core) (r : ObjRef) (super : Option ObjRef) :
    Triple Metaclassed (fun st => c = st.core ∧ r.idx < st.heap.size ∧ st.kindAt r ≠ some .ordinary)
      (fun _ _ => True) (do
        let sc ← allocClass .singleton c.klass super
        ivarSet sc c.symAttached (.obj r)
        modifyObj r fun o => { o with cls := some sc }
        flushCache
        pure (some sc) : StoreM (Option ObjRef)) := by
  rintro st inv ⟨rfl, within, plain⟩
  obtain ⟨t, run, kept, classes, -⟩ := hang_run within r super
  refine ⟨?_, fun _ _ _ => trivial⟩
  rw [run]
  dsimp only [endState]
  refine inv.of_metaKept ⟨kept, fun c' ordinary => ?_⟩
  have old : c'.idx < st.heap.size := within_of_kindAt ordinary
  rw [classes c' old, if_neg]
  rintro rfl
  exact plain ordinary

theorem meta_singletonClassOf_go_plain (r : ObjRef) (fuel : Nat) :
    Triple Metaclassed (fun st => st.kindAt r ≠ some .ordinary) (fun _ _ => True)
      (singletonClassOf.go (.obj r) (fuel + 1)) := by
  simp only [singletonClassOf.go]
  refine Triple.bind (Triple.of_readOnly readOnly_wellKnown) fun c => ?_
  refine Triple.bind (Triple.of_readOnly (readOnly_getObj r)) fun o => ?_
  -- the facts the reads leave, for the new singleton class
  have hang : ∀ super, Triple Metaclassed
      (fun st => (st.kindAt r ≠ some .ordinary ∧ wellKnown.run st = .ok c st) ∧
        (getObj r).run st = .ok o st) (fun _ _ => True) (do
        let sc ← allocClass .singleton c.klass super
        ivarSet sc c.symAttached (.obj r)
        modifyObj r fun o => { o with cls := some sc }
        flushCache
        pure (some sc) : StoreM (Option ObjRef)) := fun super =>
    (meta_hang c r super).mono (fun st h => by
      refine ⟨core_of_wellKnown h.1.2, ?_, h.1.1⟩
      rw [getObj_run] at h
      split at h
      · rename_i found
        exact (Array.getElem?_eq_some_iff.mp found).1
      · cases h.2) fun _ _ h => h
  -- the object is no ordinary class, so the walk to the superclass is never taken
  have plainBody : ∀ n, o.body = .cls n → n.kind = .ordinary → ∀ st,
      ¬ ((st.kindAt r ≠ some .ordinary ∧ wellKnown.run st = .ok c st) ∧
        (getObj r).run st = .ok o st) := by
    rintro n body kind st ⟨⟨plain, -⟩, got⟩
    rw [getObj_run] at got
    split at got
    · rename_i found
      cases got
      exact plain (by simp [kindAt, nodeAt, found, Obj.node?, body, kind])
    · cases got
  -- the object's own class is read first; past it, both ways reach the same last steps
  split
  on_goal 1 =>
    rename_i k _
    refine Triple.bind_readOnly (readOnly_node k) fun kn => ?_
    refine Triple.bind_readOnly (readOnly_getObj k) fun kObj => ?_
    split
    on_goal 1 => exact Triple.pure_of fun _ _ => trivial
  all_goals
    split
    · rename_i n body
      split
      · rename_i kind
        exact fun st _ h => (plainBody n body (by simpa using kind) st h).elim
      · exact Triple.bind (Triple.pure_of fun _ h => h) fun super => hang super
    · exact Triple.bind (Triple.pure_of fun _ h => h) fun super => hang super

theorem meta_singletonClassOf (v : Value) :
    Triple Metaclassed (fun _ => True) (fun _ _ => True) (singletonClassOf v) := by
  intro st inv _
  cases v with
  | obj r =>
    by_cases ordinary : st.kindAt r = some .ordinary
    · obtain ⟨s, -, cls, single, attached, -⟩ := (inv.classes r ordinary List.not_mem_nil).1
      have run : (singletonClassOf (.obj r)).run st = .ok (some s) st := by
        simpa [singletonClassOf, chainFuel, EStateM.run_bind] using
          singletonClassOf_go_attached cls single attached st.heap.size
      rw [run]
      exact ⟨inv, fun _ _ _ => trivial⟩
    · refine Triple.bind_readOnly (P := fun st => st.kindAt r ≠ some .ordinary) readOnly_chainFuel
        (fun fuel => ?_) st inv ordinary
      cases fuel with
      | zero => exact Triple.pure_of fun _ _ => trivial
      | succ fuel => exact meta_singletonClassOf_go_plain r fuel
  | _ =>
    refine Triple.bind_readOnly (P := fun _ => True) readOnly_chainFuel (fun fuel => ?_) st inv trivial
    cases fuel <;> exact Triple.pure_of fun _ _ => trivial

def SlotFree (st : Store) (o : ObjRef) (sym : Sym) : Prop :=
  o.idx < st.heap.size ∧
    ∀ c, st.kindAt o = some .singleton → st.attachedAt o = some (.obj c) → sym ≠ st.core.symAttached

theorem SlotFree.push {o : ObjRef} {sym : Sym} (free : st.SlotFree o sym) (x : Obj) :
    ({ st with heap := st.heap.push x } : Store).SlotFree o sym := by
  obtain ⟨within, free⟩ := free
  have old : o.idx ≠ st.heap.size := Nat.ne_of_lt within
  refine ⟨by simp; omega, fun c single attached => free c ?_ ?_⟩
  · simpa [kindAt, nodeAt_push, old] using single
  · simpa [attachedAt_push, old] using attached

theorem slotFree_of_ivarFind {o : ObjRef} {sym : Sym} {t : Store}
    (found : (ivarFind o sym).run st = .ok none t) : st.SlotFree o sym := by
  cases at_o : st.heap[o.idx]? with
  | none =>
    simp only [ivarFind, EStateM.run_bind, getObj_run, at_o] at found
    cases found
  | some x =>
    simp only [ivarFind, EStateM.run_bind, getObj_run, at_o, EStateM.run_pure,
      EStateM.Result.ok.injEq] at found
    refine ⟨(Array.getElem?_eq_some_iff.mp at_o).1, fun c _ attached same => ?_⟩
    simp only [attachedAt, at_o, Option.map_some, Option.some.injEq] at attached
    rw [← same] at attached
    simp [Std.HashMap.getD_eq_getD_getElem?, ← Std.HashMap.get?_eq_getElem?, found.1] at attached

theorem setClassName_run {r : ObjRef} {outer : Option ObjRef} {name : Sym}
    (within : r.idx < st.heap.size) (plain : st.kindAt r ≠ some .singleton)
    (named : ∀ o, outer = some o → st.SlotFree o name) :
    ∃ t, (setClassName r outer name).run st = .ok () t ∧ metaKept.rel st t ∧
      ∀ y a, st.link y = some a → t.link y = some a := by
  let s₁ := st.withIvar r st.core.symClassName (.sym name)
  have set₁ : (ivarSet r st.core.symClassName (.sym name)).run st = .ok () s₁ := by
    rw [ivarSet_run, if_pos within]
  have kept₁ : metaKept.rel st s₁ := by
    have kept := @metaKept_ivarSet st r st.core.symClassName (.sym name)
      fun _ single => absurd single plain
    rwa [set₁] at kept
  cases outer with
  | none =>
    refine ⟨s₁, ?_, kept₁, fun y a linked => by simpa [s₁] using linked⟩
    simp only [setClassName, EStateM.run_bind, wellKnown_run_core, set₁]
    rfl
  | some o =>
    obtain ⟨withinO, free⟩ := named o rfl
    let s₂ := s₁.withIvar r st.core.symOuter (.obj o)
    let s₃ := s₂.withIvar o name (.obj r)
    have set₂ : (ivarSet r st.core.symOuter (.obj o)).run s₁ = .ok () s₂ := by
      rw [ivarSet_run, if_pos (by simpa [s₁] using within)]
    have set₃ : (ivarSet o name (.obj r)).run s₂ = .ok () s₃ := by
      rw [ivarSet_run, if_pos (by simpa [s₂, s₁] using withinO)]
    have kept₂ : metaKept.rel s₁ s₂ := by
      have kept := @metaKept_ivarSet s₁ r st.core.symOuter (.obj o)
        fun _ single => absurd (by simpa [s₁] using single) plain
      rwa [set₂] at kept
    -- the outer class keeps the object it is attached to until its entry is set
    have kept₃ : metaKept.rel s₂ s₃ := by
      have kept := @metaKept_ivarSet s₂ o name (.obj r) fun c single attached => by
        by_cases same : o = r
        · subst same
          exact absurd (by simpa [s₂, s₁] using single) plain
        · have before : st.attachedAt o = some (.obj c) := by
            rwa [attachedAt_withIvar_of_ne same, attachedAt_withIvar_of_ne same] at attached
          simpa [s₂, s₁] using free c (by simpa [s₂, s₁] using single) before
      rwa [set₃] at kept
    refine ⟨s₃, ?_, metaKept.trans kept₁ (metaKept.trans kept₂ kept₃),
      fun y a linked => by simpa [s₃, s₂, s₁] using linked⟩
    simp [setClassName, EStateM.run_bind, wellKnown, set₁, set₂, set₃]

end Operations

section Pending

variable {st : Store}

structure Pending (st : Store) (k : ObjRef) : Prop where
  others : st.MetaclassedBut [k]
  ordinary : st.kindAt k = some .ordinary
  linked : ∃ D, st.link k = some (some D) ∧ st.kindAt D = some .ordinary ∧ D ≠ k
  cls : st.clsAt k = some st.core.klass
  klass : st.kindAt st.core.klass = some .ordinary
  sound : st.symbols.Sound
  attachedName : st.symbols.ids.get? "__attached__" = some st.core.symAttached.id

theorem MetaclassedBut.push {pending : List ObjRef} (h : st.MetaclassedBut pending) (o : Obj) :
    ({ st with heap := st.heap.push o } : Store).MetaclassedBut (⟨st.heap.size⟩ :: pending) := by
  -- every old object is as it was
  have old : ∀ x : ObjRef, st.nodeAt x ≠ none → x.idx ≠ st.heap.size := fun x present =>
    Nat.ne_of_lt (within_of_nodeAt (Option.ne_none_iff_exists'.mp present).choose_spec)
  have kept : ∀ p n, st.nodeAt p = some n → ∃ n', ({ st with heap := st.heap.push o } : Store).nodeAt p
      = some n' ∧ n'.kind = n.kind ∧ n'.super = n.super := fun p n found =>
    ⟨n, nodeAt_push_old o found, rfl, rfl⟩
  have kinds : ∀ x k, st.kindAt x = some k →
      ({ st with heap := st.heap.push o } : Store).kindAt x = some k := fun x k h => by
    obtain ⟨n, found, rfl⟩ := Option.map_eq_some_iff.mp h
    simp [kindAt, nodeAt_push_old o found]
  have present : ∀ x k, st.kindAt x = some k → st.nodeAt x ≠ none := fun x k h absent => by
    simp [kindAt, absent] at h
  intro c ordinary waiting
  have fresh : c.idx ≠ st.heap.size := fun same => waiting (by cases c; simp_all)
  have ordinary' : st.kindAt c = some .ordinary := by
    simpa [kindAt, nodeAt_push, fresh] using ordinary
  obtain ⟨⟨s, d, cls, single, attached, above, outer, metaAbove⟩, clear⟩ :=
    h c ordinary' fun mem => waiting (List.mem_cons_of_mem _ mem)
  have metaOf_same : ({ st with heap := st.heap.push o } : Store).metaOf d = st.metaOf d := by
    cases d with
    | none => rfl
    | some x =>
      show ({ st with heap := st.heap.push o } : Store).clsAt x = st.clsAt x
      rw [clsAt_push, if_neg (old x (present x _ (outer x rfl)))]
  refine ⟨⟨s, d, by rw [clsAt_push, if_neg fresh, cls], kinds _ _ single, ?_, above.mono kept,
    fun x same => kinds _ _ (outer x same), metaOf_same ▸ metaAbove.mono kept⟩, fun x aboveX => ?_⟩
  · rw [attachedAt_push, if_neg (old s (present s _ single))]
    exact attached
  · have same := (above.mono kept).determ aboveX
    subst same
    rintro (⟨⟩ | ⟨_, mem⟩)
    · exact old _ (present _ _ (outer _ rfl)) rfl
    · exact clear x above mem

theorem allocClass_pending {super : ObjRef} (inv : st.Metaclassed)
    (superOrdinary : st.kindAt super = some .ordinary) :
    ∃ t, (allocClass .ordinary st.core.klass (some super)).run st = .ok ⟨st.heap.size⟩ t ∧
      t.Pending ⟨st.heap.size⟩ ∧ (∀ o sym, st.SlotFree o sym → t.SlotFree o sym) := by
  let o : Obj := { cls := some st.core.klass, body := .cls { kind := .ordinary, super := some super } }
  have at_k : ({ st with heap := st.heap.push o } : Store).nodeAt ⟨st.heap.size⟩ =
      some { kind := .ordinary, super := some super } := by
    simp [nodeAt_push, o, Obj.node?]
  have present : ∀ x k, st.kindAt x = some k → st.nodeAt x ≠ none := fun x k h absent => by
    simp [kindAt, absent] at h
  have kinds : ∀ x k, st.kindAt x = some k →
      ({ st with heap := st.heap.push o } : Store).kindAt x = some k := fun x k h => by
    obtain ⟨n, found, rfl⟩ := Option.map_eq_some_iff.mp h
    simp [kindAt, nodeAt_push_old o found]
  have apart : super ≠ ⟨st.heap.size⟩ := fun same => by
    have := within_of_nodeAt (Option.ne_none_iff_exists'.mp (present _ _ superOrdinary)).choose_spec
    rw [same] at this
    exact Nat.lt_irrefl _ this
  refine ⟨_, alloc_run o st, ⟨inv.classes.push o, by simp [kindAt, at_k], ⟨super, ?_,
    kinds _ _ superOrdinary, apart⟩, by simp [clsAt_push, o], kinds _ _ inv.klass, inv.sound,
    inv.attachedName⟩, fun _ _ free => free.push o⟩
  rw [link_eq_nodeAt, at_k]
  rfl

theorem Pending.setClassName {k : ObjRef} {outer : Option ObjRef} {name : Sym} (pending : st.Pending k)
    (named : ∀ o, outer = some o → st.SlotFree o name) :
    ∃ t, (setClassName k outer name).run st = .ok () t ∧ t.Pending k := by
  have within : k.idx < st.heap.size :=
    within_of_kindAt pending.ordinary
  obtain ⟨t, run, kept, links⟩ :=
    setClassName_run within (by rw [pending.ordinary]; simp) named
  obtain ⟨D, linked, superOrdinary, apart⟩ := pending.linked
  refine ⟨t, run, ⟨pending.others.of_shapeKept kept.1 fun c ordinary _ => kept.2 c ordinary,
    kept.1.kinds _ _ pending.ordinary, ⟨D, links _ _ linked, kept.1.kinds _ _ superOrdinary, apart⟩,
    ?_, ?_, kept.1.sound pending.sound, ?_⟩⟩
  · rw [kept.2 k pending.ordinary, pending.cls, kept.1.klass]
  · rw [kept.1.klass]
    exact kept.1.kinds _ _ pending.klass
  · rw [kept.1.symAttached]
    exact kept.1.symbols _ _ pending.attachedName

theorem Pending.singletonClassOf {k : ObjRef} (pending : st.Pending k) :
    ∃ sc t, (singletonClassOf (.obj k)).run st = .ok (some sc) t ∧ t.Metaclassed := by
  obtain ⟨D, linked, superOrdinary, apart⟩ := pending.linked
  obtain ⟨sc, t, run, classes, kept, -⟩ := singletonClassOf_pending pending.others pending.ordinary
    linked (fun D' same => by cases same; exact ⟨superOrdinary, by simp [apart]⟩) pending.cls
    pending.klass
  refine ⟨sc, t, run, ⟨?_, kept.sound pending.sound, ?_, classes⟩⟩
  · rw [kept.klass]
    exact kept.kinds _ _ pending.klass
  · rw [kept.symAttached]
    exact kept.symbols _ _ pending.attachedName

theorem meta_freshClass (c : Core) (super outer : ObjRef) (sym : Sym) :
    Triple Metaclassed (fun st => c = st.core ∧ st.kindAt super = some .ordinary ∧ st.SlotFree outer sym)
      (fun _ _ => True) (do
        let k ← allocClass .ordinary c.klass (some super)
        setClassName k (some outer) sym
        let _ ← singletonClassOf (.obj k)
        pure (Except.ok k : Except String ObjRef)) := by
  rintro st inv ⟨rfl, superOrdinary, free⟩
  obtain ⟨t₁, made₁, pending₁, keepsFree⟩ := allocClass_pending inv superOrdinary
  obtain ⟨t₂, named₂, pending₂⟩ :=
    @Pending.setClassName _ _ (some outer) sym pending₁ fun o same => by
      cases same
      exact keepsFree _ _ free
  obtain ⟨sc, t₃, meta₃, metaclassed⟩ := pending₂.singletonClassOf
  have run : (do
      let k ← allocClass .ordinary st.core.klass (some super)
      setClassName k (some outer) sym
      let _ ← singletonClassOf (.obj k)
      pure (Except.ok k : Except String ObjRef)).run st = .ok (.ok ⟨st.heap.size⟩) t₃ := by
    simp only [EStateM.run_bind, made₁, named₂, meta₃]
    rfl
  rw [run]
  exact ⟨metaclassed, fun _ _ _ => trivial⟩

theorem meta_intern (c : Core) (name : String) :
    Triple Metaclassed (fun st => c = st.core) (fun _ t => c = t.core) (intern name) :=
  fun st inv same => ⟨inv.of_metaKept (metaKept_intern name st), fun _ _ run => by
    rw [intern_run] at run
    cases run
    exact same⟩

theorem meta_defineClass (name : String) (super outer : Option ObjRef) :
    Triple Metaclassed (fun _ => True) (fun _ _ => True) (defineClass name super outer) := by
  refine Triple.bind (Triple.of_readOnly readOnly_wellKnown) fun c => ?_
  refine Triple.bind ((meta_intern c name).mono (fun _ h => core_of_wellKnown h.2) fun _ _ h => h)
    fun sym => ?_
  refine Triple.bind (Triple.of_readOnly (readOnly_ivarFind _ _)) fun found => ?_
  split
  · -- a constant of that name: only reads
    refine Triple.bind_readOnly (readOnly_classOf? _) fun named => ?_
    split
    · split
      · exact Triple.pure_of fun _ _ => trivial
      · refine Triple.bind_readOnly (readOnly_superclass _) fun _ => ?_
        split <;> exact Triple.pure_of fun _ _ => trivial
    · exact Triple.pure_of fun _ _ => trivial
  · refine Triple.bind (Triple.of_readOnly (readOnly_node _)) fun n => ?_
    split
    · exact Triple.pure_of fun _ _ => trivial
    · rename_i ordinary
      -- the superclass is an ordinary class, and the outer class has a free slot for the name
      refine (meta_freshClass c _ _ sym).mono (fun st h => ⟨h.1.1, ?_, ?_⟩) fun _ _ h => h
      · have found := h.2
        rw [node_run_nodeAt, answerIn_eq_ok] at found
        simp [kindAt, found.2, by simpa using ordinary]
      · exact slotFree_of_ivarFind h.1.2

theorem meta_defineModule (name : String) (outer : Option ObjRef) :
    Triple Metaclassed (fun _ => True) (fun _ _ => True) (defineModule name outer) := by
  refine Triple.bind (Triple.of_readOnly readOnly_wellKnown) fun c => ?_
  refine Triple.bind ((meta_intern c name).mono (fun _ h => core_of_wellKnown h.2) fun _ _ h => h)
    fun sym => ?_
  refine Triple.bind (Triple.of_readOnly (readOnly_ivarFind _ _)) fun found => ?_
  split
  · refine Triple.bind_readOnly (readOnly_classOf? _) fun named => ?_
    split
    · split <;> exact Triple.pure_of fun _ _ => trivial
    · exact Triple.pure_of fun _ _ => trivial
  · -- a new module is no ordinary class, and naming it moves no metaclass
    rintro st inv ⟨rfl, free⟩
    let m : Obj := { cls := some st.core.module, body := .cls { kind := .module } }
    have made : (allocClass .module st.core.module none).run st =
        .ok ⟨st.heap.size⟩ { st with heap := st.heap.push m } := alloc_run m st
    have kept₁ : metaKept.rel st { st with heap := st.heap.push m } :=
      metaKept_alloc (o := m) (fun n same => by cases same; decide) st
    obtain ⟨t, named, kept₂, -⟩ := @setClassName_run { st with heap := st.heap.push m }
      ⟨st.heap.size⟩ (some (outer.getD st.core.object)) sym
      (by simp) (by simp [kindAt, nodeAt_push, m, Obj.node?])
      fun o same => by cases same; exact (slotFree_of_ivarFind free).push m
    have run : (do
        let m ← allocClass .module st.core.module none
        setClassName m (some (outer.getD st.core.object)) sym
        pure (Except.ok m : Except String ObjRef)).run st = .ok (.ok ⟨st.heap.size⟩) t := by
      simp only [EStateM.run_bind, made, named]
      rfl
    rw [run]
    exact ⟨inv.of_metaKept (metaKept.trans kept₁ kept₂), fun _ _ _ => trivial⟩

theorem meta_newClass (super : ObjRef) :
    Triple Metaclassed (fun st => st.kindAt super = some .ordinary) (fun _ _ => True)
      (newClass super) := by
  intro st inv superOrdinary
  obtain ⟨t₁, made₁, pending₁, -⟩ := allocClass_pending inv superOrdinary
  obtain ⟨sc, t₂, meta₂, metaclassed⟩ := pending₁.singletonClassOf
  have run : (newClass super).run st = .ok ⟨st.heap.size⟩ t₂ := by
    simp only [newClass, EStateM.run_bind, wellKnown_run_core, made₁, meta₂]
    rfl
  rw [run]
  exact ⟨metaclassed, fun _ _ _ => trivial⟩

theorem meta_newModule : Triple Metaclassed (fun _ => True) (fun _ _ => True) newModule :=
  Triple.bind_readOnly readOnly_wellKnown fun _ =>
    meta_of_keeps (metaKept_alloc fun n same => by cases same; decide)

end Pending

end Store

namespace GraphOp

def Checked (st : Store) : GraphOp → Prop
  | .newClass super => st.kindAt super = some .ordinary
  | _ => True

theorem Checked.allowed {st : Store} {op : GraphOp} (checked : op.Checked st) : op.Allowed st := by
  cases op with
  | newClass super =>
    obtain ⟨n, found, -⟩ := Option.map_eq_some_iff.mp (show st.kindAt super = some .ordinary from checked)
    simp [Allowed, Store.link_eq_nodeAt, found]
  | _ => trivial

end GraphOp

inductive CheckedSettled : Store → Prop
  | boot : CheckedSettled (endState (Store.boot.run {}))
  | step {st t : Store} (op : GraphOp) :
      CheckedSettled st → op.Checked st → op.run.run st = .ok () t → CheckedSettled t

theorem CheckedSettled.graphSettled {st : Store} (settled : CheckedSettled st) : GraphSettled st := by
  induction settled with
  | boot => exact .boot
  | step op _ checked run ih => exact .step op ih checked.allowed run

namespace Store

theorem meta_graphOp (op : GraphOp) :
    Triple Metaclassed (fun st => op.Checked st) (fun _ _ => True) op.run := by
  have dropped : ∀ {α : Type} {P : Store → Prop} (x : StoreM α),
      Triple Metaclassed P (fun _ _ => True) x →
      Triple Metaclassed P (fun _ _ => True) (do let _ ← x) :=
    fun _ hx => Triple.bind hx fun _ => Triple.pure_of fun _ _ => trivial
  cases op with
  | defineClass name super outer => exact dropped _ (meta_defineClass name super outer)
  | defineModule name outer => exact dropped _ (meta_defineModule name outer)
  | newClass super => exact dropped _ (meta_newClass super)
  | newModule => exact dropped _ meta_newModule
  | includeModule r m => exact dropped _ (meta_includeModule r m)
  | prependModule r m => exact dropped _ (meta_prependModule r m)
  | singletonClass v => exact dropped _ (meta_singletonClassOf v)
  | defineMethod r mid m => exact meta_of_keeps (metaKept_defineRaw r mid m)
  | removeMethod r mid => exact dropped _ (meta_of_keeps (metaKept_removeMethod r mid))
  | aliasMethod r new old => exact dropped _ (meta_of_keeps (metaKept_aliasMethod r new old))
  | resolve cls mid => exact dropped _ (meta_of_keeps (metaKept_resolve cls mid))

end Store

end RegisterVM
