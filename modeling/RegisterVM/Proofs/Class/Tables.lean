import RegisterVM.Proofs.Class.Inclusion

set_option autoImplicit false

namespace RegisterVM

def ClassNode.anchors (n : ClassNode) : ClassKind × Option ObjRef × Option ObjRef :=
  (n.kind, n.origin, n.module)

namespace Store

structure Moored (st : Store) : Prop where
  origins : ∀ r n o, st.nodeAt r = some n → n.origin = some o → st.nodeAt o ≠ none
  modules : ∀ r n m, st.nodeAt r = some n → n.kind.isInner → n.module = some m → st.nodeAt m ≠ none

def FitsIn (st : Store) (n : ClassNode) : Prop :=
  (∀ o, n.origin = some o → st.nodeAt o ≠ none) ∧
    (n.kind.isInner → ∀ m, n.module = some m → st.nodeAt m ≠ none)

theorem Moored.tableAt {st : Store} (moored : st.Moored) {r : ObjRef} {n : ClassNode}
    (found : st.nodeAt r = some n) : st.tableAt r ≠ none := by
  simp only [Store.tableAt, found, Option.bind_eq_bind, Option.bind_some]
  split
  · rename_i m _ module
    -- an include node reads the table of its module's origin
    have inner : n.kind.isInner := by simp_all [ClassKind.isInner]
    obtain ⟨mn, hm⟩ := Option.ne_none_iff_exists'.mp (moored.modules r n m found inner module)
    have originNode : st.nodeAt (mn.origin.getD m) ≠ none := by
      cases origin : mn.origin with
      | none => simp [hm]
      | some o => exact moored.origins m mn o hm origin
    obtain ⟨on, ho⟩ := Option.ne_none_iff_exists'.mp originNode
    simp [hm, ho]
  · simp

def anchorsKept : StateOrder Store where
  rel s t := ∀ r, (t.nodeAt r).map ClassNode.anchors = (s.nodeAt r).map ClassNode.anchors
  refl _ _ := rfl
  trans h₁ h₂ r := (h₂ r).trans (h₁ r)

theorem Moored.of_anchorsKept {s t : Store} (moored : s.Moored) (kept : anchorsKept.rel s t) :
    t.Moored := by
  -- a node of `t` is a node of `s` with the same kind, origin and module
  have back : ∀ r n', t.nodeAt r = some n' → ∃ n, s.nodeAt r = some n ∧ n.anchors = n'.anchors := by
    intro r n' found
    have same := kept r
    rw [found] at same
    obtain ⟨n, hs, hn⟩ := Option.map_eq_some_iff.mp same.symm
    exact ⟨n, hs, hn⟩
  have forth : ∀ r, s.nodeAt r ≠ none → t.nodeAt r ≠ none := by
    intro r present absent
    have same := kept r
    rw [absent] at same
    exact present (Option.map_eq_none_iff.mp same.symm)
  refine ⟨fun r n' o found origin => ?_, fun r n' m found inner module => ?_⟩
  · obtain ⟨n, hs, hn⟩ := back r n' found
    have : n.origin = some o := by
      simp only [ClassNode.anchors, Prod.mk.injEq] at hn
      rw [hn.2.1, origin]
    exact forth o (moored.origins r n o hs this)
  · obtain ⟨n, hs, hn⟩ := back r n' found
    simp only [ClassNode.anchors, Prod.mk.injEq] at hn
    exact forth m (moored.modules r n m hs (hn.1 ▸ inner) (hn.2.2 ▸ module))

theorem anchorsKept_of_heap {s t : Store} (heap : t.heap = s.heap) : anchorsKept.rel s t :=
  fun r => by simp [nodeAt, heap]

theorem anchorsKept_modifyObj (r : ObjRef) {f : Obj → Obj} (body : ∀ o, (f o).body = o.body) :
    Keeps anchorsKept (modifyObj r f) := by
  intro st
  rw [modifyObj_run]
  split
  · intro r'
    simp only [endState, nodeAt, Array.getElem?_modify]
    split
    · cases st.heap[r'.idx]? with
      | none => rfl
      | some o => simp [Obj.node?, body]
    · rfl
  · exact anchorsKept.refl st

theorem anchorsKept_modifyNode (r : ObjRef) {f : ClassNode → ClassNode}
    (keeps : ∀ c, (f c).anchors = c.anchors) : Keeps anchorsKept (modifyNode r f) := by
  intro st
  cases found : st.nodeAt r with
  | some n =>
    obtain ⟨t, run, -, -, nodes⟩ := modifyNode_run_nodeAt found f
    intro r'
    rw [run]
    simp only [endState, nodes r']
    split
    · rename_i same
      subst same
      simp [found, keeps]
    · rfl
  | none =>
    -- a reference to no class node makes the change fail with the store unchanged
    cases run : (modifyNode r f).run st with
    | ok u t =>
      obtain ⟨c, linked, -, -⟩ := link_modifyNode run
      rw [link_eq_nodeAt, found] at linked
      cases linked
    | error e t =>
      rw [modifyNode_error run]
      exact anchorsKept.refl st

theorem anchorsKept_alloc {o : Obj} (plain : o.node? = none) : Keeps anchorsKept (alloc o) := by
  intro st r
  simp only [endState, alloc_run, nodeAt_push]
  split
  · rename_i fresh
    simp [plain, nodeAt, Array.getElem?_eq_none (Nat.le_of_eq fresh.symm)]
  · rfl

theorem anchorsKept_ivarSet (r : ObjRef) (sym : Sym) (v : Value) :
    Keeps anchorsKept (ivarSet r sym v) :=
  anchorsKept_modifyObj r fun _ => rfl

theorem anchorsKept_flushCache : Keeps anchorsKept flushCache := fun _ => anchorsKept_of_heap rfl

theorem anchorsKept_intern (name : String) : Keeps anchorsKept (intern name) :=
  fun _ => anchorsKept_of_heap rfl

theorem anchorsKept_setCore (f : Core → Core) : Keeps anchorsKept (setCore f) :=
  fun _ => anchorsKept_of_heap rfl

theorem anchorsKept_resolve (cls : Option ObjRef) (mid : Sym) : Keeps anchorsKept (resolve cls mid) := by
  refine Keeps.bind Keeps.get fun st => ?_
  split
  · exact Keeps.pure _
  · refine Keeps.bind ((readOnly_lookup cls mid).keeps _) fun e => ?_
    exact Keeps.bind (fun _ => anchorsKept_of_heap rfl) fun _ => Keeps.pure _

theorem anchorsKept_defineRaw (r : ObjRef) (mid : Sym) (m : Method) :
    Keeps anchorsKept (defineRaw r mid m) :=
  Keeps.bind ((readOnly_definitionTarget r).keeps _) fun t =>
    Keeps.bind (anchorsKept_modifyNode t fun _ => rfl) fun _ => anchorsKept_flushCache

theorem anchorsKept_removeMethod (r : ObjRef) (mid : Sym) : Keeps anchorsKept (removeMethod r mid) := by
  refine Keeps.bind ((readOnly_origin r).keeps _) fun o => Keeps.bind ((readOnly_node o).keeps _) fun n => ?_
  split
  · exact Keeps.bind (anchorsKept_modifyNode o fun _ => rfl) fun _ =>
      Keeps.bind anchorsKept_flushCache fun _ => Keeps.pure _
  · exact Keeps.pure _

theorem anchorsKept_aliasMethod (r : ObjRef) (new old : Sym) :
    Keeps anchorsKept (aliasMethod r new old) := by
  refine Keeps.bind (anchorsKept_resolve _ _) fun found => ?_
  split
  · exact Keeps.bind (anchorsKept_defineRaw _ _ _) fun _ => Keeps.pure _
  · exact Keeps.pure _

theorem anchorsKept_setClassName (r : ObjRef) (outer : Option ObjRef) (name : Sym) :
    Keeps anchorsKept (setClassName r outer name) := by
  refine Keeps.bind (readOnly_wellKnown.keeps _) fun c => Keeps.bind (anchorsKept_ivarSet _ _ _) fun _ => ?_
  split
  · exact Keeps.bind (anchorsKept_ivarSet _ _ _) fun _ => anchorsKept_ivarSet _ _ _
  · exact Keeps.pure _

theorem anchorsKept_constSet (r : ObjRef) (sym : Sym) (v : Value) : Keeps anchorsKept (constSet r sym v) := by
  refine Keeps.bind (readOnly_wellKnown.keeps _) fun c => Keeps.bind ((readOnly_classOf? v).keeps _) fun found => ?_
  split
  · refine Keeps.bind ((readOnly_ivarFind _ _).keeps _) fun name => ?_
    split
    · exact anchorsKept_setClassName _ _ _
    · exact anchorsKept_ivarSet _ _ _
  · exact anchorsKept_ivarSet _ _ _

theorem anchorsKept_defineNative (k : ObjRef) (name : String) (p : Primitive) :
    Keeps anchorsKept (defineNative k name p) :=
  Keeps.bind (anchorsKept_intern name) fun _ => anchorsKept_defineRaw _ _ _

theorem anchorsKept_nativeProc (p : Primitive) : Keeps anchorsKept (nativeProc p) :=
  Keeps.bind (readOnly_wellKnown.keeps _) fun _ => anchorsKept_alloc rfl

theorem moored_of_anchorsKept {α : Type} {x : StoreM α} (hx : Keeps anchorsKept x) :
    Triple Moored (fun _ => True) (fun _ _ => True) x :=
  Triple.of_keeps hx (fun _ _ kept moored => moored.of_anchorsKept kept) fun _ _ _ h => h

theorem moored_of_readOnly {α : Type} {x : StoreM α} (hx : ReadOnly x) :
    Triple Moored (fun _ => True) (fun _ _ => True) x :=
  moored_of_anchorsKept (hx.keeps _)

theorem nodeAt_ne_none_push {st : Store} (o : Obj) {r : ObjRef} (present : st.nodeAt r ≠ none) :
    ({ st with heap := st.heap.push o } : Store).nodeAt r ≠ none := by
  have below : r.idx < st.heap.size := by
    by_contra outside
    exact present (by simp [nodeAt, Array.getElem?_eq_none (Nat.le_of_not_lt outside)])
  rw [nodeAt_push, if_neg (Nat.ne_of_lt below)]
  exact present

theorem moored_alloc {o : Obj} {n : ClassNode} (body : o.body = .cls n) :
    Triple Moored (fun st => st.FitsIn n) (fun k t => t.nodeAt k = some n) (alloc o) := by
  intro st moored ⟨origins, modules⟩
  rw [alloc_run]
  dsimp only [endState]
  have fresh : ({ st with heap := st.heap.push o } : Store).nodeAt ⟨st.heap.size⟩ = some n := by
    simp [nodeAt_push, Obj.node?, body]
  refine ⟨⟨fun r n' x found origin => ?_, fun r n' m found inner module => ?_⟩, fun k t run => ?_⟩
  · rw [nodeAt_push] at found
    split at found
    · simp only [Obj.node?, body, Option.some.injEq] at found
      subst found
      exact nodeAt_ne_none_push o (origins x origin)
    · exact nodeAt_ne_none_push o (moored.origins r n' x found origin)
  · rw [nodeAt_push] at found
    split at found
    · simp only [Obj.node?, body, Option.some.injEq] at found
      subst found
      exact nodeAt_ne_none_push o (modules inner m module)
    · exact nodeAt_ne_none_push o (moored.modules r n' m found inner module)
  · cases run
    exact fresh

theorem moored_allocClass (kind : ClassKind) (metaClass : ObjRef) (super : Option ObjRef) :
    Triple Moored (fun _ => True) (fun k t => t.nodeAt k ≠ none) (allocClass kind metaClass super) :=
  (moored_alloc rfl).mono (fun _ _ => by simp [FitsIn]) fun _ _ found => by simp [found]

theorem moored_newIncludeNode (m : ObjRef) (s : Option ObjRef) :
    Triple Moored (fun _ => True) (fun k t => t.nodeAt k ≠ none) (newIncludeNode m s) := by
  refine Triple.bind (Triple.of_readOnly (readOnly_node m)) fun n => ?_
  refine Triple.bind_readOnly readOnly_wellKnown fun c => ?_
  intro st moored pre
  -- `node m` answered `n`, so `m` is a class node, and so is the module an inner `m` names
  have found : st.nodeAt m = some n := by
    have ran := pre.2
    rw [node_run_nodeAt, answerIn_eq_ok] at ran
    exact ran.2
  have fits : st.FitsIn
      { kind := .include, super := s, module := some (if n.kind.isInner then n.module.getD m else m) } := by
    refine ⟨fun _ none_ => (by cases none_), fun _ target same => ?_⟩
    simp only [Option.some.injEq] at same
    subst same
    split
    · rename_i inner
      cases module : n.module with
      | none => simp [found]
      | some x => exact moored.modules m n x found inner module
    · simp [found]
  exact (moored_alloc rfl).mono (fun _ h => h) (fun _ _ found => by simp [found]) st moored fits

theorem moored_setOrigin (r o : ObjRef) {f : ClassNode → ClassNode}
    (kind : ∀ c, (f c).kind = c.kind) (module : ∀ c, (f c).module = c.module)
    (origin : ∀ c, (f c).origin = some o) :
    Triple Moored (fun st => st.nodeAt o ≠ none) (fun _ _ => True) (modifyNode r f) := by
  intro st moored present
  cases found : st.nodeAt r with
  | some n =>
    obtain ⟨t, run, -, -, nodes⟩ := modifyNode_run_nodeAt found f
    rw [run]
    dsimp only [endState]
    have kept : ∀ x, st.nodeAt x ≠ none → t.nodeAt x ≠ none := by
      intro x there
      rw [nodes x]
      split
      · simp
      · exact there
    refine ⟨⟨fun x nx y here hy => ?_, fun x nx m here inner hm => ?_⟩, fun _ _ _ => trivial⟩
    · rw [nodes x] at here
      split at here
      · cases here
        rw [origin] at hy
        cases hy
        exact kept o present
      · exact kept y (moored.origins x nx y here hy)
    · rw [nodes x] at here
      split at here
      · rename_i same
        subst same
        cases here
        rw [kind] at inner
        rw [module] at hm
        exact kept m (moored.modules x n m found inner hm)
      · exact kept m (moored.modules x nx m here inner hm)
  | none =>
    cases run : (modifyNode r f).run st with
    | ok u t =>
      obtain ⟨c, linked, -, -⟩ := link_modifyNode run
      rw [link_eq_nodeAt, found] at linked
      cases linked
    | error e t =>
      rw [modifyNode_error run]
      exact ⟨moored, fun _ _ h => by cases h⟩

theorem moored_runtimeFault {α : Type} :
    Triple Moored (fun _ => True) (fun _ _ => True) (runtimeFault : StoreM α) := Triple.throw _

theorem moored_panic {α : Type} (msg : String) :
    Triple Moored (fun _ => True) (fun _ _ => True) (panic msg : StoreM α) := Triple.throw _

theorem moored_singletonClassOf_go (fuel : Nat) :
    ∀ v, Triple Moored (fun _ => True) (fun _ _ => True) (singletonClassOf.go v fuel) := by
  induction fuel with
  | zero => exact fun _ => Triple.pure_of fun _ _ => trivial
  | succ fuel ih =>
    intro v
    simp only [singletonClassOf.go]
    -- reads, then a new singleton class, its attached object and the object's new class
    repeat' first
      | with_reducible exact Triple.pure_of fun _ _ => trivial
      | with_reducible exact ih _
      | with_reducible exact moored_of_readOnly readOnly_wellKnown
      | with_reducible exact moored_of_readOnly (readOnly_getObj _)
      | with_reducible exact moored_of_readOnly (readOnly_node _)
      | with_reducible exact moored_of_readOnly (readOnly_superclass _)
      | with_reducible exact (moored_allocClass _ _ _).mono (fun _ h => h) fun _ _ _ => trivial
      | with_reducible exact moored_of_anchorsKept (anchorsKept_ivarSet _ _ _)
      | with_reducible exact moored_of_anchorsKept (anchorsKept_modifyObj _ fun _ => rfl)
      | with_reducible exact moored_of_anchorsKept anchorsKept_flushCache
      | with_reducible refine Triple.bind_true ?_ fun _ => ?_
      | split

theorem moored_singletonClassOf (v : Value) :
    Triple Moored (fun _ => True) (fun _ _ => True) (singletonClassOf v) :=
  Triple.bind_readOnly readOnly_chainFuel fun fuel => moored_singletonClassOf_go fuel v

theorem moored_includeAt_go (r : ObjRef) (searchSuper : Bool) (fuel : Nat) :
    ∀ s insPos, Triple Moored (fun _ => True) (fun _ _ => True)
      (includeAt.go r searchSuper s insPos fuel) := by
  induction fuel with
  | zero => exact fun _ _ => Triple.pure_of fun _ _ => trivial
  | succ fuel ih =>
    intro s insPos
    simp only [includeAt.go]
    -- each new include node goes in after the insertion point, which changes only its link
    repeat' first
      | with_reducible exact Triple.pure_of fun _ _ => trivial
      | with_reducible exact ih _ _
      | with_reducible exact moored_of_readOnly (readOnly_node _)
      | with_reducible exact moored_of_readOnly (readOnly_findIncluded _ _ _ _)
      | with_reducible exact moored_of_readOnly (readOnly_superOf _)
      | with_reducible exact (moored_newIncludeNode _ _).mono (fun _ h => h) fun _ _ _ => trivial
      | with_reducible exact moored_of_anchorsKept (anchorsKept_modifyNode _ fun _ => rfl)
      | with_reducible refine Triple.bind_true ?_ fun _ => ?_
      | split

theorem moored_includeAt (r insPos m : ObjRef) (searchSuper : Bool) :
    Triple Moored (fun _ => True) (fun _ _ => True) (includeAt r insPos m searchSuper) :=
  Triple.bind_readOnly readOnly_chainFuel fun fuel => moored_includeAt_go r searchSuper fuel _ _

theorem moored_includeModule (r m : ObjRef) :
    Triple Moored (fun _ => True) (fun _ _ => True) (includeModule r m) := by
  refine Triple.bind_readOnly (readOnly_checkMixin r m) fun refused => ?_
  split
  · exact Triple.pure_of fun _ _ => trivial
  · refine Triple.bind_readOnly (readOnly_origin r) fun o => ?_
    refine Triple.bind_true (moored_includeAt _ _ _ _) fun _ => ?_
    exact Triple.bind_true (moored_of_anchorsKept anchorsKept_flushCache) fun _ =>
      Triple.pure_of fun _ _ => trivial

theorem moored_prependModule (r m : ObjRef) :
    Triple Moored (fun _ => True) (fun _ _ => True) (prependModule r m) := by
  refine Triple.bind_readOnly (readOnly_checkMixin r m) fun refused => ?_
  split
  · exact Triple.pure_of fun _ _ => trivial
  · have rest : Triple Moored (fun _ => True) (fun _ _ => True)
        (includeAt r r m false >>= fun _ => flushCache >>= fun _ => pure (none : Option MixinError)) :=
      Triple.bind_true (moored_includeAt _ _ _ _) fun _ =>
        Triple.bind_true (moored_of_anchorsKept anchorsKept_flushCache) fun _ =>
          Triple.pure_of fun _ _ => trivial
    refine Triple.bind (Triple.of_readOnly (readOnly_node r)) fun n => ?_
    dsimp only
    split
    · refine Triple.bind_readOnly readOnly_wellKnown fun c => ?_
      -- the new origin stands for `r`, which `node r` showed to be a class node
      have made : Triple Moored (fun st => True ∧ (node r).run st = .ok n st)
          (fun o t => t.nodeAt o ≠ none)
          (alloc { cls := some c.klass,
                   body := .cls { kind := .origin, super := n.super, methods := n.methods,
                                  module := some r } }) := by
        intro st moored pre
        have found : st.nodeAt r = some n := by
          have ran := pre.2
          rw [node_run_nodeAt, answerIn_eq_ok] at ran
          exact ran.2
        have fits : st.FitsIn { kind := .origin, super := n.super, methods := n.methods, module := some r } :=
          ⟨fun _ none_ => (by cases none_), fun _ _ same => by cases same; simp [found]⟩
        exact (moored_alloc rfl).mono (fun _ h => h) (fun _ _ found => by simp [found]) st moored fits
      refine Triple.bind made fun o => ?_
      exact Triple.bind (moored_setOrigin r o (fun _ => rfl) (fun _ => rfl) fun _ => rfl) fun _ => rest
    · exact rest.weaken

theorem moored_defineClass (name : String) (super outer : Option ObjRef) :
    Triple Moored (fun _ => True) (fun _ _ => True) (defineClass name super outer) := by
  unfold defineClass
  repeat' first
    | with_reducible exact Triple.pure_of fun _ _ => trivial
    | with_reducible exact moored_of_readOnly readOnly_wellKnown
    | with_reducible exact moored_of_readOnly (readOnly_ivarFind _ _)
    | with_reducible exact moored_of_readOnly (readOnly_classOf? _)
    | with_reducible exact moored_of_readOnly (readOnly_superclass _)
    | with_reducible exact moored_of_readOnly (readOnly_node _)
    | with_reducible exact moored_of_anchorsKept (anchorsKept_intern _)
    | with_reducible exact moored_of_anchorsKept (anchorsKept_setClassName _ _ _)
    | with_reducible exact (moored_allocClass _ _ _).mono (fun _ h => h) fun _ _ _ => trivial
    | with_reducible exact moored_singletonClassOf _
    | with_reducible refine Triple.bind_true ?_ fun _ => ?_
    | split

theorem moored_defineModule (name : String) (outer : Option ObjRef) :
    Triple Moored (fun _ => True) (fun _ _ => True) (defineModule name outer) := by
  unfold defineModule
  repeat' first
    | with_reducible exact Triple.pure_of fun _ _ => trivial
    | with_reducible exact moored_of_readOnly readOnly_wellKnown
    | with_reducible exact moored_of_readOnly (readOnly_ivarFind _ _)
    | with_reducible exact moored_of_readOnly (readOnly_classOf? _)
    | with_reducible exact moored_of_anchorsKept (anchorsKept_intern _)
    | with_reducible exact moored_of_anchorsKept (anchorsKept_setClassName _ _ _)
    | with_reducible exact (moored_allocClass _ _ _).mono (fun _ h => h) fun _ _ _ => trivial
    | with_reducible refine Triple.bind_true ?_ fun _ => ?_
    | split

theorem moored_newClass (super : ObjRef) :
    Triple Moored (fun _ => True) (fun _ _ => True) (newClass super) :=
  Triple.bind_readOnly readOnly_wellKnown fun _ =>
    Triple.bind_true ((moored_allocClass _ _ _).mono (fun _ h => h) fun _ _ _ => trivial) fun _ =>
      Triple.bind_true (moored_singletonClassOf _) fun _ => Triple.pure_of fun _ _ => trivial

theorem moored_newModule : Triple Moored (fun _ => True) (fun _ _ => True) newModule :=
  Triple.bind_readOnly readOnly_wellKnown fun _ =>
    (moored_allocClass _ _ _).mono (fun _ h => h) fun _ _ _ => trivial

theorem moored_defineAll (k : ObjRef) (onSingleton : Bool) (items : List (String × Primitive)) :
    Triple Moored (fun _ => True) (fun _ _ => True) (defineAll k onSingleton items) := by
  unfold defineAll
  repeat' first
    | with_reducible exact Triple.pure_of fun _ _ => trivial
    | with_reducible exact moored_singletonClassOf _
    | with_reducible exact moored_of_anchorsKept (anchorsKept_defineNative _ _ _)
    | with_reducible exact moored_runtimeFault
    | with_reducible refine Triple.bind_true ?_ fun _ => ?_
    | with_reducible refine Triple.forIn_list _ _ fun _ _ => ?_
    | split

theorem moored_mustDefine {r : StoreM (Except String ObjRef)}
    (hr : Triple Moored (fun _ => True) (fun _ _ => True) r) :
    Triple Moored (fun _ => True) (fun _ _ => True) (mustDefine r) := by
  refine Triple.bind_true hr fun found => ?_
  cases found with
  | ok k => exact Triple.pure_of fun _ _ => trivial
  | error msg => exact Triple.throw _

theorem moored_bootRoots : Moored (endState (bootRoots.run {})) := by
  have plain : ∀ r n, (endState (bootRoots.run {})).nodeAt r = some n →
      n.origin = none ∧ n.kind = .ordinary := by
    intro r n found
    obtain ⟨i⟩ := r
    match i, found with
    | 0, found => cases found; exact ⟨rfl, rfl⟩
    | 1, found => cases found; exact ⟨rfl, rfl⟩
    | 2, found => cases found; exact ⟨rfl, rfl⟩
    | 3, found => cases found; exact ⟨rfl, rfl⟩
    | i + 4, found => cases found
  refine ⟨fun r n o found origin => ?_, fun r n m found inner module => ?_⟩
  · simp [(plain r n found).1] at origin
  · simp [(plain r n found).2, ClassKind.isInner] at inner

theorem moored_boot : Moored (endState (boot.run {})) := by
  have roots : bootRoots.run {} = .ok (⟨0⟩, ⟨1⟩, ⟨2⟩, ⟨3⟩) (endState (bootRoots.run {})) := rfl
  unfold boot
  rw [EStateM.run_bind, roots]
  refine (?_ : Triple Moored (fun _ => True) (fun _ _ => True) _) _ moored_bootRoots trivial |>.1
  dsimp only
  repeat' first
    | with_reducible refine Triple.bind_true ?_ fun _ => ?_
    | with_reducible exact moored_defineAll _ _ _
    | with_reducible exact moored_mustDefine (moored_defineClass _ _ _)
    | with_reducible exact moored_mustDefine (moored_defineModule _ _)
    | with_reducible exact moored_of_anchorsKept (anchorsKept_setCore _)
    | with_reducible exact moored_of_anchorsKept (anchorsKept_intern _)
    | with_reducible exact Triple.pure_of fun _ _ => trivial
    | with_reducible refine Triple.forIn_list _ _ fun _ _ => ?_
    | with_reducible exact moored_of_anchorsKept (anchorsKept_setClassName _ _ _)
    | with_reducible exact moored_of_anchorsKept (anchorsKept_defineRaw _ _ _)
    | with_reducible exact moored_of_anchorsKept (anchorsKept_constSet _ _ _)
    | with_reducible exact moored_singletonClassOf _
    | with_reducible exact moored_of_anchorsKept (anchorsKept_nativeProc _)
    | with_reducible exact moored_of_anchorsKept (anchorsKept_alloc rfl)
    | with_reducible exact moored_of_readOnly readOnly_wellKnown
    | with_reducible exact moored_includeModule _ _
    | exact moored_runtimeFault
    | exact moored_panic _
    | split

theorem moored_graphOp (op : GraphOp) :
    Triple Moored (fun _ => True) (fun _ _ => True) op.run := by
  have dropped : ∀ {α : Type} (x : StoreM α), Triple Moored (fun _ => True) (fun _ _ => True) x →
      Triple Moored (fun _ => True) (fun _ _ => True) (do let _ ← x) :=
    fun _ hx => Triple.bind_true hx fun _ => Triple.pure_of fun _ _ => trivial
  cases op with
  | defineClass name super outer => exact dropped _ (moored_defineClass name super outer)
  | defineModule name outer => exact dropped _ (moored_defineModule name outer)
  | newClass super => exact dropped _ (moored_newClass super)
  | newModule => exact dropped _ moored_newModule
  | includeModule r m => exact dropped _ (moored_includeModule r m)
  | prependModule r m => exact dropped _ (moored_prependModule r m)
  | singletonClass v => exact dropped _ (moored_singletonClassOf v)
  | defineMethod r mid m => exact moored_of_anchorsKept (anchorsKept_defineRaw r mid m)
  | removeMethod r mid => exact dropped _ (moored_of_anchorsKept (anchorsKept_removeMethod r mid))
  | aliasMethod r new old => exact dropped _ (moored_of_anchorsKept (anchorsKept_aliasMethod r new old))
  | resolve cls mid => exact dropped _ (moored_of_anchorsKept (anchorsKept_resolve cls mid))

theorem Moored.tableAt_of_link {st : Store} (moored : st.Moored) {r : ObjRef} {s : Option ObjRef}
    (linked : st.link r = some s) : ∃ tb, st.tableAt r = some tb := by
  rw [link_eq_nodeAt] at linked
  obtain ⟨n, found, -⟩ := Option.map_eq_some_iff.mp linked
  exact Option.ne_none_iff_exists'.mp (moored.tableAt found)

theorem Moored.firstEntry_some {st : Store} (moored : st.Moored) (mid : Sym) {s : Option ObjRef}
    {l : List ObjRef} (chain : Chain st s l) : ∃ e, st.firstEntry mid l = some e := by
  induction chain with
  | nil => exact ⟨_, rfl⟩
  | @cons r s l linked _ ih =>
    obtain ⟨tb, table⟩ := moored.tableAt_of_link linked
    obtain ⟨e, rest⟩ := ih
    simp only [firstEntry, table, Option.bind_eq_bind, Option.bind_some]
    split
    · exact ⟨_, rfl⟩
    · exact ⟨e, rest⟩

theorem Moored.lookup_run {st : Store} (moored : st.Moored) {cls : Option ObjRef} {l : List ObjRef}
    (chain : Chain st cls l) (mid : Sym) :
    ∃ e, st.firstEntry mid l = some e ∧ (lookup cls mid).run st = .ok e st := by
  obtain ⟨e, first⟩ := moored.firstEntry_some mid chain
  exact ⟨e, first, by rw [Store.lookup_run chain, first]; rfl⟩

theorem CacheCoherent.resolve_answer {st : Store} (coherent : st.CacheCoherent) {cls : Option ObjRef}
    {mid : Sym} {e : Method × Option ObjRef} (walk : (lookup cls mid).run st = .ok e st) :
    ∃ t, (resolve cls mid).run st = .ok (lookupAnswer e) t := by
  rw [resolve_run]
  cases cached : st.cache[(cls, mid)]? with
  | some e' =>
    have same := coherent cls mid e' cached
    rw [walk] at same
    cases same
    exact ⟨st, rfl⟩
  | none =>
    rw [walk]
    exact ⟨_, rfl⟩

end Store

theorem GraphReachable.moored {st : Store} (reach : GraphReachable st) : st.Moored := by
  induction reach with
  | boot => exact Store.moored_boot
  | step op _ _ ih => exact (Store.moored_graphOp op _ ih trivial).1

end RegisterVM
