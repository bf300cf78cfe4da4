import RegisterVM.Proofs.Class.Acyclic

set_option autoImplicit false

namespace RegisterVM

instance : LawfulBEq ObjRef where
  eq_of_beq {a b} same := by
    cases a; cases b
    simp_all [BEq.beq]
  rfl := by simp [BEq.beq]

instance : LawfulBEq Sym where
  eq_of_beq {a b} same := by
    cases a; cases b
    simp_all [BEq.beq]
  rfl := by simp [BEq.beq]

def Obj.node? (o : Obj) : Option ClassNode :=
  match o.body with
  | .cls n => some n
  | _ => none

namespace Store

def nodeAt (st : Store) (r : ObjRef) : Option ClassNode := st.heap[r.idx]?.bind Obj.node?

def tableAt (st : Store) (r : ObjRef) : Option (Std.HashMap Sym Method) := do
  let n ← st.nodeAt r
  match n.kind, n.module with
  | .include, some m => pure (← st.nodeAt ((← st.nodeAt m).origin.getD m)).methods
  | _, _ => pure n.methods

def firstEntry (st : Store) (mid : Sym) : List ObjRef → Option (Method × Option ObjRef)
  | [] => some (.undef, none)
  | p :: l => do
    match (← st.tableAt p).get? mid with
    | some m => pure (m, some p)
    | none => st.firstEntry mid l

def CacheCoherent (st : Store) : Prop :=
  ∀ cls mid e, st.cache[(cls, mid)]? = some e → (lookup cls mid).run st = .ok e st

def answerIn {α : Type} (st : Store) : Option α → EStateM.Result Fault Store α
  | some a => .ok a st
  | none => .error .runtime st

@[simp] theorem answerIn_some {α : Type} (st : Store) (a : α) : answerIn st (some a) = .ok a st := rfl

@[simp] theorem answerIn_none {α : Type} (st : Store) : answerIn st (none : Option α) = .error .runtime st :=
  rfl

theorem answerIn_eq_ok {α : Type} {st t : Store} {o : Option α} {a : α} :
    answerIn st o = .ok a t ↔ t = st ∧ o = some a := by
  cases o with
  | none => simp [answerIn]
  | some b => simp only [answerIn, EStateM.Result.ok.injEq, Option.some.injEq, eq_comm, and_comm]

theorem link_eq_nodeAt (st : Store) (r : ObjRef) : st.link r = (st.nodeAt r).map (·.super) := by
  unfold link nodeAt
  cases st.heap[r.idx]? with
  | none => rfl
  | some o => cases body : o.body <;> simp [Obj.link, Obj.node?, body]

theorem node_run_nodeAt (r : ObjRef) (st : Store) : (node r).run st = answerIn st (st.nodeAt r) := by
  rw [node_run]
  unfold nodeAt
  cases st.heap[r.idx]? with
  | none => rfl
  | some o => cases body : o.body <;> simp [Obj.node?, body]

theorem superOf_run (r : ObjRef) (st : Store) :
    (superOf r).run st = answerIn st ((st.nodeAt r).map (·.super)) := by
  simp only [superOf, EStateM.run_bind, node_run_nodeAt]
  cases st.nodeAt r <;> rfl

theorem tableOf_run (r : ObjRef) (st : Store) : (tableOf r).run st = answerIn st (st.tableAt r) := by
  simp only [tableOf, EStateM.run_bind, node_run_nodeAt]
  cases found : st.nodeAt r with
  | none => simp [tableAt, found]
  | some n =>
    simp only [answerIn_some, tableAt, found, Option.bind_eq_bind, Option.bind_some]
    cases n.kind <;> cases n.module <;> try rfl
    -- an include node reads the table of its module's origin
    rename_i m
    simp only [origin, EStateM.run_bind, node_run_nodeAt]
    cases st.nodeAt m with
    | none => rfl
    | some mn =>
      simp only [answerIn_some, Option.bind_some, EStateM.run_pure]
      cases st.nodeAt (mn.origin.getD m) <;> rfl

theorem nodeAt_push (st : Store) (o : Obj) (r : ObjRef) :
    ({ st with heap := st.heap.push o } : Store).nodeAt r =
      if r.idx = st.heap.size then o.node? else st.nodeAt r := by
  simp only [nodeAt, Array.getElem?_push]
  split <;> rfl

theorem modifyNode_run_nodeAt {st : Store} {r : ObjRef} {n : ClassNode} (found : st.nodeAt r = some n)
    (f : ClassNode → ClassNode) :
    ∃ t, (modifyNode r f).run st = .ok () t ∧ t.heap.size = st.heap.size ∧ t.core = st.core ∧
      ∀ r', t.nodeAt r' = if r' = r then some (f n) else st.nodeAt r' := by
  unfold nodeAt at found
  obtain ⟨o, at_r, node⟩ := Option.bind_eq_some_iff.1 found
  have within : r.idx < st.heap.size := (Array.getElem?_eq_some_iff.1 at_r).1
  have body : o.body = .cls n := by
    unfold Obj.node? at node
    split at node <;> simp_all
  refine ⟨{ st with heap := st.heap.set! r.idx { o with body := .cls (f n) } },
    by rw [modifyNode_run, at_r]; simp only [body], by simp, rfl, fun r' => ?_⟩
  simp only [nodeAt, Array.set!_eq_setIfInBounds, Array.getElem?_setIfInBounds]
  by_cases same : r' = r
  · subst same
    simp [within, Obj.node?]
  · have apart : r.idx ≠ r'.idx := fun h => same (by cases r; cases r'; simp_all)
    simp [same, apart]

theorem definitionTarget_run_own {st : Store} {r : ObjRef} {n : ClassNode} (found : st.nodeAt r = some n)
    (plain : n.kind ≠ .include) (own : n.origin = none) : (definitionTarget r).run st = .ok r st := by
  cases kind : n.kind <;> simp_all [definitionTarget, EStateM.run_bind, node_run_nodeAt]

theorem defineRaw_run_own {st : Store} {r : ObjRef} {n : ClassNode} (found : st.nodeAt r = some n)
    (plain : n.kind ≠ .include) (own : n.origin = none) (mid : Sym) (m : Method) :
    ∃ t, (defineRaw r mid m).run st = .ok () t ∧ t.cache = {} ∧
      ∀ r', t.nodeAt r' = if r' = r then some { n with methods := n.methods.insert mid m } else st.nodeAt r' := by
  obtain ⟨t, run, -, -, nodes⟩ := modifyNode_run_nodeAt found fun n => { n with methods := n.methods.insert mid m }
  refine ⟨{ t with cache := {} }, ?_, rfl, nodes⟩
  simp only [defineRaw, EStateM.run_bind, definitionTarget_run_own found plain own, run]
  rfl

theorem lookup_go_run {st : Store} {mid : Sym} {s : Option ObjRef} {l : List ObjRef}
    (chain : Chain st s l) {fuel : Nat} (enough : l.length < fuel) :
    (lookup.go mid s fuel).run st = answerIn st (st.firstEntry mid l) := by
  induction chain generalizing fuel with
  | nil =>
    obtain ⟨f, rfl⟩ : ∃ f, fuel = f + 1 := Nat.exists_eq_add_one_of_ne_zero (by simp at enough; omega)
    rfl
  | @cons r s l linked rest ih =>
    obtain ⟨f, rfl⟩ : ∃ f, fuel = f + 1 := Nat.exists_eq_add_one_of_ne_zero (by simp at enough; omega)
    have within : l.length < f := by simp at enough; omega
    simp only [lookup.go, EStateM.run_bind, tableOf_run]
    cases table : st.tableAt r with
    | none => simp [firstEntry, table]
    | some tb =>
      simp only [answerIn_some, firstEntry, table, Option.bind_eq_bind, Option.bind_some]
      cases entry : tb.get? mid with
      | some m => rfl
      | none =>
        -- the walk goes on from where `r` links, with the rest of the chain
        have next : (st.nodeAt r).map (·.super) = some s := by rw [← link_eq_nodeAt]; exact linked
        simp only [EStateM.run_bind, superOf_run, next, answerIn_some]
        exact ih within

theorem lookup_run {st : Store} {cls : Option ObjRef} {l : List ObjRef} (chain : Chain st cls l)
    (mid : Sym) : (lookup cls mid).run st = answerIn st (st.firstEntry mid l) := by
  simp only [lookup, chainFuel, EStateM.run_bind]
  exact lookup_go_run chain (Nat.lt_succ_of_le chain.length_le)

theorem lookup_run_root {st : Store} {r : ObjRef} {n : ClassNode} (found : st.nodeAt r = some n)
    (root : n.super = none) (plain : n.kind ≠ .include) {mid : Sym} {m : Method}
    (hit : n.methods[mid]? = some m) : (lookup (some r) mid).run st = .ok (m, some r) st := by
  have chain : Chain st (some r) [r] := .cons (by simp [link_eq_nodeAt, found, root]) .nil
  rw [lookup_run chain]
  cases kind : n.kind <;> simp_all [firstEntry, tableAt]

theorem ends_of_lookup {st t : Store} (acyclic : st.Acyclic) {cls : Option ObjRef} {mid : Sym}
    {e : Method × Option ObjRef} (run : (lookup cls mid).run st = .ok e t) : st.Ends cls := by
  cases cls with
  | none => exact ⟨[], .nil⟩
  | some r =>
    refine acyclic.ends_of_link fun unlinked => ?_
    have noTable : st.tableAt r = none := by
      rw [link_eq_nodeAt, Option.map_eq_none_iff] at unlinked
      simp [tableAt, unlinked]
    simp [lookup, chainFuel, lookup.go, EStateM.run_bind, tableOf_run, noTable] at run

theorem tableAt_mono {s t : Store} (kept : ∀ r n, s.nodeAt r = some n → t.nodeAt r = some n)
    {r : ObjRef} {tb : Std.HashMap Sym Method} (found : s.tableAt r = some tb) : t.tableAt r = some tb := by
  cases node : s.nodeAt r with
  | none => simp [tableAt, node] at found
  | some n =>
    simp only [tableAt, node, kept r n node, Option.bind_eq_bind, Option.bind_some] at found ⊢
    split at found
    · rename_i m _ _
      cases mnode : s.nodeAt m with
      | none => simp [mnode] at found
      | some mn =>
        cases onode : s.nodeAt (mn.origin.getD m) with
        | none => simp [mnode, onode] at found
        | some o => simp_all
    · exact found

theorem firstEntry_mono {s t : Store} (kept : ∀ r n, s.nodeAt r = some n → t.nodeAt r = some n)
    (mid : Sym) {l : List ObjRef} {e : Method × Option ObjRef} (found : s.firstEntry mid l = some e) :
    t.firstEntry mid l = some e := by
  induction l with
  | nil => exact found
  | cons p l ih =>
    cases table : s.tableAt p with
    | none => simp [firstEntry, table] at found
    | some tb =>
      simp only [firstEntry, table, tableAt_mono kept table, Option.bind_eq_bind, Option.bind_some] at found ⊢
      split at found
      · exact found
      · exact ih found

theorem lookup_stable {s t : Store} (acyclic : s.Acyclic)
    (kept : ∀ r n, s.nodeAt r = some n → t.nodeAt r = some n) {cls : Option ObjRef} {mid : Sym}
    {e : Method × Option ObjRef} (run : (lookup cls mid).run s = .ok e s) :
    (lookup cls mid).run t = .ok e t := by
  obtain ⟨l, chain⟩ := ends_of_lookup acyclic run
  have links : ∀ r x, s.link r = some x → t.link r = some x := by
    intro r x linked
    rw [link_eq_nodeAt] at linked ⊢
    obtain ⟨n, node, rfl⟩ := Option.map_eq_some_iff.mp linked
    simp [kept r n node]
  rw [lookup_run chain, answerIn_eq_ok] at run
  rw [lookup_run (chain.mono links), firstEntry_mono kept mid run.2]
  rfl

def nodesKept : StateOrder Store where
  rel s t := (∀ r n, s.nodeAt r = some n → t.nodeAt r = some n) ∧ t.cache = s.cache
  refl _ := ⟨fun _ _ h => h, rfl⟩
  trans h₁ h₂ := ⟨fun r n h => h₂.1 r n (h₁.1 r n h), h₂.2.trans h₁.2⟩

def forgetsOnly : StateOrder Store where
  rel s t := t.cache = s.cache ∨ t.cache = {}
  refl _ := .inl rfl
  trans h₁ h₂ := by
    rcases h₂ with same | gone
    · rcases h₁ with same' | gone'
      · exact .inl (same.trans same')
      · exact .inr (same.trans gone')
    · exact .inr gone

def lookupsKept : StateOrder Store where
  rel s t := nodesKept.rel s t ∨ t.cache = {}
  refl s := .inl (nodesKept.refl s)
  trans h₁ h₂ := by
    rcases h₂ with kept | gone
    · rcases h₁ with kept' | gone'
      · exact .inl (nodesKept.trans kept' kept)
      · exact .inr (kept.2.trans gone')
    · exact .inr gone

theorem CacheCoherent.of_lookupsKept {s t : Store} (acyclic : s.Acyclic) (coherent : s.CacheCoherent)
    (kept : lookupsKept.rel s t) : t.CacheCoherent := by
  intro cls mid e cached
  rcases kept with ⟨nodes, cache⟩ | gone
  · rw [cache] at cached
    exact lookup_stable acyclic nodes (coherent cls mid e cached)
  · simp [gone] at cached

structure Tidy {α : Type} (x : StoreM α) : Prop where
  shrinks : Keeps forgetsOnly x
  settles : ∀ s a t, x.run s = .ok a t → lookupsKept.rel s t

def Forgets {α : Type} (x : StoreM α) : Prop := ∀ s a t, x.run s = .ok a t → t.cache = {}

namespace Tidy

theorem bind {α β : Type} {x : StoreM α} {f : α → StoreM β} (hx : Tidy x) (hf : ∀ a, Tidy (f a)) :
    Tidy (x >>= f) where
  shrinks := Keeps.bind hx.shrinks fun a => (hf a).shrinks
  settles s b t run := by
    obtain ⟨a, u, first, second⟩ := bind_run_ok run
    exact lookupsKept.trans (hx.settles s a u first) ((hf a).settles u b t second)

theorem pure {α : Type} (a : α) : Tidy (Pure.pure a : StoreM α) where
  shrinks := Keeps.pure a
  settles s _ t run := by cases run; exact lookupsKept.refl s

theorem throw {α : Type} (e : Fault) : Tidy (MonadExcept.throw e : StoreM α) where
  shrinks := Keeps.throw e
  settles _ _ _ run := by cases run

theorem of_nodesKept {α : Type} {x : StoreM α} (hx : Keeps nodesKept x) : Tidy x where
  shrinks s := .inl (hx s).2
  settles _ _ _ run := .inl (hx.rel_of_ok run)

theorem of_readOnly {α : Type} {x : StoreM α} (hx : ReadOnly x) : Tidy x := of_nodesKept (hx.keeps _)

theorem of_forgets {α : Type} {x : StoreM α} (shrinks : Keeps forgetsOnly x) (forgets : Forgets x) :
    Tidy x where
  shrinks := shrinks
  settles s a t run := .inr (forgets s a t run)

theorem forIn_list {α β : Type} (xs : List α) (b : β) {f : α → β → StoreM (ForInStep β)}
    (hf : ∀ a b, Tidy (f a b)) : Tidy (forIn xs b f) := by
  induction xs generalizing b with
  | nil => exact pure b
  | cons a rest ih =>
    rw [List.forIn_cons]
    refine bind (hf a b) fun step => ?_
    cases step with
    | done b' => exact pure b'
    | yield b' => exact ih b'

end Tidy

theorem forgets_flushCache : Forgets flushCache := fun _ _ _ run => by cases run; rfl

theorem Forgets.bind {α β : Type} {x : StoreM α} {f : α → StoreM β} (hx : Forgets x)
    (hf : ∀ a, Tidy (f a)) : Forgets (x >>= f) := by
  intro s b t run
  obtain ⟨a, u, first, second⟩ := bind_run_ok run
  rcases (hf a).settles u b t second with ⟨_, cache⟩ | gone
  · rw [cache]
    exact hx s a u first
  · exact gone

theorem Forgets.after {α β : Type} {x : StoreM α} {f : α → StoreM β} (hf : ∀ a, Forgets (f a)) :
    Forgets (x >>= f) := by
  intro s b t run
  obtain ⟨a, u, -, second⟩ := bind_run_ok run
  exact hf a u b t second

theorem forgetsOnly_of_cache {s t : Store} (cache : t.cache = s.cache) : forgetsOnly.rel s t := .inl cache

theorem nodesKept_of_heap {s t : Store} (heap : t.heap = s.heap) (cache : t.cache = s.cache) :
    nodesKept.rel s t :=
  ⟨fun r n found => by simpa [nodeAt, heap] using found, cache⟩

theorem tidy_flushCache : Tidy flushCache :=
  Tidy.of_forgets (fun _ => .inr rfl) forgets_flushCache

theorem tidy_alloc (o : Obj) : Tidy (alloc o) := by
  refine Tidy.of_nodesKept fun st => ⟨fun r n found => ?_, rfl⟩
  have within : r.idx < st.heap.size :=
    lt_size_of_link (s := n.super) (by rw [link_eq_nodeAt, found]; rfl)
  rw [alloc_run]
  simpa [endState, nodeAt, Array.getElem?_push, Nat.ne_of_lt within] using found

theorem tidy_modifyObj (r : ObjRef) {f : Obj → Obj} (body : ∀ o, (f o).body = o.body) :
    Tidy (modifyObj r f) := by
  refine Tidy.of_nodesKept fun st => ?_
  rw [modifyObj_run]
  split
  · refine ⟨fun r' n found => ?_, rfl⟩
    simp only [endState, nodeAt, Array.getElem?_modify] at found ⊢
    split
    · cases at_r : st.heap[r'.idx]? with
      | none => simp [at_r] at found
      | some o => simpa [at_r, Obj.node?, body] using found
    · exact found
  · exact nodesKept.refl st

theorem tidy_ivarSet (r : ObjRef) (sym : Sym) (v : Value) : Tidy (ivarSet r sym v) :=
  tidy_modifyObj r fun _ => rfl

theorem tidy_intern (name : String) : Tidy (intern name) :=
  Tidy.of_nodesKept fun st => nodesKept_of_heap (s := st) rfl rfl

theorem tidy_setCore (f : Core → Core) : Tidy (setCore f) :=
  Tidy.of_nodesKept fun st => nodesKept_of_heap (s := st) rfl rfl

theorem shrinks_modifyNode (r : ObjRef) (f : ClassNode → ClassNode) : Keeps forgetsOnly (modifyNode r f) := by
  intro st
  rw [modifyNode_run]
  split
  · split
    · exact forgetsOnly_of_cache rfl
    · exact forgetsOnly.refl st
  · exact forgetsOnly.refl st

theorem shrinks_includeAt (r insPos m : ObjRef) (searchSuper : Bool) :
    Keeps forgetsOnly (includeAt r insPos m searchSuper) := by
  -- splicing adds include nodes and changes links, but never touches the cache
  have walk : ∀ fuel s insPos, Keeps forgetsOnly (includeAt.go r searchSuper s insPos fuel) := by
    intro fuel
    induction fuel with
    | zero => exact fun _ _ => Keeps.pure _
    | succ fuel ih =>
      intro s insPos
      simp only [includeAt.go]
      split
      · exact Keeps.pure _
      · refine Keeps.bind ((readOnly_node _).keeps _) fun n => ?_
        split
        · exact Keeps.pure _
        split
        · exact ih _ _
        refine Keeps.bind ((readOnly_findIncluded _ _ _ _).keeps _) fun found => ?_
        split
        · exact ih _ _
        refine Keeps.bind ((readOnly_superOf _).keeps _) fun after => ?_
        refine Keeps.bind ?_ fun ic => Keeps.bind (shrinks_modifyNode _ _) fun _ => ih _ _
        exact Keeps.bind ((readOnly_node _).keeps _) fun _ =>
          Keeps.bind (readOnly_wellKnown.keeps _) fun _ => (tidy_alloc _).shrinks
  exact Keeps.bind (readOnly_chainFuel.keeps _) fun fuel => walk fuel _ _

theorem tidy_defineRaw (r : ObjRef) (mid : Sym) (m : Method) : Tidy (defineRaw r mid m) := by
  refine Tidy.of_forgets ?_ (Forgets.after fun _ => Forgets.after fun _ => forgets_flushCache)
  exact Keeps.bind ((readOnly_definitionTarget r).keeps _) fun _ =>
    Keeps.bind (shrinks_modifyNode _ _) fun _ => tidy_flushCache.shrinks

theorem tidy_removeMethod (r : ObjRef) (mid : Sym) : Tidy (removeMethod r mid) := by
  refine Tidy.bind (Tidy.of_readOnly (readOnly_origin r)) fun o => ?_
  refine Tidy.bind (Tidy.of_readOnly (readOnly_node o)) fun n => ?_
  split
  · refine Tidy.of_forgets ?_ (Forgets.after fun _ => Forgets.bind forgets_flushCache fun _ => Tidy.pure _)
    exact Keeps.bind (shrinks_modifyNode _ _) fun _ => Keeps.bind tidy_flushCache.shrinks fun _ => Keeps.pure _
  · exact Tidy.pure _

theorem tidy_includeModule (r m : ObjRef) : Tidy (includeModule r m) := by
  refine Tidy.bind (Tidy.of_readOnly (readOnly_checkMixin r m)) fun refused => ?_
  split
  · exact Tidy.pure _
  · refine Tidy.of_forgets ?_ (Forgets.after fun _ => Forgets.after fun _ =>
      Forgets.bind forgets_flushCache fun _ => Tidy.pure _)
    exact Keeps.bind ((readOnly_origin r).keeps _) fun _ => Keeps.bind (shrinks_includeAt _ _ _ _) fun _ =>
      Keeps.bind tidy_flushCache.shrinks fun _ => Keeps.pure _

theorem tidy_prependModule (r m : ObjRef) : Tidy (prependModule r m) := by
  refine Tidy.bind (Tidy.of_readOnly (readOnly_checkMixin r m)) fun refused => ?_
  split
  · exact Tidy.pure _
  · -- the splice ends by forgetting the cache, whether an origin was made first or not
    have shrinks : Keeps forgetsOnly
        (includeAt r r m false >>= fun _ => flushCache >>= fun _ => pure (none : Option MixinError)) :=
      Keeps.bind (shrinks_includeAt _ _ _ _) fun _ => Keeps.bind tidy_flushCache.shrinks fun _ => Keeps.pure _
    have forgets : Forgets
        (includeAt r r m false >>= fun _ => flushCache >>= fun _ => pure (none : Option MixinError)) :=
      Forgets.after fun _ => Forgets.bind forgets_flushCache fun _ => Tidy.pure _
    refine Tidy.bind (Tidy.of_readOnly (readOnly_node r)) fun n => ?_
    dsimp only
    split
    · refine Tidy.of_forgets ?_ (Forgets.after fun _ => Forgets.after fun _ => Forgets.after fun _ => forgets)
      exact Keeps.bind (readOnly_wellKnown.keeps _) fun _ => Keeps.bind (tidy_alloc _).shrinks fun _ =>
        Keeps.bind (shrinks_modifyNode _ _) fun _ => shrinks
    · exact Tidy.of_forgets shrinks forgets

theorem tidy_singletonClassOf_go (fuel : Nat) : ∀ v, Tidy (singletonClassOf.go v fuel) := by
  induction fuel with
  | zero => exact fun _ => Tidy.pure _
  | succ fuel ih =>
    intro v
    simp only [singletonClassOf.go]
    split
    · rename_i r
      refine Tidy.bind (Tidy.of_readOnly readOnly_wellKnown) fun c => ?_
      refine Tidy.bind (Tidy.of_readOnly (readOnly_getObj r)) fun o => ?_
      have hang : ∀ {x : StoreM (Option ObjRef)}, Tidy x → Tidy (do
          let super ← x
          let sc ← allocClass .singleton c.klass super
          ivarSet sc c.symAttached (.obj r)
          modifyObj r fun o => { o with cls := some sc }
          flushCache
          pure (some sc)) := fun hx =>
        Tidy.bind hx fun _ => Tidy.bind (tidy_alloc _) fun _ => Tidy.bind (tidy_ivarSet _ _ _) fun _ =>
          Tidy.bind (tidy_modifyObj r fun _ => rfl) fun _ => Tidy.bind tidy_flushCache fun _ => Tidy.pure _
      split
      · refine Tidy.bind (Tidy.of_readOnly (readOnly_node _)) fun kn => ?_
        refine Tidy.bind (Tidy.of_readOnly (readOnly_getObj _)) fun kObj => ?_
        split
        · exact Tidy.pure _
        · split
          · split
            · refine Tidy.bind (Tidy.of_readOnly (readOnly_superclass r)) fun found => ?_
              split
              · exact hang (ih _)
              · exact hang (Tidy.pure _)
            · exact hang (Tidy.pure _)
          · exact hang (Tidy.pure _)
      · split
        · split
          · refine Tidy.bind (Tidy.of_readOnly (readOnly_superclass r)) fun found => ?_
            split
            · exact hang (ih _)
            · exact hang (Tidy.pure _)
          · exact hang (Tidy.pure _)
        · exact hang (Tidy.pure _)
    · exact Tidy.pure _

theorem tidy_singletonClassOf (v : Value) : Tidy (singletonClassOf v) :=
  Tidy.bind (Tidy.of_readOnly readOnly_chainFuel) fun fuel => tidy_singletonClassOf_go fuel v

theorem tidy_setClassName (r : ObjRef) (outer : Option ObjRef) (name : Sym) :
    Tidy (setClassName r outer name) := by
  refine Tidy.bind (Tidy.of_readOnly readOnly_wellKnown) fun c => Tidy.bind (tidy_ivarSet _ _ _) fun _ => ?_
  split
  · exact Tidy.bind (tidy_ivarSet _ _ _) fun _ => tidy_ivarSet _ _ _
  · exact Tidy.pure _

theorem tidy_defineClass (name : String) (super outer : Option ObjRef) :
    Tidy (defineClass name super outer) := by
  refine Tidy.bind (Tidy.of_readOnly readOnly_wellKnown) fun c => ?_
  refine Tidy.bind (tidy_intern name) fun sym => ?_
  refine Tidy.bind (Tidy.of_readOnly (readOnly_ivarFind _ _)) fun found => ?_
  split
  · refine Tidy.bind (Tidy.of_readOnly (readOnly_classOf? _)) fun named => ?_
    split
    · split
      · exact Tidy.pure _
      · refine Tidy.bind (Tidy.of_readOnly (readOnly_superclass _)) fun _ => ?_
        split <;> exact Tidy.pure _
    · exact Tidy.pure _
  · refine Tidy.bind (Tidy.of_readOnly (readOnly_node _)) fun n => ?_
    split
    · exact Tidy.pure _
    · refine Tidy.bind (tidy_alloc _) fun k => Tidy.bind (tidy_setClassName _ _ _) fun _ => ?_
      exact Tidy.bind (tidy_singletonClassOf _) fun _ => Tidy.pure _

theorem tidy_defineModule (name : String) (outer : Option ObjRef) : Tidy (defineModule name outer) := by
  refine Tidy.bind (Tidy.of_readOnly readOnly_wellKnown) fun c => ?_
  refine Tidy.bind (tidy_intern name) fun sym => ?_
  refine Tidy.bind (Tidy.of_readOnly (readOnly_ivarFind _ _)) fun found => ?_
  split
  · refine Tidy.bind (Tidy.of_readOnly (readOnly_classOf? _)) fun named => ?_
    split
    · split <;> exact Tidy.pure _
    · exact Tidy.pure _
  · exact Tidy.bind (tidy_alloc _) fun m => Tidy.bind (tidy_setClassName _ _ _) fun _ => Tidy.pure _

theorem tidy_newClass (super : ObjRef) : Tidy (newClass super) :=
  Tidy.bind (Tidy.of_readOnly readOnly_wellKnown) fun _ => Tidy.bind (tidy_alloc _) fun _ =>
    Tidy.bind (tidy_singletonClassOf _) fun _ => Tidy.pure _

theorem tidy_newModule : Tidy newModule :=
  Tidy.bind (Tidy.of_readOnly readOnly_wellKnown) fun _ => tidy_alloc _

theorem tidy_constSet (r : ObjRef) (sym : Sym) (v : Value) : Tidy (constSet r sym v) := by
  refine Tidy.bind (Tidy.of_readOnly readOnly_wellKnown) fun c => ?_
  refine Tidy.bind (Tidy.of_readOnly (readOnly_classOf? v)) fun found => ?_
  split
  · refine Tidy.bind (Tidy.of_readOnly (readOnly_ivarFind _ _)) fun name => ?_
    split
    · exact tidy_setClassName _ _ _
    · exact tidy_ivarSet _ _ _
  · exact tidy_ivarSet _ _ _

theorem tidy_defineNative (k : ObjRef) (name : String) (p : Primitive) : Tidy (defineNative k name p) :=
  Tidy.bind (tidy_intern name) fun _ => tidy_defineRaw _ _ _

theorem tidy_nativeProc (p : Primitive) : Tidy (nativeProc p) :=
  Tidy.bind (Tidy.of_readOnly readOnly_wellKnown) fun _ => tidy_alloc _

theorem tidy_mustDefine {r : StoreM (Except String ObjRef)} (hr : Tidy r) : Tidy (mustDefine r) := by
  refine Tidy.bind hr fun found => ?_
  cases found with
  | ok k => exact Tidy.pure _
  | error msg => exact Tidy.throw _

theorem tidy_defineAll (k : ObjRef) (onSingleton : Bool) (items : List (String × Primitive)) :
    Tidy (defineAll k onSingleton items) := by
  -- one definition after another on the chosen class
  have loop : ∀ target : ObjRef, Tidy (do
      forIn items PUnit.unit fun x _ => do
        defineNative target x.1 x.2
        pure (ForInStep.yield PUnit.unit)
      pure ()) := fun target =>
    Tidy.bind (Tidy.forIn_list _ _ fun _ _ => Tidy.bind (tidy_defineNative _ _ _) fun _ => Tidy.pure _)
      fun _ => Tidy.pure _
  unfold defineAll
  dsimp only
  split
  · refine Tidy.bind (tidy_singletonClassOf _) fun found => ?_
    split
    · exact Tidy.bind (Tidy.pure _) loop
    · exact Tidy.bind (Tidy.throw _) loop
  · exact Tidy.bind (Tidy.pure _) loop

theorem tidy_bootRoots : Tidy bootRoots :=
  Tidy.bind (Tidy.of_readOnly Keeps.get) fun _ => Tidy.bind (tidy_alloc _) fun _ =>
    Tidy.bind (tidy_alloc _) fun _ => Tidy.bind (tidy_alloc _) fun _ => Tidy.bind (tidy_alloc _) fun _ =>
      Tidy.bind (tidy_setCore _) fun _ => Tidy.pure _

theorem tidy_boot : Tidy boot := by
  unfold boot
  refine Tidy.bind tidy_bootRoots fun roots => ?_
  dsimp only
  -- every step is one of the operations above, in sequence, in a loop, or in a branch
  repeat' first
    | with_reducible refine Tidy.bind ?_ fun _ => ?_
    | with_reducible exact tidy_defineAll _ _ _
    | with_reducible exact tidy_mustDefine (tidy_defineClass _ _ _)
    | with_reducible exact tidy_setCore _
    | with_reducible exact tidy_intern _
    | with_reducible exact Tidy.pure _
    | with_reducible refine Tidy.forIn_list _ _ fun _ _ => ?_
    | with_reducible exact tidy_setClassName _ _ _
    | with_reducible exact tidy_defineRaw _ _ _
    | with_reducible exact tidy_constSet _ _ _
    | with_reducible exact tidy_singletonClassOf _
    | with_reducible exact tidy_nativeProc _
    | with_reducible exact tidy_alloc _
    | with_reducible exact Tidy.of_readOnly readOnly_wellKnown
    | with_reducible exact tidy_mustDefine (tidy_defineModule _ _)
    | with_reducible exact tidy_includeModule _ _
    | exact Tidy.throw _
    | split

theorem cache_boot : (endState (boot.run {})).cache = {} := by
  rcases tidy_boot.shrinks {} with same | gone
  · exact same
  · exact gone

theorem resolve_run (cls : Option ObjRef) (mid : Sym) (st : Store) :
    (resolve cls mid).run st = match st.cache[(cls, mid)]? with
      | some e => .ok (lookupAnswer e) st
      | none => match (lookup cls mid).run st with
        | .ok e u => .ok (lookupAnswer e) { u with cache := u.cache.insert (cls, mid) e }
        | .error f u => .error f u := by
  simp only [resolve, EStateM.run_bind, show (get : StoreM Store).run st = .ok st st from rfl]
  cases st.cache[(cls, mid)]? with
  | some e => rfl
  | none =>
    simp only [EStateM.run_bind]
    cases (lookup cls mid).run st <;> rfl

theorem coherent_resolve {s t : Store} (acyclic : s.Acyclic) (coherent : s.CacheCoherent)
    {cls : Option ObjRef} {mid : Sym} {a : Option (Method × ObjRef)}
    (run : (resolve cls mid).run s = .ok a t) : t.CacheCoherent ∧ t.heap = s.heap ∧ t.core = s.core := by
  rw [resolve_run] at run
  cases cached : s.cache[(cls, mid)]? with
  | some e =>
    rw [cached] at run
    cases run
    exact ⟨coherent, rfl, rfl⟩
  | none =>
    rw [cached] at run
    rcases (readOnly_lookup cls mid).run_cases s with ⟨e, walked⟩ | ⟨f, failed⟩
    · rw [walked] at run
      cases run
      refine ⟨fun cls' mid' e' found => ?_, rfl, rfl⟩
      -- the heap is the same, so every walk goes as before
      have same : ∀ {x}, (lookup cls' mid').run s = .ok x s →
          (lookup cls' mid').run { s with cache := s.cache.insert (cls, mid) e } =
            .ok x { s with cache := s.cache.insert (cls, mid) e } :=
        fun walk => lookup_stable (t := { s with cache := s.cache.insert (cls, mid) e }) acyclic (fun _ _ h => h) walk
      rw [Std.HashMap.getElem?_insert] at found
      split at found
      · rename_i key
        cases found
        obtain ⟨rfl, rfl⟩ := Prod.mk.inj (eq_of_beq key)
        exact same walked
      · exact same (coherent cls' mid' e' found)
    · rw [failed] at run
      cases run

theorem coherent_graphOp (op : GraphOp) {s t : Store} (acyclic : s.Acyclic)
    (coherent : s.CacheCoherent) (run : op.run.run s = .ok () t) : t.CacheCoherent := by
  -- all but a lookup keep every class node or forget the cache
  have tidy : ∀ {x : StoreM Unit}, Tidy x → x.run s = .ok () t → t.CacheCoherent := fun hx run =>
    CacheCoherent.of_lookupsKept acyclic coherent (hx.settles s () t run)
  have dropped : ∀ {α : Type} {x : StoreM α}, Tidy x → Tidy (do let _ ← x) :=
    fun hx => Tidy.bind hx fun _ => Tidy.pure _
  cases op with
  | defineClass name super outer => exact tidy (dropped (tidy_defineClass name super outer)) run
  | defineModule name outer => exact tidy (dropped (tidy_defineModule name outer)) run
  | newClass super => exact tidy (dropped (tidy_newClass super)) run
  | newModule => exact tidy (dropped tidy_newModule) run
  | includeModule r m => exact tidy (dropped (tidy_includeModule r m)) run
  | prependModule r m => exact tidy (dropped (tidy_prependModule r m)) run
  | singletonClass v => exact tidy (dropped (tidy_singletonClassOf v)) run
  | defineMethod r mid m => exact tidy (tidy_defineRaw r mid m) run
  | removeMethod r mid => exact tidy (dropped (tidy_removeMethod r mid)) run
  | resolve cls mid =>
    obtain ⟨_, u, looked, done⟩ := bind_run_ok run
    cases done
    exact (coherent_resolve acyclic coherent looked).1
  | aliasMethod r new old =>
    obtain ⟨_, u, aliased, done⟩ := bind_run_ok run
    cases done
    obtain ⟨found, v, looked, rest⟩ := bind_run_ok aliased
    obtain ⟨coherent', heap, core⟩ := coherent_resolve acyclic coherent looked
    -- the lookup only remembered, so the graph is the one it was
    have acyclic' : v.Acyclic :=
      acyclic.of_links (fun r => by simp [link, heap]) (congrArg Core.klass core)
    -- a method found is copied under the new name, and nothing else changes
    rcases found with _ | ⟨m, _⟩
    · exact CacheCoherent.of_lookupsKept acyclic' coherent' ((Tidy.pure _).settles v _ t rest)
    · exact CacheCoherent.of_lookupsKept acyclic' coherent'
        ((Tidy.bind (tidy_defineRaw _ _ _) fun _ => Tidy.pure _).settles v _ t rest)

end Store

inductive GraphSettled : Store → Prop
  | boot : GraphSettled (endState (Store.boot.run {}))
  | step {st t : Store} (op : GraphOp) :
      GraphSettled st → op.Allowed st → op.run.run st = .ok () t → GraphSettled t

theorem GraphSettled.reachable {st : Store} (settled : GraphSettled st) : GraphReachable st := by
  induction settled with
  | boot => exact .boot
  | step op _ allowed run ih =>
    have reached := GraphReachable.step op ih allowed
    rw [run] at reached
    exact reached

theorem GraphSettled.coherent {st : Store} (settled : GraphSettled st) : st.CacheCoherent := by
  induction settled with
  | boot =>
    intro cls mid e cached
    simp [Store.cache_boot] at cached
  | step op prior _ run ih => exact Store.coherent_graphOp op prior.reachable.acyclic ih run

namespace Store

theorem method_cache_coherent {st : Store} (settled : GraphSettled st) :
    (∀ cls mid e, st.cache[(cls, mid)]? = some e → (lookup cls mid).run st = .ok e st) ∧
    ∀ cls mid a, (∃ t, (resolve cls mid).run st = .ok a t) ↔
      ∃ e, (lookup cls mid).run st = .ok e st ∧ lookupAnswer e = a := by
  have coherent := settled.coherent
  refine ⟨coherent, fun cls mid a => ?_⟩
  rw [resolve_run]
  constructor
  · rintro ⟨t, run⟩
    cases cached : st.cache[(cls, mid)]? with
    | some e =>
      rw [cached] at run
      cases run
      exact ⟨e, coherent cls mid e cached, rfl⟩
    | none =>
      rw [cached] at run
      rcases (readOnly_lookup cls mid).run_cases st with ⟨e, walked⟩ | ⟨f, failed⟩
      · rw [walked] at run
        cases run
        exact ⟨e, walked, rfl⟩
      · rw [failed] at run
        cases run
  · rintro ⟨e, walked, rfl⟩
    cases cached : st.cache[(cls, mid)]? with
    | some e' =>
      -- the remembered lookup is the walk itself
      have same := (coherent cls mid e' cached).symm.trans walked
      cases same
      exact ⟨st, rfl⟩
    | none => exact ⟨_, by rw [walked]⟩

theorem newModule_graphOp_run (st : Store) :
    GraphOp.newModule.run.run st =
      .ok () { st with heap := st.heap.push { cls := some st.core.module, body := .cls { kind := .module } } } :=
  rfl

-- After boot a module is made, given a method, and asked for it once: the cache then remembers
-- that walk.
def moduleAfterBoot : ObjRef := ⟨(endState (boot.run {})).heap.size⟩

def moduleStore : Store := endState (GraphOp.newModule.run.run (endState (boot.run {})))

def definedStore : Store :=
  endState ((GraphOp.defineMethod moduleAfterBoot ⟨1⟩ (.native (.kernel .puts))).run.run moduleStore)

def rememberedStore : Store := endState ((GraphOp.resolve (some moduleAfterBoot) ⟨1⟩).run.run definedStore)

theorem remembered_lookup_coherent :
    GraphSettled rememberedStore ∧
    rememberedStore.cache[((some moduleAfterBoot, ⟨1⟩) : Option ObjRef × Sym)]? =
      some (Method.native (.kernel .puts), some moduleAfterBoot) ∧
    (∀ cls mid e, rememberedStore.cache[(cls, mid)]? = some e →
      (lookup cls mid).run rememberedStore = .ok e rememberedStore) ∧
    ∀ cls mid a, (∃ t, (resolve cls mid).run rememberedStore = .ok a t) ↔
      ∃ e, (lookup cls mid).run rememberedStore = .ok e rememberedStore ∧ lookupAnswer e = a := by
  -- the boot store is never evaluated: the module is the node pushed at the end of its heap
  have made : GraphOp.newModule.run.run (endState (boot.run {})) = .ok () moduleStore := rfl
  have fresh : moduleStore.nodeAt moduleAfterBoot = some { kind := .module } := by
    rw [moduleStore, newModule_graphOp_run, endState, nodeAt_push]
    simp [moduleAfterBoot, Obj.node?]
  obtain ⟨t, defined, flushed, nodes⟩ := defineRaw_run_own fresh (by decide) rfl ⟨1⟩ (.native (.kernel .puts))
  have definedIs : definedStore = t := by simp only [definedStore, GraphOp.run, defined, endState]
  have atModule : t.nodeAt moduleAfterBoot =
      some { kind := .module, methods := ({} : Std.HashMap Sym Method).insert ⟨1⟩ (.native (.kernel .puts)) } := by
    simp [nodes]
  -- one walk from the module finds the method in its own table, and the cache keeps it
  have walked : (lookup (some moduleAfterBoot) ⟨1⟩).run t = .ok (.native (.kernel .puts), some moduleAfterBoot) t :=
    lookup_run_root atModule rfl (by decide) (by simp)
  have resolved : (GraphOp.resolve (some moduleAfterBoot) ⟨1⟩).run.run t =
      .ok () { t with cache := t.cache.insert (some moduleAfterBoot, ⟨1⟩) (.native (.kernel .puts), some moduleAfterBoot) } := by
    simp only [GraphOp.run, EStateM.run_bind, resolve_run, flushed, Std.HashMap.getElem?_empty, walked]
    rfl
  have settled : GraphSettled rememberedStore := by
    have defined' : (GraphOp.defineMethod moduleAfterBoot ⟨1⟩ (.native (.kernel .puts))).run.run moduleStore =
        .ok () definedStore := definedIs ▸ defined
    have resolved' : (GraphOp.resolve (some moduleAfterBoot) ⟨1⟩).run.run definedStore = .ok () rememberedStore := by
      simp only [rememberedStore, definedIs, resolved, endState]
    exact .step (.resolve _ _) (.step (.defineMethod _ _ _) (.step .newModule .boot trivial made) trivial defined')
      trivial resolved'
  have remembered : rememberedStore.cache = t.cache.insert (some moduleAfterBoot, ⟨1⟩)
      (.native (.kernel .puts), some moduleAfterBoot) := by
    simp only [rememberedStore, definedIs, resolved, endState]
  exact ⟨settled, by simp [remembered], method_cache_coherent settled⟩

end Store

end RegisterVM
