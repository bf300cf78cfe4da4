import RegisterVM.Proofs.Class.Metaclass

set_option autoImplicit false

namespace RegisterVM

def Sure {ε σ α : Type} (P : σ → Prop) (x : EStateM ε σ α) (Q : α → σ → Prop) : Prop :=
  ∀ s, P s → ∃ a t, x.run s = .ok a t ∧ Q a t

def Reaches {ε σ α : Type} (P : σ → Prop) (x : EStateM ε σ α) (I : σ → Prop) : Prop :=
  ∀ s, P s → I (endState (x.run s))

namespace Sure

variable {ε σ α β : Type} {P : σ → Prop} {Q Q' : α → σ → Prop} {R : β → σ → Prop}

theorem bind {x : EStateM ε σ α} {f : α → EStateM ε σ β} (hx : Sure P x Q)
    (hf : ∀ a, Sure (Q a) (f a) R) : Sure P (x >>= f) R := by
  intro s pre
  obtain ⟨a, t, run, post⟩ := hx s pre
  obtain ⟨b, u, run', post'⟩ := hf a t post
  exact ⟨b, u, by rw [EStateM.run_bind, run]; exact run', post'⟩

theorem pure_of {a : α} (post : ∀ s, P s → Q a s) : Sure P (Pure.pure a : EStateM ε σ α) Q :=
  fun s pre => ⟨a, s, rfl, post s pre⟩

theorem mono {x : EStateM ε σ α} (hx : Sure P x Q) (post : ∀ a t, Q a t → Q' a t) :
    Sure P x Q' := fun s pre =>
  let ⟨a, t, run, q⟩ := hx s pre
  ⟨a, t, run, post a t q⟩

theorem forIn_list {γ : Type} (xs : List γ) (b : β) {f : γ → β → EStateM ε σ (ForInStep β)}
    (hf : ∀ a ∈ xs, ∀ b, Sure P (f a b) (fun _ => P)) : Sure P (forIn xs b f) (fun _ => P) := by
  induction xs generalizing b with
  | nil => exact pure_of fun _ h => h
  | cons a rest ih =>
    rw [List.forIn_cons]
    refine bind (hf a List.mem_cons_self b) fun step => ?_
    cases step with
    | done b' => exact pure_of fun _ h => h
    | yield b' => exact ih b' fun a' mem => hf a' (List.mem_cons_of_mem _ mem)

end Sure

namespace Reaches

variable {ε σ α β : Type} {P I : σ → Prop} {Q : α → σ → Prop}

theorem sure_bind {x : EStateM ε σ α} {f : α → EStateM ε σ β} (hx : Sure P x Q)
    (hf : ∀ a, Reaches (Q a) (f a) I) : Reaches P (x >>= f) I := by
  intro s pre
  obtain ⟨a, t, run, post⟩ := hx s pre
  rw [EStateM.run_bind, run]
  exact hf a t post

theorem of_triple {x : EStateM ε σ α} (hx : Triple I (fun _ => True) (fun _ _ => True) x) :
    Reaches I x I := fun s inv => (hx s inv trivial).1

end Reaches

theorem SymbolTable.Sound.eq_of_ids {α : Type} [BEq α] [Hashable α] {t : SymbolTable α}
    (sound : t.Sound) {m n : α} {id : Nat} (hm : t.ids.get? m = some id)
    (hn : t.ids.get? n = some id) : m = n := by
  have slot_m := ((sound.numbered m id).mp hm).2
  have slot_n := ((sound.numbered n id).mp hn).2
  rw [slot_m] at slot_n
  exact Option.some.inj slot_n

namespace Store

def InOrder (st : Store) : List ObjRef → Prop
  | [] => True
  | k :: rest => k ∉ rest ∧ st.kindAt k = some .ordinary ∧ st.clsAt k = some st.core.klass ∧
      (∃ d, st.link k = some d ∧ ∀ D, d = some D → st.kindAt D = some .ordinary ∧ D ∉ k :: rest) ∧
      st.InOrder rest

structure Waiting (st : Store) (l : List ObjRef) : Prop where
  others : st.MetaclassedBut l
  inOrder : st.InOrder l
  klass : st.kindAt st.core.klass = some .ordinary
  sound : st.symbols.Sound
  attachedName : st.symbols.ids.get? "__attached__" = some st.core.symAttached.id

section Waiting

variable {s t st : Store} {l : List ObjRef}

theorem InOrder.ordinary {k : ObjRef} (h : st.InOrder l) (mem : k ∈ l) :
    st.kindAt k = some .ordinary := by
  induction l with
  | nil => cases mem
  | cons k' rest ih =>
    rcases List.mem_cons.mp mem with rfl | later
    · exact h.2.1
    · exact ih h.2.2.2.2 later

theorem InOrder.mono (h : s.InOrder l) (kinds : ∀ r k, s.kindAt r = some k → t.kindAt r = some k)
    (links : ∀ y a, s.link y = some a → t.link y = some a) (classes : ∀ c ∈ l, t.clsAt c = s.clsAt c)
    (klass : t.core.klass = s.core.klass) : t.InOrder l := by
  induction l with
  | nil => trivial
  | cons k rest ih =>
    obtain ⟨fresh, ordinary, cls, ⟨d, linked, outer⟩, later⟩ := h
    refine ⟨fresh, kinds _ _ ordinary, ?_, ⟨d, links _ _ linked, fun D same => ?_⟩,
      ih later fun c mem => classes c (List.mem_cons_of_mem _ mem)⟩
    · rw [classes k List.mem_cons_self, cls, klass]
    · exact (outer D same).imp_left (kinds _ _)

theorem Waiting.of_metaKept (w : s.Waiting l) (kept : metaKept.rel s t)
    (links : ∀ y a, s.link y = some a → t.link y = some a) : t.Waiting l where
  others := w.others.of_shapeKept kept.1 fun c ordinary _ => kept.2 c ordinary
  inOrder := w.inOrder.mono kept.1.kinds links (fun c mem => kept.2 c (w.inOrder.ordinary mem))
    kept.1.klass
  klass := by rw [kept.1.klass]; exact kept.1.kinds _ _ w.klass
  sound := kept.1.sound w.sound
  attachedName := by rw [kept.1.symAttached]; exact kept.1.symbols _ _ w.attachedName

theorem Waiting.metaclassed (w : st.Waiting []) : st.Metaclassed :=
  ⟨w.klass, w.sound, w.attachedName, w.others⟩

theorem Waiting.singletonClassOf_run {k : ObjRef} (w : st.Waiting (k :: l)) :
    ∃ sc t, (singletonClassOf (.obj k)).run st = .ok (some sc) t ∧ t.Waiting l := by
  obtain ⟨fresh, ordinary, cls, ⟨d, linked, outer⟩, later⟩ := w.inOrder
  obtain ⟨sc, t, run, classes, kept, others, links⟩ :=
    singletonClassOf_pending w.others ordinary linked outer cls w.klass
  -- the classes still waiting are old ordinary classes other than `k`
  have same : ∀ c ∈ l, t.clsAt c = st.clsAt c := fun c mem =>
    others c (fun here => fresh (here ▸ mem))
      (within_of_kindAt (later.ordinary mem))
  refine ⟨sc, t, run, classes, later.mono kept.kinds links same kept.klass, ?_,
    kept.sound w.sound, ?_⟩
  · rw [kept.klass]
    exact kept.kinds _ _ w.klass
  · rw [kept.symAttached]
    exact kept.symbols _ _ w.attachedName

theorem Waiting.metaclasses {f : ObjRef → PUnit → StoreM (ForInStep PUnit)}
    (body : ∀ k b, f k b = (do let _ ← singletonClassOf (.obj k); pure (ForInStep.yield PUnit.unit))) :
    Sure (Waiting · l) (forIn l PUnit.unit f) (fun _ t => t.Metaclassed) := by
  induction l with
  | nil => exact Sure.pure_of fun _ w => w.metaclassed
  | cons k rest ih =>
    intro st w
    obtain ⟨sc, t, run, w'⟩ := w.singletonClassOf_run
    obtain ⟨u, v, run', done⟩ := ih t w'
    refine ⟨u, v, ?_, done⟩
    rw [List.forIn_cons, EStateM.run_bind, body, EStateM.run_bind, run]
    exact run'

theorem Waiting.setClassName_sure {k o : ObjRef} (hk : k ∈ l) (ho : o ∈ l) (name : Sym) :
    Sure (Waiting · l) (setClassName k (some o) name) (fun _ t => t.Waiting l) := by
  intro st w
  have ordinary := w.inOrder.ordinary hk
  have outer := w.inOrder.ordinary ho
  -- the outer class is an ordinary class, so no metaclass: its slot for the name is free
  have free : ∀ o', some o = some o' → st.SlotFree o' name := by
    rintro o' ⟨⟩
    refine ⟨within_of_kindAt outer, fun c single => ?_⟩
    rw [outer] at single
    cases single
  obtain ⟨t, run, kept, links⟩ := setClassName_run
    (within_of_kindAt ordinary) (by rw [ordinary]; simp) free
  exact ⟨(), t, run, w.of_metaKept kept links⟩

end Waiting

def rootClasses : List ObjRef := [⟨0⟩, ⟨1⟩, ⟨2⟩, ⟨3⟩]

structure RootsReady (st : Store) : Prop where
  onlyRoots : ∀ c, st.kindAt c = some .ordinary → c ∈ rootClasses
  inOrder : st.InOrder rootClasses
  klass : st.kindAt st.core.klass = some .ordinary
  sound : st.symbols.Sound

section Roots

variable {s t : Store}

theorem RootsReady.of_heap (h : s.RootsReady) (heap : t.heap = s.heap)
    (klass : t.core.klass = s.core.klass) (sound : t.symbols.Sound) : t.RootsReady := by
  have kinds : ∀ r, t.kindAt r = s.kindAt r := fun r => by simp only [kindAt, nodeAt, heap]
  refine ⟨fun c ordinary => h.onlyRoots c (by rwa [← kinds]), h.inOrder.mono
    (fun r k found => by rwa [kinds]) (fun y a linked => by simpa only [link, heap] using linked)
    (fun c _ => by simp only [clsAt, heap]) klass, by rw [klass, kinds]; exact h.klass, sound⟩

theorem RootsReady.waiting (h : s.RootsReady)
    (attachedName : s.symbols.ids.get? "__attached__" = some s.core.symAttached.id) :
    s.Waiting rootClasses :=
  ⟨fun c ordinary waiting => absurd (h.onlyRoots c ordinary) waiting, h.inOrder, h.klass, h.sound,
    attachedName⟩

theorem rootsReady_bootRoots : RootsReady (endState (bootRoots.run {})) := by
  refine ⟨fun c ordinary => ?_, ?_, rfl, SymbolTable.empty_sound ""⟩
  · obtain ⟨i⟩ := c
    match i, ordinary with
    | 0, _ => simp [rootClasses]
    | 1, _ => simp [rootClasses]
    | 2, _ => simp [rootClasses]
    | 3, _ => simp [rootClasses]
    | i + 4, ordinary => cases ordinary
  · refine ⟨by decide, rfl, rfl, ⟨none, rfl, fun D none_ => by cases none_⟩,
      by decide, rfl, rfl, ⟨some ⟨0⟩, rfl, fun D same => ?_⟩,
      by decide, rfl, rfl, ⟨some ⟨1⟩, rfl, fun D same => ?_⟩,
      by decide, rfl, rfl, ⟨some ⟨2⟩, rfl, fun D same => ?_⟩, trivial⟩ <;>
    · cases same
      exact ⟨rfl, by decide⟩

theorem sure_intern {P : Store → Prop} (name : String)
    (kept : ∀ st : Store, P st → P { st with symbols := (st.symbols.intern name).1 }) :
    Sure P (intern name) (fun sym t => P t ∧ t.symbols.ids.get? name = some sym.id) :=
  fun st pre => ⟨_, _, intern_run name, kept st pre, SymbolTable.intern_known _ _⟩

theorem RootsReady.intern (h : s.RootsReady) (name : String) :
    RootsReady { s with symbols := (s.symbols.intern name).1 } :=
  h.of_heap rfl rfl (h.sound.intern name)

theorem setCore_attached_sure {sa : Sym} {f : Core → Core} (klass : ∀ c, (f c).klass = c.klass)
    (attached : ∀ c, (f c).symAttached = sa) :
    Sure (fun st => st.RootsReady ∧ st.symbols.ids.get? "__attached__" = some sa.id) (setCore f)
      (fun _ t => t.Waiting rootClasses) := by
  rintro st ⟨ready, known⟩
  refine ⟨(), { st with core := f st.core }, rfl,
    (ready.of_heap (t := { st with core := f st.core }) rfl (klass _) ready.sound).waiting ?_⟩
  rw [attached]
  exact known

end Roots

section Waiting

variable {l : List ObjRef}

theorem Waiting.intern_sure (name : String) :
    Sure (Waiting · l) (intern name) (fun _ t => t.Waiting l) :=
  fun st w => ⟨_, _, intern_run name, w.of_metaKept (metaKept_intern name st) fun _ _ h => h⟩

theorem Waiting.setCore_sure {f : Core → Core} (klass : ∀ c, (f c).klass = c.klass)
    (attached : ∀ c, (f c).symAttached = c.symAttached) :
    Sure (Waiting · l) (setCore f) (fun _ t => t.Waiting l) :=
  fun st w => ⟨(), _, rfl, w.of_metaKept (metaKept_setCore klass attached st) fun _ _ h => h⟩

end Waiting

section Builtin

theorem meta_mustDefine {r : StoreM (Except String ObjRef)}
    (hr : Triple Metaclassed (fun _ => True) (fun _ _ => True) r) :
    Triple Metaclassed (fun _ => True) (fun _ _ => True) (mustDefine r) := by
  refine Triple.bind_true hr fun found => ?_
  cases found with
  | ok k => exact Triple.pure_of fun _ _ => trivial
  | error msg => exact Triple.throw _

theorem meta_defineAll (k : ObjRef) (onSingleton : Bool) (items : List (String × Primitive)) :
    Triple Metaclassed (fun _ => True) (fun _ _ => True) (defineAll k onSingleton items) := by
  unfold defineAll
  -- the target, then a loop of definitions on it
  repeat' first
    | with_reducible exact Triple.pure_of fun _ _ => trivial
    | with_reducible exact meta_singletonClassOf _
    | with_reducible exact meta_of_keeps (metaKept_defineNative _ _ _)
    | exact Triple.throw _
    | with_reducible refine Triple.bind_true ?_ fun _ => ?_
    | with_reducible refine Triple.forIn_list _ _ fun _ _ => ?_
    | split

theorem meta_intern_other (name : String) (other : name ≠ "__attached__") :
    Triple Metaclassed (fun _ => True) (fun sym t => sym ≠ t.core.symAttached) (intern name) := by
  intro st inv _
  refine ⟨inv.of_metaKept (metaKept_intern name st), fun sym t run => ?_⟩
  rw [intern_run] at run
  cases run
  intro same
  have attached : (st.symbols.intern name).1.ids.get? "__attached__" = some st.core.symAttached.id :=
    SymbolTable.extends_intern _ _ _ _ inv.attachedName
  have named := SymbolTable.intern_known st.symbols name
  rw [same] at named
  exact other ((inv.sound.intern name).eq_of_ids named attached)

theorem meta_constSet_plain (r : ObjRef) (sym : Sym) {v : Value} (plain : ∀ o, v ≠ .obj o) :
    Triple Metaclassed (fun st => sym ≠ st.core.symAttached) (fun _ _ => True)
      (constSet r sym v) := by
  intro st inv other
  -- a value that is no object names no class to be named after the constant
  have run : (constSet r sym v).run st = (ivarSet r sym v).run st := by
    cases v with
    | obj o => exact absurd rfl (plain o)
    | _ => rfl
  rw [run]
  exact ⟨inv.of_metaKept (metaKept_ivarSet r sym v fun _ _ _ => other), fun _ _ _ => trivial⟩

theorem meta_constSet_named {β : Type} (r : ObjRef) (name : String) (other : name ≠ "__attached__")
    {v : Value} (plain : ∀ o, v ≠ .obj o) {k : PUnit → StoreM β}
    (hk : ∀ u, Triple Metaclassed (fun _ => True) (fun _ _ => True) (k u)) :
    Triple Metaclassed (fun _ => True) (fun _ _ => True)
      (intern name >>= fun sym => constSet r sym v >>= k) :=
  Triple.bind (meta_intern_other name other) fun sym =>
    Triple.bind (meta_constSet_plain r sym plain) hk

end Builtin

theorem metaclassed_boot : Metaclassed (endState (boot.run {})) := by
  have roots : bootRoots.run {} = .ok (⟨0⟩, ⟨1⟩, ⟨2⟩, ⟨3⟩) (endState (bootRoots.run {})) := rfl
  unfold boot
  rw [EStateM.run_bind, roots]
  refine (?_ : Reaches RootsReady _ Metaclassed) _ rootsReady_bootRoots
  dsimp only
  -- the engine's symbols; from the third on the table numbers "__attached__" by `sa`
  refine Reaches.sure_bind ((sure_intern _ fun st h => h.intern _).mono fun _ _ h => h.1) fun _ => ?_
  refine Reaches.sure_bind ((sure_intern _ fun st h => h.intern _).mono fun _ _ h => h.1) fun _ => ?_
  refine Reaches.sure_bind (sure_intern "__attached__" fun st h => h.intern _) fun sa => ?_
  have keepsKnown : ∀ name (st : Store),
      st.RootsReady ∧ st.symbols.ids.get? "__attached__" = some sa.id →
      RootsReady { st with symbols := (st.symbols.intern name).1 } ∧
        (st.symbols.intern name).1.ids.get? "__attached__" = some sa.id :=
    fun name st h => ⟨h.1.intern name, SymbolTable.extends_intern _ _ _ _ h.2⟩
  refine Reaches.sure_bind ((sure_intern _ (keepsKnown _)).mono fun _ _ h => h.1) fun _ => ?_
  refine Reaches.sure_bind ((sure_intern _ (keepsKnown _)).mono fun _ _ h => h.1) fun _ => ?_
  refine Reaches.sure_bind ((sure_intern _ (keepsKnown _)).mono fun _ _ h => h.1) fun _ => ?_
  refine Reaches.sure_bind (Sure.forIn_list _ _ fun x _ b => ?_) fun _ => ?_
  · obtain ⟨op, name⟩ := x
    exact Sure.bind ((sure_intern _ (keepsKnown _)).mono fun _ _ h => h.1) fun _ =>
      Sure.pure_of fun _ h => h
  -- the core records the symbol, and the roots wait for their metaclasses
  refine Reaches.sure_bind (setCore_attached_sure (fun _ => rfl) fun _ => rfl) fun _ => ?_
  refine Reaches.sure_bind (Waiting.setCore_sure (fun _ => rfl) fun _ => rfl) fun _ => ?_
  refine Reaches.sure_bind (Sure.forIn_list _ _ fun x mem b => ?_) fun _ => ?_
  · obtain ⟨name, k⟩ := x
    have hk : k ∈ rootClasses := List.mem_map_of_mem (f := Prod.snd) mem
    exact Sure.bind (Waiting.intern_sure _) fun sym =>
      Sure.bind (Waiting.setClassName_sure hk (by decide) sym) fun _ => Sure.pure_of fun _ h => h
  refine Reaches.sure_bind (Waiting.metaclasses fun _ _ => rfl) fun _ => Reaches.of_triple ?_
  -- from here on every step keeps every metaclass
  repeat' first
    | with_reducible refine meta_constSet_named _ _ (by simp) (fun _ => by simp) fun _ => ?_
    | with_reducible refine Triple.bind_true ?_ fun _ => ?_
    | with_reducible exact meta_defineAll _ _ _
    | with_reducible exact meta_mustDefine (meta_defineClass _ _ _)
    | with_reducible exact meta_mustDefine (meta_defineModule _ _)
    | with_reducible exact meta_of_keeps (metaKept_setCore (fun _ => rfl) fun _ => rfl)
    | with_reducible exact meta_of_keeps (metaKept_intern _)
    | with_reducible exact Triple.pure_of fun _ _ => trivial
    | with_reducible refine Triple.forIn_list _ _ fun _ _ => ?_
    | with_reducible exact meta_of_keeps (metaKept_defineRaw _ _ _)
    | with_reducible exact meta_singletonClassOf _
    | with_reducible exact meta_of_keeps (metaKept_nativeProc _)
    | with_reducible exact meta_includeModule _ _
    | exact Triple.throw _
    | exact meta_of_keeps (metaKept_alloc fun _ made => by cases made)
    | split

end Store

theorem CheckedSettled.metaclassed {st : Store} (settled : CheckedSettled st) : st.Metaclassed := by
  induction settled with
  | boot => exact Store.metaclassed_boot
  | step op _ checked run ih =>
    have kept := (Store.meta_graphOp op _ ih checked).1
    rwa [run] at kept

namespace Store

def hidesClass (k : ClassKind) : Bool := k == .singleton || k.isInner

section Walks

variable {st : Store}

theorem Skips.append {skip : ClassKind → Bool} {a b c : Option ObjRef}
    (first : st.Skips ClassKind.isInner a b) (wider : ∀ k, k.isInner = true → skip k = true)
    (next : st.Skips skip b c) : st.Skips skip a c := by
  induction first with
  | none => exact next
  | stop _ _ => exact next
  | pass found inner _ ih => exact .pass found (wider _ inner) (ih next)

theorem Chain.tail_of_nodeAt {p : ObjRef} {n : ClassNode} {l : List ObjRef}
    (chain : Chain st (some p) l) (found : st.nodeAt p = some n) :
    ∃ l', l = p :: l' ∧ Chain st n.super l' := by
  cases chain with
  | @cons _ s l linked rest =>
    have same : n.super = s := by simpa [link_eq_nodeAt, found] using linked
    exact ⟨l, rfl, same ▸ rest⟩

theorem Skips.chain {skip : ClassKind → Bool} {a b : Option ObjRef} {l : List ObjRef}
    (h : st.Skips skip a b) (chain : Chain st a l) :
    ∃ pre rest, l = pre ++ rest ∧ Chain st b rest ∧
      ∀ p ∈ pre, ∃ n, st.nodeAt p = some n ∧ skip n.kind = true := by
  induction h generalizing l with
  | none => exact ⟨[], l, rfl, chain, by simp⟩
  | stop _ _ => exact ⟨[], l, rfl, chain, by simp⟩
  | @pass p n t found passes _ ih =>
    obtain ⟨l', rfl, rest⟩ := chain.tail_of_nodeAt found
    obtain ⟨pre, tail, rfl, chain', skipped⟩ := ih rest
    refine ⟨p :: pre, tail, rfl, chain', fun q mem => ?_⟩
    rcases List.mem_cons.mp mem with rfl | later
    · exact ⟨n, found, passes⟩
    · exact skipped q later

theorem walk_run {skip : ClassKind → Bool} {go : Option ObjRef → Nat → StoreM (Option ObjRef)}
    (ends : ∀ f, go none (f + 1) = pure none)
    (step : ∀ p f, go (some p) (f + 1) =
      (do let n ← node p; if skip n.kind then go n.super f else pure (some p)))
    {a b : Option ObjRef} {l : List ObjRef} (h : st.Skips skip a b) (chain : Chain st a l)
    {fuel : Nat} (enough : l.length < fuel) : (go a fuel).run st = .ok b st := by
  obtain ⟨f, rfl⟩ : ∃ f, fuel = f + 1 := Nat.exists_eq_add_one_of_ne_zero (by omega)
  induction h generalizing l f with
  | none => rw [ends]; rfl
  | stop found shown =>
    rw [step]
    simp only [EStateM.run_bind, node_run_nodeAt, found, answerIn_some, shown, Bool.false_eq_true,
      if_false]
    rfl
  | pass found passes _ ih =>
    obtain ⟨l', rfl, rest⟩ := chain.tail_of_nodeAt found
    obtain ⟨f', rfl⟩ : ∃ f', f = f' + 1 :=
      Nat.exists_eq_add_one_of_ne_zero (by simp at enough; omega)
    rw [step]
    simp only [EStateM.run_bind, node_run_nodeAt, found, answerIn_some, passes, if_true]
    exact ih rest f' (by simp at enough; omega)

theorem superclass_run {r : ObjRef} {d : Option ObjRef} (above : st.Above r d) {l : List ObjRef}
    (chain : Chain st (some r) l) : (superclass r).run st = .ok d st := by
  obtain ⟨n, found, next⟩ := above
  obtain ⟨l', rfl, rest⟩ := chain.tail_of_nodeAt found
  simp only [superclass, EStateM.run_bind, superOf_run, found, Option.map_some, answerIn_some,
    chainFuel]
  exact walk_run (fun _ => rfl) (fun _ _ => rfl) next rest (Nat.lt_succ_of_le rest.length_le)

theorem real_run {a b : Option ObjRef} {l : List ObjRef} (h : st.Skips hidesClass a b)
    (chain : Chain st a l) : (real a).run st = .ok b st := by
  simp only [real, chainFuel, EStateM.run_bind]
  exact walk_run (fun _ => rfl) (fun _ _ => rfl) h chain (Nat.lt_succ_of_le chain.length_le)

theorem classOf_obj_run {c : ObjRef} (within : c.idx < st.heap.size) :
    (classOf (.obj c)).run st = .ok (st.clsAt c) st := by
  obtain ⟨o, found⟩ : ∃ o, st.heap[c.idx]? = some o := ⟨_, Array.getElem?_eq_getElem within⟩
  simp only [classOf, wellKnown, getObj, EStateM.run_bind, EStateM.run_get, EStateM.run_pure]
  rw [found]
  simp only [clsAt, found, Option.bind_some]
  rfl

theorem Above.chain_split {r T : ObjRef} (above : st.Above r (some T)) {l : List ObjRef}
    (chain : Chain st (some r) l) :
    ∃ pre rest, l = r :: (pre ++ T :: rest) ∧ Chain st (some T) (T :: rest) ∧
      ∀ p ∈ pre, ∃ n, st.nodeAt p = some n ∧ n.kind.isInner = true := by
  obtain ⟨n, found, next⟩ := above
  obtain ⟨l', rfl, rest⟩ := chain.tail_of_nodeAt found
  obtain ⟨pre, tail, rfl, chainT, inner⟩ := next.chain rest
  cases chainT with
  | @cons _ _ rest' linkedT restT => exact ⟨pre, rest', rfl, .cons linkedT restT, inner⟩

theorem firstEntry_append {mid : Sym} {pre : List ObjRef} (l : List ObjRef)
    (absent : ∀ p ∈ pre, ∃ tb, st.tableAt p = some tb ∧ tb.get? mid = none) :
    st.firstEntry mid (pre ++ l) = st.firstEntry mid l := by
  induction pre with
  | nil => rfl
  | cons p pre ih =>
    obtain ⟨tb, table, entry⟩ := absent p List.mem_cons_self
    simp only [List.cons_append, firstEntry, table, Option.bind_eq_bind, Option.bind_some, entry]
    exact ih fun q mem => absent q (List.mem_cons_of_mem _ mem)

theorem resolve_of_absent (moored : st.Moored) (coherent : st.CacheCoherent) {a T : ObjRef}
    {pre rest : List ObjRef} {mid : Sym} (chain : Chain st (some a) (pre ++ T :: rest))
    (later : Chain st (some T) (T :: rest))
    (absent : ∀ p ∈ pre, ∀ tb, st.tableAt p = some tb → tb.get? mid = none) :
    ∃ ans t u, (resolve (some a) mid).run st = .ok ans t ∧ (resolve (some T) mid).run st = .ok ans u := by
  -- every node of the chain has a table
  have tables : ∀ p ∈ pre, ∃ tb, st.tableAt p = some tb ∧ tb.get? mid = none := by
    intro p mem
    obtain ⟨l', chainP, -⟩ := chain.of_mem (List.mem_append_left _ mem)
    cases chainP with
    | cons linked _ =>
      obtain ⟨tb, table⟩ := moored.tableAt_of_link linked
      exact ⟨tb, table, absent p mem tb table⟩
  obtain ⟨e, -, walkT⟩ := moored.lookup_run later mid
  have walk : (lookup (some a) mid).run st = .ok e st := by
    rw [lookup_run chain, firstEntry_append _ tables, ← lookup_run later]
    exact walkT
  obtain ⟨t, resolved⟩ := coherent.resolve_answer walk
  obtain ⟨u, resolvedT⟩ := coherent.resolve_answer walkT
  exact ⟨_, t, u, resolved, resolvedT⟩

end Walks

theorem Metaclassed.hidden_to_klass {st : Store} (inv : st.Metaclassed) (acyclic : st.Acyclic)
    {c : ObjRef} (ordinary : st.kindAt c = some .ordinary) :
    st.Skips hidesClass (st.clsAt c) (some st.core.klass) := by
  -- on the length of the chain of the class: the superclass's chain is a proper tail of it
  suffices ∀ n (c : ObjRef) (l : List ObjRef), Chain st (some c) l → l.length ≤ n →
      st.kindAt c = some .ordinary → st.Skips hidesClass (st.clsAt c) (some st.core.klass) by
    obtain ⟨nc, at_c, -⟩ := Option.map_eq_some_iff.mp ordinary
    obtain ⟨l, chain⟩ := acyclic.ends_of_link (r := c) (by simp [link_eq_nodeAt, at_c])
    exact this l.length c l chain le_rfl ordinary
  intro n
  induction n with
  | zero =>
    intro c l chain short _
    cases chain
    simp at short
  | succ n ih =>
    intro c l chain short ordinary
    obtain ⟨⟨s, d, cls, single, -, above, outer, ns, at_s, passes⟩, -⟩ :=
      inv.classes c ordinary List.not_mem_nil
    have hidden : hidesClass ns.kind = true := by
      have kind_s : st.kindAt s = some ns.kind := by simp [kindAt, at_s]
      rw [single] at kind_s
      simp [hidesClass, ← Option.some.inj kind_s]
    rw [cls]
    refine .pass at_s hidden (passes.append (fun k inner => by simp [hidesClass, inner]) ?_)
    cases d with
    | none =>
      -- above a root lies Class, an ordinary class
      obtain ⟨nk, at_k, kind_k⟩ := Option.map_eq_some_iff.mp inv.klass
      exact .stop at_k (by simp [hidesClass, kind_k, ClassKind.isInner])
    | some D =>
      obtain ⟨nc, at_c, next⟩ := above
      obtain ⟨l', rfl, rest⟩ := chain.tail_of_nodeAt at_c
      obtain ⟨pre, tail, rfl, chainD, -⟩ := next.chain rest
      exact ih D tail chainD (by simp at short; omega) (outer D rfl)

def InheritsClassMethods (st : Store) (c : ObjRef) : Prop :=
  ∃ s sup T pre rest,
    (classOf (.obj c)).run st = .ok (some s) st ∧ st.kindAt s = some .singleton ∧
    st.attachedAt s = some (.obj c) ∧
    (realClassOf (.obj c)).run st = .ok (some st.core.klass) st ∧
    (superclass c).run st = .ok sup st ∧
    (∀ D, sup = some D → (classOf (.obj D)).run st = .ok (some T) st ∧
      st.kindAt T = some .singleton ∧ st.attachedAt T = some (.obj D)) ∧
    (sup = none → T = st.core.klass) ∧
    Chain st (some s) (s :: (pre ++ T :: rest)) ∧
    (∀ p ∈ pre, ∃ n, st.nodeAt p = some n ∧ n.kind.isInner = true) ∧
    ∀ mid, (∀ p ∈ s :: pre, ∀ tb, st.tableAt p = some tb → tb.get? mid = none) →
      ∃ ans t u, (resolve (some s) mid).run st = .ok ans t ∧
        (resolve (some T) mid).run st = .ok ans u

theorem class_methods_inherited {st : Store} (settled : CheckedSettled st) {c : ObjRef}
    (ordinary : st.kindAt c = some .ordinary) : st.InheritsClassMethods c := by
  have inv := settled.metaclassed
  have reach := settled.graphSettled.reachable
  have acyclic := reach.acyclic
  obtain ⟨⟨s, d, cls, single, attached, above, outer, metaAbove⟩, -⟩ :=
    inv.classes c ordinary List.not_mem_nil
  obtain ⟨nc, at_c, -⟩ := Option.map_eq_some_iff.mp ordinary
  obtain ⟨ns, at_s, -⟩ := Option.map_eq_some_iff.mp single
  obtain ⟨lc, chainC⟩ := acyclic.ends_of_link (r := c) (by simp [link_eq_nodeAt, at_c])
  obtain ⟨ls, chainS⟩ := acyclic.ends_of_link (r := s) (by simp [link_eq_nodeAt, at_s])
  have classOf_c := classOf_obj_run (within_of_nodeAt at_c)
  rw [cls] at classOf_c
  -- the metaclass of the superclass, or Class above a root
  obtain ⟨T, metaT, ofSuper, ofRoot⟩ : ∃ T, st.metaOf d = some T ∧
      (∀ D, d = some D → (classOf (.obj D)).run st = .ok (some T) st ∧
        st.kindAt T = some .singleton ∧ st.attachedAt T = some (.obj D)) ∧
      (d = none → T = st.core.klass) := by
    cases d with
    | none => exact ⟨st.core.klass, rfl, (fun _ none_ => nomatch none_), fun _ => rfl⟩
    | some D =>
      obtain ⟨⟨sD, -, clsD, singleD, attachedD, -⟩, -⟩ :=
        inv.classes D (outer D rfl) List.not_mem_nil
      obtain ⟨nD, at_D, -⟩ := Option.map_eq_some_iff.mp (outer D rfl)
      refine ⟨sD, clsD, fun D' same => ?_, (fun none_ => nomatch none_)⟩
      cases same
      exact ⟨by rw [classOf_obj_run (within_of_nodeAt at_D), clsD], singleD, attachedD⟩
  rw [metaT] at metaAbove
  obtain ⟨pre, rest, rfl, chainT, inner⟩ := metaAbove.chain_split chainS
  refine ⟨s, d, T, pre, rest, classOf_c, single, attached, ?_, superclass_run above chainC,
    ofSuper, ofRoot, chainS, inner, fun mid absent => ?_⟩
  · -- past the singleton classes and inner nodes lies Class
    have hidden := inv.hidden_to_klass acyclic ordinary
    rw [cls] at hidden
    simp only [realClassOf, EStateM.run_bind, classOf_c]
    exact real_run hidden chainS
  · exact resolve_of_absent reach.moored settled.graphSettled.coherent chainS chainT absent

theorem boot_class_inherits_class_methods :
    CheckedSettled (endState (Store.boot.run {})) ∧
      (endState (Store.boot.run {})).kindAt (endState (Store.boot.run {})).core.klass =
        some .ordinary ∧
      (endState (Store.boot.run {})).InheritsClassMethods (endState (Store.boot.run {})).core.klass :=
  ⟨.boot, metaclassed_boot.klass, @class_methods_inherited _ .boot _ metaclassed_boot.klass⟩

end Store

end RegisterVM
