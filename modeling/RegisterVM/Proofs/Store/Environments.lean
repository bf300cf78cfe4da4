import RegisterVM.Proofs.Class.Acyclic

set_option autoImplicit false

namespace RegisterVM

def Obj.env? (o : Obj) : Option EnvData :=
  match o.body with
  | .env e => some e
  | _ => none

inductive ObjShape where
  | env (e : EnvData)
  | code (p : Procedure)

def ObjShape.env? : ObjShape → Option EnvData
  | .env e => some e
  | .code _ => none

def Obj.shape (o : Obj) : Option ObjShape :=
  match o.body with
  | .env e => some (.env e)
  | .proc d =>
    match d.code with
    | .compiled p => some (.code p)
    | .native _ => none
  | _ => none

theorem Obj.env?_eq_shape (o : Obj) : o.env? = o.shape.bind ObjShape.env? := by
  unfold env? shape
  cases o.body with
  | proc d =>
    cases d with
    | mk code => cases code <;> rfl
  | _ => rfl

namespace Store

def envAt (st : Store) (r : ObjRef) : Option EnvData := st.heap[r.idx]?.bind Obj.env?

def envsKept : StateOrder Store where
  rel s t := ∀ r, t.envAt r = s.envAt r
  refl _ _ := rfl
  trans first second r := (second r).trans (first r)

def shapeAt (st : Store) (r : ObjRef) : Option ObjShape := st.heap[r.idx]?.bind Obj.shape

def HoldsCode (st : Store) (p : Procedure) : Prop := ∃ r, st.shapeAt r = some (.code p)

def shapesKept : StateOrder Store where
  rel s t := ∀ r, t.shapeAt r = s.shapeAt r ∨
    s.shapeAt r = none ∧ ∃ p, t.shapeAt r = some (.code p) ∧ s.HoldsCode p
  refl _ _ := .inl rfl
  trans {s t u} first second r := by
    rcases second r with same | ⟨unshaped, p, copied, r', held⟩
    · rw [same]
      exact first r
    · -- the code copied in the last store was already in the first
      have source : s.HoldsCode p := by
        rcases first r' with same' | ⟨_, p', copied', held'⟩
        · exact ⟨r', same' ▸ held⟩
        · rw [held] at copied'
          cases copied'
          exact held'
      have before : s.shapeAt r = none := by
        rcases first r with same' | ⟨unshaped', _⟩
        · rw [← same']
          exact unshaped
        · exact unshaped'
      exact .inr ⟨before, p, copied, source⟩

theorem envAt_eq_shapeAt (st : Store) (r : ObjRef) : st.envAt r = (st.shapeAt r).bind ObjShape.env? := by
  unfold envAt shapeAt
  cases st.heap[r.idx]? with
  | none => rfl
  | some o => exact o.env?_eq_shape

theorem envsKept_of_shapesKept {s t : Store} (kept : shapesKept.rel s t) : envsKept.rel s t := by
  intro r
  rw [envAt_eq_shapeAt, envAt_eq_shapeAt]
  rcases kept r with same | ⟨unshaped, p, copied, _⟩
  · rw [same]
  · rw [unshaped, copied]
    rfl

theorem HoldsCode.of_shapesKept {s t : Store} {p : Procedure} (held : s.HoldsCode p)
    (kept : shapesKept.rel s t) : t.HoldsCode p := by
  obtain ⟨r, found⟩ := held
  rcases kept r with same | ⟨unshaped, _⟩
  · exact ⟨r, same.trans found⟩
  · rw [unshaped] at found
    cases found

end Store

theorem Keeps.envs {α : Type} {x : StoreM α} (hx : Keeps Store.shapesKept x) : Keeps Store.envsKept x :=
  fun s => Store.envsKept_of_shapesKept (hx s)

namespace Store

theorem envsKept_modifyObj (r : ObjRef) {f : Obj → Obj} (env : ∀ o, (f o).env? = o.env?) :
    Keeps envsKept (modifyObj r f) := by
  intro st
  rw [modifyObj_run]
  split
  · intro r'
    simp only [endState, envAt, Array.getElem?_modify]
    split
    · cases st.heap[r'.idx]? <;> simp [env]
    · rfl
  · exact envsKept.refl st

theorem envsKept_alloc {o : Obj} (plain : o.env? = none) : Keeps envsKept (alloc o) := by
  intro st r
  rw [alloc_run]
  simp only [endState, envAt, Array.getElem?_push]
  split
  · next fresh => simp [fresh, plain]
  · rfl

theorem shapesKept_of_heap {s t : Store} (heap : t.heap = s.heap) : shapesKept.rel s t :=
  fun r => .inl (by simp [shapeAt, heap])

theorem shapesKept_modify {g : Store → Store} (heap : ∀ s, (g s).heap = s.heap) :
    Keeps shapesKept (modify g : StoreM Unit) := fun s => shapesKept_of_heap (heap s)

theorem shapesKept_modifyObj (r : ObjRef) {f : Obj → Obj} (shape : ∀ o, (f o).shape = o.shape) :
    Keeps shapesKept (modifyObj r f) := by
  intro st
  rw [modifyObj_run]
  split
  · intro r'
    refine .inl ?_
    simp only [endState, shapeAt, Array.getElem?_modify]
    split
    · cases st.heap[r'.idx]? <;> simp [shape]
    · rfl
  · exact shapesKept.refl st

theorem shapesKept_push {st : Store} {o : Obj}
    (made : o.shape = none ∨ ∃ p, o.shape = some (.code p) ∧ st.HoldsCode p) :
    shapesKept.rel st { st with heap := st.heap.push o } := by
  intro r
  have pushed : ({ st with heap := st.heap.push o } : Store).shapeAt r =
      if r.idx = st.heap.size then o.shape else st.shapeAt r := by
    simp only [shapeAt, Array.getElem?_push]
    split <;> rfl
  rw [pushed]
  split
  · next fresh =>
    have unshaped : st.shapeAt r = none := by simp [shapeAt, fresh]
    rcases made with plain | ⟨p, code, held⟩
    · exact .inl (plain.trans unshaped.symm)
    · exact .inr ⟨unshaped, p, code, held⟩
  · exact .inl rfl

theorem shapesKept_alloc {o : Obj} (plain : o.shape = none) : Keeps shapesKept (alloc o) := by
  intro st
  rw [alloc_run]
  exact shapesKept_push (.inl plain)

theorem shapesKept_alloc_copy {st : Store} {r : ObjRef} {o o' : Obj} (found : st.heap[r.idx]? = some o)
    (unheld : o.env? = none) (copy : o'.shape = o.shape) :
    shapesKept.rel st (endState ((alloc o').run st)) := by
  rw [alloc_run]
  refine shapesKept_push ?_
  cases shaped : o.shape with
  | none => exact .inl (copy.trans shaped)
  | some s =>
    cases s with
    | env e =>
      rw [Obj.env?_eq_shape, shaped] at unheld
      cases unheld
    | code p => exact .inr ⟨p, copy.trans shaped, r, by simp [shapeAt, found, shaped]⟩

theorem shapesKept_setObj {st : Store} {r : ObjRef} {o o' : Obj} (found : st.heap[r.idx]? = some o)
    (shape : o'.shape = o.shape) : shapesKept.rel st { st with heap := st.heap.set! r.idx o' } := by
  intro r'
  refine .inl ?_
  simp only [shapeAt, Array.set!_eq_setIfInBounds, Array.getElem?_setIfInBounds]
  split
  · next same =>
    have within : r.idx < st.heap.size := (Array.getElem?_eq_some_iff.mp found).1
    simp [same ▸ found, within, shape]
  · rfl

theorem readOnly_ivarGet (v : Value) (sym : Sym) : ReadOnly (ivarGet v sym) := by
  unfold ivarGet
  split
  · exact Keeps.bind (readOnly_getObj _) fun _ => Keeps.pure _
  · exact Keeps.pure _

theorem readOnly_stringOf? (v : Value) : ReadOnly (stringOf? v) := by
  unfold stringOf?
  split
  · exact Keeps.bind (readOnly_getObj _) fun _ => by split <;> exact Keeps.pure _
  · exact Keeps.pure _

theorem readOnly_arrayOf? (v : Value) : ReadOnly (arrayOf? v) := by
  unfold arrayOf?
  split
  · exact Keeps.bind (readOnly_getObj _) fun _ => by split <;> exact Keeps.pure _
  · exact Keeps.pure _

theorem readOnly_hashOf? (v : Value) : ReadOnly (hashOf? v) := by
  unfold hashOf?
  split
  · exact Keeps.bind (readOnly_getObj _) fun _ => by split <;> exact Keeps.pure _
  · exact Keeps.pure _

theorem readOnly_keyOf (v : Value) : ReadOnly (keyOf v) := by
  unfold keyOf
  split
  all_goals first
    | exact Keeps.pure _
    | (split <;> exact Keeps.pure _)
    | exact Keeps.bind (readOnly_getObj _) fun _ => by split <;> exact Keeps.pure _

theorem readOnly_tableSet (t : HashTable) (k v : Value) : ReadOnly (tableSet t k v) :=
  Keeps.bind (readOnly_keyOf k) fun _ => by split <;> first | exact Keeps.pure _ | exact Keeps.throw _

theorem readOnly_tableGet (t : HashTable) (k : Value) : ReadOnly (tableGet t k) :=
  Keeps.bind (readOnly_keyOf k) fun _ => by split <;> first | exact Keeps.pure _ | exact Keeps.throw _

theorem readOnly_tableDelete (t : HashTable) (k : Value) : ReadOnly (tableDelete t k) :=
  Keeps.bind (readOnly_keyOf k) fun _ => Keeps.bind Keeps.get fun _ => by
    split <;> first | exact Keeps.pure _ | exact Keeps.throw _

theorem readOnly_tableCopy (t : HashTable) : ReadOnly (tableCopy t) := by
  unfold tableCopy
  refine Keeps.bind (Keeps.forIn_list _ _ fun entry out => ?_) fun _ => Keeps.pure _
  obtain ⟨k, v⟩ := entry
  exact Keeps.bind (readOnly_tableSet _ _ _) fun _ => Keeps.pure _

theorem readOnly_real (r : Option ObjRef) : ReadOnly (real r) := by
  have walk : ∀ fuel s, ReadOnly (real.go s fuel) := by
    intro fuel
    induction fuel with
    | zero => exact fun _ => Keeps.pure _
    | succ fuel ih =>
      intro s
      simp only [real.go]
      split
      · exact Keeps.pure _
      · exact Keeps.bind (readOnly_node _) fun _ => by split <;> first | exact ih _ | exact Keeps.pure _
  exact Keeps.bind readOnly_chainFuel fun fuel => walk fuel r

theorem readOnly_realClassOf (v : Value) : ReadOnly (realClassOf v) :=
  Keeps.bind (readOnly_classOf v) readOnly_real

theorem readOnly_realClassName (v : Value) : ReadOnly (realClassName v) :=
  Keeps.bind (readOnly_realClassOf v) readOnly_className

theorem readOnly_ancestors (r : ObjRef) : ReadOnly (ancestors r) := by
  have walk : ∀ fuel s acc, ReadOnly (ancestors.go s fuel acc) := by
    intro fuel
    induction fuel with
    | zero => exact fun _ _ => Keeps.pure _
    | succ fuel ih =>
      intro s acc
      simp only [ancestors.go]
      split
      · exact Keeps.pure _
      · exact Keeps.bind (readOnly_node _) fun _ => ih _ _
  exact Keeps.bind readOnly_chainFuel fun fuel => walk fuel _ _

theorem readOnly_constNames (r : ObjRef) : ReadOnly (constNames r) :=
  Keeps.bind Keeps.get fun _ => Keeps.bind (readOnly_getObj r) fun _ => Keeps.pure _

theorem readOnly_instanceMethods (r : ObjRef) (inherit : Bool) :
    ReadOnly (instanceMethods r inherit) := by
  have walk : ∀ fuel s o s0 seen out, ReadOnly (instanceMethods.go r inherit s o s0 fuel seen out) := by
    intro fuel
    induction fuel with
    | zero => exact fun _ _ _ _ _ => Keeps.pure _
    | succ fuel ih =>
      intro s o s0 seen out
      simp only [instanceMethods.go]
      split
      · exact Keeps.pure _
      · split
        · exact Keeps.pure _
        · exact Keeps.bind (readOnly_tableOf _) fun _ => Keeps.bind (readOnly_superOf _) fun _ => ih _ _ _ _ _
  exact Keeps.bind (readOnly_origin r) fun _ => Keeps.bind Keeps.get fun _ =>
    Keeps.bind readOnly_chainFuel fun fuel => walk fuel _ _ _ _ _

theorem readOnly_render (fuel : Nat) :
    (∀ v, ReadOnly (messageWith fuel v)) ∧ ∀ v shown, ReadOnly (inspectWith fuel v shown) := by
  induction fuel with
  | zero =>
    refine ⟨fun v => by simp only [messageWith]; exact Keeps.pure _, fun v shown => ?_⟩
    cases v with
    | bool b => cases b <;> exact Keeps.pure _
    | sym s => simp only [inspectWith]; exact Keeps.bind Keeps.get fun _ => Keeps.pure _
    | _ => simp only [inspectWith]; exact Keeps.pure _
  | succ fuel ih =>
    obtain ⟨messages, renders⟩ := ih
    refine ⟨fun v => ?_, fun v shown => ?_⟩
    · -- a message is read off the exception, or rendered with less fuel
      simp only [messageWith]
      split
      · refine Keeps.bind (readOnly_getObj _) fun o => ?_
        split
        · split
          · exact readOnly_realClassName _
          · refine Keeps.bind (readOnly_getObj _) fun _ => ?_
            split
            · exact Keeps.pure _
            · exact Keeps.bind (renders _ _) fun _ => Keeps.pure _
          · exact Keeps.bind (renders _ _) fun _ => Keeps.pure _
        · exact Keeps.bind (renders _ _) fun _ => Keeps.pure _
      · exact Keeps.bind (renders _ _) fun _ => Keeps.pure _
    · cases v with
      | bool b => cases b <;> exact Keeps.pure _
      | sym s => simp only [inspectWith]; exact Keeps.bind Keeps.get fun _ => Keeps.pure _
      | obj r =>
        simp only [inspectWith]
        refine Keeps.bind (readOnly_getObj r) fun o => ?_
        -- each kind of body renders its parts with less fuel, some of them in loops
        repeat' first
          | exact Keeps.pure _
          | exact Keeps.get
          | exact messages _
          | exact renders _ _
          | exact readOnly_className _
          | exact readOnly_realClassName _
          | exact readOnly_real _
          | with_reducible refine Keeps.bind ?_ fun _ => ?_
          | refine Keeps.forIn_list _ _ fun _ _ => ?_
          | refine Keeps.forIn_array _ _ fun _ _ => ?_
          | split
      | _ => simp only [inspectWith]; exact Keeps.pure _

theorem readOnly_inspect (v : Value) : ReadOnly (inspect v) :=
  Keeps.bind (Keeps.bind Keeps.get fun _ => Keeps.pure _) fun fuel =>
    Keeps.bind ((readOnly_render fuel).2 v none) fun _ => Keeps.pure _

theorem readOnly_exceptionMessage (v : Value) : ReadOnly (exceptionMessage v) :=
  Keeps.bind (Keeps.bind Keeps.get fun _ => Keeps.pure _) fun fuel => (readOnly_render fuel).1 v

theorem readOnly_defaultToS (v : Value) : ReadOnly (defaultToS v) := by
  unfold defaultToS
  split
  · exact Keeps.pure _
  · exact Keeps.bind Keeps.get fun _ => Keeps.pure _
  · refine Keeps.bind (readOnly_getObj _) fun _ => ?_
    split
    · exact Keeps.pure _
    · exact readOnly_exceptionMessage _
    · exact Keeps.bind (readOnly_realClassName _) fun _ => Keeps.pure _
    · exact readOnly_inspect _
  · exact readOnly_inspect _

theorem getObj_run (r : ObjRef) (st : Store) :
    (getObj r).run st = match st.heap[r.idx]? with
      | some o => .ok o st
      | none => .error .runtime st := by
  cases found : st.heap[r.idx]? with
  | none => simp [getObj, found, EStateM.run_bind]; rfl
  | some o => simp [getObj, found, EStateM.run_bind]

theorem shapesKept_write (text : String) : Keeps shapesKept (write text) := shapesKept_modify fun _ => rfl

theorem shapesKept_intern (name : String) : Keeps shapesKept (intern name) :=
  fun st => shapesKept_of_heap (s := st) rfl

theorem shapesKept_flushCache : Keeps shapesKept flushCache := shapesKept_modify fun _ => rfl

theorem shapesKept_ivarSet (r : ObjRef) (sym : Sym) (v : Value) : Keeps shapesKept (ivarSet r sym v) :=
  shapesKept_modifyObj r fun _ => rfl

theorem shapesKept_newString (text : String) : Keeps shapesKept (newString text) :=
  Keeps.bind (readOnly_wellKnown.keeps _) fun _ => Keeps.bind (shapesKept_alloc rfl) fun _ => Keeps.pure _

theorem shapesKept_newArray (elems : Array Value) : Keeps shapesKept (newArray elems) :=
  Keeps.bind (readOnly_wellKnown.keeps _) fun _ => Keeps.bind (shapesKept_alloc rfl) fun _ => Keeps.pure _

theorem shapesKept_newHash (t : HashTable) : Keeps shapesKept (newHash t) :=
  Keeps.bind (readOnly_wellKnown.keeps _) fun _ => Keeps.bind (shapesKept_alloc rfl) fun _ => Keeps.pure _

theorem shapesKept_newRange (first last : Value) (exclusive : Bool) :
    Keeps shapesKept (newRange first last exclusive) :=
  Keeps.bind (readOnly_wellKnown.keeps _) fun _ => Keeps.bind (shapesKept_alloc rfl) fun _ => Keeps.pure _

theorem shapesKept_newException (cls : ObjRef) (msg : String) : Keeps shapesKept (newException cls msg) :=
  Keeps.bind (shapesKept_newString msg) fun _ => Keeps.bind (shapesKept_alloc rfl) fun _ => Keeps.pure _

theorem shapesKept_newError (cls : Core → ObjRef) (msg : String) : Keeps shapesKept (newError cls msg) :=
  Keeps.bind (readOnly_wellKnown.keeps _) fun _ => shapesKept_newException _ _

theorem shapesKept_frozenError (v : Value) : Keeps shapesKept (frozenError v) :=
  Keeps.bind ((readOnly_realClassName v).keeps _) fun _ =>
    Keeps.bind ((readOnly_inspect v).keeps _) fun _ => shapesKept_newError _ _

theorem shapesKept_objectId (v : Value) : Keeps shapesKept (objectId v) := by
  unfold objectId
  split
  · exact Keeps.pure _
  · rename_i r
    refine Keeps.bind_run ((readOnly_getObj r).keeps _) fun st o t run => ?_
    have same : t = st := (readOnly_getObj r).ok_state run
    subst t
    have found : st.heap[r.idx]? = some o := by
      rw [getObj_run] at run
      split at run <;> simp_all
    split
    · exact shapesKept_setObj found rfl
    · exact shapesKept.refl st
  all_goals exact Keeps.pure _

theorem shapesKept_modifyNode (r : ObjRef) (f : ClassNode → ClassNode) :
    Keeps shapesKept (modifyNode r f) := by
  intro st
  rw [modifyNode_run]
  split
  · next o found =>
    split
    · exact shapesKept_setObj found (by simp [Obj.shape, *])
    · exact shapesKept.refl st
  · exact shapesKept.refl st

theorem shapesKept_resolve (cls : Option ObjRef) (mid : Sym) : Keeps shapesKept (resolve cls mid) := by
  refine Keeps.bind Keeps.get fun _ => ?_
  split
  · exact Keeps.pure _
  · exact Keeps.bind ((readOnly_lookup cls mid).keeps _) fun _ =>
      Keeps.bind (shapesKept_modify fun _ => rfl) fun _ => Keeps.pure _

theorem shapesKept_respondTo (v : Value) (mid : Sym) : Keeps shapesKept (respondTo v mid) :=
  Keeps.bind ((readOnly_classOf v).keeps _) fun _ => Keeps.bind (shapesKept_resolve _ _) fun _ => Keeps.pure _

theorem shapesKept_allocClass (kind : ClassKind) (metaClass : ObjRef) (super : Option ObjRef) :
    Keeps shapesKept (allocClass kind metaClass super) :=
  shapesKept_alloc rfl

theorem shapesKept_defineRaw (r : ObjRef) (mid : Sym) (m : Method) : Keeps shapesKept (defineRaw r mid m) :=
  Keeps.bind ((readOnly_definitionTarget r).keeps _) fun _ =>
    Keeps.bind (shapesKept_modifyNode _ _) fun _ => shapesKept_flushCache

theorem shapesKept_removeMethod (r : ObjRef) (mid : Sym) : Keeps shapesKept (removeMethod r mid) := by
  refine Keeps.bind ((readOnly_origin r).keeps _) fun o => Keeps.bind ((readOnly_node o).keeps _) fun n => ?_
  split
  · exact Keeps.bind (shapesKept_modifyNode _ _) fun _ => Keeps.bind shapesKept_flushCache fun _ => Keeps.pure _
  · exact Keeps.pure _

theorem shapesKept_aliasMethod (r : ObjRef) (new old : Sym) : Keeps shapesKept (aliasMethod r new old) := by
  refine Keeps.bind (shapesKept_resolve _ _) fun found => ?_
  split
  · exact Keeps.bind (shapesKept_defineRaw _ _ _) fun _ => Keeps.pure _
  · exact Keeps.pure _

theorem shapesKept_newIncludeNode (m : ObjRef) (super : Option ObjRef) :
    Keeps shapesKept (newIncludeNode m super) :=
  Keeps.bind ((readOnly_node m).keeps _) fun _ => Keeps.bind (readOnly_wellKnown.keeps _) fun _ =>
    shapesKept_alloc rfl

theorem shapesKept_includeAt (r insPos m : ObjRef) (searchSuper : Bool) :
    Keeps shapesKept (includeAt r insPos m searchSuper) := by
  have walk : ∀ fuel s insPos, Keeps shapesKept (includeAt.go r searchSuper s insPos fuel) := by
    intro fuel
    induction fuel with
    | zero => exact fun _ _ => Keeps.pure _
    | succ fuel ih =>
      intro s insPos
      simp only [includeAt.go]
      split
      · exact Keeps.pure _
      · refine Keeps.bind ((readOnly_node _).keeps _) fun n => ?_
        split
        · exact Keeps.pure _
        split
        · exact ih _ _
        refine Keeps.bind ((readOnly_findIncluded _ _ _ _).keeps _) fun found => ?_
        split
        · exact ih _ _
        exact Keeps.bind ((readOnly_superOf _).keeps _) fun _ =>
          Keeps.bind (shapesKept_newIncludeNode _ _) fun _ => Keeps.bind (shapesKept_modifyNode _ _) fun _ => ih _ _
  exact Keeps.bind (readOnly_chainFuel.keeps _) fun fuel => walk fuel _ _

theorem shapesKept_includeModule (r m : ObjRef) : Keeps shapesKept (includeModule r m) := by
  refine Keeps.bind ((readOnly_checkMixin r m).keeps _) fun refused => ?_
  split
  · exact Keeps.pure _
  · exact Keeps.bind ((readOnly_origin r).keeps _) fun _ => Keeps.bind (shapesKept_includeAt _ _ _ _) fun _ =>
      Keeps.bind shapesKept_flushCache fun _ => Keeps.pure _

theorem shapesKept_prependModule (r m : ObjRef) : Keeps shapesKept (prependModule r m) := by
  refine Keeps.bind ((readOnly_checkMixin r m).keeps _) fun refused => ?_
  split
  · exact Keeps.pure _
  · have splice : Keeps shapesKept
        (includeAt r r m false >>= fun _ => flushCache >>= fun _ => pure (none : Option MixinError)) :=
      Keeps.bind (shapesKept_includeAt _ _ _ _) fun _ => Keeps.bind shapesKept_flushCache fun _ => Keeps.pure _
    refine Keeps.bind ((readOnly_node r).keeps _) fun n => ?_
    dsimp only
    split
    · exact Keeps.bind (readOnly_wellKnown.keeps _) fun _ => Keeps.bind (shapesKept_alloc rfl) fun _ =>
        Keeps.bind (shapesKept_modifyNode _ _) fun _ => splice
    · exact splice

theorem shapesKept_singletonClassOf (v : Value) : Keeps shapesKept (singletonClassOf v) := by
  have walk : ∀ fuel v, Keeps shapesKept (singletonClassOf.go v fuel) := by
    intro fuel
    induction fuel with
    | zero => exact fun _ => Keeps.pure _
    | succ fuel ih =>
      intro v
      simp only [singletonClassOf.go]
      split
      · rename_i r
        refine Keeps.bind (readOnly_wellKnown.keeps _) fun c => ?_
        refine Keeps.bind ((readOnly_getObj r).keeps _) fun o => ?_
        -- the new singleton class hangs below the class found for it, in every branch
        have hang : ∀ {x : StoreM (Option ObjRef)}, Keeps shapesKept x → Keeps shapesKept (do
            let super ← x
            let sc ← allocClass .singleton c.klass super
            ivarSet sc c.symAttached (.obj r)
            modifyObj r fun o => { o with cls := some sc }
            flushCache
            pure (some sc)) := fun hx =>
          Keeps.bind hx fun _ => Keeps.bind (shapesKept_allocClass _ _ _) fun _ =>
            Keeps.bind (shapesKept_ivarSet _ _ _) fun _ => Keeps.bind (shapesKept_modifyObj r fun _ => rfl) fun _ =>
              Keeps.bind shapesKept_flushCache fun _ => Keeps.pure _
        -- an existing singleton class is answered; a new one hangs below the singleton class of
        -- an ordinary class's superclass (or Class), or below the object's class
        split
        · refine Keeps.bind ((readOnly_node _).keeps _) fun kn => ?_
          refine Keeps.bind ((readOnly_getObj _).keeps _) fun kObj => ?_
          split
          · exact Keeps.pure _
          · split
            · split
              · refine Keeps.bind ((readOnly_superclass r).keeps _) fun found => ?_
                split
                · exact hang (ih _)
                · exact hang (Keeps.pure _)
              · exact hang (Keeps.pure _)
            · exact hang (Keeps.pure _)
        · split
          · split
            · refine Keeps.bind ((readOnly_superclass r).keeps _) fun found => ?_
              split
              · exact hang (ih _)
              · exact hang (Keeps.pure _)
            · exact hang (Keeps.pure _)
          · exact hang (Keeps.pure _)
      · exact Keeps.pure _
  exact Keeps.bind (readOnly_chainFuel.keeps _) fun fuel => walk fuel v

theorem shapesKept_setClassName (r : ObjRef) (outer : Option ObjRef) (name : Sym) :
    Keeps shapesKept (setClassName r outer name) := by
  refine Keeps.bind (readOnly_wellKnown.keeps _) fun c => Keeps.bind (shapesKept_ivarSet _ _ _) fun _ => ?_
  split
  · exact Keeps.bind (shapesKept_ivarSet _ _ _) fun _ => shapesKept_ivarSet _ _ _
  · exact Keeps.pure _

theorem shapesKept_defineClass (name : String) (super outer : Option ObjRef) :
    Keeps shapesKept (defineClass name super outer) := by
  refine Keeps.bind (readOnly_wellKnown.keeps _) fun c => ?_
  refine Keeps.bind (shapesKept_intern name) fun sym => ?_
  refine Keeps.bind ((readOnly_ivarFind _ _).keeps _) fun found => ?_
  split
  · refine Keeps.bind ((readOnly_classOf? _).keeps _) fun named => ?_
    split
    · split
      · exact Keeps.pure _
      · refine Keeps.bind ((readOnly_superclass _).keeps _) fun _ => ?_
        split <;> exact Keeps.pure _
    · exact Keeps.pure _
  · refine Keeps.bind ((readOnly_node _).keeps _) fun n => ?_
    split
    · exact Keeps.pure _
    · exact Keeps.bind (shapesKept_allocClass _ _ _) fun k => Keeps.bind (shapesKept_setClassName _ _ _) fun _ =>
        Keeps.bind (shapesKept_singletonClassOf _) fun _ => Keeps.pure _

theorem shapesKept_defineModule (name : String) (outer : Option ObjRef) :
    Keeps shapesKept (defineModule name outer) := by
  refine Keeps.bind (readOnly_wellKnown.keeps _) fun c => ?_
  refine Keeps.bind (shapesKept_intern name) fun sym => ?_
  refine Keeps.bind ((readOnly_ivarFind _ _).keeps _) fun found => ?_
  split
  · refine Keeps.bind ((readOnly_classOf? _).keeps _) fun named => ?_
    split
    · split <;> exact Keeps.pure _
    · exact Keeps.pure _
  · exact Keeps.bind (shapesKept_allocClass _ _ _) fun m => Keeps.bind (shapesKept_setClassName _ _ _) fun _ =>
      Keeps.pure _

theorem shapesKept_newClass (super : ObjRef) : Keeps shapesKept (newClass super) :=
  Keeps.bind (readOnly_wellKnown.keeps _) fun _ => Keeps.bind (shapesKept_allocClass _ _ _) fun _ =>
    Keeps.bind (shapesKept_singletonClassOf _) fun _ => Keeps.pure _

theorem shapesKept_newModule : Keeps shapesKept newModule :=
  Keeps.bind (readOnly_wellKnown.keeps _) fun _ => shapesKept_allocClass _ _ _

theorem shapesKept_constSet (r : ObjRef) (sym : Sym) (v : Value) : Keeps shapesKept (constSet r sym v) := by
  refine Keeps.bind (readOnly_wellKnown.keeps _) fun c => ?_
  refine Keeps.bind ((readOnly_classOf? v).keeps _) fun found => ?_
  split
  · refine Keeps.bind ((readOnly_ivarFind _ _).keeps _) fun name => ?_
    split
    · exact shapesKept_setClassName _ _ _
    · exact shapesKept_ivarSet _ _ _
  · exact shapesKept_ivarSet _ _ _

theorem shapesKept_setCore (f : Core → Core) : Keeps shapesKept (setCore f) := shapesKept_modify fun _ => rfl

theorem shapesKept_defineNative (k : ObjRef) (name : String) (p : Primitive) :
    Keeps shapesKept (defineNative k name p) :=
  Keeps.bind (shapesKept_intern name) fun _ => shapesKept_defineRaw _ _ _

theorem shapesKept_nativeProc (p : Primitive) : Keeps shapesKept (nativeProc p) :=
  Keeps.bind (readOnly_wellKnown.keeps _) fun _ => shapesKept_alloc rfl

theorem shapesKept_mustDefine {r : StoreM (Except String ObjRef)} (hr : Keeps shapesKept r) :
    Keeps shapesKept (mustDefine r) := by
  refine Keeps.bind hr fun found => ?_
  cases found with
  | ok k => exact Keeps.pure _
  | error msg => exact Keeps.throw _

theorem shapesKept_defineAll (k : ObjRef) (onSingleton : Bool) (items : List (String × Primitive)) :
    Keeps shapesKept (defineAll k onSingleton items) := by
  have loop : ∀ target : ObjRef, Keeps shapesKept (do
      forIn items PUnit.unit fun x _ => do
        defineNative target x.1 x.2
        pure (ForInStep.yield PUnit.unit)
      pure ()) := fun target =>
    Keeps.bind (Keeps.forIn_list _ _ fun _ _ => Keeps.bind (shapesKept_defineNative _ _ _) fun _ => Keeps.pure _)
      fun _ => Keeps.pure _
  unfold defineAll
  dsimp only
  split
  · refine Keeps.bind (shapesKept_singletonClassOf _) fun found => ?_
    split
    · exact Keeps.bind (Keeps.pure _) loop
    · exact Keeps.bind (Keeps.throw _) loop
  · exact Keeps.bind (Keeps.pure _) loop

theorem shapesKept_bootRoots : Keeps shapesKept bootRoots :=
  Keeps.bind Keeps.get fun _ => Keeps.bind (shapesKept_allocClass _ _ _) fun _ =>
    Keeps.bind (shapesKept_allocClass _ _ _) fun _ => Keeps.bind (shapesKept_allocClass _ _ _) fun _ =>
      Keeps.bind (shapesKept_allocClass _ _ _) fun _ => Keeps.bind (shapesKept_setCore _) fun _ => Keeps.pure _

theorem shapesKept_boot : Keeps shapesKept boot := by
  unfold boot
  refine Keeps.bind shapesKept_bootRoots fun roots => ?_
  dsimp only
  -- every step is one of the operations above, in sequence, in a loop, or in a branch
  repeat' first
    | with_reducible refine Keeps.bind ?_ fun _ => ?_
    | with_reducible exact shapesKept_defineAll _ _ _
    | with_reducible exact shapesKept_mustDefine (shapesKept_defineClass _ _ _)
    | with_reducible exact shapesKept_mustDefine (shapesKept_defineModule _ _)
    | with_reducible exact shapesKept_setCore _
    | with_reducible exact shapesKept_intern _
    | with_reducible exact Keeps.pure _
    | with_reducible refine Keeps.forIn_list _ _ fun _ _ => ?_
    | with_reducible exact shapesKept_setClassName _ _ _
    | with_reducible exact shapesKept_defineRaw _ _ _
    | with_reducible exact shapesKept_constSet _ _ _
    | with_reducible exact shapesKept_singletonClassOf _
    | with_reducible exact shapesKept_nativeProc _
    | with_reducible exact shapesKept_alloc rfl
    | with_reducible exact readOnly_wellKnown.keeps _
    | with_reducible exact shapesKept_includeModule _ _
    | exact Keeps.throw _
    | split

theorem shapeAt_boot (r : ObjRef) : (endState (boot.run {})).shapeAt r = none := by
  rcases shapesKept_boot {} r with same | ⟨_, p, _, r', held⟩
  · rw [same]
    simp [shapeAt]
  · simp [shapeAt] at held

theorem envAt_boot (r : ObjRef) : (endState (boot.run {})).envAt r = none := by
  rw [envAt_eq_shapeAt, shapeAt_boot]
  rfl

end Store

end RegisterVM
