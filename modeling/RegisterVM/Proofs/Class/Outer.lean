import Mathlib.Logic.Relation
import RegisterVM.Proofs.Class.Cache

set_option autoImplicit false

namespace RegisterVM

section Redirect

variable {α : Type} {R R' : α → α → Prop} {k r : α} {P : Prop}

theorem not_self_of_acc {S : α → α → Prop} {a : α} (acc : Acc S a) : ¬ S a a := by
  induction acc with
  | intro a _ ih => exact fun self => ih a self self

def Redirects (R R' : α → α → Prop) (k r : α) (P : Prop) : Prop :=
  ∀ a b, R' a b ↔ (a = k ∧ P ∧ b = r) ∨ (a ≠ k ∧ R a b)

theorem Redirects.old (redirect : Redirects R R' k r P) {a b : α} (away : a ≠ k) (step : R' a b) :
    R a b := by
  rcases (redirect a b).1 step with ⟨here, _⟩ | ⟨_, old⟩
  · exact absurd here away
  · exact old

theorem Redirects.walk (redirect : Redirects R R' k r P) {a : α}
    (walk : Relation.ReflTransGen R a k) : Relation.ReflTransGen R' a k := by
  refine Relation.ReflTransGen.head_induction_on walk .refl ?_
  intro a c step _ ih
  by_cases here : a = k
  · subst here
    exact .refl
  · exact .head ((redirect a c).2 (.inr ⟨here, step⟩)) ih

theorem Redirects.acc_away (redirect : Redirects R R' k r P) {a : α} (acc : Acc (flip R) a)
    (far : ¬ Relation.ReflTransGen R a k) : Acc (flip R') a := by
  induction acc with
  | intro a _ ih =>
    refine .intro a fun b step => ?_
    have away : a ≠ k := fun here => far (here ▸ .refl)
    have old : R a b := redirect.old away step
    exact ih b old fun walk => far (.head old walk)

theorem Redirects.acc_iff (redirect : Redirects R R' k r P) (ends : ∀ a, Acc (flip R) a) :
    (∀ a, Acc (flip R') a) ↔ ¬ (P ∧ Relation.ReflTransGen R r k) := by
  constructor
  · rintro ends' ⟨present, walk⟩
    have cycle : Relation.TransGen R' k k :=
      .head' ((redirect k r).2 (.inl ⟨rfl, present, rfl⟩)) (redirect.walk walk)
    exact not_self_of_acc (ends' k).transGen (Relation.transGen_swap.2 cycle)
  · intro acyclic
    -- the one successor of `k` is `r`, from which `k` cannot be reached
    have at_k : Acc (flip R') k := by
      refine .intro k fun b step => ?_
      rcases (redirect k b).1 step with ⟨_, present, rfl⟩ | ⟨away, _⟩
      · exact redirect.acc_away (ends b) fun walk => acyclic ⟨present, walk⟩
      · exact absurd rfl away
    intro a
    induction ends a with
    | intro a _ ih =>
      by_cases here : a = k
      · exact here ▸ at_k
      · exact .intro a fun b step => ih b (redirect.old here step)

end Redirect

namespace Store

def entry (st : Store) (r : ObjRef) (sym : Sym) : Option Value :=
  st.heap[r.idx]?.bind (·.ivars.get? sym)

def IsClass (st : Store) (r : ObjRef) : Prop := (st.link r).isSome

def Anonymous (st : Store) (k : ObjRef) : Prop :=
  st.IsClass k ∧ st.entry k st.core.symClassName = none

def OuterLink (st : Store) (a b : ObjRef) : Prop :=
  a ≠ st.core.object ∧ st.IsClass a ∧ st.IsClass b ∧ st.entry a st.core.symOuter = some (.obj b)

def OuterEnds (st : Store) : Prop := ∀ r, Acc (flip st.OuterLink) r

def withIvar (st : Store) (r : ObjRef) (sym : Sym) (v : Value) : Store :=
  { st with heap := st.heap.modify r.idx fun o => { o with ivars := o.ivars.insert sym v } }

theorem ivarSet_run (r : ObjRef) (sym : Sym) (v : Value) (st : Store) :
    (ivarSet r sym v).run st =
      if r.idx < st.heap.size then .ok () (st.withIvar r sym v) else .error .runtime st :=
  modifyObj_run r _ st

section WithIvar

variable {st : Store} {r a : ObjRef} {sym s : Sym} {v : Value}

@[simp] theorem core_withIvar : (st.withIvar r sym v).core = st.core := rfl

@[simp] theorem size_withIvar : (st.withIvar r sym v).heap.size = st.heap.size := by
  simp [withIvar]

@[simp] theorem link_withIvar : (st.withIvar r sym v).link a = st.link a := by
  rw [withIvar, link_modify]
  split
  · rename_i same
    cases found : st.heap[a.idx]? <;> simp [link, found, Obj.link]
  · rfl

@[simp] theorem isClass_withIvar : (st.withIvar r sym v).IsClass a ↔ st.IsClass a := by
  simp [IsClass]

theorem entry_withIvar (within : r.idx < st.heap.size) :
    (st.withIvar r sym v).entry a s = if a = r ∧ sym = s then some v else st.entry a s := by
  simp only [entry, withIvar, Array.getElem?_modify]
  by_cases same : a = r
  · subst same
    obtain ⟨o, found⟩ : ∃ o, st.heap[a.idx]? = some o := ⟨_, Array.getElem?_eq_getElem within⟩
    by_cases named : sym = s <;> simp [found, named, Std.HashMap.getElem?_insert]
  · have apart : r.idx ≠ a.idx := fun h => same (by cases a; cases r; simp_all)
    simp [same, apart]

end WithIvar

theorem IsClass.exists {st : Store} {k : ObjRef} (cls : st.IsClass k) :
    ∃ o n, st.heap[k.idx]? = some o ∧ o.body = .cls n := by
  unfold IsClass link at cls
  cases found : st.heap[k.idx]? with
  | none => simp [found] at cls
  | some o =>
    cases body : o.body <;> simp_all [Obj.link]

theorem IsClass.within {st : Store} {k : ObjRef} (cls : st.IsClass k) : k.idx < st.heap.size := by
  obtain ⟨_, _, found, _⟩ := cls.exists
  exact (Array.getElem?_eq_some_iff.1 found).1

section ConstSet

variable {st t : Store} {r k : ObjRef} {sym : Sym} {v : Value}

def named (st : Store) (r k : ObjRef) (sym : Sym) : Store :=
  ((st.withIvar k st.core.symClassName (.sym sym)).withIvar k st.core.symOuter (.obj r)).withIvar
    r sym (.obj k)

theorem constSet_run_named (anon : st.Anonymous k) :
    (constSet r sym (.obj k)).run st = (ivarSet r sym (.obj k)).run
      ((st.withIvar k st.core.symClassName (.sym sym)).withIvar k st.core.symOuter (.obj r)) := by
  obtain ⟨o, n, found, body⟩ := anon.1.exists
  have inside : k.idx < st.heap.size := anon.1.within
  have get : st.heap[k.idx] = o :=
    Option.some.inj ((Array.getElem?_eq_getElem inside).symm.trans found)
  have none : o.ivars.get? st.core.symClassName = none := by simpa [entry, found] using anon.2
  have unnamed : st.core.symClassName ∉ o.ivars := by
    rw [Std.HashMap.mem_iff_isSome_getElem?, ← Std.HashMap.get?_eq_getElem?, none]
    simp
  simp [constSet, classOf?, ivarFind, getObj, setClassName, wellKnown, get, body, unnamed,
    EStateM.run_bind, ivarSet_run, inside]

theorem constSet_stored (plain : ∀ k, v = .obj k → ¬ st.Anonymous k)
    (run : (constSet r sym v).run st = .ok () t) :
    r.idx < st.heap.size ∧ t = st.withIvar r sym v := by
  have stored : (ivarSet r sym v).run st = .ok () t →
      r.idx < st.heap.size ∧ t = st.withIvar r sym v := by
    rw [ivarSet_run]
    split
    · intro same; cases same; exact ⟨‹_›, rfl⟩
    · intro same; cases same
  cases v with
  | obj k =>
    -- a dangling reference faults before anything is stored
    cases found : st.heap[k.idx]? with
    | none =>
      simp [constSet, classOf?, getObj, wellKnown, found, runtimeFault] at run
    | some o =>
      cases body : o.body with
      | cls n =>
        -- a class that already has a name is stored like any other value
        have cls : st.IsClass k := by simp [IsClass, link, found, Obj.link, body]
        have mem : st.core.symClassName ∈ o.ivars := by
          rw [Std.HashMap.mem_iff_isSome_getElem?, ← Std.HashMap.get?_eq_getElem?,
            Option.isSome_iff_ne_none]
          intro none
          exact plain k rfl ⟨cls, by simpa [entry, found] using none⟩
        simp [constSet, classOf?, getObj, wellKnown, found, body, ivarFind, mem] at run
        exact stored run
      | _ =>
        simp [constSet, classOf?, getObj, wellKnown, found, body] at run
        exact stored run
  | _ =>
    simp [constSet, classOf?, wellKnown] at run
    exact stored run

theorem constSet_inv (run : (constSet r sym v).run st = .ok () t) :
    r.idx < st.heap.size ∧ ((∃ k, v = .obj k ∧ st.Anonymous k ∧ t = st.named r k sym) ∨
      ((∀ k, v = .obj k → ¬ st.Anonymous k) ∧ t = st.withIvar r sym v)) := by
  by_cases naming : ∃ k, v = .obj k ∧ st.Anonymous k
  · obtain ⟨k, rfl, anon⟩ := naming
    rw [constSet_run_named anon, ivarSet_run] at run
    split at run
    · rename_i within
      cases run
      exact ⟨by simpa using within, .inl ⟨k, rfl, anon, rfl⟩⟩
    · cases run
  · have plain : ∀ k, v = .obj k → ¬ st.Anonymous k := fun k same anon => naming ⟨k, same, anon⟩
    obtain ⟨within, stored⟩ := constSet_stored plain run
    exact ⟨within, .inr ⟨plain, stored⟩⟩

end ConstSet

section Links

variable {st : Store} {r k a b : ObjRef} {sym : Sym} {v : Value}

theorem isClass_of_outerWalk (walk : Relation.ReflTransGen st.OuterLink a b)
    (cls : st.IsClass b) : st.IsClass a := by
  cases walk.cases_head with
  | inl same => exact same ▸ cls
  | inr step =>
    obtain ⟨_, link, _⟩ := step
    exact link.2.1

theorem outerLink_withIvar (within : r.idx < st.heap.size) (slot : sym ≠ st.core.symOuter) :
    (st.withIvar r sym v).OuterLink a b ↔ st.OuterLink a b := by
  simp [OuterLink, entry_withIvar within, slot]

theorem outerLink_named (anon : st.Anonymous k) (within : r.idx < st.heap.size)
    (slot : sym ≠ st.core.symOuter) :
    Redirects st.OuterLink (st.named r k sym).OuterLink k r (k ≠ st.core.object ∧ st.IsClass r) := by
  intro a b
  have inside := anon.1.within
  simp only [OuterLink, named, core_withIvar, isClass_withIvar]
  rw [entry_withIvar (by simpa using within), entry_withIvar (by simpa using inside),
    entry_withIvar inside]
  -- the entry stored in `r` is never `__outer__`, and the name entry of `k` is overwritten
  by_cases here : a = k
  · subst here
    simp only [slot, and_false, if_false, and_self, if_true, Option.some.injEq, Value.obj.injEq]
    constructor
    · rintro ⟨apart, _, cls, rfl⟩
      exact .inl ⟨trivial, ⟨apart, cls⟩, rfl⟩
    · rintro (⟨_, ⟨apart, cls⟩, rfl⟩ | ⟨away, _⟩)
      · exact ⟨apart, anon.1, cls, rfl⟩
      · exact absurd rfl away
  · simp [here, slot]

end Links

theorem naming_keeps_outer_links_ending_iff {st t : Store} {r : ObjRef} {sym : Sym} {v : Value}
    (ends : st.OuterEnds) (slot : sym ≠ st.core.symOuter)
    (run : (constSet r sym v).run st = .ok () t) :
    t.OuterEnds ↔ ∀ k, v = .obj k → st.Anonymous k → k ≠ st.core.object →
      ¬ Relation.ReflTransGen st.OuterLink r k := by
  obtain ⟨within, ⟨k, rfl, anon, rfl⟩ | ⟨plain, rfl⟩⟩ := constSet_inv run
  · -- the named class now links to the receiver, and nothing else changed
    rw [OuterEnds, (outerLink_named anon within slot).acc_iff ends]
    constructor
    · rintro acyclic k' same - apart walk
      cases same
      exact acyclic ⟨⟨apart, isClass_of_outerWalk walk anon.1⟩, walk⟩
    · rintro fine ⟨⟨apart, -⟩, walk⟩
      exact fine k rfl anon apart walk
  · -- any other value leaves every outer link as it was
    have same : (st.withIvar r sym v).OuterLink = st.OuterLink := by
      funext a b
      exact propext (outerLink_withIvar within slot)
    refine iff_of_true ?_ fun k stored anon => absurd anon (plain k stored)
    rw [OuterEnds, same]
    exact ends

def objectAndModule : Store :=
  { heap := #[{ cls := none, body := .cls { kind := .ordinary } },
      { cls := none, body := .cls { kind := .module } }],
    core := { object := ⟨0⟩, symClassName := ⟨1⟩, symOuter := ⟨2⟩ } }

theorem objectAndModule_isClass (i : Nat) (inside : i < 2) : objectAndModule.IsClass ⟨i⟩ := by
  match i, inside with
  | 0, _ => rfl
  | 1, _ => rfl

theorem objectAndModule_entry (a : ObjRef) (s : Sym) : objectAndModule.entry a s = none := by
  obtain ⟨i⟩ := a
  match i with
  | 0 => simp [entry, objectAndModule]
  | 1 => simp [entry, objectAndModule]
  | i + 2 => simp [entry, objectAndModule]

theorem objectAndModule_outerEnds : objectAndModule.OuterEnds :=
  -- no object has an `__outer__` entry, so there is no link to follow
  fun a => .intro a fun b link => absurd link.2.2.2 (by simp [objectAndModule_entry])

theorem module_named_under_object_links_end :
    (constSet ⟨0⟩ ⟨3⟩ (.obj ⟨1⟩)).run objectAndModule =
        .ok () (objectAndModule.named ⟨0⟩ ⟨1⟩ ⟨3⟩) ∧
      objectAndModule.OuterEnds ∧ (⟨3⟩ : Sym) ≠ objectAndModule.core.symOuter ∧
      ((objectAndModule.named ⟨0⟩ ⟨1⟩ ⟨3⟩).OuterEnds ↔
        ∀ k, Value.obj ⟨1⟩ = .obj k → objectAndModule.Anonymous k → k ≠ objectAndModule.core.object →
          ¬ Relation.ReflTransGen objectAndModule.OuterLink ⟨0⟩ k) := by
  have anon : objectAndModule.Anonymous ⟨1⟩ := ⟨objectAndModule_isClass 1 (by decide), objectAndModule_entry _ _⟩
  have run : (constSet ⟨0⟩ ⟨3⟩ (.obj ⟨1⟩)).run objectAndModule =
      .ok () (objectAndModule.named ⟨0⟩ ⟨1⟩ ⟨3⟩) := by
    rw [constSet_run_named anon, ivarSet_run, if_pos (by simp [objectAndModule])]
    rfl
  exact ⟨run, objectAndModule_outerEnds, by decide,
    naming_keeps_outer_links_ending_iff objectAndModule_outerEnds (by decide) run⟩

theorem module_named_under_itself :
    (constSet ⟨1⟩ ⟨3⟩ (.obj ⟨1⟩)).run objectAndModule =
        .ok () (objectAndModule.named ⟨1⟩ ⟨1⟩ ⟨3⟩) ∧
      (objectAndModule.named ⟨1⟩ ⟨1⟩ ⟨3⟩).OuterLink ⟨1⟩ ⟨1⟩ ∧
      ¬ (objectAndModule.named ⟨1⟩ ⟨1⟩ ⟨3⟩).OuterEnds := by
  have cls : objectAndModule.IsClass ⟨1⟩ := objectAndModule_isClass 1 (by decide)
  have run : (constSet ⟨1⟩ ⟨3⟩ (.obj ⟨1⟩)).run objectAndModule =
      .ok () (objectAndModule.named ⟨1⟩ ⟨1⟩ ⟨3⟩) := by
    rw [constSet_run_named ⟨cls, objectAndModule_entry _ _⟩, ivarSet_run, if_pos (by simp [objectAndModule])]
    rfl
  have loop : (objectAndModule.named ⟨1⟩ ⟨1⟩ ⟨3⟩).OuterLink ⟨1⟩ ⟨1⟩ := by
    refine ⟨by decide, by simpa [named] using cls, by simpa [named] using cls, ?_⟩
    simp only [named, core_withIvar]
    rw [entry_withIvar (by simp [objectAndModule]), entry_withIvar (by simp [objectAndModule])]
    simp [objectAndModule]
  exact ⟨run, loop, fun ends => not_self_of_acc (ends ⟨1⟩) loop⟩

end Store

end RegisterVM
