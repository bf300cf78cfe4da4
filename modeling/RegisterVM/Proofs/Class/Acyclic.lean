import Mathlib.Data.Finset.Card
import RegisterVM.Proofs.Machine.Effect
import RegisterVM.Machine.Boot

set_option autoImplicit false

namespace RegisterVM

def Obj.link (o : Obj) : Option (Option ObjRef) :=
  match o.body with
  | .cls n => some n.super
  | _ => none

def Triple {ε σ α : Type} (I P : σ → Prop) (Q : α → σ → Prop) (x : EStateM ε σ α) : Prop :=
  ∀ s, I s → P s → I (endState (x.run s)) ∧ ∀ a t, x.run s = .ok a t → Q a t

namespace Triple

variable {ε σ α β : Type} {I P : σ → Prop} {Q : α → σ → Prop} {R : β → σ → Prop}

theorem bind {x : EStateM ε σ α} {f : α → EStateM ε σ β} (hx : Triple I P Q x)
    (hf : ∀ a, Triple I (Q a) R (f a)) : Triple I P R (x >>= f) := by
  intro s inv pre
  have first := hx s inv pre
  rw [EStateM.run_bind]
  cases run : x.run s with
  | ok a t =>
    rw [run] at first
    exact hf a t first.1 (first.2 a t rfl)
  | error e t =>
    rw [run] at first
    exact ⟨first.1, fun _ _ h => by cases h⟩

theorem pure (a : α) : Triple I (Q a) Q (Pure.pure a : EStateM ε σ α) :=
  fun _ inv pre => ⟨inv, fun _ _ run => by cases run; exact pre⟩

theorem pure_of {a : α} (post : ∀ s, P s → Q a s) : Triple I P Q (Pure.pure a : EStateM ε σ α) :=
  fun s inv pre => ⟨inv, fun _ _ run => by cases run; exact post s pre⟩

theorem pure_inv {a : α} (post : ∀ s, I s → P s → Q a s) : Triple I P Q (Pure.pure a : EStateM ε σ α) :=
  fun s inv pre => ⟨inv, fun _ _ run => by cases run; exact post s inv pre⟩

theorem bind_true {x : EStateM ε σ α} {f : α → EStateM ε σ β}
    (hx : Triple I (fun _ => True) (fun _ _ => True) x)
    (hf : ∀ a, Triple I (fun _ => True) (fun _ _ => True) (f a)) :
    Triple I (fun _ => True) (fun _ _ => True) (x >>= f) :=
  bind hx hf

theorem forIn_list {γ : Type} (xs : List γ) (b : β) {f : γ → β → EStateM ε σ (ForInStep β)}
    (hf : ∀ a b, Triple I (fun _ => True) (fun _ _ => True) (f a b)) :
    Triple I (fun _ => True) (fun _ _ => True) (forIn xs b f) := by
  induction xs generalizing b with
  | nil => exact fun s inv _ => ⟨inv, fun _ _ _ => trivial⟩
  | cons a rest ih =>
    rw [List.forIn_cons]
    refine bind (hf a b) fun step => ?_
    cases step with
    | done b' => exact fun s inv _ => ⟨inv, fun _ _ _ => trivial⟩
    | yield b' => exact ih b'

theorem weaken {x : EStateM ε σ α} (hx : Triple I (fun _ => True) Q x) : Triple I P Q x :=
  fun s inv _ => hx s inv trivial

theorem throw (e : ε) : Triple I P Q (MonadExcept.throw e : EStateM ε σ α) :=
  fun _ inv _ => ⟨inv, fun _ _ run => by cases run⟩

theorem mono {P' : σ → Prop} {Q' : α → σ → Prop} {x : EStateM ε σ α} (hx : Triple I P Q x)
    (pre : ∀ s, P' s → P s) (post : ∀ a s, Q a s → Q' a s) : Triple I P' Q' x :=
  fun s inv h => (hx s inv (pre s h)).imp_right fun ok a t run => post a t (ok a t run)

theorem of_readOnly {x : EStateM ε σ α} (hx : ReadOnly x) :
    Triple I P (fun a t => P t ∧ x.run t = .ok a t) x := by
  intro s inv pre
  have same : s = endState (x.run s) := hx s
  refine ⟨same ▸ inv, fun a t run => ?_⟩
  rw [run] at same
  subst same
  exact ⟨pre, run⟩

theorem of_keeps {o : StateOrder σ} {x : EStateM ε σ α} (hx : Keeps o x)
    (inv : ∀ s t, o.rel s t → I s → I t) (stable : ∀ s t, o.rel s t → P s → P t) :
    Triple I P (fun _ => P) x := by
  intro s i p
  have kept := hx s
  refine ⟨inv _ _ kept i, fun a t run => ?_⟩
  rw [run] at kept
  exact stable _ _ kept p

end Triple

namespace Store

def link (st : Store) (r : ObjRef) : Option (Option ObjRef) := st.heap[r.idx]?.bind Obj.link

inductive Chain (st : Store) : Option ObjRef → List ObjRef → Prop
  | nil : Chain st none []
  | cons {r : ObjRef} {s : Option ObjRef} {l : List ObjRef} :
      st.link r = some s → Chain st s l → Chain st (some r) (r :: l)

def Ends (st : Store) (s : Option ObjRef) : Prop := ∃ l, Chain st s l

def ChainsEnd (st : Store) : Prop := ∀ r s, st.link r = some s → st.Ends s

structure Acyclic (st : Store) : Prop where
  ends : st.ChainsEnd
  klass : st.link st.core.klass ≠ none

theorem lt_size_of_link {st : Store} {r : ObjRef} {s : Option ObjRef}
    (linked : st.link r = some s) : r.idx < st.heap.size := by
  unfold link at linked
  cases found : st.heap[r.idx]? with
  | none => simp [found] at linked
  | some o =>
    obtain ⟨within, _⟩ := Array.getElem?_eq_some_iff.mp found
    exact within

namespace Chain

variable {st : Store}

theorem determ {s : Option ObjRef} {l l' : List ObjRef} (h : Chain st s l) (h' : Chain st s l') :
    l = l' := by
  induction h generalizing l' with
  | nil => cases h'; rfl
  | cons linked _ ih =>
    cases h' with
    | cons linked' rest =>
      rw [linked] at linked'
      cases linked'
      rw [ih rest]

theorem mono {st' : Store} (kept : ∀ r s, st.link r = some s → st'.link r = some s)
    {s : Option ObjRef} {l : List ObjRef} (h : Chain st s l) : Chain st' s l := by
  induction h with
  | nil => exact .nil
  | cons linked _ ih => exact .cons (kept _ _ linked) ih

theorem of_mem {s : Option ObjRef} {l : List ObjRef} (h : Chain st s l) {p : ObjRef} (mem : p ∈ l) :
    ∃ l', Chain st (some p) l' ∧ l'.length ≤ l.length := by
  induction h with
  | nil => simp at mem
  | @cons r _ l linked rest ih =>
    rcases List.mem_cons.mp mem with same | later
    · subst same
      exact ⟨_, .cons linked rest, Nat.le_refl _⟩
    · obtain ⟨l', chain, shorter⟩ := ih later
      exact ⟨l', chain, by simp only [List.length_cons]; omega⟩

theorem nodup {s : Option ObjRef} {l : List ObjRef} (h : Chain st s l) : l.Nodup := by
  induction h with
  | nil => exact List.nodup_nil
  | @cons r _ l linked rest ih =>
    refine List.nodup_cons.mpr ⟨fun mem => ?_, ih⟩
    -- coming back to `r` would make the chain from `r` shorter than itself
    obtain ⟨l', again, shorter⟩ := rest.of_mem mem
    have same := determ again (.cons linked rest)
    rw [same, List.length_cons] at shorter
    omega

theorem lt_size {s : Option ObjRef} {l : List ObjRef} (h : Chain st s l) :
    ∀ p ∈ l, p.idx < st.heap.size := by
  induction h with
  | nil => simp
  | cons linked _ ih =>
    intro p mem
    rcases List.mem_cons.mp mem with same | later
    · exact same ▸ lt_size_of_link linked
    · exact ih p later

theorem length_le {s : Option ObjRef} {l : List ObjRef} (h : Chain st s l) :
    l.length ≤ st.heap.size := by
  have injective : Function.Injective ObjRef.idx := fun a b same => by
    cases a; cases b; simp_all
  have distinct : (l.map ObjRef.idx).Nodup := List.Nodup.map injective h.nodup
  have within : l.map ObjRef.idx ⊆ List.range st.heap.size := by
    intro i mem
    obtain ⟨p, member, rfl⟩ := List.mem_map.mp mem
    exact List.mem_range.mpr (h.lt_size p member)
  calc l.length = (l.map ObjRef.idx).length := (List.length_map _).symm
    _ ≤ (List.range st.heap.size).length := (distinct.subperm within).length_le
    _ = st.heap.size := List.length_range

end Chain

theorem Ends.mono {st st' : Store} (kept : ∀ r s, st.link r = some s → st'.link r = some s)
    {s : Option ObjRef} (ends : st.Ends s) : st'.Ends s := by
  obtain ⟨l, chain⟩ := ends
  exact ⟨l, chain.mono kept⟩

theorem ends_some {st : Store} {r : ObjRef} {s : Option ObjRef} (linked : st.link r = some s)
    (ends : st.Ends s) : st.Ends (some r) := by
  obtain ⟨l, chain⟩ := ends
  exact ⟨r :: l, .cons linked chain⟩

theorem Acyclic.ends_of_link {st : Store} (acyclic : st.Acyclic) {r : ObjRef}
    (linked : st.link r ≠ none) : st.Ends (some r) := by
  obtain ⟨s, found⟩ := Option.ne_none_iff_exists'.mp linked
  exact ends_some found (acyclic.ends r s found)

@[simp] theorem link_push (st : Store) (o : Obj) (r : ObjRef) :
    ({ st with heap := st.heap.push o } : Store).link r =
      if r.idx = st.heap.size then o.link else st.link r := by
  simp only [link, Array.getElem?_push]
  split <;> rfl

theorem link_set (st : Store) (i : Nat) (o : Obj) (r : ObjRef) (within : i < st.heap.size) :
    ({ st with heap := st.heap.set! i o } : Store).link r =
      if r.idx = i then o.link else st.link r := by
  simp only [link, Array.set!_eq_setIfInBounds, Array.getElem?_setIfInBounds, within, if_true]
  by_cases same : i = r.idx
  · simp [same]
  · simp [same, Ne.symm same]

theorem link_modify (st : Store) (i : Nat) (f : Obj → Obj) (r : ObjRef) :
    ({ st with heap := st.heap.modify i f } : Store).link r =
      if r.idx = i then (st.heap[r.idx]?.map f).bind Obj.link else st.link r := by
  simp only [link, Array.getElem?_modify]
  by_cases same : i = r.idx
  · simp [same]
  · simp [same, Ne.symm same]

theorem chainsEnd_push {st : Store} (ends : st.ChainsEnd) {o : Obj}
    (fresh : ∀ s, o.link = some s → st.Ends s) : ChainsEnd { st with heap := st.heap.push o } := by
  have kept : ∀ r s, st.link r = some s → ({ st with heap := st.heap.push o } : Store).link r = some s := by
    intro r s linked
    rw [link_push, if_neg (Nat.ne_of_lt (lt_size_of_link linked))]
    exact linked
  intro r s linked
  rw [link_push] at linked
  split at linked
  · exact (fresh s linked).mono kept
  · exact (ends r s linked).mono kept

theorem Acyclic.push {st : Store} (acyclic : st.Acyclic) {o : Obj}
    (fresh : ∀ s, o.link = some s → st.Ends s) : Acyclic { st with heap := st.heap.push o } where
  ends := chainsEnd_push acyclic.ends fresh
  klass := by
    obtain ⟨s, found⟩ := Option.ne_none_iff_exists'.mp acyclic.klass
    simp [link_push, if_neg (Nat.ne_of_lt (lt_size_of_link found)), found]

theorem Acyclic.of_links {st st' : Store} (acyclic : st.Acyclic) (same : ∀ r, st'.link r = st.link r)
    (klass : st'.core.klass = st.core.klass) : st'.Acyclic where
  ends := fun r s linked => (acyclic.ends r s ((same r).symm.trans linked)).mono
    fun r s h => (same r).trans h
  klass := by rw [klass, same]; exact acyclic.klass

section Splice

variable {st st' : Store} {p q : ObjRef} {x : Option ObjRef}

def Spliced (st st' : Store) (p q : ObjRef) : Prop :=
  ∀ r, st'.link r = if r = p then some (some q) else st.link r

theorem ends_spliced (spliced : Spliced st st' p q) (hp : st.link p = some x)
    (hq : st.link q = some x) (apart : q ≠ p) {s : Option ObjRef} {l : List ObjRef}
    (chain : Chain st s l) : st'.Ends s := by
  have toQ : st'.link q = some x := by rw [spliced, if_neg apart, hq]
  induction chain with
  | nil => exact ⟨[], .nil⟩
  | @cons r s l linked _ ih =>
    obtain ⟨l', chain'⟩ := ih
    by_cases here : r = p
    · -- the chain passes `p`, and now goes through `q` on the way
      subst here
      rw [hp] at linked
      cases linked
      exact ⟨r :: q :: l', .cons (by rw [spliced, if_pos rfl]) (.cons toQ chain')⟩
    · exact ⟨r :: l', .cons (by rw [spliced, if_neg here, linked]) chain'⟩

theorem Acyclic.splice (acyclic : st.Acyclic) (spliced : Spliced st st' p q)
    (hp : st.link p = some x) (hq : st.link q = some x) (apart : q ≠ p)
    (klass : st'.core.klass = st.core.klass) : st'.Acyclic where
  ends := by
    intro r s linked
    rw [spliced] at linked
    split at linked
    · cases linked
      obtain ⟨l, chain⟩ := acyclic.ends q x hq
      obtain ⟨l', chain'⟩ := ends_spliced spliced hp hq apart chain
      exact ⟨q :: l', .cons (by rw [spliced, if_neg apart, hq]) chain'⟩
    · obtain ⟨l, chain⟩ := acyclic.ends r s linked
      exact ends_spliced spliced hp hq apart chain
  klass := by
    rw [klass, spliced]
    split
    · simp
    · exact acyclic.klass

end Splice

theorem alloc_run (o : Obj) (st : Store) :
    (alloc o).run st = .ok ⟨st.heap.size⟩ { st with heap := st.heap.push o } := rfl

theorem modifyObj_run (r : ObjRef) (f : Obj → Obj) (st : Store) :
    (modifyObj r f).run st = if r.idx < st.heap.size then
      .ok () { st with heap := st.heap.modify r.idx f } else .error .runtime st := by
  by_cases within : r.idx < st.heap.size
  · simp [modifyObj, within, EStateM.run_bind]
  · simp [modifyObj, within, EStateM.run_bind]; rfl

theorem modifyNode_run (r : ObjRef) (f : ClassNode → ClassNode) (st : Store) :
    (modifyNode r f).run st = match st.heap[r.idx]? with
      | some o => match o.body with
        | .cls c => .ok () { st with heap := st.heap.set! r.idx { o with body := .cls (f c) } }
        | _ => .error .runtime st
      | none => .error .runtime st := by
  cases found : st.heap[r.idx]? with
  | none => simp [modifyNode, getObj, found, EStateM.run_bind]; rfl
  | some o =>
    cases body : o.body <;> simp [modifyNode, getObj, setObj, found, body, EStateM.run_bind] <;> rfl

theorem node_run (r : ObjRef) (st : Store) :
    (node r).run st = match st.heap[r.idx]? with
      | some o => match o.body with
        | .cls c => .ok c st
        | _ => .error .runtime st
      | none => .error .runtime st := by
  cases found : st.heap[r.idx]? with
  | none => simp [node, getObj, found, EStateM.run_bind]; rfl
  | some o => cases body : o.body <;> simp [node, getObj, found, body, EStateM.run_bind] <;> rfl

theorem link_of_node {r : ObjRef} {st t : Store} {n : ClassNode} (run : (node r).run st = .ok n t) :
    t = st ∧ st.link r = some n.super := by
  rw [node_run] at run
  split at run
  · rename_i o found
    split at run
    · rename_i c body
      cases run
      exact ⟨rfl, by simp [link, found, Obj.link, body]⟩
    · cases run
  · cases run

theorem link_eq_none_of_le {st : Store} {r : ObjRef} (outside : st.heap.size ≤ r.idx) :
    st.link r = none := by
  simp [link, Array.getElem?_eq_none outside]

theorem link_modifyNode {r : ObjRef} {f : ClassNode → ClassNode} {st t : Store}
    (run : (modifyNode r f).run st = .ok () t) :
    ∃ c, st.link r = some c.super ∧ t.core = st.core ∧
      ∀ r', t.link r' = if r' = r then some (f c).super else st.link r' := by
  rw [modifyNode_run] at run
  split at run
  · rename_i o found
    split at run
    · rename_i c body
      cases run
      obtain ⟨within, _⟩ := Array.getElem?_eq_some_iff.mp found
      refine ⟨c, by simp [link, found, Obj.link, body], rfl, fun r' => ?_⟩
      rw [link_set _ _ _ _ within]
      by_cases same : r' = r
      · subst same; simp [Obj.link]
      · have apart : r'.idx ≠ r.idx := fun h => same (by cases r'; cases r; simp_all)
        simp [same, apart]
    · cases run
  · cases run

def sameLinks : StateOrder Store where
  rel s t := (∀ r, t.link r = s.link r) ∧ t.core.klass = s.core.klass
  refl _ := ⟨fun _ => rfl, rfl⟩
  trans h₁ h₂ := ⟨fun r => (h₂.1 r).trans (h₁.1 r), h₂.2.trans h₁.2⟩

theorem Triple.of_sameLinks {α : Type} {P : Store → Prop} {x : StoreM α} (hx : Keeps sameLinks x)
    (stable : ∀ s t, (∀ r, t.link r = s.link r) → P s → P t) :
    Triple Acyclic P (fun _ => P) x :=
  Triple.of_keeps hx (fun _ _ kept acyclic => acyclic.of_links kept.1 kept.2)
    (fun s t kept => stable s t kept.1)

theorem sameLinks_of_heap {s t : Store} (heap : t.heap = s.heap) (core : t.core = s.core) :
    sameLinks.rel s t :=
  ⟨fun r => by simp [link, heap], by rw [core]⟩

theorem sameLinks_modifyObj (r : ObjRef) {f : Obj → Obj} (keeps : ∀ o, (f o).link = o.link) :
    Keeps sameLinks (modifyObj r f) := by
  intro st
  rw [modifyObj_run]
  split
  · refine ⟨fun r' => ?_, rfl⟩
    dsimp only [endState]
    rw [link_modify]
    split
    · rename_i same
      cases found : st.heap[r'.idx]? with
      | none => simp [link, found]
      | some o => simp [link, found, keeps]
    · rfl
  · exact sameLinks.refl st

theorem sameLinks_modifyNode (r : ObjRef) {f : ClassNode → ClassNode} (keeps : ∀ c, (f c).super = c.super) :
    Keeps sameLinks (modifyNode r f) := by
  intro st
  cases run : (modifyNode r f).run st with
  | ok u t =>
    obtain ⟨c, linked, core, links⟩ := link_modifyNode run
    dsimp only [endState]
    refine ⟨fun r' => ?_, by rw [core]⟩
    rw [links r']
    split
    · rename_i same; subst same; rw [keeps, linked]
    · rfl
  | error e t =>
    rw [modifyNode_run] at run
    -- a failed change leaves the store as it was
    have same : t = st := by
      split at run
      · split at run
        · cases run
        · cases run; rfl
      · cases run; rfl
    subst same
    exact sameLinks.refl _

theorem sameLinks_alloc {o : Obj} (plain : o.link = none) : Keeps sameLinks (alloc o) := by
  intro st
  rw [alloc_run]
  refine ⟨fun r => ?_, rfl⟩
  dsimp only [endState]
  rw [link_push]
  split
  · rename_i fresh
    rw [plain, link_eq_none_of_le (Nat.le_of_eq fresh.symm)]
  · rfl

theorem sameLinks_ivarSet (r : ObjRef) (sym : Sym) (v : Value) : Keeps sameLinks (ivarSet r sym v) :=
  sameLinks_modifyObj r fun _ => rfl

theorem sameLinks_intern (name : String) : Keeps sameLinks (intern name) :=
  fun st => sameLinks_of_heap (s := st) rfl rfl

theorem sameLinks_setCore {f : Core → Core} (klass : ∀ c, (f c).klass = c.klass) :
    Keeps sameLinks (setCore f) :=
  fun st => ⟨fun _ => rfl, klass st.core⟩

theorem readOnly_superOf (r : ObjRef) : ReadOnly (superOf r) :=
  Keeps.bind (readOnly_node r) fun _ => Keeps.pure _

theorem readOnly_origin (r : ObjRef) : ReadOnly (origin r) :=
  Keeps.bind (readOnly_node r) fun _ => Keeps.pure _

theorem readOnly_tableOf (r : ObjRef) : ReadOnly (tableOf r) := by
  refine Keeps.bind (readOnly_node r) fun n => ?_
  split
  · exact Keeps.bind (readOnly_origin _) fun _ => Keeps.bind (readOnly_node _) fun _ => Keeps.pure _
  · exact Keeps.pure _

theorem readOnly_definitionTarget (r : ObjRef) : ReadOnly (definitionTarget r) := by
  refine Keeps.bind (readOnly_node r) fun n => ?_
  split
  · exact readOnly_origin _
  · exact Keeps.pure _

theorem readOnly_superclass (r : ObjRef) : ReadOnly (superclass r) := by
  have walk : ∀ fuel s, ReadOnly (superclass.go s fuel) := by
    intro fuel
    induction fuel with
    | zero => exact fun _ => Keeps.pure _
    | succ fuel ih =>
      intro s
      simp only [superclass.go]
      split
      · exact Keeps.pure _
      · refine Keeps.bind (readOnly_node _) fun n => ?_
        split
        · exact ih _
        · exact Keeps.pure _
  exact Keeps.bind (readOnly_superOf r) fun s => Keeps.bind readOnly_chainFuel fun fuel => walk fuel s

theorem readOnly_lookup (cls : Option ObjRef) (mid : Sym) : ReadOnly (lookup cls mid) := by
  have walk : ∀ fuel s, ReadOnly (lookup.go mid s fuel) := by
    intro fuel
    induction fuel with
    | zero => exact fun _ => Keeps.pure _
    | succ fuel ih =>
      intro s
      simp only [lookup.go]
      split
      · exact Keeps.pure _
      · refine Keeps.bind (readOnly_tableOf _) fun table => ?_
        split
        · exact Keeps.pure _
        · exact Keeps.bind (readOnly_superOf _) fun s => ih s
  exact Keeps.bind readOnly_chainFuel fun fuel => walk fuel cls

theorem readOnly_findIncluded (r target insPos : ObjRef) (searchSuper : Bool) :
    ReadOnly (findIncluded r target insPos searchSuper) := by
  have walk : ∀ fuel s seen, ReadOnly (findIncluded.go target insPos searchSuper s seen fuel) := by
    intro fuel
    induction fuel with
    | zero => exact fun _ _ => Keeps.pure _
    | succ fuel ih =>
      intro s seen
      simp only [findIncluded.go]
      split
      · exact Keeps.pure _
      · refine Keeps.bind (readOnly_node _) fun n => ?_
        split
        · split
          · exact Keeps.pure _
          · exact ih _ _
        · split
          · split
            · exact Keeps.pure _
            · exact ih _ _
          · exact ih _ _
  exact Keeps.bind (readOnly_superOf r) fun s => Keeps.bind readOnly_chainFuel fun fuel => walk fuel s false

theorem readOnly_names (fuel : Nat) :
    (∀ r, ReadOnly (nameWith fuel r)) ∧ ∀ v, ReadOnly (shortTextWith fuel v) := by
  induction fuel with
  | zero =>
    refine ⟨fun r => ?_, fun v => ?_⟩
    · simp only [nameWith]; exact Keeps.pure _
    · cases v with
      | bool b => cases b <;> exact Keeps.pure _
      | _ => simp only [shortTextWith]; exact Keeps.pure _
  | succ fuel ih =>
    obtain ⟨names, texts⟩ := ih
    refine ⟨fun r => ?_, fun v => ?_⟩
    · cases r with
      | none => simp only [nameWith]; exact Keeps.pure _
      | some r =>
        simp only [nameWith]
        refine Keeps.bind (readOnly_node r) fun n => ?_
        split
        · exact names _
        · refine Keeps.bind readOnly_wellKnown fun c => Keeps.bind (readOnly_getObj r) fun o => ?_
          split
          · refine Keeps.bind Keeps.get fun s0 => ?_
            split
            · refine Keeps.bind (readOnly_getObj _) fun oo => ?_
              split
              · split
                · exact Keeps.pure _
                · exact Keeps.bind (names _) fun _ => Keeps.pure _
              · exact Keeps.pure _
            · exact Keeps.pure _
          · split
            · exact Keeps.bind (texts _) fun _ => Keeps.pure _
            · exact Keeps.pure _
    · cases v with
      | bool b => cases b <;> exact Keeps.pure _
      | obj r =>
        simp only [shortTextWith]
        refine Keeps.bind (readOnly_getObj r) fun o => ?_
        split
        · exact Keeps.pure _
        · exact names _
        · exact Keeps.bind (names _) fun _ => Keeps.pure _
      | _ => simp only [shortTextWith]; exact Keeps.pure _

theorem readOnly_className (r : Option ObjRef) : ReadOnly (className r) :=
  Keeps.bind Keeps.get fun _ => (readOnly_names _).1 r

theorem readOnly_checkMixin (r m : ObjRef) : ReadOnly (checkMixin r m) := by
  refine Keeps.bind (readOnly_node m) fun n => ?_
  split
  · exact Keeps.bind (readOnly_className _) fun _ => Keeps.pure _
  · refine Keeps.bind (Keeps.bind readOnly_chainFuel fun fuel => readOnly_includesModule_go _ _ fuel)
      fun found => ?_
    split <;> exact Keeps.pure _

theorem sameLinks_flushCache : Keeps sameLinks flushCache := fun _ => sameLinks_of_heap rfl rfl

theorem sameLinks_resolve (cls : Option ObjRef) (mid : Sym) : Keeps sameLinks (resolve cls mid) := by
  refine Keeps.bind Keeps.get fun st => ?_
  split
  · exact Keeps.pure _
  · refine Keeps.bind ((readOnly_lookup cls mid).keeps _) fun e => ?_
    exact Keeps.bind (fun _ => sameLinks_of_heap rfl rfl) fun _ => Keeps.pure _

theorem sameLinks_defineRaw (r : ObjRef) (mid : Sym) (m : Method) : Keeps sameLinks (defineRaw r mid m) :=
  Keeps.bind ((readOnly_definitionTarget r).keeps _) fun t =>
    Keeps.bind (sameLinks_modifyNode t fun _ => rfl) fun _ => sameLinks_flushCache

theorem sameLinks_removeMethod (r : ObjRef) (mid : Sym) : Keeps sameLinks (removeMethod r mid) := by
  refine Keeps.bind ((readOnly_origin r).keeps _) fun o => Keeps.bind ((readOnly_node o).keeps _) fun n => ?_
  split
  · exact Keeps.bind (sameLinks_modifyNode o fun _ => rfl) fun _ =>
      Keeps.bind sameLinks_flushCache fun _ => Keeps.pure _
  · exact Keeps.pure _

theorem sameLinks_aliasMethod (r : ObjRef) (new old : Sym) : Keeps sameLinks (aliasMethod r new old) := by
  refine Keeps.bind (sameLinks_resolve _ _) fun found => ?_
  split
  · exact Keeps.bind (sameLinks_defineRaw _ _ _) fun _ => Keeps.pure _
  · exact Keeps.pure _

theorem sameLinks_setClassName (r : ObjRef) (outer : Option ObjRef) (name : Sym) :
    Keeps sameLinks (setClassName r outer name) := by
  refine Keeps.bind (readOnly_wellKnown.keeps _) fun c => Keeps.bind (sameLinks_ivarSet _ _ _) fun _ => ?_
  split
  · exact Keeps.bind (sameLinks_ivarSet _ _ _) fun _ => sameLinks_ivarSet _ _ _
  · exact Keeps.pure _

theorem sameLinks_constSet (r : ObjRef) (sym : Sym) (v : Value) : Keeps sameLinks (constSet r sym v) := by
  refine Keeps.bind (readOnly_wellKnown.keeps _) fun c => Keeps.bind ((readOnly_classOf? v).keeps _) fun found => ?_
  split
  · refine Keeps.bind ((readOnly_ivarFind _ _).keeps _) fun name => ?_
    split
    · exact sameLinks_setClassName _ _ _
    · exact sameLinks_ivarSet _ _ _
  · exact sameLinks_ivarSet _ _ _

theorem sameLinks_defineNative (k : ObjRef) (name : String) (p : Primitive) :
    Keeps sameLinks (defineNative k name p) :=
  Keeps.bind (sameLinks_intern name) fun _ => sameLinks_defineRaw _ _ _

theorem sameLinks_nativeProc (p : Primitive) : Keeps sameLinks (nativeProc p) :=
  Keeps.bind (readOnly_wellKnown.keeps _) fun _ => sameLinks_alloc rfl

theorem Triple.bind_readOnly {ε σ α β : Type} {I P : σ → Prop} {R : β → σ → Prop}
    {x : EStateM ε σ α} {f : α → EStateM ε σ β} (hx : ReadOnly x) (hf : ∀ a, Triple I P R (f a)) :
    Triple I P R (x >>= f) :=
  Triple.bind (Triple.of_readOnly hx) fun a => (hf a).mono (fun _ h => h.1) (fun _ _ h => h)

theorem modifyNode_error {r : ObjRef} {f : ClassNode → ClassNode} {st t : Store} {e : Fault}
    (run : (modifyNode r f).run st = .error e t) : t = st := by
  rw [modifyNode_run] at run
  split at run
  · split at run
    · cases run
    · cases run; rfl
  · cases run; rfl

theorem link_of_superOf {r : ObjRef} {st t : Store} {s : Option ObjRef}
    (run : (superOf r).run st = .ok s t) : st.link r = some s := by
  obtain ⟨n, u, found, answer⟩ := bind_run_ok run
  obtain ⟨rfl, linked⟩ := link_of_node found
  cases answer
  exact linked

theorem triple_allocClass (kind : ClassKind) (metaClass : ObjRef) (super : Option ObjRef) :
    Triple Acyclic (fun st => ∀ k, super = some k → st.link k ≠ none)
      (fun k t => t.link k = some super) (allocClass kind metaClass super) := by
  intro st acyclic linked
  rw [show (allocClass kind metaClass super).run st = _ from alloc_run _ st]
  refine ⟨acyclic.push fun s found => ?_, fun k t run => ?_⟩
  · cases found
    cases super with
    | none => exact ⟨[], .nil⟩
    | some k => exact acyclic.ends_of_link (linked k rfl)
  · cases run
    simp [link_push, Obj.link]

theorem triple_alloc_beside (o : Obj) (p : ObjRef) (s : Option ObjRef) (links : o.link = some s) :
    Triple Acyclic (fun st => st.link p = some s)
      (fun k t => t.link k = some s ∧ t.link p = some s ∧ k ≠ p) (alloc o) := by
  intro st acyclic linked
  rw [alloc_run]
  have below := lt_size_of_link linked
  refine ⟨acyclic.push fun s' found => ?_, fun k t run => ?_⟩
  · rw [links] at found
    cases found
    exact acyclic.ends p s linked
  · cases run
    refine ⟨by simp [link_push, links], by rw [link_push, if_neg (Nat.ne_of_lt below)]; exact linked, ?_⟩
    intro same
    rw [← same] at below
    exact Nat.lt_irrefl _ below

theorem triple_newIncludeNode (m p : ObjRef) (s : Option ObjRef) :
    Triple Acyclic (fun st => st.link p = some s)
      (fun k t => t.link k = some s ∧ t.link p = some s ∧ k ≠ p) (newIncludeNode m s) :=
  Triple.bind_readOnly (readOnly_node m) fun _ =>
    Triple.bind_readOnly readOnly_wellKnown fun _ => triple_alloc_beside _ p s rfl

theorem triple_splice (p q : ObjRef) (s : Option ObjRef) {f : ClassNode → ClassNode}
    (toQ : ∀ c, (f c).super = some q) :
    Triple Acyclic (fun st => st.link q = some s ∧ st.link p = some s ∧ q ≠ p) (fun _ _ => True)
      (modifyNode p f) := by
  intro st acyclic ⟨hq, hp, apart⟩
  cases run : (modifyNode p f).run st with
  | ok u t =>
    obtain ⟨c, _, core, links⟩ := link_modifyNode run
    have spliced : Spliced st t p q := fun r => by
      rw [links r]
      split
      · rw [toQ]
      · rfl
    exact ⟨acyclic.splice spliced hp hq apart (congrArg Core.klass core), fun _ _ _ => trivial⟩
  | error e t =>
    rw [modifyNode_error run]
    exact ⟨acyclic, fun _ _ h => by cases h⟩

theorem triple_includeAt_go (r : ObjRef) (searchSuper : Bool) (fuel : Nat) :
    ∀ s insPos, Triple Acyclic (fun _ => True) (fun _ _ => True)
      (includeAt.go r searchSuper s insPos fuel) := by
  induction fuel with
  | zero => exact fun _ _ => Triple.pure_of fun _ _ => trivial
  | succ fuel ih =>
    intro s insPos
    simp only [includeAt.go]
    split
    · exact Triple.pure_of fun _ _ => trivial
    · refine Triple.bind_readOnly (readOnly_node _) fun n => ?_
      split
      · exact Triple.pure_of fun _ _ => trivial
      split
      · exact ih _ _
      refine Triple.bind_readOnly (readOnly_findIncluded _ _ _ _) fun found => ?_
      obtain ⟨present, insPos'⟩ := found
      split
      · exact ih _ _
      refine Triple.bind (Triple.of_readOnly (readOnly_superOf insPos')) fun after => ?_
      refine Triple.bind ((triple_newIncludeNode _ insPos' after).mono
        (fun _ h => link_of_superOf h.2) (fun _ _ h => h)) fun ic => ?_
      exact Triple.bind (triple_splice insPos' ic after fun _ => rfl) fun _ => ih _ _

theorem triple_includeAt (r insPos m : ObjRef) (searchSuper : Bool) :
    Triple Acyclic (fun _ => True) (fun _ _ => True) (includeAt r insPos m searchSuper) :=
  Triple.bind_readOnly readOnly_chainFuel fun fuel => triple_includeAt_go r searchSuper fuel _ _

theorem triple_includeModule (r m : ObjRef) :
    Triple Acyclic (fun _ => True) (fun _ _ => True) (includeModule r m) := by
  refine Triple.bind_readOnly (readOnly_checkMixin r m) fun refused => ?_
  split
  · exact Triple.pure_of fun _ _ => trivial
  · refine Triple.bind_readOnly (readOnly_origin r) fun o => ?_
    refine Triple.bind (triple_includeAt _ _ _ _) fun _ => ?_
    exact Triple.bind (Triple.of_sameLinks sameLinks_flushCache fun _ _ _ h => h) fun _ =>
      Triple.pure_of fun _ _ => trivial

theorem triple_prependModule (r m : ObjRef) :
    Triple Acyclic (fun _ => True) (fun _ _ => True) (prependModule r m) := by
  refine Triple.bind_readOnly (readOnly_checkMixin r m) fun refused => ?_
  split
  · exact Triple.pure_of fun _ _ => trivial
  · have flushed : Triple Acyclic (fun _ => True) (fun _ _ => True)
        (flushCache >>= fun _ => pure (none : Option MixinError)) :=
      Triple.bind (Triple.of_sameLinks sameLinks_flushCache fun _ _ _ h => h) fun _ =>
        Triple.pure_of fun _ _ => trivial
    refine Triple.bind (Triple.of_readOnly (readOnly_node r)) fun n => ?_
    dsimp only
    split
    · refine Triple.bind_readOnly readOnly_wellKnown fun c => ?_
      refine Triple.bind ((triple_alloc_beside _ r n.super rfl).mono
        (fun _ h => (link_of_node h.2).2) (fun _ _ h => h)) fun o => ?_
      refine Triple.bind (triple_splice r o n.super fun _ => rfl) fun _ => ?_
      exact Triple.bind (triple_includeAt _ _ _ _) fun _ => flushed
    · exact Triple.bind (triple_includeAt _ _ _ _).weaken fun _ => flushed

theorem Triple.of_true {ε σ α : Type} {P : σ → Prop} (x : EStateM ε σ α) :
    Triple (fun _ => True) P (fun _ _ => True) x :=
  fun _ _ _ => ⟨trivial, fun _ _ _ => trivial⟩

theorem includeModule_refused {r m : ObjRef} {st t : Store} {e : MixinError}
    (run : (includeModule r m).run st = .ok (some e) t) : t = st := by
  have unchanged : Triple (fun _ => True) (· = st) (fun res t => ∀ e, res = some e → t = st)
      (includeModule r m) := by
    refine Triple.bind (Triple.of_readOnly (readOnly_checkMixin r m)) fun refused => ?_
    split
    · exact Triple.pure_of fun _ h _ _ => h.1
    · exact Triple.bind (Triple.of_true _) fun _ => Triple.bind (Triple.of_true _) fun _ =>
        Triple.bind (Triple.of_true _) fun _ => Triple.pure_of fun _ _ _ answer => by cases answer
  exact (unchanged st trivial rfl).2 _ _ run e rfl

theorem prependModule_refused {r m : ObjRef} {st t : Store} {e : MixinError}
    (run : (prependModule r m).run st = .ok (some e) t) : t = st := by
  have unchanged : Triple (fun _ => True) (· = st) (fun res t => ∀ e, res = some e → t = st)
      (prependModule r m) := by
    refine Triple.bind (Triple.of_readOnly (readOnly_checkMixin r m)) fun refused => ?_
    split
    · exact Triple.pure_of fun _ h _ _ => h.1
    · refine Triple.bind (Triple.of_true _) fun n => ?_
      -- every way on answers `none`
      have none_after : Triple (fun _ => True) (fun _ => True) (fun res t => ∀ e, res = some e → t = st)
          (includeAt r r m false >>= fun _ => flushCache >>= fun _ => pure (none : Option MixinError)) :=
        Triple.bind (Triple.of_true _) fun _ => Triple.bind (Triple.of_true _) fun _ =>
          Triple.pure_of fun _ _ _ answer => by cases answer
      dsimp only
      split
      · exact Triple.bind (Triple.of_true _) fun _ => Triple.bind (Triple.of_true _) fun _ =>
          Triple.bind (Triple.of_true _) fun _ => none_after
      · exact none_after
  exact (unchanged st trivial rfl).2 _ _ run e rfl

theorem core_of_wellKnown {st t : Store} {c : Core} (run : wellKnown.run st = .ok c t) :
    c = st.core := by
  cases run
  rfl

theorem triple_hang {P : Store → Prop} (c : Core) (r : ObjRef) (v : Value) {x : StoreM (Option ObjRef)}
    (below : Triple Acyclic P (fun s t => ∀ k, s = some k → t.link k ≠ none) x) :
    Triple Acyclic P (fun res t => ∀ k, res = some k → t.link k ≠ none) (do
      let super ← x
      let sc ← allocClass .singleton c.klass super
      ivarSet sc c.symAttached v
      modifyObj r fun o => { o with cls := some sc }
      flushCache
      pure (some sc)) := by
  have stable : ∀ sc s (a b : Store), (∀ r, b.link r = a.link r) → a.link sc = some s → b.link sc = some s :=
    fun sc s a b same linked => (same sc).trans linked
  refine Triple.bind below fun super => Triple.bind (triple_allocClass _ _ _) fun sc => ?_
  refine Triple.bind (Triple.of_sameLinks (sameLinks_ivarSet _ _ _) (stable sc super)) fun _ => ?_
  refine Triple.bind (Triple.of_sameLinks (sameLinks_modifyObj r fun _ => rfl) (stable sc super)) fun _ => ?_
  refine Triple.bind (Triple.of_sameLinks sameLinks_flushCache (stable sc super)) fun _ => ?_
  exact Triple.pure_of fun t linked k same => by cases same; rw [linked]; simp

theorem triple_singletonClassOf_go (fuel : Nat) :
    ∀ v, Triple Acyclic (fun _ => True) (fun res t => ∀ k, res = some k → t.link k ≠ none)
      (singletonClassOf.go v fuel) := by
  induction fuel with
  | zero => exact fun _ => Triple.pure_of fun _ _ k h => by cases h
  | succ fuel ih =>
    intro v
    simp only [singletonClassOf.go]
    split
    · rename_i r
      refine Triple.bind (Triple.of_readOnly readOnly_wellKnown) fun c => ?_
      refine Triple.bind_readOnly (readOnly_getObj r) fun o => ?_
      -- below the superclass's singleton class, or below Class at the top
      have klass : Triple Acyclic (fun t => True ∧ wellKnown.run t = .ok c t)
          (fun res t => ∀ k, res = some k → t.link k ≠ none) (pure (some c.klass) : StoreM _) :=
        Triple.pure_inv fun t acyclic known k same => by
          cases same
          rw [core_of_wellKnown known.2]
          exact acyclic.klass
      split
      · rename_i k cls_eq
        refine Triple.bind (Triple.of_readOnly (readOnly_node k)) fun kn => ?_
        refine Triple.bind_readOnly (readOnly_getObj k) fun kObj => ?_
        have isNode : ∀ t, ((True ∧ wellKnown.run t = .ok c t) ∧ (node k).run t = .ok kn t) →
            t.link k ≠ none := fun t h => by simp [(link_of_node h.2).2]
        split
        · exact Triple.pure_of fun t h k' same => by cases same; exact isNode t h
        · split
          · split
            · refine Triple.bind_readOnly (readOnly_superclass r) fun found => ?_
              split
              · exact triple_hang c r _ (ih _).weaken
              · exact triple_hang c r _ (klass.mono (fun _ h => h.1) fun _ _ h => h)
            · exact triple_hang c r _ (Triple.pure_of fun t h k' same => by
                rw [cls_eq] at same; cases same; exact isNode t h)
          · exact triple_hang c r _ (Triple.pure_of fun t h k' same => by
              rw [cls_eq] at same; cases same; exact isNode t h)
      · rename_i other
        split
        · split
          · refine Triple.bind_readOnly (readOnly_superclass r) fun found => ?_
            split
            · exact triple_hang c r _ (ih _).weaken
            · exact triple_hang c r _ klass
          · exact triple_hang c r _ (Triple.pure_of fun _ _ k same => absurd same (other k))
        · exact triple_hang c r _ (Triple.pure_of fun _ _ k same => absurd same (other k))
    · exact Triple.pure_of fun _ _ k h => by cases h

theorem triple_singletonClassOf (v : Value) :
    Triple Acyclic (fun _ => True) (fun res t => ∀ k, res = some k → t.link k ≠ none)
      (singletonClassOf v) :=
  Triple.bind_readOnly readOnly_chainFuel fun fuel => triple_singletonClassOf_go fuel v

theorem triple_of_sameLinks {α : Type} {x : StoreM α} (hx : Keeps sameLinks x) :
    Triple Acyclic (fun _ => True) (fun _ _ => True) x :=
  Triple.of_sameLinks hx fun _ _ _ h => h

theorem triple_of_readOnly {α : Type} {x : StoreM α} (hx : ReadOnly x) :
    Triple Acyclic (fun _ => True) (fun _ _ => True) x :=
  triple_of_sameLinks (hx.keeps _)

theorem triple_defineClass (name : String) (super outer : Option ObjRef) :
    Triple Acyclic (fun _ => True) (fun _ _ => True) (defineClass name super outer) := by
  refine Triple.bind_readOnly readOnly_wellKnown fun c => ?_
  refine Triple.bind_true (triple_of_sameLinks (sameLinks_intern name)) fun sym => ?_
  refine Triple.bind_readOnly (readOnly_ivarFind _ _) fun found => ?_
  split
  · refine Triple.bind_readOnly (readOnly_classOf? _) fun named => ?_
    split
    · split
      · exact Triple.pure_of fun _ _ => trivial
      · refine Triple.bind_readOnly (readOnly_superclass _) fun _ => ?_
        split <;> exact Triple.pure_of fun _ _ => trivial
    · exact Triple.pure_of fun _ _ => trivial
  · refine Triple.bind (Triple.of_readOnly (readOnly_node _)) fun n => ?_
    split
    · exact Triple.pure_of fun _ _ => trivial
    · refine Triple.bind ((triple_allocClass _ _ _).mono
        (fun t h k same => by cases same; simp [(link_of_node h.2).2]) (fun _ _ _ => trivial)) fun k => ?_
      refine Triple.bind_true (triple_of_sameLinks (sameLinks_setClassName _ _ _)) fun _ => ?_
      refine Triple.bind_true ((triple_singletonClassOf _).mono (fun _ h => h) fun _ _ _ => trivial)
        fun _ => ?_
      exact Triple.pure_of fun _ _ => trivial

theorem triple_defineModule (name : String) (outer : Option ObjRef) :
    Triple Acyclic (fun _ => True) (fun _ _ => True) (defineModule name outer) := by
  refine Triple.bind_readOnly readOnly_wellKnown fun c => ?_
  refine Triple.bind_true (triple_of_sameLinks (sameLinks_intern name)) fun sym => ?_
  refine Triple.bind_readOnly (readOnly_ivarFind _ _) fun found => ?_
  split
  · refine Triple.bind_readOnly (readOnly_classOf? _) fun named => ?_
    split
    · split <;> exact Triple.pure_of fun _ _ => trivial
    · exact Triple.pure_of fun _ _ => trivial
  · refine Triple.bind ((triple_allocClass _ _ _).mono
      (fun _ _ k same => by cases same) (fun _ _ _ => trivial)) fun m => ?_
    refine Triple.bind_true (triple_of_sameLinks (sameLinks_setClassName _ _ _)) fun _ => ?_
    exact Triple.pure_of fun _ _ => trivial

theorem triple_newClass (super : ObjRef) :
    Triple Acyclic (fun st => st.link super ≠ none) (fun _ _ => True) (newClass super) := by
  refine Triple.bind_readOnly readOnly_wellKnown fun c => ?_
  refine Triple.bind ((triple_allocClass _ _ _).mono
    (fun _ h k same => by cases same; exact h) (fun _ _ _ => trivial)) fun k => ?_
  refine Triple.bind ((triple_singletonClassOf _).mono (fun _ _ => trivial) fun _ _ _ => trivial)
    fun _ => ?_
  exact Triple.pure_of fun _ _ => trivial

theorem triple_newModule :
    Triple Acyclic (fun _ => True) (fun _ _ => True) newModule :=
  Triple.bind_readOnly readOnly_wellKnown fun _ =>
    (triple_allocClass _ _ _).mono (fun _ _ k same => by cases same) (fun _ _ _ => trivial)

theorem triple_runtimeFault {α : Type} :
    Triple Acyclic (fun _ => True) (fun _ _ => True) (runtimeFault : StoreM α) := Triple.throw _

theorem triple_panic {α : Type} (msg : String) :
    Triple Acyclic (fun _ => True) (fun _ _ => True) (panic msg : StoreM α) := Triple.throw _

theorem triple_mustDefine {r : StoreM (Except String ObjRef)}
    (hr : Triple Acyclic (fun _ => True) (fun _ _ => True) r) :
    Triple Acyclic (fun _ => True) (fun _ _ => True) (mustDefine r) := by
  refine Triple.bind_true hr fun found => ?_
  cases found with
  | ok k => exact Triple.pure_of fun _ _ => trivial
  | error msg => exact Triple.throw _

theorem triple_defineAll (k : ObjRef) (onSingleton : Bool) (items : List (String × Primitive)) :
    Triple Acyclic (fun _ => True) (fun _ _ => True) (defineAll k onSingleton items) := by
  -- one definition after another on the chosen class
  have loop : ∀ target : ObjRef, Triple Acyclic (fun _ => True) (fun _ _ => True) (do
      forIn items PUnit.unit fun x _ => do
        defineNative target x.1 x.2
        pure (ForInStep.yield PUnit.unit)
      pure ()) := fun target =>
    Triple.bind_true (Triple.forIn_list _ _ fun _ _ =>
      Triple.bind_true (triple_of_sameLinks (sameLinks_defineNative _ _ _)) fun _ =>
        Triple.pure_of fun _ _ => trivial) fun _ => Triple.pure_of fun _ _ => trivial
  unfold defineAll
  dsimp only
  split
  · refine Triple.bind_true ((triple_singletonClassOf _).mono (fun _ h => h) fun _ _ _ => trivial)
      fun found => ?_
    split
    · exact Triple.bind_true (Triple.pure_of fun _ _ => trivial) loop
    · exact Triple.bind_true (Triple.throw _) loop
  · exact Triple.bind_true (Triple.pure_of fun _ _ => trivial) loop

theorem acyclic_bootRoots : Acyclic (endState (bootRoots.run {})) := by
  have first : Chain (endState (bootRoots.run {})) (some ⟨0⟩) [⟨0⟩] := .cons rfl .nil
  have second : Chain (endState (bootRoots.run {})) (some ⟨1⟩) [⟨1⟩, ⟨0⟩] := .cons rfl first
  have third : Chain (endState (bootRoots.run {})) (some ⟨2⟩) [⟨2⟩, ⟨1⟩, ⟨0⟩] := .cons rfl second
  refine ⟨fun r s linked => ?_, by decide⟩
  obtain ⟨i⟩ := r
  match i, linked with
  | 0, linked => cases linked; exact ⟨[], .nil⟩
  | 1, linked => cases linked; exact ⟨_, first⟩
  | 2, linked => cases linked; exact ⟨_, second⟩
  | 3, linked => cases linked; exact ⟨_, third⟩
  | i + 4, linked => cases linked

theorem acyclic_boot : Acyclic (endState (boot.run {})) := by
  have roots : bootRoots.run {} = .ok (⟨0⟩, ⟨1⟩, ⟨2⟩, ⟨3⟩) (endState (bootRoots.run {})) := rfl
  unfold boot
  rw [EStateM.run_bind, roots]
  refine (?_ : Triple Acyclic (fun _ => True) (fun _ _ => True) _) _ acyclic_bootRoots trivial |>.1
  dsimp only
  -- every step is one of the operations above, in sequence, in a loop, or in a branch
  repeat' first
    | with_reducible refine Triple.bind_true ?_ fun _ => ?_
    | with_reducible exact triple_defineAll _ _ _
    | with_reducible exact triple_mustDefine (triple_defineClass _ _ _)
    | with_reducible exact triple_of_sameLinks (sameLinks_setCore fun _ => rfl)
    | with_reducible exact triple_of_sameLinks (sameLinks_intern _)
    | with_reducible exact Triple.pure_of fun _ _ => trivial
    | with_reducible refine Triple.forIn_list _ _ fun _ _ => ?_
    | with_reducible exact triple_of_sameLinks (sameLinks_setClassName _ _ _)
    | with_reducible exact triple_of_sameLinks (sameLinks_defineRaw _ _ _)
    | with_reducible exact triple_of_sameLinks (sameLinks_constSet _ _ _)
    | with_reducible exact (triple_singletonClassOf _).mono (fun _ h => h) fun _ _ _ => trivial
    | with_reducible exact triple_of_sameLinks (sameLinks_nativeProc _)
    | with_reducible exact triple_of_sameLinks (sameLinks_alloc rfl)
    | with_reducible exact triple_of_readOnly readOnly_wellKnown
    | with_reducible exact triple_mustDefine (triple_defineModule _ _)
    | with_reducible exact triple_includeModule _ _
    | exact triple_runtimeFault
    | exact triple_panic _
    | split

theorem triple_aliasMethod (r : ObjRef) (new old : Sym) :
    Triple Acyclic (fun _ => True) (fun _ _ => True) (aliasMethod r new old) :=
  triple_of_sameLinks (sameLinks_aliasMethod r new old)

end Store

inductive GraphOp where
  | defineClass (name : String) (super outer : Option ObjRef)
  | defineModule (name : String) (outer : Option ObjRef)
  | newClass (super : ObjRef)
  | newModule
  | includeModule (r m : ObjRef)
  | prependModule (r m : ObjRef)
  | singletonClass (v : Value)
  | defineMethod (r : ObjRef) (mid : Sym) (m : Method)
  | removeMethod (r : ObjRef) (mid : Sym)
  | aliasMethod (r : ObjRef) (new old : Sym)
  | resolve (cls : Option ObjRef) (mid : Sym)

namespace GraphOp

def run : GraphOp → StoreM Unit
  | .defineClass name super outer => do let _ ← Store.defineClass name super outer
  | .defineModule name outer => do let _ ← Store.defineModule name outer
  | .newClass super => do let _ ← Store.newClass super
  | .newModule => do let _ ← Store.newModule
  | .includeModule r m => do let _ ← Store.includeModule r m
  | .prependModule r m => do let _ ← Store.prependModule r m
  | .singletonClass v => do let _ ← Store.singletonClassOf v
  | .defineMethod r mid m => Store.defineRaw r mid m
  | .removeMethod r mid => do let _ ← Store.removeMethod r mid
  | .aliasMethod r new old => do let _ ← Store.aliasMethod r new old
  | .resolve cls mid => do let _ ← Store.resolve cls mid

def Allowed (st : Store) : GraphOp → Prop
  | .newClass super => st.link super ≠ none
  | _ => True

end GraphOp

inductive GraphReachable : Store → Prop
  | boot : GraphReachable (endState (Store.boot.run {}))
  | step {st : Store} (op : GraphOp) :
      GraphReachable st → op.Allowed st → GraphReachable (endState (op.run.run st))

namespace Store

theorem triple_graphOp (op : GraphOp) :
    Triple Acyclic (fun st => op.Allowed st) (fun _ _ => True) op.run := by
  have dropped : ∀ {α : Type} (x : StoreM α), Triple Acyclic (fun _ => True) (fun _ _ => True) x →
      Triple Acyclic (fun _ => True) (fun _ _ => True) (do let _ ← x) :=
    fun _ hx => Triple.bind_true hx fun _ => Triple.pure_of fun _ _ => trivial
  cases op with
  | newClass super =>
    exact Triple.bind (triple_newClass super) fun _ => Triple.pure_of fun _ _ => trivial
  | defineClass name super outer => exact dropped _ (triple_defineClass name super outer)
  | defineModule name outer => exact dropped _ (triple_defineModule name outer)
  | newModule => exact dropped _ triple_newModule
  | includeModule r m => exact dropped _ (triple_includeModule r m)
  | prependModule r m => exact dropped _ (triple_prependModule r m)
  | singletonClass v =>
    exact dropped _ ((triple_singletonClassOf v).mono (fun _ h => h) fun _ _ _ => trivial)
  | defineMethod r mid m => exact triple_of_sameLinks (sameLinks_defineRaw r mid m)
  | removeMethod r mid => exact dropped _ (triple_of_sameLinks (sameLinks_removeMethod r mid))
  | aliasMethod r new old => exact dropped _ (triple_aliasMethod r new old)
  | resolve cls mid => exact dropped _ (triple_of_sameLinks (sameLinks_resolve cls mid))

end Store

theorem GraphReachable.acyclic {st : Store} (reach : GraphReachable st) : st.Acyclic := by
  induction reach with
  | boot => exact Store.acyclic_boot
  | step op _ allowed ih => exact (Store.triple_graphOp op _ ih allowed).1

namespace Store

theorem reachable_chains_finite {st : Store} (reach : GraphReachable st) :
    (∀ r, st.link r ≠ none → ∃ l, Chain st (some r) l ∧ l.Nodup ∧ l.length ≤ st.heap.size) ∧
    (∀ r m e t, (includeModule r m).run st = .ok (some e) t → t = st) ∧
    (∀ r m e t, (prependModule r m).run st = .ok (some e) t → t = st) := by
  have acyclic := reach.acyclic
  refine ⟨fun r node => ?_, fun _ _ _ _ run => includeModule_refused run,
    fun _ _ _ _ run => prependModule_refused run⟩
  obtain ⟨l, chain⟩ := acyclic.ends_of_link node
  exact ⟨l, chain, chain.nodup, chain.length_le⟩

theorem booted_chains_finite :
    GraphReachable (endState (boot.run {})) ∧
    (∀ r, (endState (boot.run {})).link r ≠ none → ∃ l, Chain (endState (boot.run {})) (some r) l ∧
      l.Nodup ∧ l.length ≤ (endState (boot.run {})).heap.size) ∧
    (∀ r m e t, (includeModule r m).run (endState (boot.run {})) = .ok (some e) t →
      t = endState (boot.run {})) ∧
    (∀ r m e t, (prependModule r m).run (endState (boot.run {})) = .ok (some e) t →
      t = endState (boot.run {})) :=
  ⟨.boot, reachable_chains_finite .boot⟩

end Store

end RegisterVM
