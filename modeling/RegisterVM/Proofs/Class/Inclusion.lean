import RegisterVM.Proofs.Class.Cache

set_option autoImplicit false

namespace RegisterVM

namespace Store

namespace Chain

variable {st t : Store}

theorem head {s : Option ObjRef} {l : List ObjRef} (chain : Chain st s l) : s = l.head? := by
  cases chain <;> rfl

theorem congr {s : Option ObjRef} {l : List ObjRef} (chain : Chain st s l)
    (same : ∀ r ∈ l, t.link r = st.link r) : Chain t s l := by
  induction chain with
  | nil => exact .nil
  | cons linked _ ih =>
    refine .cons (by rw [same _ (by simp), linked]) (ih fun r mem => same r (by simp [mem]))

theorem link_of_split {s : Option ObjRef} {pre rest : List ObjRef} {p : ObjRef}
    (chain : Chain st s (pre ++ p :: rest)) : st.link p = some rest.head? := by
  induction pre generalizing s with
  | nil =>
    cases chain with
    | cons linked rest => rw [linked, rest.head]
  | cons r pre ih =>
    cases chain with
    | cons _ rest => exact ih rest

theorem suffix {s : Option ObjRef} {pre rest : List ObjRef} {p : ObjRef}
    (chain : Chain st s (pre ++ p :: rest)) : Chain st (some p) (p :: rest) := by
  induction pre generalizing s with
  | nil =>
    cases chain with
    | cons linked rest => exact .cons linked rest
  | cons r pre ih =>
    cases chain with
    | cons _ rest => exact ih rest

theorem reattach {s : Option ObjRef} {front rest L : List ObjRef} {p : ObjRef}
    (chain : Chain st s (front ++ p :: rest)) (same : ∀ r ∈ front, t.link r = st.link r)
    (tail : Chain t (some p) L) : Chain t s (front ++ L) := by
  induction front generalizing s with
  | nil =>
    cases chain
    exact tail
  | cons r front ih =>
    cases chain with
    | cons linked rest =>
      exact .cons (by rw [same r (by simp), linked])
        (ih rest fun r' mem => same r' (by simp [mem]))

theorem insert_after {s : Option ObjRef} {pre rest : List ObjRef} {p q : ObjRef}
    (chain : Chain st s (pre ++ p :: rest)) (toQ : t.link p = some (some q))
    (fromQ : t.link q = some rest.head?) (same : ∀ r ∈ pre ++ rest, t.link r = st.link r) :
    Chain t s (pre ++ p :: q :: rest) := by
  induction pre generalizing s with
  | nil =>
    cases chain with
    | cons _ rest' =>
      rw [← rest'.head] at fromQ
      exact .cons toQ (.cons fromQ (rest'.congr fun r mem => same r (by simp [mem])))
  | cons r pre ih =>
    cases chain with
    | cons linked rest' =>
      exact .cons (by rw [same r (by simp), linked])
        (ih rest' fun r' mem => same r' (by simp at mem ⊢; tauto))

end Chain

def shownAt (st : Store) (p : ObjRef) : Option ObjRef :=
  (st.nodeAt p).bind fun n =>
    if n.kind.isInner then some (n.module.getD p)
    else if n.kind == .singleton || n.origin.isSome then none
    else some p

def shown (st : Store) (l : List ObjRef) : List ObjRef := l.filterMap st.shownAt

@[simp] theorem shown_nil (st : Store) : st.shown [] = [] := rfl

@[simp] theorem shown_cons (st : Store) (p : ObjRef) (l : List ObjRef) :
    st.shown (p :: l) = (st.shownAt p).toList ++ st.shown l := by
  cases h : st.shownAt p <;> simp [shown, h]

@[simp] theorem shown_append (st : Store) (l l' : List ObjRef) :
    st.shown (l ++ l') = st.shown l ++ st.shown l' := by
  simp [shown]

theorem ancestors_go_run {st : Store} {s : Option ObjRef} {l : List ObjRef} (chain : Chain st s l)
    {fuel : Nat} (enough : l.length < fuel) (acc : Array ObjRef) :
    (ancestors.go s fuel acc).run st = .ok (acc ++ (st.shown l).toArray) st := by
  induction chain generalizing fuel acc with
  | nil =>
    obtain ⟨f, rfl⟩ : ∃ f, fuel = f + 1 := Nat.exists_eq_add_one_of_ne_zero (by omega)
    simp [ancestors.go]
  | @cons r s l linked rest ih =>
    obtain ⟨f, rfl⟩ : ∃ f, fuel = f + 1 := Nat.exists_eq_add_one_of_ne_zero (by omega)
    have within : l.length < f := by simp at enough; omega
    obtain ⟨n, found, rfl⟩ := Option.map_eq_some_iff.1 ((link_eq_nodeAt st r).symm.trans linked)
    simp only [ancestors.go, EStateM.run_bind, node_run_nodeAt, found, answerIn_some]
    rw [ih within]
    simp only [shown_cons, shownAt, found, Option.bind_some]
    -- the node pushes exactly what it shows
    split
    · simp
    · split <;> simp

theorem ancestors_run {st : Store} {r : ObjRef} {l : List ObjRef} (chain : Chain st (some r) l) :
    (ancestors r).run st = .ok (st.shown l).toArray st := by
  simp only [ancestors, chainFuel, EStateM.run_bind]
  simpa using ancestors_go_run chain (Nat.lt_succ_of_le chain.length_le) #[]

def Mentions (st : Store) (p a : ObjRef) : Prop :=
  p = a ∨ ∃ n, st.nodeAt p = some n ∧ n.kind.isInner = true ∧ n.module = some a

theorem within_of_nodeAt {st : Store} {r : ObjRef} {n : ClassNode} (found : st.nodeAt r = some n) :
    r.idx < st.heap.size := by
  unfold nodeAt at found
  obtain ⟨o, at_r, -⟩ := Option.bind_eq_some_iff.1 found
  exact (Array.getElem?_eq_some_iff.1 at_r).1

theorem node_of_link {st : Store} {r : ObjRef} {s : Option ObjRef} (linked : st.link r = some s) :
    ∃ n, st.nodeAt r = some n ∧ n.super = s := by
  obtain ⟨n, found, rfl⟩ := Option.map_eq_some_iff.1 ((link_eq_nodeAt st r).symm.trans linked)
  exact ⟨n, found, rfl⟩

theorem includesModule_go_miss {st : Store} {m : ObjRef} {s : Option ObjRef} {l : List ObjRef}
    (chain : Chain st s l) {fuel : Nat} (enough : l.length < fuel)
    (absent : ∀ p ∈ l, ¬ st.Mentions p m) : (includesModule.go m s fuel).run st = .ok false st := by
  induction chain generalizing fuel with
  | nil =>
    obtain ⟨f, rfl⟩ : ∃ f, fuel = f + 1 := Nat.exists_eq_add_one_of_ne_zero (by omega)
    rfl
  | @cons r s l linked rest ih =>
    obtain ⟨f, rfl⟩ : ∃ f, fuel = f + 1 := Nat.exists_eq_add_one_of_ne_zero (by omega)
    obtain ⟨n, found, rfl⟩ := node_of_link linked
    have here : ¬ st.Mentions r m := absent r (by simp)
    have other : r ≠ m := fun same => here (.inl same)
    have notInner : ¬ (n.kind.isInner = true ∧ n.module = some m) := fun h => here (.inr ⟨n, found, h⟩)
    simp only [includesModule.go, EStateM.run_bind, node_run_nodeAt, found, answerIn_some]
    rw [if_neg (by simpa [other] using notInner)]
    exact ih (by simp at enough; omega) fun p mem => absent p (by simp [mem])

theorem checkMixin_run_none {st : Store} {r m : ObjRef} {nm : ClassNode} {l : List ObjRef}
    (found : st.nodeAt m = some nm) (isModule : nm.kind = .module) (chain : Chain st (some m) l)
    (other : r ≠ m) (absent : ∀ p ∈ l, ¬ st.Mentions p r) : (checkMixin r m).run st = .ok none st := by
  have search : (includesModule m r).run st = .ok false st := by
    simp only [includesModule, chainFuel, EStateM.run_bind]
    exact includesModule_go_miss chain (Nat.lt_succ_of_le chain.length_le) absent
  simp [checkMixin, EStateM.run_bind, node_run_nodeAt, found, isModule, other, search]

theorem findIncluded_go_miss {st : Store} {target insPos : ObjRef} {s : Option ObjRef}
    {l : List ObjRef} (chain : Chain st s l) {fuel : Nat} (enough : l.length < fuel)
    (absent : ∀ p ∈ l, ¬ st.Mentions p target) (seen : Bool) :
    (findIncluded.go target insPos true s seen fuel).run st = .ok (false, insPos) st := by
  induction chain generalizing fuel seen with
  | nil =>
    obtain ⟨f, rfl⟩ : ∃ f, fuel = f + 1 := Nat.exists_eq_add_one_of_ne_zero (by omega)
    rfl
  | @cons r s l linked rest ih =>
    obtain ⟨f, rfl⟩ : ∃ f, fuel = f + 1 := Nat.exists_eq_add_one_of_ne_zero (by omega)
    obtain ⟨n, found, rfl⟩ := node_of_link linked
    have within : l.length < f := by simp at enough; omega
    have later := fun seen => ih within (fun p mem => absent p (by simp [mem])) seen
    have notHere : ¬ (n.kind = .include ∧ n.module = some target) := fun h =>
      absent r (by simp) (.inr ⟨n, found, by simp [h.1, ClassKind.isInner], h.2⟩)
    simp only [findIncluded.go, EStateM.run_bind, node_run_nodeAt, found, answerIn_some]
    -- an include node of another module, a class, or any other node: the search goes on
    by_cases incl : n.kind = .include
    · have another : n.module ≠ some target := fun h => notHere ⟨incl, h⟩
      simp [incl, another, later]
    · by_cases ordinary : n.kind = .ordinary <;> simp [incl, ordinary, later]

theorem findIncluded_miss {st : Store} {r target insPos : ObjRef} {l : List ObjRef}
    (chain : Chain st (some r) l) (absent : ∀ p ∈ l, ¬ st.Mentions p target) :
    (findIncluded r target insPos true).run st = .ok (false, insPos) st := by
  cases chain with
  | @cons _ _ l linked rest =>
    obtain ⟨n, found, rfl⟩ := node_of_link linked
    have enough : l.length < st.heap.size + 1 := by
      have := (Chain.cons linked rest).length_le
      simp at this
      omega
    simp only [findIncluded, chainFuel, superOf, EStateM.run_bind, node_run_nodeAt, found,
      answerIn_some]
    exact findIncluded_go_miss rest enough (fun p mem => absent p (by simp [mem])) false

theorem origin_run {st : Store} {r : ObjRef} {n : ClassNode} (found : st.nodeAt r = some n) :
    (origin r).run st = .ok (n.origin.getD r) st := by
  simp only [origin, EStateM.run_bind, node_run_nodeAt, found, answerIn_some]
  rfl

def includeNode (a : ObjRef) (s : Option ObjRef) : ClassNode :=
  { kind := .include, super := s, module := some a }

theorem newIncludeNode_run {st : Store} {a : ObjRef} {na : ClassNode} (found : st.nodeAt a = some na)
    (outer : na.kind.isInner = false) (s : Option ObjRef) :
    (newIncludeNode a s).run st = .ok ⟨st.heap.size⟩
      { st with heap := st.heap.push { cls := some st.core.klass, body := .cls (includeNode a s) } } := by
  simp [newIncludeNode, EStateM.run_bind, node_run_nodeAt, found, outer, wellKnown, alloc_run,
    includeNode]

theorem exists_of_forall₂_mem {α β : Type} {R : α → β → Prop} :
    ∀ {l : List α} {l' : List β}, List.Forall₂ R l l' → ∀ {a : α}, a ∈ l → ∃ b ∈ l', R a b
  | _, _, .nil, _, mem => absurd mem List.not_mem_nil
  | _, _, .cons related rest, _, mem => by
    rcases List.mem_cons.1 mem with rfl | later
    · exact ⟨_, List.mem_cons_self, related⟩
    · obtain ⟨b, mem', r⟩ := exists_of_forall₂_mem rest later
      exact ⟨b, List.mem_cons_of_mem _ mem', r⟩

def Copies (st : Store) (p a : ObjRef) : Prop :=
  ∃ n, st.nodeAt p = some n ∧
    ((n.kind = .module ∧ n.origin = none ∧ a = p) ∨ (n.kind = .include ∧ n.module = some a)) ∧
    ∃ na, st.nodeAt a = some na ∧ na.kind = .module

theorem Copies.mentions {st : Store} {p a : ObjRef} (copies : st.Copies p a) : st.Mentions p a := by
  obtain ⟨n, found, own | ⟨incl, module⟩, -⟩ := copies
  · exact .inl own.2.2.symm
  · exact .inr ⟨n, found, by simp [incl, ClassKind.isInner], module⟩

theorem Copies.shownAt {st : Store} {p a : ObjRef} (copies : st.Copies p a) :
    st.shownAt p = some a := by
  obtain ⟨n, found, ⟨kind, origin, rfl⟩ | ⟨kind, module⟩, -⟩ := copies
  · simp [Store.shownAt, found, kind, ClassKind.isInner, origin]
  · simp [Store.shownAt, found, kind, ClassKind.isInner, module]

theorem Copies.within {st : Store} {p a : ObjRef} (copies : st.Copies p a) :
    a.idx < st.heap.size := by
  obtain ⟨-, -, -, na, found, -⟩ := copies
  exact within_of_nodeAt found

def unlinked (n : ClassNode) : ClassNode := { n with super := none }

theorem shownAt_of_unlinked {st t : Store} {q : ObjRef}
    (same : (t.nodeAt q).map unlinked = (st.nodeAt q).map unlinked) : t.shownAt q = st.shownAt q := by
  unfold shownAt
  cases now : t.nodeAt q <;> cases before : st.nodeAt q <;> simp_all [unlinked]

theorem mentions_of_unlinked {st t : Store} {q a : ObjRef}
    (same : (t.nodeAt q).map unlinked = (st.nodeAt q).map unlinked) (mentions : t.Mentions q a) :
    st.Mentions q a := by
  rcases mentions with here | ⟨n, now, inner, module⟩
  · exact .inl here
  · cases before : st.nodeAt q with
    | none => simp [now, before] at same
    | some n' =>
      simp only [now, before, Option.map_some, Option.some.injEq, unlinked, ClassNode.mk.injEq]
        at same
      obtain ⟨kind, -, -, -, module'⟩ := same
      exact .inr ⟨n', before, kind ▸ inner, module' ▸ module⟩

structure SplicedAfter (st t : Store) (ins : ObjRef) (rest news as : List ObjRef) : Prop where
  kept : ∀ p, p.idx < st.heap.size → p ≠ ins → t.nodeAt p = st.nodeAt p
  atIns : ∃ n x, st.nodeAt ins = some n ∧ t.nodeAt ins = some { n with super := x }
  chain : Chain t (some ins) (ins :: news ++ rest)
  nodes : List.Forall₂ (fun p a => ∃ x, t.nodeAt p = some (includeNode a x)) news as
  fresh : ∀ p ∈ news, st.heap.size ≤ p.idx
  grown : st.heap.size ≤ t.heap.size

namespace SplicedAfter

variable {st t : Store} {c ins : ObjRef} {front rest news as : List ObjRef}

theorem start (chain : Chain st (some c) (front ++ ins :: rest)) :
    SplicedAfter st st ins rest [] [] := by
  obtain ⟨n, found, -⟩ := node_of_link chain.link_of_split
  exact ⟨fun _ _ _ => rfl, ⟨n, n.super, found, by rw [found]⟩, chain.suffix, .nil, by simp,
    le_refl _⟩

theorem unlinked_old (spliced : SplicedAfter st t ins rest news as) {q : ObjRef}
    (old : q.idx < st.heap.size) :
    (t.nodeAt q).map unlinked = (st.nodeAt q).map unlinked := by
  by_cases here : q = ins
  · subst here
    obtain ⟨n, x, found, now⟩ := spliced.atIns
    simp [found, now, unlinked]
  · rw [spliced.kept q old here]

theorem mentions_old (spliced : SplicedAfter st t ins rest news as) {q a : ObjRef}
    (old : q.idx < st.heap.size) (mentions : t.Mentions q a) : st.Mentions q a :=
  mentions_of_unlinked (spliced.unlinked_old old) mentions

theorem new_of_mem (spliced : SplicedAfter st t ins rest news as) {q : ObjRef} (mem : q ∈ news) :
    ∃ a ∈ as, ∃ x, t.nodeAt q = some (includeNode a x) :=
  exists_of_forall₂_mem spliced.nodes mem

theorem chainFrom (spliced : SplicedAfter st t ins rest news as)
    (chain : Chain st (some c) (front ++ ins :: rest)) :
    Chain t (some c) (front ++ ins :: news ++ rest) := by
  have distinct := chain.nodup
  rw [List.append_assoc]
  refine chain.reattach (fun r mem => ?_) spliced.chain
  have other : r ≠ ins := by
    rintro rfl
    exact (List.nodup_append.1 distinct).2.2 r mem r (by simp) rfl
  rw [link_eq_nodeAt, link_eq_nodeAt, spliced.kept r (chain.lt_size r (by simp [mem])) other]

theorem absent (spliced : SplicedAfter st t ins rest news as) (chain : Chain st (some c) (front ++ ins :: rest))
    {a : ObjRef} (apart : ∀ q ∈ front ++ ins :: rest, ¬ st.Mentions q a) (newTarget : a ∉ as)
    (old : a.idx < st.heap.size) : ∀ q ∈ front ++ ins :: news ++ rest, ¬ t.Mentions q a := by
  intro q mem mentions
  by_cases made : q ∈ news
  · obtain ⟨a', mem', x, now⟩ := spliced.new_of_mem made
    have fresh := spliced.fresh q made
    rcases mentions with rfl | ⟨n, found, _, module⟩
    · omega
    · rw [now, Option.some.injEq] at found
      subst found
      simp only [includeNode, Option.some.injEq] at module
      exact newTarget (module ▸ mem')
  · have kept : q ∈ front ++ ins :: rest := by simp_all
    exact apart q kept (spliced.mentions_old (chain.lt_size q kept) mentions)

theorem last_link (spliced : SplicedAfter st t ins rest news as) {pre : List ObjRef} {insPos : ObjRef}
    (split : ins :: news = pre ++ [insPos]) : t.link insPos = some rest.head? := by
  have chain := spliced.chain
  rw [split, List.append_assoc, List.singleton_append] at chain
  exact chain.link_of_split

theorem extend (spliced : SplicedAfter st t ins rest news as) {pre : List ObjRef} {insPos a : ObjRef}
    (split : ins :: news = pre ++ [insPos]) {t' : Store} (size : t'.heap.size = t.heap.size + 1)
    (nodes' : ∀ r, t'.nodeAt r = if r = insPos then
      (t.nodeAt insPos).map ({ · with super := some ⟨t.heap.size⟩ })
      else if r = ⟨t.heap.size⟩ then some (includeNode a rest.head?) else t.nodeAt r) :
    SplicedAfter st t' ins rest (news ++ [⟨t.heap.size⟩]) (as ++ [a]) := by
  have chain := spliced.chain
  rw [split, List.append_assoc, List.singleton_append] at chain
  have inChain : ∀ r ∈ pre ++ insPos :: rest, r.idx < t.heap.size := chain.lt_size
  have distinct := chain.nodup
  have posWithin := inChain insPos (by simp)
  have apartNew : ∀ {r : ObjRef}, r.idx < t.heap.size → r ≠ ⟨t.heap.size⟩ := by
    rintro r within rfl
    simp at within
  have insPosOf : insPos = ins ∨ insPos ∈ news := by
    have : insPos ∈ ins :: news := by rw [split]; simp
    simpa using this
  obtain ⟨nI, foundI⟩ : ∃ nI, t.nodeAt insPos = some nI := by
    obtain ⟨nI, found, -⟩ := node_of_link chain.link_of_split
    exact ⟨nI, found⟩
  -- every node but the last one spliced and the new one is as it was
  have others : ∀ r, r ≠ insPos → r.idx < t.heap.size → t'.nodeAt r = t.nodeAt r := by
    intro r other within
    rw [nodes', if_neg other, if_neg (apartNew within)]
  refine ⟨fun p old other => ?_, ?_, ?_, ?_, ?_, ?_⟩
  · have notPos : p ≠ insPos := by
      rintro rfl
      rcases insPosOf with same | made
      · exact other same
      · have := spliced.fresh p made
        omega
    rw [others p notPos (by have := spliced.grown; omega), spliced.kept p old other]
  · obtain ⟨n, x, found, now⟩ := spliced.atIns
    by_cases here : ins = insPos
    · subst here
      exact ⟨n, some ⟨t.heap.size⟩, found, by rw [nodes', if_pos rfl, now]; rfl⟩
    · exact ⟨n, x, found, by rw [others ins here (spliced.chain.lt_size ins (by simp)), now]⟩
  · rw [← List.cons_append, split, List.append_assoc, List.append_assoc, List.singleton_append,
      List.singleton_append]
    refine chain.insert_after ?_ ?_ fun r mem => ?_
    · rw [link_eq_nodeAt, nodes', if_pos rfl, foundI]
      rfl
    · rw [link_eq_nodeAt, nodes', if_neg (apartNew posWithin).symm, if_pos rfl]
      rfl
    · have notPos : r ≠ insPos := by
        rintro rfl
        rcases List.mem_append.1 mem with inPre | inRest
        · exact (List.nodup_append.1 distinct).2.2 r inPre r (by simp) rfl
        · exact (List.nodup_cons.1 (List.nodup_append.1 distinct).2.1).1 inRest
      have within : r.idx < t.heap.size :=
        inChain r (by rcases List.mem_append.1 mem with h | h <;> simp [h])
      rw [link_eq_nodeAt, link_eq_nodeAt, others r notPos within]
  · refine List.rel_append (List.Forall₂.imp (fun q a' ⟨x, now⟩ => ?_) spliced.nodes)
      (.cons ⟨rest.head?, ?_⟩ .nil)
    · rw [nodes', if_neg (apartNew posWithin).symm, if_pos rfl]
    · -- the last node spliced so far now links to the new one
      by_cases here : q = insPos
      · subst here
        exact ⟨some ⟨t.heap.size⟩, by rw [nodes', if_pos rfl, now]; rfl⟩
      · exact ⟨x, by rw [others q here (within_of_nodeAt now), now]⟩
  · intro q mem
    rcases List.mem_append.1 mem with made | now
    · exact spliced.fresh q made
    · simp only [List.mem_singleton] at now
      subst now
      exact spliced.grown
  · have := spliced.grown
    omega

end SplicedAfter

section Splice

variable {st : Store} {c ins : ObjRef} {front rest : List ObjRef}

theorem includeAt_go_step (chain : Chain st (some c) (front ++ ins :: rest)) {t : Store}
    {news as pre : List ObjRef} {insPos p a : ObjRef} (spliced : SplicedAfter st t ins rest news as)
    (split : ins :: news = pre ++ [insPos]) (copies : st.Copies p a) (old : p.idx < st.heap.size)
    (apart : ∀ q ∈ front ++ ins :: rest, ¬ st.Mentions q a) (newTarget : a ∉ as) (f : Nat) :
    ∃ n t', st.nodeAt p = some n ∧
      (includeAt.go c true (some p) insPos (f + 1)).run t =
        (includeAt.go c true n.super ⟨t.heap.size⟩ f).run t' ∧
      SplicedAfter st t' ins rest (news ++ [⟨t.heap.size⟩]) (as ++ [a]) := by
  have mentions := copies.mentions
  have aWithin := copies.within
  obtain ⟨n, found, kinds, na, foundA, moduleA⟩ := copies
  have notIns : p ≠ ins := fun same => apart ins (by simp) (same ▸ mentions)
  have nowP : t.nodeAt p = some n := (spliced.kept p old notIns).trans found
  have aNotIns : a ≠ ins := fun same => apart ins (by simp) (.inl same.symm)
  have nowA : t.nodeAt a = some na := (spliced.kept a aWithin aNotIns).trans foundA
  -- the module's node is neither a class, which ends the copying, nor an origin, which is skipped
  have passes : (n.kind == .ordinary || n.kind == .singleton) = false ∧ (n.kind == .origin) = false ∧
      (if n.kind.isInner then n.module.getD p else p) = a := by
    rcases kinds with ⟨kind, -, rfl⟩ | ⟨kind, module⟩
    · simp [kind, ClassKind.isInner]
    · simp [kind, module, ClassKind.isInner]
  have search : (findIncluded c a insPos true).run t = .ok (false, insPos) t :=
    findIncluded_miss (spliced.chainFrom chain)
      (spliced.absent chain apart newTarget aWithin)
  have after : (superOf insPos).run t = .ok rest.head? t := by
    obtain ⟨nI, foundI, super⟩ := node_of_link (spliced.last_link split)
    rw [superOf_run, foundI, Option.map_some, super, answerIn_some]
  have made := newIncludeNode_run nowA (by simp [moduleA, ClassKind.isInner]) rest.head?
  obtain ⟨nI, foundI, -⟩ := node_of_link (spliced.last_link split)
  have posWithin : insPos.idx < t.heap.size := within_of_nodeAt foundI
  have foundI' : ({ t with heap := t.heap.push ⟨some t.core.klass, false, {}, 0,
      .cls (includeNode a rest.head?)⟩ } : Store).nodeAt insPos = some nI := by
    rw [nodeAt_push, if_neg (by omega), foundI]
  obtain ⟨t', linked, size, -, nodes'⟩ := modifyNode_run_nodeAt foundI'
    (fun k => { k with super := some ⟨t.heap.size⟩ })
  refine ⟨n, t', found, ?_, spliced.extend split (by simpa using size) fun r => ?_⟩
  · simp only [includeAt.go, EStateM.run_bind, node_run_nodeAt, nowP, answerIn_some, passes,
      Bool.false_eq_true, if_false, search, after, made, linked]
  · rw [nodes', nodeAt_push, foundI]
    by_cases here : r = insPos
    · simp [here]
    · by_cases new : r = ⟨t.heap.size⟩
      · subst new
        simp [here, Obj.node?]
      · have apartIdx : r.idx ≠ t.heap.size := fun h => new (by cases r; simp_all)
        simp [here, new, apartIdx]

theorem includeAt_go_run (chain : Chain st (some c) (front ++ ins :: rest)) {s : Option ObjRef}
    {walk : List ObjRef} (walked : Chain st s walk) :
    ∀ {copied : List ObjRef} {t : Store} {news as pre : List ObjRef} {insPos : ObjRef} {fuel : Nat},
      List.Forall₂ st.Copies walk copied → walk.length < fuel → SplicedAfter st t ins rest news as →
      ins :: news = pre ++ [insPos] → (∀ q ∈ front ++ ins :: rest, ∀ a ∈ copied, ¬ st.Mentions q a) →
      (as ++ copied).Nodup →
      ∃ t' news', (includeAt.go c true s insPos fuel).run t = .ok () t' ∧
        SplicedAfter st t' ins rest (news ++ news') (as ++ copied) := by
  induction walked with
  | nil =>
    intro copied t news as pre insPos fuel copies enough spliced _ _ _
    cases copies
    obtain ⟨f, rfl⟩ : ∃ f, fuel = f + 1 := Nat.exists_eq_add_one_of_ne_zero (by simp at enough; omega)
    exact ⟨t, [], rfl, by simpa using spliced⟩
  | @cons p s walk linked _ ih =>
    intro copied t news as pre insPos fuel copies enough spliced split apart distinct
    obtain ⟨f, rfl⟩ : ∃ f, fuel = f + 1 := Nat.exists_eq_add_one_of_ne_zero (by simp at enough; omega)
    cases copies with
    | @cons _ a _ copied' first others =>
      have newTarget : a ∉ as := fun mem =>
        (List.nodup_append.1 distinct).2.2 a mem a (by simp) rfl
      obtain ⟨n, t₁, found, step, spliced₁⟩ := includeAt_go_step chain spliced split first
        (lt_size_of_link linked) (fun q mem => apart q mem a (by simp)) newTarget f
      obtain ⟨n', found', super⟩ := node_of_link linked
      rw [found] at found'
      cases found'
      obtain ⟨t', news', run, spliced'⟩ := ih others (by simp at enough; omega) spliced₁
        (by rw [← List.cons_append, split]) (fun q mem a' mem' => apart q mem a' (by simp [mem']))
        (by simpa using distinct)
      refine ⟨t', ⟨t.heap.size⟩ :: news', by rw [step, super, run], ?_⟩
      simpa using spliced'

end Splice

theorem shown_copies {st : Store} : ∀ {l as : List ObjRef}, List.Forall₂ st.Copies l as → st.shown l = as
  | _, _, .nil => rfl
  | _, _, .cons first rest => by simp [first.shownAt, shown_copies rest]

theorem shown_news {t : Store} : ∀ {news as : List ObjRef},
    List.Forall₂ (fun p a => ∃ x, t.nodeAt p = some (includeNode a x)) news as → t.shown news = as
  | _, _, .nil => rfl
  | _, _, .cons ⟨x, found⟩ rest => by
    simp [shown_news rest, shownAt, found, includeNode, ClassKind.isInner]

theorem Copies.mentioned {st : Store} {p a c : ObjRef} (copies : st.Copies p a)
    (mentions : st.Mentions p c) : p = c ∨ a = c := by
  obtain ⟨n, found, ⟨kind, -, -⟩ | ⟨-, module⟩, -⟩ := copies <;>
    rcases mentions with same | ⟨n', found', inner, module'⟩
  · exact .inl same
  · rw [found, Option.some.injEq] at found'
    subst found'
    simp [kind, ClassKind.isInner] at inner
  · exact .inl same
  · rw [found, Option.some.injEq] at found'
    subst found'
    rw [module] at module'
    exact .inr (Option.some.inj module')

theorem tableAt_copy {st t : Store} {p a q : ObjRef} {x : Option ObjRef} (copies : st.Copies p a)
    (same : t.nodeAt p = st.nodeAt p) (made : t.nodeAt q = some (includeNode a x)) : t.tableAt q = t.tableAt p := by
  obtain ⟨n, found, ⟨kind, origin, rfl⟩ | ⟨kind, module⟩, -⟩ := copies
  · simp [tableAt, made, includeNode, same, found, kind, origin]
  · simp [tableAt, made, includeNode, same, found, kind, module]

theorem tables_copied {st t : Store} : ∀ {l news as : List ObjRef},
    List.Forall₂ st.Copies l as →
    List.Forall₂ (fun p a => ∃ x, t.nodeAt p = some (includeNode a x)) news as →
    (∀ p ∈ l, t.nodeAt p = st.nodeAt p) → List.Forall₂ (fun p q => t.tableAt q = t.tableAt p) l news
  | _, _, _, .nil, .nil, _ => .nil
  | _, _, _, .cons first rest, .cons ⟨_, made⟩ rest', same =>
    .cons (tableAt_copy first (same _ (by simp)) made)
      (tables_copied rest rest' fun p mem => same p (by simp [mem]))

theorem firstEntry_skip {t : Store} {mid : Sym} :
    ∀ {own : List ObjRef}, (∀ q ∈ own, ∃ table, t.tableAt q = some table ∧ table.get? mid = none) →
      ∀ l, t.firstEntry mid (own ++ l) = t.firstEntry mid l
  | [], _, _ => rfl
  | q :: own, open', l => by
    obtain ⟨table, found, none⟩ := open' q (by simp)
    simp only [List.cons_append, firstEntry, found, Option.bind_eq_bind, Option.bind_some, none]
    exact firstEntry_skip (fun q' mem => open' q' (by simp [mem])) l

theorem firstEntry_tables {t : Store} {mid : Sym} {meth : Method} :
    ∀ {l l' : List ObjRef} {o : ObjRef}, List.Forall₂ (fun p q => t.tableAt q = t.tableAt p) l l' →
      t.firstEntry mid l = some (meth, some o) →
      ∀ L, ∃ o', t.firstEntry mid (l' ++ L) = some (meth, some o') := by
  intro l l' o tables
  -- along the two lists together: each pair of nodes shows one table
  induction tables with
  | nil =>
    intro found
    simp [firstEntry] at found
  | @cons p q l l' same rest ih =>
    intro found L
    simp only [firstEntry, Option.bind_eq_bind] at found
    simp only [List.cons_append, firstEntry, Option.bind_eq_bind, same]
    cases shows : t.tableAt p with
    | none => simp [shows] at found
    | some table =>
      simp only [shows, Option.bind_some] at found ⊢
      cases entry : table.get? mid with
      | some m =>
        simp only [entry, Option.pure_def, Option.some.injEq, Prod.mk.injEq] at found
        exact ⟨q, by simp [found.1]⟩
      | none =>
        simp only [entry] at found ⊢
        exact ih found L

namespace SplicedAfter

variable {st t : Store} {c ins : ObjRef} {front rest news as : List ObjRef}

theorem onHeap (spliced : SplicedAfter st t ins rest news as) {u : Store} (same : u.heap = t.heap) :
    SplicedAfter st u ins rest news as := by
  have nodes : ∀ r, u.nodeAt r = t.nodeAt r := fun r => by simp [nodeAt, same]
  obtain ⟨n, x, found, now⟩ := spliced.atIns
  exact ⟨fun p old other => (nodes p).trans (spliced.kept p old other), ⟨n, x, found, (nodes ins).trans now⟩,
    spliced.chain.congr fun r _ => by rw [link_eq_nodeAt, link_eq_nodeAt, nodes],
    spliced.nodes.imp fun {p _} made => made.imp fun _ => (nodes p).trans, spliced.fresh, same ▸ spliced.grown⟩

theorem ancestors_splice (spliced : SplicedAfter st t ins rest news as)
    (chain : Chain st (some c) (front ++ ins :: rest)) :
    (ancestors c).run t = .ok (st.shown (front ++ [ins]) ++ as ++ st.shown rest).toArray t := by
  -- old nodes show as before: only links changed
  have keep : ∀ l, (∀ q ∈ l, q ∈ front ++ ins :: rest) → t.shown l = st.shown l :=
    fun l sub => List.filterMap_congr fun q mem =>
      shownAt_of_unlinked (spliced.unlinked_old (chain.lt_size q (sub q mem)))
  have now : Chain t (some c) ((front ++ [ins]) ++ news ++ rest) := by
    simpa using spliced.chainFrom chain
  rw [ancestors_run now, shown_append, shown_append, keep _ (by intro q; simp; tauto),
    shown_news spliced.nodes, keep rest (by simp +contextual)]

theorem lookup_through_copies (spliced : SplicedAfter st t ins rest news as)
    (chain : Chain st (some c) (front ++ ins :: rest)) {s : Option ObjRef} {l : List ObjRef}
    (walked : Chain st s l) (copies : List.Forall₂ st.Copies l as) (away : ins ∉ l)
    {mid : Sym} {meth : Method} {o : ObjRef}
    (openOwn : ∀ q ∈ front ++ [ins], ∃ table, t.tableAt q = some table ∧ table.get? mid = none)
    (found : (lookup s mid).run t = .ok (meth, some o) t) :
    ∃ o', (lookup (some c) mid).run t = .ok (meth, some o') t := by
  have kept : ∀ p ∈ l, t.nodeAt p = st.nodeAt p := fun p mem =>
    spliced.kept p (walked.lt_size p mem) fun same => away (same ▸ mem)
  have now : Chain t s l := walked.congr fun p mem => by
    rw [link_eq_nodeAt, link_eq_nodeAt, kept p mem]
  have cNow : Chain t (some c) ((front ++ [ins]) ++ (news ++ rest)) := by
    simpa using spliced.chainFrom chain
  rw [lookup_run now, answerIn_eq_ok] at found
  obtain ⟨o', entry⟩ := firstEntry_tables (tables_copied copies spliced.nodes kept) found.2 rest
  exact ⟨o', by rw [lookup_run cNow, firstEntry_skip openOwn, entry, answerIn_some]⟩

end SplicedAfter

theorem include_splices_module_ancestors {st : Store} {c m ins : ObjRef} {nc nm : ClassNode}
    {front rest incs mods : List ObjRef}
    (cNode : st.nodeAt c = some nc) (own : nc.origin.getD c = ins)
    (cChain : Chain st (some c) (front ++ ins :: rest))
    (mNode : st.nodeAt m = some nm) (isModule : nm.kind = .module) (unprepended : nm.origin = none)
    (mChain : Chain st (some m) (m :: incs)) (copies : List.Forall₂ st.Copies incs mods)
    (distinct : (m :: mods).Nodup)
    (apart : ∀ q ∈ front ++ ins :: rest, ∀ a ∈ m :: mods, ¬ st.Mentions q a) :
    ∃ t, (includeModule c m).run st = .ok none t ∧
      (ancestors m).run st = .ok (m :: mods).toArray st ∧
      (ancestors c).run st = .ok (st.shown (front ++ [ins]) ++ st.shown rest).toArray st ∧
      (ancestors c).run t = .ok (st.shown (front ++ [ins]) ++ m :: mods ++ st.shown rest).toArray t ∧
      ∀ mid meth o, (∀ q ∈ front ++ [ins], ∃ table, t.tableAt q = some table ∧ table.get? mid = none) →
        (lookup (some m) mid).run t = .ok (meth, some o) t →
        ∃ o', (lookup (some c) mid).run t = .ok (meth, some o') t := by
  have allCopies : List.Forall₂ st.Copies (m :: incs) (m :: mods) :=
    .cons ⟨nm, mNode, .inl ⟨isModule, unprepended, rfl⟩, nm, mNode, isModule⟩ copies
  have cMem : c ∈ front ++ ins :: rest := by
    have first := cChain.head
    cases front <;> simp_all
  -- the mix-in is allowed: the module's chain does not stand for the class
  have other : c ≠ m := fun same => apart c cMem m (by simp) (.inl same)
  have absent : ∀ p ∈ m :: incs, ¬ st.Mentions p c := by
    intro p mem mentions
    obtain ⟨a, memA, copy⟩ := exists_of_forall₂_mem allCopies mem
    rcases copy.mentioned mentions with same | same
    · subst same
      exact apart p cMem a memA copy.mentions
    · subst same
      exact apart a cMem a memA (.inl rfl)
  have split : ins :: [] = [] ++ [ins] := rfl
  obtain ⟨t', news, loop, spliced⟩ := includeAt_go_run cChain mChain allCopies
    (Nat.lt_succ_of_le mChain.length_le) (SplicedAfter.start cChain) split
    (fun q mem a memA => apart q mem a memA) (by simpa using distinct)
  simp only [List.nil_append] at spliced
  have away : ins ∉ m :: incs := fun mem => by
    obtain ⟨a, memA, copy⟩ := exists_of_forall₂_mem allCopies mem
    exact apart ins (by simp) a memA copy.mentions
  have flushed := spliced.onHeap (u := { t' with cache := {} }) rfl
  refine ⟨{ t' with cache := {} }, ?_, ?_, ?_, flushed.ancestors_splice cChain,
    fun mid meth o openOwn found => flushed.lookup_through_copies cChain mChain allCopies away openOwn found⟩
  · simp only [includeModule, includeAt, chainFuel, bind_pure_comp, bind_map_left, flushCache,
      bind_assoc, EStateM.run_bind, checkMixin_run_none mNode isModule mChain other absent,
      origin_run cNode, own, EStateM.run_get, loop]
    rfl
  · rw [ancestors_run mChain, shown_copies allCopies]
  · rw [ancestors_run cChain, show front ++ ins :: rest = (front ++ [ins]) ++ rest by simp,
      shown_append]

def classAndIncludingModule : Store :=
  { heap := #[{ cls := none, body := .cls { kind := .ordinary } },
      { cls := none, body := .cls { kind := .ordinary, super := some ⟨0⟩ } },
      { cls := none, body := .cls { kind := .module } },
      { cls := none, body := .cls { kind := .module, super := some ⟨4⟩ } },
      { cls := none, body := .cls (includeNode ⟨2⟩ none) }] }

theorem including_module_with_include_into_class :
    ∃ t, (includeModule ⟨1⟩ ⟨3⟩).run classAndIncludingModule = .ok none t ∧
      (ancestors ⟨3⟩).run classAndIncludingModule = .ok #[⟨3⟩, ⟨2⟩] classAndIncludingModule ∧
      (ancestors ⟨1⟩).run classAndIncludingModule = .ok #[⟨1⟩, ⟨0⟩] classAndIncludingModule ∧
      (ancestors ⟨1⟩).run t = .ok #[⟨1⟩, ⟨3⟩, ⟨2⟩, ⟨0⟩] t := by
  have cChain : Chain classAndIncludingModule (some ⟨1⟩) ([] ++ ⟨1⟩ :: [⟨0⟩]) :=
    .cons rfl (.cons rfl .nil)
  have mChain : Chain classAndIncludingModule (some ⟨3⟩) [⟨3⟩, ⟨4⟩] := .cons rfl (.cons rfl .nil)
  have copies : List.Forall₂ classAndIncludingModule.Copies [⟨4⟩] [⟨2⟩] :=
    .cons ⟨_, rfl, .inr ⟨rfl, rfl⟩, _, rfl, rfl⟩ .nil
  have classes : ∀ q ∈ [] ++ ⟨1⟩ :: [⟨0⟩], ∃ n, classAndIncludingModule.nodeAt q = some n ∧
      n.kind = .ordinary := by
    simp only [List.nil_append, List.mem_cons, List.not_mem_nil, or_false, forall_eq_or_imp, forall_eq]
    exact ⟨⟨_, rfl, rfl⟩, ⟨_, rfl, rfl⟩⟩
  have apart : ∀ q ∈ [] ++ ⟨1⟩ :: [⟨0⟩], ∀ a ∈ [⟨3⟩, ⟨2⟩], ¬ classAndIncludingModule.Mentions q a := by
    intro q mem a memA mentions
    obtain ⟨n, found, kind⟩ := classes q mem
    rcases mentions with rfl | ⟨n', found', inner, -⟩
    · simp only [List.mem_cons, List.not_mem_nil, or_false] at memA
      rcases memA with rfl | rfl <;> simp at mem
    · rw [found, Option.some.injEq] at found'
      subst found'
      simp [kind, ClassKind.isInner] at inner
  have cNode : classAndIncludingModule.nodeAt ⟨1⟩ = some { kind := .ordinary, super := some ⟨0⟩ } :=
    rfl
  have mNode : classAndIncludingModule.nodeAt ⟨3⟩ = some { kind := .module, super := some ⟨4⟩ } :=
    rfl
  obtain ⟨t, run, mBefore, cBefore, cAfter, -⟩ := include_splices_module_ancestors cNode rfl cChain
    mNode rfl rfl mChain copies (by decide) apart
  exact ⟨t, run, mBefore, cBefore, cAfter⟩

def objectClassAndTwoModules : Store :=
  { heap := #[{ cls := none, body := .cls { kind := .ordinary } },
      { cls := none, body := .cls { kind := .ordinary, super := some ⟨0⟩ } },
      { cls := none, body := .cls { kind := .module } },
      { cls := none, body := .cls { kind := .module } }] }

theorem include_after_prepend_puts_module_first :
    (do
      let prepended ← prependModule ⟨2⟩ ⟨3⟩
      let before ← ancestors ⟨2⟩
      let included ← includeModule ⟨1⟩ ⟨2⟩
      let after ← ancestors ⟨1⟩
      pure (prepended, before, included, after)).run' objectClassAndTwoModules =
      some (none, #[⟨3⟩, ⟨2⟩], none, #[⟨1⟩, ⟨2⟩, ⟨3⟩, ⟨0⟩]) := by
  decide +kernel

end Store

end RegisterVM
