import RegisterVM.Proofs.Class.Tables

set_option autoImplicit false

namespace RegisterVM

namespace Store

def listable (st : Store) (mid : Sym) (m : Method) : Bool :=
  m.defined && !(st.symText mid).startsWith "__"

def listEntry (s0 : Store) (acc : Std.HashMap Sym Unit × Array Sym) (entry : Sym × Method) :
    Std.HashMap Sym Unit × Array Sym :=
  if acc.1.contains entry.1 then acc
  else if s0.listable entry.1 entry.2 then (acc.1.insert entry.1 (), acc.2.push entry.1)
  else (acc.1.insert entry.1 (), acc.2)

def listedPart (k o : ObjRef) (inherit : Bool) (l : List ObjRef) : List ObjRef :=
  l.takeWhile fun p => inherit || p == k || p == o

def ShownAlong (st : Store) (l : List ObjRef) (mid : Sym) : Prop :=
  ∃ m p, st.firstEntry mid l = some (m, some p) ∧ st.listable mid m = true

def originOf (st : Store) (k : ObjRef) : ObjRef := ((st.nodeAt k).bind (·.origin)).getD k

def HasOwnMethod (st : Store) (k : ObjRef) (mid : Sym) : Prop :=
  ∃ tb m, st.tableAt (st.originOf k) = some tb ∧ tb[mid]? = some m ∧ m.defined = true

section Entries

variable (s0 : Store)

theorem contains_listEntry (acc : Std.HashMap Sym Unit × Array Sym) (e : Sym × Method) (x : Sym) :
    (listEntry s0 acc e).1.contains x = true ↔ acc.1.contains x = true ∨ e.1 = x := by
  unfold listEntry
  split
  · rename_i met
    constructor
    · exact .inl
    · rintro (known | rfl)
      · exact known
      · exact met
  · split <;> simp [Std.HashMap.contains_insert, or_comm]

theorem listEntry_out (acc : Std.HashMap Sym Unit × Array Sym) (e : Sym × Method) :
    (listEntry s0 acc e).2.toList =
      acc.2.toList ++ if (!acc.1.contains e.1 && s0.listable e.1 e.2) = true then [e.1] else [] := by
  unfold listEntry
  by_cases met : acc.1.contains e.1 = true
  · simp [met]
  · by_cases shown : s0.listable e.1 e.2 = true <;> simp [met, shown]

theorem contains_foldl_listEntry (es : List (Sym × Method)) (acc : Std.HashMap Sym Unit × Array Sym)
    (x : Sym) : (es.foldl (listEntry s0) acc).1.contains x = true ↔
      acc.1.contains x = true ∨ ∃ m, (x, m) ∈ es := by
  induction es generalizing acc with
  | nil => simp
  | cons e es ih =>
    obtain ⟨y, m⟩ := e
    rw [List.foldl_cons, ih, contains_listEntry]
    constructor
    · rintro ((known | rfl) | ⟨m', later⟩)
      · exact .inl known
      · exact .inr ⟨m, List.mem_cons_self⟩
      · exact .inr ⟨m', List.mem_cons_of_mem _ later⟩
    · rintro (known | ⟨m', here | ⟨_, later⟩⟩)
      · exact .inl (.inl known)
      · exact .inl (.inr rfl)
      · exact .inr ⟨m', later⟩

theorem foldl_listEntry_out {es : List (Sym × Method)}
    (distinct : es.Pairwise fun a b => (a.1 == b.1) = false) (acc : Std.HashMap Sym Unit × Array Sym) :
    (es.foldl (listEntry s0) acc).2.toList =
      acc.2.toList ++ ((es.filter fun e => !acc.1.contains e.1 && s0.listable e.1 e.2).map Prod.fst) := by
  induction es generalizing acc with
  | nil => simp
  | cons e es ih =>
    obtain ⟨apart, distinct⟩ := List.pairwise_cons.mp distinct
    -- the later entries have other names, so marking `e` changes none of their tests
    have same : (es.filter fun e' => !(listEntry s0 acc e).1.contains e'.1 && s0.listable e'.1 e'.2) =
        es.filter fun e' => !acc.1.contains e'.1 && s0.listable e'.1 e'.2 := by
      refine List.filter_congr fun e' later => ?_
      have other : e.1 ≠ e'.1 := by simpa using apart e' later
      have kept : (listEntry s0 acc e).1.contains e'.1 = acc.1.contains e'.1 :=
        Bool.eq_iff_iff.mpr ((contains_listEntry s0 acc e e'.1).trans (or_iff_left other))
      rw [kept]
    rw [List.foldl_cons, ih distinct, same, listEntry_out, List.filter_cons]
    split <;> simp_all

variable (T : Std.HashMap Sym Method) (acc : Std.HashMap Sym Unit × Array Sym)

theorem contains_foldl_table (x : Sym) :
    (T.toList.foldl (listEntry s0) acc).1.contains x = (acc.1.contains x || T.contains x) := by
  have keys : (∃ m, (x, m) ∈ T.toList) ↔ T.contains x = true := by
    simp only [Std.HashMap.mem_toList_iff_getElem?_eq_some, Std.HashMap.contains_eq_isSome_getElem?,
      Option.isSome_iff_exists]
  rw [Bool.eq_iff_iff, Bool.or_eq_true, contains_foldl_listEntry, keys]

theorem mem_foldl_table (x : Sym) :
    x ∈ (T.toList.foldl (listEntry s0) acc).2 ↔
      x ∈ acc.2 ∨ (acc.1.contains x = false ∧ ∃ m, T[x]? = some m ∧ s0.listable x m = true) := by
  rw [← Array.mem_toList_iff, foldl_listEntry_out s0 T.distinct_keys_toList]
  simp only [List.mem_append, Array.mem_toList_iff, List.mem_map, List.mem_filter, Bool.and_eq_true,
    Bool.not_eq_true']
  constructor
  · rintro (listed | ⟨⟨y, m⟩, ⟨found, fresh, shown⟩, rfl⟩)
    · exact .inl listed
    · exact .inr ⟨fresh, m, Std.HashMap.mem_toList_iff_getElem?_eq_some.mp found, shown⟩
  · rintro (listed | ⟨fresh, m, found, shown⟩)
    · exact .inl listed
    · exact .inr ⟨(x, m), ⟨Std.HashMap.mem_toList_iff_getElem?_eq_some.mpr found, fresh, shown⟩, rfl⟩

theorem nodup_foldl_table (nodup : acc.2.toList.Nodup) (met : ∀ x ∈ acc.2, acc.1.contains x = true) :
    (T.toList.foldl (listEntry s0) acc).2.toList.Nodup ∧
      ∀ x ∈ (T.toList.foldl (listEntry s0) acc).2, (T.toList.foldl (listEntry s0) acc).1.contains x = true := by
  refine ⟨?_, fun x listed => ?_⟩
  · rw [foldl_listEntry_out s0 T.distinct_keys_toList, List.nodup_append]
    refine ⟨nodup, ?_, ?_⟩
    · -- the names of a table's entries are distinct
      refine List.pairwise_map.mpr ((T.distinct_keys_toList.filter _).imp fun {a b} apart same => ?_)
      simp [same] at apart
    · intro x old y new same
      subst same
      obtain ⟨e, chosen, rfl⟩ := List.mem_map.mp new
      have fresh := (List.mem_filter.mp chosen).2
      simp [met e.1 (Array.mem_toList_iff.mp old)] at fresh
  · rw [contains_foldl_table, Bool.or_eq_true]
    rcases (mem_foldl_table s0 T acc x).mp listed with old | ⟨-, m, found, -⟩
    · exact .inl (met x old)
    · exact .inr (by rw [Std.HashMap.contains_eq_isSome_getElem?, found]; rfl)

end Entries

theorem not_shownAlong_nil (st : Store) (mid : Sym) : ¬ st.ShownAlong [] mid := by
  rintro ⟨m, p, found, -⟩
  simp [firstEntry] at found

theorem shownAlong_cons {st : Store} {p : ObjRef} {T : Std.HashMap Sym Method}
    (table : st.tableAt p = some T) (l : List ObjRef) (mid : Sym) :
    st.ShownAlong (p :: l) mid ↔
      (∃ m, T[mid]? = some m ∧ st.listable mid m = true) ∨ (T[mid]? = none ∧ st.ShownAlong l mid) := by
  unfold ShownAlong
  simp only [firstEntry, table, Option.bind_eq_bind, Option.bind_some, Std.HashMap.get?_eq_getElem?]
  cases T[mid]? with
  | some m => simp
  | none => simp

theorem instanceMethods_go_run {st : Store} (moored : st.Moored) (k o : ObjRef) (inherit : Bool)
    {s : Option ObjRef} {l : List ObjRef} (chain : Chain st s l) {fuel : Nat} (enough : l.length < fuel)
    (seen : Std.HashMap Sym Unit) (out : Array Sym) :
    ∃ out', (instanceMethods.go k inherit s o st fuel seen out).run st = .ok out' st ∧
      (∀ x, x ∈ out' ↔ x ∈ out ∨ (seen.contains x = false ∧ st.ShownAlong (listedPart k o inherit l) x)) ∧
      (out.toList.Nodup → (∀ x ∈ out, seen.contains x = true) → out'.toList.Nodup) := by
  induction chain generalizing fuel seen out with
  | nil =>
    obtain ⟨f, rfl⟩ : ∃ f, fuel = f + 1 := Nat.exists_eq_add_one_of_ne_zero (by simp at enough; omega)
    refine ⟨out, rfl, fun x => ?_, fun nodup _ => nodup⟩
    simp [listedPart, not_shownAlong_nil]
  | @cons r s l linked rest ih =>
    obtain ⟨f, rfl⟩ : ∃ f, fuel = f + 1 := Nat.exists_eq_add_one_of_ne_zero (by simp at enough; omega)
    have within : l.length < f := by simp at enough; omega
    simp only [instanceMethods.go]
    split
    · -- the walk stops at a node that is neither the class nor its origin
      rename_i stop
      have part : listedPart k o inherit (r :: l) = [] := by
        simp only [Bool.and_eq_true, Bool.not_eq_true', bne_iff_ne, ne_eq] at stop
        simp [listedPart, stop]
      exact ⟨out, rfl, fun x => by simp [part, not_shownAlong_nil], fun nodup _ => nodup⟩
    · rename_i goOn
      obtain ⟨T, table⟩ := moored.tableAt_of_link linked
      have keep : (inherit || r == k || r == o) = true := by
        cases inherit <;> by_cases same : r = k <;> simp_all
      have part : listedPart k o inherit (r :: l) = r :: listedPart k o inherit l :=
        List.takeWhile_cons_of_pos keep
      have next : (st.nodeAt r).map (·.super) = some s := by rw [← link_eq_nodeAt]; exact linked
      simp only [EStateM.run_bind, tableOf_run, table, answerIn_some, superOf_run, next]
      -- the table of `r` is read entry by entry, then the walk goes on from where `r` links
      obtain ⟨out', run, listed, nodup⟩ :=
        ih within (T.toList.foldl (listEntry st) (seen, out)).1 (T.toList.foldl (listEntry st) (seen, out)).2
      refine ⟨out', run, fun x => ?_, fun nodup₀ met₀ => ?_⟩
      · rw [listed, part, shownAlong_cons table, mem_foldl_table, contains_foldl_table]
        cases found : T[x]? with
        | none =>
          have absent : T.contains x = false := by rw [Std.HashMap.contains_eq_isSome_getElem?, found]; rfl
          simp [absent]
        | some m =>
          have present : T.contains x = true := by rw [Std.HashMap.contains_eq_isSome_getElem?, found]; rfl
          simp [present]
      · obtain ⟨nodup₁, met₁⟩ := nodup_foldl_table st T (seen, out) nodup₀ met₀
        exact nodup nodup₁ met₁

theorem instanceMethods_run {st : Store} (moored : st.Moored) (acyclic : st.Acyclic) {k : ObjRef}
    (isNode : st.nodeAt k ≠ none) (inherit : Bool) :
    ∃ l out, Chain st (some k) l ∧ (instanceMethods k inherit).run st = .ok out st ∧ out.toList.Nodup ∧
      ∀ x, x ∈ out ↔ st.ShownAlong (listedPart k (st.originOf k) inherit l) x := by
  obtain ⟨n, found⟩ := Option.ne_none_iff_exists'.mp isNode
  obtain ⟨l, chain⟩ := acyclic.ends_of_link (by rw [link_eq_nodeAt, found]; simp)
  obtain ⟨out, run, listed, nodup⟩ := instanceMethods_go_run moored k (st.originOf k) inherit chain
    (Nat.lt_succ_of_le chain.length_le) {} #[]
  refine ⟨l, out, chain, ?_, nodup (by simp) (by simp), fun x => by simpa using listed x⟩
  have start : (origin k).run st = .ok (st.originOf k) st := by
    simp only [origin, EStateM.run_bind, node_run_nodeAt, found, answerIn_some]
    simp [originOf, found]
  simp only [instanceMethods, EStateM.run_bind, start, chainFuel]
  exact run

theorem resolve_defined_iff {st : Store} (moored : st.Moored) (coherent : st.CacheCoherent)
    {cls : Option ObjRef} {l : List ObjRef} (chain : Chain st cls l) (mid : Sym) :
    (∃ m o t, (resolve cls mid).run st = .ok (some (m, o)) t) ↔
      ∃ m p, st.firstEntry mid l = some (m, some p) ∧ m.defined = true := by
  obtain ⟨e, first, walk⟩ := moored.lookup_run chain mid
  obtain ⟨t, answer⟩ := coherent.resolve_answer walk
  rw [first]
  constructor
  · rintro ⟨m, o, t', run⟩
    rw [answer] at run
    obtain ⟨m', p⟩ := e
    cases p with
    | none => simp [lookupAnswer] at run
    | some p =>
      by_cases defined : m'.defined = true
      · exact ⟨m', p, rfl, defined⟩
      · simp [lookupAnswer, defined] at run
  · rintro ⟨m, p, same, defined⟩
    cases same
    exact ⟨m, p, t, by simpa [lookupAnswer, defined] using answer⟩

theorem shownAlong_iff (st : Store) (l : List ObjRef) (mid : Sym) :
    st.ShownAlong l mid ↔
      (∃ m p, st.firstEntry mid l = some (m, some p) ∧ m.defined = true) ∧
        (st.symText mid).startsWith "__" = false := by
  simp only [ShownAlong, listable, Bool.and_eq_true, Bool.not_eq_true']
  constructor
  · rintro ⟨m, p, first, defined, plain⟩
    exact ⟨⟨m, p, first, defined⟩, plain⟩
  · rintro ⟨⟨m, p, first, defined⟩, plain⟩
    exact ⟨m, p, first, defined, plain⟩

theorem listedPart_inherit (k o : ObjRef) (l : List ObjRef) : listedPart k o true l = l := by
  induction l with
  | nil => rfl
  | cons p l ih => exact congrArg (p :: ·) ih

theorem listedPart_own {st : Store} {k : ObjRef} {l : List ObjRef} (chain : Chain st (some k) l) :
    listedPart k k false l = [k] := by
  have nodup := chain.nodup
  cases chain with
  | @cons _ _ rest _ _ =>
    have fresh : k ∉ rest := (List.nodup_cons.mp nodup).1
    cases rest with
    | nil => simp [listedPart]
    | cons q rest =>
      have other : q ≠ k := fun same => fresh (same ▸ List.mem_cons_self)
      simp [listedPart, other]

theorem instance_methods_list_resolved_names {st : Store} (settled : GraphSettled st) {k : ObjRef}
    (isNode : st.nodeAt k ≠ none) :
    (∃ out, (instanceMethods k true).run st = .ok out st ∧ out.toList.Nodup ∧
      ∀ mid, mid ∈ out ↔ (∃ m o t, (resolve (some k) mid).run st = .ok (some (m, o)) t) ∧
        (st.symText mid).startsWith "__" = false) ∧
    (∃ l out, Chain st (some k) l ∧ (instanceMethods k false).run st = .ok out st ∧ out.toList.Nodup ∧
      ∀ mid, mid ∈ out ↔ st.ShownAlong (l.takeWhile fun p => p == k || p == st.originOf k) mid) ∧
    (st.originOf k = k → ∃ out, (instanceMethods k false).run st = .ok out st ∧
      ∀ mid, mid ∈ out ↔ st.HasOwnMethod k mid ∧ (st.symText mid).startsWith "__" = false) := by
  have moored := settled.reachable.moored
  have acyclic := settled.reachable.acyclic
  refine ⟨?_, ?_, fun own => ?_⟩
  · obtain ⟨l, out, chain, run, nodup, listed⟩ := instanceMethods_run moored acyclic isNode true
    refine ⟨out, run, nodup, fun mid => ?_⟩
    rw [listed, resolve_defined_iff moored settled.coherent chain, ← shownAlong_iff, listedPart_inherit]
  · obtain ⟨l, out, chain, run, nodup, listed⟩ := instanceMethods_run moored acyclic isNode false
    exact ⟨l, out, chain, run, nodup, fun mid => by simpa [listedPart] using listed mid⟩
  · obtain ⟨l, out, chain, run, -, listed⟩ := instanceMethods_run moored acyclic isNode false
    obtain ⟨n, found⟩ := Option.ne_none_iff_exists'.mp isNode
    obtain ⟨T, table⟩ := Option.ne_none_iff_exists'.mp (moored.tableAt found)
    refine ⟨out, run, fun mid => ?_⟩
    rw [listed, own, listedPart_own chain, shownAlong_cons table, HasOwnMethod, own, table]
    simp only [not_shownAlong_nil, and_false, or_false, listable, Bool.and_eq_true, Bool.not_eq_true']
    constructor
    · rintro ⟨m, found, defined, plain⟩
      exact ⟨⟨T, m, rfl, found, defined⟩, plain⟩
    · rintro ⟨⟨_, m, same, found, defined⟩, plain⟩
      cases same
      exact ⟨m, found, defined, plain⟩

theorem klass_instance_methods_listed :
    GraphSettled (endState (boot.run {})) ∧
    (endState (boot.run {})).nodeAt (endState (boot.run {})).core.klass ≠ none ∧
    ((∃ out, (instanceMethods (endState (boot.run {})).core.klass true).run (endState (boot.run {})) =
        .ok out (endState (boot.run {})) ∧ out.toList.Nodup ∧
      ∀ mid, mid ∈ out ↔ (∃ m o t, (resolve (some (endState (boot.run {})).core.klass) mid).run
          (endState (boot.run {})) = .ok (some (m, o)) t) ∧
        ((endState (boot.run {})).symText mid).startsWith "__" = false) ∧
    (∃ l out, Chain (endState (boot.run {})) (some (endState (boot.run {})).core.klass) l ∧
      (instanceMethods (endState (boot.run {})).core.klass false).run (endState (boot.run {})) =
        .ok out (endState (boot.run {})) ∧ out.toList.Nodup ∧
      ∀ mid, mid ∈ out ↔ (endState (boot.run {})).ShownAlong (l.takeWhile fun p =>
        p == (endState (boot.run {})).core.klass ||
          p == (endState (boot.run {})).originOf (endState (boot.run {})).core.klass) mid) ∧
    ((endState (boot.run {})).originOf (endState (boot.run {})).core.klass =
        (endState (boot.run {})).core.klass →
      ∃ out, (instanceMethods (endState (boot.run {})).core.klass false).run (endState (boot.run {})) =
        .ok out (endState (boot.run {})) ∧
      ∀ mid, mid ∈ out ↔ (endState (boot.run {})).HasOwnMethod (endState (boot.run {})).core.klass mid ∧
        ((endState (boot.run {})).symText mid).startsWith "__" = false)) := by
  have isNode : (endState (boot.run {})).nodeAt (endState (boot.run {})).core.klass ≠ none := fun none' =>
    acyclic_boot.klass (by rw [link_eq_nodeAt, none']; rfl)
  exact ⟨.boot, isNode, instance_methods_list_resolved_names .boot isNode⟩

end Store

end RegisterVM
