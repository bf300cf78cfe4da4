import RegisterVM.Proofs.Class.Tables

set_option autoImplicit false

namespace RegisterVM

namespace Store

def entriesAlong (st : Store) (mid : Sym) (l : List ObjRef) : List (Method × ObjRef) :=
  l.filterMap fun p => ((st.tableAt p).bind (·[mid]?)).map (·, p)

def nextDefinition : List (Method × ObjRef) → Option (Method × ObjRef)
  | (m, p) :: _ => if m.defined then some (m, p) else none
  | [] => none

def superLookup (o : ObjRef) (mid : Sym) : StoreM (Option (Method × ObjRef)) := do
  resolve (← superOf o) mid

inductive SuperWalk (st : Store) (mid : Sym) : ObjRef → List (Method × ObjRef) → Prop
  | stop {o : ObjRef} : (∃ t, (superLookup o mid).run st = .ok none t) → SuperWalk st mid o []
  | next {o o' : ObjRef} {m : Method} {ws : List (Method × ObjRef)} :
      (∃ t, (superLookup o mid).run st = .ok (some (m, o')) t) → SuperWalk st mid o' ws →
      SuperWalk st mid o ((m, o') :: ws)

theorem SuperWalk.determ {st : Store} {mid : Sym} {o : ObjRef} {ws ws' : List (Method × ObjRef)}
    (walk : SuperWalk st mid o ws) (walk' : SuperWalk st mid o ws') : ws = ws' := by
  induction walk generalizing ws' with
  | stop found =>
    obtain ⟨t, run⟩ := found
    cases walk' with
    | stop => rfl
    | next found' =>
      obtain ⟨t', run'⟩ := found'
      rw [run] at run'
      cases run'
  | next found _ ih =>
    obtain ⟨t, run⟩ := found
    cases walk' with
    | stop found' =>
      obtain ⟨t', run'⟩ := found'
      rw [run] at run'
      cases run'
    | next found' rest' =>
      obtain ⟨t', run'⟩ := found'
      rw [run] at run'
      cases run'
      rw [ih rest']

theorem entriesAlong_cons (st : Store) (mid : Sym) (p : ObjRef) (l : List ObjRef) :
    st.entriesAlong mid (p :: l) =
      match (st.tableAt p).bind (·[mid]?) with
      | some m => (m, p) :: st.entriesAlong mid l
      | none => st.entriesAlong mid l := by
  unfold entriesAlong
  rw [List.filterMap_cons]
  cases (st.tableAt p).bind (·[mid]?) <;> rfl

theorem entriesAlong_sublist (st : Store) (mid : Sym) (l : List ObjRef) :
    ((st.entriesAlong mid l).map Prod.snd).Sublist l := by
  induction l with
  | nil => exact List.Sublist.slnil
  | cons p l ih =>
    rw [entriesAlong_cons]
    split
    · exact ih.cons_cons p
    · exact ih.cons p

theorem entriesAlong_eq_cons {st : Store} {mid : Sym} {l : List ObjRef} {m : Method} {o : ObjRef}
    {rest : List (Method × ObjRef)} (entries : st.entriesAlong mid l = (m, o) :: rest) :
    ∃ pre post, l = pre ++ o :: post ∧ st.entriesAlong mid pre = [] ∧ st.entriesAlong mid post = rest := by
  induction l with
  | nil => simp [entriesAlong] at entries
  | cons p l ih =>
    rw [entriesAlong_cons] at entries
    split at entries
    · cases entries
      exact ⟨[], l, rfl, rfl, rfl⟩
    · rename_i none
      obtain ⟨pre, post, rfl, before, after⟩ := ih entries
      refine ⟨p :: pre, post, rfl, ?_, after⟩
      rw [entriesAlong_cons, none, before]

theorem lookupAnswer_firstEntry {st : Store} (moored : st.Moored) (mid : Sym) {s : Option ObjRef}
    {l : List ObjRef} (chain : Chain st s l) :
    ∃ e, st.firstEntry mid l = some e ∧ lookupAnswer e = nextDefinition (st.entriesAlong mid l) := by
  induction chain with
  | nil => exact ⟨_, rfl, rfl⟩
  | @cons r s l linked _ ih =>
    obtain ⟨tb, table⟩ := moored.tableAt_of_link linked
    rw [entriesAlong_cons, table]
    simp only [firstEntry, table, Option.bind_eq_bind, Option.bind_some, Std.HashMap.get?_eq_getElem?]
    cases tb[mid]? with
    | some m => exact ⟨_, rfl, rfl⟩
    | none => exact ih

theorem resolve_nextDefinition {st : Store} (moored : st.Moored) (coherent : st.CacheCoherent)
    {s : Option ObjRef} {l : List ObjRef} (chain : Chain st s l) (mid : Sym) :
    ∃ t, (resolve s mid).run st = .ok (nextDefinition (st.entriesAlong mid l)) t := by
  obtain ⟨e, first, answer⟩ := lookupAnswer_firstEntry moored mid chain
  have walk : (lookup s mid).run st = .ok e st := by rw [lookup_run chain, first]; rfl
  rw [← answer]
  exact coherent.resolve_answer walk

theorem superLookup_run {st : Store} (moored : st.Moored) (coherent : st.CacheCoherent) {o : ObjRef}
    {l : List ObjRef} (chain : Chain st (some o) (o :: l)) (mid : Sym) :
    ∃ t, (superLookup o mid).run st = .ok (nextDefinition (st.entriesAlong mid l)) t := by
  cases chain with
  | @cons _ s _ linked rest =>
    have next : (st.nodeAt o).map (·.super) = some s := by rw [← link_eq_nodeAt]; exact linked
    simp only [superLookup, EStateM.run_bind, superOf_run, next, answerIn_some]
    exact resolve_nextDefinition moored coherent rest mid

theorem superWalk_of_entries {st : Store} (moored : st.Moored) (coherent : st.CacheCoherent) (mid : Sym) :
    ∀ (rest : List (Method × ObjRef)) {o : ObjRef} {l : List ObjRef}, Chain st (some o) (o :: l) →
      st.entriesAlong mid l = rest → SuperWalk st mid o (rest.takeWhile (·.1.defined)) := by
  intro rest
  induction rest with
  | nil =>
    intro o l chain entries
    obtain ⟨t, run⟩ := superLookup_run moored coherent chain mid
    rw [entries] at run
    exact .stop ⟨t, run⟩
  | cons e rest ih =>
    intro o l chain entries
    obtain ⟨m, o'⟩ := e
    obtain ⟨t, run⟩ := superLookup_run moored coherent chain mid
    rw [entries] at run
    by_cases defined : m.defined = true
    · -- the next definition is found, and the walk goes on from its node
      simp only [List.takeWhile_cons, defined, if_true]
      simp only [nextDefinition, defined, if_true] at run
      obtain ⟨pre, post, rfl, -, after⟩ := entriesAlong_eq_cons entries
      have rest' : Chain st (some o') (o' :: post) := by
        cases chain with
        | cons _ tail => exact tail.suffix
      exact .next ⟨t, run⟩ (ih rest' after)
    · simp only [List.takeWhile_cons, defined]
      simp only [nextDefinition, defined] at run
      exact .stop ⟨t, run⟩

theorem super_walks_later_definitions {st : Store} (settled : GraphSettled st) {cls : Option ObjRef}
    {l : List ObjRef} (chain : Chain st cls l) (mid : Sym) :
    ((st.entriesAlong mid l).map Prod.snd).Sublist l ∧ ((st.entriesAlong mid l).map Prod.snd).Nodup ∧
    (∃ t, (resolve cls mid).run st = .ok (nextDefinition (st.entriesAlong mid l)) t) ∧
    ∀ m o rest, st.entriesAlong mid l = (m, o) :: rest →
      ∀ ws, SuperWalk st mid o ws ↔ ws = rest.takeWhile (·.1.defined) := by
  have moored := settled.reachable.moored
  have sublist := entriesAlong_sublist st mid l
  refine ⟨sublist, sublist.nodup chain.nodup, resolve_nextDefinition moored settled.coherent chain mid,
    fun m o rest entries ws => ?_⟩
  obtain ⟨pre, post, rfl, -, after⟩ := entriesAlong_eq_cons entries
  have walk := superWalk_of_entries moored settled.coherent mid rest chain.suffix after
  exact ⟨fun walk' => walk'.determ walk, fun same => same ▸ walk⟩

theorem CacheCoherent.lookup_of_resolve {st t : Store} (coherent : st.CacheCoherent)
    {cls : Option ObjRef} {mid : Sym} {a : Option (Method × ObjRef)} (run : (resolve cls mid).run st = .ok a t) :
    ∃ e, (lookup cls mid).run st = .ok e st ∧ a = lookupAnswer e := by
  rw [resolve_run] at run
  cases cached : st.cache[(cls, mid)]? with
  | some e =>
    rw [cached] at run
    cases run
    exact ⟨e, coherent cls mid e cached, rfl⟩
  | none =>
    rw [cached] at run
    rcases (readOnly_lookup cls mid).run_cases st with ⟨e, walked⟩ | ⟨f, failed⟩
    · rw [walked] at run
      cases run
      exact ⟨e, walked, rfl⟩
    · rw [failed] at run
      cases run

theorem resolve_of_heap {s t : Store} (acyclic : s.Acyclic) (coherentS : s.CacheCoherent)
    (coherentT : t.CacheCoherent) (heap : t.heap = s.heap) {cls : Option ObjRef} {mid : Sym}
    {a : Option (Method × ObjRef)} {s' : Store} (run : (resolve cls mid).run s = .ok a s') :
    ∃ t', (resolve cls mid).run t = .ok a t' := by
  obtain ⟨e, walk, rfl⟩ := coherentS.lookup_of_resolve run
  have kept : ∀ r n, s.nodeAt r = some n → t.nodeAt r = some n := fun r n found => by
    rwa [nodeAt, heap]
  exact coherentT.resolve_answer (lookup_stable acyclic kept walk)

theorem classOf_of_heap {s t : Store} (heap : t.heap = s.heap) (core : t.core = s.core) {v : Value}
    {k : Option ObjRef} (run : (classOf v).run s = .ok k s) : (classOf v).run t = .ok k t := by
  cases v with
  | obj r =>
    simp only [classOf, wellKnown, getObj, EStateM.run_bind, EStateM.run_get, EStateM.run_pure, heap] at run ⊢
    cases found : s.heap[r.idx]? with
    | none =>
      rw [found] at run
      cases run
    | some o =>
      rw [found] at run
      cases run
      rfl
  | bool b =>
    cases b <;>
    · cases run
      rw [← core]
      rfl
  | _ =>
    cases run
    rw [← core]
    rfl

end Store

end RegisterVM
