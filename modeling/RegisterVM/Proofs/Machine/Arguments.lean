import RegisterVM.Proofs.Machine.Unwinding
import RegisterVM.Proofs.Store.Environments

set_option autoImplicit false

namespace RegisterVM

instance : LawfulBEq HashKey where
  eq_of_beq {a b} same := by simpa [BEq.beq] using same
  rfl := by simp [BEq.beq]

namespace Store

def Names (st : Store) : Value → Prop
  | .obj r => r.idx < st.heap.size
  | _ => True

def bodyAt (st : Store) (r : ObjRef) : Option Body := st.heap[r.idx]?.map (·.body)

theorem keyOf_run {st : Store} {v : Value} (named : st.Names v) : (keyOf v).run st = .ok (st.keyIn v) st := by
  obtain ⟨k, run⟩ : ∃ k, (keyOf v).run st = .ok k st := by
    cases v with
    | obj r =>
      obtain ⟨o, stored⟩ : ∃ o, st.heap[r.idx]? = some o := ⟨_, Array.getElem?_eq_getElem named⟩
      simp only [keyOf, EStateM.run_bind, getObj, EStateM.run_get, stored]
      cases o with
      | mk _ _ _ _ body => cases body <;> exact ⟨_, rfl⟩
    | bool b => cases b <;> exact ⟨_, rfl⟩
    | float b =>
      simp only [keyOf]
      split <;> exact ⟨_, rfl⟩
    | _ => exact ⟨_, rfl⟩
  simp only [keyIn, run]

theorem keyIn_congr {st st' : Store} {v : Value} (same : ∀ r, v = .obj r → st'.heap[r.idx]? = st.heap[r.idx]?) :
    st'.keyIn v = st.keyIn v := by
  cases v with
  | obj r =>
    simp only [keyIn, keyOf, EStateM.run_bind, getObj, EStateM.run_get, same r rfl]
    cases st.heap[r.idx]? with
    | none => rfl
    | some o =>
      cases o with
      | mk _ _ _ _ body => cases body <;> rfl
  | bool b => cases b <;> rfl
  | float b =>
    by_cases zero : (b &&& 0x7fffffffffffffff == 0) = true <;> simp only [keyIn, keyOf, zero] <;> rfl
  | _ => rfl

def Extends (st st' : Store) : Prop := st.heap.size ≤ st'.heap.size ∧ ∀ i < st.heap.size, st'.heap[i]? = st.heap[i]?

theorem Extends.refl (st : Store) : st.Extends st := ⟨Nat.le_refl _, fun _ _ => rfl⟩

theorem Extends.trans {st st' st'' : Store} (first : st.Extends st') (second : st'.Extends st'') : st.Extends st'' :=
  ⟨Nat.le_trans first.1 second.1, fun i below => (second.2 i (Nat.lt_of_lt_of_le below first.1)).trans (first.2 i below)⟩

theorem extends_push (st : Store) (o : Obj) : st.Extends { st with heap := st.heap.push o } :=
  ⟨by simp, fun _ below => (Array.getElem?_push_lt below).trans (Array.getElem?_eq_getElem below).symm⟩

theorem Extends.names {st st' : Store} {v : Value} (grown : st.Extends st') (named : st.Names v) : st'.Names v := by
  cases v with
  | obj r => exact Nat.lt_of_lt_of_le named grown.1
  | _ => trivial

theorem Extends.keyIn {st st' : Store} {v : Value} (grown : st.Extends st') (named : st.Names v) :
    st'.keyIn v = st.keyIn v := by
  refine keyIn_congr fun r same => ?_
  subst same
  exact grown.2 r.idx named

theorem Extends.bodyAt {st st' : Store} {r : ObjRef} {b : Body} (grown : st.Extends st') (found : st.bodyAt r = some b) :
    st'.bodyAt r = some b := by
  have below : r.idx < st.heap.size := by
    by_contra outside
    simp [Store.bodyAt, Array.getElem?_eq_none (Nat.le_of_not_lt outside)] at found
  rw [Store.bodyAt, grown.2 r.idx below]
  exact found

end Store

namespace HashTable

structure Holds (ident : Value → HashKey) (t : HashTable) (ps : List (Value × Value)) : Prop where
  keys : t.keys.toList = ps.map Prod.fst
  vals : t.vals.toList = ps.map Prod.snd
  indexed : ∀ key n, t.index.get? key = some n → key ∈ ps.map (ident ∘ Prod.fst)

variable {ident : Value → HashKey} {t : HashTable} {ps : List (Value × Value)}

theorem holds_empty (ident : Value → HashKey) : ({} : HashTable).Holds ident [] where
  keys := rfl
  vals := rfl
  indexed key n found := by simp at found

theorem Holds.entries (holds : t.Holds ident ps) : t.entries = ps := by
  rw [HashTable.entries, holds.keys, holds.vals, ← List.unzip_fst, ← List.unzip_snd, List.zip_unzip]

theorem Holds.set (holds : t.Holds ident ps) (k v : Value) (fresh : ident k ∉ ps.map (ident ∘ Prod.fst)) :
    ∃ t', t.set k (ident k) v = .ok t' ∧ t'.Holds ident (ps ++ [(k, v)]) := by
  have absent : t.index.get? (ident k) = none := by
    cases found : t.index.get? (ident k) with
    | none => rfl
    | some n => exact absurd (holds.indexed _ n found) fresh
  refine ⟨{ keys := t.keys.push k, vals := t.vals.push v, index := t.index.insert (ident k) t.keys.size },
    by simp only [HashTable.set, absent], ?_⟩
  refine ⟨by simp [holds.keys], by simp [holds.vals], fun key n found => ?_⟩
  rw [Std.HashMap.get?_insert] at found
  split at found
  · next same =>
    have same : ident k = key := by simpa [BEq.beq] using same
    simp [← same]
  · rw [List.map_append]
    exact List.mem_append_left _ (holds.indexed key n found)

end HashTable

namespace Store

theorem tableSet_run {st : Store} {t : HashTable} {ps : List (Value × Value)} (holds : t.Holds st.keyIn ps)
    {k : Value} (v : Value) (named : st.Names k) (fresh : st.keyIn k ∉ ps.map (st.keyIn ∘ Prod.fst)) :
    ∃ t', (tableSet t k v).run st = .ok t' st ∧ t'.Holds st.keyIn (ps ++ [(k, v)]) := by
  obtain ⟨t', set, holds'⟩ := holds.set k v fresh
  refine ⟨t', ?_, holds'⟩
  simp only [tableSet, EStateM.run_bind, keyOf_run named, set]
  rfl

theorem forIn_tableSet {st : Store} (ps ps₀ : List (Value × Value)) {out : HashTable}
    (holds : out.Holds st.keyIn ps₀) (named : ∀ p ∈ ps, st.Names p.1)
    (distinct : ((ps₀ ++ ps).map (st.keyIn ∘ Prod.fst)).Nodup) :
    ∃ u, (forIn ps out fun x out => match x with
        | (k, v) => do
          let out ← tableSet out k v
          pure (ForInStep.yield out)).run st = .ok u st ∧ u.Holds st.keyIn (ps₀ ++ ps) := by
  induction ps generalizing ps₀ out with
  | nil => exact ⟨out, rfl, by simpa using holds⟩
  | cons p ps ih =>
    obtain ⟨k, v⟩ := p
    have fresh : st.keyIn k ∉ ps₀.map (st.keyIn ∘ Prod.fst) := by
      intro seen
      simp only [List.map_append, List.map_cons, List.nodup_append, List.nodup_cons] at distinct
      exact distinct.2.2 _ seen _ List.mem_cons_self rfl
    obtain ⟨t', set, holds'⟩ := tableSet_run holds v (named _ List.mem_cons_self) fresh
    obtain ⟨u, loop, held⟩ := ih (ps₀ ++ [(k, v)]) holds' (fun p member => named p (List.mem_cons_of_mem _ member))
      (by simpa using distinct)
    refine ⟨u, ?_, by simpa using held⟩
    rw [List.forIn_cons, EStateM.run_bind]
    simp only [EStateM.run_bind, set]
    exact loop

end Store

namespace HashTable

structure Keyed (st : Store) (t : HashTable) : Prop where
  sizes : t.vals.size = t.keys.size
  named : ∀ k ∈ t.keys, st.Names k
  distinct : (t.keys.toList.map st.keyIn).Nodup

variable {st : Store} {t : HashTable}

theorem Keyed.keys_entries (keyed : t.Keyed st) : t.entries.map Prod.fst = t.keys.toList :=
  List.map_fst_zip (by simp [keyed.sizes])

theorem Keyed.length_entries (keyed : t.Keyed st) : t.entries.length = t.size := by
  have lengths := congrArg List.length keyed.keys_entries
  rwa [List.length_map, Array.length_toList] at lengths

theorem Keyed.grow {st' : Store} (keyed : t.Keyed st) (grown : st.Extends st') : t.Keyed st' where
  sizes := keyed.sizes
  named k member := grown.names (keyed.named k member)
  distinct := by
    have same : t.keys.toList.map st'.keyIn = t.keys.toList.map st.keyIn :=
      List.map_congr_left fun k member => grown.keyIn (keyed.named k (Array.mem_toList_iff.mp member))
    rw [same]
    exact keyed.distinct

theorem Holds.keyed {u : HashTable} (keyed : t.Keyed st) (holds : u.Holds st.keyIn t.entries) : u.Keyed st where
  sizes := by
    have keys := congrArg List.length holds.keys
    have vals := congrArg List.length holds.vals
    simp only [Array.length_toList, List.length_map] at keys vals
    omega
  named k member := by
    have : k ∈ t.entries.map Prod.fst := by rw [← holds.keys]; exact Array.mem_toList_iff.mpr member
    rw [keyed.keys_entries] at this
    exact keyed.named k (Array.mem_toList_iff.mp this)
  distinct := by
    rw [holds.keys, keyed.keys_entries]
    exact keyed.distinct

theorem Holds.same {u : HashTable} {ident : Value → HashKey} (keyed : t.Keyed st) (holds : u.Holds ident t.entries) :
    u.keys = t.keys ∧ u.vals = t.vals := by
  constructor
  · apply Array.toList_inj.mp
    rw [holds.keys, keyed.keys_entries]
  · apply Array.toList_inj.mp
    rw [holds.vals, HashTable.entries, List.map_snd_zip (by simp [keyed.sizes])]

end HashTable

namespace Store

theorem tableCopy_run {st : Store} {t : HashTable} (keyed : t.Keyed st) :
    ∃ u, (tableCopy t).run st = .ok u st ∧ u.Holds st.keyIn t.entries := by
  have named : ∀ p ∈ t.entries, st.Names p.1 := fun p member => by
    have : p.1 ∈ t.entries.map Prod.fst := List.mem_map_of_mem member
    rw [keyed.keys_entries] at this
    exact keyed.named _ (Array.mem_toList_iff.mp this)
  have distinct : (([] ++ t.entries).map (st.keyIn ∘ Prod.fst)).Nodup := by
    rw [List.nil_append, ← List.map_map, keyed.keys_entries]
    exact keyed.distinct
  obtain ⟨u, loop, holds⟩ := forIn_tableSet t.entries [] (HashTable.holds_empty _) named distinct
  refine ⟨u, ?_, by simpa using holds⟩
  unfold tableCopy
  simp only [EStateM.run_bind, loop]
  rfl

end Store

namespace Machine

theorem stack_updCurrent (m : Machine) (g : Context → Context) :
    (m.updCurrent g).stack = ((m.contexts[m.current]?.map g).map (·.stack)).getD #[] := by
  simp [stack, updCurrent, Array.getElem?_modify]

@[simp] theorem stack_store (m : Machine) (st : Store) : { m with store := st }.stack = m.stack := rfl

theorem slot_run (i : Nat) (m : Machine) :
    (slot i).run m = match m.stack[i]? with
      | some v => .ok v m
      | none => .error .runtime m := by
  show (readSlot m.current i).run m = _
  simp only [readSlot, EStateM.run_bind, context_run, stack]
  cases m.contexts[m.current]? with
  | none => rfl
  | some c =>
    simp only [Option.map_some, Option.getD_some]
    cases c.stack[i]? <;> rfl

def writeCells (m : Machine) (i : Nat) : List Value → Machine
  | [] => m
  | v :: vs => (m.withSlot i v).writeCells (i + 1) vs

@[simp] theorem writeCells_nil (m : Machine) (i : Nat) : m.writeCells i [] = m := rfl

theorem writeCells_append (m : Machine) (i : Nat) (vs ws : List Value) :
    m.writeCells i (vs ++ ws) = (m.writeCells i vs).writeCells (i + vs.length) ws := by
  induction vs generalizing m i with
  | nil => rfl
  | cons v vs ih =>
    simp only [List.cons_append, writeCells, ih, List.length_cons]
    rw [show i + 1 + vs.length = i + (vs.length + 1) by omega]

@[simp] theorem store_writeCells (m : Machine) (i : Nat) (vs : List Value) :
    (m.writeCells i vs).store = m.store := by
  induction vs generalizing m i with
  | nil => rfl
  | cons v vs ih => exact ih _ _

theorem writeCells_store (m : Machine) (st : Store) (i : Nat) (vs : List Value) :
    { m with store := st }.writeCells i vs = { m.writeCells i vs with store := st } := by
  induction vs generalizing m i with
  | nil => rfl
  | cons v vs ih => exact ih (m.withSlot i v) (i + 1)

theorem stack_withSlot (m : Machine) (i : Nat) (v : Value) : (m.withSlot i v).stack = m.stack.set! i v := by
  rw [withSlot, stack_updCurrent, stack]
  cases m.contexts[m.current]? <;> rfl

@[simp] theorem size_stack_writeCells (m : Machine) (i : Nat) (vs : List Value) :
    (m.writeCells i vs).stack.size = m.stack.size := by
  induction vs generalizing m i with
  | nil => rfl
  | cons v vs ih => rw [writeCells, ih, stack_withSlot, Array.set!_eq_setIfInBounds, Array.size_setIfInBounds]

theorem stack_writeCells (m : Machine) (i : Nat) (vs : List Value) (fits : i + vs.length ≤ m.stack.size)
    (p : Nat) : (m.writeCells i vs).stack[p]? = if i ≤ p ∧ p < i + vs.length then vs[p - i]? else m.stack[p]? := by
  induction vs generalizing m i with
  | nil =>
    simp only [List.length_nil]
    rw [if_neg (by omega)]
    rfl
  | cons v vs ih =>
    simp only [List.length_cons] at fits ⊢
    have size : (m.stack.set! i v).size = m.stack.size := by
      rw [Array.set!_eq_setIfInBounds, Array.size_setIfInBounds]
    rw [writeCells, ih _ _ (by rw [stack_withSlot, size]; omega), stack_withSlot, Array.set!_eq_setIfInBounds,
      Array.getElem?_setIfInBounds]
    by_cases here : p = i
    · rw [if_neg (by omega), if_pos here.symm, if_pos (by omega), if_pos ⟨by omega, by omega⟩, here,
        Nat.sub_self]
      rfl
    · by_cases later : i + 1 ≤ p ∧ p < i + 1 + vs.length
      · rw [if_pos later, if_pos ⟨by omega, by omega⟩]
        have shift : p - i = (p - (i + 1)) + 1 := by omega
        rw [shift, List.getElem?_cons_succ]
      · rw [if_neg later, if_neg (Ne.symm here), if_neg (by omega)]

theorem setSlot_run_of_lt {i : Nat} (v : Value) {m : Machine} (room : i < m.stack.size) :
    (setSlot i v).run m = .ok () (m.writeCells i [v]) := by
  rw [setSlot_run, if_pos room]
  rfl

theorem forIn_writeCells_within {α : Type} (cells : α → List Value) (w : Nat) (width : ∀ a, (cells a).length = w)
    (body : α → Nat → MachineM (ForInStep Nat)) (base limit : Nat)
    (pass : ∀ a i m, i + w ≤ limit → base + limit ≤ m.stack.size →
      (body a i).run m = .ok (.yield (i + w)) (m.writeCells (base + i) (cells a)))
    (xs : List α) (i : Nat) (m : Machine) (room : i + w * xs.length ≤ limit) (fits : base + limit ≤ m.stack.size) :
    (forIn xs i body).run m = .ok (i + w * xs.length) (m.writeCells (base + i) (xs.flatMap cells)) := by
  induction xs generalizing i m with
  | nil => simp
  | cons a xs ih =>
    have first : i + w ≤ limit := by
      simp only [List.length_cons, Nat.mul_succ] at room
      omega
    rw [List.forIn_cons, EStateM.run_bind, pass a i m first fits]
    simp only [List.length_cons, Nat.mul_succ] at room ⊢
    rw [ih (i + w) _ (by omega) (by rw [size_stack_writeCells]; exact fits), List.flatMap_cons, writeCells_append,
      width]
    congr 1
    · omega
    · rw [Nat.add_assoc]

theorem forIn_writeCells {α : Type} (cells : α → List Value) (w : Nat) (width : ∀ a, (cells a).length = w)
    (body : α → Nat → MachineM (ForInStep Nat))
    (pass : ∀ a i m, i + w ≤ m.stack.size → (body a i).run m = .ok (.yield (i + w)) (m.writeCells i (cells a)))
    (xs : List α) (i : Nat) (m : Machine) (room : i + w * xs.length ≤ m.stack.size) :
    (forIn xs i body).run m = .ok (i + w * xs.length) (m.writeCells i (xs.flatMap cells)) := by
  have within := forIn_writeCells_within cells w width body 0 m.stack.size
    (fun a i m' below fits => by rw [Nat.zero_add]; exact pass a i m' (by omega)) xs i m room (by omega)
  rwa [Nat.zero_add] at within

theorem growStack_run (n : Nat) (m : Machine) : ∃ m', (growStack n).run m = .ok () m' ∧
    m'.store = m.store ∧ (m.current < m.contexts.size → n ≤ m'.stack.size) ∧ m'.frames = m.frames ∧
      m'.mode = m.mode := by
  refine ⟨m.updCurrent fun c => if n ≤ c.stack.size then c else
    { c with stack := c.stack ++ Array.replicate (max (2 * c.stack.size) n - c.stack.size) .nil }, rfl, rfl,
    fun live => ?_, frames_updCurrent fun c => by split <;> rfl, rfl⟩
  rw [stack_updCurrent, Array.getElem?_eq_getElem live]
  simp only [Option.map_some, Option.getD_some]
  split
  · assumption
  · simp only [Array.size_append, Array.size_replicate]
    omega

def Laid (m : Machine) (i : Nat) (vs : List Value) : Prop := ∀ j < vs.length, m.stack[i + j]? = vs[j]?

theorem laid_append {m : Machine} {i : Nat} {vs ws : List Value} :
    Laid m i (vs ++ ws) ↔ Laid m i vs ∧ Laid m (i + vs.length) ws := by
  constructor
  · intro laid
    refine ⟨fun j below => ?_, fun j below => ?_⟩
    · rw [laid j (by simp; omega), List.getElem?_append_left below]
    · rw [Nat.add_assoc, laid (vs.length + j) (by simp; omega), List.getElem?_append_right (by omega),
        Nat.add_sub_cancel_left]
  · rintro ⟨first, second⟩ j below
    by_cases early : j < vs.length
    · rw [first j early, List.getElem?_append_left early]
    · have later := second (j - vs.length) (by simp at below; omega)
      rw [Nat.add_assoc, Nat.add_sub_cancel' (by omega)] at later
      rw [later, List.getElem?_append_right (by omega)]

theorem laid_writeCells (m : Machine) (i : Nat) (vs : List Value) (fits : i + vs.length ≤ m.stack.size) :
    Laid (m.writeCells i vs) i vs := fun j below => by
  rw [stack_writeCells m i vs fits, if_pos ⟨by omega, by omega⟩, Nat.add_sub_cancel_left]

theorem Laid.size {m : Machine} {i : Nat} {v : Value} {vs : List Value} (laid : Laid m i (vs ++ [v])) :
    i + vs.length < m.stack.size := by
  have last := laid vs.length (by simp)
  rw [List.getElem?_concat_length] at last
  exact (Array.getElem?_eq_some_iff.mp last).1

theorem slot_run_of_laid {m : Machine} {i : Nat} {v : Value} (laid : Laid m i [v]) : (slot i).run m = .ok v m := by
  have found := laid 0 (by simp)
  rw [Nat.add_zero] at found
  rw [slot_run, found]
  rfl

theorem slots_run_of_laid {m : Machine} {i : Nat} {vs : List Value} (laid : Laid m i vs)
    (room : i + vs.length < m.stack.size) : (slots i (i + vs.length)).run m = .ok vs.toArray m := by
  obtain ⟨c, found⟩ : ∃ c, m.contexts[m.current]? = some c := by
    cases found : m.contexts[m.current]? with
    | none => simp [stack, found] at room
    | some c => exact ⟨c, rfl⟩
  have same : c.stack = m.stack := by simp [stack, found]
  have cells : m.stack.extract i (i + vs.length) = vs.toArray := by
    refine Array.ext_getElem? fun j => ?_
    rw [Array.getElem?_extract]
    split
    · next inside => rw [laid j (by omega), List.getElem?_toArray]
    · next outside => rw [List.getElem?_toArray, List.getElem?_eq_none (by omega)]
  show (do let c ← currentContext; if i ≤ i + vs.length && i + vs.length ≤ c.stack.size then
      pure (c.stack.extract i (i + vs.length)) else runtimeFault : MachineM (Array Value)).run m = _
  rw [EStateM.run_bind, currentContext_run, found]
  simp only [same, Nat.le_add_right, decide_true, Bool.true_and, Nat.le_of_lt room, cells]
  rfl

def pairCells (ps : List (Value × Value)) : List Value := ps.flatMap fun p => [p.1, p.2]

@[simp] theorem length_pairCells (ps : List (Value × Value)) : (pairCells ps).length = 2 * ps.length := by
  induction ps with
  | nil => rfl
  | cons p ps ih =>
    simp only [pairCells, List.flatMap_cons, List.length_append, List.length_cons, List.length_nil] at ih ⊢
    omega

def PositionalCells (st : Store) (args : Array Value) (n : Nat) (cells : List Value) : Prop :=
  if args.size < packedArgs then n = args.size ∧ cells = args.toList
  else n = packedArgs ∧ ∃ r, cells = [.obj r] ∧ st.bodyAt r = some (.array args)

def KeywordCells (st : Store) (kw : Option HashTable) (nk : Nat) (cells : List Value) : Prop :=
  match kw with
  | none => nk = 0 ∧ cells = []
  | some t =>
    if t.size = 0 then nk = 0 ∧ cells = []
    else if t.size < packedArgs then nk = t.size ∧ cells = pairCells t.entries
    else nk = packedArgs ∧ ∃ r u, cells = [.obj r] ∧ st.bodyAt r = some (.hash u) ∧ u.keys = t.keys ∧ u.vals = t.vals

section Cells

variable {st st' : Store} {args : Array Value} {kw : Option HashTable} {n nk : Nat} {cells : List Value}

theorem PositionalCells.length (laid : PositionalCells st args n cells) : cells.length = argSlots n := by
  unfold PositionalCells at laid
  split at laid
  · next inline =>
    obtain ⟨rfl, rfl⟩ := laid
    simp only [argSlots, Array.length_toList]
    rw [if_neg (by simp only [beq_iff_eq]; omega)]
  · obtain ⟨rfl, r, rfl, -⟩ := laid
    rfl

theorem PositionalCells.length_le (laid : PositionalCells st args n cells) : cells.length ≤ args.size := by
  unfold PositionalCells at laid
  split at laid
  · obtain ⟨-, rfl⟩ := laid
    simp
  · obtain ⟨-, r, rfl, -⟩ := laid
    simp only [packedArgs] at *
    simp only [List.length_singleton]
    omega

theorem PositionalCells.grow (laid : PositionalCells st args n cells) (grown : st.Extends st') :
    PositionalCells st' args n cells := by
  unfold PositionalCells at laid ⊢
  split at laid
  · next inline => rw [if_pos inline]; exact laid
  · next packed =>
    rw [if_neg packed]
    obtain ⟨same, r, rfl, found⟩ := laid
    exact ⟨same, r, rfl, grown.bodyAt found⟩

theorem KeywordCells.length (laid : KeywordCells st kw nk cells) (sized : ∀ t ∈ kw, t.vals.size = t.keys.size) :
    cells.length = kwSlots nk := by
  cases kw with
  | none =>
    obtain ⟨rfl, rfl⟩ := laid
    rfl
  | some t =>
    dsimp only [KeywordCells] at laid
    split at laid
    · obtain ⟨rfl, rfl⟩ := laid
      rfl
    · split at laid
      · next inline =>
        obtain ⟨rfl, rfl⟩ := laid
        simp only [kwSlots, length_pairCells, HashTable.entries, List.length_zip, Array.length_toList,
          sized t rfl, Nat.min_self]
        rw [if_neg (by simp only [beq_iff_eq]; omega), HashTable.size]
      · obtain ⟨rfl, r, u, rfl, -⟩ := laid
        rfl

theorem KeywordCells.length_le (laid : KeywordCells st kw nk cells) :
    cells.length ≤ 2 * (kw.map HashTable.size).getD 0 := by
  cases kw with
  | none =>
    obtain ⟨-, rfl⟩ := laid
    simp
  | some t =>
    dsimp only [KeywordCells] at laid
    simp only [Option.map_some, Option.getD_some]
    split at laid
    · obtain ⟨-, rfl⟩ := laid
      simp
    · split at laid
      · obtain ⟨-, rfl⟩ := laid
        simp only [length_pairCells, HashTable.entries, List.length_zip, Array.length_toList, HashTable.size]
        omega
      · obtain ⟨-, r, u, rfl, -⟩ := laid
        simp only [List.length_singleton]
        omega

theorem KeywordCells.grow (laid : KeywordCells st kw nk cells) (grown : st.Extends st') :
    KeywordCells st' kw nk cells := by
  cases kw with
  | none => exact laid
  | some t =>
    dsimp only [KeywordCells] at laid ⊢
    split at laid
    · next empty => rw [if_pos empty]; exact laid
    · next full =>
      rw [if_neg full]
      split at laid
      · next inline => rw [if_pos inline]; exact laid
      · next packed =>
        rw [if_neg packed]
        obtain ⟨same, r, u, rfl, found, held⟩ := laid
        exact ⟨same, r, u, rfl, grown.bodyAt found, held⟩

end Cells

structure ArgsLaid (m : Machine) (base : Nat) (recv : Value) (args : Array Value) (kw : Option HashTable)
    (blk : Value) (n nk : Nat) : Prop where
  receiver : Laid m base [recv]
  positional : ∃ cells, Laid m (base + 1) cells ∧ PositionalCells m.store args n cells
  keywords : ∃ cells, Laid m (base + 1 + argSlots n) cells ∧ KeywordCells m.store kw nk cells
  block : Laid m (base + 1 + argSlots n + kwSlots nk) [blk]

def placePositional (i : Nat) (args : Array Value) : MachineM (Nat × Nat) :=
  if args.size ≥ packedArgs then do
    setSlot i (← liftStore (Store.newArray args))
    pure (i + 1, packedArgs)
  else do
    let j ← forIn args i fun a j => do
      setSlot j a
      pure (ForInStep.yield (j + 1))
    pure (j, args.size)

def placeKeywords (i : Nat) : Option HashTable → MachineM (Nat × Nat)
  | some t =>
    if t.size ≥ packedArgs then do
      setSlot i (← liftStore (Store.newHash (← copyTable t)))
      pure (i + 1, packedArgs)
    else if t.size > 0 then do
      let j ← forIn t.entries i fun x j => match x with
        | (k, v) => do
          setSlot j k
          setSlot (j + 1) v
          pure (ForInStep.yield (j + 2))
      pure (j, t.size)
    else pure (i, 0)
  | none => pure (i, 0)

theorem placeArgs_eq (base : Nat) (recv : Value) (args : Array Value) (kw : Option HashTable) (blk : Value) :
    placeArgs base recv args kw blk = (do
      growStack (base + args.size + 2 * (kw.map HashTable.size).getD 0 + 3)
      setSlot base recv
      let (i, n) ← placePositional (base + 1) args
      let (i, nk) ← placeKeywords i kw
      setSlot i blk
      pure (n, nk)) := by
  unfold placeArgs placePositional
  dsimp only
  congr 1; funext _; congr 1; funext _
  split <;> simp only [bind_assoc, pure_bind]
  -- the keyword part, after either way of laying out the positional arguments
  all_goals
    cases kw with
    | none => rfl
    | some t =>
      simp only [placeKeywords]
      split
      · simp only [bind_assoc, pure_bind]
      · split
        · simp only [bind_assoc, pure_bind]
        · simp only [pure_bind]

theorem newArray_run (es : Array Value) (st : Store) : (Store.newArray es).run st =
    .ok (.obj ⟨st.heap.size⟩) { st with heap := st.heap.push { cls := some st.core.array, body := .array es } } := rfl

theorem newHash_run (t : HashTable) (st : Store) : (Store.newHash t).run st =
    .ok (.obj ⟨st.heap.size⟩) { st with heap := st.heap.push { cls := some st.core.hash, body := .hash t } } := rfl

theorem bodyAt_push (st : Store) (o : Obj) : ({ st with heap := st.heap.push o } : Store).bodyAt ⟨st.heap.size⟩ = some o.body := by
  simp [Store.bodyAt]

theorem placePositional_run (i : Nat) (args : Array Value) (m : Machine) (room : i + args.size ≤ m.stack.size) :
    ∃ n cells st, (placePositional i args).run m = .ok (i + cells.length, n) { m.writeCells i cells with store := st } ∧
      PositionalCells st args n cells ∧ m.store.Extends st := by
  unfold placePositional
  split
  · next packed =>
    -- a new array in the one slot
    have within : i < m.stack.size := by
      simp only [packedArgs, ge_iff_le] at packed
      omega
    refine ⟨packedArgs, [.obj ⟨m.store.heap.size⟩],
      { m.store with heap := m.store.heap.push { cls := some m.store.core.array, body := .array args } }, ?_, ?_,
      Store.extends_push _ _⟩
    · simp only [EStateM.run_bind, liftStore_run, newArray_run]
      rw [setSlot_run_of_lt _ (by simpa using within), writeCells_store]
      rfl
    · rw [PositionalCells, if_neg (by omega)]
      exact ⟨rfl, _, rfl, bodyAt_push _ _⟩
  · next inline =>
    have pass : ∀ a j (m : Machine), j + 1 ≤ m.stack.size →
        (do setSlot j a; pure (ForInStep.yield (j + 1)) : MachineM (ForInStep Nat)).run m =
          .ok (.yield (j + 1)) (m.writeCells j [a]) := fun a j m room => by
      rw [EStateM.run_bind, setSlot_run_of_lt _ (by omega)]
      rfl
    refine ⟨args.size, args.toList, m.store, ?_, ?_, Store.Extends.refl _⟩
    · rw [EStateM.run_bind, ← Array.forIn_toList,
        forIn_writeCells (fun a => [a]) 1 (fun _ => rfl) _ pass _ _ _ (by simpa using room)]
      simp only [List.flatMap_singleton', Nat.one_mul, Array.length_toList]
      rw [← writeCells_store]
      rfl
    · rw [PositionalCells, if_pos (by omega)]
      exact ⟨rfl, rfl⟩

theorem placeKeywords_run (i : Nat) (kw : Option HashTable) (m : Machine) (keyed : ∀ t ∈ kw, t.Keyed m.store)
    (room : i + 2 * (kw.map HashTable.size).getD 0 ≤ m.stack.size) :
    ∃ nk cells st, (placeKeywords i kw).run m = .ok (i + cells.length, nk) { m.writeCells i cells with store := st } ∧
      KeywordCells st kw nk cells ∧ m.store.Extends st := by
  cases kw with
  | none => exact ⟨0, [], m.store, rfl, ⟨rfl, rfl⟩, Store.Extends.refl _⟩
  | some t =>
    have keyed := keyed t rfl
    simp only [Option.map_some, Option.getD_some] at room
    simp only [placeKeywords]
    split
    · next packed =>
      -- a copy of the table in a new hash, in the one slot
      have within : i < m.stack.size := by
        simp only [packedArgs, ge_iff_le] at packed
        omega
      obtain ⟨u, copied, holds⟩ := Store.tableCopy_run keyed
      have same := holds.same keyed
      refine ⟨packedArgs, [.obj ⟨m.store.heap.size⟩],
        { m.store with heap := m.store.heap.push { cls := some m.store.core.hash, body := .hash u } }, ?_, ?_,
        Store.extends_push _ _⟩
      · simp only [EStateM.run_bind, copyTable, liftStore_run, copied, newHash_run]
        rw [setSlot_run_of_lt _ (by simpa using within), writeCells_store]
        rfl
      · dsimp only [KeywordCells]
        rw [if_neg (by simp only [packedArgs, ge_iff_le] at packed; omega), if_neg (by omega)]
        exact ⟨rfl, _, u, rfl, bodyAt_push _ _, same⟩
    · next small =>
      split
      · next some =>
        have pass : ∀ (x : Value × Value) j (m : Machine), j + 2 ≤ m.stack.size →
            (do
              setSlot j x.1
              setSlot (j + 1) x.2
              pure (ForInStep.yield (j + 2)) : MachineM (ForInStep Nat)).run m =
              .ok (.yield (j + 2)) (m.writeCells j [x.1, x.2]) := fun x j m room => by
          rw [EStateM.run_bind, setSlot_run_of_lt _ (by omega)]
          dsimp only
          rw [EStateM.run_bind, setSlot_run_of_lt _ (by rw [size_stack_writeCells]; omega)]
          rfl
        refine ⟨t.size, pairCells t.entries, m.store, ?_, ?_, Store.Extends.refl _⟩
        · have fits : i + 2 * t.entries.length ≤ m.stack.size := by rw [keyed.length_entries]; exact room
          rw [EStateM.run_bind, forIn_writeCells (fun x : Value × Value => [x.1, x.2]) 2 (fun _ => rfl) _ pass t.entries i m fits,
            ← writeCells_store, length_pairCells, keyed.length_entries]
          rfl
        · dsimp only [KeywordCells]
          rw [if_neg (by omega), if_pos (by omega)]
          exact ⟨rfl, rfl⟩
      · next empty =>
        refine ⟨0, [], m.store, rfl, ?_, Store.Extends.refl _⟩
        dsimp only [KeywordCells]
        rw [if_pos (by omega)]
        exact ⟨rfl, rfl⟩

theorem placeArgs_laid (base : Nat) (recv : Value) (args : Array Value) (kw : Option HashTable) (blk : Value)
    (m : Machine) (live : m.current < m.contexts.size) (keyed : ∀ t ∈ kw, t.Keyed m.store) :
    ∃ n nk m', (placeArgs base recv args kw blk).run m = .ok (n, nk) m' ∧
      ArgsLaid m' base recv args kw blk n nk ∧ m.store.Extends m'.store := by
  rw [placeArgs_eq]
  obtain ⟨m₀, grow, store₀, size₀, -, -⟩ := growStack_run (base + args.size + 2 * (kw.map HashTable.size).getD 0 + 3) m
  have room := size₀ live
  rw [EStateM.run_bind, grow]
  dsimp only
  rw [EStateM.run_bind, setSlot_run_of_lt recv (by omega)]
  dsimp only
  -- the positional part
  obtain ⟨n, pcells, st₁, placed, pcellsOk, grown₁⟩ :=
    placePositional_run (base + 1) args (m₀.writeCells base [recv]) (by simp; omega)
  have plen := pcellsOk.length_le
  rw [EStateM.run_bind, placed]
  dsimp only
  -- the keyword part
  obtain ⟨nk, kcells, st₂, placedKw, kcellsOk, grown₂⟩ :=
    placeKeywords_run (base + 1 + pcells.length) kw { (m₀.writeCells base [recv]).writeCells (base + 1) pcells with store := st₁ }
      (fun t member => (keyed t member).grow (store₀ ▸ grown₁)) (by simp; omega)
  have klen := kcellsOk.length_le
  rw [EStateM.run_bind, placedKw]
  dsimp only
  -- the block
  rw [EStateM.run_bind, setSlot_run_of_lt blk (by simp; omega)]
  dsimp only
  have final : ({ ({ (m₀.writeCells base [recv]).writeCells (base + 1) pcells with store := st₁ } : Machine).writeCells
      (base + 1 + pcells.length) kcells with store := st₂ } : Machine).writeCells (base + 1 + pcells.length + kcells.length)
      [blk] = { m₀.writeCells base ([recv] ++ pcells ++ kcells ++ [blk]) with store := st₂ } := by
    simp only [writeCells_store, writeCells_append, List.length_append, List.length_singleton, Nat.add_assoc]
  refine ⟨n, nk, _, rfl, ?_, ?_⟩
  · rw [final]
    have laid : Laid (m₀.writeCells base ([recv] ++ pcells ++ kcells ++ [blk])) base ([recv] ++ pcells ++ kcells ++ [blk]) :=
      laid_writeCells _ _ _ (by simp; omega)
    obtain ⟨⟨⟨first, second⟩, third⟩, fourth⟩ := laid_append.mp laid |>.imp_left laid_append.mp |>.imp_left
      (And.imp_left laid_append.mp)
    simp only [List.length_singleton, List.length_append, pcellsOk.length,
      kcellsOk.length fun t member => (keyed t member).sizes] at second third fourth
    exact ⟨first, ⟨pcells, second, pcellsOk.grow grown₂⟩,
      ⟨kcells, by rwa [← Nat.add_assoc] at third, kcellsOk⟩, by rwa [← Nat.add_assoc, ← Nat.add_assoc] at fourth⟩
  · exact store₀ ▸ grown₁.trans grown₂

def readPositional (i argc : Nat) : MachineM (Nat × Array Value) :=
  if argc == packedArgs then do
    match ← liftStore (Store.arrayOf? (← slot i)) with
    | some es => pure (i + 1, es)
    | none => pure (i + 1, #[])
  else do
    pure (i + argc, ← slots i (i + argc))

def readKeywords (i kwc : Nat) : MachineM (Nat × Option HashTable) :=
  if kwc == packedArgs then do
    match ← liftStore (Store.hashOf? (← slot i)) with
    | some t => if t.size > 0 then pure (i + 1, some (← copyTable t)) else pure (i + 1, none)
    | none => pure (i + 1, none)
  else if kwc > 0 then do
    let s ← forIn [:kwc] (i, ({} : HashTable)) fun _ s => do
      let k ← slot s.1
      let v ← slot (s.1 + 1)
      let t ← liftStore (Store.tableSet s.2 k v)
      pure (ForInStep.yield (s.1 + 2, t))
    pure (s.1, some s.2)
  else pure (i, none)

theorem rawArgs_eq (base argc kwc : Nat) :
    rawArgs base argc kwc = (do
      let (i, args) ← readPositional (base + 1) argc
      let (i, kw) ← readKeywords i kwc
      let blk ← slot i
      pure (args, kw, blk)) := by
  unfold rawArgs readPositional readKeywords
  dsimp only
  split
  case' isTrue =>
    simp only [bind_assoc]
    congr 1; funext _; congr 1; funext found
    cases found <;> simp only [pure_bind]
  case' isFalse =>
    simp only [bind_assoc, pure_bind]
    congr 1; funext _
  -- the keyword part, after each of the three ways the positional part can end
  all_goals
    split
    · simp only [bind_assoc]
      congr 1; funext _; congr 1; funext found
      cases found with
      | none => simp only [pure_bind]
      | some t => by_cases pos : t.size > 0 <;> simp only [pos, ↓reduceIte, bind_assoc, pure_bind]
    · split
      · simp only [bind_assoc, pure_bind]
      · simp only [pure_bind]

theorem arrayOf?_run {st : Store} {r : ObjRef} {es : Array Value} (found : st.bodyAt r = some (.array es)) :
    (Store.arrayOf? (.obj r)).run st = .ok (some es) st := by
  obtain ⟨o, stored, body⟩ : ∃ o, st.heap[r.idx]? = some o ∧ o.body = .array es := by
    simpa [Store.bodyAt] using found
  simp only [Store.arrayOf?, EStateM.run_bind, Store.getObj, EStateM.run_get, stored]
  cases o with
  | mk _ _ _ _ b =>
    subst body
    rfl

theorem hashOf?_run {st : Store} {r : ObjRef} {t : HashTable} (found : st.bodyAt r = some (.hash t)) :
    (Store.hashOf? (.obj r)).run st = .ok (some t) st := by
  obtain ⟨o, stored, body⟩ : ∃ o, st.heap[r.idx]? = some o ∧ o.body = .hash t := by
    simpa [Store.bodyAt] using found
  simp only [Store.hashOf?, EStateM.run_bind, Store.getObj, EStateM.run_get, stored]
  cases o with
  | mk _ _ _ _ b =>
    subst body
    rfl

theorem readPositional_run {m : Machine} {i n : Nat} {args : Array Value} {cells : List Value}
    (laid : Laid m i cells) (rule : PositionalCells m.store args n cells) (room : i + cells.length < m.stack.size) :
    (readPositional i n).run m = .ok (i + cells.length, args) m := by
  unfold PositionalCells at rule
  unfold readPositional
  split at rule
  · next inline =>
    obtain ⟨rfl, rfl⟩ := rule
    rw [if_neg (by simp only [beq_iff_eq, packedArgs] at inline ⊢; omega), EStateM.run_bind]
    simp only [Array.length_toList] at laid room
    rw [← Array.length_toList, slots_run_of_laid laid (by simpa using room)]
    simp
  · obtain ⟨rfl, r, rfl, found⟩ := rule
    rw [if_pos (beq_self_eq_true packedArgs), EStateM.run_bind, slot_run_of_laid laid]
    dsimp only
    rw [EStateM.run_bind, liftStore_run, arrayOf?_run found]
    rfl

theorem forIn_readPairs {m : Machine} (ps ps₀ : List (Value × Value)) (start i : Nat) {out : HashTable}
    (laid : Laid m i (pairCells ps)) (holds : out.Holds m.store.keyIn ps₀) (named : ∀ p ∈ ps, m.store.Names p.1)
    (distinct : ((ps₀ ++ ps).map (m.store.keyIn ∘ Prod.fst)).Nodup) :
    ∃ u, (forIn (List.range' start ps.length) (i, out) fun _ s => do
        let k ← slot s.1
        let v ← slot (s.1 + 1)
        let t ← liftStore (Store.tableSet s.2 k v)
        pure (ForInStep.yield (s.1 + 2, t))).run m = .ok (i + 2 * ps.length, u) m ∧
      u.Holds m.store.keyIn (ps₀ ++ ps) := by
  induction ps generalizing start i out ps₀ with
  | nil => exact ⟨out, by simp, by simpa using holds⟩
  | cons p ps ih =>
    obtain ⟨k, v⟩ := p
    have pair : pairCells ((k, v) :: ps) = [k] ++ [v] ++ pairCells ps := rfl
    rw [pair, laid_append, laid_append] at laid
    obtain ⟨⟨atKey, atValue⟩, rest⟩ := laid
    have fresh : m.store.keyIn k ∉ ps₀.map (m.store.keyIn ∘ Prod.fst) := by
      intro seen
      simp only [List.map_append, List.map_cons, List.nodup_append, List.nodup_cons] at distinct
      exact distinct.2.2 _ seen _ List.mem_cons_self rfl
    obtain ⟨t', set, holds'⟩ := Store.tableSet_run holds v (named _ List.mem_cons_self) fresh
    obtain ⟨u, loop, held⟩ := ih (ps₀ ++ [(k, v)]) (start + 1) (i + 2) (by simpa [Nat.add_assoc] using rest) holds'
      (fun p member => named p (List.mem_cons_of_mem _ member)) (by simpa using distinct)
    refine ⟨u, ?_, by simpa using held⟩
    rw [List.length_cons, List.range'_succ, List.forIn_cons, EStateM.run_bind, EStateM.run_bind,
      slot_run_of_laid atKey]
    dsimp only
    rw [EStateM.run_bind, slot_run_of_laid (by simpa using atValue)]
    dsimp only
    rw [EStateM.run_bind, liftStore_run, set, show i + 2 * (ps.length + 1) = i + 2 + 2 * ps.length by omega]
    exact loop

theorem readKeywords_run {m : Machine} {i nk : Nat} {kw : Option HashTable} {cells : List Value}
    (laid : Laid m i cells) (rule : KeywordCells m.store kw nk cells) (keyed : ∀ t ∈ kw, t.Keyed m.store) :
    ∃ kw', (readKeywords i nk).run m = .ok (i + cells.length, kw') m ∧
      kw'.map HashTable.entries = (kw.filter fun t => 0 < t.size).map HashTable.entries := by
  cases kw with
  | none =>
    obtain ⟨rfl, rfl⟩ := rule
    exact ⟨none, rfl, rfl⟩
  | some t =>
    have keyed := keyed t rfl
    dsimp only [KeywordCells] at rule
    unfold readKeywords
    split at rule
    · next empty =>
      obtain ⟨rfl, rfl⟩ := rule
      refine ⟨none, rfl, ?_⟩
      simp [Option.filter_some, empty]
    · next full =>
      have filtered : (some t).filter (fun t => 0 < t.size) = some t := by simp [Option.filter_some]; omega
      rw [filtered]
      split at rule
      · next inline =>
        obtain ⟨rfl, rfl⟩ := rule
        rw [if_neg (by simp only [beq_iff_eq, packedArgs] at inline ⊢; omega), if_pos (by omega)]
        have fromEntries := keyed.length_entries
        have named : ∀ p ∈ t.entries, m.store.Names p.1 := fun p member => by
          have : p.1 ∈ t.entries.map Prod.fst := List.mem_map_of_mem member
          rw [keyed.keys_entries] at this
          exact keyed.named _ (Array.mem_toList_iff.mp this)
        have distinct : (([] ++ t.entries).map (m.store.keyIn ∘ Prod.fst)).Nodup := by
          rw [List.nil_append, ← List.map_map, keyed.keys_entries]
          exact keyed.distinct
        obtain ⟨u, loop, holds⟩ := forIn_readPairs t.entries [] 0 i laid (HashTable.holds_empty _) named distinct
        refine ⟨some u, ?_, by simpa using holds.entries⟩
        rw [EStateM.run_bind, Std.Legacy.Range.forIn_eq_forIn_range']
        simp only [Std.Legacy.Range.size, Nat.sub_zero, Nat.add_sub_cancel, Nat.div_one]
        rw [← fromEntries, loop, length_pairCells]
        rfl
      · obtain ⟨rfl, r, u, rfl, found, sameKeys, sameVals⟩ := rule
        have keyedU : u.Keyed m.store :=
          ⟨by rw [sameKeys, sameVals]; exact keyed.sizes, by rw [sameKeys]; exact keyed.named,
            by rw [sameKeys]; exact keyed.distinct⟩
        have entries : u.entries = t.entries := by simp [HashTable.entries, sameKeys, sameVals]
        obtain ⟨u', copied, holds⟩ := Store.tableCopy_run keyedU
        rw [if_pos (beq_self_eq_true packedArgs), EStateM.run_bind, slot_run_of_laid laid]
        dsimp only
        rw [EStateM.run_bind, liftStore_run, hashOf?_run found]
        dsimp only
        have positive : u.size > 0 := by simp only [HashTable.size, sameKeys]; exact Nat.pos_of_ne_zero full
        rw [if_pos positive]
        refine ⟨some u', ?_, by simp [holds.entries, entries]⟩
        simp only [EStateM.run_bind, copyTable, liftStore_run, copied]
        rfl

theorem rawArgs_run_of_laid {m : Machine} {base n nk : Nat} {recv blk : Value} {args : Array Value}
    {kw : Option HashTable} (laid : ArgsLaid m base recv args kw blk n nk) (keyed : ∀ t ∈ kw, t.Keyed m.store) :
    ∃ kw', (rawArgs base n nk).run m = .ok (args, kw', blk) m ∧
      kw'.map HashTable.entries = (kw.filter fun t => 0 < t.size).map HashTable.entries := by
  obtain ⟨pcells, atArgs, pcellsOk⟩ := laid.positional
  obtain ⟨kcells, atKw, kcellsOk⟩ := laid.keywords
  have plen := pcellsOk.length
  have klen := kcellsOk.length fun t member => (keyed t member).sizes
  have room : base + 1 + argSlots n + kwSlots nk < m.stack.size := Laid.size (show Laid m _ ([] ++ [blk]) from laid.block)
  rw [← plen] at atKw
  obtain ⟨kw', read, same⟩ := readKeywords_run atKw kcellsOk keyed
  refine ⟨kw', ?_, same⟩
  rw [rawArgs_eq, EStateM.run_bind, readPositional_run atArgs pcellsOk (by omega)]
  dsimp only
  rw [EStateM.run_bind, read]
  dsimp only
  rw [EStateM.run_bind, klen, plen, slot_run_of_laid laid.block]
  rfl

theorem rawArgs_placeArgs (m : Machine) (live : m.current < m.contexts.size) (base : Nat) (recv : Value)
    (args : Array Value) (kw : Option HashTable) (blk : Value) (keyed : ∀ t ∈ kw, t.Keyed m.store) :
    ∃ n nk m' kw', (placeArgs base recv args kw blk).run m = .ok (n, nk) m' ∧
      ArgsLaid m' base recv args kw blk n nk ∧
      (rawArgs base n nk).run m' = .ok (args, kw', blk) m' ∧
      kw'.map HashTable.entries = (kw.filter fun t => 0 < t.size).map HashTable.entries := by
  obtain ⟨n, nk, m', placed, laid, grown⟩ := placeArgs_laid base recv args kw blk m live keyed
  obtain ⟨kw', read, same⟩ := rawArgs_run_of_laid laid fun t member => (keyed t member).grow grown
  exact ⟨n, nk, m', kw', placed, laid, read, same⟩

theorem rawArgs_placeArgs_two_keywords :
    let m : Machine := { store := default, contexts := #[{ stack := #[] }] }
    let kw : HashTable := { keys := #[.int 1, .int 2], vals := #[.nil, .nil] }
    m.current < m.contexts.size ∧ (∀ t ∈ some kw, t.Keyed m.store) ∧
    ∃ n nk m' kw', (placeArgs 0 .nil #[.int 7] (some kw) .nil).run m = .ok (n, nk) m' ∧
      ArgsLaid m' 0 .nil #[.int 7] (some kw) .nil n nk ∧
      (rawArgs 0 n nk).run m' = .ok (#[.int 7], kw', .nil) m' ∧
      kw'.map HashTable.entries = ((some kw).filter fun t => 0 < t.size).map HashTable.entries :=
  have keyed : ∀ t ∈ some ({ keys := #[.int 1, .int 2], vals := #[.nil, .nil] } : HashTable),
      t.Keyed (default : Store) := by
    rintro t ⟨⟩
    exact ⟨rfl, fun k member => by simp at member; rcases member with rfl | rfl <;> trivial, by decide⟩
  ⟨by decide, keyed, rawArgs_placeArgs _ (by decide) 0 .nil #[.int 7] _ .nil keyed⟩

end Machine

end RegisterVM
