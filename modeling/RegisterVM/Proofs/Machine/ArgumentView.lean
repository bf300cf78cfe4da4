import RegisterVM.Machine.ArgumentView
import RegisterVM.Proofs.Machine.Arguments
import RegisterVM.Proofs.Machine.Backtraces

set_option autoImplicit false

namespace RegisterVM

namespace Machine

theorem readOnly_readPositional (i n : Nat) : ReadOnly (readPositional i n) := by
  unfold readPositional
  repeat' (first
    | with_reducible exact Keeps.pure _
    | with_reducible exact readOnly_slot _
    | with_reducible exact readOnly_slots _ _
    | with_reducible exact readOnly_liftStore (Store.readOnly_arrayOf? _)
    | with_reducible apply Keeps.bind
    | split
    | intro _)

theorem readOnly_readKeywords (i n : Nat) : ReadOnly (readKeywords i n) := by
  unfold readKeywords copyTable
  repeat' (first
    | with_reducible exact Keeps.pure _
    | with_reducible exact readOnly_slot _
    | with_reducible exact readOnly_liftStore (Store.readOnly_hashOf? _)
    | with_reducible exact readOnly_liftStore (Store.readOnly_tableSet _ _ _)
    | with_reducible exact readOnly_liftStore (Store.readOnly_tableCopy _)
    | with_reducible apply Keeps.forIn_range
    | with_reducible apply Keeps.bind
    | split
    | intro _)

theorem readOnly_rawArgs (base argc kwc : Nat) : ReadOnly (rawArgs base argc kwc) := by
  rw [rawArgs_eq]
  refine Keeps.bind (readOnly_readPositional _ _) fun ⟨i, args⟩ => ?_
  refine Keeps.bind (readOnly_readKeywords _ _) fun ⟨j, kw⟩ => ?_
  exact Keeps.bind (readOnly_slot _) fun _ => Keeps.pure _

theorem slots_ok {lo hi : Nat} {m m' : Machine} {es : Array Value} (run : (slots lo hi).run m = .ok es m') :
    hi ≤ m.stack.size ∧ es = m.stack.extract lo hi := by
  unfold slots at run
  obtain ⟨c, m₁, current, run⟩ := bind_run_ok run
  have := readOnly_currentContext.ok_state current
  subst m₁
  rw [currentContext_run] at current
  have running : m.contexts[m.current]? = some c := by
    cases h : m.contexts[m.current]? <;> rw [h] at current <;> cases current; rfl
  have onStack : m.stack = c.stack := by simp [stack, running]
  split at run
  · next inside =>
    cases run
    simp only [Bool.and_eq_true, decide_eq_true_eq] at inside
    exact ⟨onStack ▸ inside.2, by rw [onStack]⟩
  · cases run

theorem readPositional_ok {i n j : Nat} {args : Array Value} {m m' : Machine}
    (run : (readPositional i n).run m = .ok (j, args) m') :
    j = i + argSlots n ∧
      (n = packedArgs → ∃ v found, (slot i).run m = .ok v m ∧
        (liftStore (Store.arrayOf? v)).run m = .ok found m ∧ args = found.getD #[]) ∧
      (n ≠ packedArgs → i + n ≤ m.stack.size ∧ args = m.stack.extract i (i + n)) := by
  unfold readPositional at run
  split at run
  · next packed =>
    have isPacked : n = packedArgs := by simpa using packed
    obtain ⟨v, m₁, read, run⟩ := bind_run_ok run
    have := (readOnly_slot _).ok_state read
    subst m₁
    obtain ⟨found, m₂, lookup, run⟩ := bind_run_ok run
    have := (readOnly_liftStore (Store.readOnly_arrayOf? _)).ok_state lookup
    subst m₂
    refine ⟨?_, fun _ => ⟨v, found, read, lookup, ?_⟩, fun inline => absurd isPacked inline⟩ <;>
      cases found <;> cases run <;> simp [argSlots, isPacked]
  · next inline =>
    have notPacked : n ≠ packedArgs := by simpa using inline
    obtain ⟨es, m₁, read, run⟩ := bind_run_ok run
    obtain ⟨within, rfl⟩ := slots_ok read
    cases run
    exact ⟨by simp [argSlots, notPacked], fun packed => absurd packed notPacked, fun _ => ⟨within, rfl⟩⟩

theorem forIn_pairs_next {m m' : Machine} (xs : List Nat) (i : Nat) (t : HashTable)
    {s : Nat × HashTable}
    (run : (forIn xs (i, t) fun _ s => do
        let k ← slot s.1
        let v ← slot (s.1 + 1)
        let t ← liftStore (Store.tableSet s.2 k v)
        pure (ForInStep.yield (s.1 + 2, t))).run m = .ok s m') :
    s.1 = i + 2 * xs.length := by
  induction xs generalizing i t m with
  | nil =>
    cases run
    rfl
  | cons x xs ih =>
    rw [List.forIn_cons] at run
    obtain ⟨step, m₁, pass, run⟩ := bind_run_ok run
    obtain ⟨k, m₂, -, pass⟩ := bind_run_ok pass
    obtain ⟨v, m₃, -, pass⟩ := bind_run_ok pass
    obtain ⟨t', m₄, -, pass⟩ := bind_run_ok pass
    cases pass
    rw [ih (i + 2) t' run, List.length_cons]
    omega

theorem readKeywords_next {i n j : Nat} {kw : Option HashTable} {m m' : Machine}
    (run : (readKeywords i n).run m = .ok (j, kw) m') : j = i + kwSlots n := by
  unfold readKeywords at run
  split at run
  · next packed =>
    have isPacked : n = packedArgs := by simpa using packed
    obtain ⟨v, m₁, -, run⟩ := bind_run_ok run
    obtain ⟨found, m₂, -, run⟩ := bind_run_ok run
    -- every way out of the packed case moves on by the one slot of the hash
    simp only [kwSlots, isPacked, beq_self_eq_true, if_true]
    rcases found with _ | t
    · cases run; rfl
    · dsimp only at run
      split at run
      · obtain ⟨_, _, -, run⟩ := bind_run_ok run
        cases run; rfl
      · cases run; rfl
  · next inline =>
    have notPacked : n ≠ packedArgs := by simpa using inline
    simp only [kwSlots, notPacked, beq_iff_eq, if_false]
    split at run
    · obtain ⟨s, m₁, loop, run⟩ := bind_run_ok run
      cases run
      rw [Std.Legacy.Range.forIn_eq_forIn_range'] at loop
      simpa using forIn_pairs_next _ i {} loop
    · next none =>
      cases run
      omega

theorem rawArgs_ok {base argc kwc : Nat} {m m' : Machine} {args : Array Value}
    {kw : Option HashTable} {blk : Value}
    (raw : (rawArgs base argc kwc).run m = .ok (args, kw, blk) m') :
    m' = m ∧ (readPositional (base + 1) argc).run m = .ok (base + 1 + argSlots argc, args) m ∧
      (slot (base + 1 + argSlots argc + kwSlots kwc)).run m = .ok blk m := by
  have := (readOnly_rawArgs _ _ _).ok_state raw
  subst m'
  rw [rawArgs_eq] at raw
  obtain ⟨⟨i, args'⟩, m₁, positional, raw⟩ := bind_run_ok raw
  have := (readOnly_readPositional _ _).ok_state positional
  subst m₁
  obtain ⟨⟨j, kw'⟩, m₂, keyword, raw⟩ := bind_run_ok raw
  have := (readOnly_readKeywords _ _).ok_state keyword
  subst m₂
  obtain ⟨blk', m₃, block, raw⟩ := bind_run_ok raw
  have := (readOnly_slot _).ok_state block
  subst m₃
  cases raw
  have next₁ := (readPositional_ok positional).1
  have next₂ := readKeywords_next keyword
  subst next₁ next₂
  exact ⟨rfl, positional, block⟩

section View

variable {m : Machine} {f : Frame} {args : Array Value}

theorem argCount_of_read (top : m.top? = some f)
    (positional : (readPositional (f.base + 1) f.argc).run m = .ok (f.base + 1 + argSlots f.argc, args) m) :
    argCount.run m = .ok args.size m := by
  obtain ⟨-, packed, inline⟩ := readPositional_ok positional
  unfold argCount
  rw [EStateM.run_bind, topFrame_run, top]
  dsimp only
  by_cases isPacked : f.argc = packedArgs
  · obtain ⟨v, found, read, lookup, rfl⟩ := packed isPacked
    rw [if_pos (by simp [isPacked]), EStateM.run_bind, read]
    dsimp only
    rw [EStateM.run_bind, lookup]
    cases found <;> rfl
  · obtain ⟨within, rfl⟩ := inline isPacked
    rw [if_neg (by simpa using isPacked)]
    simp only [EStateM.run_pure, Array.size_extract, EStateM.Result.ok.injEq, and_true]
    omega

theorem arg_of_read (top : m.top? = some f)
    (positional : (readPositional (f.base + 1) f.argc).run m = .ok (f.base + 1 + argSlots f.argc, args) m)
    (i : Nat) : (arg i).run m = .ok (args.getD i .nil) m := by
  obtain ⟨-, packed, inline⟩ := readPositional_ok positional
  unfold arg
  rw [EStateM.run_bind, topFrame_run, top]
  dsimp only
  by_cases isPacked : f.argc = packedArgs
  · obtain ⟨v, found, read, lookup, rfl⟩ := packed isPacked
    rw [if_pos (by simp [isPacked]), EStateM.run_bind, read]
    dsimp only
    rw [EStateM.run_bind, lookup]
    cases found with
    | none => simp
    | some es =>
      dsimp only
      by_cases below : (i : Int) < es.size
      · rw [if_pos below, if_neg (by omega)]
        simp
      · rw [if_neg below]
        simp [Array.getD_eq_getD_getElem?, show es.size ≤ i by omega]
  · obtain ⟨within, rfl⟩ := inline isPacked
    rw [if_neg (by simpa using isPacked)]
    by_cases inside : i < f.argc
    · obtain ⟨v, found⟩ : ∃ v, m.stack[f.base + 1 + i]? = some v :=
        Option.isSome_iff_exists.1 (by simp; omega)
      have reads : (m.stack.extract (f.base + 1) (f.base + 1 + f.argc))[i]? = m.stack[f.base + 1 + i]? := by
        rw [Array.getElem?_extract, if_pos (by omega)]
      rw [if_neg (by omega), show (i : Int).toNat = i by simp, slot_run, found]
      simp [Array.getD_eq_getD_getElem?, reads, found]
    · rw [if_pos (by omega)]
      have past : (m.stack.extract (f.base + 1) (f.base + 1 + f.argc))[i]? = none := by
        rw [Array.getElem?_extract, if_neg (by omega)]
      simp [Array.getD_eq_getD_getElem?, past]

theorem restArgs_of_read (top : m.top? = some f)
    (positional : (readPositional (f.base + 1) f.argc).run m = .ok (f.base + 1 + argSlots f.argc, args) m)
    (k : Nat) : (restArgs k).run m = .ok (args.extract k args.size) m := by
  unfold restArgs
  rw [EStateM.run_bind, argCount_of_read top positional]
  dsimp only
  by_cases done : (args.size : Int) ≤ k
  · rw [if_pos done, EStateM.run_pure, Array.extract_eq_empty_of_le (by simp; omega)]
  · rw [if_neg done, EStateM.run_bind, Std.Legacy.Range.forIn_eq_forIn_range',
      (forIn_reads_yield m (fun j out => out.push (args.getD (k + j) .nil)) ?each #[]).run_eq,
      foldl_push_eq_map]
    · -- the suffix, one index after another
      simp only [EStateM.run_pure, EStateM.Result.ok.injEq, and_true]
      apply Array.ext_getElem?
      intro j
      simp only [Std.Legacy.Range.size, Nat.sub_zero, Nat.add_sub_cancel, Nat.div_one,
        Array.empty_append, List.getElem?_toArray, List.getElem?_map, Array.getElem?_extract,
        Nat.min_self]
      by_cases inside : j < args.size - k
      · rw [List.getElem?_range' (by omega), if_pos inside]
        simp [Array.getD_eq_getD_getElem?, show k + j < args.size by omega]
      · rw [List.getElem?_eq_none (by simp; omega), if_neg inside]
        rfl
    case each =>
      intro j member out
      simp only [Reads, EStateM.run_bind]
      rw [show (k : Int) + (j : Int) = ((k + j : Nat) : Int) by push_cast; rfl,
        arg_of_read top positional]
      rfl

theorem keywords_of_read {kw : Option HashTable} {blk : Value} (top : m.top? = some f)
    (raw : (rawArgs f.base f.argc f.kwc).run m = .ok (args, kw, blk) m) : keywords.run m = .ok kw m := by
  unfold keywords
  rw [EStateM.run_bind, topFrame_run, top]
  dsimp only
  rw [EStateM.run_bind, raw]
  rfl

theorem blockArg_of_read {blk : Value} (top : m.top? = some f)
    (block : (slot (f.base + 1 + argSlots f.argc + kwSlots f.kwc)).run m = .ok blk m) :
    blockArg.run m = .ok blk m := by
  unfold blockArg
  rw [EStateM.run_bind, topFrame_run, top]
  exact block

end View

theorem view_reads_raw_layout {m m' : Machine} {f : Frame} {args : Array Value}
    {kw : Option HashTable} {blk : Value} (top : m.top? = some f)
    (raw : (rawArgs f.base f.argc f.kwc).run m = .ok (args, kw, blk) m') :
    argCount.run m = .ok args.size m ∧ (∀ i : Nat, (arg i).run m = .ok (args.getD i .nil) m) ∧
      (∀ k : Nat, (restArgs k).run m = .ok (args.extract k args.size) m) ∧
      keywords.run m = .ok kw m ∧ blockArg.run m = .ok blk m := by
  obtain ⟨unchanged, positional, block⟩ := rawArgs_ok raw
  subst unchanged
  exact ⟨argCount_of_read top positional, arg_of_read top positional, restArgs_of_read top positional,
    keywords_of_read top raw, blockArg_of_read top block⟩

theorem view_of_two_inline_arguments :
    let m : Machine :=
      { store := {}
        contexts := #[{ stack := #[.nil, .int 1, .int 2, .nil], frames := #[
          { serial := 0, base := 0, nregs := 4, code := .native none, argc := 2, kwc := 0,
            kind := .vm, mid := ⟨0⟩, owner := none, acc := -1, blk := .nil }] }] }
    argCount.run m = .ok 2 m ∧ (∀ i : Nat, (arg i).run m = .ok (#[.int 1, .int 2].getD i .nil) m) ∧
      (∀ k : Nat, (restArgs k).run m = .ok (#[.int 1, .int 2].extract k 2) m) ∧
      keywords.run m = .ok none m ∧ blockArg.run m = .ok .nil m := by
  intro m
  exact @view_reads_raw_layout m m _ #[.int 1, .int 2] none .nil rfl rfl

theorem map_run {ε σ α β : Type} (g : α → β) (x : EStateM ε σ α) (s : σ) :
    (g <$> x).run s = match x.run s with
      | .ok a t => .ok (g a) t
      | .error e t => .error e t := by
  rw [← bind_pure_comp, EStateM.run_bind]
  cases x.run s <;> rfl

theorem keyword_arg_takes_first_of_repeated_key :
    let m : Machine :=
      { store := {}
        contexts := #[{ stack := #[.nil, .sym ⟨1⟩, .int 1, .sym ⟨1⟩, .int 2, .nil], frames := #[
          { serial := 0, base := 0, nregs := 6, code := .native none, argc := 0, kwc := 2,
            kind := .vm, mid := ⟨0⟩, owner := none, acc := -1, blk := .nil }] }] }
    (keywordArg ⟨1⟩).run m = .ok (some (.int 1)) m ∧
      ∃ t, keywords.run m = .ok (some t) m ∧
        (Store.tableGet t (.sym ⟨1⟩)).run m.store = .ok (some (.int 2)) m.store := by
  intro m
  -- the table stores the symbol once, first with 1 and then, in place, with 2
  refine ⟨?first,
    { keys := #[.sym ⟨1⟩], vals := #[.int 2], index := ({} : Std.HashMap HashKey Nat).insert (.scalar 3 1) 0 },
    ?table, ?lookup⟩
  case first =>
    simp [keywordArg, topFrame_run, top?, frames, Std.Legacy.Range.forIn_eq_forIn_range', slot_run, stack, m,
      packedArgs, argSlots, show List.range' 0 2 = [0, 1] from rfl, map_run]
  case table =>
    simp [keywords, rawArgs_eq, topFrame_run, top?, frames, readPositional, readKeywords, slots,
      Std.Legacy.Range.forIn_eq_forIn_range', slot_run, stack, Store.tableSet, Store.keyOf, HashTable.set, m,
      currentContext_run, liftStore_run, packedArgs, show List.range' 0 2 = [0, 1] from rfl, map_run]
  case lookup => simp [Store.tableGet, Store.keyOf, HashTable.get]

end Machine

end RegisterVM
