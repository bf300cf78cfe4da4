import RegisterVM.Proofs.Bytecode.Layout

set_option autoImplicit false

namespace RegisterVM

def CatchCall.entry (c : CatchCall) : CatchKind × String × String × String :=
  (c.kind, c.start, c.stop, c.target)

def PendingCatch.entry (c : PendingCatch) : CatchKind × String × String × String :=
  (c.kind, c.start, c.stop, c.target)

theorem split_snoc {done pre post : List BuildCall} {c d : BuildCall}
    (h : done ++ [c] = pre ++ d :: post) :
    (pre = done ∧ d = c ∧ post = []) ∨ ∃ post', post = post' ++ [c] ∧ done = pre ++ d :: post' := by
  rcases List.eq_nil_or_concat post with rfl | ⟨post', e, rfl⟩
  · obtain ⟨front, last⟩ := List.append_inj' h rfl
    simp only [List.cons.injEq, and_true] at last
    exact .inl ⟨front.symm, last.symm, rfl⟩
  · rw [List.concat_eq_append] at h ⊢
    rw [← List.cons_append, ← List.append_assoc] at h
    obtain ⟨front, last⟩ := List.append_inj' h rfl
    simp only [List.cons.injEq, and_true] at last
    exact .inr ⟨post', by rw [last], front⟩

theorem exists_of_bind_eq_ok {ε α β : Type} {x : Except ε α} {f : α → Except ε β} {y : β}
    (h : x >>= f = .ok y) : ∃ a, x = .ok a ∧ f a = .ok y := by
  cases x with
  | error e => cases h
  | ok a => exact ⟨a, rfl, h⟩

namespace Builder

variable {b b' : Builder} {t t' : Symbols}

theorem emit_inv {op : Opcode} {xs : List Int} (h : (b.emit op xs).run t = .ok (b', t')) :
    xs.length = op.shape.arity ∧ t' = t ∧ b'.code.toList = b.code.toList ++ op.encode xs ∧
      b'.labels = b.labels ∧ b'.catches = b.catches := by
  by_cases arity : xs.length = op.shape.arity
  · simp only [emit, arity, bne_self_eq_false, Bool.false_eq_true, if_false] at h
    cases h
    refine ⟨arity, rfl, ?_, rfl, rfl⟩
    simp only [Array.toList_append, Array.toList_push, Opcode.encode,
      List.append_assoc, List.singleton_append]
    rfl
  · simp [emit, arity, fail] at h
    cases h

theorem patch_inv {operand next target : Nat} (h : (b.patch operand next target).run t = .ok (b', t')) :
    t' = t ∧ (-32768 ≤ (target : Int) - next ∧ (target : Int) - next ≤ 32767) ∧
      b'.code.toList = setField b.code.toList operand ((target : Int) - next) ∧
      b'.labels = b.labels ∧ b'.catches = b.catches := by
  by_cases out : (target : Int) - next < -32768 ∨ 32767 < (target : Int) - next
  · simp [patch, out, fail] at h
    cases h
  · simp [patch, out] at h
    cases h
    refine ⟨rfl, by omega, ?_, rfl, rfl⟩
    simp [setField]

theorem patchAll_inv {pos : Nat} : ∀ {rs : List (Nat × Nat)} {b b' : Builder} {t t' : Symbols},
    (rs.foldlM (fun (b : Builder) r => b.patch r.1 r.2 pos) b).run t = .ok (b', t') →
      t' = t ∧ (∀ r ∈ rs, -32768 ≤ (pos : Int) - r.2 ∧ (pos : Int) - r.2 ≤ 32767) ∧
      b'.code.toList = rs.foldl (fun c r => setField c r.1 ((pos : Int) - r.2)) b.code.toList ∧
      b'.labels = b.labels ∧ b'.catches = b.catches
  | [], b, b', t, t', h => by
    simp only [List.foldlM_nil] at h
    cases h
    exact ⟨rfl, by simp, rfl, rfl, rfl⟩
  | r :: rs, b, b', t, t', h => by
    simp only [List.foldlM_cons, StateT.run_bind] at h
    cases first : (b.patch r.1 r.2 pos).run t with
    | error e => simp [first] at h; cases h
    | ok result =>
      obtain ⟨b₁, t₁⟩ := result
      simp only [first] at h
      obtain ⟨rfl, span, code₁, labels₁, catches₁⟩ := patch_inv first
      obtain ⟨rfl, spans, code, labels, catches⟩ := patchAll_inv h
      refine ⟨rfl, ?_, by simp [code, code₁], labels.trans labels₁, catches.trans catches₁⟩
      simp only [List.mem_cons, forall_eq_or_imp]
      exact ⟨span, spans⟩

def posOf (labels : Array Label) (l : String) : Option Nat :=
  (labels.find? (·.name == l)).bind (·.position)

def refsOf (labels : Array Label) (l : String) : List (Nat × Nat) :=
  ((labels.find? (·.name == l)).map (·.refs)).getD []

def entryOf (labels : Array Label) (l : String) : Label :=
  (labels.find? (·.name == l)).getD { name := l }

theorem position_entryOf (labels : Array Label) (l : String) :
    (entryOf labels l).position = posOf labels l := by
  unfold entryOf posOf
  cases labels.find? (·.name == l) <;> rfl

theorem refs_entryOf (labels : Array Label) (l : String) :
    (entryOf labels l).refs = refsOf labels l := by
  unfold entryOf refsOf
  cases labels.find? (·.name == l) <;> rfl

theorem name_entryOf (labels : Array Label) (l : String) : (entryOf labels l).name = l := by
  unfold entryOf
  cases found : labels.find? (·.name == l) with
  | none => rfl
  | some lab => simpa using Array.find?_some found

theorem find?_set_first {α : Type} {p : α → Bool} {v : α} (hv : p v = true) :
    ∀ {L : List α} {i : Nat}, L.findIdx? p = some i → (L.set i v).find? p = some v
  | [], _, h => by simp at h
  | a :: L, i, h => by
    by_cases pa : p a = true
    · simp only [List.findIdx?_cons, pa, if_true, Option.some.injEq] at h
      subst h
      simp [hv]
    · simp only [List.findIdx?_cons, pa, Bool.false_eq_true, if_false, Option.map_eq_some_iff] at h
      obtain ⟨j, found, rfl⟩ := h
      simp [pa, find?_set_first hv found]

theorem find?_set_other {α : Type} {q : α → Bool} {v : α} (hv : q v = false) :
    ∀ {L : List α} {i : Nat}, (∀ h : i < L.length, q L[i] = false) → (L.set i v).find? q = L.find? q
  | [], _, _ => by simp
  | a :: L, 0, h => by simp_all
  | a :: L, i + 1, h => by
    simp only [List.set_cons_succ, List.find?_cons]
    rw [find?_set_other (L := L) (i := i) hv fun within => h (Nat.succ_lt_succ within)]

theorem find?_of_findIdx? {α : Type} {p : α → Bool} :
    ∀ {L : List α} {i : Nat}, L.findIdx? p = some i → ∃ h' : i < L.length, L.find? p = some L[i]
  | [], _, h => by simp at h
  | a :: L, i, h => by
    by_cases pa : p a = true
    · simp only [List.findIdx?_cons, pa, if_true, Option.some.injEq] at h
      subst h
      simp [pa]
    · simp only [List.findIdx?_cons, pa, Bool.false_eq_true, if_false, Option.map_eq_some_iff] at h
      obtain ⟨j, found, rfl⟩ := h
      obtain ⟨within, first⟩ := find?_of_findIdx? found
      exact ⟨by simpa using within, by simp [pa, first]⟩

theorem findIdx?_toList {α : Type} (xs : Array α) (p : α → Bool) :
    xs.toList.findIdx? p = xs.findIdx? p := by
  cases xs
  simp

@[simp] theorem code_labelIndex (b : Builder) (n : String) : (b.labelIndex n).1.code = b.code := by
  unfold labelIndex
  split <;> rfl

@[simp] theorem catches_labelIndex (b : Builder) (n : String) :
    (b.labelIndex n).1.catches = b.catches := by
  unfold labelIndex
  split <;> rfl

theorem findIdx?_labelIndex (b : Builder) (n : String) :
    (b.labelIndex n).1.labels.toList.findIdx? (·.name == n) = some (b.labelIndex n).2 := by
  unfold labelIndex
  split
  · rename_i i found
    rw [findIdx?_toList]
    exact found
  · rename_i missing
    rw [← findIdx?_toList] at missing
    simp [List.findIdx?_append, missing]

theorem find?_labelIndex (b : Builder) (n l : String) :
    (b.labelIndex n).1.labels.find? (·.name == l) =
      if n = l then some (entryOf b.labels n) else b.labels.find? (·.name == l) := by
  unfold labelIndex entryOf
  split
  · rename_i i found
    split
    · subst l
      rw [← findIdx?_toList] at found
      obtain ⟨_, first⟩ := find?_of_findIdx? found
      rw [← Array.find?_toList, first]
      rfl
    · rfl
  · -- a new name gets a fresh entry at the end, after every entry of the other names
    rename_i missing
    rw [← findIdx?_toList, List.findIdx?_eq_none_iff] at missing
    have none : b.labels.find? (·.name == n) = none := by
      rw [← Array.find?_toList, List.find?_eq_none]
      exact fun x mem => by simpa using missing x mem
    split
    · subst l
      simp [← Array.find?_toList, List.find?_append]
    · rename_i other
      simp [← Array.find?_toList, List.find?_append, other]

theorem getD_labelIndex (b : Builder) (n : String) :
    (b.labelIndex n).1.labels.getD (b.labelIndex n).2 default = entryOf b.labels n := by
  have found := findIdx?_labelIndex b n
  obtain ⟨within, first⟩ := find?_of_findIdx? found
  have entry := find?_labelIndex b n n
  rw [if_pos rfl, ← Array.find?_toList, first, Option.some.injEq] at entry
  rw [Array.getD_eq_getD_getElem?, ← Array.getElem?_toList, List.getElem?_eq_getElem within,
    Option.getD_some, entry]

theorem find?_setEntry (b : Builder) (n l : String) (v : Label) (named : v.name = n) :
    ((b.labelIndex n).1.labels.set! (b.labelIndex n).2 v).find? (·.name == l) =
      if n = l then some v else b.labels.find? (·.name == l) := by
  have found := findIdx?_labelIndex b n
  rw [← Array.find?_toList, Array.set!_eq_setIfInBounds, Array.toList_setIfInBounds]
  split
  · subst l
    exact find?_set_first (by simp [named]) found
  · rename_i other
    have old : ∀ h : (b.labelIndex n).2 < (b.labelIndex n).1.labels.toList.length,
        ((b.labelIndex n).1.labels.toList[(b.labelIndex n).2].name == l) = false := by
      intro h
      have named' := (List.findIdx?_eq_some_iff_getElem.1 found).2.1
      simp only [beq_iff_eq, Array.getElem_toList] at named'
      simp [named', other]
    rw [find?_set_other (by simp [named, other]) old, Array.find?_toList, find?_labelIndex,
      if_neg other]

theorem posOf_labelIndex (b : Builder) (n l : String) :
    posOf (b.labelIndex n).1.labels l = posOf b.labels l := by
  unfold posOf
  rw [find?_labelIndex]
  split
  · subst l
    rw [Option.bind_some, position_entryOf]
    rfl
  · rfl

theorem refsOf_labelIndex (b : Builder) (n l : String) :
    refsOf (b.labelIndex n).1.labels l = refsOf b.labels l := by
  unfold refsOf
  rw [find?_labelIndex]
  split
  · subst l
    rw [Option.map_some, Option.getD_some, refs_entryOf]
    rfl
  · rfl

theorem posOf_setEntry (b : Builder) (n l : String) (v : Label) (named : v.name = n) :
    posOf ((b.labelIndex n).1.labels.set! (b.labelIndex n).2 v) l =
      if n = l then v.position else posOf b.labels l := by
  unfold posOf
  rw [find?_setEntry b n l v named]
  split <;> rfl

theorem refsOf_setEntry (b : Builder) (n l : String) (v : Label) (named : v.name = n) :
    refsOf ((b.labelIndex n).1.labels.set! (b.labelIndex n).2 v) l =
      if n = l then v.refs else refsOf b.labels l := by
  unfold refsOf
  rw [find?_setEntry b n l v named]
  split <;> rfl

theorem jumpTo_inv {n : String} (h : (b.jumpTo n).run t = .ok (b', t')) :
    t' = t ∧ b'.catches = b.catches ∧
      ((∃ pos, posOf b.labels n = some pos ∧
          (-32768 ≤ (pos : Int) - b.code.size ∧ (pos : Int) - b.code.size ≤ 32767) ∧
          b'.code.toList = setField b.code.toList (b.code.size - 2) ((pos : Int) - b.code.size) ∧
          ∀ l, posOf b'.labels l = posOf b.labels l ∧ refsOf b'.labels l = refsOf b.labels l) ∨
        (posOf b.labels n = none ∧ b'.code = b.code ∧
          ∀ l, posOf b'.labels l = posOf b.labels l ∧
            refsOf b'.labels l =
              if n = l then (b.code.size - 2, b.code.size) :: refsOf b.labels l else refsOf b.labels l)) := by
  simp only [jumpTo, getD_labelIndex, code_labelIndex, catches_labelIndex, position_entryOf,
    refs_entryOf, name_entryOf] at h
  cases marked : posOf b.labels n with
  | some pos =>
    simp only [marked] at h
    obtain ⟨rfl, span, code, labels, catches⟩ := patch_inv h
    refine ⟨rfl, by simp [catches], .inl ⟨pos, rfl, span, by simp [code], fun l => ?_⟩⟩
    rw [labels, posOf_labelIndex, refsOf_labelIndex]
    exact ⟨rfl, rfl⟩
  | none =>
    simp only [marked] at h
    cases h
    refine ⟨rfl, rfl, .inr ⟨rfl, rfl, fun l => ⟨?_, ?_⟩⟩⟩
    · dsimp only
      rw [posOf_setEntry b n l _ rfl]
      split
      · subst l
        exact marked.symm
      · rfl
    · dsimp only
      rw [refsOf_setEntry b n l _ rfl]
      split
      · subst l
        rfl
      · rfl

theorem mark_inv {n : String} (h : (b.mark n).run t = .ok (b', t')) :
    t' = t ∧ b'.catches = b.catches ∧ posOf b.labels n = none ∧
      (∀ r ∈ refsOf b.labels n, -32768 ≤ (b.code.size : Int) - r.2 ∧ (b.code.size : Int) - r.2 ≤ 32767) ∧
      b'.code.toList =
        (refsOf b.labels n).reverse.foldl (fun c r => setField c r.1 ((b.code.size : Int) - r.2))
          b.code.toList ∧
      ∀ l, posOf b'.labels l = (if n = l then some b.code.size else posOf b.labels l) ∧
        refsOf b'.labels l = if n = l then [] else refsOf b.labels l := by
  simp only [mark, getD_labelIndex, code_labelIndex, catches_labelIndex, position_entryOf,
    refs_entryOf, name_entryOf] at h
  -- a second mark of a label is refused
  cases marked : posOf b.labels n with
  | some pos => simp [marked, fail] at h; cases h
  | none =>
    simp only [marked, Option.isSome_none, Bool.false_eq_true, if_false, bind_pure,
      bind_pure_comp, List.forIn_yield_eq_foldlM, id_map'] at h
    obtain ⟨rfl, spans, code, labels, catches⟩ := patchAll_inv h
    refine ⟨rfl, catches, rfl, fun r mem => spans r (List.mem_reverse.2 mem), code, fun l => ⟨?_, ?_⟩⟩
    · rw [labels]
      dsimp only
      rw [posOf_setEntry b n l _ rfl]
    · rw [labels]
      dsimp only
      rw [refsOf_setEntry b n l _ rfl]

theorem labelIndex_frame (b : Builder) (n : String) : ∃ labels, (b.labelIndex n).1 = { b with labels } := by
  unfold labelIndex
  split
  · exact ⟨b.labels, rfl⟩
  · exact ⟨_, rfl⟩

theorem patch_frame {operand next target : Nat} (h : (b.patch operand next target).run t = .ok (b', t')) :
    ∃ code : Array UInt8, code.size = b.code.size ∧ b' = { b with code } := by
  by_cases out : (target : Int) - next < -32768 ∨ 32767 < (target : Int) - next
  · simp [patch, out, fail] at h
    cases h
  · simp [patch, out] at h
    cases h
    exact ⟨_, by simp, rfl⟩

theorem patchAll_frame {pos : Nat} {rs : List (Nat × Nat)}
    (h : (rs.foldlM (fun (b : Builder) r => b.patch r.1 r.2 pos) b).run t = .ok (b', t')) :
    ∃ code : Array UInt8, code.size = b.code.size ∧ b' = { b with code } := by
  induction rs generalizing b t with
  | nil =>
    simp only [List.foldlM_nil] at h
    cases h
    exact ⟨_, rfl, rfl⟩
  | cons r rs ih =>
    simp only [List.foldlM_cons, StateT.run_bind] at h
    obtain ⟨⟨b₁, t₁⟩, first, rest⟩ := exists_of_bind_eq_ok h
    obtain ⟨code₁, size₁, rfl⟩ := patch_frame first
    obtain ⟨code, size, rfl⟩ := ih rest
    exact ⟨code, size.trans size₁, rfl⟩

theorem mark_frame {n : String} (h : (b.mark n).run t = .ok (b', t')) :
    ∃ (code : Array UInt8) (labels : Array Label), code.size = b.code.size ∧ b' = { b with code, labels } := by
  simp only [mark, getD_labelIndex, code_labelIndex, catches_labelIndex, position_entryOf,
    refs_entryOf, name_entryOf] at h
  cases marked : posOf b.labels n with
  | some pos => simp [marked, fail] at h; cases h
  | none =>
    simp only [marked, Option.isSome_none, Bool.false_eq_true, if_false, bind_pure,
      bind_pure_comp, List.forIn_yield_eq_foldlM, id_map'] at h
    obtain ⟨code, size, rfl⟩ := patchAll_frame h
    obtain ⟨labels, same⟩ := labelIndex_frame b n
    exact ⟨code, _, size, by simp only [same]; rfl⟩

theorem jumpTo_frame {n : String} (h : (b.jumpTo n).run t = .ok (b', t')) :
    ∃ (code : Array UInt8) (labels : Array Label), code.size = b.code.size ∧ b' = { b with code, labels } := by
  simp only [jumpTo, getD_labelIndex, code_labelIndex, catches_labelIndex, position_entryOf,
    refs_entryOf, name_entryOf] at h
  obtain ⟨labels, same⟩ := labelIndex_frame b n
  cases marked : posOf b.labels n with
  | some pos =>
    simp only [marked] at h
    obtain ⟨code, size, rfl⟩ := patch_frame h
    refine ⟨code, labels, by simpa using size, ?_⟩
    simp only [same]
  | none =>
    simp only [marked] at h
    cases h
    exact ⟨b.code, _, rfl, by simp only [same]; rfl⟩

theorem operandValues_nums (b : Builder) (t : Symbols) : ∀ xs : List Int,
    (b.operandValues (xs.map .num)).run t = .ok ((b, xs), t)
  | [] => rfl
  | x :: xs => by
    simp only [List.map_cons, operandValues, StateT.run_bind]
    simp [operandValues_nums b t xs]

theorem item_emit (b : Builder) (op : Opcode) (xs : List Int) (t : Symbols) :
    (b.item (BuildCall.emit op xs).item).run t = (b.emit op xs).run t := by
  simp only [BuildCall.item, item]
  split
  · rename_i last
    simp [List.getLast?_map] at last
  · simp only [StateT.run_bind, operandValues_nums]
    rfl

theorem item_jump (b : Builder) (op : Opcode) (xs : List Int) (l : String) (isJump : op.isJump = true)
    (t : Symbols) :
    (b.item (BuildCall.jump op xs l isJump).item).run t = (do let b ← b.emit op (xs ++ [0]); b.jumpTo l).run t := by
  simp only [BuildCall.item, item, isJump, List.getLast?_concat, List.dropLast_concat, StateT.run_bind,
    operandValues_nums]
  rfl

theorem item_catch_inv {c : CatchCall} (h : (b.item (BuildCall.catchEntry c).item).run t = .ok (b', t')) :
    b'.code = b.code ∧ (∀ l, posOf b'.labels l = posOf b.labels l ∧ refsOf b'.labels l = refsOf b.labels l) ∧
      b'.catches.toList.map PendingCatch.entry = b.catches.toList.map PendingCatch.entry ++ [c.entry] := by
  simp only [BuildCall.item, item, StateT.run_bind] at h
  obtain ⟨_, -, h⟩ := exists_of_bind_eq_ok h
  cases h
  exact ⟨by simp, fun l => by simp [posOf_labelIndex, refsOf_labelIndex],
    by simp [PendingCatch.entry, CatchCall.entry]⟩

structure Builds (done : List BuildCall) (b : Builder) : Prop where
  code : layout (markOffset · 0 done) 0 done = some b.code.toList
  position : ∀ l, posOf b.labels l = markOffset l 0 done
  waiting : ∀ l, refsOf b.labels l = if (markOffset l 0 done).isSome then [] else (refsTo l 0 done).reverse
  catches : b.catches.toList.map PendingCatch.entry = (catchCalls done).map CatchCall.entry
  once : ∀ pre post l, done = pre ++ .mark l :: post → markOffset l 0 pre = none

theorem builds_empty (kids : Array Procedure) : Builds [] { children := kids } where
  code := rfl
  position _ := rfl
  waiting _ := rfl
  catches := rfl
  once pre post l h := by simp at h

theorem Builds.size {done : List BuildCall} (inv : Builds done b) : b.code.size = extent done := by
  rw [Array.size_eq_length_toList, length_layout inv.code]

theorem Builds.once_snoc {done : List BuildCall} {c : BuildCall} (inv : Builds done b)
    (noMark : ∀ l, c.marks l = false) :
    ∀ pre post l, done ++ [c] = pre ++ .mark l :: post → markOffset l 0 pre = none := by
  intro pre post l h
  rcases split_snoc h with ⟨-, rfl, -⟩ | ⟨post', -, before⟩
  · simpa [BuildCall.marks] using noMark l
  · exact inv.once pre post' l before

theorem Builds.plain {done : List BuildCall} {c : BuildCall} {bs : List UInt8} (inv : Builds done b)
    (noMark : ∀ l, c.marks l = false) (noJump : ∀ l, c.jumpsTo l = false)
    (laid : c.bytes (markOffset · 0 done) (extent done) = some bs)
    (code : b'.code.toList = b.code.toList ++ bs)
    (labels : ∀ l, posOf b'.labels l = posOf b.labels l ∧ refsOf b'.labels l = refsOf b.labels l)
    (catches : b'.catches.toList.map PendingCatch.entry =
      b.catches.toList.map PendingCatch.entry ++ (c.catchOf?.map CatchCall.entry).toList) :
    Builds (done ++ [c]) b' := by
  have same : ∀ l, markOffset l 0 (done ++ [c]) = markOffset l 0 done := fun l => by
    simp [markOffset_snoc, noMark l]
  refine ⟨?_, fun l => ?_, fun l => ?_, ?_, inv.once_snoc noMark⟩
  · simp only [same]
    rw [layout_snoc, inv.code]
    simp [laid, code]
  · rw [(labels l).1, inv.position, same]
  · rw [(labels l).2, inv.waiting, same, refsTo_snoc]
    simp [noJump l]
  · rw [catches, inv.catches, catchCalls_snoc]
    cases c.catchOf? <;> simp

theorem Builds.jump {done : List BuildCall} {op : Opcode} {xs : List Int} {l : String}
    {isJump : op.isJump = true} (inv : Builds done b)
    (h : (do let b ← b.emit op (xs ++ [0]); b.jumpTo l).run t = .ok (b', t')) :
    Builds (done ++ [.jump op xs l isJump]) b' := by
  simp only [StateT.run_bind] at h
  obtain ⟨⟨b₁, t₁⟩, emitted, pointed⟩ := exists_of_bind_eq_ok h
  obtain ⟨arity, rfl, code₁, labels₁, catches₁⟩ := emit_inv emitted
  obtain ⟨rfl, catches, jumped⟩ := jumpTo_inv pointed
  have arity' : xs.length + 1 = op.shape.arity := by simpa using arity
  have size₁ : b₁.code.size = extent done + (op.shape.width + 1) := by
    rw [Array.size_eq_length_toList, code₁, List.length_append, ← Array.size_eq_length_toList,
      inv.size, length_opcode_encode]
  have same : ∀ l', markOffset l' 0 (done ++ [.jump op xs l isJump]) = markOffset l' 0 done :=
    fun l' => by simp [markOffset_snoc, BuildCall.marks]
  have catchesOk : b'.catches.toList.map PendingCatch.entry =
      (catchCalls (done ++ [.jump op xs l isJump])).map CatchCall.entry := by
    rw [catches, catches₁, inv.catches, catchCalls_snoc]
    simp [BuildCall.catchOf?]
  rw [labels₁] at jumped
  rcases jumped with ⟨pos, marked, span, code, views⟩ | ⟨unmarked, code, views⟩
  · -- The label is marked: the field gets its distance at once and nothing waits.
    have at_pos : markOffset l 0 done = some pos := (inv.position l).symm.trans marked
    refine ⟨?_, fun l' => ?_, fun l' => ?_, catchesOk, inv.once_snoc fun _ => rfl⟩
    · simp only [same]
      rw [layout_snoc, inv.code]
      have wide : 2 ≤ op.shape.width := by
        rcases shape_of_isJump isJump with shape | shape <;> simp [shape, Shape.width]
      have len : b.code.toList.length = extent done := by
        rw [← Array.size_eq_length_toList, inv.size]
      rw [size₁] at code span
      rw [code, code₁, setField_append_right _ (by omega),
        show extent done + (op.shape.width + 1) - 2 - b.code.toList.length = op.shape.width - 1 by omega,
        setField_jump isJump arity']
      push_cast at span
      simp [BuildCall.bytes, arity', at_pos, span]
    · rw [(views l').1, inv.position, same]
    · rw [(views l').2, inv.waiting, same, refsTo_snoc]
      by_cases target : l = l'
      · subst l'
        simp [at_pos]
      · simp [BuildCall.jumpsTo, target]
  · -- The label is not marked yet: the field waits on it.
    have first : markOffset l 0 done = none := (inv.position l).symm.trans unmarked
    refine ⟨?_, fun l' => ?_, fun l' => ?_, catchesOk, inv.once_snoc fun _ => rfl⟩
    · simp only [same]
      rw [layout_snoc, inv.code, code, code₁]
      simp [BuildCall.bytes, arity', first]
    · rw [(views l').1, inv.position, same]
    · rw [(views l').2, inv.waiting, same, refsTo_snoc]
      by_cases target : l = l'
      · subst l'
        simp [first, BuildCall.jumpsTo, size₁, BuildCall.width]
      · simp [BuildCall.jumpsTo, target]

theorem Builds.mark {done : List BuildCall} {l : String} (inv : Builds done b)
    (h : (b.mark l).run t = .ok (b', t')) : Builds (done ++ [.mark l]) b' := by
  obtain ⟨rfl, catches, unmarked, spans, code, views⟩ := mark_inv h
  have first : markOffset l 0 done = none := (inv.position l).symm.trans unmarked
  have waiting : refsOf b.labels l = (refsTo l 0 done).reverse := by
    rw [inv.waiting, first]
    rfl
  -- the new mark is the first one of `l`; every other label stays where it was
  have marks : (markOffset · 0 (done ++ [.mark l])) =
      Function.update (markOffset · 0 done) l (some (extent done)) := by
    funext l'
    by_cases target : l = l'
    · subst l'
      simp [markOffset_snoc, BuildCall.marks, first]
    · simp [markOffset_snoc, BuildCall.marks, target, Function.update_of_ne (Ne.symm target)]
  have reached : ∀ r ∈ refsTo l 0 done,
      -32768 ≤ ((extent done : Nat) : Int) - r.2 ∧ ((extent done : Nat) : Int) - r.2 ≤ 32767 := by
    intro r mem
    rw [← inv.size]
    exact spans r (by simp [waiting, mem])
  refine ⟨?_, fun l' => ?_, fun l' => ?_, ?_, ?_⟩
  · -- the fields patched are those of the jumps made to `l` so far, as in the layout
    rw [marks, layout_snoc, layout_mark first (extent done) inv.code reached, code, waiting,
      List.reverse_reverse, inv.size]
    simp [BuildCall.bytes]
  · rw [(views l').1, inv.position, markOffset_snoc]
    by_cases target : l = l'
    · subst l'
      simp [first, BuildCall.marks, inv.size]
    · simp [target, BuildCall.marks]
  · rw [(views l').2, inv.waiting, markOffset_snoc, refsTo_snoc]
    by_cases target : l = l'
    · subst l'
      simp [BuildCall.marks]
    · simp [target, BuildCall.marks, BuildCall.jumpsTo]
  · rw [catches, inv.catches, catchCalls_snoc]
    simp [BuildCall.catchOf?]
  · intro pre post l' split
    rcases split_snoc split with ⟨rfl, marked, -⟩ | ⟨post', -, before⟩
    · cases marked
      exact first
    · exact inv.once pre post' l' before

theorem Builds.item {done : List BuildCall} {c : BuildCall} (inv : Builds done b)
    (h : (b.item c.item).run t = .ok (b', t')) : Builds (done ++ [c]) b' := by
  cases c with
  | emit op xs =>
    rw [item_emit] at h
    obtain ⟨arity, -, code, labels, catches⟩ := emit_inv h
    exact inv.plain (fun _ => rfl) (fun _ => rfl) (by simp [BuildCall.bytes, arity]) code
      (fun l => by rw [labels]; exact ⟨rfl, rfl⟩) (by simp [catches, BuildCall.catchOf?])
  | jump op xs l isJump =>
    rw [item_jump] at h
    exact inv.jump h
  | mark l => exact inv.mark h
  | line n =>
    simp only [BuildCall.item] at h
    cases h
    exact inv.plain (fun _ => rfl) (fun _ => rfl) rfl (by simp) (fun _ => ⟨rfl, rfl⟩)
      (by simp [BuildCall.catchOf?])
  | catchEntry c =>
    obtain ⟨code, labels, catches⟩ := item_catch_inv h
    exact inv.plain (fun _ => rfl) (fun _ => rfl) rfl (by simp [code]) labels
      (by simp [catches, BuildCall.catchOf?])

theorem builds_foldlM : ∀ {cs done : List BuildCall} {b b' : Builder} {t t' : Symbols}, Builds done b →
    ((cs.map BuildCall.item).foldlM (fun (b : Builder) it => b.item it) b).run t = .ok (b', t') →
      Builds (done ++ cs) b'
  | [], done, b, b', t, t', inv, h => by
    simp only [List.map_nil, List.foldlM_nil] at h
    cases h
    simpa using inv
  | c :: cs, done, b, b', t, t', inv, h => by
    simp only [List.map_cons, List.foldlM_cons, StateT.run_bind] at h
    obtain ⟨⟨b₁, t₁⟩, step, rest⟩ := exists_of_bind_eq_ok h
    simpa using builds_foldlM (inv.item step) rest

theorem forIn_check_inv {α : Type} {P : α → Prop} {f : α → PUnit → AsmM (ForInStep PUnit)}
    (step : ∀ x t r t', (f x PUnit.unit).run t = .ok (r, t') → r = .yield PUnit.unit ∧ P x) :
    ∀ {L : List α} {t t' : Symbols} {u : PUnit}, (forIn L PUnit.unit f).run t = .ok (u, t') → ∀ x ∈ L, P x
  | [], _, _, _, _ => by simp
  | x :: L, t, t', u, h => by
    simp only [List.forIn_cons, StateT.run_bind] at h
    obtain ⟨⟨r, t₁⟩, first, rest⟩ := exists_of_bind_eq_ok h
    obtain ⟨rfl, checked⟩ := step x t r t₁ first
    intro y mem
    rcases List.mem_cons.1 mem with rfl | later
    · exact checked
    · exact forIn_check_inv step rest y later

theorem forIn_push_inv {α β : Type} {R : α → β → Prop} {f : α → Array β → AsmM (ForInStep (Array β))}
    (step : ∀ x acc t r t', (f x acc).run t = .ok (r, t') → ∃ y, R x y ∧ r = .yield (acc.push y)) :
    ∀ {L : List α} {acc : Array β} {t t' : Symbols} {out : Array β}, (forIn L acc f).run t = .ok (out, t') →
      ∃ ys, out.toList = acc.toList ++ ys ∧ List.Forall₂ R L ys
  | [], acc, t, t', out, h => by
    simp only [List.forIn_nil] at h
    cases h
    exact ⟨[], by simp, .nil⟩
  | x :: L, acc, t, t', out, h => by
    simp only [List.forIn_cons, StateT.run_bind] at h
    obtain ⟨⟨r, t₁⟩, first, rest⟩ := exists_of_bind_eq_ok h
    obtain ⟨y, related, rfl⟩ := step x acc t r t₁ first
    obtain ⟨ys, out_eq, all⟩ := forIn_push_inv step rest
    exact ⟨y :: ys, by simp [out_eq], .cons related all⟩

def Resolves (labels : Array Label) (e : CatchKind × String × String × String) (h : Handler) : Prop :=
  h.kind = e.1 ∧ (posOf labels e.2.1).map (↑) = some h.start ∧
    (posOf labels e.2.2.1).map (↑) = some h.stop ∧ (posOf labels e.2.2.2).map (↑) = some h.target

theorem finish_inv {body : AsmBody} {p : Procedure} (h : (b.finish body).run t = .ok (p, t')) :
    p.code = b.code ∧ (∀ lab ∈ b.labels.toList, lab.position = none → lab.refs = []) ∧
      List.Forall₂ (Resolves b.labels) (b.catches.toList.map PendingCatch.entry) p.handlers.toList := by
  simp only [finish, StateT.run_bind] at h
  obtain ⟨⟨u, t₁⟩, checked, h⟩ := exists_of_bind_eq_ok h
  obtain ⟨⟨hs, t₂⟩, resolved, h⟩ := exists_of_bind_eq_ok h
  cases h
  -- the first loop refuses an unmarked label with a waiting field, the second resolves the
  -- catch entries one by one
  refine ⟨rfl, ?_, ?_⟩
  · rw [← Array.forIn_toList] at checked
    refine forIn_check_inv (P := fun lab => lab.position = none → lab.refs = []) ?_ checked
    intro lab t r t' run
    split at run
    · simp [fail] at run
      cases run
    · rename_i fine
      cases run
      refine ⟨rfl, fun none => ?_⟩
      simpa [none] using fine
  · rw [← Array.forIn_toList] at resolved
    refine (forIn_push_inv (R := fun c h => Resolves b.labels c.entry h) ?_ resolved).elim
      fun ys ⟨out, all⟩ => ?_
    · intro c acc t r t' run
      split at run
      · rename_i s e g start stop target
        cases run
        refine ⟨_, ⟨rfl, ?_, ?_, ?_⟩, rfl⟩ <;> simp [posOf, PendingCatch.entry, *]
      · simp [fail] at run
        cases run
    · simp only [List.nil_append] at out
      rw [out, List.forall₂_map_left_iff]
      exact all

theorem assemble_asm_run {body : AsmBody} {children : List Source} {p : Procedure}
    (built : (Source.assemble (.asm body children)).run t = .ok (p, t')) :
    ∃ (kids : List Procedure) (b : Builder) (t₁ t₂ : Symbols),
      (assembleAll children).run t = .ok (kids, t₁) ∧
      (body.items.foldlM (fun (b : Builder) it => b.item it) { children := kids.toArray }).run t₁ =
        .ok (b, t₂) ∧ (b.finish body).run t₂ = .ok (p, t') := by
  simp only [Source.assemble, StateT.run_bind, bind_pure_comp, List.forIn_yield_eq_foldlM,
    id_map'] at built
  obtain ⟨⟨kids, t₁⟩, assembled, built⟩ := exists_of_bind_eq_ok built
  obtain ⟨⟨b, t₂⟩, ran, finished⟩ := exists_of_bind_eq_ok built
  exact ⟨kids, b, t₁, t₂, assembled, ran, finished⟩

theorem assemble_builds {calls : List BuildCall} {body : AsmBody} {p : Procedure}
    (built : (Source.assemble (.asm { body with items := calls.map BuildCall.item } [])).run t =
      .ok (p, t')) :
    ∃ b t₁ body', Builds calls b ∧ (b.finish body').run t₁ = .ok (p, t') := by
  obtain ⟨kids, b, t₁, t₂, assembled, ran, finished⟩ := assemble_asm_run built
  -- a procedure without children starts from an empty builder
  cases assembled
  have inv := builds_foldlM (builds_empty [].toArray) ran
  exact ⟨b, t₂, _, by simpa using inv, finished⟩

theorem Builds.marked_of_jump {calls pre post : List BuildCall} {op : Opcode} {xs : List Int}
    {l : String} {isJump : op.isJump = true} (inv : Builds calls b)
    (checked : ∀ lab ∈ b.labels.toList, lab.position = none → lab.refs = [])
    (split : calls = pre ++ .jump op xs l isJump :: post) :
    ∃ pos, markOffset l 0 calls = some pos := by
  cases marked : markOffset l 0 calls with
  | some pos => exact ⟨pos, rfl⟩
  | none =>
    -- the jump's field would still wait on the unmarked label, which finishing refuses
    exfalso
    have made : refsTo l 0 calls ≠ [] := by
      simp [split, refsTo_append, refsTo, BuildCall.jumpsTo]
    have waiting : refsOf b.labels l ≠ [] := by
      rw [inv.waiting, marked]
      simpa using made
    unfold refsOf at waiting
    cases found : b.labels.find? (·.name == l) with
    | none => rw [found] at waiting; exact waiting rfl
    | some lab =>
      rw [found] at waiting
      have unmarked : lab.position = none := by
        simpa [posOf, found] using (inv.position l).trans marked
      exact waiting (checked lab (Array.mem_toList_iff.2 (Array.mem_of_find?_eq_some found)) unmarked)

theorem Builds.markOffset_of_markedAt {calls : List BuildCall} {l : String} {q : Int}
    (inv : Builds calls b) (marked : MarkedAt calls l q) :
    (markOffset l 0 calls).map (↑) = some q := by
  obtain ⟨pre, post, split, rfl⟩ := marked
  have first := inv.once pre post l split
  simp [split, markOffset_append, first, markOffset, BuildCall.marks]

theorem Builds.markedAt_of_posOf {calls : List BuildCall} {l : String} {q : Int} (inv : Builds calls b)
    (h : (posOf b.labels l).map (↑) = some q) : MarkedAt calls l q := by
  rw [inv.position] at h
  obtain ⟨n, first, rfl⟩ := Option.map_eq_some_iff.1 h
  exact MarkedAt.of_markOffset first

end Builder

open Builder in
theorem built_procedure_decodes (calls : List BuildCall) (body : AsmBody) (t t' : Symbols)
    (p : Procedure)
    (built : (Source.assemble (.asm { body with items := calls.map BuildCall.item } [])).run t =
      .ok (p, t'))
    (fits : ∀ c ∈ calls, c.Fits) : BuiltFrom calls p := by
  obtain ⟨b, t₁, body', inv, finished⟩ := assemble_builds built
  obtain ⟨code, checked, resolved⟩ := finish_inv finished
  have laid : layout (markOffset · 0 calls) 0 calls = some p.code.toList := code ▸ inv.code
  refine ⟨fun l q q' at_q at_q' => ?_, fun pre post op xs split => ?_,
    fun pre post op xs l isJump split => ?_, ?_⟩
  · have same := (inv.markOffset_of_markedAt at_q).symm.trans (inv.markOffset_of_markedAt at_q')
    simpa using same
  · subst split
    exact layout_decodes_emit laid (fits (.emit op xs) (by simp))
  · obtain ⟨pos, at_pos⟩ := inv.marked_of_jump checked split
    subst split
    obtain ⟨fetched, o, n, read, fields, next, lands⟩ :=
      layout_decodes_jump at_pos laid (fits (.jump op xs l isJump) (by simp))
    exact ⟨fetched, o, n, read, fields, next, lands ▸ MarkedAt.of_markOffset at_pos⟩
  · rw [inv.catches, List.forall₂_map_left_iff] at resolved
    exact resolved.imp fun c h resolves =>
      ⟨resolves.1, inv.markedAt_of_posOf resolves.2.1, inv.markedAt_of_posOf resolves.2.2.1,
        inv.markedAt_of_posOf resolves.2.2.2⟩

def jumpLoop : List BuildCall :=
  [.mark "top", .emit .loadNil [1], .jump .jmpIf [1] "end" rfl, .jump .jmp [] "top" rfl,
    .mark "end", .catchEntry { kind := 0, start := "top", stop := "end", target := "end" },
    .emit .ret [1]]

theorem jump_loop_decodes :
    ∃ p t', (Source.assemble (.asm { items := jumpLoop.map BuildCall.item } [])).run
        (SymbolTable.empty "") = .ok (p, t') ∧
      (∀ c ∈ jumpLoop, c.Fits) ∧ BuiltFrom jumpLoop p := by
  have runs : ((Source.assemble (.asm { items := jumpLoop.map BuildCall.item } [])).run
      (SymbolTable.empty "")).toBool = true := by
    -- the label search is well-founded recursion, which only the kernel unfolds
    decide +kernel
  cases built : (Source.assemble (.asm { items := jumpLoop.map BuildCall.item } [])).run
      (SymbolTable.empty "") with
  | error e => rw [built] at runs; cases runs
  | ok r =>
    exact ⟨r.1, r.2, rfl, by decide,
      built_procedure_decodes jumpLoop {} (SymbolTable.empty "") r.2 r.1 built (by decide)⟩

end RegisterVM
