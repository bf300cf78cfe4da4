import RegisterVM.Proofs.Bytecode.Backpatch
import RegisterVM.Proofs.Machine.Backtraces

set_option autoImplicit false

namespace RegisterVM

namespace Builder

variable {b b' : Builder} {t t' : Symbols}

structure Grows (b b' : Builder) : Prop where
  lines : b'.lines = b.lines
  size : b.code.size ≤ b'.code.size

theorem Grows.refl (b : Builder) : Grows b b := ⟨rfl, Nat.le_refl _⟩

theorem Grows.trans {b₁ b₂ b₃ : Builder} (first : Grows b₁ b₂) (second : Grows b₂ b₃) : Grows b₁ b₃ :=
  ⟨second.lines.trans first.lines, Nat.le_trans first.size second.size⟩

@[simp] theorem lines_labelIndex (b : Builder) (n : String) : (b.labelIndex n).1.lines = b.lines := by
  unfold labelIndex
  split <;> rfl

theorem literalIndex_grows (b : Builder) (l : Literal) : Grows b (b.literalIndex l).1 := by
  unfold literalIndex
  split
  · exact Grows.refl b
  · exact ⟨rfl, Nat.le_refl _⟩

theorem symIndex_grows {name : String} {i : Nat} (h : (b.symIndex name).run t = .ok ((b', i), t')) :
    Grows b b' := by
  simp only [symIndex, StateT.run_bind] at h
  obtain ⟨_, -, h⟩ := exists_of_bind_eq_ok h
  obtain ⟨_, -, h⟩ := exists_of_bind_eq_ok h
  split at h <;> cases h
  · exact Grows.refl b
  · exact ⟨rfl, Nat.le_refl _⟩

theorem emit_grows {op : Opcode} {xs : List Int} (h : (b.emit op xs).run t = .ok (b', t')) : Grows b b' := by
  by_cases arity : xs.length = op.shape.arity
  · simp only [emit, arity, bne_self_eq_false, Bool.false_eq_true, if_false] at h
    cases h
    refine ⟨rfl, ?_⟩
    simp only [Array.size_append, Array.size_push]
    omega
  · simp [emit, arity, fail] at h
    cases h

theorem mark_grows {n : String} (h : (b.mark n).run t = .ok (b', t')) : Grows b b' := by
  obtain ⟨code, labels, size, rfl⟩ := mark_frame h
  exact ⟨rfl, Nat.le_of_eq size.symm⟩

theorem jumpTo_grows {n : String} (h : (b.jumpTo n).run t = .ok (b', t')) : Grows b b' := by
  obtain ⟨code, labels, size, rfl⟩ := jumpTo_frame h
  exact ⟨rfl, Nat.le_of_eq size.symm⟩

theorem operandValues_grows {args : List Operand} {xs : List Int}
    (h : (b.operandValues args).run t = .ok ((b', xs), t')) : Grows b b' := by
  induction args generalizing b t xs with
  | nil =>
    cases h
    exact Grows.refl _
  | cons arg args ih =>
    cases arg with
    | num n =>
      simp only [operandValues, StateT.run_bind] at h
      obtain ⟨⟨⟨b₁, ns⟩, t₁⟩, rest, h⟩ := exists_of_bind_eq_ok h
      cases h
      exact ih rest
    | name s =>
      simp only [operandValues, StateT.run_bind] at h
      obtain ⟨⟨⟨b₁, i⟩, t₁⟩, interned, h⟩ := exists_of_bind_eq_ok h
      obtain ⟨⟨⟨b₂, ns⟩, t₂⟩, rest, h⟩ := exists_of_bind_eq_ok h
      cases h
      exact (symIndex_grows interned).trans (ih rest)
    | lit l =>
      simp only [operandValues, StateT.run_bind] at h
      obtain ⟨⟨⟨b₁, ns⟩, t₁⟩, rest, h⟩ := exists_of_bind_eq_ok h
      cases h
      exact (literalIndex_grows b l).trans (ih rest)

theorem loadInt_grows {a n : Int} (h : (b.loadInt a n).run t = .ok (b', t')) : Grows b b' := by
  unfold loadInt at h
  split_ifs at h
  all_goals first
    | exact emit_grows h
    | exact (literalIndex_grows b _).trans (emit_grows h)

structure LinesFit (b : Builder) : Prop where
  sorted : b.lines.toList.Pairwise (·.pc ≤ ·.pc)
  within : ∀ e ∈ b.lines.toList, e.pc ≤ b.code.size

theorem LinesFit.grow (fit : b.LinesFit) (grows : Grows b b') : b'.LinesFit := by
  refine ⟨grows.lines ▸ fit.sorted, fun e mem => ?_⟩
  rw [grows.lines] at mem
  have := fit.within e mem
  have := grows.size
  omega

theorem LinesFit.push (fit : b.LinesFit) (n : Int) :
    ({ b with lines := b.lines.push ⟨b.code.size, n⟩ } : Builder).LinesFit := by
  refine ⟨?_, fun e mem => ?_⟩
  · simp only [Array.toList_push, List.pairwise_append, List.pairwise_singleton, List.mem_singleton,
      forall_eq, true_and]
    exact ⟨fit.sorted, fun e mem => fit.within e mem⟩
  · simp only [Array.toList_push, List.mem_append, List.mem_singleton] at mem
    rcases mem with old | rfl
    · exact fit.within e old
    · exact Int.le_refl _

theorem item_grows {it : AsmItem} (plain : ∀ n, it ≠ .line n) (h : (b.item it).run t = .ok (b', t')) :
    Grows b b' := by
  cases it with
  | label name => exact mark_grows h
  | line n => exact absurd rfl (plain n)
  | catchEntry kind start stop target guards =>
    simp only [item, StateT.run_bind] at h
    obtain ⟨_, -, h⟩ := exists_of_bind_eq_ok h
    cases h
    exact ⟨by simp, by simp⟩
  | loadInt reg n => exact loadInt_grows h
  | instr op args =>
    simp only [item] at h
    split at h
    · simp only [StateT.run_bind] at h
      obtain ⟨⟨⟨b₁, xs⟩, t₁⟩, valued, h⟩ := exists_of_bind_eq_ok h
      obtain ⟨⟨b₂, t₂⟩, emitted, pointed⟩ := exists_of_bind_eq_ok h
      exact (operandValues_grows valued).trans ((emit_grows emitted).trans (jumpTo_grows pointed))
    · simp only [StateT.run_bind] at h
      obtain ⟨⟨⟨b₁, xs⟩, t₁⟩, valued, emitted⟩ := exists_of_bind_eq_ok h
      exact (operandValues_grows valued).trans (emit_grows emitted)
  | unknown name => cases h

theorem item_linesFit {it : AsmItem} (fit : b.LinesFit) (h : (b.item it).run t = .ok (b', t')) :
    b'.LinesFit := by
  by_cases entry : ∃ n, it = .line n
  · obtain ⟨n, rfl⟩ := entry
    cases h
    exact fit.push n
  · exact fit.grow (item_grows (fun n same => entry ⟨n, same⟩) h)

theorem foldlM_linesFit {items : List AsmItem} (fit : b.LinesFit)
    (h : (items.foldlM (fun (b : Builder) it => b.item it) b).run t = .ok (b', t')) : b'.LinesFit := by
  induction items generalizing b t with
  | nil =>
    cases h
    exact fit
  | cons it items ih =>
    simp only [List.foldlM_cons, StateT.run_bind] at h
    obtain ⟨⟨b₁, t₁⟩, step, rest⟩ := exists_of_bind_eq_ok h
    exact ih (item_linesFit fit step) rest

theorem finish_lines {body : AsmBody} {p : Procedure} (h : (b.finish body).run t = .ok (p, t')) :
    p.code = b.code ∧ p.lines = b.lines := by
  simp only [finish, StateT.run_bind] at h
  obtain ⟨_, -, h⟩ := exists_of_bind_eq_ok h
  obtain ⟨_, -, h⟩ := exists_of_bind_eq_ok h
  cases h
  exact ⟨rfl, rfl⟩

end Builder

theorem assembled_lines_sorted {body : AsmBody} {children : List Source} {p : Procedure} {t t' : Symbols}
    (built : (Source.assemble (.asm body children)).run t = .ok (p, t')) :
    p.LinesSorted ∧ ∀ e ∈ p.lines.toList, e.pc ≤ p.code.size := by
  obtain ⟨kids, b, t₁, t₂, -, ran, finished⟩ := Builder.assemble_asm_run built
  -- the builder starts with an empty table
  have start : ({ children := kids.toArray } : Builder).LinesFit := ⟨List.Pairwise.nil, by simp⟩
  have fit := Builder.foldlM_linesFit start ran
  obtain ⟨code, lines⟩ := Builder.finish_lines finished
  simp only [Procedure.LinesSorted, lines, code]
  exact ⟨fit.sorted, fit.within⟩

theorem assembled_lineAt {body : AsmBody} {children : List Source} {p : Procedure} {t t' : Symbols}
    (built : (Source.assemble (.asm body children)).run t = .ok (p, t')) (pc : Int) :
    p.lineAt pc = p.lineBefore pc :=
  Procedure.lineAt_eq_lineBefore (assembled_lines_sorted built).1 pc

end RegisterVM
