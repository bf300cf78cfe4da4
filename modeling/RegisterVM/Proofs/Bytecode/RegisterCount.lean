import RegisterVM.Proofs.Bytecode.Backpatch
import RegisterVM.Machine.Instruction

set_option autoImplicit false

namespace RegisterVM

def callSlots (a c : Nat) : List Nat :=
  List.range' a (argSlots (callCounts c).1 + kwSlots (callCounts c).2 + 2)

namespace Opcode

def windowRegs (op : Opcode) (a b : Nat) : List Nat :=
  match op with
  | .move | .rescue | .aref => [a, b]
  | .loadSelf | .getIV | .setIV | .ssend | .ssendB => [0, a]
  | .add | .sub | .mul | .div | .eq | .lt | .le | .gt | .ge | .addI | .subI | .rangeInc | .rangeExc
  | .defMethod => [a, a + 1]
  | .hash => a :: (List.range (2 * b)).map (a + ·)
  | .nop | .jmp | .send | .sendB | .superSend | .enter | .keyEnd | .classDef | .moduleDef | .exec
  | .aliasMethod | .undef | .stop => []
  | _ => [a]

def stackRegs (op : Opcode) (a b c : Nat) : List Nat :=
  match op with
  | .ssend | .ssendB | .send | .sendB => callSlots a c
  | .superSend => 0 :: callSlots a b
  | .add | .sub | .mul | .div | .eq | .lt | .le | .gt | .ge | .addI | .subI => callSlots a 1
  | .array => List.range' a b
  | .array2 => List.range' b c
  | .aryPush => List.range' (a + 1) b
  | .classDef | .exec => [a, a + 1]
  | .moduleDef => [a]
  | _ => []

end Opcode

theorem callExtent_eq (c : Int) :
    Builder.callExtent c = ((argSlots (callCounts c).1 + kwSlots (callCounts c).2 + 1 : Nat) : Int) := by
  simp only [Builder.callExtent, argSlots, kwSlots, packedArgs]
  generalize callCounts c = q
  obtain ⟨n, nk⟩ := q
  by_cases packed : n = 15 <;> by_cases packedKw : nk = 15 <;> simp [packed, packedKw] <;> omega

theorem mem_callSlots {a c i : Nat} (mem : i ∈ callSlots a c) : (i : Int) ≤ a + Builder.callExtent c := by
  rw [callSlots, List.mem_range'_1] at mem
  rw [callExtent_eq]
  omega

theorem windowRegs_le_top (op : Opcode) (o : Operands) :
    ∀ i ∈ op.windowRegs o.a o.b, (i : Int) ≤ Builder.topRegister op (o.fields op.shape) := by
  intro i mem
  cases op
  case hash =>
    -- the key and value registers of the `b` pairs after `a`
    simp only [Opcode.windowRegs, List.mem_cons, List.mem_map, List.mem_range] at mem
    simp only [Builder.topRegister, Operands.fields, Opcode.shape, Opcode.info, Shape.arity]
    rcases mem with rfl | ⟨j, below, rfl⟩ <;> simp <;> omega
  all_goals
    (simp [Opcode.windowRegs, Builder.topRegister, Operands.fields, Opcode.shape, Opcode.info, Shape.arity,
      callExtent_eq] at mem ⊢) <;> omega

theorem stackRegs_le_top (op : Opcode) (o : Operands) :
    ∀ i ∈ op.stackRegs o.a o.b o.c,
      (i : Int) ≤ Builder.topRegister op (o.fields op.shape) ∨ (op = .exec ∧ i = o.a + 1) := by
  intro i mem
  have fallback : Builder.callExtent 1 = 2 := by decide
  cases op
  case superSend =>
    -- the method's own receiver, then the call's slots
    simp only [Opcode.stackRegs, List.mem_cons] at mem
    simp only [Builder.topRegister, Operands.fields, Opcode.shape, Opcode.info, Shape.arity]
    rcases mem with rfl | mem
    · simp [callExtent_eq]
      omega
    · simpa using mem_callSlots mem
  all_goals first
    | exact .inl (by simpa [Opcode.stackRegs, Builder.topRegister, Operands.fields, Opcode.shape, Opcode.info,
        Shape.arity, fallback] using mem_callSlots mem)
    | (simp [Opcode.stackRegs, Builder.topRegister, Operands.fields, Opcode.shape, Opcode.info, Shape.arity] at mem ⊢)
        <;> omega

namespace Machine

variable {f : Frame} {N : Nat}

theorem reg_widen (wide : f.nregs ≤ N) {i : Nat} (inside : i < f.nregs) :
    reg { f with nregs := N } i = reg f i := by
  simp [reg, inside, show i < N by omega]

theorem setReg_widen (wide : f.nregs ≤ N) {i : Nat} (inside : i < f.nregs) (v : Value) :
    setReg { f with nregs := N } i v = setReg f i v := by
  simp [setReg, inside, show i < N by omega]

theorem arithStep_widen (wide : f.nregs ≤ N) {a : Nat} (inside : a + 1 < f.nregs) (op : ArithOp) (y : Value)
    (imm : Option Value) :
    arithStep { f with nregs := N } op a y imm = arithStep f op a y imm := by
  simp only [arithStep, reg_widen wide (show a < f.nregs by omega), setReg_widen wide (show a < f.nregs by omega),
    setReg_widen wide inside]

-- The operations an instruction passes its frame to read other fields than the count.
theorem targetClass_widen : targetClass { f with nregs := N } = targetClass f := rfl
theorem constLookup_widen : constLookup { f with nregs := N } = constLookup f := rfl
theorem upvarEnv_widen : upvarEnv { f with nregs := N } = upvarEnv f := rfl
theorem frameProc_widen : frameProc { f with nregs := N } = frameProc f := rfl
theorem returnTarget_widen : returnTarget { f with nregs := N } = returnTarget f := rfl
theorem breakTarget_widen : breakTarget { f with nregs := N } = breakTarget f := rfl
theorem kdict_widen : kdict { f with nregs := N } = kdict f := rfl
theorem classDef_widen : classDef { f with nregs := N } = classDef f := rfl
theorem execBody_widen : execBody { f with nregs := N } = execBody f := rfl
theorem regRange_widen : regRange { f with nregs := N } = regRange f := rfl
theorem proc?_widen : ({ f with nregs := N } : Frame).proc? = f.proc? := rfl

theorem forIn_list_congr {α β : Type} (l : List α) (init : β) {g h : α → β → MachineM (ForInStep β)}
    (same : ∀ x ∈ l, ∀ r, g x r = h x r) : forIn l init g = forIn l init h := by
  simp only [← forIn'_eq_forIn]
  exact List.forIn'_congr rfl rfl fun x mem r => same x mem r

theorem instruction_widen (op : Opcode) (a b c : Nat) (body : Procedure) (wide : f.nregs ≤ N)
    (notEnter : op ≠ .enter) (inWindow : ∀ i ∈ op.windowRegs a b, i < f.nregs) :
    instruction op a b c { f with nregs := N } body = instruction op a b c f body := by
  cases op
  case enter => exact absurd rfl notEnter
  case hash =>
    simp only [Opcode.windowRegs, List.mem_cons, List.mem_map, List.mem_range, forall_eq_or_imp,
      forall_exists_index, and_imp, forall_apply_eq_imp_iff₂] at inWindow
    simp only [instruction, setReg_widen wide inWindow.1, Std.Legacy.Range.forIn_eq_forIn_range']
    congr 1
    funext core
    congr 1
    -- the loop reads the key and value registers of each of the `b` pairs
    refine forIn_list_congr _ _ fun i mem r => ?_
    have below : i < b := by simpa [List.mem_range'_1] using mem
    rw [reg_widen wide (show a + 2 * i < f.nregs from inWindow.2 _ (by omega)),
      reg_widen wide (show a + 2 * i + 1 < f.nregs from inWindow.2 (2 * i + 1) (by omega))]
  all_goals
    simp only [Opcode.windowRegs, List.mem_cons, List.not_mem_nil, or_false, forall_eq_or_imp, forall_eq] at inWindow
    simp only [instruction, reg_widen wide, setReg_widen wide, arithStep_widen wide, inWindow, targetClass_widen,
      constLookup_widen, upvarEnv_widen, frameProc_widen, returnTarget_widen, breakTarget_widen, kdict_widen,
      classDef_widen, execBody_widen, regRange_widen, proc?_widen]

end Machine

def BuildCall.instr? : BuildCall → Option (Opcode × List Int)
  | .emit op xs => some (op, xs)
  | .jump op xs _ _ => some (op, xs ++ [0])
  | _ => none

theorem kdictIndex_le_blockIndex (ps : ParamSpec) : ps.kdictIndex ≤ ps.blockIndex := by
  simp only [ParamSpec.blockIndex]
  split <;> omega

theorem length_fields (o : Operands) (sh : Shape) : (o.fields sh).length = sh.arity := by
  cases sh <;> rfl

namespace Builder

variable {b b' : Builder} {t t' : Symbols}

@[simp] theorem maxReg_labelIndex (b : Builder) (n : String) : (b.labelIndex n).1.maxReg = b.maxReg := by
  unfold labelIndex
  split <;> rfl

theorem emit_maxReg {op : Opcode} {xs : List Int} (h : (b.emit op xs).run t = .ok (b', t')) :
    b'.maxReg = max b.maxReg (topRegister op xs) := by
  by_cases arity : xs.length = op.shape.arity
  · simp only [emit, arity, bne_self_eq_false, Bool.false_eq_true, if_false] at h
    cases h
    rfl
  · simp [emit, arity, fail] at h
    cases h

theorem mark_maxReg {n : String} (h : (b.mark n).run t = .ok (b', t')) : b'.maxReg = b.maxReg := by
  obtain ⟨code, labels, -, rfl⟩ := mark_frame h
  rfl

theorem jumpTo_maxReg {n : String} (h : (b.jumpTo n).run t = .ok (b', t')) : b'.maxReg = b.maxReg := by
  obtain ⟨code, labels, -, rfl⟩ := jumpTo_frame h
  rfl

theorem item_maxReg {c : BuildCall} (h : (b.item c.item).run t = .ok (b', t')) :
    b.maxReg ≤ b'.maxReg ∧ ∀ op xs, c.instr? = some (op, xs) → topRegister op xs ≤ b'.maxReg := by
  cases c with
  | emit op xs =>
    rw [item_emit] at h
    rw [emit_maxReg h]
    refine ⟨by omega, fun op' xs' instr => ?_⟩
    simp only [BuildCall.instr?, Option.some.injEq, Prod.mk.injEq] at instr
    obtain ⟨rfl, rfl⟩ := instr
    omega
  | jump op xs l isJump =>
    rw [item_jump] at h
    simp only [StateT.run_bind] at h
    obtain ⟨⟨b₁, t₁⟩, emitted, pointed⟩ := exists_of_bind_eq_ok h
    rw [jumpTo_maxReg pointed, emit_maxReg emitted]
    refine ⟨by omega, fun op' xs' instr => ?_⟩
    simp only [BuildCall.instr?, Option.some.injEq, Prod.mk.injEq] at instr
    obtain ⟨rfl, rfl⟩ := instr
    omega
  | mark l =>
    rw [mark_maxReg h]
    simp [BuildCall.instr?]
  | line n =>
    simp only [BuildCall.item, item] at h
    cases h
    simp [BuildCall.instr?]
  | catchEntry c =>
    simp only [BuildCall.item, item, StateT.run_bind] at h
    obtain ⟨_, -, h⟩ := exists_of_bind_eq_ok h
    cases h
    simp [BuildCall.instr?]

theorem foldlM_maxReg : ∀ {cs : List BuildCall} {b b' : Builder} {t t' : Symbols},
    ((cs.map BuildCall.item).foldlM (fun (b : Builder) it => b.item it) b).run t = .ok (b', t') →
      b.maxReg ≤ b'.maxReg ∧ ∀ c ∈ cs, ∀ op xs, c.instr? = some (op, xs) → topRegister op xs ≤ b'.maxReg
  | [], b, b', t, t', h => by
    simp only [List.map_nil, List.foldlM_nil] at h
    cases h
    simp
  | c :: cs, b, b', t, t', h => by
    simp only [List.map_cons, List.foldlM_cons, StateT.run_bind] at h
    obtain ⟨⟨b₁, t₁⟩, step, rest⟩ := exists_of_bind_eq_ok h
    obtain ⟨grew, first⟩ := item_maxReg step
    have rest : ((cs.map BuildCall.item).foldlM (fun (b : Builder) it => b.item it) b₁).run t₁ = .ok (b', t') :=
      rest
    obtain ⟨grew', later⟩ := foldlM_maxReg rest
    refine ⟨by omega, fun c' mem op xs instr => ?_⟩
    rcases List.mem_cons.1 mem with rfl | mem
    · have := first op xs instr
      omega
    · exact later c' mem op xs instr

theorem finish_nregs {body : AsmBody} {p : Procedure} (h : (b.finish body).run t = .ok (p, t')) :
    b.maxReg + 1 ≤ p.nregs ∧ p.params.blockIndex + 1 ≤ p.nregs := by
  simp only [finish, StateT.run_bind] at h
  obtain ⟨_, -, h⟩ := exists_of_bind_eq_ok h
  obtain ⟨_, -, h⟩ := exists_of_bind_eq_ok h
  cases h
  dsimp only
  split <;> omega

theorem assemble_runs {calls : List BuildCall} {body : AsmBody} {p : Procedure}
    (built : (Source.assemble (.asm { body with items := calls.map BuildCall.item } [])).run t = .ok (p, t')) :
    ∃ (b₀ b : Builder) (t₁ : Symbols) (body' : AsmBody), b₀.maxReg = 0 ∧
      ((calls.map BuildCall.item).foldlM (fun (b : Builder) it => b.item it) b₀).run t = .ok (b, t₁) ∧
      (b.finish body').run t₁ = .ok (p, t') := by
  obtain ⟨kids, b, t₁, t₂, assembled, ran, finished⟩ := assemble_asm_run built
  cases assembled
  exact ⟨_, b, t₂, _, rfl, ran, finished⟩

theorem topRegister_jump {op : Opcode} (isJump : op.isJump = true) {xs : List Int} (n : Int)
    (arity : xs.length + 1 = op.shape.arity) :
    topRegister op (xs ++ [n]) = topRegister op (xs ++ [0]) := by
  cases op <;> simp [Opcode.isJump] at isJump <;>
    cases xs <;> simp_all [topRegister, Opcode.shape, Opcode.info, Shape.arity]

end Builder

theorem counted_instruction {calls pre post : List BuildCall} {p : Procedure} {maxReg : Int}
    (decodes : BuiltFrom calls p)
    (counted : ∀ c ∈ calls, ∀ op xs, c.instr? = some (op, xs) → Builder.topRegister op xs ≤ maxReg)
    {c : BuildCall} {op : Opcode} {xs : List Int} (split : calls = pre ++ c :: post)
    (instr : c.instr? = some (op, xs)) :
    Opcode.ofNat? (p.code.getD (extent pre) 0).toNat = some op ∧
      ∃ o, decode p.code (extent pre + 1) op.shape = .ok o ∧
        Builder.topRegister op (o.fields op.shape) ≤ maxReg := by
  have top := counted c (split ▸ List.mem_append_right _ List.mem_cons_self) op xs instr
  cases c with
  | emit op' xs' =>
    simp only [BuildCall.instr?, Option.some.injEq, Prod.mk.injEq] at instr
    obtain ⟨rfl, rfl⟩ := instr
    obtain ⟨fetched, o, decoded, fields, -⟩ := decodes.emits pre post op' xs' split
    exact ⟨fetched, o, decoded, fields ▸ top⟩
  | jump op' xs' l isJump =>
    simp only [BuildCall.instr?, Option.some.injEq, Prod.mk.injEq] at instr
    obtain ⟨rfl, rfl⟩ := instr
    -- the decoded jump holds its distance where the builder counted a zero
    obtain ⟨fetched, o, n, decoded, fields, -, -⟩ := decodes.jumps pre post op' xs' l isJump split
    have arity : xs'.length + 1 = op'.shape.arity := by
      simpa [fields] using length_fields o op'.shape
    exact ⟨fetched, o, decoded, by rw [fields, Builder.topRegister_jump isJump n arity]; exact top⟩
  | mark | line | catchEntry => simp [BuildCall.instr?] at instr

structure CountCovers (calls : List BuildCall) (p : Procedure) : Prop where
  params : p.params.kdictIndex < p.nregs ∧ p.params.blockIndex < p.nregs
  instrs : ∀ pre c post op xs, calls = pre ++ c :: post → c.instr? = some (op, xs) →
    Opcode.ofNat? (p.code.getD (extent pre) 0).toNat = some op ∧
    ∃ o, decode p.code (extent pre + 1) op.shape = .ok o ∧
      (op ≠ .enter → ∀ (f : Frame) (N : Nat), p.nregs ≤ f.nregs → f.nregs ≤ N →
        Machine.instruction op o.a o.b o.c { f with nregs := N } p = Machine.instruction op o.a o.b o.c f p) ∧
      ∀ i ∈ op.stackRegs o.a o.b o.c, (i : Int) < p.nregs ∨ (op = .exec ∧ i = o.a + 1)

theorem built_instructions_keep_to_frame (calls : List BuildCall) (body : AsmBody) (t t' : Symbols)
    (p : Procedure)
    (built : (Source.assemble (.asm { body with items := calls.map BuildCall.item } [])).run t = .ok (p, t'))
    (fits : ∀ c ∈ calls, c.Fits) : CountCovers calls p := by
  obtain ⟨b₀, b, t₁, body', start, ran, finished⟩ := Builder.assemble_runs built
  obtain ⟨-, counted⟩ := Builder.foldlM_maxReg ran
  obtain ⟨above, block⟩ := Builder.finish_nregs finished
  have decodes := built_procedure_decodes calls body t t' p built fits
  refine ⟨⟨by have := kdictIndex_le_blockIndex p.params; omega, by omega⟩,
    fun pre c post op xs split instr => ?_⟩
  obtain ⟨fetched, o, decoded, top⟩ := counted_instruction decodes counted split instr
  refine ⟨fetched, o, decoded, fun notEnter f N wide wider => ?_, fun i mem => ?_⟩
  · refine Machine.instruction_widen op o.a o.b o.c p wider notEnter fun i mem => ?_
    have := windowRegs_le_top op o i mem
    omega
  · rcases stackRegs_le_top op o i mem with below | exec
    · exact .inl (by omega)
    · exact .inr exec

theorem jump_loop_keeps_to_frame :
    ∃ p t', (Source.assemble (.asm { items := jumpLoop.map BuildCall.item } [])).run
        (SymbolTable.empty "") = .ok (p, t') ∧
      (∀ c ∈ jumpLoop, c.Fits) ∧ CountCovers jumpLoop p := by
  have runs : ((Source.assemble (.asm { items := jumpLoop.map BuildCall.item } [])).run
      (SymbolTable.empty "")).toBool = true := by
    -- the label search is well-founded recursion, which only the kernel unfolds
    decide +kernel
  cases built : (Source.assemble (.asm { items := jumpLoop.map BuildCall.item } [])).run
      (SymbolTable.empty "") with
  | error e => rw [built] at runs; cases runs
  | ok r =>
    exact ⟨r.1, r.2, rfl, by decide,
      built_instructions_keep_to_frame jumpLoop {} (SymbolTable.empty "") r.2 r.1 built (by decide)⟩

def execClassBody : List BuildCall := [.emit .oclass [1], .emit .exec [1, 0], .emit .ret [1]]

theorem exec_block_slot_past_registers :
    ∃ p t', (Source.assemble (.asm { items := execClassBody.map BuildCall.item } [])).run
        (SymbolTable.empty "") = .ok (p, t') ∧
      p.nregs = 2 ∧ Opcode.ofNat? (p.code.getD 2 0).toNat = some .exec ∧
      ∃ o, decode p.code 3 Opcode.exec.shape = .ok o ∧ 2 ∈ Opcode.exec.stackRegs o.a o.b o.c := by
  have laid : ((Source.assemble (.asm { items := execClassBody.map BuildCall.item } [])).run
      (SymbolTable.empty "")).toOption.map (fun r => (r.1.nregs, r.1.code)) =
        some (2, #[62, 1, 65, 1, 0, 37, 1]) := by
    decide +kernel
  cases built : (Source.assemble (.asm { items := execClassBody.map BuildCall.item } [])).run
      (SymbolTable.empty "") with
  | error e => rw [built] at laid; cases laid
  | ok r =>
    rw [built] at laid
    simp only [Except.toOption, Option.map_some, Option.some.injEq, Prod.mk.injEq] at laid
    obtain ⟨count, code⟩ := laid
    refine ⟨r.1, r.2, rfl, count, by rw [code]; decide, ⟨1, 0, 0, 5⟩, by rw [code]; decide, by decide⟩

end RegisterVM
