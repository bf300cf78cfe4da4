import RegisterVM.Proofs.Bytecode.Backpatch
import RegisterVM.Machine.Instruction

set_option autoImplicit false

namespace RegisterVM

def intLoadOpcode (n : Int) : Opcode :=
  if 0 ≤ n ∧ n ≤ 255 then .loadI
  else if -255 ≤ n ∧ n < 0 then .loadINeg
  else if -32768 ≤ n ∧ n ≤ 32767 then .loadI16
  else if -2147483648 ≤ n ∧ n ≤ 2147483647 then .loadI32
  else .loadL

structure PoolEntry (b b' : Builder) (l : Literal) (i : Nat) : Prop where
  addresses : (b'.pool[i]?).map (Literal.same · l) = some true
  first : ∀ j < i, ∀ e, b'.pool[j]? = some e → e.same l = false
  grows : b'.pool = b.pool ∨ (b'.pool = b.pool.push l ∧ ∀ e ∈ b.pool, e.same l = false)

theorem PoolEntry.of_pool {b b₁ b' : Builder} {l : Literal} {i : Nat} (h : PoolEntry b b₁ l i)
    (pool : b'.pool = b₁.pool) : PoolEntry b b' l i := by
  obtain ⟨addresses, first, grows⟩ := h
  rw [← pool] at addresses first grows
  exact ⟨addresses, first, grows⟩

namespace Builder

theorem same_self (l : Literal) : l.same l = true := by
  simp [Literal.same]

theorem literalIndex_entry (b : Builder) (l : Literal) :
    PoolEntry b (b.literalIndex l).1 l (b.literalIndex l).2 ∧ (b.literalIndex l).1.code = b.code := by
  unfold literalIndex
  split
  · next i found =>
    rw [Array.findIdx?_eq_some_iff_getElem] at found
    obtain ⟨lt, hit, before⟩ := found
    refine ⟨⟨by simp [lt, hit], fun j lt' e at_j => ?_, .inl rfl⟩, rfl⟩
    simp only [Array.getElem?_eq_getElem (Nat.lt_trans lt' lt), Option.some.injEq] at at_j
    subst at_j
    simpa using before j lt'
  · next missing =>
    rw [Array.findIdx?_eq_none_iff] at missing
    refine ⟨⟨by simp [same_self], fun j lt e at_j => ?_,
      .inr ⟨rfl, fun e mem => by simpa using missing e mem⟩⟩, rfl⟩
    rw [Array.getElem?_push_lt lt, Option.some.injEq] at at_j
    subst at_j
    simpa using missing _ (Array.getElem_mem lt)

theorem emit_ok (b : Builder) (op : Opcode) (xs : List Int) (t : Symbols)
    (arity : xs.length = op.shape.arity) :
    ∃ b', (b.emit op xs).run t = .ok (b', t) ∧ b'.code.toList = b.code.toList ++ op.encode xs ∧
      b'.pool = b.pool := by
  cases run : (b.emit op xs).run t with
  | error e =>
    simp only [emit, arity, bne_self_eq_false, Bool.false_eq_true, if_false] at run
    cases run
  | ok r =>
    obtain ⟨b', t'⟩ := r
    obtain ⟨-, rfl, code, -, -⟩ := emit_inv run
    simp only [emit, arity, bne_self_eq_false, Bool.false_eq_true, if_false] at run
    cases run
    exact ⟨_, rfl, code, rfl⟩

end Builder

theorem signed16_mod {x : Int} (lo : -32768 ≤ x) (hi : x ≤ 32767) : signed16 (x % 65536).toNat = x := by
  unfold signed16
  split <;> omega

theorem signed32_halves {x : Int} (lo : -2147483648 ≤ x) (hi : x ≤ 2147483647) :
    signed32 ((x % 4294967296 / 65536).toNat * 65536 + (x % 4294967296 % 65536).toNat) = x := by
  have half : Nat.pow 2 31 = 2147483648 := rfl
  have whole : Int.pow 2 32 = 4294967296 := rfl
  unfold signed32
  rw [half, whole]
  split <;> omega

theorem ofInt_eq_of_toInt {n : Int64} {x : Int} (h : x = n.toInt) : Int64.ofInt x = n := by
  rw [h, Int64.ofInt_toInt]

namespace Machine

variable (a b c : Nat) (f : Frame) (body : Procedure) (m : Machine)

theorem instruction_loadI_run : (instruction .loadI a b c f body).run m =
    (do setReg f a (.int (Int64.ofNat b)); setMode .run).run m := rfl

theorem instruction_loadINeg_run : (instruction .loadINeg a b c f body).run m =
    (do setReg f a (.int (-(Int64.ofNat b))); setMode .run).run m := rfl

theorem instruction_loadI16_run : (instruction .loadI16 a b c f body).run m =
    (do setReg f a (.int (Int64.ofInt (signed16 b))); setMode .run).run m := rfl

theorem instruction_loadI32_run : (instruction .loadI32 a b c f body).run m =
    (do setReg f a (.int (Int64.ofInt (signed32 (b * 65536 + c)))); setMode .run).run m := rfl

theorem instruction_loadL_run : (instruction .loadL a b c f body).run m =
    (do setReg f a (← literalAt body b); setMode .run).run m := rfl

theorem literalAt_int {body : Procedure} {i : Nat} {lit : Literal} {n : Int64}
    (entry : body.pool[i]? = some lit) (same : lit.same (Literal.ofInt n.toInt) = true) :
    literalAt body i = pure (.int n) := by
  simp only [Literal.same, Literal.ofInt, Bool.and_eq_true, beq_iff_eq] at same
  obtain ⟨kind, same⟩ := same
  simp only [kind, if_true, beq_iff_eq] at same
  simp [literalAt, entry, kind, same, Int64.ofInt_toInt]

end Machine

structure IntLoad (b : Builder) (t : Symbols) (a : Nat) (n : Int64) (b' : Builder)
    (xs : List Int) : Prop where
  runs : (b.loadInt a n.toInt).run t = .ok (b', t)
  appends : b'.code.toList = b.code.toList ++ (intLoadOpcode n.toInt).encode xs
  fits : (intLoadOpcode n.toInt).shape.Fits xs
  pooled : intLoadOpcode n.toInt = .loadL →
    ∃ i : Nat, xs = [(a : Int), (i : Int)] ∧ PoolEntry b b' (Literal.ofInt n.toInt) i
  poolKept : intLoadOpcode n.toInt ≠ .loadL → b'.pool = b.pool
  writes : ∀ (o : Operands) (f : Frame) (body : Procedure) (m : Machine),
    o.fields (intLoadOpcode n.toInt).shape = xs → b'.pool.toList <+: body.pool.toList →
      (Machine.instruction (intLoadOpcode n.toInt) o.a o.b o.c f body).run m =
        (do Machine.setReg f a (.int n); Machine.setMode .run).run m

theorem fields_two {o : Operands} {sh : Shape} (arity : sh.arity = 2) {x y : Int}
    (h : o.fields sh = [x, y]) : (o.a : Int) = x ∧ (o.b : Int) = y := by
  simpa [Operands.fields, arity] using h

theorem fields_three {o : Operands} {sh : Shape} (arity : sh.arity = 3) {x y z : Int}
    (h : o.fields sh = [x, y, z]) : (o.a : Int) = x ∧ (o.b : Int) = y ∧ (o.c : Int) = z := by
  simpa [Operands.fields, arity] using h

section Forms

variable (b : Builder) (t : Symbols) {a : Nat} (reg : a < 256) {n : Int64}
include reg

theorem intLoad_byte (byte : 0 ≤ n.toInt ∧ n.toInt ≤ 255) : ∃ b' xs, IntLoad b t a n b' xs := by
  have form : intLoadOpcode n.toInt = .loadI := if_pos byte
  obtain ⟨b', run, code, pool⟩ := b.emit_ok .loadI [a, n.toInt] t rfl
  refine ⟨b', _, run.symm ▸ ?_, form ▸ code, ?_, by simp [form], fun _ => pool, ?_⟩
  · rw [Builder.loadInt, if_pos byte]
  · rw [form]
    simp [Shape.Fits, Opcode.shape, Opcode.info, Shape.fieldBits]
    omega
  · intro o f body m fields _
    rw [form] at fields ⊢
    obtain ⟨ra, rb⟩ := fields_two rfl fields
    rw [Machine.instruction_loadI_run, show o.a = a by omega, ← Int64.ofInt_eq_ofNat,
      ofInt_eq_of_toInt rb]

theorem intLoad_negByte (byte : ¬(0 ≤ n.toInt ∧ n.toInt ≤ 255)) (neg : -255 ≤ n.toInt ∧ n.toInt < 0) :
    ∃ b' xs, IntLoad b t a n b' xs := by
  have form : intLoadOpcode n.toInt = .loadINeg := by rw [intLoadOpcode, if_neg byte, if_pos neg]
  obtain ⟨b', run, code, pool⟩ := b.emit_ok .loadINeg [a, -n.toInt] t rfl
  refine ⟨b', _, run.symm ▸ ?_, form ▸ code, ?_, by simp [form], fun _ => pool, ?_⟩
  · rw [Builder.loadInt, if_neg byte, if_pos neg]
  · rw [form]
    simp [Shape.Fits, Opcode.shape, Opcode.info, Shape.fieldBits]
    omega
  · intro o f body m fields _
    rw [form] at fields ⊢
    obtain ⟨ra, rb⟩ := fields_two rfl fields
    -- the field holds the magnitude, negated on the way back
    have magnitude : Int64.ofNat o.b = -n := by
      rw [← Int64.ofInt_eq_ofNat, rb, Int64.ofInt_neg, Int64.ofInt_toInt]
    rw [Machine.instruction_loadINeg_run, show o.a = a by omega, magnitude, Int64.neg_neg]

theorem intLoad_short (byte : ¬(0 ≤ n.toInt ∧ n.toInt ≤ 255)) (neg : ¬(-255 ≤ n.toInt ∧ n.toInt < 0))
    (short : -32768 ≤ n.toInt ∧ n.toInt ≤ 32767) : ∃ b' xs, IntLoad b t a n b' xs := by
  have form : intLoadOpcode n.toInt = .loadI16 := by
    rw [intLoadOpcode, if_neg byte, if_neg neg, if_pos short]
  obtain ⟨b', run, code, pool⟩ := b.emit_ok .loadI16 [a, n.toInt % 65536] t rfl
  refine ⟨b', _, run.symm ▸ ?_, form ▸ code, ?_, by simp [form], fun _ => pool, ?_⟩
  · rw [Builder.loadInt, if_neg byte, if_neg neg, if_pos short]
  · rw [form]
    simp [Shape.Fits, Opcode.shape, Opcode.info, Shape.fieldBits]
    omega
  · intro o f body m fields _
    rw [form] at fields ⊢
    obtain ⟨ra, rb⟩ := fields_two rfl fields
    have field : o.b = (n.toInt % 65536).toNat := by omega
    rw [Machine.instruction_loadI16_run, show o.a = a by omega, field,
      signed16_mod short.1 short.2, Int64.ofInt_toInt]

theorem intLoad_word (byte : ¬(0 ≤ n.toInt ∧ n.toInt ≤ 255)) (neg : ¬(-255 ≤ n.toInt ∧ n.toInt < 0))
    (short : ¬(-32768 ≤ n.toInt ∧ n.toInt ≤ 32767))
    (word : -2147483648 ≤ n.toInt ∧ n.toInt ≤ 2147483647) : ∃ b' xs, IntLoad b t a n b' xs := by
  have form : intLoadOpcode n.toInt = .loadI32 := by
    rw [intLoadOpcode, if_neg byte, if_neg neg, if_neg short, if_pos word]
  obtain ⟨b', run, code, pool⟩ := b.emit_ok .loadI32
    [a, n.toInt % 4294967296 / 65536, n.toInt % 4294967296 % 65536] t rfl
  refine ⟨b', _, run.symm ▸ ?_, form ▸ code, ?_, by simp [form], fun _ => pool, ?_⟩
  · rw [Builder.loadInt, if_neg byte, if_neg neg, if_neg short, if_pos word]
  · rw [form]
    simp [Shape.Fits, Opcode.shape, Opcode.info, Shape.fieldBits]
    omega
  · intro o f body m fields _
    rw [form] at fields ⊢
    obtain ⟨ra, rb, rc⟩ := fields_three rfl fields
    -- the two 16-bit halves of the low 32 bits, put together and sign-extended
    have high : o.b = (n.toInt % 4294967296 / 65536).toNat := by omega
    have low : o.c = (n.toInt % 4294967296 % 65536).toNat := by omega
    rw [Machine.instruction_loadI32_run, show o.a = a by omega, high, low,
      signed32_halves word.1 word.2, Int64.ofInt_toInt]

theorem intLoad_pool (byte : ¬(0 ≤ n.toInt ∧ n.toInt ≤ 255)) (neg : ¬(-255 ≤ n.toInt ∧ n.toInt < 0))
    (short : ¬(-32768 ≤ n.toInt ∧ n.toInt ≤ 32767))
    (word : ¬(-2147483648 ≤ n.toInt ∧ n.toInt ≤ 2147483647))
    (room : b.pool.size < 256 ∨
      ∃ j < 256, (b.pool[j]?).map (Literal.same · (Literal.ofInt n.toInt)) = some true) :
    ∃ b' xs, IntLoad b t a n b' xs := by
  have form : intLoadOpcode n.toInt = .loadL := by
    rw [intLoadOpcode, if_neg byte, if_neg neg, if_neg short, if_neg word]
  obtain ⟨placed, sameCode⟩ := b.literalIndex_entry (Literal.ofInt n.toInt)
  obtain ⟨⟨b₁, i⟩, entry⟩ : ∃ e, b.literalIndex (Literal.ofInt n.toInt) = e := ⟨_, rfl⟩
  rw [entry] at placed sameCode
  obtain ⟨b', run, code, pool⟩ := b₁.emit_ok .loadL [a, i] t rfl
  obtain ⟨addresses, first, grows⟩ := placed.of_pool pool
  rw [sameCode] at code
  -- the entry is one of the first 256: the pool had room for it, or an earlier entry is equal
  have within : i < 256 := by
    obtain ⟨lit, at_i, -⟩ := Option.map_eq_some_iff.1 addresses
    have bound := (Array.getElem?_eq_some_iff.1 at_i).1
    rcases room with small | ⟨j, lt, hit⟩
    · rcases grows with same | ⟨pushed, -⟩
      · rw [same] at bound; omega
      · rw [pushed, Array.size_push] at bound; omega
    · obtain ⟨e, at_j, same⟩ := Option.map_eq_some_iff.1 hit
      have kept : b'.pool[j]? = some e := by
        rcases grows with same | ⟨pushed, -⟩
        · rwa [same]
        · rw [pushed, Array.getElem?_push_lt (Array.getElem?_eq_some_iff.1 at_j).1,
            ← Array.getElem?_eq_getElem, at_j]
      by_contra later
      exact absurd same (by simp [first j (by omega) e kept])
  refine ⟨b', _, run.symm ▸ ?_, form ▸ code, ?_, fun _ => ⟨i, rfl, placed.of_pool pool⟩,
    fun other => absurd form other, ?_⟩
  · rw [Builder.loadInt, if_neg byte, if_neg neg, if_neg short, if_neg word, entry]
  · rw [form]
    simp [Shape.Fits, Opcode.shape, Opcode.info, Shape.fieldBits]
    omega
  · intro o f body m fields prefixOf
    rw [form] at fields ⊢
    obtain ⟨ra, rb⟩ := fields_two rfl fields
    obtain ⟨lit, at_i, same⟩ := Option.map_eq_some_iff.1 addresses
    -- the procedure's pool starts with the builder's, so the entry is the same there
    have stored : body.pool[o.b]? = some lit := by
      obtain ⟨rest, whole⟩ := prefixOf
      have bound := (Array.getElem?_eq_some_iff.1 at_i).1
      rw [show o.b = i by omega, ← Array.getElem?_toList, ← whole,
        List.getElem?_append_left (by simpa using bound), Array.getElem?_toList, at_i]
    rw [Machine.instruction_loadL_run, Machine.literalAt_int stored same, show o.a = a by omega]
    rfl

end Forms

theorem load_int_writes_integer (b : Builder) (t : Symbols) (a : Nat) (reg : a < 256) (n : Int64)
    (room : intLoadOpcode n.toInt = .loadL → b.pool.size < 256 ∨
      ∃ j < 256, (b.pool[j]?).map (Literal.same · (Literal.ofInt n.toInt)) = some true) :
    ∃ b' xs, IntLoad b t a n b' xs := by
  by_cases byte : 0 ≤ n.toInt ∧ n.toInt ≤ 255
  · exact intLoad_byte b t reg byte
  by_cases neg : -255 ≤ n.toInt ∧ n.toInt < 0
  · exact intLoad_negByte b t reg byte neg
  by_cases short : -32768 ≤ n.toInt ∧ n.toInt ≤ 32767
  · exact intLoad_short b t reg byte neg short
  by_cases word : -2147483648 ≤ n.toInt ∧ n.toInt ≤ 2147483647
  · exact intLoad_word b t reg byte neg short word
  have pooled : intLoadOpcode n.toInt = .loadL := by
    rw [intLoadOpcode, if_neg byte, if_neg neg, if_neg short, if_neg word]
  exact intLoad_pool b t reg byte neg short word (room pooled)

theorem load_large_integer_into_empty_builder :
    1 < 256 ∧ (intLoadOpcode (1099511627776 : Int64).toInt = .loadL →
      ({} : Builder).pool.size < 256 ∨ ∃ j < 256, (({} : Builder).pool[j]?).map
        (Literal.same · (Literal.ofInt (1099511627776 : Int64).toInt)) = some true) ∧
      ∃ b' xs, IntLoad {} (SymbolTable.empty "") 1 1099511627776 b' xs :=
  ⟨by decide, fun _ => .inl (by decide),
    load_int_writes_integer {} (SymbolTable.empty "") 1 (by decide) 1099511627776 fun _ => .inl (by decide)⟩

def fullPoolBuilder : Builder := { pool := (Array.range 256).map fun (i : Nat) => Literal.ofInt i }

theorem load_past_full_pool_reads_entry_zero :
    ∃ b', (fullPoolBuilder.loadInt 1 1099511627776).run (SymbolTable.empty "") =
        .ok (b', SymbolTable.empty "") ∧
      b'.code.toList = Opcode.loadL.encode [1, 0] ∧
      ∀ (f : Frame) (body : Procedure) (m : Machine), b'.pool.toList <+: body.pool.toList →
        (Machine.instruction .loadL 1 0 0 f body).run m =
          (do Machine.setReg f 1 (.int 0); Machine.setMode .run).run m := by
  have missing : fullPoolBuilder.pool.findIdx? (Literal.same · (Literal.ofInt 1099511627776)) = none := by
    rw [Array.findIdx?_eq_none_iff]
    intro e mem
    simp only [fullPoolBuilder, Array.mem_map, Array.mem_range] at mem
    obtain ⟨i, lt, rfl⟩ := mem
    simp [Literal.same, Literal.ofInt]
    omega
  obtain ⟨b', run, code, pool⟩ := Builder.emit_ok
    { fullPoolBuilder with pool := fullPoolBuilder.pool.push (Literal.ofInt 1099511627776) } .loadL
    [1, 256] (SymbolTable.empty "") rfl
  refine ⟨b', ?_, ?_, fun f body m prefixOf => ?_⟩
  · rw [Builder.loadInt, if_neg (by decide), if_neg (by decide), if_neg (by decide), if_neg (by decide)]
    have size : fullPoolBuilder.pool.size = 256 := by simp [fullPoolBuilder]
    simp only [Builder.literalIndex, missing, size]
    exact run
  · rw [code]
    decide
  · have stored : body.pool[0]? = some (Literal.ofInt 0) := by
      obtain ⟨rest, whole⟩ := prefixOf
      rw [← Array.getElem?_toList, ← whole, pool, List.getElem?_append_left (by simp [fullPoolBuilder])]
      simp [fullPoolBuilder]
    rw [Machine.instruction_loadL_run, Machine.literalAt_int (n := 0) stored (by decide)]
    rfl

end RegisterVM
