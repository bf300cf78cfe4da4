import RegisterVM.Bytecode.Assembler
import Mathlib

set_option autoImplicit false

namespace RegisterVM

structure CatchCall where
  kind : CatchKind
  start : String
  stop : String
  target : String
  guards : List String := []

inductive BuildCall where
  | emit (op : Opcode) (xs : List Int)
  | jump (op : Opcode) (xs : List Int) (label : String) (isJump : op.isJump = true)
  | mark (label : String)
  | line (n : Int)
  | catchEntry (c : CatchCall)

def Shape.fieldBits : Shape → List Nat
  | .z => [] | .b => [8] | .s => [16] | .bb => [8, 8] | .bs => [8, 16] | .bbb => [8, 8, 8]
  | .bss => [8, 16, 16]

def Shape.Fits (s : Shape) (xs : List Int) : Prop :=
  List.Forall₂ (fun bits x => 0 ≤ x ∧ x < 2 ^ bits) s.fieldBits xs

instance (s : Shape) (xs : List Int) : Decidable (s.Fits xs) :=
  inferInstanceAs (Decidable (List.Forall₂ _ _ _))

def Shape.encode (s : Shape) (xs : List Int) : List UInt8 :=
  let x (i : Nat) := xs.getD i 0
  let hi (n : Int) := Builder.byteOf (n / 256)
  match s with
  | .z => []
  | .b => [Builder.byteOf (x 0)]
  | .s => [hi (x 0), Builder.byteOf (x 0)]
  | .bb => [Builder.byteOf (x 0), Builder.byteOf (x 1)]
  | .bs => [Builder.byteOf (x 0), hi (x 1), Builder.byteOf (x 1)]
  | .bbb => [Builder.byteOf (x 0), Builder.byteOf (x 1), Builder.byteOf (x 2)]
  | .bss => [Builder.byteOf (x 0), hi (x 1), Builder.byteOf (x 1), hi (x 2), Builder.byteOf (x 2)]

def Opcode.encode (op : Opcode) (xs : List Int) : List UInt8 :=
  UInt8.ofNat op.toNat :: op.shape.encode xs

def Operands.fields (o : Operands) (s : Shape) : List Int :=
  ([o.a, o.b, o.c].take s.arity).map (↑)

namespace BuildCall

def item : BuildCall → AsmItem
  | emit op xs => .instr op (xs.map .num)
  | jump op xs l _ => .instr op (xs.map .num ++ [.name l])
  | mark l => .label l
  | line n => .line n
  | catchEntry c => .catchEntry c.kind c.start c.stop c.target c.guards

def width : BuildCall → Nat
  | emit op _ | jump op _ _ _ => op.shape.width + 1
  | _ => 0

def marks (l : String) : BuildCall → Bool
  | mark l' => l' == l
  | _ => false

def jumpsTo (l : String) : BuildCall → Bool
  | jump _ _ l' _ => l' == l
  | _ => false

def catchOf? : BuildCall → Option CatchCall
  | catchEntry c => some c
  | _ => none

def Fits : BuildCall → Prop
  | emit op xs => op.shape.Fits xs
  | jump op xs _ _ => op.shape.Fits (xs ++ [0])
  | _ => True

instance decidableFits : (c : BuildCall) → Decidable c.Fits
  | emit op xs => inferInstanceAs (Decidable (op.shape.Fits xs))
  | jump op xs _ _ => inferInstanceAs (Decidable (op.shape.Fits (xs ++ [0])))
  | mark _ | line _ | catchEntry _ => isTrue trivial

def bytes (labelAt : String → Option Nat) (q : Nat) : BuildCall → Option (List UInt8)
  | emit op xs => if xs.length = op.shape.arity then some (op.encode xs) else none
  | jump op xs l _ =>
    if xs.length + 1 = op.shape.arity then
      match labelAt l with
      | none => some (op.encode (xs ++ [0]))
      | some t =>
        let off : Int := (t : Int) - (q + (op.shape.width + 1))
        if -32768 ≤ off ∧ off ≤ 32767 then some (op.encode (xs ++ [off])) else none
    else none
  | _ => some []

end BuildCall

def extent (cs : List BuildCall) : Nat := (cs.map BuildCall.width).sum

def catchCalls (cs : List BuildCall) : List CatchCall := cs.filterMap BuildCall.catchOf?

def markOffset (l : String) : Nat → List BuildCall → Option Nat
  | _, [] => none
  | q, c :: cs => if c.marks l then some q else markOffset l (q + c.width) cs

def refsTo (l : String) : Nat → List BuildCall → List (Nat × Nat)
  | _, [] => []
  | q, c :: cs =>
    (if c.jumpsTo l then [(q + c.width - 2, q + c.width)] else []) ++ refsTo l (q + c.width) cs

def layout (labelAt : String → Option Nat) : Nat → List BuildCall → Option (List UInt8)
  | _, [] => some []
  | q, c :: cs => do
    let bs ← c.bytes labelAt q
    let rest ← layout labelAt (q + c.width) cs
    pure (bs ++ rest)

def setField (code : List UInt8) (operand : Nat) (off : Int) : List UInt8 :=
  (code.set operand (Builder.byteOf (off / 256))).set (operand + 1) (Builder.byteOf off)

def MarkedAt (calls : List BuildCall) (l : String) (q : Int) : Prop :=
  ∃ pre post, calls = pre ++ .mark l :: post ∧ (extent pre : Int) = q

def HandlerAt (calls : List BuildCall) (c : CatchCall) (h : Handler) : Prop :=
  h.kind = c.kind ∧ MarkedAt calls c.start h.start ∧ MarkedAt calls c.stop h.stop ∧
    MarkedAt calls c.target h.target

structure BuiltFrom (calls : List BuildCall) (p : Procedure) : Prop where
  markedOnce : ∀ l q q', MarkedAt calls l q → MarkedAt calls l q' → q = q'
  emits : ∀ pre post op xs, calls = pre ++ .emit op xs :: post →
    Opcode.ofNat? (p.code.getD (extent pre) 0).toNat = some op ∧
      ∃ o, decode p.code (extent pre + 1) op.shape = .ok o ∧ o.fields op.shape = xs ∧
        o.next = extent pre + op.shape.width + 1
  jumps : ∀ pre post op xs l isJump, calls = pre ++ .jump op xs l isJump :: post →
    Opcode.ofNat? (p.code.getD (extent pre) 0).toNat = some op ∧
      ∃ o, ∃ n : Nat, decode p.code (extent pre + 1) op.shape = .ok o ∧
        o.fields op.shape = xs ++ [(n : Int)] ∧ o.next = extent pre + op.shape.width + 1 ∧
        MarkedAt calls l ((o.next : Int) + signed16 n)
  handlers : List.Forall₂ (HandlerAt calls) (catchCalls calls) p.handlers.toList

@[simp] theorem extent_nil : extent [] = 0 := rfl

@[simp] theorem extent_cons (c : BuildCall) (cs : List BuildCall) :
    extent (c :: cs) = c.width + extent cs := by
  simp [extent]

@[simp] theorem extent_append (xs ys : List BuildCall) :
    extent (xs ++ ys) = extent xs + extent ys := by
  simp [extent]

theorem markOffset_append (l : String) (q : Nat) (xs ys : List BuildCall) :
    markOffset l q (xs ++ ys) = (markOffset l q xs).or (markOffset l (q + extent xs) ys) := by
  induction xs generalizing q with
  | nil => simp [markOffset]
  | cons c cs ih =>
    simp only [List.cons_append, markOffset, extent_cons, ih, Nat.add_assoc]
    split <;> simp

theorem refsTo_append (l : String) (q : Nat) (xs ys : List BuildCall) :
    refsTo l q (xs ++ ys) = refsTo l q xs ++ refsTo l (q + extent xs) ys := by
  induction xs generalizing q with
  | nil => simp [refsTo]
  | cons c cs ih => simp [refsTo, ih, Nat.add_assoc]

theorem markOffset_snoc (l : String) (done : List BuildCall) (c : BuildCall) :
    markOffset l 0 (done ++ [c]) = (markOffset l 0 done).or (if c.marks l then some (extent done) else none) := by
  simp [markOffset_append, markOffset]

theorem refsTo_snoc (l : String) (done : List BuildCall) (c : BuildCall) :
    refsTo l 0 (done ++ [c]) = refsTo l 0 done ++
      (if c.jumpsTo l then [(extent done + c.width - 2, extent done + c.width)] else []) := by
  simp [refsTo_append, refsTo]

theorem catchCalls_snoc (done : List BuildCall) (c : BuildCall) :
    catchCalls (done ++ [c]) = catchCalls done ++ c.catchOf?.toList := by
  cases h : c.catchOf? <;> simp [catchCalls, h]

theorem markedAt_of_markOffset {l : String} {q t : Nat} {calls : List BuildCall}
    (first : markOffset l q calls = some t) :
    ∃ pre post, calls = pre ++ .mark l :: post ∧ q + extent pre = t := by
  induction calls generalizing q with
  | nil => simp [markOffset] at first
  | cons c cs ih =>
    simp only [markOffset] at first
    split at first
    · rename_i marked
      -- only a mark of `l` itself marks `l`
      cases c <;> simp only [BuildCall.marks, Bool.false_eq_true, beq_iff_eq] at marked
      subst marked
      exact ⟨[], cs, rfl, by simpa using first⟩
    · obtain ⟨pre, post, rfl, at_t⟩ := ih first
      exact ⟨c :: pre, post, rfl, by simp; omega⟩

theorem MarkedAt.of_markOffset {l : String} {q : Nat} {calls : List BuildCall}
    (first : markOffset l 0 calls = some q) : MarkedAt calls l q := by
  obtain ⟨pre, post, split, offset⟩ := markedAt_of_markOffset first
  exact ⟨pre, post, split, by simp [← offset]⟩

theorem byteOf_toNat (n : Int) : (Builder.byteOf n).toNat = (n % 256).toNat := by
  simp only [Builder.byteOf, UInt8.toNat_ofNat']
  omega

theorem byteField (x : Int) (fits : 0 ≤ x ∧ x < 2 ^ 8) : ((Builder.byteOf x).toNat : Int) = x := by
  rw [byteOf_toNat]
  omega

theorem wordField (x : Int) (fits : 0 ≤ x ∧ x < 2 ^ 16) :
    (((Builder.byteOf (x / 256)).toNat * 256 + (Builder.byteOf x).toNat : Nat) : Int) = x := by
  rw [byteOf_toNat, byteOf_toNat]
  omega

theorem signedField (off : Int) (span : -32768 ≤ off ∧ off ≤ 32767) :
    signed16 ((Builder.byteOf (off / 256)).toNat * 256 + (Builder.byteOf off).toNat) = off := by
  rw [byteOf_toNat, byteOf_toNat]
  unfold signed16
  split <;> omega

@[simp] theorem length_shape_encode (s : Shape) (xs : List Int) : (s.encode xs).length = s.width := by
  cases s <;> rfl

@[simp] theorem length_opcode_encode (op : Opcode) (xs : List Int) :
    (op.encode xs).length = op.shape.width + 1 := by
  simp [Opcode.encode]

theorem ofNat?_toNat (op : Opcode) : Opcode.ofNat? op.toNat = some op := by
  cases op <;> rfl

theorem toNat_lt (op : Opcode) : op.toNat < 256 := by
  cases op <;> decide

theorem shape_of_isJump {op : Opcode} (isJump : op.isJump = true) :
    op.shape = .s ∨ op.shape = .bs := by
  cases op <;> simp [Opcode.isJump] at isJump <;> simp [Opcode.shape, Opcode.info]

theorem length_bytes {labelAt : String → Option Nat} {q : Nat} {c : BuildCall} {bs : List UInt8}
    (h : c.bytes labelAt q = some bs) : bs.length = c.width := by
  cases c with
  | emit op xs =>
    simp only [BuildCall.bytes, Option.ite_none_right_eq_some, Option.some.injEq] at h
    simp [← h.2, BuildCall.width]
  | jump op xs l isJump =>
    simp only [BuildCall.bytes, Option.ite_none_right_eq_some] at h
    obtain ⟨-, h⟩ := h
    split at h
    · cases h; simp [BuildCall.width]
    · split at h
      · cases h; simp [BuildCall.width]
      · cases h
  | mark | line | catchEntry => cases h; rfl

theorem encode_jump {op : Opcode} (isJump : op.isJump = true) (xs : List Int) (x : Int)
    (arity : xs.length + 1 = op.shape.arity) :
    op.encode (xs ++ [x]) =
      (op.encode (xs ++ [0])).take (op.shape.width - 1) ++
        [Builder.byteOf (x / 256), Builder.byteOf x] := by
  rcases shape_of_isJump isJump with shape | shape <;> rw [shape] at arity
  · obtain rfl : xs = [] := List.eq_nil_of_length_eq_zero (by simpa [Shape.arity] using arity)
    simp [Opcode.encode, Shape.encode, shape, Shape.width]
  · obtain ⟨a, rfl⟩ : ∃ a, xs = [a] := List.length_eq_one_iff.1 (by simpa [Shape.arity] using arity)
    simp [Opcode.encode, Shape.encode, shape, Shape.width]

theorem layout_append (labelAt : String → Option Nat) (q : Nat) (xs ys : List BuildCall) :
    layout labelAt q (xs ++ ys) = (do
      let a ← layout labelAt q xs
      let b ← layout labelAt (q + extent xs) ys
      pure (a ++ b)) := by
  induction xs generalizing q with
  | nil => simp [layout]
  | cons c cs ih =>
    simp only [List.cons_append, layout, ih, extent_cons, Nat.add_assoc]
    cases c.bytes labelAt q <;> cases layout labelAt (q + c.width) cs <;>
      cases layout labelAt (q + (c.width + extent cs)) ys <;> simp

theorem layout_snoc (labelAt : String → Option Nat) (done : List BuildCall) (c : BuildCall) :
    layout labelAt 0 (done ++ [c]) = (do
      let a ← layout labelAt 0 done
      let bs ← c.bytes labelAt (extent done)
      pure (a ++ bs)) := by
  simp only [layout_append, layout, Nat.zero_add]
  cases layout labelAt 0 done <;> cases c.bytes labelAt (extent done) <;> simp

theorem length_layout {labelAt : String → Option Nat} {q : Nat} {cs : List BuildCall}
    {code : List UInt8} (h : layout labelAt q cs = some code) : code.length = extent cs := by
  induction cs generalizing q code with
  | nil => cases h; rfl
  | cons c cs ih =>
    simp only [layout, Option.bind_eq_bind, Option.bind_eq_some_iff, Option.pure_def,
      Option.some.injEq] at h
    obtain ⟨bs, own, rest, laid, rfl⟩ := h
    simp [length_bytes own, ih laid]

theorem layout_split {labelAt : String → Option Nat} {code : List UInt8} {pre post : List BuildCall}
    {c : BuildCall} (laid : layout labelAt 0 (pre ++ c :: post) = some code) :
    ∃ A bs B, code = A ++ bs ++ B ∧ A.length = extent pre ∧ c.bytes labelAt (extent pre) = some bs := by
  simp only [layout_append, Option.bind_eq_bind, Option.bind_eq_some_iff, Option.pure_def,
    Option.some.injEq, layout, Nat.zero_add] at laid
  obtain ⟨A, front, rest, ⟨bs, own, B, back, rfl⟩, rfl⟩ := laid
  exact ⟨A, bs, B, by simp, length_layout front, own⟩

theorem setField_append_left {A B : List UInt8} {operand : Nat} (off : Int) (h : operand + 2 ≤ A.length) :
    setField (A ++ B) operand off = setField A operand off ++ B := by
  simp only [setField, List.set_append_left _ _ (show operand < A.length by omega)]
  rw [List.set_append_left _ _ (by simp; omega)]

theorem setField_append_right {A B : List UInt8} {operand : Nat} (off : Int) (h : A.length ≤ operand) :
    setField (A ++ B) operand off = A ++ setField B (operand - A.length) off := by
  simp only [setField, List.set_append_right _ _ h]
  rw [List.set_append_right _ _ (by omega), show operand + 1 - A.length = operand - A.length + 1 by omega]

theorem setField_jump {op : Opcode} (isJump : op.isJump = true) {xs : List Int}
    (arity : xs.length + 1 = op.shape.arity) (off : Int) :
    setField (op.encode (xs ++ [0])) (op.shape.width - 1) off = op.encode (xs ++ [off]) := by
  have head : ((op.encode (xs ++ [0])).take (op.shape.width - 1)).length = op.shape.width - 1 := by
    simp only [List.length_take, length_opcode_encode]
    omega
  rw [encode_jump isJump xs off arity]
  conv_lhs => rw [encode_jump isJump xs 0 arity]
  rw [setField_append_right off (Nat.le_of_eq head), head, Nat.sub_self]
  rfl

theorem le_of_mem_refsTo {l : String} {r : Nat × Nat} :
    ∀ {q : Nat} {cs : List BuildCall}, r ∈ refsTo l q cs → q + 1 ≤ r.1 := by
  intro q cs
  induction cs generalizing q with
  | nil => simp [refsTo]
  | cons c cs ih =>
    simp only [refsTo, List.mem_append]
    rintro (own | later)
    · -- a jump's field is the last two of its bytes, after the opcode
      cases c with
      | jump op xs l' isJump =>
        have wide : 2 ≤ op.shape.width := by
          rcases shape_of_isJump isJump with shape | shape <;> simp [shape, Shape.width]
        simp only [BuildCall.jumpsTo, BuildCall.width] at own
        by_cases same : (l' == l) = true
        · simp only [same, if_true, List.mem_singleton] at own
          subst own
          omega
        · simp [same] at own
      | _ => simp [BuildCall.jumpsTo] at own
    · have := ih later
      omega

theorem foldl_setField_append {A X : List UInt8} {q : Nat} {f : Nat × Nat → Int} :
    ∀ {rs : List (Nat × Nat)}, (∀ r ∈ rs, q + A.length ≤ r.1) →
      rs.foldl (fun c r => setField c (r.1 - q) (f r)) (A ++ X) =
        A ++ rs.foldl (fun c r => setField c (r.1 - (q + A.length)) (f r)) X := by
  intro rs
  induction rs generalizing X with
  | nil => simp
  | cons r rs ih =>
    intro after
    simp only [List.foldl_cons]
    rw [setField_append_right _ (by have := after r (by simp); omega),
      show r.1 - q - A.length = r.1 - (q + A.length) by omega]
    exact ih fun r' mem => after r' (by simp [mem])

theorem bytes_update {M : String → Option Nat} {l : String} {v : Option Nat} {q : Nat} {c : BuildCall}
    (other : c.jumpsTo l = false) : c.bytes (Function.update M l v) q = c.bytes M q := by
  cases c with
  | jump op xs l' isJump =>
    have : l' ≠ l := by simpa [BuildCall.jumpsTo] using other
    simp [BuildCall.bytes, Function.update_of_ne this]
  | _ => rfl

theorem layout_mark {M : String → Option Nat} {l : String} (unmarked : M l = none) (pos : Nat) :
    ∀ {q : Nat} {cs : List BuildCall} {code : List UInt8}, layout M q cs = some code →
      (∀ r ∈ refsTo l q cs, -32768 ≤ (pos : Int) - r.2 ∧ (pos : Int) - r.2 ≤ 32767) →
      layout (Function.update M l (some pos)) q cs =
        some ((refsTo l q cs).foldl (fun c r => setField c (r.1 - q) ((pos : Int) - r.2)) code) := by
  intro q cs
  induction cs generalizing q with
  | nil => intro code laid _; cases laid; rfl
  | cons c cs ih =>
    intro code laid spans
    simp only [layout, Option.bind_eq_bind, Option.bind_eq_some_iff, Option.pure_def,
      Option.some.injEq] at laid
    obtain ⟨bs, own, rest, laidRest, rfl⟩ := laid
    have later : ∀ r ∈ refsTo l (q + c.width) cs, q + bs.length ≤ r.1 := fun r mem => by
      have := le_of_mem_refsTo mem
      rw [length_bytes own]
      omega
    have restSpans : ∀ r ∈ refsTo l (q + c.width) cs, -32768 ≤ (pos : Int) - r.2 ∧ (pos : Int) - r.2 ≤ 32767 :=
      fun r mem => spans r (by simp [refsTo, mem])
    -- a call that does not wait for `l` keeps its bytes, and the later fields move past them
    cases jumps : c.jumpsTo l with
    | false =>
      simp only [refsTo, jumps, Bool.false_eq_true, if_false, List.nil_append] at spans ⊢
      rw [foldl_setField_append later, length_bytes own]
      simp [layout, bytes_update jumps, own, ih laidRest restSpans]
    | true =>
      cases c with
      | jump op xs l' isJump =>
        have same : l' = l := by simpa [BuildCall.jumpsTo] using jumps
        subst l'
        simp only [BuildCall.bytes, unmarked, Option.ite_none_right_eq_some, Option.some.injEq] at own
        obtain ⟨arity, rfl⟩ := own
        -- the jump's own field, still zero, is the first one rewritten
        have wide : 2 ≤ op.shape.width := by
          rcases shape_of_isJump isJump with shape | shape <;> simp [shape, Shape.width]
        have span := spans (q + BuildCall.width (.jump op xs l isJump) - 2,
          q + BuildCall.width (.jump op xs l isJump)) (by simp [refsTo, BuildCall.jumpsTo])
        simp only [refsTo, jumps, if_true, List.singleton_append, List.foldl_cons] at ⊢
        rw [setField_append_left _ (by simp [BuildCall.width]; omega),
          show q + BuildCall.width (.jump op xs l isJump) - 2 - q = op.shape.width - 1 by
            simp [BuildCall.width]; omega,
          setField_jump isJump arity]
        rw [foldl_setField_append (by simpa using later)]
        simp only [BuildCall.width] at span laidRest restSpans ⊢
        have fits : -32768 ≤ (pos : Int) - (q + (op.shape.width + 1)) ∧
            (pos : Int) - (q + (op.shape.width + 1)) ≤ 32767 := by
          omega
        simp [layout, BuildCall.bytes, BuildCall.width, arity, fits, ih laidRest restSpans]
      | _ => simp [BuildCall.jumpsTo] at jumps

theorem getD_laid {code : Array UInt8} {A bs B : List UInt8} (laid : code.toList = A ++ bs ++ B)
    (i : Nat) (h : i < bs.length) : code.getD (A.length + i) 0 = bs[i] := by
  rw [Array.getD_eq_getD_getElem?, ← Array.getElem?_toList, laid, List.append_assoc,
    List.getElem?_append_right (by omega), Nat.add_sub_cancel_left,
    List.getElem?_append_left h, List.getElem?_eq_getElem h, Option.getD_some]

theorem size_laid {code : Array UInt8} {A bs B : List UInt8} (laid : code.toList = A ++ bs ++ B) :
    code.size = A.length + bs.length + B.length := by
  simp [Array.size_eq_length_toList, laid, Nat.add_assoc]

theorem decode_laid {code : Array UInt8} {A B : List UInt8} {s : Shape} {xs : List Int}
    (laid : code.toList = A ++ s.encode xs ++ B) (fits : s.Fits xs) :
    ∃ o, decode code A.length s = .ok o ∧ o.fields s = xs ∧ o.next = A.length + s.width := by
  have within : ¬ A.length + s.width > code.size := by simp [size_laid laid]
  have byte := getD_laid laid
  -- one case per shape: each of its fields is read back by `byteField` or `wordField`
  cases s with
  | z =>
    obtain _ | _ := fits
    exact ⟨_, if_neg within, rfl, rfl⟩
  | b =>
    obtain _ | ⟨f0, _ | _⟩ := fits
    refine ⟨_, if_neg within, ?_, rfl⟩
    simp only [byte 0 (by simp [Shape.width])]
    simp [Operands.fields, Shape.arity, Shape.encode, byteField _ f0]
  | s =>
    obtain _ | ⟨f0, _ | _⟩ := fits
    refine ⟨_, if_neg within, ?_, rfl⟩
    simp only [byte 0 (by simp [Shape.width]), byte 1 (by simp [Shape.width])]
    simp [Operands.fields, Shape.arity, Shape.encode, wordField _ f0]
  | bb =>
    obtain _ | ⟨f0, _ | ⟨f1, _ | _⟩⟩ := fits
    refine ⟨_, if_neg within, ?_, rfl⟩
    simp only [byte 0 (by simp [Shape.width]), byte 1 (by simp [Shape.width])]
    simp [Operands.fields, Shape.arity, Shape.encode, byteField _ f0, byteField _ f1]
  | bs =>
    obtain _ | ⟨f0, _ | ⟨f1, _ | _⟩⟩ := fits
    refine ⟨_, if_neg within, ?_, rfl⟩
    simp only [byte 0 (by simp [Shape.width]), byte 1 (by simp [Shape.width]),
      byte 2 (by simp [Shape.width])]
    simp [Operands.fields, Shape.arity, Shape.encode, byteField _ f0, wordField _ f1]
  | bbb =>
    obtain _ | ⟨f0, _ | ⟨f1, _ | ⟨f2, _ | _⟩⟩⟩ := fits
    refine ⟨_, if_neg within, ?_, rfl⟩
    simp only [byte 0 (by simp [Shape.width]), byte 1 (by simp [Shape.width]),
      byte 2 (by simp [Shape.width])]
    simp [Operands.fields, Shape.arity, Shape.encode, byteField _ f0, byteField _ f1, byteField _ f2]
  | bss =>
    obtain _ | ⟨f0, _ | ⟨f1, _ | ⟨f2, _ | _⟩⟩⟩ := fits
    refine ⟨_, if_neg within, ?_, rfl⟩
    simp only [byte 0 (by simp [Shape.width]), byte 1 (by simp [Shape.width]),
      byte 2 (by simp [Shape.width]), byte 3 (by simp [Shape.width]), byte 4 (by simp [Shape.width])]
    simp [Operands.fields, Shape.arity, Shape.encode, byteField _ f0, wordField _ f1, wordField _ f2]

theorem decode_laid_jump {code : Array UInt8} {A B : List UInt8} {op : Opcode} (isJump : op.isJump = true)
    {xs : List Int} {off : Int} (laid : code.toList = A ++ op.shape.encode (xs ++ [off]) ++ B)
    (fits : op.shape.Fits (xs ++ [0])) (span : -32768 ≤ off ∧ off ≤ 32767) :
    ∃ o, ∃ n : Nat, decode code A.length op.shape = .ok o ∧ o.fields op.shape = xs ++ [(n : Int)] ∧
      signed16 n = off ∧ o.next = A.length + op.shape.width := by
  have within : ¬ A.length + op.shape.width > code.size := by simp [size_laid laid]
  have byte := getD_laid laid
  have count := fits.length_eq
  unfold Shape.Fits at fits
  -- a jump has the distance alone (`s`) or a register and then the distance (`bs`)
  rcases shape_of_isJump isJump with shape | shape <;>
    rw [shape] at laid fits within byte count ⊢ <;> simp only [Shape.fieldBits] at count fits
  · obtain rfl : xs = [] := List.eq_nil_of_length_eq_zero (by simpa using count)
    refine ⟨_, _, if_neg within, rfl, ?_, rfl⟩
    simp only [byte 0 (by simp [Shape.width]), byte 1 (by simp [Shape.width])]
    simpa [Shape.encode] using signedField off span
  · obtain ⟨x, rfl⟩ : ∃ x, xs = [x] := List.length_eq_one_iff.1 (by simpa using count)
    obtain _ | ⟨f0, -⟩ := fits
    refine ⟨_, (code.getD (A.length + 1) 0).toNat * 256 + (code.getD (A.length + 2) 0).toNat,
      if_neg within, ?_, ?_, rfl⟩
    · simp only [byte 0 (by simp [Shape.width])]
      simp [Operands.fields, Shape.arity, Shape.encode, byteField _ f0]
    · simp only [byte 1 (by simp [Shape.width]), byte 2 (by simp [Shape.width])]
      simpa [Shape.encode] using signedField off span

theorem fetch_laid {code : Array UInt8} {A B : List UInt8} {op : Opcode} {xs : List Int}
    (laid : code.toList = A ++ op.encode xs ++ B) : Opcode.ofNat? (code.getD A.length 0).toNat = some op := by
  have opcode := getD_laid laid 0 (by simp)
  simp only [Nat.add_zero, Opcode.encode, List.getElem_cons_zero] at opcode
  rw [opcode, UInt8.toNat_ofNat', Nat.mod_eq_of_lt (toNat_lt op), ofNat?_toNat]

theorem layout_decodes_emit {labelAt : String → Option Nat} {code : Array UInt8}
    {pre post : List BuildCall} {op : Opcode} {xs : List Int}
    (laid : layout labelAt 0 (pre ++ .emit op xs :: post) = some code.toList) (fits : op.shape.Fits xs) :
    Opcode.ofNat? (code.getD (extent pre) 0).toNat = some op ∧
      ∃ o, decode code (extent pre + 1) op.shape = .ok o ∧ o.fields op.shape = xs ∧
        o.next = extent pre + op.shape.width + 1 := by
  obtain ⟨A, bs, B, split, offset, own⟩ := layout_split laid
  rw [← offset] at own ⊢
  simp only [BuildCall.bytes, Option.ite_none_right_eq_some, Option.some.injEq] at own
  obtain ⟨-, rfl⟩ := own
  refine ⟨fetch_laid split, ?_⟩
  have operands : code.toList = (A ++ [UInt8.ofNat op.toNat]) ++ op.shape.encode xs ++ B := by
    simp [split, Opcode.encode]
  obtain ⟨o, read, fields, next⟩ := decode_laid operands fits
  simp only [List.length_append, List.length_singleton] at read next
  exact ⟨o, read, fields, by omega⟩

theorem layout_decodes_jump {labelAt : String → Option Nat} {code : Array UInt8}
    {pre post : List BuildCall} {op : Opcode} {xs : List Int} {l : String} {isJump : op.isJump = true}
    {t : Nat} (marked : labelAt l = some t)
    (laid : layout labelAt 0 (pre ++ .jump op xs l isJump :: post) = some code.toList)
    (fits : op.shape.Fits (xs ++ [0])) :
    Opcode.ofNat? (code.getD (extent pre) 0).toNat = some op ∧
      ∃ o, ∃ n : Nat, decode code (extent pre + 1) op.shape = .ok o ∧
        o.fields op.shape = xs ++ [(n : Int)] ∧ o.next = extent pre + op.shape.width + 1 ∧
        (o.next : Int) + signed16 n = t := by
  obtain ⟨A, bs, B, split, offset, own⟩ := layout_split laid
  rw [← offset] at own ⊢
  simp only [BuildCall.bytes, marked, Option.ite_none_right_eq_some] at own
  obtain ⟨-, span, own⟩ := own
  cases own
  refine ⟨fetch_laid split, ?_⟩
  have operands : code.toList = (A ++ [UInt8.ofNat op.toNat]) ++
      op.shape.encode (xs ++ [(t : Int) - (A.length + (op.shape.width + 1))]) ++ B := by
    simp [split, Opcode.encode]
  obtain ⟨o, n, read, fields, distance, next⟩ := decode_laid_jump isJump operands fits span
  simp only [List.length_append, List.length_singleton] at read next
  refine ⟨o, n, read, fields, by omega, ?_⟩
  -- the field holds `t` less the next offset, so the signed offset lands on `t`
  rw [distance, next]
  push_cast
  omega

end RegisterVM
