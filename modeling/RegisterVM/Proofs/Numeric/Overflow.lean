import Mathlib
import RegisterVM.Proofs.Machine.Arguments
import RegisterVM.Proofs.Machine.Breaks
import RegisterVM.Native.Numeric

set_option autoImplicit false

namespace RegisterVM

namespace Numeric

theorem fitsInt64_iff (n : Int) : fitsInt64 n = true ↔ -2 ^ 63 ≤ n ∧ n < 2 ^ 63 := by
  have lo : int64Min = -2 ^ 63 := rfl
  have hi : int64Max = 2 ^ 63 - 1 := rfl
  simp only [fitsInt64, lo, hi, Bool.and_eq_true, decide_eq_true_eq]
  omega

theorem bmod_eq_of_fits {n : Int} (fits : -2 ^ 63 ≤ n ∧ n < 2 ^ 63) : n.bmod (2 ^ 64) = n :=
  Int.bmod_eq_of_le_mul_two (by omega) (by omega)

theorem bmod_sub_emod (n : Int) : (n.bmod (2 ^ 64) - n) % 2 ^ 64 = 0 := by
  have := Int.bmod_emod (x := n) (m := 2 ^ 64)
  omega

theorem toInt_neg_one : (-1 : Int64).toInt = -1 := rfl

theorem toInt_ne_zero {a : Int64} (nonzero : a ≠ 0) : a.toInt ≠ 0 :=
  fun h => nonzero (Int64.toInt_inj.1 (h.trans Int64.toInt_zero.symm))

theorem addOverflows_eq (a b : Int64) : addOverflows a b = !fitsInt64 (a.toInt + b.toInt) := by
  have sum := Int64.toInt_add a b
  have wrap := bmod_sub_emod (a.toInt + b.toInt)
  have := a.le_toInt; have := a.toInt_lt; have := b.le_toInt; have := b.toInt_lt
  have := (a + b).le_toInt; have := (a + b).toInt_lt
  rw [Bool.eq_iff_iff]
  simp only [addOverflows, gt_iff_lt, Int64.lt_iff_toInt_lt, Int64.toInt_zero, bne_iff_ne, ne_eq,
    decide_eq_decide, Bool.not_eq_true', Bool.eq_false_iff, fitsInt64_iff]
  omega

theorem subOverflows_eq (a b : Int64) : subOverflows a b = !fitsInt64 (a.toInt - b.toInt) := by
  have diff := Int64.toInt_sub a b
  have wrap := bmod_sub_emod (a.toInt - b.toInt)
  have := a.le_toInt; have := a.toInt_lt; have := b.le_toInt; have := b.toInt_lt
  have := (a - b).le_toInt; have := (a - b).toInt_lt
  rw [Bool.eq_iff_iff]
  simp only [subOverflows, gt_iff_lt, Int64.lt_iff_toInt_lt, Int64.toInt_zero, bne_iff_ne, ne_eq,
    decide_eq_decide, Bool.not_eq_true', Bool.eq_false_iff, fitsInt64_iff]
  omega

theorem eq_ofInt_of_wrapped {r : Int64} {n : Int} (wrapped : r.toInt = n.bmod (2 ^ 64))
    (fits : fitsInt64 n = true) : r = Int64.ofInt n := by
  rw [← Int64.ofInt_toInt r, wrapped, bmod_eq_of_fits ((fitsInt64_iff n).1 fits)]

theorem eq_mul_of_tdiv_wrapped {x y r : Int} (nonzero : y ≠ 0) (small : y.natAbs ≤ 2 ^ 63)
    (wrapped : r = (x * y).bmod (2 ^ 64)) (back : r.tdiv y = x) : r = x * y := by
  have parts := Int.tmod_def r y
  have below : (r.tmod y).natAbs < y.natAbs := by
    rw [Int.natAbs_tmod]
    exact Nat.mod_lt _ (by omega)
  have step := bmod_sub_emod (x * y)
  rw [← wrapped] at step
  rw [back] at parts
  have swap : y * x = x * y := Int.mul_comm y x
  omega

theorem toInt_mul_of_fits {a b : Int64} (fits : -2 ^ 63 ≤ a.toInt * b.toInt ∧ a.toInt * b.toInt < 2 ^ 63) :
    (a * b).toInt = a.toInt * b.toInt := by
  rw [Int64.toInt_mul, bmod_eq_of_fits fits]

theorem mul_div_cancel_of_fits {a b : Int64} (nonzero : b.toInt ≠ 0)
    (fits : -2 ^ 63 ≤ a.toInt * b.toInt ∧ a.toInt * b.toInt < 2 ^ 63) : a * b / b = a := by
  rw [← Int64.toInt_inj, Int64.toInt_div, toInt_mul_of_fits fits, Int.mul_tdiv_cancel _ nonzero,
    bmod_eq_of_fits ⟨a.le_toInt, a.toInt_lt⟩]

theorem mulExact_tests_iff (a b : Int64) (nonzero : b.toInt ≠ 0) :
    ((a * b / b != a || (a == -1 && b == Int64.minValue) || (b == -1 && a == Int64.minValue)) = true) ↔
      ¬(-2 ^ 63 ≤ a.toInt * b.toInt ∧ a.toInt * b.toInt < 2 ^ 63) := by
  have := a.le_toInt; have := a.toInt_lt; have := b.le_toInt; have := b.toInt_lt
  have least : Int64.minValue.toInt = -2 ^ 63 := Int64.toInt_minValue
  simp only [Bool.or_eq_true, bne_iff_ne, ne_eq, Bool.and_eq_true, beq_iff_eq]
  constructor
  · rintro ((differs | ⟨rfl, rfl⟩) | ⟨rfl, rfl⟩) fits
    · exact differs (mul_div_cancel_of_fits nonzero fits)
    · rw [toInt_neg_one, least] at fits
      omega
    · rw [toInt_neg_one, least] at fits
      omega
  · intro notFits
    by_cases byNegOne : b = -1
    · -- times -1 overflows only at the least integer
      right
      refine ⟨byNegOne, ?_⟩
      rw [byNegOne, toInt_neg_one] at notFits
      rw [← Int64.toInt_inj, least]
      omega
    · left; left
      intro back
      have quotient : (a * b / b).toInt = (a * b).toInt.tdiv b.toInt :=
        Int64.toInt_div_of_ne_right _ _ byNegOne
      rw [back] at quotient
      have exact := eq_mul_of_tdiv_wrapped nonzero (by omega) (Int64.toInt_mul a b) quotient.symm
      have := (a * b).le_toInt; have := (a * b).toInt_lt
      exact notFits (by omega)

theorem mulExact_eq (a b : Int64) :
    mulExact a b =
      if fitsInt64 (a.toInt * b.toInt) then some (Int64.ofInt (a.toInt * b.toInt)) else none := by
  unfold mulExact
  by_cases zero : a = 0 ∨ b = 0
  · have product : a.toInt * b.toInt = 0 := by rcases zero with rfl | rfl <;> simp
    have tested : (a == 0 || b == 0) = true := by rcases zero with rfl | rfl <;> simp
    rw [if_pos tested, product]
    rfl
  · have tested : (a == 0 || b == 0) = false := by simpa using zero
    have nonzero := toInt_ne_zero fun h => zero (.inr h)
    rw [if_neg (by simp [tested])]
    by_cases fits : fitsInt64 (a.toInt * b.toInt) = true
    · have inRange := (fitsInt64_iff _).1 fits
      rw [if_pos fits, if_neg (mt (mulExact_tests_iff a b nonzero).1 fun h => h inRange),
        ← toInt_mul_of_fits inRange, Int64.ofInt_toInt]
    · rw [if_neg fits, if_pos ((mulExact_tests_iff a b nonzero).2 (mt (fitsInt64_iff _).2 fits))]

theorem tdiv_sub_one_fits {x y : Int} (lo : -2 ^ 63 ≤ x) (hi : x < 2 ^ 63) (nonzero : y ≠ 0)
    (inexact : x.tmod y ≠ 0) : -2 ^ 63 ≤ x.tdiv y - 1 ∧ x.tdiv y - 1 < 2 ^ 63 := by
  have notUnit : 2 ≤ y.natAbs := by
    refine Nat.le_of_not_lt fun small => ?_
    have one : y.natAbs = 1 := by omega
    have rem := Int.natAbs_tmod x y
    rw [one, Nat.mod_one] at rem
    omega
  have size : (x.tdiv y).natAbs ≤ x.natAbs / 2 := by
    rw [Int.natAbs_tdiv]
    exact Nat.div_le_div_left notUnit (by decide)
  omega

theorem toInt_floorDiv {a b : Int64} (nonzero : b ≠ 0) (noWrap : ¬(a = Int64.minValue ∧ b = -1)) :
    (floorDiv a b).toInt = a.toInt.fdiv b.toInt := by
  have quotient : (a / b).toInt = a.toInt.tdiv b.toInt := by
    by_cases least : a = Int64.minValue
    · exact Int64.toInt_div_of_ne_right _ _ fun h => noWrap ⟨least, h⟩
    · exact Int64.toInt_div_of_ne_left _ _ least
  have y0 := toInt_ne_zero nonzero
  have := a.le_toInt; have := a.toInt_lt
  simp only [Int.fdiv_eq_tdiv, Int.dvd_iff_tmod_eq_zero]
  unfold floorDiv
  simp only [bne_iff_ne, ne_eq, Bool.and_eq_true, Int64.lt_iff_toInt_lt, Int64.toInt_zero,
    ← Int64.toInt_inj, Int64.toInt_mod]
  split
  next adjusted =>
    obtain ⟨inexact, signs⟩ := adjusted
    rw [Int64.toInt_sub, quotient, Int64.toInt_one,
      bmod_eq_of_fits (tdiv_sub_one_fits (by omega) (by omega) y0 inexact), if_neg inexact]
    simp only [decide_eq_decide] at signs
    rcases Int.lt_or_lt_of_ne y0 with neg | pos
    · rw [Int.sign_eq_neg_one_of_neg neg]
      split <;> split <;> omega
    · rw [Int.sign_eq_one_of_pos pos]
      split <;> split <;> omega
  next kept =>
    rw [quotient]
    by_cases exact : a.toInt.tmod b.toInt = 0
    · rw [if_pos exact, Int.sub_zero]
    · have signs : (a.toInt < 0 ↔ b.toInt < 0) := by
        simpa only [exact, not_false_eq_true, true_and, Decidable.not_not, decide_eq_decide] using kept
      rw [if_neg exact]
      rcases Int.lt_or_lt_of_ne y0 with neg | pos
      · rw [Int.sign_eq_neg_one_of_neg neg]
        split <;> split <;> omega
      · rw [Int.sign_eq_one_of_pos pos]
        split <;> split <;> omega

def exactOr (r : Int) (d : Float) : ArithResult :=
  if -2 ^ 63 ≤ r ∧ r < 2 ^ 63 then .value (.int (Int64.ofInt r)) else .value (.ofFloat d)

def intSpec (op : ArithOp) (a b : Int64) : ArithResult :=
  match op with
  | .add => exactOr (a.toInt + b.toInt) (toDouble a + toDouble b)
  | .sub => exactOr (a.toInt - b.toInt) (toDouble a - toDouble b)
  | .mul => exactOr (a.toInt * b.toInt) (toDouble a * toDouble b)
  | .div =>
    if b.toInt = 0 then .zeroDivision
    else if a.toInt = -2 ^ 63 ∧ b.toInt = -1 then .value (.ofFloat (-(toDouble a)))
    else .value (.int (Int64.ofInt (a.toInt.fdiv b.toInt)))
  | .eq => .value (.bool (decide (a.toInt = b.toInt)))
  | .lt => .value (.bool (decide (a.toInt < b.toInt)))
  | .le => .value (.bool (decide (a.toInt ≤ b.toInt)))
  | .gt => .value (.bool (decide (b.toInt < a.toInt)))
  | .ge => .value (.bool (decide (b.toInt ≤ a.toInt)))

theorem exactOr_of_test {r : Int} {w : Int64} {d : Float} {overflows : Bool}
    (test : overflows = !fitsInt64 r) (wrapped : w.toInt = r.bmod (2 ^ 64)) :
    (if overflows then .value (.ofFloat d) else .value (.int w)) = exactOr r d := by
  unfold exactOr
  by_cases fits : fitsInt64 r = true
  · rw [test, fits, Bool.not_true, if_pos ((fitsInt64_iff r).1 fits), eq_ofInt_of_wrapped wrapped fits]
    rfl
  · rw [test, Bool.eq_false_iff.2 fits, Bool.not_false, if_neg (mt (fitsInt64_iff r).2 fits)]
    rfl

theorem intArith_div_eq (a b : Int64) : intArith .div a b = intSpec .div a b := by
  have least : Int64.minValue.toInt = -2 ^ 63 := Int64.toInt_minValue
  simp only [intArith, intSpec, beq_iff_eq, Bool.and_eq_true, ← Int64.toInt_inj, least,
    toInt_neg_one, Int64.toInt_zero]
  by_cases zero : b.toInt = 0
  · rw [if_pos zero, if_pos zero]
  · rw [if_neg zero, if_neg zero]
    by_cases wraps : a.toInt = -2 ^ 63 ∧ b.toInt = -1
    · rw [if_pos wraps, if_pos wraps]
    · have nonzero : b ≠ 0 := fun h => zero (by rw [h]; rfl)
      have noWrap : ¬(a = Int64.minValue ∧ b = -1) := fun both =>
        wraps ⟨by rw [both.1, least], by rw [both.2]; rfl⟩
      rw [if_neg wraps, if_neg wraps, ← toInt_floorDiv nonzero noWrap, Int64.ofInt_toInt]

theorem intArith_eq_intSpec (op : ArithOp) (a b : Int64) : intArith op a b = intSpec op a b := by
  cases op with
  | add => exact exactOr_of_test (addOverflows_eq a b) (Int64.toInt_add a b)
  | sub => exact exactOr_of_test (subOverflows_eq a b) (Int64.toInt_sub a b)
  | mul =>
    simp only [intArith, intSpec, mulExact_eq, exactOr, ← fitsInt64_iff]
    by_cases fits : fitsInt64 (a.toInt * b.toInt) = true <;> simp [fits]
  | div => exact intArith_div_eq a b
  | eq =>
    simp only [intArith, intSpec, Int64.toInt_inj]
    rfl
  | lt => simp [intArith, intSpec, Int64.lt_iff_toInt_lt]
  | le => simp [intArith, intSpec, Int64.le_iff_toInt_le]
  | gt => simp [intArith, intSpec, Int64.lt_iff_toInt_lt]
  | ge => simp [intArith, intSpec, Int64.le_iff_toInt_le]

theorem intSpec_ne_fallback (op : ArithOp) (a b : Int64) : intSpec op a b ≠ .fallback := by
  cases op <;> simp only [intSpec, exactOr] <;> (repeat' split) <;> simp

end Numeric

def ArithOp.opcode : ArithOp → Opcode
  | .add => .add | .sub => .sub | .mul => .mul | .div => .div | .eq => .eq | .lt => .lt
  | .le => .le | .gt => .gt | .ge => .ge

namespace Machine

open Numeric

theorem reg_run_of_holds {f : Frame} {i : Nat} {m : Machine} {v : Value} (inRegs : i < f.nregs)
    (holds : m.stack[f.base + i]? = some v) : (reg f i).run m = .ok v m := by
  simp only [reg, if_pos inRegs, slot_run, holds]

theorem setReg_run_of_lt {f : Frame} {i : Nat} {m : Machine} (v : Value) (inRegs : i < f.nregs)
    (within : f.base + i < m.stack.size) : (setReg f i v).run m = .ok () (m.withSlot (f.base + i) v) := by
  simp only [setReg, if_pos inRegs, setSlot_run, if_pos within]

theorem arith_int (op : ArithOp) (x y : Int64) : Numeric.arith op (.int x) (.int y) = intArith op x y :=
  rfl

def arithAnswer (f : Frame) (r : Nat) (m : Machine) : ArithResult → EStateM.Result Fault Machine Unit
  | .value v => .ok () { m.withSlot (f.base + r) v with mode := .run }
  | _ => (newErr (·.zeroDivisionError) "divided by 0" >>= unwind).run m

theorem arithStep_run {f : Frame} {op : ArithOp} {r : Nat} {x y : Int64} {imm : Option Value}
    {m : Machine} (inRegs : r < f.nregs) (holds : m.stack[f.base + r]? = some (.int x)) :
    (arithStep f op r (.int y) imm).run m = arithAnswer f r m (intArith op x y) := by
  have within : f.base + r < m.stack.size := (Array.getElem?_eq_some_iff.1 holds).1
  cases answer : intArith op x y with
  | value v =>
    simp only [arithStep, EStateM.run_bind, reg_run_of_holds inRegs holds, arith_int, answer,
      setReg_run_of_lt v inRegs within, setMode_run, arithAnswer]
  | zeroDivision =>
    simp only [arithStep, EStateM.run_bind, reg_run_of_holds inRegs holds, arith_int, answer,
      arithAnswer]
  | fallback => exact absurd (answer.symm.trans (intArith_eq_intSpec op x y)) (intSpec_ne_fallback op x y).symm

theorem instruction_opcode (op : ArithOp) (a b c : Nat) (f : Frame) (body : Procedure) :
    instruction op.opcode a b c f body =
      (do let _ ← liftStore Store.wellKnown; arithStep f op a (← reg f (a + 1)) none) := by
  cases op <;> simp only [instruction, ArithOp.opcode]

theorem instruction_addI (a b c : Nat) (f : Frame) (body : Procedure) :
    instruction .addI a b c f body =
      (do let _ ← liftStore Store.wellKnown
          arithStep f .add a (.int (Int64.ofNat b)) (some (.int (Int64.ofNat b)))) := by
  simp only [instruction]

theorem instruction_subI (a b c : Nat) (f : Frame) (body : Procedure) :
    instruction .subI a b c f body =
      (do let _ ← liftStore Store.wellKnown
          arithStep f .sub a (.int (Int64.ofNat b)) (some (.int (Int64.ofNat b)))) := by
  simp only [instruction]

theorem instruction_opcode_run {f : Frame} {r : Nat} {m : Machine} {x y : Int64}
    (inRegs : r + 1 < f.nregs) (first : m.stack[f.base + r]? = some (.int x))
    (second : m.stack[f.base + (r + 1)]? = some (.int y)) (op : ArithOp) (b c : Nat) (body : Procedure) :
    (instruction op.opcode r b c f body).run m = arithAnswer f r m (intArith op x y) := by
  rw [instruction_opcode, wellKnown_run, EStateM.run_bind, reg_run_of_holds inRegs second]
  exact arithStep_run (by omega) first

theorem instruction_immediate_run {f : Frame} {r : Nat} {m : Machine} {x : Int64}
    (inRegs : r < f.nregs) (first : m.stack[f.base + r]? = some (.int x)) (k c : Nat) (body : Procedure) :
    (instruction .addI r k c f body).run m = arithAnswer f r m (intArith .add x (Int64.ofNat k)) ∧
      (instruction .subI r k c f body).run m = arithAnswer f r m (intArith .sub x (Int64.ofNat k)) := by
  rw [instruction_addI, instruction_subI, wellKnown_run, wellKnown_run]
  exact ⟨arithStep_run inRegs first, arithStep_run inRegs first⟩

end Machine

namespace Native

open Numeric

theorem checkArgs_within (call : NativeCall) (lo hi : Nat) (within : lo ≤ call.args.size ∧ call.args.size ≤ hi) :
    checkArgs call lo (some hi) = pure () := by
  simp [checkArgs, within.1, within.2]

def binopAnswer : ArithResult → NativeM NativeStep
  | .value v => pure (.done v)
  | _ => raiseErr (·.zeroDivisionError) "divided by 0"

theorem numeric_binop_int (op : ArithOp) (x y : Int64) (kw : Option HashTable) (blk : Value) :
    numeric (.binop op) { self := .int x, args := #[.int y], kw, blk } = binopAnswer (intArith op x y) := by
  have counted := checkArgs_within { self := .int x, args := #[.int y], kw, blk } 1 1 (by simp)
  cases answer : intArith op x y with
  | value v => simp [numeric, counted, NativeCall.arg, Machine.arith_int, answer, binopAnswer]
  | zeroDivision => simp [numeric, counted, NativeCall.arg, Machine.arith_int, answer, binopAnswer]
  | fallback => exact absurd (answer.symm.trans (intArith_eq_intSpec op x y)) (intSpec_ne_fallback op x y).symm

end Native

end RegisterVM

namespace RegisterVM

open Numeric Machine Native

theorem intArith_div_eq_zeroDivision_iff (a b : Int64) : intArith .div a b = .zeroDivision ↔ b = 0 := by
  rw [intArith_eq_intSpec]
  simp only [intSpec, ← Int64.toInt_inj, Int64.toInt_zero]
  split
  · simp_all
  · split <;> simp_all

theorem intArith_div_of_ne {a b : Int64} (nonzero : b ≠ 0) (noWrap : ¬(a = Int64.minValue ∧ b = -1)) :
    intArith .div a b = .value (.int (Int64.ofInt (a.toInt.fdiv b.toInt))) := by
  rw [intArith_div_eq, intSpec, if_neg (toInt_ne_zero nonzero), if_neg]
  rintro ⟨least, byNegOne⟩
  exact noWrap ⟨Int64.toInt_inj.1 (least.trans Int64.toInt_minValue.symm),
    Int64.toInt_inj.1 (byNegOne.trans toInt_neg_one.symm)⟩

theorem integer_arithmetic_exact_or_promotes (a b : Int64) :
    intArith .add a b = exactOr (a.toInt + b.toInt) (toDouble a + toDouble b) ∧
    intArith .sub a b = exactOr (a.toInt - b.toInt) (toDouble a - toDouble b) ∧
    intArith .mul a b = exactOr (a.toInt * b.toInt) (toDouble a * toDouble b) ∧
    (intArith .div a b = .zeroDivision ↔ b = 0) ∧
    intArith .div Int64.minValue (-1) = .value (.ofFloat (-(toDouble Int64.minValue))) ∧
    (b ≠ 0 → ¬(a = Int64.minValue ∧ b = -1) →
      intArith .div a b = .value (.int (Int64.ofInt (a.toInt.fdiv b.toInt)))) ∧
    intArith .eq a b = .value (.bool (decide (a.toInt = b.toInt))) ∧
    intArith .lt a b = .value (.bool (decide (a.toInt < b.toInt))) ∧
    intArith .le a b = .value (.bool (decide (a.toInt ≤ b.toInt))) ∧
    intArith .gt a b = .value (.bool (decide (b.toInt < a.toInt))) ∧
    intArith .ge a b = .value (.bool (decide (b.toInt ≤ a.toInt))) ∧
    (∀ (f : Frame) (r : Nat) (m : Machine), r + 1 < f.nregs → m.stack[f.base + r]? = some (.int a) →
      m.stack[f.base + (r + 1)]? = some (.int b) → ∀ (op : ArithOp) (b' c : Nat) (body : Procedure),
        (instruction op.opcode r b' c f body).run m = arithAnswer f r m (intArith op a b)) ∧
    (∀ (f : Frame) (r : Nat) (m : Machine), r < f.nregs → m.stack[f.base + r]? = some (.int a) →
      ∀ (k c : Nat) (body : Procedure),
        (instruction .addI r k c f body).run m = arithAnswer f r m (intArith .add a (Int64.ofNat k)) ∧
        (instruction .subI r k c f body).run m = arithAnswer f r m (intArith .sub a (Int64.ofNat k))) ∧
    (∀ (op : ArithOp) (kw : Option HashTable) (blk : Value),
      numeric (.binop op) { self := .int a, args := #[.int b], kw, blk } = binopAnswer (intArith op a b)) := by
  have spec := fun op => intArith_eq_intSpec op a b
  refine ⟨spec .add, spec .sub, spec .mul, intArith_div_eq_zeroDivision_iff a b, rfl,
    intArith_div_of_ne, spec .eq, spec .lt, spec .le, spec .gt, spec .ge, ?_, ?_, ?_⟩
  · intro f r m inRegs first second
    exact instruction_opcode_run inRegs first second
  · intro f r m inRegs first
    exact instruction_immediate_run inRegs first
  · intro op kw blk
    exact numeric_binop_int op a b kw blk

theorem integer_arithmetic_seven_by_minus_two :
    let f : Frame := { serial := 0, base := 0, nregs := 2, code := .native none, argc := 0
                       kwc := 0, kind := .vm, mid := Sym.none, owner := none, acc := 0, blk := .nil }
    let m : Machine := { store := default, contexts := #[{ stack := #[.int 7, .int (-2)] }] }
    ((-2 : Int64) ≠ 0 ∧ ¬((7 : Int64) = Int64.minValue ∧ (-2 : Int64) = -1)) ∧
    intArith .div 7 (-2) = .value (.int (Int64.ofInt ((7 : Int64).toInt.fdiv (-2 : Int64).toInt))) ∧
    (0 + 1 < f.nregs ∧ m.stack[f.base + 0]? = some (.int 7) ∧ m.stack[f.base + (0 + 1)]? = some (.int (-2))) ∧
    (instruction ArithOp.div.opcode 0 0 0 f default).run m = arithAnswer f 0 m (intArith .div 7 (-2)) :=
  ⟨⟨by decide, by decide⟩,
    (integer_arithmetic_exact_or_promotes 7 (-2)).2.2.2.2.2.1 (by decide) (by decide),
    ⟨by decide, rfl, rfl⟩,
    (integer_arithmetic_exact_or_promotes 7 (-2)).2.2.2.2.2.2.2.2.2.2.2.1 _ 0 _ (by decide) rfl rfl .div 0 0 default⟩

end RegisterVM
