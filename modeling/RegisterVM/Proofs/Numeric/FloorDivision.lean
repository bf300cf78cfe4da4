import Mathlib.Data.Rat.Floor
import RegisterVM.Proofs.Numeric.Overflow

set_option autoImplicit false

namespace RegisterVM

namespace Numeric

theorem fmod_between_of_neg (a : Int) {b : Int} (neg : b < 0) : b < a.fmod b ∧ a.fmod b ≤ 0 :=
  ((Int.fdiv_fmod_unique' neg).1 ⟨rfl, rfl⟩).2

theorem fdiv_eq_floor_div (a b : Int) (nonzero : b ≠ 0) : a.fdiv b = ⌊(a : ℚ) / b⌋ := by
  have parts := Int.fdiv_mul_add_fmod a b
  rw [eq_comm, Int.floor_eq_iff]
  rcases Int.lt_or_lt_of_ne nonzero with neg | pos
  · have ⟨above, nonpos⟩ := fmod_between_of_neg a neg
    have negQ : (b : ℚ) < 0 := by exact_mod_cast neg
    rw [le_div_iff_of_neg negQ, div_lt_iff_of_neg negQ]
    constructor
    · exact_mod_cast (show a ≤ a.fdiv b * b by omega)
    · exact_mod_cast (show (a.fdiv b + 1) * b < a by rw [Int.add_mul]; omega)
  · have nonneg := Int.fmod_nonneg_of_pos a pos
    have below := Int.fmod_lt_of_pos a pos
    have posQ : (0 : ℚ) < b := by exact_mod_cast pos
    rw [le_div_iff₀ posQ, div_lt_iff₀ posQ]
    constructor
    · exact_mod_cast (show a.fdiv b * b ≤ a by omega)
    · exact_mod_cast (show a < (a.fdiv b + 1) * b by rw [Int.add_mul]; omega)

theorem fmod_sign_and_size (a b : Int) (nonzero : b ≠ 0) :
    (a.fmod b = 0 ∨ (a.fmod b).sign = b.sign) ∧ (a.fmod b).natAbs < b.natAbs := by
  rcases Int.lt_or_lt_of_ne nonzero with neg | pos
  · have ⟨above, nonpos⟩ := fmod_between_of_neg a neg
    rw [Int.sign_eq_neg_one_of_neg neg]
    refine ⟨?_, by omega⟩
    rcases Int.lt_or_eq_of_le nonpos with below | zero
    · exact .inr (Int.sign_eq_neg_one_of_neg below)
    · exact .inl zero
  · have nonneg := Int.fmod_nonneg_of_pos a pos
    have below := Int.fmod_lt_of_pos a pos
    rw [Int.sign_eq_one_of_pos pos]
    refine ⟨?_, by omega⟩
    rcases Int.lt_or_eq_of_le nonneg with above | zero
    · exact .inr (Int.sign_eq_one_of_pos above)
    · exact .inl zero.symm

theorem toInt_div_of_noWrap {a b : Int64} (noWrap : ¬(a = Int64.minValue ∧ b = -1)) :
    (a / b).toInt = a.toInt.tdiv b.toInt := by
  by_cases least : a = Int64.minValue
  · exact Int64.toInt_div_of_ne_right _ _ fun h => noWrap ⟨least, h⟩
  · exact Int64.toInt_div_of_ne_left _ _ least

theorem toInt_add_of_signs_differ {x y : Int64} (signs : x.toInt < 0 ↔ ¬y.toInt < 0) :
    (x + y).toInt = x.toInt + y.toInt := by
  have := x.le_toInt; have := x.toInt_lt; have := y.le_toInt; have := y.toInt_lt
  rw [Int64.toInt_add, bmod_eq_of_fits (by omega)]

theorem toInt_div_sub_one {a b : Int64} (nonzero : b ≠ 0) (noWrap : ¬(a = Int64.minValue ∧ b = -1))
    (inexact : a % b ≠ 0) : (a / b - 1).toInt = (a / b).toInt - 1 := by
  have remainder : a.toInt.tmod b.toInt ≠ 0 := by
    rwa [← Int64.toInt_mod, ← Int64.toInt_zero, Ne, Int64.toInt_inj]
  have quotient := toInt_div_of_noWrap noWrap
  rw [Int64.toInt_sub, Int64.toInt_one, quotient,
    bmod_eq_of_fits (tdiv_sub_one_fits a.le_toInt a.toInt_lt (toInt_ne_zero nonzero) remainder)]

theorem tmod_sign {a b : Int} (nonzero : a.tmod b ≠ 0) : (a.tmod b < 0 ↔ a < 0) := by
  constructor
  · intro neg
    by_contra nonneg
    have := Int.tmod_nonneg b (show 0 ≤ a by omega)
    omega
  · intro neg
    have flipped := Int.tmod_nonneg b (show 0 ≤ -a by omega)
    rw [Int.neg_tmod] at flipped
    omega

theorem toInt_floorMod {a b : Int64} (nonzero : b ≠ 0) :
    (floorMod a b).toInt = a.toInt.fmod b.toInt := by
  have y0 := toInt_ne_zero nonzero
  have remainder := Int64.toInt_mod a b
  rw [Int.fmod_eq_tmod]
  unfold floorMod
  simp only [bne_iff_ne, ne_eq, Bool.and_eq_true, decide_eq_decide, Int64.lt_iff_toInt_lt,
    Int64.toInt_zero, ← Int64.toInt_inj, remainder]
  by_cases exact : a.toInt.tmod b.toInt = 0
  · rw [if_neg (by simp [exact]), if_pos (Int.dvd_iff_tmod_eq_zero.2 exact), remainder, exact, Int.add_zero]
  · rw [if_neg (mt Int.dvd_iff_tmod_eq_zero.1 exact)]
    have signs := tmod_sign exact
    split
    next adjusted =>
      rw [toInt_add_of_signs_differ (by rw [remainder]; tauto), remainder]
      split <;> split <;> omega
    next kept =>
      rw [remainder]
      split <;> split <;> omega

end Numeric

namespace Native

open Numeric

theorem map_raiseErr {α β : Type} (f : α → β) (cls : Core → ObjRef) (msg : String) :
    f <$> (raiseErr cls msg : NativeM α) = raiseErr cls msg := by
  simp [raiseErr]

theorem numeric_modulo_int (a d : Int64) (kw : Option HashTable) (blk : Value) :
    numeric .modulo { self := .int a, args := #[.int d], kw, blk } =
      if d = 0 then raiseErr (·.zeroDivisionError) "divided by 0"
      else if d = -1 then pure (.done (.int 0)) else pure (.done (.int (floorMod a d))) := by
  have counted := checkArgs_within { self := .int a, args := #[.int d], kw, blk } 1 1 (by simp)
  by_cases zero : d = 0
  · subst zero
    simp [numeric, counted, numArg, NativeCall.arg, Value.isNumeric, map_raiseErr]
  by_cases negOne : d = -1
  · subst negOne
    simp [numeric, counted, numArg, NativeCall.arg, Value.isNumeric]
  · simp [numeric, counted, numArg, NativeCall.arg, Value.isNumeric, zero, negOne]

end Native

namespace Machine

open Numeric

theorem instruction_div_run {f : Frame} {r : Nat} {m : Machine} {a b : Int64}
    (inRegs : r + 1 < f.nregs) (first : m.stack[f.base + r]? = some (.int a))
    (second : m.stack[f.base + (r + 1)]? = some (.int b)) (nonzero : b ≠ 0)
    (noWrap : ¬(a = Int64.minValue ∧ b = -1)) (b' c : Nat) (body : Procedure) :
    (instruction .div r b' c f body).run m =
      .ok () { m.withSlot (f.base + r) (.int (floorDiv a b)) with mode := .run } := by
  have quotient : intArith .div a b = .value (.int (floorDiv a b)) := by
    simp [intArith, nonzero, noWrap]
  rw [show Opcode.div = ArithOp.div.opcode from rfl, instruction_opcode_run inRegs first second,
    quotient]
  rfl

end Machine

open Numeric Native Machine

theorem floor_quotient_and_remainder (a b : Int64) (nonzero : b ≠ 0)
    (noWrap : ¬(a = Int64.minValue ∧ b = -1)) :
    (floorDiv a b).toInt = ⌊(a.toInt : ℚ) / b.toInt⌋ ∧
    (floorMod a b).toInt = a.toInt - b.toInt * ⌊(a.toInt : ℚ) / b.toInt⌋ ∧
    (floorDiv a b).toInt * b.toInt + (floorMod a b).toInt = a.toInt ∧
    ((floorMod a b).toInt = 0 ∨ (floorMod a b).toInt.sign = b.toInt.sign) ∧
    (floorMod a b).toInt.natAbs < b.toInt.natAbs ∧
    (a / b).toInt = a.toInt.tdiv b.toInt ∧
    (a % b).toInt = a.toInt.tmod b.toInt ∧
    (a % b ≠ 0 → (a / b - 1).toInt = (a / b).toInt - 1) ∧
    (((a % b).toInt < 0 ↔ ¬b.toInt < 0) → (a % b + b).toInt = (a % b).toInt + b.toInt) ∧
    (∀ (d : Int64) (kw : Option HashTable) (blk : Value),
      numeric .modulo { self := .int a, args := #[.int d], kw, blk } =
        if d = 0 then raiseErr (·.zeroDivisionError) "divided by 0"
        else if d = -1 then pure (.done (.int 0)) else pure (.done (.int (floorMod a d)))) ∧
    (∀ (f : Frame) (r : Nat) (m : Machine), r + 1 < f.nregs →
      m.stack[f.base + r]? = some (.int a) → m.stack[f.base + (r + 1)]? = some (.int b) →
      ∀ (b' c : Nat) (body : Procedure), (instruction .div r b' c f body).run m =
        .ok () { m.withSlot (f.base + r) (.int (floorDiv a b)) with mode := .run }) := by
  have y0 := toInt_ne_zero nonzero
  have quotient : (floorDiv a b).toInt = ⌊(a.toInt : ℚ) / b.toInt⌋ := by
    rw [toInt_floorDiv nonzero noWrap, fdiv_eq_floor_div _ _ y0]
  have remainder : (floorMod a b).toInt = a.toInt - b.toInt * ⌊(a.toInt : ℚ) / b.toInt⌋ := by
    rw [toInt_floorMod nonzero, ← fdiv_eq_floor_div _ _ y0, Int.fmod_def]
  refine ⟨quotient, remainder, ?_, ?_, ?_, toInt_div_of_noWrap noWrap, Int64.toInt_mod a b,
    toInt_div_sub_one nonzero noWrap, toInt_add_of_signs_differ, numeric_modulo_int a,
    fun f r m inRegs first second => instruction_div_run inRegs first second nonzero noWrap⟩
  · rw [quotient, remainder, Int.mul_comm]
    omega
  · rw [toInt_floorMod nonzero]
    exact (fmod_sign_and_size _ _ y0).1
  · rw [toInt_floorMod nonzero]
    exact (fmod_sign_and_size _ _ y0).2

example : floorDiv (-7) 2 = -4 ∧ floorMod (-7) 2 = 1 ∧ floorMod 7 (-2) = -1 := by decide

theorem floor_quotient_of_minus_seven_by_two :
    ((2 : Int64) ≠ 0 ∧ ¬((-7 : Int64) = Int64.minValue ∧ (2 : Int64) = -1)) ∧
    (floorDiv (-7) 2).toInt = ⌊((-7 : Int64).toInt : ℚ) / (2 : Int64).toInt⌋ ∧
    (floorMod (-7) 2).toInt = (-7 : Int64).toInt - (2 : Int64).toInt * ⌊((-7 : Int64).toInt : ℚ) / (2 : Int64).toInt⌋ :=
  have floor := floor_quotient_and_remainder (-7) 2 (by decide) (by decide)
  ⟨⟨by decide, by decide⟩, floor.1, floor.2.1⟩

end RegisterVM
