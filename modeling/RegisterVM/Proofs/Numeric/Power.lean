import Mathlib.Algebra.Order.Ring.Int
import Mathlib.Tactic.Ring
import RegisterVM.Proofs.Numeric.Overflow

set_option autoImplicit false

namespace RegisterVM

namespace Numeric

theorem toInt_ofInt_of_fits {n : Int} (fits : fitsInt64 n = true) : (Int64.ofInt n).toInt = n := by
  rw [Int64.toInt_ofInt]
  exact bmod_eq_of_fits ((fitsInt64_iff n).1 fits)

theorem mulExact_eq_some {a b : Int64} (fits : fitsInt64 (a.toInt * b.toInt) = true) :
    mulExact a b = some (Int64.ofInt (a.toInt * b.toInt)) := by
  rw [mulExact_eq, if_pos fits]

theorem toInt_of_mulExact_eq_some {a b r : Int64} (product : mulExact a b = some r) :
    r.toInt = a.toInt * b.toInt := by
  rw [mulExact_eq] at product
  split at product
  next fits =>
    cases product
    exact toInt_ofInt_of_fits fits
  next => cases product

theorem fits_of_fits_mul {x q : Int} (nonzero : q ≠ 0) (fits : fitsInt64 (x * q) = true)
    (edge : x ≠ 2 ^ 63) : fitsInt64 x = true := by
  rw [fitsInt64_iff] at fits ⊢
  have size : x.natAbs ≤ (x * q).natAbs := by
    rw [Int.natAbs_mul]
    exact Nat.le_mul_of_pos_right _ (Int.natAbs_pos.2 nonzero)
  omega

theorem fits_toInt (a : Int64) : fitsInt64 a.toInt = true :=
  (fitsInt64_iff _).2 ⟨a.le_toInt, a.toInt_lt⟩

theorem fits_of_fits_mul_pos {x q : Int} (positive : 0 < q) (fits : fitsInt64 (x * q) = true) :
    fitsInt64 x = true := by
  refine fits_of_fits_mul (Int.ne_of_gt positive) fits fun edge => ?_
  rw [fitsInt64_iff, edge] at fits
  omega

theorem mul_self_ne_two_pow (n : Int) : n * n ≠ 2 ^ 63 := by
  rw [← Int.natAbs_mul_self']
  intro square
  have exact : n.natAbs * n.natAbs = 2 ^ 63 := by exact_mod_cast square
  rcases Nat.lt_or_ge n.natAbs 3037000500 with small | large
  · have := Nat.mul_le_mul (Nat.le_of_lt_succ small) (Nat.le_of_lt_succ small)
    omega
  · have := Nat.mul_le_mul large large
    omega

theorem pow_eq_low_bit_mul (b : Int) (e : Nat) : b ^ e = b ^ (e % 2) * (b * b) ^ (e / 2) := by
  conv_lhs => rw [← Nat.mod_add_div e 2]
  rw [pow_add, pow_mul, sq]

theorem exponent_lt (exp : Int64) : exp.toInt.toNat < 2 ^ 64 := by
  have := exp.toInt_lt
  omega

def lowBit (base acc : Int64) (e : Nat) : Option Int64 :=
  if e % 2 == 1 then mulExact acc base else some acc

theorem go_round (base acc : Int64) (e fuel : Nat) (running : e ≠ 0) :
    powExact.go base e acc (fuel + 1) =
      (lowBit base acc e).bind fun acc' =>
        if e / 2 = 0 then some acc'
        else (mulExact base base).bind fun base' => powExact.go base' (e / 2) acc' fuel := by
  simp only [powExact.go, beq_iff_eq, running, if_false, lowBit]
  rcases (if e % 2 = 1 then mulExact acc base else some acc) with _ | acc'
  · rfl
  · simp only [Option.bind_some]
    split
    · rfl
    · rcases mulExact base base <;> rfl

theorem toInt_of_lowBit {base acc acc' : Int64} {e : Nat} (low : lowBit base acc e = some acc') :
    acc'.toInt = acc.toInt * base.toInt ^ (e % 2) := by
  unfold lowBit at low
  split at low
  next odd => rw [toInt_of_mulExact_eq_some low, show e % 2 = 1 by simpa using odd, pow_one]
  next even =>
    cases low
    rw [show e % 2 = 0 by simp at even; omega, pow_zero, Int.mul_one]

theorem lowBit_of_fits {base acc : Int64} {e : Nat}
    (fits : fitsInt64 (acc.toInt * base.toInt ^ (e % 2)) = true) :
    lowBit base acc e = some (Int64.ofInt (acc.toInt * base.toInt ^ (e % 2))) := by
  unfold lowBit
  split
  next odd =>
    rw [show e % 2 = 1 by simpa using odd, pow_one] at fits ⊢
    exact mulExact_eq_some fits
  next even =>
    rw [show e % 2 = 0 by simp at even; omega, pow_zero, Int.mul_one, Int64.ofInt_toInt]

theorem go_sound {base acc r : Int64} {e fuel : Nat} (small : e < 2 ^ fuel)
    (answer : powExact.go base e acc fuel = some r) : r.toInt = acc.toInt * base.toInt ^ e := by
  induction fuel generalizing base e acc with
  | zero =>
    obtain rfl : e = 0 := by omega
    simp only [powExact.go, Option.some.injEq] at answer
    rw [← answer, pow_zero, Int.mul_one]
  | succ fuel ih =>
    by_cases finished : e = 0
    · subst finished
      simp only [powExact.go, beq_self_eq_true, if_true, Option.some.injEq] at answer
      rw [← answer, pow_zero, Int.mul_one]
    rw [go_round base acc e fuel finished] at answer
    obtain ⟨acc', low, rest⟩ := Option.bind_eq_some_iff.1 answer
    have lowPart := toInt_of_lowBit low
    split at rest
    next last =>
      cases rest
      rw [lowPart, show e % 2 = e by omega]
    next =>
      obtain ⟨base', square, loop⟩ := Option.bind_eq_some_iff.1 rest
      rw [ih (by omega) loop, lowPart, toInt_of_mulExact_eq_some square, Int.mul_assoc,
        ← pow_eq_low_bit_mul]

theorem go_complete {base acc : Int64} {e fuel : Nat} (small : e < 2 ^ fuel)
    (nonzero : acc.toInt ≠ 0 ∨ base.toInt = 0)
    (fits : fitsInt64 (acc.toInt * base.toInt ^ e) = true) :
    powExact.go base e acc fuel = some (Int64.ofInt (acc.toInt * base.toInt ^ e)) := by
  induction fuel generalizing base e acc with
  | zero =>
    obtain rfl : e = 0 := by omega
    simp [powExact.go]
  | succ fuel ih =>
    by_cases finished : e = 0
    · subst finished
      simp [powExact.go]
    -- the power is the accumulator after the low bit times a power of the square
    have power : acc.toInt * base.toInt ^ e =
        acc.toInt * base.toInt ^ (e % 2) * (base.toInt * base.toInt) ^ (e / 2) := by
      rw [Int.mul_assoc, ← pow_eq_low_bit_mul]
    -- every product the round forms is a factor of the power
    have lowFits : fitsInt64 (acc.toInt * base.toInt ^ (e % 2)) = true := by
      rcases Nat.mod_two_eq_zero_or_one e with even | odd
      · rw [even, pow_zero, Int.mul_one]
        exact fits_toInt acc
      · rcases eq_or_ne base.toInt 0 with zero | baseNonzero
        · rw [odd, zero, pow_one, Int.mul_zero]
          rfl
        · exact fits_of_fits_mul_pos (pow_pos (mul_self_pos.2 baseNonzero) _) (power ▸ fits)
    rw [go_round base acc e fuel finished, lowBit_of_fits lowFits, Option.bind_some]
    have lowPart := toInt_ofInt_of_fits lowFits
    split
    next last =>
      rw [show e % 2 = e by omega]
    next more =>
      have squareFits : fitsInt64 (base.toInt * base.toInt) = true := by
        rcases eq_or_ne base.toInt 0 with zero | baseNonzero
        · rw [zero, Int.mul_zero]
          rfl
        · have accNonzero : acc.toInt ≠ 0 := nonzero.resolve_right baseNonzero
          have rest : acc.toInt * base.toInt ^ e = base.toInt * base.toInt *
              (acc.toInt * base.toInt ^ (e % 2) * (base.toInt * base.toInt) ^ (e / 2 - 1)) := by
            rw [power, ← mul_pow_sub_one more (base.toInt * base.toInt)]
            ring
          refine fits_of_fits_mul ?_ (rest ▸ fits) (mul_self_ne_two_pow _)
          exact Int.mul_ne_zero (Int.mul_ne_zero accNonzero (pow_ne_zero _ baseNonzero))
            (pow_ne_zero _ (Int.mul_ne_zero baseNonzero baseNonzero))
      have square := toInt_ofInt_of_fits squareFits
      have nonzero' : (Int64.ofInt (acc.toInt * base.toInt ^ (e % 2))).toInt ≠ 0 ∨
          (Int64.ofInt (base.toInt * base.toInt)).toInt = 0 := by
        rw [lowPart, square]
        rcases eq_or_ne base.toInt 0 with zero | baseNonzero
        · exact .inr (by rw [zero, Int.mul_zero])
        · exact .inl (Int.mul_ne_zero (nonzero.resolve_right baseNonzero) (pow_ne_zero _ baseNonzero))
      rw [mulExact_eq_some squareFits, Option.bind_some,
        ih (by omega) nonzero' (by rwa [lowPart, square, ← power]), lowPart, square, ← power]

theorem go_one_eq (base : Int64) {e n : Nat} (small : e < 2 ^ n) :
    powExact.go base e 1 n =
      if fitsInt64 (base.toInt ^ e) then some (Int64.ofInt (base.toInt ^ e)) else none := by
  have one : (1 : Int64).toInt = 1 := Int64.toInt_one
  split
  next fits =>
    rw [go_complete small (.inl (by rw [one]; decide)) (by rwa [one, Int.one_mul]), one,
      Int.one_mul]
  next overflows =>
    cases answer : powExact.go base e 1 n with
    | none => rfl
    | some r =>
      have exact := go_sound small answer
      rw [one, Int.one_mul] at exact
      exact absurd (exact ▸ fits_toInt r) overflows

theorem powExact_eq (base exp : Int64) :
    powExact base exp = if fitsInt64 (base.toInt ^ exp.toInt.toNat) then
      some (Int64.ofInt (base.toInt ^ exp.toInt.toNat)) else none :=
  go_one_eq base (exponent_lt exp)

end Numeric

namespace Native

open Numeric

theorem numeric_power_int (a b : Int64) (nonneg : 0 ≤ b) (kw : Option HashTable) (blk : Value) :
    numeric .power { self := .int a, args := #[.int b], kw, blk } =
      pure (.done (match powExact a b with
        | some r => .int r
        | none => .ofFloat (Float.power (floatOf (.int a)) (floatOf (.int b))))) := by
  have counted := checkArgs_within { self := .int a, args := #[.int b], kw, blk } 1 1 (by simp)
  cases exact : powExact a b <;>
    simp [numeric, counted, numArg, NativeCall.arg, Value.isNumeric, nonneg, exact]

end Native

open Numeric Native

theorem integer_power_exact_or_double (base exp : Int64) (nonneg : 0 ≤ exp) :
    powExact base exp = (if fitsInt64 (base.toInt ^ exp.toInt.toNat) then
      some (Int64.ofInt (base.toInt ^ exp.toInt.toNat)) else none) ∧
    exp.toInt.toNat < 2 ^ 63 ∧
    (∀ n, exp.toInt.toNat < 2 ^ n → powExact.go base exp.toInt.toNat 1 n = powExact base exp) ∧
    (∀ (kw : Option HashTable) (blk : Value),
      numeric .power { self := .int base, args := #[.int exp], kw, blk } =
        pure (.done (if fitsInt64 (base.toInt ^ exp.toInt.toNat) then
          .int (Int64.ofInt (base.toInt ^ exp.toInt.toNat))
          else .ofFloat (Float.power (floatOf (.int base)) (floatOf (.int exp)))))) := by
  have bits : exp.toInt.toNat < 2 ^ 63 := by
    have := exp.toInt_lt
    omega
  refine ⟨powExact_eq base exp, bits, fun n small => by rw [go_one_eq base small, powExact_eq], ?_⟩
  intro kw blk
  rw [numeric_power_int base exp nonneg, powExact_eq]
  by_cases fits : fitsInt64 (base.toInt ^ exp.toInt.toNat) = true
  · rw [if_pos fits, if_pos fits]
  · rw [if_neg fits, if_neg fits]

example : powExact (-2) 63 = some Int64.minValue ∧ powExact 2 63 = none ∧ powExact 0 0 = some 1 := by
  decide

theorem power_of_minus_two_to_sixty_three :
    (0 : Int64) ≤ 63 ∧
    powExact (-2) 63 = (if fitsInt64 ((-2 : Int64).toInt ^ (63 : Int64).toInt.toNat) then
      some (Int64.ofInt ((-2 : Int64).toInt ^ (63 : Int64).toInt.toNat)) else none) :=
  ⟨by decide, (integer_power_exact_or_double (-2) 63 (by decide)).1⟩

end RegisterVM
