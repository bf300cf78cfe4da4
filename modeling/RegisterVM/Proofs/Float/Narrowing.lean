import Mathlib.Algebra.Order.Field.Power
import Mathlib.Data.Rat.Cast.Order
import Mathlib.Tactic.Linarith
import Mathlib.Tactic.Ring
import RegisterVM.Float.Width

set_option autoImplicit false

namespace RegisterVM.Float.Format

def value (mq : Nat × Int) : ℚ := mq.1 * 2 ^ mq.2

structure Sound (f : Format) : Prop where
  exponent : 2 ≤ f.exponentBits
  precision : 2 ≤ f.precision

theorem half_sound : half.Sound := ⟨by decide, by decide⟩

theorem single_sound : single.Sound := ⟨by decide, by decide⟩

theorem double_sound : double.Sound := ⟨by decide, by decide⟩

section Value

theorem value_eq_zero_iff (mq : Nat × Int) : value mq = 0 ↔ mq.1 = 0 := by
  have : (2 : ℚ) ^ mq.2 ≠ 0 := zpow_ne_zero _ (by norm_num)
  simp [value, this]

theorem value_div_pow {m j : Nat} (q : Int) (dvd : 2 ^ j ∣ m) :
    value (m / 2 ^ j, q + j) = value (m, q) := by
  have two : (2 : ℚ) ≠ 0 := by norm_num
  have whole : (m : ℚ) = ((m / 2 ^ j : Nat) : ℚ) * 2 ^ j := by
    exact_mod_cast (Nat.div_mul_cancel dvd).symm
  simp only [value, zpow_add₀ two, zpow_natCast]
  rw [whole]
  ring

theorem odd_form_unique {m₁ m₂ : Nat} {q₁ q₂ : Int} (odd₁ : m₁ % 2 = 1) (odd₂ : m₂ % 2 = 1)
    (same : value (m₁, q₁) = value (m₂, q₂)) : m₁ = m₂ ∧ q₁ = q₂ := by
  wlog le : q₁ ≤ q₂ generalizing m₁ m₂ q₁ q₂
  · obtain ⟨hm, hq⟩ := this odd₂ odd₁ same.symm (by omega)
    exact ⟨hm.symm, hq.symm⟩
  obtain ⟨d, rfl⟩ : ∃ d : Nat, q₂ = q₁ + d := ⟨(q₂ - q₁).toNat, by omega⟩
  -- scaled to the smaller exponent, the first mantissa is the second times 2^d
  have scaled : m₁ = m₂ * 2 ^ d := by
    have two : (2 : ℚ) ≠ 0 := by norm_num
    simp only [value, zpow_add₀ two, zpow_natCast] at same
    have : (m₁ : ℚ) = m₂ * 2 ^ d := by
      have pos : (2 : ℚ) ^ q₁ ≠ 0 := zpow_ne_zero _ two
      apply mul_right_cancel₀ pos
      rw [same]
      ring
    exact_mod_cast this
  cases d with
  | zero => simp_all
  | succ d =>
    have even : m₁ % 2 = 0 := by rw [scaled, pow_succ, ← Nat.mul_assoc, Nat.mul_mod_left]
    omega

end Value

section Normalize

theorem normalize_go_spec (fuel : Nat) :
    ∀ (m : Nat) (q : Int), 0 < m → m < 2 ^ fuel →
      ∃ j : Nat, normalize.go m q fuel = (m / 2 ^ j, q + j) ∧ 2 ^ j ∣ m ∧ m / 2 ^ j % 2 = 1 := by
  induction fuel with
  | zero => intro m q pos room; simp at room; omega
  | succ fuel ih =>
    intro m q pos room
    by_cases even : m % 2 = 0
    · -- an even mantissa is halved and the search goes on one bit up
      obtain ⟨j, run, dvd, odd⟩ := ih (m / 2) (q + 1) (by omega) (by rw [pow_succ] at room; omega)
      refine ⟨j + 1, ?_, ?_, ?_⟩
      · rw [normalize.go, if_pos (by simp [even]; omega), run, Nat.div_div_eq_div_mul, ← pow_succ']
        congr 1
        push_cast
        ring
      · rw [pow_succ']
        exact Nat.mul_dvd_of_dvd_div (Nat.dvd_of_mod_eq_zero even) dvd
      · rwa [Nat.div_div_eq_div_mul, ← pow_succ'] at odd
    · refine ⟨0, ?_, by simp, by simp; omega⟩
      rw [normalize.go, if_neg (by simp [even])]
      simp

theorem normalize_spec {m : Nat} (q : Int) (pos : 0 < m) :
    ∃ j : Nat, normalize m q = (m / 2 ^ j, q + j) ∧ 2 ^ j ∣ m ∧ m / 2 ^ j % 2 = 1 :=
  normalize_go_spec m m q pos Nat.lt_two_pow_self

theorem normalize_congr {m₁ m₂ : Nat} {q₁ q₂ : Int} (pos₁ : 0 < m₁) (pos₂ : 0 < m₂)
    (same : value (m₁, q₁) = value (m₂, q₂)) : normalize m₁ q₁ = normalize m₂ q₂ := by
  obtain ⟨j₁, norm₁, dvd₁, odd₁⟩ := normalize_spec q₁ pos₁
  obtain ⟨j₂, norm₂, dvd₂, odd₂⟩ := normalize_spec q₂ pos₂
  have kept : value (m₁ / 2 ^ j₁, q₁ + j₁) = value (m₂ / 2 ^ j₂, q₂ + j₂) := by
    rw [value_div_pow q₁ dvd₁, value_div_pow q₂ dvd₂, same]
  obtain ⟨hm, hq⟩ := odd_form_unique odd₁ odd₂ kept
  rw [norm₁, norm₂, hm, hq]

end Normalize

section Fields

theorem mixed_radix {P Q e frac s : Nat} (posP : 0 < P) (he : e < Q) (hf : frac < P) :
    (frac + (e + s * Q) * P) / (Q * P) = s ∧ (frac + (e + s * Q) * P) / P % Q = e ∧
      (frac + (e + s * Q) * P) % P = frac := by
  refine ⟨?_, ?_, ?_⟩
  · have regroup : frac + (e + s * Q) * P = (frac + e * P) + s * (Q * P) := by ring
    have low : frac + e * P < Q * P :=
      calc frac + e * P < P + e * P := by omega
        _ = (e + 1) * P := by ring
        _ ≤ Q * P := Nat.mul_le_mul_right _ he
    rw [regroup, Nat.add_mul_div_right _ _ (Nat.mul_pos (by omega) posP), Nat.div_eq_of_lt low,
      Nat.zero_add]
  · rw [Nat.add_mul_div_right _ _ posP, Nat.div_eq_of_lt hf, Nat.zero_add, Nat.add_mul_mod_self_right,
      Nat.mod_eq_of_lt he]
  · rw [Nat.add_mul_mod_self_right, Nat.mod_eq_of_lt hf]

variable (f : Format)

theorem assemble_eq (negative : Bool) (e frac : Nat) :
    f.assemble negative e frac =
      frac + (e + (if negative then 1 else 0) * 2 ^ f.exponentBits) * 2 ^ f.fractionBits := by
  simp only [assemble, Nat.pow_eq, pow_add]
  split <;> ring

theorem fields_assemble (negative : Bool) {e frac : Nat} (he : e < 2 ^ f.exponentBits)
    (hf : frac < 2 ^ f.fractionBits) : f.fields (f.assemble negative e frac) = (negative, e, frac) := by
  obtain ⟨sign, exponent, fraction⟩ :=
    mixed_radix (s := if negative then 1 else 0) (Nat.two_pow_pos _) he hf
  simp only [fields, Nat.pow_eq, pow_add, assemble_eq, sign, exponent, fraction]
  cases negative <;> rfl

theorem assemble_lt (negative : Bool) {e frac : Nat} (he : e < 2 ^ f.exponentBits)
    (hf : frac < 2 ^ f.fractionBits) : f.assemble negative e frac < 2 ^ (f.exponentBits + f.fractionBits + 1) := by
  have sign : (if negative then 1 else 0) ≤ 1 := by split <;> omega
  rw [assemble_eq, pow_succ, pow_add]
  generalize 2 ^ f.fractionBits = P at *
  generalize 2 ^ f.exponentBits = Q at *
  generalize (if negative then 1 else 0) = s at *
  have top : e + s * Q + 1 ≤ Q * 2 := by nlinarith
  calc frac + (e + s * Q) * P < P + (e + s * Q) * P := by omega
    _ = (e + s * Q + 1) * P := by ring
    _ ≤ (Q * 2) * P := Nat.mul_le_mul_right _ top
    _ = Q * P * 2 := by ring

theorem assemble_fields {bits : Nat} (fits : bits < 2 ^ (f.exponentBits + f.fractionBits + 1)) :
    f.assemble (f.fields bits).1 (f.fields bits).2.1 (f.fields bits).2.2 = bits := by
  have posP : 0 < 2 ^ f.fractionBits := Nat.two_pow_pos _
  have posQ : 0 < 2 ^ f.exponentBits := Nat.two_pow_pos _
  rw [pow_succ, pow_add] at fits
  simp only [fields, assemble, Nat.pow_eq, pow_add]
  generalize 2 ^ f.fractionBits = P at *
  generalize 2 ^ f.exponentBits = Q at *
  have sign : bits / (Q * P) < 2 := by
    rw [Nat.div_lt_iff_lt_mul (Nat.mul_pos posQ posP)]
    linarith
  -- the bits in mixed radix: fraction, exponent, sign
  have digits : bits = bits % P + (bits / P % Q + bits / (Q * P) * Q) * P := by
    have low := Nat.mod_add_div bits P
    have high := Nat.mod_add_div (bits / P) Q
    rw [Nat.div_div_eq_div_mul, Nat.mul_comm P Q] at high
    calc bits = bits % P + P * (bits / P) := low.symm
      _ = bits % P + P * (bits / P % Q + Q * (bits / (Q * P))) := by rw [high]
      _ = bits % P + (bits / P % Q + bits / (Q * P) * Q) * P := by ring
  obtain zero | one : bits / (Q * P) = 0 ∨ bits / (Q * P) = 1 := by
    generalize bits / (Q * P) = k at sign
    omega
  · rw [zero] at digits ⊢
    simp only [Nat.zero_mod, Nat.zero_ne_one, beq_iff_eq, if_false]
    linarith
  · rw [one] at digits ⊢
    simp only [Nat.one_mod, beq_self_eq_true, if_true]
    linarith

end Fields

section Represent

variable {f : Format}

theorem bias_pos (sound : f.Sound) : 1 ≤ f.bias := by
  have : 2 ≤ 2 ^ (f.exponentBits - 1) :=
    Nat.le_self_pow (by have := sound.exponent; omega) 2
  simp only [bias, Nat.pow_eq]
  omega

theorem topExponent_eq (sound : f.Sound) : f.topExponent = 2 * f.bias + 1 := by
  have exp : 2 ^ f.exponentBits = 2 * 2 ^ (f.exponentBits - 1) := by
    rw [← pow_succ']
    congr 1
    have := sound.exponent
    omega
  have : 1 ≤ 2 ^ (f.exponentBits - 1) := Nat.one_le_two_pow
  simp only [topExponent, bias, Nat.pow_eq]
  omega

theorem precision_eq (sound : f.Sound) : f.precision = f.fractionBits + 1 := by
  have := sound.precision
  simp only [fractionBits]
  omega

theorem represent?_of_normalize (negative : Bool) {m m' : Nat} {q q' : Int} (pos : 0 < m)
    (norm : normalize m q = (m', q')) :
    f.represent? negative m q =
      if q' + (Nat.log2 m' + 1 : Nat) - 1 > f.bias ∨ q' < 1 - (f.bias : Int) - f.fractionBits ∨
          Nat.log2 m' + 1 > f.precision then none
      else if q' + (Nat.log2 m' + 1 : Nat) - 1 ≥ 1 - (f.bias : Int) then
        some (f.assemble negative (q' + (Nat.log2 m' + 1 : Nat) - 1 + f.bias).toNat
          (m' * 2 ^ (f.precision - (Nat.log2 m' + 1)) - 2 ^ f.fractionBits))
      else some (f.assemble negative 0 (m' * 2 ^ (q' - (1 - (f.bias : Int) - f.fractionBits)).toNat)) := by
  rw [represent?, if_neg (by simp; omega), norm]
  simp only [Nat.pow_eq]

theorem log2_bounds {m : Nat} (pos : 0 < m) : 2 ^ Nat.log2 m ≤ m ∧ m < 2 ^ (Nat.log2 m + 1) :=
  ⟨Nat.log2_self_le (by omega), Nat.lt_log2_self⟩

theorem represent?_congr (negative : Bool) {m₁ m₂ : Nat} {q₁ q₂ : Int}
    (same : value (m₁, q₁) = value (m₂, q₂)) :
    f.represent? negative m₁ q₁ = f.represent? negative m₂ q₂ := by
  by_cases zero₁ : m₁ = 0
  · have zero₂ : m₂ = 0 := by
      have := (value_eq_zero_iff (m₁, q₁)).mpr zero₁
      rw [same, value_eq_zero_iff] at this
      exact this
    simp [represent?, zero₁, zero₂]
  · have zero₂ : m₂ ≠ 0 := fun zero₂ => zero₁ (by
      have := (value_eq_zero_iff (m₂, q₂)).mpr zero₂
      rw [← same, value_eq_zero_iff] at this
      exact this)
    have norm := normalize_congr (by omega) (by omega) same
    rw [represent?_of_normalize negative (Nat.pos_of_ne_zero zero₁) norm,
      represent?_of_normalize negative (Nat.pos_of_ne_zero zero₂) rfl]

theorem log2_mul_two_pow {m : Nat} (j : Nat) (pos : 0 < m) :
    Nat.log2 (m * 2 ^ j) = Nat.log2 m + j := by
  have ne : m * 2 ^ j ≠ 0 := Nat.mul_ne_zero (by omega) (Nat.two_pow_pos j).ne'
  apply Nat.le_antisymm
  · have below : m * 2 ^ j < 2 ^ (Nat.log2 m + j + 1) := by
      rw [show Nat.log2 m + j + 1 = (Nat.log2 m + 1) + j by omega, pow_add]
      exact Nat.mul_lt_mul_of_pos_right Nat.lt_log2_self (Nat.two_pow_pos j)
    have := (Nat.log2_lt ne).mpr below
    omega
  · rw [Nat.le_log2 ne, pow_add]
    exact Nat.mul_le_mul_right _ (Nat.log2_self_le (by omega))

theorem value_scaled (m k : Nat) (r : Int) : value (m * 2 ^ k, r) = value (m, r + k) := by
  have two : (2 : ℚ) ≠ 0 := by norm_num
  simp only [value, Nat.cast_mul, Nat.cast_pow, Nat.cast_ofNat, zpow_add₀ two, zpow_natCast]
  ring

theorem represent?_spec (sound : f.Sound) {negative : Bool} {m : Nat} {q : Int} {n : Nat}
    (produced : f.represent? negative m q = some n) :
    ∃ e frac, n = f.assemble negative e frac ∧ e < f.topExponent ∧ frac < 2 ^ f.fractionBits ∧
      value (f.finite e frac) = value (m, q) := by
  have biasPos := bias_pos sound
  have top := topExponent_eq sound
  have prec := precision_eq sound
  by_cases zero : m = 0
  · subst zero
    simp only [represent?, beq_self_eq_true, if_true, Option.some.injEq] at produced
    refine ⟨0, 0, produced.symm, by omega, Nat.two_pow_pos _, ?_⟩
    simp [finite, value]
  obtain ⟨j, norm, dvd, odd⟩ := normalize_spec q (Nat.pos_of_ne_zero zero)
  rw [represent?_of_normalize negative (Nat.pos_of_ne_zero zero) norm] at produced
  have kept : value (m / 2 ^ j, q + j) = value (m, q) := value_div_pow q dvd
  generalize m / 2 ^ j = m' at produced kept odd
  have pos : 0 < m' := by omega
  obtain ⟨lo, hi⟩ := log2_bounds pos
  generalize Nat.log2 m' = l at produced lo hi
  split_ifs at produced with bad normal <;> simp only [Option.some.injEq] at produced
  · -- a normal number: the leading bit is hidden and the exponent field is biased
    obtain ⟨k, hk⟩ : ∃ k, f.precision - (l + 1) = k := ⟨_, rfl⟩
    rw [hk] at produced
    have shift : l + k = f.fractionBits := by omega
    have above : 2 ^ f.fractionBits ≤ m' * 2 ^ k := by
      rw [← shift, pow_add]
      exact Nat.mul_le_mul_right _ lo
    have below : m' * 2 ^ k < 2 * 2 ^ f.fractionBits := by
      calc m' * 2 ^ k < 2 ^ (l + 1) * 2 ^ k := Nat.mul_lt_mul_of_pos_right hi (Nat.two_pow_pos k)
        _ = 2 * 2 ^ f.fractionBits := by rw [← pow_add, ← pow_succ']; congr 1; omega
    refine ⟨_, _, produced.symm, by omega, by omega, ?_⟩
    rw [finite, if_neg (by simp; omega), Nat.pow_eq, Nat.sub_add_cancel above, value_scaled, ← kept]
    congr 2
    omega
  · -- a subnormal number: the exponent field is zero and the fraction carries the scale
    refine ⟨_, _, produced.symm, by omega, ?_, ?_⟩
    · calc m' * 2 ^ (q + j - (1 - (f.bias : Int) - f.fractionBits)).toNat
          < 2 ^ (l + 1) * 2 ^ (q + j - (1 - (f.bias : Int) - f.fractionBits)).toNat :=
            Nat.mul_lt_mul_of_pos_right hi (Nat.two_pow_pos _)
        _ ≤ 2 ^ f.fractionBits := by
            rw [← pow_add]
            exact Nat.pow_le_pow_right (by norm_num) (by omega)
    · rw [finite, if_pos (beq_self_eq_true 0), value_scaled, ← kept]
      congr 2
      omega

theorem represent?_finite (sound : f.Sound) (negative : Bool) {e frac : Nat} (he : e < f.topExponent)
    (hf : frac < 2 ^ f.fractionBits) :
    f.represent? negative (f.finite e frac).1 (f.finite e frac).2 = some (f.assemble negative e frac) := by
  have biasPos := bias_pos sound
  have top := topExponent_eq sound
  have prec := precision_eq sound
  by_cases subnormal : e = 0
  · subst subnormal
    by_cases zero : frac = 0
    · subst zero
      simp [finite, represent?]
    simp only [finite, beq_self_eq_true, if_true]
    obtain ⟨j, norm, dvd, odd⟩ := normalize_spec (1 - (f.bias : Int) - f.fractionBits) (Nat.pos_of_ne_zero zero)
    rw [represent?_of_normalize negative (Nat.pos_of_ne_zero zero) norm]
    have whole : frac / 2 ^ j * 2 ^ j = frac := Nat.div_mul_cancel dvd
    generalize frac / 2 ^ j = m' at whole odd
    -- the fraction is below the hidden bit, so its bit length stays under the fraction width
    have length : Nat.log2 m' + j < f.fractionBits := by
      rw [← log2_mul_two_pow j (by omega), whole]
      exact (Nat.log2_lt zero).mpr hf
    rw [if_neg (by omega), if_neg (by omega)]
    congr 2
    rw [← whole]
    congr 2
    omega
  · simp only [finite, beq_iff_eq, subnormal, if_false, Nat.pow_eq]
    have wide : 0 < frac + 2 ^ f.fractionBits := by positivity
    obtain ⟨j, norm, dvd, odd⟩ := normalize_spec ((e : Int) - f.bias - f.fractionBits) wide
    rw [represent?_of_normalize negative wide norm]
    have whole : (frac + 2 ^ f.fractionBits) / 2 ^ j * 2 ^ j = frac + 2 ^ f.fractionBits :=
      Nat.div_mul_cancel dvd
    generalize (frac + 2 ^ f.fractionBits) / 2 ^ j = m' at whole odd
    -- with the hidden bit the significand has exactly the format's precision
    have length : Nat.log2 m' + j = f.fractionBits := by
      rw [← log2_mul_two_pow j (by omega), whole]
      apply Nat.le_antisymm
      · exact Nat.lt_succ_iff.mp ((Nat.log2_lt wide.ne').mpr (by rw [pow_succ]; omega))
      · exact (Nat.le_log2 wide.ne').mpr (by omega)
    rw [if_neg (by omega), if_pos (by omega)]
    congr 2
    · omega
    · rw [show f.precision - (Nat.log2 m' + 1) = j by omega, whole]
      omega

end Represent

section Widen

theorem fields_bounds (f : Format) (bits : Nat) :
    (f.fields bits).2.1 < 2 ^ f.exponentBits ∧ (f.fields bits).2.2 < 2 ^ f.fractionBits :=
  ⟨by simp only [fields, Nat.pow_eq]; exact Nat.mod_lt _ (Nat.two_pow_pos _),
   by simp only [fields, Nat.pow_eq]; exact Nat.mod_lt _ (Nat.two_pow_pos _)⟩

theorem double_assemble_fields (x : UInt64) :
    double.assemble (double.fields x.toNat).1 (double.fields x.toNat).2.1 (double.fields x.toNat).2.2 =
      x.toNat :=
  double.assemble_fields (by have := UInt64.toNat_lt x; simp only [double, fractionBits]; omega)

theorem widen_narrow {f : Format} (sound : f.Sound) {x : UInt64} {n : Nat}
    (narrowed : f.narrow? x = some n) : f.widen n = x := by
  have restore := double_assemble_fields x
  obtain ⟨eBound, fracBound⟩ := fields_bounds double x.toNat
  unfold narrow? at narrowed
  generalize double.fields x.toNat = fx at narrowed restore eBound fracBound
  obtain ⟨negative, e, frac⟩ := fx
  dsimp only at narrowed restore eBound fracBound
  -- infinities and NaNs are not narrowed, so the double is finite
  split_ifs at narrowed with notFinite
  have finiteE : e < double.topExponent := by
    simp only [beq_iff_eq] at notFinite
    simp only [topExponent, Nat.pow_eq] at notFinite ⊢
    omega
  have again := represent?_finite double_sound negative finiteE fracBound
  generalize double.finite e frac = mq at narrowed again
  obtain ⟨m, q⟩ := mq
  obtain ⟨e', frac', rfl, finiteE', fracBound', same⟩ := represent?_spec sound narrowed
  have eBound' : e' < 2 ^ f.exponentBits := by
    simp only [topExponent, Nat.pow_eq] at finiteE'
    omega
  -- the narrow bits decode to a finite value equal to the double's
  unfold widen
  rw [fields_assemble f negative eBound' fracBound']
  dsimp only
  rw [if_neg (by simp only [beq_iff_eq]; omega)]
  generalize f.finite e' frac' = mq' at same
  obtain ⟨m', q'⟩ := mq'
  dsimp only
  rw [represent?_congr negative same, again, Option.getD_some, restore]
  simp

theorem narrow?_lt {f : Format} (sound : f.Sound) {x : UInt64} {n : Nat} (narrowed : f.narrow? x = some n) :
    n < 2 ^ (f.exponentBits + f.fractionBits + 1) := by
  unfold narrow? at narrowed
  generalize double.fields x.toNat = fx at narrowed
  obtain ⟨negative, e, frac⟩ := fx
  dsimp only at narrowed
  split_ifs at narrowed
  generalize double.finite e frac = mq at narrowed
  obtain ⟨e', frac', rfl, finiteE', fracBound', -⟩ := represent?_spec sound narrowed
  have eBound' : e' < 2 ^ f.exponentBits := by
    simp only [topExponent, Nat.pow_eq] at finiteE'
    omega
  exact assemble_lt f negative eBound' fracBound'

theorem widen_half_infinity {x : UInt64} (top : (double.fields x.toNat).2.1 = double.topExponent)
    (zero : (double.fields x.toNat).2.2 = 0) :
    half.widen (if (double.fields x.toNat).1 then 0xfc00 else 0x7c00) = x := by
  have restore := double_assemble_fields x
  rw [top, zero] at restore
  generalize (double.fields x.toNat).1 = negative at restore ⊢
  have widened : half.widen (if negative then 0xfc00 else 0x7c00) =
      (double.assemble negative double.topExponent 0).toUInt64 := by
    cases negative <;> decide
  rw [widened, restore]
  simp

end Widen

end RegisterVM.Float.Format
