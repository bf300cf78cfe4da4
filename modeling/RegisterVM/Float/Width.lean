
set_option autoImplicit false

namespace RegisterVM.Float

structure Format where
  precision : Nat
  exponentBits : Nat

namespace Format

def half : Format := ⟨11, 5⟩

def single : Format := ⟨24, 8⟩

def double : Format := ⟨53, 11⟩

def bias (f : Format) : Nat := Nat.pow 2 (f.exponentBits - 1) - 1

def fractionBits (f : Format) : Nat := f.precision - 1

def topExponent (f : Format) : Nat := Nat.pow 2 f.exponentBits - 1

def fields (f : Format) (bits : Nat) : Bool × Nat × Nat :=
  (bits / Nat.pow 2 (f.exponentBits + f.fractionBits) % 2 == 1,
   bits / Nat.pow 2 f.fractionBits % Nat.pow 2 f.exponentBits,
   bits % Nat.pow 2 f.fractionBits)

def finite (f : Format) (exponent fraction : Nat) : Nat × Int :=
  if exponent == 0 then (fraction, 1 - (f.bias : Int) - f.fractionBits)
  else (fraction + Nat.pow 2 f.fractionBits, (exponent : Int) - f.bias - f.fractionBits)

def assemble (f : Format) (negative : Bool) (exponent fraction : Nat) : Nat :=
  (if negative then Nat.pow 2 (f.exponentBits + f.fractionBits) else 0) +
    exponent * Nat.pow 2 f.fractionBits + fraction

def normalize (m : Nat) (q : Int) : Nat × Int :=
  go m q m
where
  go (m : Nat) (q : Int) : Nat → Nat × Int
    | 0 => (m, q)
    | fuel + 1 => if m != 0 && m % 2 == 0 then go (m / 2) (q + 1) fuel else (m, q)

def represent? (f : Format) (negative : Bool) (m : Nat) (q : Int) : Option Nat :=
  if m == 0 then some (f.assemble negative 0 0) else
  let (m, q) := normalize m q
  let len := Nat.log2 m + 1
  let top : Int := q + len - 1
  let emin : Int := 1 - (f.bias : Int)
  if top > f.bias ∨ q < emin - f.fractionBits ∨ len > f.precision then none
  else if top ≥ emin then
    some (f.assemble negative (top + f.bias).toNat (m * Nat.pow 2 (f.precision - len) - Nat.pow 2 f.fractionBits))
  else
    some (f.assemble negative 0 (m * Nat.pow 2 (q - (emin - f.fractionBits)).toNat))

def widen (f : Format) (bits : Nat) : UInt64 :=
  let (negative, e, frac) := f.fields bits
  if e == f.topExponent then
    let payload := frac * Nat.pow 2 (double.fractionBits - f.fractionBits)
    if frac == 0 then (double.assemble negative double.topExponent 0).toUInt64
    else (double.assemble negative double.topExponent (payload ||| Nat.pow 2 (double.fractionBits - 1))).toUInt64
  else
    let (m, q) := f.finite e frac
    ((double.represent? negative m q).getD 0).toUInt64

def narrow? (f : Format) (x : UInt64) : Option Nat :=
  let (negative, e, frac) := double.fields x.toNat
  if e == double.topExponent then none
  else
    let (m, q) := double.finite e frac
    f.represent? negative m q

end Format

end RegisterVM.Float
