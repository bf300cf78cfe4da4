
set_option autoImplicit false

namespace RegisterVM.Float

structure Bits where
  negative : Bool
  exponent : Nat
  fraction : Nat

def Bits.ofUInt64 (b : UInt64) : Bits :=
  { negative := b >>> 63 == 1
    exponent := ((b >>> 52) &&& 0x7ff).toNat
    fraction := (b &&& 0xfffffffffffff).toNat }

def Bits.isSpecial (b : Bits) : Bool := b.exponent == 0x7ff

def Bits.mantissa (b : Bits) : Nat × Int :=
  if b.exponent == 0 then (b.fraction, -1074)
  else (b.fraction + Nat.pow 2 52, (b.exponent : Int) - 1075)

structure Decimal where
  digits : Nat
  exponent : Int
deriving DecidableEq

def digitCount (n : Nat) : Nat := (Nat.toDigits 10 n).length

def gridRange (l h den : Nat) (closed : Bool) : Nat × Nat :=
  let lo := if closed then (l + den - 1) / den else l / den + 1
  let hi := if closed then h / den else if h % den == 0 then h / den - 1 else h / den
  (lo, hi)

def nearestOnGrid (a den lo hi : Nat) : Nat :=
  let q := a / den
  let r := a % den
  let c :=
    if 2 * r < den then q
    else if 2 * r > den then q + 1
    else if q % 2 == 0 then q else q + 1
  if c < lo then lo else if c > hi then hi else c

def searchGrids (m : Nat) (q : Int) (g : Nat) (closed : Bool) : Nat → Int → Decimal
  | 0, e => { digits := m, exponent := e }
  | fuel + 1, e =>
    let up := Nat.pow 2 q.toNat
    let down := Nat.pow 2 (-q).toNat
    let ten := Nat.pow 10 e.toNat
    let tenInv := Nat.pow 10 (-e).toNat
    -- value = num / den, with the grid scale folded into both
    let num (k : Nat) := k * up * tenInv
    let den := 4 * down * ten
    let (lo, hi) := gridRange (num (4 * m - g)) (num (4 * m + 2)) den closed
    if lo ≤ hi then
      let d := nearestOnGrid (num (4 * m)) den lo hi
      { digits := d, exponent := e }
    else searchGrids m q g closed fuel (e - 1)

def shortest (b : Bits) : Decimal :=
  let (m, q) := b.mantissa
  -- the gap below is half as wide at the bottom of a binade
  let g := if b.fraction == 0 && b.exponent > 1 then 1 else 2
  let closed := m % 2 == 0
  -- an exponent above the value's decimal magnitude
  let top : Int := ((q + 54) * 30103) / 100000 + 2
  searchGrids m q g closed 64 top

def Decimal.layout (d : Decimal) : String × Int :=
  let s := String.ofList (Nat.toDigits 10 d.digits)
  (s, s.length + d.exponent)

end RegisterVM.Float
