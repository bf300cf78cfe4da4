import RegisterVM.Float.Exponential

set_option autoImplicit false

namespace RegisterVM.Float

def signBit (x : Float) : Bool := x.toBits >>> 63 == 1

def withSignOf (x s : Float) : Float :=
  Float.ofBits ((x.toBits &&& 0x7fffffffffffffff) ||| (s.toBits &&& 0x8000000000000000))

def trunc (x : Float) : Float := if x < 0 then x.ceil else x.floor

def remainder (x y : Float) : Float :=
  if y == 0 || x.isInf || x.isNaN || y.isNaN then nan
  else if y.isInf then x
  else
    let (neg, ma, qa) := split x
    let (_, mb, qb) := split y
    let e := min qa qb
    let a := ma * Nat.pow 2 (qa - e).toNat
    let b := mb * Nat.pow 2 (qb - e).toNat
    -- the remainder is below both mantissas' scale, so it is exact as a double
    let r := (Float.ofNat (a % b)).scaleB e
    if neg then -r else r

def isOddInt (x : Float) : Bool :=
  if x.abs >= 9007199254740992 then false
  else
    let xi := trunc x
    x - xi == 0 && (xi.abs.toUInt64 % 2 == 1)

def powBySquares (x1 : Float) (xe : Int) (i : Nat) (a1 : Float) (ae : Int) : Nat → Float × Int
  | 0 => (a1, ae)
  | fuel + 1 =>
    if i == 0 then (a1, ae)
    else if xe < -4096 || 4096 < xe then (a1, ae + xe)
    else
      let (a1, ae) := if i % 2 == 1 then (a1 * x1, ae + xe) else (a1, ae)
      let x1 := x1 * x1
      let xe := xe * 2
      let (x1, xe) := if x1 < 0.5 then (x1 + x1, xe - 1) else (x1, xe)
      powBySquares x1 xe (i / 2) a1 ae fuel

def power (x y : Float) : Float :=
  if y == 0 || x == 1 then 1
  else if y == 1 then x
  else if x.isNaN || y.isNaN then nan
  else if x == 0 then
    if y < 0 then (if signBit x && isOddInt y then -(1 / 0) else 1 / 0)
    else if signBit x && isOddInt y then x else 0
  else if y.isInf then
    if x == -1 then 1
    else if (x.abs < 1) == (y > 0) then 0
    else 1 / 0
  else if x.isInf then
    if x < 0 then
      -- the power of the reciprocal, a signed zero
      let z : Float := 1 / x
      if y > 0 then (if isOddInt (-y) then -(1 / 0) else 1 / 0)
      else if isOddInt (-y) then z else 0
    else if y < 0 then 0 else 1 / 0
  else if y == 0.5 then x.sqrt
  else if y == -0.5 then 1 / x.sqrt
  else
    let ay := y.abs
    let yi := trunc ay
    let yf := ay - yi
    if yf != 0 && x < 0 then nan
    else if yi >= 9223372036854775808 then
      if x == -1 then 1
      else if (x.abs < 1) == (y > 0) then 0
      else 1 / 0
    else
      let (yi, a1) :=
        if yf != 0 then
          let (yf, yi) := if yf > 0.5 then (yf - 1, yi + 1) else (yf, yi)
          (yi, exponential (yf * logarithm x))
        else (yi, 1)
      let (x1, xe) := x.frExp
      let (a1, ae) := powBySquares x1 xe yi.toUInt64.toNat a1 0 64
      let (a1, ae) := if y < 0 then (1 / a1, -ae) else (a1, ae)
      a1.scaleB ae

end RegisterVM.Float
