import RegisterVM.Float.Text

set_option autoImplicit false

namespace RegisterVM.Float

def nan : Float := Float.ofBits nanBits

def infinity : Float := Float.ofBits (infinityBits false)

def split (x : Float) : Bool × Nat × Int :=
  let b := Bits.ofUInt64 x.toBits
  let (m, q) := b.mantissa
  (b.negative, m, q)

def signedParts (x : Float) : Int × Int :=
  let (neg, m, q) := split x
  (if neg then -(m : Int) else m, q)

def nearestScaled (n : Nat) (e : Int) : Float :=
  if n < Nat.pow 2 53 then (Float.ofNat n).scaleB e
  else
    let shift := Nat.log2 n - 52
    let q := n / Nat.pow 2 shift
    let rest := n % Nat.pow 2 shift
    let half := Nat.pow 2 (shift - 1)
    let q := if rest > half || (rest == half && q % 2 == 1) then q + 1 else q
    (Float.ofNat q).scaleB (e + shift)

def fusedMulAdd (a b c : Float) : Float :=
  if !a.isFinite || !b.isFinite || !c.isFinite || a == 0 || b == 0 || c == 0 then a * b + c
  else
    let (ma, ea) := signedParts a
    let (mb, eb) := signedParts b
    let (mc, ec) := signedParts c
    let ep := ea + eb
    let e := min ep ec
    let n := ma * mb * Int.pow 2 (ep - e).toNat + mc * Int.pow 2 (ec - e).toNat
    let r := nearestScaled n.natAbs e
    if n < 0 then -r else r

def roundHalfEven (t : Float) : Float :=
  let f := t.floor
  let d := t - f
  if d < 0.5 then f
  else if d > 0.5 then f + 1
  else if (f / 2).floor * 2 == f then f
  else f + 1

def log2E : Float := Float.ofBits 0x3ff71547652b82fe

def ln2Upper : Float := Float.ofBits 0x3fe62e42fefa3000

def ln2Lower : Float := Float.ofBits 0x3d53de6af278ece6

def expOverflow : Float := Float.ofBits 0x40862e42fefa39ef

def expMinusOne (r : Float) : Float :=
  let p := fusedMulAdd (Float.ofBits 0x3efa01a01a01a01a) r (Float.ofBits 0x3f2a01a01a01a01a)
  let p := fusedMulAdd p r (Float.ofBits 0x3f56c16c16c16c17)
  let p := fusedMulAdd p r (Float.ofBits 0x3f81111111111111)
  let p := fusedMulAdd p r (Float.ofBits 0x3fa5555555555555)
  let p := fusedMulAdd p r (Float.ofBits 0x3fc5555555555555)
  let p := fusedMulAdd p r 0.5
  let p := fusedMulAdd p r 1
  p * r

def doubled (p : Float) : Float := (2 + p) * p

def exponential (x : Float) : Float :=
  if x.isNaN then x
  else if x.isInf then (if x > 0 then x else 0)
  else if x > expOverflow then infinity
  else
    let kf := roundHalfEven (log2E * x)
    let k := kf.toInt64.toInt
    if k ≥ 1024 then infinity
    else if k < -1075 then 0
    else
      let r := fusedMulAdd (-kf) ln2Upper x
      let r := fusedMulAdd (-kf) ln2Lower r
      let p := doubled (doubled (doubled (expMinusOne (r * 0.0625))))
      (fusedMulAdd (2 + p) p 1).scaleB k

def ln2High : Float := Float.ofBits 0x3fe62e42fee00000

def ln2Low : Float := Float.ofBits 0x3dea39ef35793c76

def halfSqrt2 : Float := Float.ofBits 0x3fe6a09e667f3bcd

def fractionAndExponent (x : Float) : Float × Int :=
  let bits := x.toBits
  let fraction := Float.ofBits ((bits &&& 0x000FFFFFFFFFFFFF) ||| 0x3FE0000000000000)
  (fraction, (((bits >>> 52) &&& 0x7FF).toNat : Int) - 1022)

def logarithm (x : Float) : Float :=
  if x.isNaN || x.isInf && x > 0 then x
  else if x < 0 then nan
  else if x == 0 then -infinity
  else
    let (f1, ki) := fractionAndExponent x
    let (f1, ki) := if f1 ≤ halfSqrt2 then (f1 * 2, ki - 1) else (f1, ki)
    let f := f1 - 1
    let k := Float.ofInt ki
    let s := f / (2 + f)
    let s2 := s * s
    let s4 := s2 * s2
    let t1 := s2 * (Float.ofBits 0x3fe5555555555593 + s4 * (Float.ofBits 0x3fd2492494229359 +
      s4 * (Float.ofBits 0x3fc7466496cb03de + s4 * Float.ofBits 0x3fc2f112df3e5244)))
    let t2 := s4 * (Float.ofBits 0x3fd999999997fa04 + s4 * (Float.ofBits 0x3fcc71c51d8e78af +
      s4 * Float.ofBits 0x3fc39a09d078c69f))
    let r := t1 + t2
    let hfsq := 0.5 * f * f
    k * ln2High - ((hfsq - (s * (hfsq + r) + k * ln2Low)) - f)

end RegisterVM.Float
