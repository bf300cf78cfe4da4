import RegisterVM.Float.Shortest
import RegisterVM.Text.Decimal

set_option autoImplicit false

namespace RegisterVM.Float

open RegisterVM.Text

def positionalOf (digits : String) (point : Int) : String :=
  let ds := digits.toList
  if point ≤ 0 then
    String.ofList ('0' :: '.' :: (List.replicate (-point).toNat '0' ++ ds))
  else if point.toNat ≥ ds.length then
    String.ofList (ds ++ List.replicate (point.toNat - ds.length) '0')
  else
    String.ofList (ds.take point.toNat ++ '.' :: ds.drop point.toNat)

def scientificOf (digits : String) (point : Int) : String :=
  let ds := digits.toList
  let mant := match ds with
    | [] => "0"
    | [d] => String.ofList [d]
    | d :: rest => String.ofList (d :: '.' :: rest)
  let exp := point - 1
  let sign := if exp < 0 then "-" else "+"
  let mag := natText exp.natAbs
  let mag := if mag.length < 2 then "0" ++ mag else mag
  mant ++ "e" ++ sign ++ mag

def digitsOf (b : Bits) : String × Int :=
  if b.exponent == 0 && b.fraction == 0 then ("0", 1) else (shortest b).layout

def positional (x : UInt64) : String :=
  let b := Bits.ofUInt64 x
  let (ds, p) := digitsOf b
  (if b.negative then "-" else "") ++ positionalOf ds p

def scientific (x : UInt64) : String :=
  let b := Bits.ofUInt64 x
  let (ds, p) := digitsOf b
  (if b.negative then "-" else "") ++ scientificOf ds p

def isNaN (x : UInt64) : Bool :=
  let b := Bits.ofUInt64 x
  b.isSpecial && b.fraction != 0

def isInfinite (x : UInt64) : Bool :=
  let b := Bits.ofUInt64 x
  b.isSpecial && b.fraction == 0

def general (x : UInt64) : String :=
  let b := Bits.ofUInt64 x
  if isNaN x then "NaN"
  else if isInfinite x then (if b.negative then "-Inf" else "+Inf")
  else
    let (ds, p) := digitsOf b
    let sign := if b.negative then "-" else ""
    let exp := p - 1
    if exp < -4 ∨ exp ≥ 6 then sign ++ scientificOf ds p else sign ++ positionalOf ds p

def inspect (x : UInt64) : String :=
  let b := Bits.ofUInt64 x
  if isNaN x then "NaN"
  else if isInfinite x then (if b.negative then "-Infinity" else "Infinity")
  else
    let f := Float.ofBits x
    let a := Float.abs f
    if a == 0 ∨ (a ≥ 1e-4 ∧ a < 1e16) then
      let s := positional x
      if s.toList.contains '.' then s else s ++ ".0"
    else
      let s := scientific x
      match s.splitOn "e" with
      | [mant, exp] => (if mant.toList.contains '.' then mant else mant ++ ".0") ++ "e" ++ exp
      | _ => s

def nanBits : UInt64 := 0x7ff8000000000001

def infinityBits (negative : Bool) : UInt64 :=
  if negative then 0xfff0000000000000 else 0x7ff0000000000000

def ofDecimal (negative : Bool) (m : Nat) (e : Int) : UInt64 :=
  let magnitude : Int := e + (Nat.toDigits 10 m).length
  let f :=
    if m == 0 ∨ magnitude < -400 then 0
    else if magnitude > 400 then Float.ofScientific 1 false 400
    else if e < 0 then Float.ofScientific m true (-e).toNat
    else Float.ofScientific m false e.toNat
  let f := if negative then -f else f
  f.toBits

def readDecimal (cs : List Char) : Option (Nat × Int) :=
  let intPart := cs.takeWhile Char.isDigit
  let rest := cs.dropWhile Char.isDigit
  let (fracPart, rest) := match rest with
    | '.' :: r => (r.takeWhile Char.isDigit, r.dropWhile Char.isDigit)
    | _ => ([], rest)
  if intPart.isEmpty ∧ fracPart.isEmpty then none else
  let mant := (intPart ++ fracPart).foldl (fun n c => n * 10 + (c.toNat - 48)) 0
  let exp : Option Int := match rest with
    | [] => some 0
    | c :: r =>
      if c == 'e' ∨ c == 'E' then
        let (neg, ds) := match r with
          | '-' :: ds => (true, ds)
          | '+' :: ds => (false, ds)
          | ds => (false, ds)
        if ds.isEmpty ∨ !ds.all Char.isDigit then none else
        let n : Int := ds.foldl (fun n c => n * 10 + (c.toNat - 48)) 0
        some (if neg then -n else n)
      else none
  exp.map fun x => (mant, x - fracPart.length)

def parse? (s : String) : Option UInt64 :=
  let cs := s.toList
  let (negative, body) := match cs with
    | '-' :: r => (true, r)
    | '+' :: r => (false, r)
    | r => (false, r)
  let word := String.ofList (body.map Char.toLower)
  if word == "inf" ∨ word == "infinity" then some (infinityBits negative)
  else if word == "nan" then (if cs.length == body.length then some nanBits else none)
  else (readDecimal body).map fun (m, e) => ofDecimal negative m e

end RegisterVM.Float
