import RegisterVM.Value
import RegisterVM.Object.Primitive

set_option autoImplicit false

namespace RegisterVM

def ArithOp.symbol : ArithOp → String
  | .add => "+" | .sub => "-" | .mul => "*" | .div => "/" | .eq => "==" | .lt => "<"
  | .le => "<=" | .gt => ">" | .ge => ">="

namespace Numeric

inductive ArithResult where
  | value (v : Value)
  | zeroDivision
  | fallback
deriving DecidableEq, Repr, Inhabited

def toDouble (n : Int64) : Float := Float.ofInt n.toInt

def floorDiv (a b : Int64) : Int64 :=
  let q := a / b
  if a % b != 0 && ((a < 0) != (b < 0)) then q - 1 else q

def floorMod (a b : Int64) : Int64 :=
  let m := a % b
  if m != 0 && ((m < 0) != (b < 0)) then m + b else m

def addOverflows (a b : Int64) : Bool := (a + b > a) != (b > 0)

def subOverflows (a b : Int64) : Bool := (a - b < a) != (b > 0)

def mulExact (a b : Int64) : Option Int64 :=
  if a == 0 || b == 0 then some 0
  else
    let r := a * b
    if r / b != a || (a == -1 && b == Int64.minValue) || (b == -1 && a == Int64.minValue) then none
    else some r

def powExact (base exp : Int64) : Option Int64 :=
  go base exp.toInt.toNat 1 64
where
  go (base : Int64) (exp : Nat) (acc : Int64) : Nat → Option Int64
    | 0 => some acc
    | fuel + 1 =>
      if exp == 0 then some acc
      else
        let acc? := if exp % 2 == 1 then mulExact acc base else some acc
        match acc? with
        | none => none
        | some acc =>
          let exp := exp / 2
          if exp == 0 then some acc
          else match mulExact base base with
            | none => none
            | some base => go base exp acc fuel

def intArith (op : ArithOp) (a b : Int64) : ArithResult :=
  match op with
  | .add => if addOverflows a b then .value (.ofFloat (toDouble a + toDouble b)) else .value (.int (a + b))
  | .sub => if subOverflows a b then .value (.ofFloat (toDouble a - toDouble b)) else .value (.int (a - b))
  | .mul =>
    match mulExact a b with
    | some r => .value (.int r)
    | none => .value (.ofFloat (toDouble a * toDouble b))
  | .div =>
    if b == 0 then .zeroDivision
    else if a == Int64.minValue && b == -1 then .value (.ofFloat (-(toDouble a)))
    else .value (.int (floorDiv a b))
  | .eq => .value (.bool (a == b))
  | .lt => .value (.bool (a < b))
  | .le => .value (.bool (a ≤ b))
  | .gt => .value (.bool (a > b))
  | .ge => .value (.bool (a ≥ b))

def floatArith (op : ArithOp) (a b : Float) : ArithResult :=
  match op with
  | .add => .value (.ofFloat (a + b))
  | .sub => .value (.ofFloat (a - b))
  | .mul => .value (.ofFloat (a * b))
  | .div => .value (.ofFloat (a / b))
  | .eq => .value (.bool (a == b))
  | .lt => .value (.bool (a < b))
  | .le => .value (.bool (a ≤ b))
  | .gt => .value (.bool (a > b))
  | .ge => .value (.bool (a ≥ b))

def arith (op : ArithOp) (x y : Value) : ArithResult :=
  match x, y with
  | .int a, .int b => intArith op a b
  | _, _ =>
    match x.toFloat?, y.toFloat? with
    | some a, some b => floatArith op a b
    | _, _ =>
      if op == .eq && x.ref?.isNone && y.ref?.isNone then .value (.bool (x == y))
      else .fallback

end Numeric

end RegisterVM
