import RegisterVM.Symbol

set_option autoImplicit false

namespace RegisterVM

structure ObjRef where
  idx : Nat
deriving DecidableEq, Hashable, Repr, Inhabited

instance : BEq ObjRef := ⟨fun a b => a.idx == b.idx⟩

inductive Value where
  | nil
  | bool (b : Bool)
  | sym (s : Sym)
  | int (n : Int64)
  | float (bits : UInt64)
  | obj (r : ObjRef)
deriving DecidableEq, Repr, Inhabited

instance : BEq Value := ⟨fun a b => decide (a = b)⟩

namespace Value

def tag : Value → Nat
  | nil => 0 | bool false => 1 | bool true => 2 | sym _ => 3 | int _ => 4 | float _ => 5
  | obj _ => 6

def typeName (v : Value) : String :=
  match v with
  | nil => "nil" | bool false => "false" | bool true => "true" | sym _ => "symbol"
  | int _ => "integer" | float _ => "float" | obj _ => "object"

def truthy : Value → Bool
  | nil => false
  | bool b => b
  | _ => true

def isNil : Value → Bool
  | nil => true
  | _ => false

def ref? : Value → Option ObjRef
  | obj r => some r
  | _ => none

def ofInt (n : Int) : Value := int (Int64.ofInt n)

def ofFloat (f : Float) : Value := float f.toBits

def isNumeric : Value → Bool
  | int _ | float _ => true
  | _ => false

def toFloat? : Value → Option Float
  | int n => some (Float.ofInt n.toInt)
  | float b => some (Float.ofBits b)
  | _ => none

end Value

def int64Min : Int := -(Int.pow 2 63)

def int64Max : Int := Int.pow 2 63 - 1

def fitsInt64 (n : Int) : Bool := int64Min ≤ n && n ≤ int64Max

end RegisterVM
