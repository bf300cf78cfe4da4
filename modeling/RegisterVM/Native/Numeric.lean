import RegisterVM.Native.Support
import RegisterVM.Float.Power
import RegisterVM.Text.Decimal

set_option autoImplicit false

namespace RegisterVM

namespace Native

open Machine

def arithValue (op : ArithOp) (x y : Value) : NativeM Value := do
  match Numeric.arith op x y with
  | .value v => pure v
  | .zeroDivision => raiseErr (·.zeroDivisionError) "divided by 0"
  | .fallback => pure .nil

def floatOf (v : Value) : Float := (v.toFloat?).getD 0

def floatToInt (x : Float) : NativeM Value := do
  if x.isNaN || x.isInf || x >= 9223372036854775808 || x < -9223372036854775808 then
    raiseErr (·.rangeError) ("float " ++ Float.inspect x.toBits ++ " out of range of integer")
  pure (.int (truncToInt64 x.toBits))

def countStep (self : Value) (blk : ObjRef) (k last : Int64) (up : Bool) : NativeStep :=
  if (if up then k ≤ last else k ≥ last) then .call (runBlock blk #[.int k]) (.count self blk k last up)
  else .done self

def timesStep (self : Value) (blk : ObjRef) (k n : Int64) : NativeStep :=
  if k < n then .call (runBlock blk #[.int k]) (.times self blk k n) else .done self

def numeric (prim : NumericPrim) (call : NativeCall) : NativeM NativeStep := do
  let self := call.self
  match prim with
  | .binop op =>
    checkArgs call 1 (some 1)
    let y := call.arg 0
    match Numeric.arith op self y with
    | .value v => pure (.done v)
    | .zeroDivision => raiseErr (·.zeroDivisionError) "divided by 0"
    | .fallback =>
      if op == .eq then pure (.done (.bool false))
      else raiseErr (·.typeError) ((← classNameOf y) ++ " can't be coerced into " ++ (← classNameOf self))
  | .compare =>
    checkArgs call 1 (some 1)
    let a := floatOf self
    match (call.arg 0).toFloat? with
    | none => pure (.done .nil)
    | some b =>
      if a.isNaN || b.isNaN then pure (.done .nil)
      else
        match self, call.arg 0 with
        | .int x, .int y => pure (.done (.int (if x < y then -1 else if x > y then 1 else 0)))
        | _, _ => pure (.done (.int (if a < b then -1 else if a > b then 1 else 0)))
  | .negate => pure (.done (← arithValue .sub (.int 0) self))
  | .abs =>
    match self with
    | .int v => if v < 0 then pure (.done (← arithValue .sub (.int 0) self)) else pure (.done self)
    | _ => pure (.done (.ofFloat (floatOf self).abs))
  | .isZero => pure (.done (.bool (floatOf self == 0)))
  | .modulo =>
    checkArgs call 1 (some 1)
    let y ← numArg call 0
    match self, y with
    | .int a, .int b =>
      if b == 0 then raiseErr (·.zeroDivisionError) "divided by 0"
      if b == -1 then return .done (.int 0)
      pure (.done (.int (Numeric.floorMod a b)))
    | _, _ =>
      let a := floatOf self
      let b := floatOf y
      let m := Float.remainder a b
      let m := if m != 0 && (m < 0) != (b < 0) then m + b else m
      pure (.done (.ofFloat m))
  | .power =>
    checkArgs call 1 (some 1)
    let y ← numArg call 0
    let exact := match self, y with
      | .int a, .int b => if b ≥ 0 then Numeric.powExact a b else none
      | _, _ => none
    match exact with
    | some r => pure (.done (.int r))
    | none => pure (.done (.ofFloat (Float.power (floatOf self) (floatOf y))))
  | .intToI => pure (.done self)
  | .intToF => pure (.done (.ofFloat (floatOf self)))
  | .intToS =>
    checkArgs call 0 (some 1)
    let mut base : Int := 10
    if call.args.size == 1 then
      base := (← intArg call 0).toInt
      if base < 2 || base > 36 then raiseErr (·.argumentError) ("invalid radix " ++ toString base)
    match self with
    | .int n => pure (.done (← newString (Text.intRadix base.toNat n.toInt)))
    | _ => lift runtimeFault
  | .even | .odd =>
    match self with
    | .int n => pure (.done (.bool ((n.toInt.tmod 2 == 0) == (prim == .even))))
    | _ => lift runtimeFault
  | .succ => pure (.done (← arithValue .add self (.int 1)))
  | .pred => pure (.done (← arithValue .sub self (.int 1)))
  | .times =>
    let blk ← blockProc call "no block given (times)"
    match self with
    | .int n => pure (timesStep self blk 0 n)
    | _ => lift runtimeFault
  | .upto | .downto =>
    checkArgs call 1 (some 1)
    let blk ← blockProc call (if prim == .upto then "no block given (upto)" else "no block given (downto)")
    let last ← intArg call 0
    match self with
    | .int k => pure (countStep self blk k last (prim == .upto))
    | _ => lift runtimeFault
  | .floatToS => pure (.done (← newString (Float.inspect (floatOf self).toBits)))
  | .floatToF => pure (.done self)
  | .truncate => pure (.done (← floatToInt (Float.trunc (floatOf self))))
  | .floor => pure (.done (← floatToInt (floatOf self).floor))
  | .ceil => pure (.done (← floatToInt (floatOf self).ceil))
  | .round => pure (.done (← floatToInt (floatOf self).round))
  | .isNaN => pure (.done (.bool (floatOf self).isNaN))
  | .isInfinite =>
    let x := floatOf self
    if x.isInf then pure (.done (.int (if x > 0 then 1 else -1))) else pure (.done .nil)
  | .isFinite => pure (.done (.bool (floatOf self).isFinite))

def countResume (self : Value) (blk : ObjRef) (k last : Int64) (up : Bool) : NativeStep :=
  countStep self blk (if up then k + 1 else k - 1) last up

end Native

end RegisterVM
