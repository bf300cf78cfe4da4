import RegisterVM.Native.Support
import RegisterVM.Text.Case
import RegisterVM.Text.Unicode

set_option autoImplicit false

namespace RegisterVM

namespace Native

open Machine

def leadingInt (s : String) : Int64 :=
  let cs := (Text.trimSpace s).toList
  let (neg, rest) := match cs with
    | '-' :: r => (true, r)
    | '+' :: r => (false, r)
    | r => (false, r)
  let digits := rest.takeWhile Char.isDigit
  if digits.isEmpty then 0
  else
    let n : Int := digits.foldl (fun n c => n * 10 + (c.toNat - 48 : Nat)) 0
    let n := if neg then -n else n
    if n > int64Max then Int64.ofInt int64Max
    else if n < int64Min then Int64.ofInt int64Min
    else Int64.ofInt n

def compareText (a b : String) : Int64 :=
  if a < b then -1 else if a == b then 0 else 1

def repeatText (s : String) (n : Nat) : NativeM String := do
  if n == 0 then return ""
  if n == 1 then return s
  if s.utf8ByteSize > (Nat.pow 2 63 - 1) / n then
    lift (Machine.panic "strings: Repeat output length overflow")
  if s.isEmpty then return s
  pure (String.join (List.replicate n s))

def string (prim : StringPrim) (call : NativeCall) : NativeM NativeStep := do
  let self := call.self
  let (r, s) ← stringText self
  match prim with
  | .construct =>
    checkArgs call 0 (some 1)
    if call.args.size == 1 then
      let t ← stringArg call 0
      setText r t
    pure (.done .nil)
  | .plus =>
    checkArgs call 1 (some 1)
    pure (.done (← newString (s ++ (← stringArg call 0))))
  | .times =>
    checkArgs call 1 (some 1)
    let n ← intArg call 0
    if n < 0 then raiseErr (·.argumentError) "negative argument"
    pure (.done (← newString (← repeatText s n.toInt.toNat)))
  | .append =>
    checkArgs call 1 (some 1)
    if ← isFrozen r then raiseFrozen self
    match ← stringifyStart (call.arg 0) with
    | .inl t =>
      setText r (s ++ t)
      pure (.done self)
    | .inr req => pure (.call req (.append r (call.arg 0)))
  | .equal =>
    checkArgs call 1 (some 1)
    pure (.done (.bool ((← stringOf? (call.arg 0)) == some s)))
  | .compare =>
    checkArgs call 1 (some 1)
    match ← stringOf? (call.arg 0) with
    | some t => pure (.done (.int (compareText s t)))
    | none => pure (.done .nil)
  | .less =>
    checkArgs call 1 (some 1)
    pure (.done (.bool (decide (s < (← stringArg call 0)))))
  | .greater =>
    checkArgs call 1 (some 1)
    pure (.done (.bool (decide ((← stringArg call 0) < s))))
  | .length => pure (.done (.int (Int64.ofNat s.length)))
  | .bytesize => pure (.done (.int (Int64.ofNat s.utf8ByteSize)))
  | .isEmpty => pure (.done (.bool s.isEmpty))
  | .charAt =>
    checkArgs call 1 (some 1)
    let cs := s.toList
    let i := (← intArg call 0).toInt
    let i := if i < 0 then i + cs.length else i
    if i < 0 || i ≥ cs.length then pure (.done .nil)
    else pure (.done (← newString (String.ofList [cs.getD i.toNat ' '])))
  | .toS => pure (.done self)
  | .toSym => pure (.done (.sym (← intern s)))
  | .inspect => pure (.done (← newString (Text.inspectString s)))
  | .toI => pure (.done (.int (leadingInt s)))
  | .upcase => pure (.done (← newString (Text.upcase s)))
  | .downcase => pure (.done (← newString (Text.downcase s)))
  | .reverse => pure (.done (← newString (String.ofList s.toList.reverse)))
  | .strip => pure (.done (← newString (Text.trimSpace s)))
  | .includes =>
    checkArgs call 1 (some 1)
    pure (.done (.bool (Text.containsText s (← stringArg call 0))))
  | .startsWith =>
    checkArgs call 1 (some 1)
    pure (.done (.bool (s.startsWith (← stringArg call 0))))
  | .endsWith =>
    checkArgs call 1 (some 1)
    pure (.done (.bool (s.endsWith (← stringArg call 0))))
  | .split =>
    checkArgs call 0 (some 1)
    let parts ← if call.args.size == 0 then pure (Text.fields s)
      else pure (Text.split s (← stringArg call 0))
    let mut out := #[]
    for p in parts do out := out.push (← newString p)
    pure (.done (← newArray out))
  | .dup => pure (.done (← newString s))

def appendFinish (target : ObjRef) (arg result : Value) : NativeM NativeStep := do
  let t ← stringifyFinish arg result
  let (_, s) ← stringText (.obj target)
  setText target (s ++ t)
  pure (.done (.obj target))

def symbol (prim : SymbolPrim) (call : NativeCall) : NativeM NativeStep := do
  let self := call.self
  match prim with
  | .sendTo name =>
    checkArgs call 1 none
    let mid ← intern name
    pure (.call (.send (call.arg 0) mid (call.args.extract 1 call.args.size) call.kw call.blk) .pass)
  | _ =>
  match self with
  | .sym sym =>
    let name ← symText sym
    match prim with
    | .toS => pure (.done (← newString name))
    | .toSym => pure (.done self)
    | .inspect => pure (.done (← newString (← inspect self)))
    | .length => pure (.done (.int (Int64.ofNat name.length)))
    | .toProc =>
      let c ← core
      let d : ProcData := { code := .native (.symbol (.sendTo name)), strict := true }
      pure (.done (.obj (← store (Store.alloc { cls := some c.proc, body := .proc d }))))
    | .sendTo _ => lift runtimeFault
  | _ => lift runtimeFault

end Native

end RegisterVM
