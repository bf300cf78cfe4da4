import RegisterVM.Machine.Instruction

set_option autoImplicit false

namespace RegisterVM

abbrev NativeM := ExceptT Value (ReaderT Machine StoreM)

def NativeCall.arg (call : NativeCall) (i : Nat) : Value := call.args.getD i .nil

namespace Native

open Machine

def lift {α : Type} (x : MachineM α) : NativeM α :=
  ExceptT.lift fun m s =>
    match x.run { m with store := s } with
    | .ok a m' => .ok a m'.store
    | .error f m' => .error f m'.store

def store {α : Type} (x : StoreM α) : NativeM α := lift (liftStore x)

def core : NativeM Core := store Store.wellKnown

def raiseErr {α : Type} (cls : Core → ObjRef) (msg : String) : NativeM α := do
  throw (← lift (newErr cls msg))

def inspect (v : Value) : NativeM String := store (Store.inspect v)

def classNameOf (v : Value) : NativeM String := store (Store.realClassName v)

def symText (s : Sym) : NativeM String := do pure ((← lift get).store.symText s)

def intern (name : String) : NativeM Sym := store (Store.intern name)

def newString (s : String) : NativeM Value := store (Store.newString s)

def newArray (es : Array Value) : NativeM Value := store (Store.newArray es)

def checkArgs (call : NativeCall) (lo : Nat) (hi : Option Nat) : NativeM Unit := do
  let n := call.args.size
  if n ≥ lo && hi.all (n ≤ ·) then return
  let want := match hi with
    | none => Text.natText lo ++ "+"
    | some h => if lo == h then Text.natText lo else Text.natText lo ++ ".." ++ Text.natText h
  raiseErr (·.argumentError) ("wrong number of arguments (given " ++ Text.natText n ++
    ", expected " ++ want ++ ")")

def stringOf? (v : Value) : NativeM (Option String) := store (Store.stringOf? v)

def symbolArg (call : NativeCall) (i : Nat) : NativeM Sym := do
  let v := call.arg i
  match v with
  | .sym s => pure s
  | _ =>
    match ← stringOf? v with
    | some s => intern s
    | none => raiseErr (·.typeError) ((← inspect v) ++ " is not a symbol nor a string")

def ivarNameArg (call : NativeCall) (i : Nat) : NativeM Sym := do
  let sym ← symbolArg call i
  let name ← symText sym
  if !name.startsWith "@" || name.utf8ByteSize < 2 then
    raiseErr (·.nameError) ("'" ++ name ++ "' is not allowed as an instance variable name")
  pure sym

def classArg (call : NativeCall) (i : Nat) : NativeM (ObjRef × ClassNode) := do
  match ← store (Store.classOf? (call.arg i)) with
  | some k => pure k
  | none => raiseErr (·.typeError) "class or module required"

def truncToInt64 (bits : UInt64) : Int64 :=
  let b := Float.Bits.ofUInt64 bits
  if b.isSpecial then Int64.ofInt int64Min
  else
    let (m, q) := b.mantissa
    let mag : Int := if q ≥ 0 then (m * Nat.pow 2 q.toNat : Nat) else (m / Nat.pow 2 (-q).toNat : Nat)
    let n := if b.negative then -mag else mag
    if fitsInt64 n then Int64.ofInt n else Int64.ofInt int64Min

def intArg (call : NativeCall) (i : Nat) : NativeM Int64 := do
  match call.arg i with
  | .int n => pure n
  | .float b => pure (truncToInt64 b)
  | v => raiseErr (·.typeError) ("no implicit conversion of " ++ (← classNameOf v) ++ " into Integer")

def stringArg (call : NativeCall) (i : Nat) : NativeM String := do
  match ← stringOf? (call.arg i) with
  | some s => pure s
  | none => raiseErr (·.typeError) ("no implicit conversion of " ++ (← classNameOf (call.arg i)) ++
      " into String")

def numArg (call : NativeCall) (i : Nat) : NativeM Value := do
  let v := call.arg i
  if v.isNumeric then pure v
  else raiseErr (·.typeError) ((← classNameOf v) ++ " can't be coerced into Numeric")

def blockProc (call : NativeCall) (msg : String) : NativeM ObjRef := do
  match ← lift (procOf? call.blk) with
  | some (p, _) => pure p
  | none => raiseErr (·.argumentError) msg

def yieldTo (call : NativeCall) (args : Array Value) : NativeM Request := do
  match ← lift (procOf? call.blk) with
  | some (p, _) => pure (.callProc p args none .nil)
  | none => raiseErr (·.localJumpError) "no block given (yield)"

def runBlock (p : ObjRef) (args : Array Value) : Request := .callProc p args none .nil

def sendPlain (recv : Value) (name : String) (args : Array Value) : NativeM Request := do
  pure (.send recv (← intern name) args none .nil)

def stringifyStart (v : Value) : NativeM (Sum String Request) := do
  if let some s ← stringOf? v then return .inl s
  match v with
  | .obj _ => pure (.inr (← sendPlain v "to_s" #[]))
  | _ => pure (.inl (← store (Store.defaultToS v)))

def stringifyFinish (orig r : Value) : NativeM String := do
  match ← stringOf? r with
  | some s => pure s
  | none => store (Store.defaultToS orig)

def inspectStart (v : Value) : NativeM (Sum String Request) := do
  match v with
  | .obj _ => pure (.inr (← sendPlain v "inspect" #[]))
  | _ => pure (.inl (← inspect v))

def inspectFinish (orig r : Value) : NativeM String := do
  match ← stringOf? r with
  | some s => pure s
  | none => inspect orig

def equalStart (x y : Value) : NativeM (Sum Bool Request) := do
  match Numeric.arith .eq x y with
  | .value v => pure (.inl v.truthy)
  | _ =>
    if x == y then pure (.inl true)
    else pure (.inr (← sendPlain x "==" #[y]))

def objOf (v : Value) : NativeM (ObjRef × Obj) := do
  match v with
  | .obj r => pure (r, ← store (Store.getObj r))
  | _ => lift runtimeFault

def arrayElems (v : Value) : NativeM (ObjRef × Array Value) := do
  let (r, o) ← objOf v
  match o.body with
  | .array es => pure (r, es)
  | _ => lift runtimeFault

def hashTable (v : Value) : NativeM (ObjRef × HashTable) := do
  let (r, o) ← objOf v
  match o.body with
  | .hash t => pure (r, t)
  | _ => lift runtimeFault

def stringText (v : Value) : NativeM (ObjRef × String) := do
  let (r, o) ← objOf v
  match o.body with
  | .str s => pure (r, s)
  | _ => lift runtimeFault

def classNode (v : Value) : NativeM ObjRef := do
  let (r, o) ← objOf v
  match o.body with
  | .cls _ => pure r
  | _ => lift runtimeFault

def raiseFrozen {α : Type} (v : Value) : NativeM α := do
  throw (← store (Store.frozenError v))

def isFrozen (r : ObjRef) : NativeM Bool := do pure (← store (Store.getObj r)).frozen

def setElems (r : ObjRef) (es : Array Value) : NativeM Unit :=
  store (Store.modifyObj r fun o => match o.body with
    | .array _ => { o with body := .array es }
    | _ => o)

def setTable (r : ObjRef) (t : HashTable) : NativeM Unit :=
  store (Store.modifyObj r fun o => match o.body with
    | .hash _ => { o with body := .hash t }
    | _ => o)

def setText (r : ObjRef) (t : String) : NativeM Unit :=
  store (Store.modifyObj r fun o => match o.body with
    | .str _ => { o with body := .str t }
    | _ => o)

def setMessage (r : ObjRef) (msg : Value) : NativeM Unit :=
  store (Store.modifyObj r fun o => match o.body with
    | .exception _ bt => { o with body := .exception msg bt }
    | _ => o)

def packValues (vals : Array Value) : MachineM Value := do
  if vals.size == 0 then pure .nil
  else if vals.size == 1 then pure (vals.getD 0 .nil)
  else liftStore (Store.newArray vals)

end Native

end RegisterVM
