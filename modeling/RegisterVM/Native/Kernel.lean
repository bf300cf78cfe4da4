import RegisterVM.Native.Support

set_option autoImplicit false

namespace RegisterVM

namespace Native

open Machine

def write (text : String) : NativeM Unit := store (Store.write text)

def mixin (k : ObjRef) (m : Value) (prepend : Bool) : NativeM Unit := do
  let found ← store (Store.classOf? m)
  let mod ← match found with
    | some (r, n) =>
      if n.kind == .module then pure r
      else raiseErr (·.typeError) ("wrong argument type " ++ (← classNameOf m) ++ " (expected Module)")
    | none => raiseErr (·.typeError) ("wrong argument type " ++ (← classNameOf m) ++ " (expected Module)")
  let err ← store (if prepend then Store.prependModule k mod else Store.includeModule k mod)
  match err with
  | some .cyclic => raiseErr (·.argumentError) Store.MixinError.cyclic.message
  | some e => raiseErr (·.typeError) e.message
  | none => pure ()

def callerBlock : NativeM Value := do
  let c ← lift currentContext
  if c.frames.size < 2 then return .nil
  let f := c.frames.getD (c.frames.size - 2) default
  let home ← match f.code with
    | .compiled p _ =>
      match ← lift (procOf? (.obj p)) with
      | some (_, d) =>
        if !d.strict && d.upper.isSome then
          match ← lift (returnTarget f) with
          | .ok serial => pure (c.frames.find? (·.serial == serial))
          | .error _ => pure none
        else pure none
      | none => pure none
    | .native _ => pure none
  pure (home.getD f).blk

def putsAdvance (items : List Value) : NativeM NativeStep :=
  go items 1000000
where
  go : List Value → Nat → NativeM NativeStep
    | [], _ => pure (.done .nil)
    | _, 0 => lift runtimeFault
    | v :: rest, fuel + 1 => do
      match ← store (Store.arrayOf? v) with
      | some es =>
        if es.isEmpty then write "\n"
        go (es.toList ++ rest) fuel
      | none =>
        match ← stringifyStart v with
        | .inl s =>
          write (if s.endsWith "\n" then s else s ++ "\n")
          go rest fuel
        | .inr req => pure (.call req (.puts v rest))

def printAdvance : List Value → NativeM NativeStep
  | [] => pure (.done .nil)
  | v :: rest => do
    match ← stringifyStart v with
    | .inl s => write s; printAdvance rest
    | .inr req => pure (.call req (.print v rest))

def inspectPrintAdvance (args : Array Value) (i : Nat) : NativeM NativeStep := do
  go i (args.size - i + 1)
where
  go (i : Nat) : Nat → NativeM NativeStep
    | 0 => lift runtimeFault
    | fuel + 1 => do
      if h : i < args.size then
        match ← inspectStart args[i] with
        | .inl s => write (s ++ "\n"); go (i + 1) fuel
        | .inr req => pure (.call req (.inspectPrint args i))
      else
        if args.size == 0 then pure (.done .nil)
        else if args.size == 1 then pure (.done (args.getD 0 .nil))
        else pure (.done (← newArray args))

def raiseChecked (exc : Value) : NativeM NativeStep := do
  match exc with
  | .obj r =>
    match (← store (Store.getObj r)).body with
    | .exception _ _ => pure (.raise exc)
    | _ => raiseErr (·.typeError) "exception class/object expected"
  | _ => raiseErr (·.typeError) "exception class/object expected"

def raiseWith (call : NativeCall) : NativeM NativeStep := do
  checkArgs call 0 (some 2)
  let args := call.args
  if args.size == 0 then
    let exc := (← lift currentContext).exc
    if exc.ref?.isSome then return .raise exc
    return .raise (← lift (newErr (·.runtimeError) "unhandled exception"))
  if args.size == 1 then
    if (← stringOf? (call.arg 0)).isSome then
      let c ← core
      let e ← store (Store.alloc { cls := some c.runtimeError, body := .exception (call.arg 0) none })
      return .raise (.obj e)
  let exc := call.arg 0
  if (← store (Store.classOf? exc)).isSome then
    return .call (← sendPlain exc "new" (args.extract 1 args.size)) .raiseBuilt
  if args.size > 1 then
    return .call (← sendPlain exc "exception" (args.extract 1 args.size)) .raiseBuilt
  raiseChecked exc

def strictCopy (p : ObjRef) : NativeM ObjRef := do
  let o ← store (Store.getObj p)
  match o.body with
  | .proc d => store (Store.alloc { o with body := .proc { d with strict := true } })
  | _ => lift runtimeFault

def kernel (prim : KernelPrim) (call : NativeCall) : NativeM NativeStep := do
  let self := call.self
  match prim with
  | .construct => pure (.done .nil)
  | .identical =>
    checkArgs call 1 (some 1)
    pure (.done (.bool (self == call.arg 0)))
  | .notEqual =>
    checkArgs call 1 (some 1)
    pure (.call (← sendPlain self "==" #[call.arg 0]) .negate)
  | .negation => pure (.done (.bool !self.truthy))
  | .send =>
    checkArgs call 1 none
    let mid ← symbolArg call 0
    pure (.call (.send self mid (call.args.extract 1 call.args.size) call.kw call.blk) .pass)
  | .methodMissing =>
    checkArgs call 1 none
    throw (← lift (noMethodError self (← symbolArg call 0) false))
  | .classOf =>
    match ← store (Store.realClassOf self) with
    | some k => pure (.done (.obj k))
    | none => pure (.done .nil)
  | .singletonClass =>
    match ← store (Store.singletonClassOf self) with
    | some sc => pure (.done (.obj sc))
    | none => raiseErr (·.typeError) "can't define singleton"
  | .isA =>
    checkArgs call 1 (some 1)
    let (k, _) ← classArg call 0
    pure (.done (.bool (← store (Store.valueIsKindOf self k))))
  | .instanceOf =>
    checkArgs call 1 (some 1)
    let real ← store (Store.realClassOf self)
    let (k, _) ← classArg call 0
    pure (.done (.bool (real == some k)))
  | .respondTo =>
    checkArgs call 1 (some 2)
    pure (.done (.bool (← store (Store.respondTo self (← symbolArg call 0)))))
  | .isNil => pure (.done (.bool self.isNil))
  | .ivarGet =>
    checkArgs call 1 (some 1)
    pure (.done (← store (Store.ivarGet self (← ivarNameArg call 0))))
  | .ivarSet =>
    checkArgs call 2 (some 2)
    let sym ← ivarNameArg call 0
    match ← lift (ivarSet self sym (call.arg 1)) with
    | some exc => throw exc
    | none => pure (.done (call.arg 1))
  | .ivarDefined =>
    checkArgs call 1 (some 1)
    match self with
    | .obj r =>
      let sym ← ivarNameArg call 0
      pure (.done (.bool (← store (Store.ivarFind r sym)).isSome))
    | _ => pure (.done (.bool false))
  | .ivarNames =>
    match self with
    | .obj r =>
      let o ← store (Store.getObj r)
      let s := (← lift get).store
      pure (.done (← newArray ((Store.ivarNames o s).map Value.sym).toArray))
    | _ => pure (.done (← newArray #[]))
  | .extend =>
    checkArgs call 1 none
    match ← store (Store.singletonClassOf self) with
    | none => raiseErr (·.typeError) "can't define singleton"
    | some sc =>
      for i in (List.range call.args.size).reverse do
        mixin sc (call.arg i) false
      pure (.done self)
  | .freeze =>
    if let .obj r := self then store (Store.modifyObj r fun o => { o with frozen := true })
    pure (.done self)
  | .isFrozen =>
    match self with
    | .obj r => pure (.done (.bool (← isFrozen r)))
    | _ => pure (.done (.bool true))
  | .objectId => pure (.done (.int (← store (Store.objectId self))))
  | .toS => pure (.done (← newString (← store (Store.defaultToS self))))
  | .inspect => pure (.done (← newString (← inspect self)))
  | .caseEqual =>
    checkArgs call 1 (some 1)
    pure (.call (← sendPlain self "==" #[call.arg 0]) .truth)
  | .tap => pure (.call (← yieldTo call #[self]) (.const self))
  | .thenDo => pure (.call (← yieldTo call #[self]) .pass)
  | .puts =>
    if call.args.size == 0 then write "\n"
    putsAdvance call.args.toList
  | .print => printAdvance call.args.toList
  | .inspectPrint => inspectPrintAdvance call.args 0
  | .raise => raiseWith call
  | .blockGiven => pure (.done (.bool !(← callerBlock).isNil))
  | .lambda =>
    let p ← blockProc call "tried to create Proc object without a block"
    match ← lift (procOf? (.obj p)) with
    | some (_, d) => if d.strict then pure (.done (.obj p)) else pure (.done (.obj (← strictCopy p)))
    | none => lift runtimeFault
  | .proc => pure (.done (.obj (← blockProc call "tried to create Proc object without a block")))
  | .loop =>
    let p ← blockProc call "no block given (loop)"
    pure (.call (runBlock p #[]) (.loop p))
  | .mainName => pure (.done (← newString "main"))

end Native

end RegisterVM
