import RegisterVM.Native.Kernel

set_option autoImplicit false

namespace RegisterVM

namespace Native

open Machine

def allocate (k : ObjRef) : NativeM Value := do
  let n ← store (Store.node k)
  if n.kind == .module || n.kind == .singleton then
    raiseErr (·.typeError) ("can't create instance of " ++ (← store (Store.className (some k))))
  let c ← core
  let isKind (t : ObjRef) : NativeM Bool := store (Store.isKindOf k t)
  let body ← if ← isKind c.exception then pure (Body.exception .nil none)
    else if ← isKind c.string then pure (Body.str "")
    else if ← isKind c.array then pure (Body.array #[])
    else if ← isKind c.hash then pure (Body.hash {})
    else do
      let refused := [c.module, c.numeric, c.symbol, c.nilClass, c.trueClass, c.falseClass,
        c.proc, c.range, c.fiber]
      for t in refused do
        if ← isKind t then
          raiseErr (·.typeError) ("allocator undefined for " ++ (← store (Store.className (some k))))
      pure Body.plain
  pure (.obj (← store (Store.alloc { cls := some k, body })))

def defineAttrs (k : ObjRef) (call : NativeCall) (reader writer : Bool) : NativeM Value := do
  let mut out := #[]
  for i in [0:call.args.size] do
    let name ← symText (← symbolArg call i)
    let ivar ← intern ("@" ++ name)
    if reader then
      let sym ← intern name
      store (Store.defineRaw k sym (.native (.module (.attrGet ivar))))
      out := out.push (.sym (← intern name))
    if writer then
      let setter ← intern (name ++ "=")
      store (Store.defineRaw k setter (.native (.module (.attrSet ivar))))
      out := out.push (.sym setter)
  newArray out

def undefinedMethod {α : Type} (mid : Sym) (k : ObjRef) : NativeM α := do
  raiseErr (·.nameError) ("undefined method '" ++ (← symText mid) ++ "' for class '" ++
    (← store (Store.className (some k))) ++ "'")

def module (prim : ModulePrim) (call : NativeCall) : NativeM NativeStep := do
  let self := call.self
  match prim with
  | .include | .prepend =>
    checkArgs call 1 none
    let k ← classNode self
    for i in (List.range call.args.size).reverse do
      mixin k (call.arg i) (prim == .prepend)
    pure (.done self)
  | .includes =>
    checkArgs call 1 (some 1)
    let k ← classNode self
    let (m, n) ← classArg call 0
    pure (.done (.bool (k != m && n.kind == .module && (← store (Store.includesModule k m)))))
  | .ancestors =>
    let k ← classNode self
    pure (.done (← newArray ((← store (Store.ancestors k)).map Value.obj)))
  | .name =>
    let k ← classNode self
    let c ← core
    if (← store (Store.ivarFind k c.symClassName)).isNone then pure (.done .nil)
    else pure (.done (← newString (← store (Store.className (some k)))))
  | .toS => pure (.done (← newString (← store (Store.className (some (← classNode self))))))
  | .caseEqual =>
    checkArgs call 1 (some 1)
    let k ← classNode self
    pure (.done (.bool (← store (Store.valueIsKindOf (call.arg 0) k))))
  | .defineMethod =>
    checkArgs call 1 (some 2)
    let k ← classNode self
    let mid ← symbolArg call 0
    let bodyV := if call.args.size == 2 then call.arg 1 else call.blk
    match ← lift (procOf? bodyV) with
    | none => raiseErr (·.argumentError) "tried to create Proc object without a block"
    | some (p, d) =>
      let p ← match d.code with
        | .compiled _ => if d.strict then pure p else strictCopy p
        | .native _ => pure p
      store (Store.defineRaw k mid (.proc p))
      pure (.done (.sym mid))
  | .aliasMethod =>
    checkArgs call 2 (some 2)
    let k ← classNode self
    let newMid ← symbolArg call 0
    let oldMid ← symbolArg call 1
    if ← store (Store.aliasMethod k newMid oldMid) then pure (.done (.sym newMid))
    else undefinedMethod oldMid k
  | .undefMethod =>
    let k ← classNode self
    for i in [0:call.args.size] do
      let mid ← symbolArg call i
      if (← store (Store.resolve (some k) mid)).isNone then undefinedMethod mid k
      store (Store.defineRaw k mid .undef)
    pure (.done self)
  | .removeMethod =>
    let k ← classNode self
    for i in [0:call.args.size] do
      let mid ← symbolArg call i
      if !(← store (Store.removeMethod k mid)) then
        raiseErr (·.nameError) ("method '" ++ (← symText mid) ++ "' not defined in " ++
          (← store (Store.className (some k))))
    pure (.done self)
  | .methodDefined =>
    checkArgs call 1 (some 1)
    let k ← classNode self
    pure (.done (.bool (← store (Store.resolve (some k) (← symbolArg call 0))).isSome))
  | .instanceMethods =>
    checkArgs call 0 (some 1)
    let k ← classNode self
    let inherit := call.args.size == 0 || (call.arg 0).truthy
    pure (.done (← newArray ((← store (Store.instanceMethods k inherit)).map Value.sym)))
  | .attrReader => pure (.done (← defineAttrs (← classNode self) call true false))
  | .attrWriter => pure (.done (← defineAttrs (← classNode self) call false true))
  | .attrAccessor => pure (.done (← defineAttrs (← classNode self) call true true))
  | .attrGet ivar =>
    checkArgs call 0 (some 0)
    pure (.done (← store (Store.ivarGet self ivar)))
  | .attrSet ivar =>
    checkArgs call 1 (some 1)
    match ← lift (ivarSet self ivar (call.arg 0)) with
    | some exc => throw exc
    | none => pure (.done (call.arg 0))
  | .constGet =>
    checkArgs call 1 (some 1)
    let k ← classNode self
    match ← store (Store.constGet k (← symbolArg call 0)) with
    | some v => pure (.done v)
    | none =>
      let kn ← store (Store.className (some k))
      raiseErr (·.nameError) ("uninitialized constant " ++ kn ++ "::" ++ (← symText (← symbolArg call 0)))
  | .constSet =>
    checkArgs call 2 (some 2)
    let sym ← symbolArg call 0
    let name ← symText sym
    if !Store.isConstName name then raiseErr (·.nameError) ("wrong constant name " ++ name)
    store (Store.constSet (← classNode self) sym (call.arg 1))
    pure (.done (call.arg 1))
  | .constDefined =>
    checkArgs call 1 (some 1)
    let k ← classNode self
    pure (.done (.bool (← store (Store.constGet k (← symbolArg call 0))).isSome))
  | .constants =>
    let k ← classNode self
    let names ← store (Store.constNames k)
    let mut out := #[]
    for n in names do out := out.push (.sym (← intern n))
    pure (.done (← newArray out))
  | .moduleNew =>
    let m ← store Store.newModule
    if call.blk.isNil then pure (.done (.obj m))
    else pure (.call (← yieldTo call #[.obj m]) (.const (.obj m)))
  | .newInstance =>
    let obj ← allocate (← classNode self)
    pure (.call (.send obj (← intern "initialize") call.args call.kw call.blk) (.const obj))
  | .allocate => pure (.done (← allocate (← classNode self)))
  | .superclass =>
    match ← store (Store.superclass (← classNode self)) with
    | some s => pure (.done (.obj s))
    | none => pure (.done .nil)
  | .classNew =>
    checkArgs call 0 (some 1)
    let c ← core
    let mut super := c.object
    if call.args.size == 1 then
      let (k, n) ← classArg call 0
      if n.kind != .ordinary then raiseErr (·.typeError) "superclass must be a Class"
      super := k
    let k ← store (Store.newClass super)
    if call.blk.isNil then pure (.done (.obj k))
    else pure (.call (← yieldTo call #[.obj k]) (.const (.obj k)))

end Native

end RegisterVM
