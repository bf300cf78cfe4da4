import RegisterVM.Native.Support

set_option autoImplicit false

namespace RegisterVM

namespace Native

open Machine

def procArity (d : ProcData) : Int :=
  match d.code with
  | .native _ => -1
  | .compiled body =>
    let a := body.params
    let req : Int := a.req + a.post
    if a.opt > 0 || a.rest then -(req + 1) else req

def procData (v : Value) : NativeM (ObjRef × ProcData) := do
  match ← lift (procOf? v) with
  | some pd => pure pd
  | none => lift runtimeFault

def proc (prim : ProcPrim) (call : NativeCall) : NativeM NativeStep := do
  let self := call.self
  match prim with
  | .call =>
    let (p, _) ← procData self
    pure (.call (.callProc p call.args call.kw call.blk) .pass)
  | .new => pure (.done (.obj (← blockProc call "tried to create Proc object without a block")))
  | .arity => pure (.done (.ofInt (procArity (← procData self).2)))
  | .isLambda => pure (.done (.bool (← procData self).2.strict))
  | .toProc => pure (.done self)
  | .inspect => pure (.done (← newString (← inspect self)))

def exception (prim : ExceptionPrim) (call : NativeCall) : NativeM NativeStep := do
  let self := call.self
  match prim with
  | .construct =>
    checkArgs call 0 (some 1)
    let (r, o) ← objOf self
    match o.body with
    | .exception _ _ =>
      setMessage r (call.arg 0)
      pure (.done .nil)
    | _ => lift runtimeFault
  | .message => pure (.done (← newString (← store (Store.exceptionMessage self))))
  | .inspect =>
    let name ← classNameOf self
    let msg ← store (Store.exceptionMessage self)
    if msg == "" || msg == name then pure (.done (← newString name))
    else pure (.done (← newString (msg ++ " (" ++ name ++ ")")))
  | .backtrace =>
    let (_, o) ← objOf self
    match o.body with
    | .exception _ (some lines) =>
      let mut out := #[]
      for l in lines do out := out.push (← newString l)
      pure (.done (← newArray out))
    | .exception _ none => pure (.done .nil)
    | _ => lift runtimeFault
  | .exception => pure (.call (← sendPlain self "new" call.args) .pass)

def fiber (prim : FiberPrim) (call : NativeCall) : NativeM NativeStep := do
  let self := call.self
  match prim with
  | .new =>
    let p ← blockProc call "tried to create Fiber object without a block"
    let cls := (← store (Store.classOf? self)).map (·.1)
    pure (.spawn p cls)
  | .yield =>
    if (← lift currentContext).fiber.isNone then
      raiseErr (·.fiberError) "can't yield from root fiber"
    pure (.suspend call.args)
  | .resume =>
    let (r, o) ← objOf self
    match o.body with
    | .fiber _ => pure (.resume r call.args)
    | _ => lift runtimeFault
  | .isAlive =>
    let (_, o) ← objOf self
    match o.body with
    | .fiber f => pure (.done (.bool ((← lift (context f.ctx)).status != .terminated)))
    | _ => lift runtimeFault

end Native

end RegisterVM
