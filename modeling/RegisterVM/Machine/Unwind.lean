import RegisterVM.Machine.Frames

set_option autoImplicit false

namespace RegisterVM

namespace Machine

def setMode (mode : Mode) : MachineM Unit := modify fun m => { m with mode }

def targetClass (f : Frame) : MachineM ObjRef := do
  let c ← liftStore Store.wellKnown
  match f.code with
  | .compiled p _ =>
    match ← procOf? (.obj p) with
    | some (_, d) => pure (d.target.getD c.object)
    | none => pure c.object
  | .native _ => pure c.object

def constLookup (f : Frame) (sym : Sym) : MachineM (Option Value) := do
  let start ← targetClass f
  let fuel ← liftStore Store.chainFuel
  liftStore (go start fuel)
where
  go (k : ObjRef) : Nat → StoreM (Option Value)
    | 0 => do Store.constGet (← Store.wellKnown).object sym
    | fuel + 1 => do
      let c ← Store.wellKnown
      match ← Store.constGet k sym with
      | some v => pure (some v)
      | none =>
        match ← Store.ivarFind k c.symOuter with
        | some (.obj outer) =>
          match (← Store.getObj outer).body with
          | .cls _ => if outer == k then Store.constGet c.object sym else go outer fuel
          | _ => Store.constGet c.object sym
        | _ => Store.constGet c.object sym

def frameLabel (f : Frame) : MachineM String := do
  let name := (← get).store.symText f.mid
  if name != "" then return name
  match f.code with
  | .compiled p _ =>
    match ← procOf? (.obj p) with
    | some (_, d) => if d.upper.isSome then return "block" else return "<main>"
    | none => return "<main>"
  | .native _ => return "<main>"

def backtrace : MachineM (Array String) := do
  let c ← currentContext
  let mut out := #[]
  for f in c.frames.reverse do
    let name ← frameLabel f
    match f.code with
    | .native _ => out := out.push ("(native):in '" ++ name ++ "'")
    | .compiled _ body =>
      let file := if body.filename == "" then "(unknown)" else body.filename
      out := out.push (file ++ ":" ++ Text.intText (body.lineAt (f.pc - 1)) ++ ":in '" ++ name ++ "'")
  pure out

def noteBacktrace (exc : Value) : MachineM Unit := do
  match exc with
  | .obj r =>
    let o ← liftStore (Store.getObj r)
    match o.body with
    | .exception msg none =>
      let bt ← backtrace
      liftStore (Store.modifyObj r fun o => match o.body with
        | .exception _ none => { o with body := .exception msg (some bt) }
        | _ => o)
    | _ => pure ()
  | _ => pure ()

def breakOf? (v : Value) : MachineM (Option (BreakKind × Nat × Value)) := do
  match v with
  | .obj r =>
    match (← liftStore (Store.getObj r)).body with
    | .brk kind target val => pure (some (kind, target, val))
    | _ => pure none
  | _ => pure none

def checkTarget (body : Procedure) (h : Handler) : MachineM Handler := do
  if h.target < 0 || h.target ≥ body.code.size then
    panic ("vm: corrupt catch table: target " ++ Text.intText h.target ++ " outside " ++
      Text.natText body.code.size ++ "-byte iseq")
  else pure h

def guardMatches (f : Frame) (h : Handler) (exc : Value) : MachineM Bool := do
  let c ← liftStore Store.wellKnown
  if h.guards.isEmpty then return ← liftStore (Store.valueIsKindOf exc c.standardError)
  for g in h.guards do
    if let some v ← constLookup f g then
      if let some (k, _) ← liftStore (Store.classOf? v) then
        if ← liftStore (Store.valueIsKindOf exc k) then return true
  pure false

def findHandler (f : Frame) (exc : Value) : MachineM (Option Handler) := do
  match f.code with
  | .native _ => pure none
  | .compiled _ body =>
    let pc := f.pc - 1
    let isBreak := (← breakOf? exc).isSome
    for h in body.handlers do
      if h.covers pc then
        if h.kind == 1 then return some (← checkTarget body h)
        if h.kind == 0 && !isBreak then
          if ← guardMatches f h exc then return some (← checkTarget body h)
    pure none

def findBreakHandler (f : Frame) : MachineM (Option Handler) := do
  match f.code with
  | .native _ => pure none
  | .compiled _ body =>
    for h in body.handlers do
      if h.kind == 2 && h.covers (f.pc - 1) then return some (← checkTarget body h)
    pure none

def setExc (v : Value) : MachineM Unit := modifyCurrent fun c => { c with exc := v }

def fiberEnded (result : Except Value Value) : MachineM Unit := do
  let c ← currentContext
  match c.prev with
  | none => runtimeFault
  | some r =>
    modifyCurrent fun c => { c with status := .terminated, prev := none }
    modify fun m => { m with current := r }
    match result with
    | .ok v => setMode (.resume v)
    | .error e => setMode (.throw e)

def leaveWithValue (kind : CallKind) (v : Value) : MachineM Unit := do
  match kind with
  | .resumed => fiberEnded (.ok v)
  | _ => if (← depth) > 0 then setMode (.resume v) else setMode (.halted (.value v))

def leaveWithException (kind : CallKind) (exc : Value) : MachineM Unit := do
  match kind with
  | .resumed => fiberEnded (.error exc)
  | _ => if (← depth) > 0 then setMode (.throw exc) else setMode (.halted (.raised exc))

def returnFrom (v : Value) : MachineM Unit := do
  let f ← topFrame
  popFrame
  if f.kind.isBoundary then leaveWithValue f.kind v
  else
    let caller ← topFrame
    setSlot (caller.base + f.acc.toNat) v
    setMode .run

def unwind (exc : Value) : MachineM Unit := do
  noteBacktrace exc
  let brk ← breakOf? exc
  go brk ((← depth) + 1) (-1)
where
  go (brk : Option (BreakKind × Nat × Value)) : Nat → Int → MachineM Unit
    | 0, _ => runtimeFault
    | fuel + 1, childAcc => do
      let f ← topFrame
      match brk with
      | some (kind, target, val) =>
        if target == f.serial then
          match kind with
          | .brk =>
            if childAcc ≥ 0 then setSlot (f.base + childAcc.toNat) val
            if let some h ← findBreakHandler f then modifyTop fun f => { f with pc := h.target }
            setExc .nil
            setMode .run
            return
          | .ret =>
            if let some h ← findHandler f exc then
              modifyTop fun f => { f with pc := h.target }
              setExc exc
              setMode .run
              return
            setExc .nil
            returnFrom val
            return
      | none => pure ()
      if let some h ← findHandler f exc then
        modifyTop fun f => { f with pc := h.target }
        setExc exc
        setMode .run
        return
      popFrame
      if f.kind.isBoundary then
        setExc .nil
        leaveWithException f.kind exc
      else go brk fuel f.acc

def nativeRaise (exc : Value) : MachineM Unit := do
  let f ← topFrame
  if f.kind == .vm then unwind exc
  else
    noteBacktrace exc
    popFrame
    leaveWithException f.kind exc

def failContext (err : Fatal) : MachineM Unit := do
  let c ← currentContext
  let lowest := c.frames.findIdx? fun f =>
    match f.code with
    | .native _ => f.kind != .vm
    | .compiled _ _ => false
  if let some j := lowest then unwindTo j
  modifyCurrent fun c => { c with status := .terminated }
  leaveContext err

where
  leaveContext (err : Fatal) : MachineM Unit := do
    let c ← currentContext
    match c.fiber, c.prev with
    | some _, some r =>
      modifyCurrent fun c => { c with prev := none }
      modify fun m => { m with current := r }
      setMode (.fatal err)
    | _, _ => setMode (.halted (.fatal err))

def fault (f : Fault) : MachineM Unit := do
  let c ← currentContext
  match c.fiber, c.prev with
  | some _, some _ =>
    modifyCurrent fun c => { c with status := .terminated }
    let err : Fatal := match f with
      | .panic msg => .fiberPanic (some msg)
      | .runtime => .fiberPanic none
    failContext.leaveContext err
  | _, _ => setMode (.halted (.fault f))

end Machine

end RegisterVM
