import RegisterVM.Native.Dispatch

set_option autoImplicit false

namespace RegisterVM

def Mode.isHalted : Mode → Bool
  | .halted _ => true
  | _ => false

namespace Machine

def setTask (task : Task) : MachineM Unit :=
  modifyTop fun f => { f with code := .native (some task) }

def fiberData (r : ObjRef) : MachineM FiberData := do
  match (← liftStore (Store.getObj r)).body with
  | .fiber f => pure f
  | _ => runtimeFault

def spawnFiber (p : ObjRef) (cls : Option ObjRef) : MachineM Value := do
  let m ← get
  let core := m.store.core
  let idx := m.contexts.size
  let ctx : Context := { stack := Array.replicate m.limits.stackSize .nil }
  set { m with contexts := m.contexts.push ctx }
  let r ← liftStore (Store.alloc { cls := some (cls.getD core.fiber), body := .fiber { ctx := idx, proc := p } })
  modifyContext idx fun c => { c with fiber := some r }
  pure (.obj r)

def resumeFiber (r : ObjRef) (args : Array Value) : MachineM Unit := do
  let fd ← fiberData r
  let status := (← context fd.ctx).status
  if status == .terminated then return ← nativeRaise (← newErr (·.fiberError) "dead fiber called")
  if status == .running then return ← nativeRaise (← newErr (·.fiberError) "double resume")
  let cur ← currentIndex
  let host := (← context cur).host
  modifyContext fd.ctx fun c => { c with prev := some cur, status := .running, host }
  modify fun m => { m with current := fd.ctx }
  if fd.started then setMode (.resume (← Native.packValues args))
  else
    liftStore (Store.modifyObj r fun o => match o.body with
      | .fiber _ => { o with body := .fiber { fd with started := true } }
      | _ => o)
    callProc fd.proc args none .nil .resumed

def suspendFiber (vals : Array Value) : MachineM Unit := do
  let c ← currentContext
  match c.prev with
  | none => runtimeFault
  | some r =>
    modifyCurrent fun c => { c with status := .suspended, prev := none }
    modify fun m => { m with current := r }
    setMode (.resume (← Native.packValues vals))

def applyNative (step : NativeStep) : MachineM Unit := do
  match step with
  | .done v => returnFrom v
  | .raise exc => nativeRaise exc
  | .call req task =>
    setTask task
    request req
  | .resume fiber args =>
    setTask .pass
    resumeFiber fiber args
  | .suspend vals =>
    setTask .pass
    suspendFiber vals
  | .spawn p cls => returnFrom (← spawnFiber p cls)
  -- a loop of the method that calls nothing goes on at the next step
  | .turn task =>
    setTask task
    setMode (.resume .nil)

def runNative (x : NativeM NativeStep) : MachineM Unit := do
  let m ← get
  match ← liftStore (x.run.run m) with
  | .ok step => applyNative step
  | .error exc => nativeRaise exc

def step : MachineM Unit := do
  match (← get).mode with
  | .run => execute
  | .start prim call => runNative (Native.start prim call)
  | .resume v =>
    match (← topFrame).code with
    | .native (some task) => runNative (Native.resume task v)
    | _ => runtimeFault
  | .throw exc => nativeRaise exc
  | .fatal err => failContext err
  | .halted _ => pure ()

def advance (m : Machine) : Machine :=
  match step.run m with
  | .ok () m => m
  | .error f m =>
    match (fault f).run m with
    | .ok () m => m
    | .error f m => { m with mode := .halted (.fault f) }

def runFor : Nat → Machine → Machine
  | 0, m => m
  | fuel + 1, m => if m.mode.isHalted then m else runFor fuel (advance m)

end Machine

end RegisterVM
