import RegisterVM.Machine.Boot
import RegisterVM.Bytecode.Assembler

set_option autoImplicit false

namespace RegisterVM

inductive HostError where
  | raised (cls msg : String) (backtrace : Option (Array String))
  | overflow (depth : Nat) (msg : String)
  | stepLimit (msg : String)
  | interrupted (msg : String)
  | contextDead (msg : String)
  | failed (msg : String)
  | fault (f : Fault)
deriving Inhabited

def HostError.ofFatal (err : Fatal) : HostError :=
  match err with
  | .overflow depth _ => .overflow depth err.message
  | .stepLimit => .stepLimit err.message
  | .interrupted _ _ => .interrupted err.message
  | .contextDead => .contextDead err.message
  | .fiberPanic _ => .failed err.message

structure Shown where
  text : String
  kind : String
  cls : String
deriving Inhabited

namespace Machine

-- Bounds the run of one host call so that `enter` is a total function; a run this long answers
-- `failed "step budget exhausted"`. It is no limit of the machine itself.
def stepBudget : Nat := 4000000000

def escaped (exc : Value) : MachineM HostError := do
  let exc ← match ← breakOf? exc with
    | some _ => liftStore (Store.newError (·.localJumpError) "break from proc-closure")
    | none => pure exc
  let cls ← liftStore (Store.realClassName exc)
  let msg ← liftStore (Store.exceptionMessage exc)
  let bt ← match exc with
    | .obj r =>
      match (← liftStore (Store.getObj r)).body with
      | .exception _ bt => pure bt
      | _ => pure none
    | _ => pure none
  pure (.raised cls msg bt)

def prepareEntry : MachineM (Option HostError) := do
  let c ← currentContext
  if c.status != .terminated then return none
  let m ← get
  if m.current != m.root then return some (.ofFatal .contextDead)
  let idx := m.contexts.size
  set { m with contexts := m.contexts.push (freshContext m.limits), root := idx, current := idx }
  pure none

def enter (ctx : HostContext) (start : MachineM Unit) (m : Machine) :
    Except HostError Value × Machine :=
  let m := { m with store := { m.store with out := "" } }
  match prepareEntry.run m with
  | .error f m => (.error (.fault f), m)
  | .ok (some err) m => (.error err, m)
  | .ok none m =>
    match ctx.err m.steps with
    | some why => (.error (.ofFatal (.interrupted 0 why)), m)
    | none =>
      let ci := m.current
      let prev := m.contexts.getD ci default
      let prevStatus := prev.status
      let m := if prevStatus != .running then { m with steps := 0 } else m
      let m := { m with contexts := m.contexts.modify ci fun c => { c with status := .running, host := ctx } }
      let m := { m with mode := .run }
      let m := match start.run m with
        | .ok () m => m
        | .error f m =>
          match (fault f).run m with
          | .ok () m => m
          | .error f m => { m with mode := .halted (.fault f) }
      let m := runFor stepBudget m
      let m := if (m.contexts.getD ci default).status != .terminated then
          { m with contexts := m.contexts.modify ci fun c => { c with status := prevStatus, host := prev.host } }
        else m
      match m.mode with
      | .halted (.value v) => (.ok v, m)
      | .halted (.raised exc) =>
        match (escaped exc).run m with
        | .ok err m => (.error err, m)
        | .error f m => (.error (.fault f), m)
      | .halted (.fatal err) => (.error (.ofFatal err), m)
      | .halted (.fault f) => (.error (.fault f), m)
      | _ => (.error (.failed "step budget exhausted"), m)

def runTop (body : Procedure) : MachineM Unit := do
  let c ← liftStore Store.wellKnown
  let d : ProcData := { code := .compiled body, target := some c.object }
  let p ← liftStore (Store.alloc { cls := some c.proc, body := .proc d })
  callMethod (.obj c.main) (.proc p) none Sym.none #[] none .nil .host

def hostSend (recv : Value) (name : String) (args : Array Value) : MachineM Unit := do
  let mid ← liftStore (Store.intern name)
  funcall recv mid args none .nil

def shown (v : Value) : MachineM Shown := do
  let text ← liftStore (Store.inspect v)
  let cls ← liftStore (Store.realClassName v)
  pure { text, kind := v.typeName, cls }

end Machine

end RegisterVM
