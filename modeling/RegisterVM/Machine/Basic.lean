import RegisterVM.Class.Define
import RegisterVM.Bytecode.Listing
import RegisterVM.Order.StableSort

set_option autoImplicit false

namespace RegisterVM

inductive CallKind where
  | vm | host | resumed
deriving DecidableEq, Repr, Inhabited

def CallKind.isBoundary (k : CallKind) : Bool := k != .vm

inductive Request where
  | send (recv : Value) (mid : Sym) (args : Array Value) (kw : Option HashTable) (blk : Value)
  | callProc (p : ObjRef) (args : Array Value) (kw : Option HashTable) (blk : Value)
deriving Inhabited

inductive Task where
  | pass
  | const (v : Value)
  | negate
  | truth
  | puts (item : Value) (rest : List Value)
  | print (item : Value) (rest : List Value)
  | inspectPrint (args : Array Value) (i : Nat)
  | raiseBuilt
  | loop (blk : ObjRef)
  | append (target : ObjRef) (arg : Value)
  | times (self : Value) (blk : ObjRef) (k n : Int64)
  | count (self : Value) (blk : ObjRef) (k last : Int64) (up : Bool)
  | arrayInit (arr : ObjRef) (blk : ObjRef) (i n : Nat)
  | arrayEach (self : Value) (arr : ObjRef) (blk : ObjRef) (i : Nat) (withIndex : Bool)
  | arrayMap (arr : ObjRef) (blk : ObjRef) (i : Nat) (out : Array Value)
  | arrayFilter (arr : ObjRef) (blk : ObjRef) (i : Nat) (keep : Bool) (out : Array Value)
  | reduce (elems : Array Value) (i : Nat) (op : Option Sym) (blk : Value)
  | search (arr : ObjRef) (target : Value) (i : Nat) (wantIndex : Bool)
  | arrayEqual (a b : ObjRef) (i n : Nat)
  | sort (x y : Value) (next : Bool → Order.Asking Value (Array Value)) (blk : Option ObjRef)
  | join (elems : Array Value) (i : Nat) (sep : String) (acc : String) (item : Value)
  | inspectArray (elems : Array Value) (i : Nat) (acc : String)
  | rangeEach (self : Value) (blk : ObjRef) (k hi : Int64)
  | rangeCollect (k hi : Int64) (out : Array Value)
  | coverLow (v last : Value) (excl : Bool)
  | coverHigh (low : Value) (excl : Bool)
  | rangeEqual (x y : Value)
  | rangeFirstText (first last : Value) (sep : String)
  | rangeLastText (firstText : String) (sep : String) (last : Value)
  | hashEach (self : Value) (h : ObjRef) (blk : ObjRef) (keys : Array Value) (i : Nat)
  | hashEqual (a b : ObjRef) (keys : Array Value) (i : Nat)
  | inspectHash (entries : Array (Value × Value)) (i : Nat) (acc : String)
      (keyText : Option String)
  | fetchMissing (key : Value)
deriving Inhabited

inductive FrameCode where
  | compiled (proc : ObjRef) (body : Procedure)
  | native (task : Option Task)
deriving Inhabited

structure Frame where
  serial : Nat
  base : Nat
  nregs : Nat
  code : FrameCode
  pc : Int := 0
  argc : Nat
  kwc : Nat
  kind : CallKind
  mid : Sym
  owner : Option ObjRef
  acc : Int
  env : Option ObjRef := none
  blk : Value
deriving Inhabited

namespace Frame

def proc? (f : Frame) : Option ObjRef :=
  match f.code with
  | .compiled p _ => some p
  | .native _ => none

def body? (f : Frame) : Option Procedure :=
  match f.code with
  | .compiled _ b => some b
  | .native _ => none

end Frame

inductive Status where
  | created | running | suspended | terminated
deriving DecidableEq, Repr, Inhabited

def Status.name : Status → String
  | .created => "created" | .running => "running" | .suspended => "suspended"
  | .terminated => "terminated"

inductive Interruption where
  | canceled
  | deadlineExceeded
deriving DecidableEq, Repr, Inhabited

def Interruption.message : Interruption → String
  | .canceled => "context canceled"
  | .deadlineExceeded => "context deadline exceeded"

def Interruption.ofCancelled (cancelled : Bool) : Option Interruption :=
  if cancelled then some .canceled else none

-- The host's context as the engine sees it: what it reports when asked with the step counter at
-- `n`. The engine asks before a host call runs and at each checkpoint fetch.
structure HostContext where
  err : Nat → Option Interruption := fun _ => none
deriving Inhabited

def HostContext.fixed (why : Option Interruption) : HostContext := ⟨fun _ => why⟩

structure Context where
  stack : Array Value
  frames : Array Frame := #[]
  exc : Value := .nil
  prev : Option Nat := none
  status : Status := .created
  fiber : Option ObjRef := none
  host : HostContext := {}
deriving Inhabited

structure Limits where
  maxDepth : Nat := 512
  stackSize : Nat := 128
  stepLimit : Nat := 0
  interval : Nat := 1024
deriving Repr, Inhabited

inductive Fatal where
  | overflow (depth : Nat) (mid : String)
  | stepLimit
  | interrupted (steps : Nat) (why : Interruption)
  | contextDead
  | fiberPanic (msg : Option String)
deriving DecidableEq, Repr, Inhabited

def Fatal.message : Fatal → String
  | .overflow depth mid =>
    "stack level too deep (depth " ++ Text.natText depth ++
      (if mid == "" then ")" else ", calling " ++ mid ++ ")")
  | .stepLimit => "instruction step limit exceeded"
  | .interrupted steps why => "interrupted after " ++ Text.natText steps ++ " steps: " ++ why.message
  | .contextDead => "execution context terminated"
  | .fiberPanic (some msg) => "vm: fiber panic: " ++ msg
  | .fiberPanic none => "vm: fiber panic: runtime error"

structure NativeCall where
  self : Value
  args : Array Value
  kw : Option HashTable
  blk : Value
deriving Inhabited

inductive Halt where
  | value (v : Value)
  | raised (exc : Value)
  | fatal (err : Fatal)
  | fault (f : Fault)
deriving Inhabited

inductive Mode where
  | run
  | start (prim : Primitive) (call : NativeCall)
  | resume (v : Value)
  | throw (exc : Value)
  | fatal (err : Fatal)
  | halted (h : Halt)
deriving Inhabited

structure Machine where
  store : Store
  contexts : Array Context
  root : Nat := 0
  current : Nat := 0
  steps : Nat := 0
  serial : Nat := 0
  limits : Limits := {}
  mode : Mode := .run
deriving Inhabited

-- The step limit is looked at first, then the host context of the running context.
def Machine.checkInterrupt (m : Machine) (steps : Nat) : Option Fatal :=
  if m.limits.stepLimit > 0 && steps > m.limits.stepLimit then some .stepLimit
  else ((m.contexts.getD m.current default).host.err steps).map (.interrupted steps)

-- Only every `interval`-th fetch is a checkpoint.
def Machine.checkpoint (m : Machine) (steps : Nat) : Option Fatal :=
  if steps % m.limits.interval == 0 then m.checkInterrupt steps else none

inductive NativeStep where
  | done (v : Value)
  | raise (exc : Value)
  | call (req : Request) (k : Task)
  | resume (fiber : ObjRef) (args : Array Value)
  | suspend (vals : Array Value)
  | spawn (proc : ObjRef) (cls : Option ObjRef)
  | turn (k : Task)
deriving Inhabited

end RegisterVM
