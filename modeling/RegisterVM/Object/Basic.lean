import RegisterVM.Object.Table
import RegisterVM.Object.Primitive
import RegisterVM.Bytecode.Procedure

set_option autoImplicit false

namespace RegisterVM

inductive Method where
  | undef
  | native (p : Primitive)
  | proc (r : ObjRef)
deriving DecidableEq, Repr, Inhabited

def Method.defined : Method → Bool
  | .undef => false
  | _ => true

inductive ClassKind where
  | ordinary | module | singleton | include | origin
deriving DecidableEq, Repr, Inhabited

def ClassKind.isInner : ClassKind → Bool
  | .include | .origin => true
  | _ => false

structure ClassNode where
  kind : ClassKind
  super : Option ObjRef := none
  methods : Std.HashMap Sym Method := {}
  origin : Option ObjRef := none
  module : Option ObjRef := none
deriving Inhabited

inductive ProcCode where
  | compiled (p : Procedure)
  | native (fn : Primitive)
deriving Inhabited

structure ProcData where
  code : ProcCode
  upper : Option ObjRef := none
  env : Option ObjRef := none
  target : Option ObjRef := none
  strict : Bool := false
  orphan : Bool := false
deriving Inhabited

inductive EnvSlots where
  | live (ctx : Nat) (frame : Nat) (base : Nat)
  | copied (slots : Array Value)
deriving Inhabited

structure EnvData where
  slots : EnvSlots
  size : Nat
  mid : Sym
  owner : Option ObjRef
deriving Inhabited

structure FiberData where
  ctx : Nat
  proc : ObjRef
  started : Bool := false
deriving Inhabited

inductive BreakKind where
  | brk | ret
deriving DecidableEq, Repr, Inhabited

inductive Body where
  | plain
  | str (s : String)
  | array (elems : Array Value)
  | hash (t : HashTable)
  | range (first last : Value) (exclusive : Bool)
  | exception (message : Value) (backtrace : Option (Array String))
  | proc (p : ProcData)
  | cls (c : ClassNode)
  | env (e : EnvData)
  | fiber (f : FiberData)
  | brk (kind : BreakKind) (target : Nat) (val : Value)
deriving Inhabited

structure Obj where
  cls : Option ObjRef
  frozen : Bool := false
  ivars : Std.HashMap Sym Value := {}
  serial : Nat := 0
  body : Body
deriving Inhabited

end RegisterVM
