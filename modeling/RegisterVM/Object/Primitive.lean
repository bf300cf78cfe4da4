import RegisterVM.Value

set_option autoImplicit false

namespace RegisterVM

inductive ArithOp where
  | add | sub | mul | div | eq | lt | le | gt | ge
deriving DecidableEq, Repr, Inhabited

inductive KernelPrim where
  | construct | identical | notEqual | negation | send | methodMissing | classOf
  | singletonClass | isA | instanceOf | respondTo | isNil | ivarGet | ivarSet | ivarDefined
  | ivarNames | extend | freeze | isFrozen | objectId | toS | inspect | caseEqual | tap
  | thenDo | puts | print | inspectPrint | raise | blockGiven | lambda | proc | loop | mainName
deriving DecidableEq, Repr, Inhabited

inductive ModulePrim where
  | include | prepend | includes | ancestors | name | toS | caseEqual | defineMethod
  | aliasMethod | undefMethod | removeMethod | methodDefined | instanceMethods
  | attrReader | attrWriter | attrAccessor | constGet | constSet | constDefined | constants
  | moduleNew | newInstance | allocate | superclass | classNew
  | attrGet (ivar : Sym) | attrSet (ivar : Sym)
deriving DecidableEq, Repr, Inhabited

inductive NumericPrim where
  | binop (op : ArithOp) | compare | negate | abs | isZero | modulo | power
  | intToI | intToF | intToS | even | odd | succ | pred | times | upto | downto
  | floatToS | floatToF | truncate | floor | ceil | round | isNaN | isInfinite | isFinite
deriving DecidableEq, Repr, Inhabited

inductive StringPrim where
  | construct | plus | times | append | equal | compare | less | greater | length | bytesize
  | isEmpty | charAt | toS | toSym | inspect | toI | upcase | downcase | reverse | strip
  | includes | startsWith | endsWith | split | dup
deriving DecidableEq, Repr, Inhabited

inductive SymbolPrim where
  | toS | toSym | inspect | length | toProc
  | sendTo (name : String)
deriving DecidableEq, Repr, Inhabited

inductive ArrayPrim where
  | construct | at | store | push | pop | shift | unshift | size | isEmpty | first | last
  | each | eachWithIndex | map | filter (keep : Bool) | reduce | includes | index | equal
  | plus | reverse | dup | toA | sort | join | inspect
deriving DecidableEq, Repr, Inhabited

inductive HashPrim where
  | get | store | fetch | hasKey | delete | size | isEmpty | keys | values | toA | each
  | merge | equal | inspect
deriving DecidableEq, Repr, Inhabited

inductive RangePrim where
  | new | first | last | excludeEnd | each | toA | size | includes | equal | inspect | toS
deriving DecidableEq, Repr, Inhabited

inductive ProcPrim where
  | call | new | arity | isLambda | toProc | inspect
deriving DecidableEq, Repr, Inhabited

inductive ExceptionPrim where
  | construct | message | inspect | backtrace | exception
deriving DecidableEq, Repr, Inhabited

inductive FiberPrim where
  | new | yield | resume | isAlive
deriving DecidableEq, Repr, Inhabited

inductive Primitive where
  | kernel (p : KernelPrim)
  | module (p : ModulePrim)
  | numeric (p : NumericPrim)
  | string (p : StringPrim)
  | symbol (p : SymbolPrim)
  | array (p : ArrayPrim)
  | hash (p : HashPrim)
  | range (p : RangePrim)
  | proc (p : ProcPrim)
  | exception (p : ExceptionPrim)
  | fiber (p : FiberPrim)
deriving DecidableEq, Repr, Inhabited

end RegisterVM
