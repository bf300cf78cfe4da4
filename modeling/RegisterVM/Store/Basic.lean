import RegisterVM.Object.Basic

set_option autoImplicit false

namespace RegisterVM

structure Core where
  basicObject : ObjRef := default
  object : ObjRef := default
  module : ObjRef := default
  klass : ObjRef := default
  kernel : ObjRef := default
  nilClass : ObjRef := default
  trueClass : ObjRef := default
  falseClass : ObjRef := default
  numeric : ObjRef := default
  integer : ObjRef := default
  float : ObjRef := default
  symbol : ObjRef := default
  string : ObjRef := default
  array : ObjRef := default
  hash : ObjRef := default
  range : ObjRef := default
  proc : ObjRef := default
  fiber : ObjRef := default
  exception : ObjRef := default
  scriptError : ObjRef := default
  standardError : ObjRef := default
  argumentError : ObjRef := default
  typeError : ObjRef := default
  nameError : ObjRef := default
  noMethodError : ObjRef := default
  runtimeError : ObjRef := default
  frozenError : ObjRef := default
  localJumpError : ObjRef := default
  zeroDivisionError : ObjRef := default
  indexError : ObjRef := default
  keyError : ObjRef := default
  rangeError : ObjRef := default
  fiberError : ObjRef := default
  main : ObjRef := default
  procCall : ObjRef := default
  defaultMissing : ObjRef := default
  symClassName : Sym := default
  symOuter : Sym := default
  symAttached : Sym := default
  symMethodMissing : Sym := default
  symInitialize : Sym := default
  symCall : Sym := default
  opSyms : List (ArithOp × Sym) := []
deriving Inhabited

structure Store where
  heap : Array Obj := #[]
  symbols : Symbols := Symbols.fresh
  globals : Std.HashMap Sym Value := {}
  out : String := ""
  lastId : Nat := 0
  core : Core := {}
  cache : Std.HashMap (Option ObjRef × Sym) (Method × Option ObjRef) := {}
deriving Inhabited

abbrev StoreM := EStateM Fault Store

namespace Store

def runtimeFault {α : Type} : StoreM α := throw .runtime

def panic {α : Type} (msg : String) : StoreM α := throw (.panic msg)

def getObj (r : ObjRef) : StoreM Obj := do
  match (← get).heap[r.idx]? with
  | some o => pure o
  | none => runtimeFault

def setObj (r : ObjRef) (o : Obj) : StoreM Unit :=
  modify fun s => { s with heap := s.heap.set! r.idx o }

def modifyObj (r : ObjRef) (f : Obj → Obj) : StoreM Unit := do
  if r.idx < (← get).heap.size then modify fun s => { s with heap := s.heap.modify r.idx f }
  else runtimeFault

def alloc (o : Obj) : StoreM ObjRef :=
  modifyGet fun s => (⟨s.heap.size⟩, { s with heap := s.heap.push o })

def intern (name : String) : StoreM Sym :=
  modifyGet fun s =>
    let (t, sym) := s.symbols.intern name
    (sym, { s with symbols := t })

def symText (s : Store) (sym : Sym) : String := s.symbols.text sym

def wellKnown : StoreM Core := do pure (← get).core

def write (text : String) : StoreM Unit := modify fun s => { s with out := s.out ++ text }

def newString (text : String) : StoreM Value := do
  let c ← wellKnown
  pure (.obj (← alloc { cls := some c.string, body := .str text }))

def newArray (elems : Array Value) : StoreM Value := do
  let c ← wellKnown
  pure (.obj (← alloc { cls := some c.array, body := .array elems }))

def newHash (t : HashTable := {}) : StoreM Value := do
  let c ← wellKnown
  pure (.obj (← alloc { cls := some c.hash, body := .hash t }))

def newRange (first last : Value) (exclusive : Bool) : StoreM Value := do
  let c ← wellKnown
  pure (.obj (← alloc { cls := some c.range, body := .range first last exclusive }))

def newException (cls : ObjRef) (msg : String) : StoreM Value := do
  let m ← newString msg
  pure (.obj (← alloc { cls := some cls, body := .exception m none }))

def ivarGet (v : Value) (sym : Sym) : StoreM Value := do
  match v with
  | .obj r => pure ((← getObj r).ivars.getD sym .nil)
  | _ => pure .nil

def ivarSet (r : ObjRef) (sym : Sym) (v : Value) : StoreM Unit :=
  modifyObj r fun o => { o with ivars := o.ivars.insert sym v }

def stringOf? (v : Value) : StoreM (Option String) := do
  match v with
  | .obj r =>
    match (← getObj r).body with
    | .str s => pure (some s)
    | _ => pure none
  | _ => pure none

def arrayOf? (v : Value) : StoreM (Option (Array Value)) := do
  match v with
  | .obj r =>
    match (← getObj r).body with
    | .array es => pure (some es)
    | _ => pure none
  | _ => pure none

def hashOf? (v : Value) : StoreM (Option HashTable) := do
  match v with
  | .obj r =>
    match (← getObj r).body with
    | .hash t => pure (some t)
    | _ => pure none
  | _ => pure none

def procOf? (v : Value) : StoreM (Option (ObjRef × ProcData)) := do
  match v with
  | .obj r =>
    match (← getObj r).body with
    | .proc p => pure (some (r, p))
    | _ => pure none
  | _ => pure none

def classOf? (v : Value) : StoreM (Option (ObjRef × ClassNode)) := do
  match v with
  | .obj r =>
    match (← getObj r).body with
    | .cls c => pure (some (r, c))
    | _ => pure none
  | _ => pure none

def node (r : ObjRef) : StoreM ClassNode := do
  match (← getObj r).body with
  | .cls c => pure c
  | _ => runtimeFault

def modifyNode (r : ObjRef) (f : ClassNode → ClassNode) : StoreM Unit := do
  let o ← getObj r
  match o.body with
  | .cls c => setObj r { o with body := .cls (f c) }
  | _ => runtimeFault

def keyOf (v : Value) : StoreM HashKey := do
  match v with
  | .nil => pure (.scalar 0 0)
  | .bool false => pure (.scalar 1 0)
  | .bool true => pure (.scalar 2 0)
  | .sym s => pure (.scalar 3 (UInt64.ofNat s.id))
  | .int n => pure (.scalar 4 n.toUInt64)
  | .float b =>
    -- both zeros are one key
    if b &&& 0x7fffffffffffffff == 0 then pure (.scalar 5 0) else pure (.scalar 5 b)
  | .obj r =>
    match (← getObj r).body with
    | .str s => pure (.text s)
    | _ => pure (.ref r)

def keyIn (s : Store) (v : Value) : HashKey :=
  match (keyOf v).run s with
  | .ok k _ => k
  | .error _ _ => .ref ⟨0⟩

def tableSet (t : HashTable) (k v : Value) : StoreM HashTable := do
  let key ← keyOf k
  match t.set k key v with
  | .ok t => pure t
  | .error f => throw f

def tableGet (t : HashTable) (k : Value) : StoreM (Option Value) := do
  let key ← keyOf k
  match t.get key with
  | .ok v => pure v
  | .error f => throw f

def tableDelete (t : HashTable) (k : Value) : StoreM (HashTable × Option Value) := do
  let key ← keyOf k
  let s ← get
  match t.delete key (keyIn s) with
  | .ok r => pure r
  | .error f => throw f

def tableCopy (t : HashTable) : StoreM HashTable := do
  let mut out : HashTable := {}
  for (k, v) in t.entries do
    out ← tableSet out k v
  pure out

end Store

end RegisterVM
