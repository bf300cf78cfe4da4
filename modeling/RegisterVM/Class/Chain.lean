import RegisterVM.Store.Basic

set_option autoImplicit false

namespace RegisterVM

namespace Store

def chainFuel : StoreM Nat := do pure ((← get).heap.size + 1)

def classOf (v : Value) : StoreM (Option ObjRef) := do
  let c ← wellKnown
  match v with
  | .nil => pure (some c.nilClass)
  | .bool true => pure (some c.trueClass)
  | .bool false => pure (some c.falseClass)
  | .int _ => pure (some c.integer)
  | .float _ => pure (some c.float)
  | .sym _ => pure (some c.symbol)
  | .obj r => pure (← getObj r).cls

def superOf (r : ObjRef) : StoreM (Option ObjRef) := do pure (← node r).super

def origin (r : ObjRef) : StoreM ObjRef := do pure ((← node r).origin.getD r)

def superclass (r : ObjRef) : StoreM (Option ObjRef) := do
  go (← superOf r) (← chainFuel)
where
  go (s : Option ObjRef) : Nat → StoreM (Option ObjRef)
    | 0 => pure s
    | fuel + 1 => do
      match s with
      | none => pure none
      | some p =>
        let n ← node p
        if n.kind.isInner then go n.super fuel else pure (some p)

def real (r : Option ObjRef) : StoreM (Option ObjRef) := do
  go r (← chainFuel)
where
  go (s : Option ObjRef) : Nat → StoreM (Option ObjRef)
    | 0 => pure s
    | fuel + 1 => do
      match s with
      | none => pure none
      | some p =>
        let n ← node p
        if n.kind == .singleton || n.kind.isInner then go n.super fuel else pure (some p)

def realClassOf (v : Value) : StoreM (Option ObjRef) := do real (← classOf v)

def tableOf (r : ObjRef) : StoreM (Std.HashMap Sym Method) := do
  let n ← node r
  match n.kind, n.module with
  | .include, some m => pure (← node (← origin m)).methods
  | _, _ => pure n.methods

def definitionTarget (r : ObjRef) : StoreM ObjRef := do
  let n ← node r
  match n.kind, n.module with
  | .include, some m => origin m
  | _, _ => pure (n.origin.getD r)

def lookup (cls : Option ObjRef) (mid : Sym) : StoreM (Method × Option ObjRef) := do
  go cls (← chainFuel)
where
  go (s : Option ObjRef) : Nat → StoreM (Method × Option ObjRef)
    | 0 => pure (.undef, none)
    | fuel + 1 => do
      match s with
      | none => pure (.undef, none)
      | some p =>
        match (← tableOf p).get? mid with
        | some m => pure (m, some p)
        | none => go (← superOf p) fuel

def lookupAnswer : Method × Option ObjRef → Option (Method × ObjRef)
  | (m, some p) => if m.defined then some (m, p) else none
  | (_, none) => none

def flushCache : StoreM Unit := modify fun s => { s with cache := {} }

def resolve (cls : Option ObjRef) (mid : Sym) : StoreM (Option (Method × ObjRef)) := do
  match (← get).cache[(cls, mid)]? with
  | some e => pure (lookupAnswer e)
  | none =>
    let e ← lookup cls mid
    modify fun s => { s with cache := s.cache.insert (cls, mid) e }
    pure (lookupAnswer e)

def respondTo (v : Value) (mid : Sym) : StoreM Bool := do
  pure (← resolve (← classOf v) mid).isSome

def includesModule (r m : ObjRef) : StoreM Bool := do
  go (some r) (← chainFuel)
where
  go (s : Option ObjRef) : Nat → StoreM Bool
    | 0 => pure false
    | fuel + 1 => do
      match s with
      | none => pure false
      | some p =>
        let n ← node p
        if p == m || (n.kind.isInner && n.module == some m) then pure true else go n.super fuel

def isKindOf (r target : ObjRef) : StoreM Bool := do
  let t ← node target
  let target := if t.kind.isInner then t.module.getD target else target
  includesModule r target

def valueIsKindOf (v : Value) (target : ObjRef) : StoreM Bool := do
  match ← classOf v with
  | some c => isKindOf c target
  | none => pure false

def ancestors (r : ObjRef) : StoreM (Array ObjRef) := do
  go (some r) (← chainFuel) #[]
where
  go (s : Option ObjRef) : Nat → Array ObjRef → StoreM (Array ObjRef)
    | 0, acc => pure acc
    | fuel + 1, acc => do
      match s with
      | none => pure acc
      | some p =>
        let n ← node p
        let acc :=
          if n.kind.isInner then acc.push (n.module.getD p)
          else if n.kind == .singleton || n.origin.isSome then acc
          else acc.push p
        go n.super fuel acc

def isModule (r : ObjRef) : StoreM Bool := do pure ((← node r).kind == .module)

def ivarFind (r : ObjRef) (sym : Sym) : StoreM (Option Value) := do
  pure ((← getObj r).ivars.get? sym)

end Store

end RegisterVM
