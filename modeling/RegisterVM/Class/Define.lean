import RegisterVM.Store.Inspect

set_option autoImplicit false

namespace RegisterVM

namespace Store

def allocClass (kind : ClassKind) (metaClass : ObjRef) (super : Option ObjRef) : StoreM ObjRef :=
  alloc { cls := some metaClass, body := .cls { kind, super } }

def defineRaw (r : ObjRef) (mid : Sym) (m : Method) : StoreM Unit := do
  let t ← definitionTarget r
  modifyNode t fun n => { n with methods := n.methods.insert mid m }
  flushCache

def removeMethod (r : ObjRef) (mid : Sym) : StoreM Bool := do
  let o ← origin r
  let n ← node o
  if n.methods.contains mid then
    modifyNode o fun n => { n with methods := n.methods.erase mid }
    flushCache
    pure true
  else pure false

def aliasMethod (r : ObjRef) (new old : Sym) : StoreM Bool := do
  match ← resolve (some r) old with
  | some (m, _) => defineRaw r new m; pure true
  | none => pure false

def instanceMethods (r : ObjRef) (inherit : Bool) : StoreM (Array Sym) := do
  let o ← origin r
  let s0 ← get
  go (some r) o s0 (← chainFuel) {} #[]
where
  go (s : Option ObjRef) (o : ObjRef) (s0 : Store) :
      Nat → Std.HashMap Sym Unit → Array Sym → StoreM (Array Sym)
    | 0, _, out => pure out
    | fuel + 1, seen, out => do
      match s with
      | none => pure out
      | some p =>
        if !inherit && p != r && p != o then pure out
        else
          let table ← tableOf p
          let visit (acc : Std.HashMap Sym Unit × Array Sym) (entry : Sym × Method) :=
            let (seen, out) := acc
            let (mid, m) := entry
            if seen.contains mid then (seen, out)
            else
              let seen := seen.insert mid ()
              if m.defined && !(s0.symText mid).startsWith "__" then (seen, out.push mid)
              else (seen, out)
          let (seen, out) := table.toList.foldl visit (seen, out)
          go (← superOf p) o s0 fuel seen out

def newIncludeNode (m : ObjRef) (super : Option ObjRef) : StoreM ObjRef := do
  let n ← node m
  let target := if n.kind.isInner then n.module.getD m else m
  let c ← wellKnown
  alloc { cls := some c.klass, body := .cls { kind := .include, super, module := some target } }

def findIncluded (r : ObjRef) (target : ObjRef) (insPos : ObjRef) (searchSuper : Bool) :
    StoreM (Bool × ObjRef) := do
  go (← superOf r) false (← chainFuel)
where
  go (s : Option ObjRef) (superclassSeen : Bool) : Nat → StoreM (Bool × ObjRef)
    | 0 => pure (false, insPos)
    | fuel + 1 => do
      match s with
      | none => pure (false, insPos)
      | some p =>
        let n ← node p
        if n.kind == .include then
          if n.module == some target then
            pure (true, if !superclassSeen && searchSuper then p else insPos)
          else go n.super superclassSeen fuel
        else if n.kind == .ordinary then
          if !searchSuper then pure (false, insPos) else go n.super true fuel
        else go n.super superclassSeen fuel

def includeAt (r insPos m : ObjRef) (searchSuper : Bool) : StoreM Unit := do
  go (some m) insPos (← chainFuel)
where
  go (s : Option ObjRef) (insPos : ObjRef) : Nat → StoreM Unit
    | 0 => pure ()
    | fuel + 1 => do
      match s with
      | none => pure ()
      | some p =>
        let n ← node p
        if n.kind == .ordinary || n.kind == .singleton then pure ()
        else if n.kind == .origin then go n.super insPos fuel
        else
          let target := if n.kind.isInner then n.module.getD p else p
          let (present, insPos') ← findIncluded r target insPos searchSuper
          if present then go n.super insPos' fuel
          else
            let after ← superOf insPos'
            let ic ← newIncludeNode target after
            modifyNode insPos' fun k => { k with super := some ic }
            go n.super ic fuel

inductive MixinError where
  | notModule (name : String)
  | cyclic
deriving DecidableEq, Repr

def MixinError.message : MixinError → String
  | .notModule name => "wrong argument type " ++ name ++ " (expected Module)"
  | .cyclic => "cyclic include detected"

def checkMixin (r m : ObjRef) : StoreM (Option MixinError) := do
  if (← node m).kind != .module then pure (some (.notModule (← className (some m))))
  else if r == m || (← includesModule m r) then pure (some .cyclic)
  else pure none

def includeModule (r m : ObjRef) : StoreM (Option MixinError) := do
  match ← checkMixin r m with
  | some e => pure (some e)
  | none =>
    includeAt r (← origin r) m true
    flushCache
    pure none

def prependModule (r m : ObjRef) : StoreM (Option MixinError) := do
  match ← checkMixin r m with
  | some e => pure (some e)
  | none =>
    let n ← node r
    if n.origin.isNone then
      let c ← wellKnown
      let inner : ClassNode := { kind := .origin, super := n.super, methods := n.methods }
      let o ← alloc { cls := some c.klass, body := .cls { inner with module := some r } }
      modifyNode r fun k => { k with super := some o, methods := {}, origin := some o }
    includeAt r r m false
    flushCache
    pure none

def singletonClassOf (v : Value) : StoreM (Option ObjRef) := do
  go v (← chainFuel)
where
  go (v : Value) : Nat → StoreM (Option ObjRef)
    | 0 => pure none
    | fuel + 1 => do
      match v with
      | .obj r =>
        let c ← wellKnown
        let o ← getObj r
        if let some k := o.cls then
          let kn ← node k
          let kObj ← getObj k
          if kn.kind == .singleton && kObj.ivars.getD c.symAttached .nil == v then
            return some k
        let super ← match o.body with
          | .cls n =>
            if n.kind == .ordinary then do
              match ← superclass r with
              | some sc => go (.obj sc) fuel
              | none => pure (some c.klass)
            else pure o.cls
          | _ => pure o.cls
        let sc ← allocClass .singleton c.klass super
        ivarSet sc c.symAttached v
        modifyObj r fun o => { o with cls := some sc }
        flushCache
        pure (some sc)
      | _ => pure none

def setClassName (r : ObjRef) (outer : Option ObjRef) (name : Sym) : StoreM Unit := do
  let c ← wellKnown
  ivarSet r c.symClassName (.sym name)
  if let some o := outer then
    ivarSet r c.symOuter (.obj o)
    ivarSet o name (.obj r)

def defineClass (name : String) (super : Option ObjRef) (outer : Option ObjRef) :
    StoreM (Except String ObjRef) := do
  let c ← wellKnown
  let outer := outer.getD c.object
  let sym ← intern name
  match ← ivarFind outer sym with
  | some v =>
    match ← classOf? v with
    | some (k, n) =>
      if n.kind != .ordinary then pure (.error (name ++ " is not a class"))
      else if super.isSome && (← superclass k) != super then
        pure (.error ("superclass mismatch for class " ++ name))
      else pure (.ok k)
    | none => pure (.error (name ++ " is not a class"))
  | none =>
    let super := super.getD c.object
    if (← node super).kind != .ordinary then pure (.error "superclass must be a Class")
    else
      let k ← allocClass .ordinary c.klass (some super)
      setClassName k (some outer) sym
      let _ ← singletonClassOf (.obj k)
      pure (.ok k)

def defineModule (name : String) (outer : Option ObjRef) : StoreM (Except String ObjRef) := do
  let c ← wellKnown
  let outer := outer.getD c.object
  let sym ← intern name
  match ← ivarFind outer sym with
  | some v =>
    match ← classOf? v with
    | some (k, n) =>
      if n.kind != .module then pure (.error (name ++ " is not a module")) else pure (.ok k)
    | none => pure (.error (name ++ " is not a module"))
  | none =>
    let m ← allocClass .module c.module none
    setClassName m (some outer) sym
    pure (.ok m)

def newClass (super : ObjRef) : StoreM ObjRef := do
  let c ← wellKnown
  let k ← allocClass .ordinary c.klass (some super)
  let _ ← singletonClassOf (.obj k)
  pure k

def newModule : StoreM ObjRef := do
  let c ← wellKnown
  allocClass .module c.module none

def constGet (r : ObjRef) (sym : Sym) : StoreM (Option Value) := do
  let c ← wellKnown
  match ← go (some r) (← chainFuel) with
  | some v => pure (some v)
  | none => ivarFind c.object sym
where
  go (s : Option ObjRef) : Nat → StoreM (Option Value)
    | 0 => pure none
    | fuel + 1 => do
      match s with
      | none => pure none
      | some p =>
        let n ← node p
        let holder := if n.kind.isInner then n.module.getD p else p
        match ← ivarFind holder sym with
        | some v => pure (some v)
        | none => go n.super fuel

def constSet (r : ObjRef) (sym : Sym) (v : Value) : StoreM Unit := do
  let c ← wellKnown
  match ← classOf? v with
  | some (k, _) =>
    if (← ivarFind k c.symClassName).isNone then setClassName k (some r) sym
    else ivarSet r sym v
  | none => ivarSet r sym v

def isConstName (name : String) : Bool :=
  match name.toList with
  | c :: _ => 'A' ≤ c && c ≤ 'Z'
  | [] => false

def constNames (r : ObjRef) : StoreM (List String) := do
  let s ← get
  let o ← getObj r
  pure (o.ivars.toList.filterMap fun (sym, _) =>
    let n := s.symText sym
    if isConstName n && !n.startsWith "__" then some n else none)

end Store

end RegisterVM
