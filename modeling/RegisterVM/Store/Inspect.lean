import Std.Data.HashSet
import RegisterVM.Class.Name

set_option autoImplicit false

namespace RegisterVM

namespace Store

abbrev Shown := Std.HashSet Nat

def ivarNames (o : Obj) (s : Store) : List Sym :=
  let syms := o.ivars.toList.map (·.1) |>.filter fun sym => (s.symText sym).startsWith "@"
  syms.mergeSort fun a b => a.id ≤ b.id

def markShown (shown : Option Shown) (r : ObjRef) : Shown :=
  (shown.getD {}).insert r.idx

mutual

def messageWith : Nat → Value → StoreM String
  | 0, _ => pure ""
  | fuel + 1, v => do
    match v with
    | .obj r =>
      match (← getObj r).body with
      | .exception msg _ =>
        match msg with
        | .nil => realClassName v
        | .obj m =>
          match (← getObj m).body with
          | .str s => pure s
          | _ => pure (← inspectWith fuel msg none).1
        | _ => pure (← inspectWith fuel msg none).1
      | _ => pure (← inspectWith fuel v none).1
    | _ => pure (← inspectWith fuel v none).1

def inspectWith : Nat → Value → Option Shown → StoreM (String × Option Shown)
  | _, .nil, shown => pure ("nil", shown)
  | _, .bool true, shown => pure ("true", shown)
  | _, .bool false, shown => pure ("false", shown)
  | _, .int n, shown => pure (Text.intText n.toInt, shown)
  | _, .float b, shown => pure (Float.inspect b, shown)
  | _, .sym s, shown => do pure (":" ++ (← get).symText s, shown)
  | 0, .obj _, shown => pure ("", shown)
  | fuel + 1, .obj r, shown => do
    let o ← getObj r
    if shown.any (·.contains r.idx) then
      match o.body with
      | .array _ => pure ("[...]", shown)
      | .hash _ => pure ("\x7b...\x7d", shown)
      | _ => pure ("...", shown)
    else
    let keep (inner : Shown) : Option Shown := if shown.isSome then some inner else none
    match o.body with
    | .str s => pure (Text.inspectString s, shown)
    | .array elems =>
      let mut inner := markShown shown r
      let mut text := ""
      let mut first := true
      for v in elems do
        let (t, inner') ← inspectWith fuel v (some inner)
        inner := inner'.getD inner
        text := text ++ (if first then "" else ", ") ++ t
        first := false
      pure ("[" ++ text ++ "]", keep inner)
    | .hash t =>
      let mut inner := markShown shown r
      if t.size == 0 then return ("\x7b\x7d", keep inner)
      let mut text := ""
      let mut first := true
      for (k, v) in t.entries do
        let keyText ← match k with
          | .sym s => do pure ((← get).symText s ++ ": ")
          | _ => do
            let (kt, inner') ← inspectWith fuel k (some inner)
            inner := inner'.getD inner
            pure (kt ++ " => ")
        let (vt, inner') ← inspectWith fuel v (some inner)
        inner := inner'.getD inner
        text := text ++ (if first then "" else ", ") ++ keyText ++ vt
        first := false
      pure ("\x7b" ++ text ++ "\x7d", keep inner)
    | .range first last excl =>
      let (a, shown) ← inspectWith fuel first shown
      let (b, shown) ← inspectWith fuel last shown
      pure (a ++ (if excl then "..." else "..") ++ b, shown)
    | .cls _ => pure (← className (some r), shown)
    | .exception _ _ =>
      let name ← realClassName (.obj r)
      let msg ← messageWith fuel (.obj r)
      if msg == "" || msg == name then pure (name, shown)
      else pure ("#<" ++ name ++ ": " ++ msg ++ ">", shown)
    | .proc p =>
      match p.code with
      | .compiled _ => pure (if p.strict then "#<Proc (lambda)>" else "#<Proc>", shown)
      | .native _ => pure ("#<Proc>", shown)
    | _ =>
      let name ← className (← real o.cls)
      let mut inner := markShown shown r
      let s ← get
      let mut text := ""
      for sym in ivarNames o s do
        let (t, inner') ← inspectWith fuel (o.ivars.getD sym .nil) (some inner)
        inner := inner'.getD inner
        text := text ++ " " ++ s.symText sym ++ "=" ++ t
      pure ("#<" ++ name ++ text ++ ">", keep inner)

end

def renderFuel : StoreM Nat := do
  let n := (← get).heap.size
  pure ((n + 1) * (n + 1) * (n + 1) + n + 2)

def inspect (v : Value) : StoreM String := do
  pure (← inspectWith (← renderFuel) v none).1

def exceptionMessage (v : Value) : StoreM String := do
  messageWith (← renderFuel) v

def defaultToS (v : Value) : StoreM String := do
  match v with
  | .nil => pure ""
  | .sym s => pure ((← get).symText s)
  | .obj r =>
    match (← getObj r).body with
    | .str s => pure s
    | .exception _ _ => exceptionMessage v
    | .plain => pure ("#<" ++ (← realClassName v) ++ ">")
    | _ => inspect v
  | _ => inspect v

def objectId (v : Value) : StoreM Int64 := do
  match v with
  | .int n => pure (2 * n + 1)
  | .obj r =>
    let o ← getObj r
    let id ← if o.serial == 0 then do
        let s ← get
        let id := s.lastId + 1
        set { s with lastId := id }
        setObj r { o with serial := id }
        pure id
      else pure o.serial
    pure (Int64.ofNat id <<< 3)
  | .sym s => pure (Int64.ofNat (3 * Nat.pow 2 32 + s.id % Nat.pow 2 32))
  | .float b => pure (Int64.ofNat (5 * Nat.pow 2 32 + b.toNat % Nat.pow 2 32))
  | .nil => pure 0
  | .bool false => pure (Int64.ofNat (Nat.pow 2 32))
  | .bool true => pure (Int64.ofNat (2 * Nat.pow 2 32))

def newError (cls : Core → ObjRef) (msg : String) : StoreM Value := do
  newException (cls (← wellKnown)) msg

def frozenError (v : Value) : StoreM Value := do
  let name ← realClassName v
  let text ← inspect v
  newError (·.frozenError) ("can't modify frozen " ++ name ++ ": " ++ text)

end Store

end RegisterVM
