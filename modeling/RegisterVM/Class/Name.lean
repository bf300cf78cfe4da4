import RegisterVM.Class.Chain
import RegisterVM.Float.Text
import RegisterVM.Text.Quoted

set_option autoImplicit false

namespace RegisterVM

namespace Store

mutual

def nameWith : Nat → Option ObjRef → StoreM String
  | 0, _ => pure ""
  | _, none => pure ""
  | fuel + 1, some r => do
    let n ← node r
    if n.kind.isInner then nameWith fuel n.module
    else
      let c ← wellKnown
      let o ← getObj r
      match o.ivars.getD c.symClassName .nil with
      | .sym s =>
        let s0 ← get
        let base := s0.symText s
        match o.ivars.getD c.symOuter .nil with
        | .obj oc =>
          match (← getObj oc).body with
          | .cls _ =>
            if oc == c.object then pure base
            else pure ((← nameWith fuel (some oc)) ++ "::" ++ base)
          | _ => pure base
        | _ => pure base
      | _ =>
        if n.kind == .singleton then
          pure ("#<Class:" ++ (← shortTextWith fuel (o.ivars.getD c.symAttached .nil)) ++ ">")
        else pure "#<Class>"

def shortTextWith : Nat → Value → StoreM String
  | _, .nil => pure "nil"
  | _, .bool true => pure "true"
  | _, .bool false => pure "false"
  | _, .int n => pure (Text.intText n.toInt)
  | _, .float b => pure (Float.general b)
  | _, .sym s => pure (":" ++ Text.natText s.id)
  | 0, .obj _ => pure ""
  | fuel + 1, .obj r => do
    let o ← getObj r
    match o.body with
    | .str s => pure (Text.literalString s)
    | .cls _ => nameWith fuel (some r)
    | _ => pure ("#<" ++ (← nameWith fuel o.cls) ++ ">")

end

def className (r : Option ObjRef) : StoreM String := do
  nameWith (2 * (← get).heap.size + 2) r

def realClassName (v : Value) : StoreM String := do
  className (← realClassOf v)

end Store

end RegisterVM
