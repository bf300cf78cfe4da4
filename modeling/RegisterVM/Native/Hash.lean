import RegisterVM.Native.Support

set_option autoImplicit false

namespace RegisterVM

namespace Native

open Machine

def mutableTable (v : Value) : NativeM (ObjRef × HashTable) := do
  let (r, t) ← hashTable v
  if ← isFrozen r then raiseFrozen v
  pure (r, t)

def hashGet (h : ObjRef) (k : Value) : NativeM (Option Value) := do
  let (_, t) ← hashTable (.obj h)
  store (Store.tableGet t k)

def hashEachStep (self : Value) (h blk : ObjRef) (keys : Array Value) (i : Nat) :
    NativeM NativeStep :=
  go i (keys.size - i + 1)
where
  go (i : Nat) : Nat → NativeM NativeStep
    | 0 => lift runtimeFault
    | fuel + 1 => do
      if hi : i < keys.size then
        match ← hashGet h keys[i] with
        | some v =>
          let pair ← newArray #[keys[i], v]
          pure (.call (runBlock blk #[pair]) (.hashEach self h blk keys i))
        | none => go (i + 1) fuel
      else pure (.done self)

def hashEqualStep (a b : ObjRef) (keys : Array Value) (i : Nat) : NativeM NativeStep :=
  go i (keys.size - i + 1)
where
  go (i : Nat) : Nat → NativeM NativeStep
    | 0 => lift runtimeFault
    | fuel + 1 => do
      if hi : i < keys.size then
        let x := (← hashGet a keys[i]).getD .nil
        match ← hashGet b keys[i] with
        | none => pure (.done (.bool false))
        | some y =>
          match ← equalStart x y with
          | .inl true => go (i + 1) fuel
          | .inl false => pure (.done (.bool false))
          | .inr req => pure (.call req (.hashEqual a b keys i))
      else pure (.done (.bool true))

def inspectHashStep (entries : Array (Value × Value)) (i : Nat) (acc : String)
    (keyText : Option String) : NativeM NativeStep :=
  go i acc keyText (2 * (entries.size - i) + 2)
where
  go (i : Nat) (acc : String) (keyText : Option String) : Nat → NativeM NativeStep
    | 0 => lift runtimeFault
    | fuel + 1 => do
      if hi : i < entries.size then
        let (k, v) := entries[i]
        let keyText ← match keyText with
          | some t => pure (some t)
          | none =>
            match k with
            | .sym s => pure (some ((← symText s) ++ ": "))
            | _ =>
              match ← inspectStart k with
              | .inl t => pure (some (t ++ " => "))
              | .inr _ => pure none
        match keyText with
        | none => pure (.call (← sendPlain k "inspect" #[]) (.inspectHash entries i acc none))
        | some kt =>
          match ← inspectStart v with
          | .inl t =>
            let part := kt ++ t
            go (i + 1) (if i == 0 then part else acc ++ ", " ++ part) none fuel
          | .inr req => pure (.call req (.inspectHash entries i acc (some kt)))
      else pure (.done (← newString ("\x7b" ++ acc ++ "\x7d")))

def hash (prim : HashPrim) (call : NativeCall) : NativeM NativeStep := do
  let self := call.self
  match prim with
  | .get =>
    checkArgs call 1 (some 1)
    let (r, _) ← hashTable self
    pure (.done ((← hashGet r (call.arg 0)).getD .nil))
  | .store =>
    checkArgs call 2 (some 2)
    let key ← match call.arg 0 with
      | .obj k =>
        let o ← store (Store.getObj k)
        match o.body with
        | .str s =>
          if o.frozen then pure (call.arg 0)
          else do
            let copy ← newString s
            if let .obj c := copy then store (Store.modifyObj c fun o => { o with frozen := true })
            pure copy
        | _ => pure (call.arg 0)
      | v => pure v
    let (r, t) ← mutableTable self
    setTable r (← store (Store.tableSet t key (call.arg 1)))
    pure (.done (call.arg 1))
  | .fetch =>
    checkArgs call 1 (some 2)
    let (r, _) ← hashTable self
    match ← hashGet r (call.arg 0) with
    | some v => pure (.done v)
    | none =>
      if !call.blk.isNil then pure (.call (← yieldTo call #[call.arg 0]) .pass)
      else if call.args.size == 2 then pure (.done (call.arg 1))
      else
        match ← inspectStart (call.arg 0) with
        | .inl t => raiseErr (·.keyError) ("key not found: " ++ t)
        | .inr req => pure (.call req (.fetchMissing (call.arg 0)))
  | .hasKey =>
    checkArgs call 1 (some 1)
    let (r, _) ← hashTable self
    pure (.done (.bool (← hashGet r (call.arg 0)).isSome))
  | .delete =>
    checkArgs call 1 (some 1)
    let (r, t) ← mutableTable self
    let (t, v) ← store (Store.tableDelete t (call.arg 0))
    setTable r t
    pure (.done (v.getD .nil))
  | .size => pure (.done (.ofInt (← hashTable self).2.size))
  | .isEmpty => pure (.done (.bool ((← hashTable self).2.size == 0)))
  | .keys => pure (.done (← newArray (← hashTable self).2.keys))
  | .values => pure (.done (← newArray (← hashTable self).2.vals))
  | .toA =>
    let (_, t) ← hashTable self
    let mut out := #[]
    for (k, v) in t.entries do out := out.push (← newArray #[k, v])
    pure (.done (← newArray out))
  | .each =>
    let p ← blockProc call "no block given (each)"
    let (r, t) ← hashTable self
    hashEachStep self r p t.keys 0
  | .merge =>
    checkArgs call 1 (some 1)
    let (_, t) ← hashTable self
    match ← store (Store.hashOf? (call.arg 0)) with
    | none =>
      raiseErr (·.typeError) ("no implicit conversion of " ++ (← classNameOf (call.arg 0)) ++ " into Hash")
    | some o =>
      let mut out ← store (Store.tableCopy t)
      for (k, v) in o.entries do out ← store (Store.tableSet out k v)
      pure (.done (← store (Store.newHash out)))
  | .equal =>
    checkArgs call 1 (some 1)
    let (r, t) ← hashTable self
    match ← store (Store.hashOf? (call.arg 0)) with
    | none => pure (.done (.bool false))
    | some o =>
      if t.size != o.size then return .done (.bool false)
      match (call.arg 0).ref? with
      | some b => hashEqualStep r b t.keys 0
      | none => lift runtimeFault
  | .inspect =>
    let (_, t) ← hashTable self
    inspectHashStep t.entries.toArray 0 "" none

end Native

end RegisterVM
