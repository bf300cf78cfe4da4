import RegisterVM.Native.Support

set_option autoImplicit false

namespace RegisterVM

namespace Native

open Machine

def mutableElems (v : Value) : NativeM (ObjRef × Array Value) := do
  let (r, es) ← arrayElems v
  if ← isFrozen r then raiseFrozen v
  pure (r, es)

def normIndex (i : Int64) (n : Nat) : Option Nat :=
  let i := if i < 0 then i.toInt + n else i.toInt
  if i < 0 || i ≥ n then none else some i.toNat

def elemAt (arr : ObjRef) (i : Nat) : NativeM Value := do
  let (_, es) ← arrayElems (.obj arr)
  if h : i < es.size then pure es[i] else lift runtimeFault

def arrayInitStep (arr blk : ObjRef) (i n : Nat) : NativeStep :=
  if i < n then .call (runBlock blk #[.ofInt i]) (.arrayInit arr blk i n) else .done .nil

def arrayEachStep (self : Value) (arr blk : ObjRef) (i : Nat) (withIndex : Bool) :
    NativeM NativeStep := do
  let (_, es) ← arrayElems (.obj arr)
  if h : i < es.size then
    let args := if withIndex then #[es[i], .ofInt i] else #[es[i]]
    pure (.call (runBlock blk args) (.arrayEach self arr blk i withIndex))
  else pure (.done self)

def arrayMapStep (arr blk : ObjRef) (i : Nat) (out : Array Value) : NativeM NativeStep := do
  let (_, es) ← arrayElems (.obj arr)
  if h : i < es.size then pure (.call (runBlock blk #[es[i]]) (.arrayMap arr blk i out))
  else pure (.done (← newArray out))

def arrayFilterStep (arr blk : ObjRef) (i : Nat) (keep : Bool) (out : Array Value) :
    NativeM NativeStep := do
  let (_, es) ← arrayElems (.obj arr)
  if h : i < es.size then pure (.call (runBlock blk #[es[i]]) (.arrayFilter arr blk i keep out))
  else pure (.done (← newArray out))

def reduceStep (elems : Array Value) (i : Nat) (op : Option Sym) (blk : Value) (acc : Value) :
    NativeM NativeStep := do
  if h : i < elems.size then
    let req ← match op with
      | some mid => pure (Request.send acc mid #[elems[i]] none .nil)
      | none =>
        match ← lift (procOf? blk) with
        | some (p, _) => pure (runBlock p #[acc, elems[i]])
        | none => raiseErr (·.localJumpError) "no block given (yield)"
    pure (.call req (.reduce elems i op blk))
  else pure (.done acc)

def searchStep (arr : ObjRef) (target : Value) (i : Nat) (wantIndex : Bool) :
    NativeM NativeStep := do
  let (_, es) ← arrayElems (.obj arr)
  go es i (es.size - i + 1)
where
  go (es : Array Value) (i : Nat) : Nat → NativeM NativeStep
    | 0 => lift runtimeFault
    | fuel + 1 => do
      if h : i < es.size then
        match ← equalStart es[i] target with
        | .inl true => pure (.done (if wantIndex then .ofInt i else .bool true))
        | .inl false => go es (i + 1) fuel
        | .inr req => pure (.call req (.search arr target i wantIndex))
      else pure (.done (if wantIndex then .nil else .bool false))

def arrayEqualStep (a b : ObjRef) (i n : Nat) : NativeM NativeStep :=
  go i (n - i + 1)
where
  go (i : Nat) : Nat → NativeM NativeStep
    | 0 => lift runtimeFault
    | fuel + 1 => do
      if i < n then
        match ← equalStart (← elemAt a i) (← elemAt b i) with
        | .inl true => go (i + 1) fuel
        | .inl false => pure (.done (.bool false))
        | .inr req => pure (.call req (.arrayEqual a b i n))
      else pure (.done (.bool true))

def sortStep (blk : Option ObjRef) : Order.Asking Value (Array Value) → NativeM NativeStep
  | .pure sorted => do pure (.done (← newArray sorted))
  | .less x y next => do
    let req ← match blk with
      | some p =>
        if (← lift (procOf? (.obj p))).isNone then raiseErr (·.localJumpError) "no block given (yield)"
        pure (runBlock p #[x, y])
      | none => sendPlain x "<=>" #[y]
    pure (.call req (.sort x y next blk))

def joinStep (elems : Array Value) (i : Nat) (sep acc : String) : NativeM NativeStep :=
  go i acc (elems.size - i + 1)
where
  go (i : Nat) (acc : String) : Nat → NativeM NativeStep
    | 0 => lift runtimeFault
    | fuel + 1 => do
      if h : i < elems.size then
        match ← stringifyStart elems[i] with
        | .inl t => go (i + 1) (if i == 0 then t else acc ++ sep ++ t) fuel
        | .inr req => pure (.call req (.join elems i sep acc elems[i]))
      else pure (.done (← newString acc))

def inspectArrayStep (elems : Array Value) (i : Nat) (acc : String) : NativeM NativeStep :=
  go i acc (elems.size - i + 1)
where
  go (i : Nat) (acc : String) : Nat → NativeM NativeStep
    | 0 => lift runtimeFault
    | fuel + 1 => do
      if h : i < elems.size then
        match ← inspectStart elems[i] with
        | .inl t => go (i + 1) (if i == 0 then t else acc ++ ", " ++ t) fuel
        | .inr req => pure (.call req (.inspectArray elems i acc))
      else pure (.done (← newString ("[" ++ acc ++ "]")))

def maxNewLength : Nat := Nat.pow 2 43

def array (prim : ArrayPrim) (call : NativeCall) : NativeM NativeStep := do
  let self := call.self
  match prim with
  | .construct =>
    checkArgs call 0 (some 2)
    let n ← if call.args.size > 0 then intArg call 0 else pure 0
    if n < 0 then raiseErr (·.argumentError) "negative array size"
    let (r, _) ← arrayElems self
    let n := n.toInt.toNat
    if n > maxNewLength then lift runtimeFault
    match ← lift (procOf? call.blk) with
    | some (p, _) =>
      setElems r (Array.replicate n .nil)
      pure (arrayInitStep r p 0 n)
    | none =>
      if call.blk.isNil then
        setElems r (Array.replicate n (call.arg 1))
        pure (.done .nil)
      else
        setElems r (Array.replicate n .nil)
        if n == 0 then pure (.done .nil)
        else raiseErr (·.localJumpError) "no block given (yield)"
  | .at =>
    checkArgs call 1 (some 1)
    let (_, es) ← arrayElems self
    match normIndex (← intArg call 0) es.size with
    | some i => pure (.done (es.getD i .nil))
    | none => pure (.done .nil)
  | .store =>
    checkArgs call 2 (some 2)
    let (r, es) ← mutableElems self
    let i0 ← intArg call 0
    let i := if i0 < 0 then i0.toInt + es.size else i0.toInt
    if i < 0 then raiseErr (·.indexError) ("index " ++ toString i0.toInt ++ " too small for array")
    let i := i.toNat
    let es := if es.size ≤ i then es ++ Array.replicate (i + 1 - es.size) .nil else es
    setElems r (es.set! i (call.arg 1))
    pure (.done (call.arg 1))
  | .push =>
    let (r, es) ← mutableElems self
    setElems r (es ++ call.args)
    pure (.done self)
  | .pop =>
    let (r, es) ← mutableElems self
    if es.isEmpty then return .done .nil
    setElems r es.pop
    pure (.done (es.back?.getD .nil))
  | .shift =>
    let (r, es) ← mutableElems self
    if es.isEmpty then return .done .nil
    setElems r (es.extract 1 es.size)
    pure (.done (es.getD 0 .nil))
  | .unshift =>
    let (r, es) ← mutableElems self
    setElems r (call.args ++ es)
    pure (.done self)
  | .size => pure (.done (.ofInt (← arrayElems self).2.size))
  | .isEmpty => pure (.done (.bool (← arrayElems self).2.isEmpty))
  | .first => pure (.done ((← arrayElems self).2.getD 0 .nil))
  | .last => pure (.done ((← arrayElems self).2.back?.getD .nil))
  | .each =>
    let p ← blockProc call "no block given (each)"
    let (r, _) ← arrayElems self
    arrayEachStep self r p 0 false
  | .eachWithIndex =>
    let p ← blockProc call "no block given (each_with_index)"
    let (r, _) ← arrayElems self
    arrayEachStep self r p 0 true
  | .map =>
    let p ← blockProc call "no block given (map)"
    let (r, _) ← arrayElems self
    arrayMapStep r p 0 #[]
  | .filter keep =>
    let p ← blockProc call "no block given"
    let (r, _) ← arrayElems self
    arrayFilterStep r p 0 keep #[]
  | .reduce =>
    checkArgs call 0 (some 2)
    let (_, elems) ← arrayElems self
    let argc := call.args.size
    let (acc, op) ← if argc == 2 then pure (call.arg 0, some (← symbolArg call 1))
      else if argc == 1 && call.blk.isNil then pure (Value.nil, some (← symbolArg call 0))
      else if argc == 1 then pure (call.arg 0, none)
      else pure (Value.nil, none)
    if argc == 0 || (argc == 1 && op.isSome) then
      if elems.isEmpty then return .done .nil
      reduceStep elems 1 op call.blk (elems.getD 0 .nil)
    else reduceStep elems 0 op call.blk acc
  | .includes | .index =>
    checkArgs call 1 (some 1)
    let (r, _) ← arrayElems self
    searchStep r (call.arg 0) 0 (prim == .index)
  | .equal =>
    checkArgs call 1 (some 1)
    let (r, es) ← arrayElems self
    match ← store (Store.arrayOf? (call.arg 0)) with
    | none => pure (.done (.bool false))
    | some os =>
      if call.arg 0 == .obj r then return .done (.bool true)
      if es.size != os.size then return .done (.bool false)
      match (call.arg 0).ref? with
      | some o => arrayEqualStep r o 0 es.size
      | none => lift runtimeFault
  | .plus =>
    checkArgs call 1 (some 1)
    match ← store (Store.arrayOf? (call.arg 0)) with
    | none =>
      raiseErr (·.typeError) ("no implicit conversion of " ++ (← classNameOf (call.arg 0)) ++ " into Array")
    | some os => pure (.done (← newArray ((← arrayElems self).2 ++ os)))
  | .reverse => pure (.done (← newArray (← arrayElems self).2.reverse))
  | .dup => pure (.done (← newArray (← arrayElems self).2))
  | .toA => pure (.done self)
  | .sort =>
    let (_, es) ← arrayElems self
    sortStep call.blk.ref? (Order.stableSort es)
  | .join =>
    checkArgs call 0 (some 1)
    let sep ← if call.args.size == 1 then stringArg call 0 else pure ""
    let (_, es) ← arrayElems self
    joinStep es 0 sep ""
  | .inspect =>
    let (_, es) ← arrayElems self
    inspectArrayStep es 0 ""

end Native

end RegisterVM
