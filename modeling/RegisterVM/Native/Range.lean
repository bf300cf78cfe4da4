import RegisterVM.Native.Support

set_option autoImplicit false

namespace RegisterVM

namespace Native

open Machine

def rangeParts (v : Value) : NativeM (Value × Value × Bool) := do
  let (_, o) ← objOf v
  match o.body with
  | .range first last excl => pure (first, last, excl)
  | _ => lift runtimeFault

def intBounds (v : Value) : NativeM (Int64 × Int64) := do
  let (first, last, excl) ← rangeParts v
  match first, last with
  | .int lo, .int hi => pure (lo, if excl then hi - 1 else hi)
  | _, _ => raiseErr (·.typeError) ("can't iterate from " ++ (← classNameOf first))

def rangeEachStep (self : Value) (blk : ObjRef) (k hi : Int64) : NativeStep :=
  if k ≤ hi then .call (runBlock blk #[.int k]) (.rangeEach self blk k hi) else .done self

def rangeCollectStep (k hi : Int64) (out : Array Value) : NativeM NativeStep := do
  if k ≤ hi then pure (.turn (.rangeCollect (k + 1) hi (out.push (.int k))))
  else pure (.done (← newArray out))

def coverHighStart (v last : Value) (low : Value) (excl : Bool) : NativeM NativeStep := do
  pure (.call (← sendPlain v "<=>" #[last]) (.coverHigh low excl))

def coverFinish (low high : Value) (excl : Bool) : NativeStep :=
  match low, high with
  | .int l, .int h => .done (.bool (l ≤ 0 && (if excl then h < 0 else h ≤ 0)))
  | _, _ => .done (.bool false)

def rangeLastEqual (x y : Value) : NativeM NativeStep := do
  match ← equalStart x y with
  | .inl b => pure (.done (.bool b))
  | .inr req => pure (.call req .truth)

def rangeLastTextStep (firstText sep : String) (last : Value) : NativeM NativeStep := do
  match ← stringifyStart last with
  | .inl t => pure (.done (← newString (firstText ++ sep ++ t)))
  | .inr req => pure (.call req (.rangeLastText firstText sep last))

def range (prim : RangePrim) (call : NativeCall) : NativeM NativeStep := do
  let self := call.self
  match prim with
  | .new =>
    checkArgs call 2 (some 3)
    let excl := call.args.size == 3 && (call.arg 2).truthy
    let x ← store (Store.newRange (call.arg 0) (call.arg 1) excl)
    if let some (k, _) ← store (Store.classOf? self) then
      if let .obj r := x then store (Store.modifyObj r fun o => { o with cls := some k })
    pure (.done x)
  | .first => pure (.done (← rangeParts self).1)
  | .last => pure (.done (← rangeParts self).2.1)
  | .excludeEnd => pure (.done (.bool (← rangeParts self).2.2))
  | .each =>
    let p ← blockProc call "no block given (each)"
    let (lo, hi) ← intBounds self
    pure (rangeEachStep self p lo hi)
  | .toA =>
    let (lo, hi) ← intBounds self
    pure (.turn (.rangeCollect lo hi #[]))
  | .size =>
    let (lo, hi) ← intBounds self
    pure (.done (.int (if hi < lo then 0 else hi - lo + 1)))
  | .includes =>
    checkArgs call 1 (some 1)
    let (first, last, excl) ← rangeParts self
    pure (.call (← sendPlain first "<=>" #[call.arg 0]) (.coverLow (call.arg 0) last excl))
  | .equal =>
    checkArgs call 1 (some 1)
    let (first, last, excl) ← rangeParts self
    let other ← match call.arg 0 with
      | .obj r =>
        match (← store (Store.getObj r)).body with
        | .range f l e => pure (some (f, l, e))
        | _ => pure none
      | _ => pure none
    match other with
    | some (f, l, e) =>
      if e != excl then return .done (.bool false)
      match ← equalStart first f with
      | .inl false => pure (.done (.bool false))
      | .inl true => rangeLastEqual last l
      | .inr req => pure (.call req (.rangeEqual last l))
    | none => pure (.done (.bool false))
  | .inspect => pure (.done (← newString (← inspect self)))
  | .toS =>
    let (first, last, excl) ← rangeParts self
    let sep := if excl then "..." else ".."
    match ← stringifyStart first with
    | .inl t => rangeLastTextStep t sep last
    | .inr req => pure (.call req (.rangeFirstText first last sep))

end Native

end RegisterVM
