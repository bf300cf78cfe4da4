import RegisterVM.Native.Kernel
import RegisterVM.Native.Module
import RegisterVM.Native.Numeric
import RegisterVM.Native.Text
import RegisterVM.Native.Array
import RegisterVM.Native.Hash
import RegisterVM.Native.Range
import RegisterVM.Native.Proc

set_option autoImplicit false

namespace RegisterVM

namespace Native

open Machine

def start : Primitive → NativeCall → NativeM NativeStep
  | .kernel p, call => kernel p call
  | .module p, call => module p call
  | .numeric p, call => numeric p call
  | .string p, call => string p call
  | .symbol p, call => symbol p call
  | .array p, call => array p call
  | .hash p, call => hash p call
  | .range p, call => range p call
  | .proc p, call => proc p call
  | .exception p, call => exception p call
  | .fiber p, call => fiber p call

def resume (task : Task) (v : Value) : NativeM NativeStep := do
  match task with
  | .pass => pure (.done v)
  | .const c => pure (.done c)
  | .negate => pure (.done (.bool !v.truthy))
  | .truth => pure (.done (.bool v.truthy))
  | .puts item rest =>
    let s ← stringifyFinish item v
    write (if s.endsWith "\n" then s else s ++ "\n")
    putsAdvance rest
  | .print item rest =>
    write (← stringifyFinish item v)
    printAdvance rest
  | .inspectPrint args i =>
    write ((← inspectFinish (args.getD i .nil) v) ++ "\n")
    inspectPrintAdvance args (i + 1)
  | .raiseBuilt => raiseChecked v
  | .loop blk => pure (.call (runBlock blk #[]) (.loop blk))
  | .append target arg => appendFinish target arg v
  | .times self blk k n => pure (timesStep self blk (k + 1) n)
  | .count self blk k last up => pure (countResume self blk k last up)
  | .arrayInit arr blk i n =>
    let (_, es) ← arrayElems (.obj arr)
    if i < es.size then setElems arr (es.set! i v) else lift runtimeFault
    pure (arrayInitStep arr blk (i + 1) n)
  | .arrayEach self arr blk i withIndex => arrayEachStep self arr blk (i + 1) withIndex
  | .arrayMap arr blk i out => arrayMapStep arr blk (i + 1) (out.push v)
  | .arrayFilter arr blk i keep out =>
    let x ← elemAt arr i
    let out := if v.truthy == keep then out.push x else out
    arrayFilterStep arr blk (i + 1) keep out
  | .reduce elems i op blk => reduceStep elems (i + 1) op blk v
  | .search arr target i wantIndex =>
    if v.truthy then pure (.done (if wantIndex then .ofInt i else .bool true))
    else searchStep arr target (i + 1) wantIndex
  | .arrayEqual a b i n =>
    if v.truthy then arrayEqualStep a b (i + 1) n else pure (.done (.bool false))
  | .sort x y next blk =>
    match v with
    | .int n => sortStep blk (next (n < 0))
    | _ =>
      raiseErr (·.argumentError) ("comparison of " ++ (← classNameOf x) ++ " with " ++
        (← classNameOf y) ++ " failed")
  | .join elems i sep acc item =>
    let t ← stringifyFinish item v
    joinStep elems (i + 1) sep (if i == 0 then t else acc ++ sep ++ t)
  | .inspectArray elems i acc =>
    let t ← inspectFinish (elems.getD i .nil) v
    inspectArrayStep elems (i + 1) (if i == 0 then t else acc ++ ", " ++ t)
  | .rangeEach self blk k hi => pure (rangeEachStep self blk (k + 1) hi)
  | .rangeCollect k hi out => rangeCollectStep k hi out
  | .coverLow x last excl => coverHighStart x last v excl
  | .coverHigh low excl => pure (coverFinish low v excl)
  | .rangeEqual x y => if v.truthy then rangeLastEqual x y else pure (.done (.bool false))
  | .rangeFirstText first last sep =>
    rangeLastTextStep (← stringifyFinish first v) sep last
  | .rangeLastText firstText sep last =>
    pure (.done (← newString (firstText ++ sep ++ (← stringifyFinish last v))))
  | .hashEach self h blk keys i => hashEachStep self h blk keys (i + 1)
  | .hashEqual a b keys i =>
    if v.truthy then hashEqualStep a b keys (i + 1) else pure (.done (.bool false))
  | .inspectHash entries i acc keyText =>
    let (k, x) := entries.getD i (.nil, .nil)
    match keyText with
    | none => inspectHashStep entries i acc (some ((← inspectFinish k v) ++ " => "))
    | some kt =>
      let part := kt ++ (← inspectFinish x v)
      inspectHashStep entries (i + 1) (if i == 0 then part else acc ++ ", " ++ part) none
  | .fetchMissing key => raiseErr (·.keyError) ("key not found: " ++ (← inspectFinish key v))

end Native

end RegisterVM
