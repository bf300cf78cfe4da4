import RegisterVM.Machine.Run

set_option autoImplicit false

namespace RegisterVM

structure Options where
  maxDepth : Int := 0
  stackSize : Int := 0
  frameCapacity : Int := 0
  stepLimit : Nat := 0
  checkInterval : Int := 0
deriving Repr, Inhabited

def Options.limits (o : Options) : Limits :=
  let pick (v : Int) (d : Nat) : Nat := if v ≤ 0 then d else v.toNat
  let interval := pick o.checkInterval 1024
  let interval := if o.stepLimit > 0 && o.stepLimit < interval then o.stepLimit else interval
  { maxDepth := pick o.maxDepth 512, stackSize := pick o.stackSize 128,
    stepLimit := o.stepLimit, interval }

namespace Store

def defineNative (k : ObjRef) (name : String) (p : Primitive) : StoreM Unit := do
  defineRaw k (← intern name) (.native p)

def defineAll (k : ObjRef) (onSingleton : Bool) (items : List (String × Primitive)) :
    StoreM Unit := do
  let target ← if onSingleton then
      match ← singletonClassOf (.obj k) with
      | some sc => pure sc
      | none => runtimeFault
    else pure k
  for (name, p) in items do defineNative target name p

def setCore (f : Core → Core) : StoreM Unit := modify fun s => { s with core := f s.core }

def mustDefine (r : StoreM (Except String ObjRef)) : StoreM ObjRef := do
  match ← r with
  | .ok k => pure k
  | .error msg => panic msg

def nativeProc (p : Primitive) : StoreM ObjRef := do
  let c ← wellKnown
  alloc { cls := some c.proc, body := .proc { code := .native p, strict := true } }

def kernelMethods : List (String × Primitive) × List (String × Primitive) :=
  let k (p : KernelPrim) := Primitive.kernel p
  ([("initialize", k .construct), ("==", k .identical), ("equal?", k .identical),
    ("!=", k .notEqual), ("!", k .negation), ("__send__", k .send)],
   [("send", k .send), ("public_send", k .send), ("class", k .classOf),
    ("singleton_class", k .singletonClass), ("is_a?", k .isA), ("kind_of?", k .isA),
    ("instance_of?", k .instanceOf), ("respond_to?", k .respondTo), ("nil?", k .isNil),
    ("instance_variable_get", k .ivarGet), ("instance_variable_set", k .ivarSet),
    ("instance_variable_defined?", k .ivarDefined), ("instance_variables", k .ivarNames),
    ("extend", k .extend), ("freeze", k .freeze), ("frozen?", k .isFrozen),
    ("object_id", k .objectId), ("to_s", k .toS), ("inspect", k .inspect),
    ("===", k .caseEqual), ("tap", k .tap), ("then", k .thenDo), ("puts", k .puts),
    ("print", k .print), ("p", k .inspectPrint), ("raise", k .raise),
    ("block_given?", k .blockGiven), ("lambda", k .lambda), ("proc", k .proc),
    ("loop", k .loop)])

def moduleMethods : List (String × Primitive) × List (String × Primitive) :=
  let m (p : ModulePrim) := Primitive.module p
  ([("include", m .include), ("prepend", m .prepend), ("include?", m .includes),
    ("ancestors", m .ancestors), ("name", m .name), ("to_s", m .toS), ("inspect", m .toS),
    ("===", m .caseEqual), ("define_method", m .defineMethod),
    ("alias_method", m .aliasMethod), ("undef_method", m .undefMethod),
    ("remove_method", m .removeMethod), ("method_defined?", m .methodDefined),
    ("instance_methods", m .instanceMethods), ("attr_reader", m .attrReader),
    ("attr_writer", m .attrWriter), ("attr_accessor", m .attrAccessor),
    ("const_get", m .constGet), ("const_set", m .constSet),
    ("const_defined?", m .constDefined), ("constants", m .constants)],
   [("new", m .newInstance), ("allocate", m .allocate), ("superclass", m .superclass)])

def numericMethods : List (String × Primitive) × List (String × Primitive) ×
    List (String × Primitive) :=
  let n (p : NumericPrim) := Primitive.numeric p
  ([("+", n (.binop .add)), ("-", n (.binop .sub)), ("*", n (.binop .mul)),
    ("/", n (.binop .div)), ("==", n (.binop .eq)), ("<", n (.binop .lt)),
    ("<=", n (.binop .le)), (">", n (.binop .gt)), (">=", n (.binop .ge)),
    ("<=>", n .compare), ("-@", n .negate), ("abs", n .abs), ("zero?", n .isZero),
    ("%", n .modulo), ("**", n .power)],
   [("to_i", n .intToI), ("to_f", n .intToF), ("to_s", n .intToS), ("inspect", n .intToS),
    ("even?", n .even), ("odd?", n .odd), ("succ", n .succ), ("pred", n .pred),
    ("times", n .times), ("upto", n .upto), ("downto", n .downto)],
   [("to_s", n .floatToS), ("inspect", n .floatToS), ("to_f", n .floatToF),
    ("to_i", n .truncate), ("truncate", n .truncate), ("floor", n .floor), ("ceil", n .ceil),
    ("round", n .round), ("nan?", n .isNaN), ("infinite?", n .isInfinite),
    ("finite?", n .isFinite)])

def stringMethods : List (String × Primitive) :=
  let s (p : StringPrim) := Primitive.string p
  [("initialize", s .construct), ("+", s .plus), ("*", s .times), ("<<", s .append),
   ("==", s .equal), ("eql?", s .equal), ("<=>", s .compare), ("<", s .less),
   (">", s .greater), ("length", s .length), ("size", s .length), ("bytesize", s .bytesize),
   ("empty?", s .isEmpty), ("[]", s .charAt), ("to_s", s .toS), ("to_str", s .toS),
   ("to_sym", s .toSym), ("inspect", s .inspect), ("to_i", s .toI), ("upcase", s .upcase),
   ("downcase", s .downcase), ("reverse", s .reverse), ("strip", s .strip),
   ("include?", s .includes), ("start_with?", s .startsWith), ("end_with?", s .endsWith),
   ("split", s .split), ("dup", s .dup)]

def symbolMethods : List (String × Primitive) :=
  let s (p : SymbolPrim) := Primitive.symbol p
  [("to_s", s .toS), ("name", s .toS), ("to_sym", s .toSym), ("inspect", s .inspect),
   ("length", s .length), ("size", s .length), ("to_proc", s .toProc)]

def arrayMethods : List (String × Primitive) :=
  let a (p : ArrayPrim) := Primitive.array p
  [("initialize", a .construct), ("[]", a .at), ("at", a .at), ("[]=", a .store),
   ("push", a .push), ("<<", a .push), ("pop", a .pop), ("shift", a .shift),
   ("unshift", a .unshift), ("size", a .size), ("length", a .size), ("empty?", a .isEmpty),
   ("first", a .first), ("last", a .last), ("each", a .each),
   ("each_with_index", a .eachWithIndex), ("map", a .map), ("select", a (.filter true)),
   ("filter", a (.filter true)), ("reject", a (.filter false)), ("inject", a .reduce),
   ("reduce", a .reduce), ("include?", a .includes), ("index", a .index), ("==", a .equal),
   ("+", a .plus), ("reverse", a .reverse), ("dup", a .dup), ("to_a", a .toA),
   ("sort", a .sort), ("join", a .join), ("inspect", a .inspect), ("to_s", a .inspect)]

def hashMethods : List (String × Primitive) :=
  let h (p : HashPrim) := Primitive.hash p
  [("[]", h .get), ("[]=", h .store), ("fetch", h .fetch), ("key?", h .hasKey),
   ("has_key?", h .hasKey), ("include?", h .hasKey), ("delete", h .delete), ("size", h .size),
   ("length", h .size), ("empty?", h .isEmpty), ("keys", h .keys), ("values", h .values),
   ("to_a", h .toA), ("each", h .each), ("each_pair", h .each), ("merge", h .merge),
   ("==", h .equal), ("inspect", h .inspect), ("to_s", h .inspect)]

def rangeMethods : List (String × Primitive) :=
  let r (p : RangePrim) := Primitive.range p
  [("first", r .first), ("begin", r .first), ("last", r .last), ("end", r .last),
   ("exclude_end?", r .excludeEnd), ("each", r .each), ("to_a", r .toA), ("size", r .size),
   ("include?", r .includes), ("===", r .includes), ("cover?", r .includes),
   ("==", r .equal), ("inspect", r .inspect), ("to_s", r .toS)]

def procMethods : List (String × Primitive) :=
  let p (x : ProcPrim) := Primitive.proc x
  [("arity", p .arity), ("lambda?", p .isLambda), ("to_proc", p .toProc),
   ("inspect", p .inspect)]

def exceptionMethods : List (String × Primitive) :=
  let e (p : ExceptionPrim) := Primitive.exception p
  [("initialize", e .construct), ("message", e .message), ("to_s", e .message),
   ("inspect", e .inspect), ("backtrace", e .backtrace)]

def bootRoots : StoreM (ObjRef × ObjRef × ObjRef × ObjRef) := do
  let klass : ObjRef := ⟨(← get).heap.size + 3⟩
  let basicObject ← allocClass .ordinary klass none
  let object ← allocClass .ordinary klass (some basicObject)
  let module ← allocClass .ordinary klass (some object)
  let _ ← allocClass .ordinary klass (some module)
  setCore fun c => { c with basicObject, object, module, klass }
  pure (basicObject, object, module, klass)

def boot : StoreM Unit := do
  let (basicObject, object, module, klass) ← bootRoots
  let symClassName ← intern "__classname__"
  let symOuter ← intern "__outer__"
  let symAttached ← intern "__attached__"
  let symMethodMissing ← intern "method_missing"
  let symInitialize ← intern "initialize"
  let symCall ← intern "call"
  let mut opSyms := []
  for (op, name) in [(ArithOp.add, "+"), (.sub, "-"), (.mul, "*"), (.div, "/"), (.eq, "=="),
      (.lt, "<"), (.le, "<="), (.gt, ">"), (.ge, ">=")] do
    opSyms := opSyms ++ [(op, ← intern name)]
  setCore fun c => { c with symClassName, symOuter, symAttached, symMethodMissing }
  setCore fun c => { c with symInitialize, symCall, opSyms }
  for (name, k) in [("BasicObject", basicObject), ("Object", object), ("Module", module),
      ("Class", klass)] do
    setClassName k (some object) (← intern name)
  for k in [basicObject, object, module, klass] do
    let _ ← singletonClassOf (.obj k)
  let kernel ← mustDefine (defineModule "Kernel" none)
  setCore fun c => { c with kernel }
  if let some e ← includeModule object kernel then panic e.message
  let cls (name : String) (super : Option ObjRef) := mustDefine (defineClass name super none)
  let nilClass ← cls "NilClass" none
  let trueClass ← cls "TrueClass" none
  let falseClass ← cls "FalseClass" none
  let numeric ← cls "Numeric" none
  let integer ← cls "Integer" (some numeric)
  let float ← cls "Float" (some numeric)
  let symbol ← cls "Symbol" none
  let string ← cls "String" none
  let array ← cls "Array" none
  let hash ← cls "Hash" none
  let range ← cls "Range" none
  let proc ← cls "Proc" none
  let fiber ← cls "Fiber" none
  setCore fun c => { c with nilClass, trueClass, falseClass, numeric, integer, float }
  setCore fun c => { c with symbol, string, array, hash, range, proc, fiber }
  let exception ← cls "Exception" (some object)
  let scriptError ← cls "ScriptError" (some exception)
  let standardError ← cls "StandardError" (some exception)
  let argumentError ← cls "ArgumentError" (some standardError)
  let typeError ← cls "TypeError" (some standardError)
  let nameError ← cls "NameError" (some standardError)
  let noMethodError ← cls "NoMethodError" (some nameError)
  let runtimeError ← cls "RuntimeError" (some standardError)
  let frozenError ← cls "FrozenError" (some runtimeError)
  let localJumpError ← cls "LocalJumpError" (some standardError)
  let zeroDivisionError ← cls "ZeroDivisionError" (some standardError)
  let indexError ← cls "IndexError" (some standardError)
  let keyError ← cls "KeyError" (some indexError)
  let rangeError ← cls "RangeError" (some standardError)
  let fiberError ← cls "FiberError" (some standardError)
  setCore fun c => { c with exception, scriptError, standardError, argumentError, typeError }
  setCore fun c => { c with nameError, noMethodError, runtimeError, frozenError }
  setCore fun c => { c with localJumpError, zeroDivisionError, indexError, keyError }
  setCore fun c => { c with rangeError, fiberError }
  -- main, the top-level self
  let main ← alloc { cls := some object, body := .plain }
  setCore fun c => { c with main }
  match ← singletonClassOf (.obj main) with
  | some sc => defineAll sc false [("to_s", .kernel .mainName), ("inspect", .kernel .mainName)]
  | none => runtimeFault
  -- built-in methods
  let (basicMethods, kernelOwn) := kernelMethods
  defineAll basicObject false basicMethods
  defineAll kernel false kernelOwn
  let defaultMissing ← nativeProc (.kernel .methodMissing)
  setCore fun c => { c with defaultMissing }
  defineRaw basicObject symMethodMissing (.proc defaultMissing)
  let (moduleOwn, classOwn) := moduleMethods
  defineAll module false moduleOwn
  defineAll module true [("new", .module .moduleNew)]
  defineAll klass false classOwn
  defineAll klass true [("new", .module .classNew)]
  let (numericOwn, integerOwn, floatOwn) := numericMethods
  defineAll numeric false numericOwn
  defineAll integer false integerOwn
  constSet float (← intern "INFINITY") (.float (Float.infinityBits false))
  constSet float (← intern "NAN") (.float Float.nanBits)
  constSet float (← intern "EPSILON") (.float 0x3cb0000000000000)
  defineAll float false floatOwn
  defineAll string false stringMethods
  defineAll symbol false symbolMethods
  defineAll array false arrayMethods
  defineAll hash false hashMethods
  defineAll range true [("new", .range .new)]
  defineAll range false rangeMethods
  let procCall ← nativeProc (.proc .call)
  setCore fun c => { c with procCall }
  for name in ["call", "[]", "yield", "==="] do
    defineRaw proc (← intern name) (.proc procCall)
  defineAll proc true [("new", .proc .new)]
  defineAll proc false procMethods
  defineAll exception false exceptionMethods
  defineAll exception true [("exception", .exception .exception)]
  defineAll fiber true [("new", .fiber .new), ("yield", .fiber .yield)]
  defineAll fiber false [("resume", .fiber .resume), ("alive?", .fiber .isAlive)]

end Store

namespace Machine

def freshContext (limits : Limits) : Context := { stack := Array.replicate limits.stackSize .nil }

def boot (opts : Options) : Except Fault Machine :=
  let limits := opts.limits
  match Store.boot.run {} with
  | .ok () store => .ok { store, contexts := #[freshContext limits], limits }
  | .error f _ => .error f

end Machine

end RegisterVM
