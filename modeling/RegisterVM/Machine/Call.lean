import RegisterVM.Machine.Unwind

set_option autoImplicit false

namespace RegisterVM

namespace Machine

def codeOf (m : Method) : MachineM (Option (Sum (ObjRef × Procedure) Primitive)) := do
  match m with
  | .undef => pure none
  | .native p => pure (some (.inr p))
  | .proc r =>
    match ← procOf? (.obj r) with
    | some (_, d) =>
      match d.code with
      | .compiled body => pure (some (.inl (r, body)))
      | .native p => pure (some (.inr p))
    | none => runtimeFault

def noMethodError (recv : Value) (mid : Sym) (isSuper : Bool) : MachineM Value := liftStore do
  let s ← get
  let name := s.symText mid
  let what ← match recv with
    | .nil => pure "nil"
    | .bool true => pure "true"
    | .bool false => pure "false"
    | _ => do
      match ← Store.classOf? recv with
      | some (k, n) =>
        let kn ← Store.className (some k)
        pure (if n.kind == .module then "module " ++ kn else "class " ++ kn)
      | none => pure ("an instance of " ++ (← Store.realClassName recv))
  let text := if isSuper then "super: no superclass method '" ++ name ++ "' for " ++ what
    else "undefined method '" ++ name ++ "' for " ++ what
  Store.newError (·.noMethodError) text

def isProcEntry (m : Method) (r : ObjRef) : Bool :=
  match m with
  | .proc p => p == r
  | _ => false

def procSelf (d : ProcData) : MachineM (Value × Sym × Option ObjRef) := do
  match d.env with
  | none => pure (.nil, Sym.none, none)
  | some e =>
    let data ← envData e
    pure (← envGet e 0, data.mid, data.owner)

def startNative (prim : Primitive) (self : Value) : MachineM Unit := do
  setMode (.start prim (← nativeCall self))

def invokeAt (base acc : Nat) (recv : Value) (m : Method) (owner : Option ObjRef) (mid : Sym)
    (argc kwc : Nat) : MachineM Unit := do
  let c ← liftStore Store.wellKnown
  let blk ← slot (base + 1 + argSlots argc + kwSlots kwc)
  -- Proc#call on a procedure runs the procedure itself
  if isProcEntry m c.procCall then
    if let some (p, d) ← procOf? recv then
      let (self, pmid, powner) ← procSelf d
      setSlot base self
      match d.code with
      | .native prim =>
        match ← pushFrame (.native none) base argc kwc pmid powner acc blk .vm with
        | some err => setMode (.fatal err)
        | none => startNative prim self
      | .compiled body =>
        match ← pushFrame (.compiled p body) base argc kwc pmid powner acc blk .vm with
        | some err => setMode (.fatal err)
        | none => setMode .run
      return
  match ← codeOf m with
  | some (.inr prim) =>
    match ← pushFrame (.native none) base argc kwc mid owner acc blk .vm with
    | some err => setMode (.fatal err)
    | none => startNative prim recv
  | some (.inl (r, body)) =>
    match ← pushFrame (.compiled r body) base argc kwc mid owner acc blk .vm with
    | some err => setMode (.fatal err)
    | none => setMode .run
  | none => runtimeFault

def dispatch (a : Nat) (recv : Value) (cls : Option ObjRef) (mid : Sym) (argc kwc : Nat)
    (isSuper : Bool) : MachineM Unit := do
  let f ← topFrame
  let base := f.base + a
  let c ← liftStore Store.wellKnown
  match ← liftStore (Store.resolve cls mid) with
  | some (m, owner) => invokeAt base a recv m (some owner) mid argc kwc
  | none =>
    let mm ← liftStore (Store.resolve (← liftStore (Store.classOf recv)) c.symMethodMissing)
    match mm with
    | some (m, owner) =>
      if mid == c.symMethodMissing || isProcEntry m c.defaultMissing then
        unwind (← noMethodError recv mid isSuper)
      else
        let (args, kw, blk) ← rawArgs base argc kwc
        let (n, nk) ← placeArgs base recv (#[.sym mid] ++ args) kw blk
        invokeAt base a recv m (some owner) c.symMethodMissing n nk
    | none => unwind (← noMethodError recv mid isSuper)

def checkBlock (blk : Value) : MachineM (Option Value) := do
  if blk.isNil then return none
  if (← procOf? blk).isSome then return none
  let name ← liftStore (Store.realClassName blk)
  pure (some (← liftStore (Store.newError (·.typeError)
    ("wrong argument type " ++ name ++ " (expected Proc)"))))

def send (a : Nat) (mid : Sym) (callOperand : Nat) (withBlock : Bool) : MachineM Unit := do
  let (argc, kwc) := callCounts callOperand
  let f ← topFrame
  let base := f.base + a
  let blkSlot := base + 1 + argSlots argc + kwSlots kwc
  growStack (blkSlot + 1)
  if !withBlock then setSlot blkSlot .nil
  else if let some exc ← checkBlock (← slot blkSlot) then return ← unwind exc
  let recv ← slot base
  dispatch a recv (← liftStore (Store.classOf recv)) mid argc kwc false

def superSend (a : Nat) (callOperand : Nat) : MachineM Unit := do
  let f ← topFrame
  match f.owner with
  | none => unwind (← liftStore (Store.newError (·.runtimeError) "super called outside of method"))
  | some owner =>
    if f.mid == Sym.none then
      return ← unwind (← liftStore (Store.newError (·.runtimeError) "super called outside of method"))
    let (argc, kwc) := callCounts callOperand
    let base := f.base + a
    let blkSlot := base + 1 + argSlots argc + kwSlots kwc
    growStack (blkSlot + 1)
    if let some exc ← checkBlock (← slot blkSlot) then return ← unwind exc
    let recv ← slot f.base
    setSlot base recv
    dispatch a recv (← liftStore (Store.superOf owner)) f.mid argc kwc true

def throwToCaller (exc : Value) : MachineM Unit := do
  if (← depth) > 0 then setMode (.throw exc) else setMode (.halted (.raised exc))

def callMethod (recv : Value) (m : Method) (owner : Option ObjRef) (mid : Sym)
    (args : Array Value) (kw : Option HashTable) (blk : Value) (kind : CallKind) :
    MachineM Unit := do
  let base ← stackTop
  let (argc, kwc) ← placeArgs base recv args kw blk
  match ← codeOf m with
  | some (.inr prim) =>
    match ← pushFrame (.native none) base argc kwc mid owner (-1) blk kind with
    | some err => setMode (.fatal err)
    | none => startNative prim recv
  | some (.inl (r, body)) =>
    match ← pushFrame (.compiled r body) base argc kwc mid owner (-1) blk kind with
    | some err => setMode (.fatal err)
    | none => setMode .run
  | none => runtimeFault

def callProc (p : ObjRef) (args : Array Value) (kw : Option HashTable) (blk : Value)
    (kind : CallKind) : MachineM Unit := do
  match ← procOf? (.obj p) with
  | some (_, d) =>
    let (self, mid, owner) ← procSelf d
    callMethod self (.proc p) owner mid args kw blk kind
  | none => runtimeFault

def funcall (recv : Value) (mid : Sym) (args : Array Value) (kw : Option HashTable)
    (blk : Value) : MachineM Unit := do
  let c ← liftStore Store.wellKnown
  let cls ← liftStore (Store.classOf recv)
  let found ← liftStore (Store.resolve cls mid)
  let target ← match found with
    | some (m, owner) => pure (some (m, owner, mid, args))
    | none =>
      match ← liftStore (Store.resolve cls c.symMethodMissing) with
      | some (m, owner) =>
        if mid == c.symMethodMissing || isProcEntry m c.defaultMissing then pure none
        else pure (some (m, owner, c.symMethodMissing, #[.sym mid] ++ args))
      | none => pure none
  match target with
  | none => throwToCaller (← noMethodError recv mid false)
  | some (m, owner, mid, args) =>
    if isProcEntry m c.procCall then
      if let some (p, _) ← procOf? recv then
        return ← callProc p args kw blk .host
    callMethod recv m (some owner) mid args kw blk .host

def request (req : Request) : MachineM Unit := do
  match req with
  | .send recv mid args kw blk => funcall recv mid args kw blk
  | .callProc p args kw blk => callProc p args kw blk .host

end Machine

end RegisterVM
