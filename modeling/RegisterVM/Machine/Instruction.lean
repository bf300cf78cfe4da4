import RegisterVM.Machine.Call
import RegisterVM.Numeric.Arith

set_option autoImplicit false

namespace RegisterVM

namespace Machine

def symAt (body : Procedure) (i : Nat) : MachineM Sym := do
  match body.syms[i]? with
  | some s => pure s
  | none => panic ("vm: symbol index " ++ Text.natText i ++ " out of range (" ++
      Text.natText body.syms.size ++ " entries)")

def childAt (body : Procedure) (i : Nat) : MachineM Procedure := do
  match body.children[i]? with
  | some p => pure p
  | none => panic ("vm: child irep index " ++ Text.natText i ++ " out of range (" ++
      Text.natText body.children.size ++ " entries)")

def literalAt (body : Procedure) (i : Nat) : MachineM Value := do
  match body.pool[i]? with
  | none => panic ("vm: pool index " ++ Text.natText i ++ " out of range (" ++
      Text.natText body.pool.size ++ " entries)")
  | some p =>
    if p.kind == 0 then pure (.int (Int64.ofInt p.int))
    else if p.kind == 1 then pure (.float p.float)
    else liftStore (Store.newString p.str)

def newErr (cls : Core → ObjRef) (msg : String) : MachineM Value := liftStore (Store.newError cls msg)

def inspectValue (v : Value) : MachineM String := liftStore (Store.inspect v)

def frameProc (f : Frame) : MachineM ProcData := do
  match f.code with
  | .compiled p _ =>
    match ← procOf? (.obj p) with
    | some (_, d) => pure d
    | none => runtimeFault
  | .native _ => runtimeFault

def upvarEnv (f : Frame) (level : Nat) : MachineM (Option ObjRef) := do
  let d ← frameProc f
  let mut p := some d
  for _ in [0:level] do
    match p with
    | some d =>
      match d.upper with
      | some u => p := (← procOf? (.obj u)).map (·.2)
      | none => p := none
    | none => pure ()
  pure (p.bind (·.env))

def breakTarget (f : Frame) : MachineM (Except Value Nat) := do
  let d ← frameProc f
  let err := do pure (.error (← newErr (·.localJumpError) "break from proc-closure"))
  if d.orphan then return ← err
  match ← liveEnvFrame d.env with
  | some t => if t == f.serial then err else pure (.ok t)
  | none => err
where
  liveEnvFrame (env : Option ObjRef) : MachineM (Option Nat) := do
    match env with
    | none => pure none
    | some e =>
      match (← envData e).slots with
      | .live ctx frame _ => if ctx == (← currentIndex) then pure (some frame) else pure none
      | .copied _ => pure none

def returnTarget (f : Frame) : MachineM (Except Value Nat) := do
  let d ← frameProc f
  let fuel := (← get).store.heap.size + 1
  let env ← climb d.env d.upper fuel
  match ← breakTarget.liveEnvFrame env with
  | some t => pure (.ok t)
  | none => pure (.error (← newErr (·.localJumpError) "unexpected return"))
where
  climb (env : Option ObjRef) (up : Option ObjRef) : Nat → MachineM (Option ObjRef)
    | 0 => pure env
    | fuel + 1 => do
      match up with
      | none => pure env
      | some u =>
        match ← procOf? (.obj u) with
        | some (_, ud) =>
          if !ud.strict && ud.upper.isSome then climb ud.env ud.upper fuel else pure env
        | none => pure env

def raiseBreak (kind : BreakKind) (target : Nat) (v : Value) : MachineM Unit := do
  let b ← liftStore (Store.alloc { cls := none, body := .brk kind target v })
  unwind (.obj b)

def kdict (f : Frame) (body : Procedure) : MachineM (Option (ObjRef × HashTable)) := do
  let i := (f.base : Int) + body.params.kdictIndex
  if i < 0 then runtimeFault
  let v ← slot i.toNat
  match v with
  | .obj r =>
    match (← liftStore (Store.getObj r)).body with
    | .hash t => pure (some (r, t))
    | _ => pure none
  | _ => pure none

def sliceOf (xs : Array Value) (lo hi : Int) : MachineM (Array Value) := do
  if 0 ≤ lo && lo ≤ hi && hi ≤ xs.size then pure (xs.extract lo.toNat hi.toNat) else runtimeFault

def gatherArgs (f : Frame) (ps : ParamSpec) :
    MachineM (Array Value × Option HashTable × Value × Bool) := do
  let (args0, kw0, blk) ← rawArgs f.base f.argc f.kwc
  let mut args := args0
  let mut kw := kw0
  if !ps.hasKeywords then
    if let some t := kw then
      args := args.push (← liftStore (Store.newHash t))
      kw := none
  let declared := ps.req + ps.opt + ps.post
  let strict := (← frameProc f).strict
  if !strict && args.size == 1 && (declared > 1 || (ps.rest && declared > 0)) then
    if let some es ← liftStore (Store.arrayOf? (args.getD 0 .nil)) then args := es
  pure (args, kw, blk, strict)

def splitArgs (ps : ParamSpec) (args : Array Value) :
    MachineM (Array Value × Array Value × Array Value × Array Value) := do
  let n : Int := args.size
  if n ≥ ps.req + ps.post then
    let req ← sliceOf args 0 ps.req
    let post ← sliceOf args (n - ps.post) n
    let middle ← sliceOf args ps.req (n - ps.post)
    let nopt := min (middle.size : Int) ps.opt
    let opt ← sliceOf middle 0 nopt
    let rest ← sliceOf middle nopt middle.size
    pure (req, opt, rest, post)
  else
    let req ← sliceOf args 0 (min n ps.req)
    let post ← if n > ps.req then sliceOf args ps.req n else pure #[]
    pure (req, #[], #[], post)

def layParams (f : Frame) (ps : ParamSpec) (req opt rest post : Array Value)
    (kw : Option HashTable) (blk : Value) : MachineM Unit := do
  let top := ps.blockIndex + 1
  let mut nregs := f.nregs
  if top > nregs then
    growStack (f.base + top.toNat)
    nregs := top.toNat
    modifyTop fun f => { f with nregs }
  let mut i := 1
  let put (i : Nat) (v : Value) : MachineM Unit := do
    if i < nregs then setSlot (f.base + i) v else runtimeFault
  for j in [0:ps.req.toNat] do
    put i (req.getD j .nil)
    i := i + 1
  for j in [0:ps.opt.toNat] do
    put i (opt.getD j .nil)
    i := i + 1
  if ps.rest then
    put i (← liftStore (Store.newArray rest))
    i := i + 1
  for j in [0:ps.post.toNat] do
    put i (post.getD j .nil)
    i := i + 1
  if ps.hasKeywords then
    put i (← liftStore (Store.newHash (kw.getD {})))
    i := i + 1
  put i blk
  for j in [i + 1:nregs] do setSlot (f.base + j) .nil
  if ps.opt > 0 then modifyTop fun f => { f with pc := f.pc + 3 * opt.size }

def enterParams (f : Frame) (body : Procedure) : MachineM Unit := do
  let ps := body.params
  let (args, kw, blk, strict) ← gatherArgs f ps
  let n : Int := args.size
  if strict && (n < ps.req + ps.post || (!ps.rest && n > ps.req + ps.opt + ps.post)) then
    return ← unwind (← newErr (·.argumentError) ("wrong number of arguments (given " ++
      Text.natText args.size ++ ", expected " ++ ps.expected ++ ")"))
  let (req, opt, rest, post) ← splitArgs ps args
  layParams f ps req opt rest post kw blk
  setMode .run

def ivarSet (self : Value) (sym : Sym) (v : Value) : MachineM (Option Value) := do
  match self with
  | .obj r =>
    if (← liftStore (Store.getObj r)).frozen then pure (some (← liftStore (Store.frozenError self)))
    else
      liftStore (Store.ivarSet r sym v)
      pure none
  | _ => pure (some (← liftStore (Store.frozenError self)))

def opSym (op : ArithOp) : MachineM Sym := do
  pure (((← liftStore Store.wellKnown).opSyms.lookup op).getD Sym.none)

def classDef (f : Frame) (a : Nat) (name : Sym) (isModule : Bool) : MachineM Unit := do
  let outerV ← slot (f.base + a)
  let mut outer ← targetClass f
  if !outerV.isNil then
    match ← liftStore (Store.classOf? outerV) with
    | some (k, _) => outer := k
    | none =>
      return ← unwind (← newErr (·.typeError) ((← inspectValue outerV) ++ " is not a class/module"))
  let text := (← get).store.symText name
  let result ← if isModule then liftStore (Store.defineModule text (some outer))
    else
      let superV ← slot (f.base + a + 1)
      let mut super := none
      if !superV.isNil then
        match ← liftStore (Store.classOf? superV) with
        | some (k, n) =>
          if n.kind == .ordinary then super := some k
          else return ← unwind (← newErr (·.typeError)
            ("superclass must be a Class (" ++ (← inspectValue superV) ++ " given)"))
        | none => return ← unwind (← newErr (·.typeError)
            ("superclass must be a Class (" ++ (← inspectValue superV) ++ " given)"))
      liftStore (Store.defineClass text super (some outer))
  match result with
  | .ok k =>
    setSlot (f.base + a) (.obj k)
    setMode .run
  | .error msg => unwind (← newErr (·.typeError) msg)

def execBody (f : Frame) (a : Nat) (body : Procedure) : MachineM Unit := do
  let recv ← slot (f.base + a)
  let target ← match ← liftStore (Store.classOf? recv) with
    | some (k, _) => pure k
    | none => targetClass f
  let c ← liftStore Store.wellKnown
  let d : ProcData := { code := .compiled body, target := some target }
  let p ← liftStore (Store.alloc { cls := some c.proc, body := .proc d })
  let base := f.base + a
  growStack (base + 2)
  setSlot (base + 1) .nil
  match ← pushFrame (.compiled p body) base 0 0 Sym.none none a .nil .vm with
  | some err => setMode (.fatal err)
  | none => setMode .run

def newProc (body : Procedure) (upper : Option ObjRef) (env : Option ObjRef) (strict : Bool)
    (target : ObjRef) : MachineM Value := do
  let c ← liftStore Store.wellKnown
  let inherited ← match upper with
    | some u => pure ((← procOf? (.obj u)).bind (·.2.target))
    | none => pure none
  let target := some (inherited.getD target)
  let d : ProcData := { code := .compiled body, upper, env, strict, target }
  pure (.obj (← liftStore (Store.alloc { cls := some c.proc, body := .proc d })))

def arithStep (f : Frame) (op : ArithOp) (a : Nat) (y : Value) (imm : Option Value) :
    MachineM Unit := do
  let x ← reg f a
  match Numeric.arith op x y with
  | .zeroDivision => unwind (← newErr (·.zeroDivisionError) "divided by 0")
  | .value v => setReg f a v; setMode .run
  | .fallback =>
    if let some v := imm then setReg f (a + 1) v
    send a (← opSym op) 1 false

def instruction (op : Opcode) (a b c : Nat) (f : Frame) (body : Procedure) : MachineM Unit := do
  let R := reg f
  let W := setReg f
  let next : MachineM Unit := setMode .run
  let jump (off : Nat) : MachineM Unit := do
    modifyTop fun f => { f with pc := f.pc + signed16 off }
    next
  let core ← liftStore Store.wellKnown
  match op with
  | .nop => next
  | .move => do W a (← R b); next
  | .loadL => do W a (← literalAt body b); next
  | .loadI => do W a (.int (Int64.ofNat b)); next
  | .loadINeg => do W a (.int (-(Int64.ofNat b))); next
  | .loadI16 => do W a (.int (Int64.ofInt (signed16 b))); next
  | .loadI32 => do W a (.int (Int64.ofInt (signed32 (b * 65536 + c)))); next
  | .loadSym => do W a (.sym (← symAt body b)); next
  | .loadNil => do W a .nil; next
  | .loadSelf => do W a (← R 0); next
  | .loadT => do W a (.bool true); next
  | .loadF => do W a (.bool false); next
  | .getGV => do
    let sym ← symAt body b
    W a ((← get).store.globals.getD sym .nil); next
  | .setGV => do
    let sym ← symAt body b
    let v ← R a
    modify fun m => { m with store := { m.store with globals := m.store.globals.insert sym v } }
    next
  | .getIV => do
    let self ← R 0
    W a (← liftStore (Store.ivarGet self (← symAt body b))); next
  | .setIV => do
    let self ← R 0
    let sym ← symAt body b
    match ← ivarSet self sym (← R a) with
    | some exc => unwind exc
    | none => next
  | .getConst => do
    let sym ← symAt body b
    match ← constLookup f sym with
    | some v => W a v; next
    | none => unwind (← newErr (·.nameError) ("uninitialized constant " ++ (← get).store.symText sym))
  | .setConst => do
    let target ← targetClass f
    let sym ← symAt body b
    liftStore (Store.constSet target sym (← R a)); next
  | .getMConst => do
    let sym ← symAt body b
    let v ← R a
    match ← liftStore (Store.classOf? v) with
    | none => unwind (← newErr (·.typeError) ((← inspectValue v) ++ " is not a class/module"))
    | some (k, _) =>
      match ← liftStore (Store.constGet k sym) with
      | some r => W a r; next
      | none =>
        let kn ← liftStore (Store.className (some k))
        unwind (← newErr (·.nameError)
          ("uninitialized constant " ++ kn ++ "::" ++ (← get).store.symText sym))
  | .getUpvar => do
    match ← upvarEnv f c with
    | some e => W a (← envGet e b)
    | none => W a .nil
    next
  | .setUpvar => do
    if let some e ← upvarEnv f c then envSet e b (← R a)
    next
  | .jmp => jump a
  | .jmpIf => do if (← R a).truthy then jump b else next
  | .jmpNot => do if !(← R a).truthy then jump b else next
  | .jmpNil => do if (← R a).isNil then jump b else next
  | .except => do
    W a (← currentContext).exc
    setExc .nil
    next
  | .rescue => do
    let k ← R b
    match ← liftStore (Store.classOf? k) with
    | none => unwind (← newErr (·.typeError) "class or module required for rescue clause")
    | some (k, _) =>
      let x ← R a
      W b (.bool (← liftStore (Store.valueIsKindOf x k))); next
  | .raiseIf => do
    let v ← R a
    match v with
    | .nil => next
    | .obj r =>
      match (← liftStore (Store.getObj r)).body with
      | .exception _ _ | .brk _ _ _ => unwind v
      | _ => unwind (← newErr (·.typeError) "exception object expected")
    | _ => unwind (← newErr (·.typeError) "exception object expected")
  | .ssend | .ssendB => do
    W a (← R 0)
    send a (← symAt body b) c (op == .ssendB)
  | .send | .sendB => do send a (← symAt body b) c (op == .sendB)
  | .superSend => superSend a b
  | .enter => enterParams f body
  | .keyP => do
    let kd ← kdict f body
    let sym ← symAt body b
    -- a missing keyword hash is a fault of the runtime
    let some (_, t) := kd | runtimeFault
    let found := (← liftStore (Store.tableGet t (.sym sym))).isSome
    W a (.bool found); next
  | .karg => do
    let sym ← symAt body b
    let kd ← kdict f body
    let removed ← match kd with
      | some (r, t) => do
        let (t', v) ← liftStore (Store.tableDelete t (.sym sym))
        liftStore (Store.modifyObj r fun o => match o.body with
          | .hash _ => { o with body := .hash t' }
          | _ => o)
        pure v
      | none => runtimeFault
    match removed with
    | some v => W a v; next
    | none => unwind (← newErr (·.argumentError)
        ("missing keyword: :" ++ (← get).store.symText sym))
  | .keyEnd => do
    match ← kdict f body with
    | some (_, t) =>
      if t.size > 0 then
        unwind (← newErr (·.argumentError) ("unknown keyword: " ++ (← inspectValue (t.keys.getD 0 .nil))))
      else next
    | none => next
  | .ret => do returnFrom (← R a)
  | .retBlk => do
    let d ← frameProc f
    if d.strict || d.upper.isNone then returnFrom (← R a)
    else
      match ← returnTarget f with
      | .error exc => unwind exc
      | .ok t => raiseBreak .ret t (← R a)
  | .brk => do
    let d ← frameProc f
    if d.strict then returnFrom (← R a)
    else
      match ← breakTarget f with
      | .error exc => unwind exc
      | .ok t => raiseBreak .brk t (← R a)
  | .add => arithStep f .add a (← R (a + 1)) none
  | .sub => arithStep f .sub a (← R (a + 1)) none
  | .mul => arithStep f .mul a (← R (a + 1)) none
  | .div => arithStep f .div a (← R (a + 1)) none
  | .eq => arithStep f .eq a (← R (a + 1)) none
  | .lt => arithStep f .lt a (← R (a + 1)) none
  | .le => arithStep f .le a (← R (a + 1)) none
  | .gt => arithStep f .gt a (← R (a + 1)) none
  | .ge => arithStep f .ge a (← R (a + 1)) none
  | .addI => arithStep f .add a (.int (Int64.ofNat b)) (some (.int (Int64.ofNat b)))
  | .subI => arithStep f .sub a (.int (Int64.ofNat b)) (some (.int (Int64.ofNat b)))
  | .array => do
    let es ← regRange f a (a + b)
    W a (← liftStore (Store.newArray es)); next
  | .array2 => do
    let es ← regRange f b (b + c)
    W a (← liftStore (Store.newArray es)); next
  | .aref => do
    let v ← R b
    match ← liftStore (Store.arrayOf? v) with
    | some es => W a (es.getD c .nil)
    | none => W a (if c == 0 then v else .nil)
    next
  | .aryPush => do
    let v ← R a
    match v with
    | .obj r =>
      let o ← liftStore (Store.getObj r)
      match o.body with
      | .array es =>
        if o.frozen then unwind (← liftStore (Store.frozenError v))
        else
          let more ← regRange f (a + 1) (a + 1 + b)
          liftStore (Store.modifyObj r fun o => match o.body with
            | .array _ => { o with body := .array (es ++ more) }
            | _ => o)
          next
      | _ => unwind (← newErr (·.typeError) ("ARYPUSH on " ++ (← liftStore (Store.realClassName v))))
    | _ => unwind (← newErr (·.typeError) ("ARYPUSH on " ++ (← liftStore (Store.realClassName v))))
  | .hash => do
    let mut t : HashTable := {}
    for i in [0:b] do
      let k ← R (a + 2 * i)
      let v ← R (a + 2 * i + 1)
      t ← liftStore (Store.tableSet t k v)
    W a (← liftStore (Store.newHash t)); next
  | .string => do W a (← literalAt body b); next
  | .lambda | .block => do
    let env ← ensureEnv
    let child ← childAt body b
    let target ← targetClass f
    W a (← newProc child f.proc? (some env) (op == .lambda) target); next
  | .method => do
    let child ← childAt body b
    let target ← targetClass f
    let d : ProcData := { code := .compiled child, strict := true, target := some target }
    W a (.obj (← liftStore (Store.alloc { cls := some core.proc, body := .proc d }))); next
  | .rangeInc | .rangeExc => do
    let x ← R a
    let y ← R (a + 1)
    W a (← liftStore (Store.newRange x y (op == .rangeExc))); next
  | .oclass => do W a (.obj core.object); next
  | .classDef => do classDef f a (← symAt body b) false
  | .moduleDef => do classDef f a (← symAt body b) true
  | .exec => do execBody f a (← childAt body b)
  | .defMethod => do
    let kv ← R a
    let pv ← R (a + 1)
    match ← liftStore (Store.classOf? kv), ← procOf? pv with
    | some (k, _), some (p, _) =>
      let sym ← symAt body b
      liftStore (Store.defineRaw k sym (.proc p))
      W a (.sym sym); next
    | _, _ => unwind (← newErr (·.typeError) "DEF needs a class and a proc")
  | .aliasMethod => do
    let newMid ← symAt body a
    let oldMid ← symAt body b
    let cls ← targetClass f
    if ← liftStore (Store.aliasMethod cls newMid oldMid) then next
    else
      let cn ← liftStore (Store.className (some cls))
      unwind (← newErr (·.nameError) ("undefined method '" ++ (← get).store.symText oldMid ++
        "' for class '" ++ cn ++ "'"))
  | .undef => do
    let mid ← symAt body a
    let cls ← targetClass f
    if (← liftStore (Store.resolve (some cls) mid)).isNone then
      let cn ← liftStore (Store.className (some cls))
      unwind (← newErr (·.nameError) ("undefined method '" ++ (← get).store.symText mid ++
        "' for class '" ++ cn ++ "'"))
    else
      liftStore (Store.defineRaw cls mid .undef); next
  | .sclass => do
    match ← liftStore (Store.singletonClassOf (← R a)) with
    | some sc => W a (.obj sc); next
    | none => unwind (← newErr (·.typeError) "can't define singleton")
  | .tclass => do W a (.obj (← targetClass f)); next
  | .stop => returnFrom .nil

def frameName (f : Frame) : MachineM String := do
  let name := (← get).store.symText f.mid
  pure (if name == "" then "<main>" else name)

def execute : MachineM Unit := do
  let f ← topFrame
  match f.code with
  | .native _ => runtimeFault
  | .compiled _ body =>
    let m ← get
    let steps := m.steps + 1
    set { m with steps }
    if let some err := m.checkpoint steps then
      return ← setMode (.fatal err)
    if f.pc < 0 || f.pc ≥ body.code.size then
      return ← panic ("vm: pc " ++ Text.intText f.pc ++ " out of range in " ++ (← frameName f) ++
        " (" ++ Text.natText body.code.size ++ " bytes)")
    let pc := f.pc.toNat
    let byte := (body.code.getD pc 0).toNat
    match Opcode.ofNat? byte with
    | none => panic ("vm: unknown opcode 0x" ++ String.ofList (Text.hexDigits false 2 byte) ++
        " at " ++ Text.natText pc ++ " in " ++ (← frameName f))
    | some op =>
      match decode body.code (pc + 1) op.shape with
      | .error e => throw e
      | .ok ops =>
        modifyTop fun f => { f with pc := ops.next }
        instruction op ops.a ops.b ops.c { f with pc := ops.next } body

end Machine

end RegisterVM
