import RegisterVM.Machine.Basic

set_option autoImplicit false

namespace RegisterVM

abbrev MachineM := EStateM Fault Machine

def packedArgs : Nat := 15

def argSlots (n : Nat) : Nat := if n == packedArgs then 1 else n

def kwSlots (nk : Nat) : Nat := if nk == packedArgs then 1 else 2 * nk

namespace Machine

def runtimeFault {α : Type} : MachineM α := throw .runtime

def panic {α : Type} (msg : String) : MachineM α := throw (.panic msg)

def liftStore {α : Type} (x : StoreM α) : MachineM α := fun m =>
  let s := m.store
  let m := { m with store := default }
  match x.run s with
  | .ok a s => .ok a { m with store := s }
  | .error f s => .error f { m with store := s }

def context (i : Nat) : MachineM Context := do
  match (← get).contexts[i]? with
  | some c => pure c
  | none => runtimeFault

def modifyContext (i : Nat) (f : Context → Context) : MachineM Unit :=
  modify fun m => { m with contexts := m.contexts.modify i f }

def currentIndex : MachineM Nat := do pure (← get).current

def currentContext : MachineM Context := do context (← currentIndex)

def modifyCurrent (f : Context → Context) : MachineM Unit := do
  modifyContext (← currentIndex) f

def topFrame : MachineM Frame := do
  match (← currentContext).frames.back? with
  | some f => pure f
  | none => runtimeFault

def modifyTop (f : Frame → Frame) : MachineM Unit :=
  modifyCurrent fun c => { c with frames := c.frames.modify (c.frames.size - 1) f }

def depth : MachineM Nat := do pure (← currentContext).frames.size

def readSlot (ci : Nat) (i : Nat) : MachineM Value := do
  match (← context ci).stack[i]? with
  | some v => pure v
  | none => runtimeFault

def writeSlot (ci : Nat) (i : Nat) (v : Value) : MachineM Unit := do
  if i < (← context ci).stack.size then
    modifyContext ci fun c => { c with stack := c.stack.set! i v }
  else runtimeFault

def slot (i : Nat) : MachineM Value := do readSlot (← currentIndex) i

def setSlot (i : Nat) (v : Value) : MachineM Unit := do writeSlot (← currentIndex) i v

def slots (lo hi : Nat) : MachineM (Array Value) := do
  let c ← currentContext
  if lo ≤ hi && hi ≤ c.stack.size then pure (c.stack.extract lo hi) else runtimeFault

def growStack (n : Nat) : MachineM Unit :=
  modifyCurrent fun c =>
    if n ≤ c.stack.size then c
    else { c with stack := c.stack ++ Array.replicate (max (2 * c.stack.size) n - c.stack.size) .nil }

def stackTop : MachineM Nat := do
  match (← currentContext).frames.back? with
  | some f => pure (f.base + f.nregs)
  | none => pure 0

def reg (f : Frame) (i : Nat) : MachineM Value := do
  if i < f.nregs then slot (f.base + i) else runtimeFault

def setReg (f : Frame) (i : Nat) (v : Value) : MachineM Unit := do
  if i < f.nregs then setSlot (f.base + i) v else runtimeFault

def regRange (f : Frame) (lo hi : Nat) : MachineM (Array Value) := slots (f.base + lo) (f.base + hi)

def nextSerial : MachineM Nat := do
  modifyGet fun m => (m.serial, { m with serial := m.serial + 1 })

def pushFrame (code : FrameCode) (base argc kwc : Nat) (mid : Sym) (owner : Option ObjRef)
    (acc : Int) (blk : Value) (kind : CallKind) : MachineM (Option Fatal) := do
  let c ← currentContext
  let m ← get
  if c.frames.size ≥ m.limits.maxDepth then
    return some (.overflow c.frames.size (m.store.symText mid))
  let extent := 1 + argSlots argc + kwSlots kwc + 1
  let nregs := match code with
    | .compiled _ body => max body.nregs.toNat extent
    | .native _ => extent
  growStack (base + nregs)
  let clearFrom (st : Array Value) : Array Value :=
    (List.range (nregs - extent)).foldl (fun st j => st.set! (base + extent + j) .nil) st
  modifyCurrent fun c => { c with stack := clearFrom c.stack }
  let serial ← nextSerial
  let f : Frame := { serial, base, nregs, code, argc, kwc, kind, mid, owner, acc, blk }
  modifyCurrent fun c => { c with frames := c.frames.push f }
  pure none

def envData (r : ObjRef) : MachineM EnvData := do
  match (← liftStore (Store.getObj r)).body with
  | .env e => pure e
  | _ => runtimeFault

def envGet (r : ObjRef) (i : Nat) : MachineM Value := do
  let e ← envData r
  if i ≥ e.size then return .nil
  match e.slots with
  | .copied slots => match slots[i]? with
    | some v => pure v
    | none => runtimeFault
  | .live ctx _ base => readSlot ctx (base + i)

def envSet (r : ObjRef) (i : Nat) (v : Value) : MachineM Unit := do
  let e ← envData r
  if i ≥ e.size then return
  match e.slots with
  | .copied slots =>
    if i < slots.size then
      liftStore (Store.modifyObj r fun o => { o with body := .env { e with slots := .copied (slots.set! i v) } })
    else runtimeFault
  | .live ctx _ base => writeSlot ctx (base + i) v

def unshareEnv (r : ObjRef) : MachineM Unit := do
  let e ← envData r
  match e.slots with
  | .copied _ => pure ()
  | .live ctx _ base =>
    let c ← context ctx
    if base + e.size ≤ c.stack.size then
      let own := c.stack.extract base (base + e.size)
      liftStore (Store.modifyObj r fun o => { o with body := .env { e with slots := .copied own } })
    else runtimeFault

def procOf? (v : Value) : MachineM (Option (ObjRef × ProcData)) := liftStore (Store.procOf? v)

def popFrame : MachineM Unit := do
  let c ← currentContext
  match c.frames.back? with
  | none => runtimeFault
  | some f =>
    if c.frames.size ≥ 2 then
      let parent := c.frames.getD (c.frames.size - 2) default
      match ← procOf? f.blk with
      | some (r, p) =>
        if !p.strict && p.env.isSome && p.env == parent.env then
          liftStore (Store.modifyObj r fun o => { o with body := .proc { p with orphan := true } })
      | none => pure ()
    if let some e := f.env then unshareEnv e
    modifyCurrent fun c => { c with frames := c.frames.pop }

def unwindTo (n : Nat) : MachineM Unit := do
  let d ← depth
  for _ in [n:d] do popFrame

def ensureEnv : MachineM ObjRef := do
  let f ← topFrame
  match f.env with
  | some e => pure e
  | none =>
    let size := match f.code with
      | .compiled _ body => max body.nlocals.toNat 1
      | .native _ => 1
    let ci ← currentIndex
    let data : EnvData := { slots := .live ci f.serial f.base, size, mid := f.mid, owner := f.owner }
    let e ← liftStore (Store.alloc { cls := none, body := .env data })
    modifyTop fun f => { f with env := some e }
    pure e

def copyTable (t : HashTable) : MachineM HashTable := liftStore (Store.tableCopy t)

def rawArgs (base argc kwc : Nat) : MachineM (Array Value × Option HashTable × Value) := do
  let mut i := base + 1
  let mut args : Array Value := #[]
  if argc == packedArgs then
    if let some es ← liftStore (Store.arrayOf? (← slot i)) then args := es
    i := i + 1
  else
    args ← slots i (i + argc)
    i := i + argc
  let mut kw : Option HashTable := none
  if kwc == packedArgs then
    if let some t ← liftStore (Store.hashOf? (← slot i)) then
      if t.size > 0 then kw := some (← copyTable t)
    i := i + 1
  else if kwc > 0 then
    let mut t : HashTable := {}
    for _ in [0:kwc] do
      let k ← slot i
      let v ← slot (i + 1)
      t ← liftStore (Store.tableSet t k v)
      i := i + 2
    kw := some t
  pure (args, kw, ← slot i)

def placeArgs (base : Nat) (recv : Value) (args : Array Value) (kw : Option HashTable)
    (blk : Value) : MachineM (Nat × Nat) := do
  let kwLen := (kw.map HashTable.size).getD 0
  growStack (base + args.size + 2 * kwLen + 3)
  setSlot base recv
  let mut i := base + 1
  let mut n := 0
  if args.size ≥ packedArgs then
    setSlot i (← liftStore (Store.newArray args))
    n := packedArgs
    i := i + 1
  else
    for a in args do
      setSlot i a
      i := i + 1
    n := args.size
  let mut nk := 0
  if let some t := kw then
    if t.size ≥ packedArgs then
      setSlot i (← liftStore (Store.newHash (← copyTable t)))
      nk := packedArgs
      i := i + 1
    else if t.size > 0 then
      for (k, v) in t.entries do
        setSlot i k
        setSlot (i + 1) v
        i := i + 2
      nk := t.size
  setSlot i blk
  pure (n, nk)

def nativeCall (self : Value) : MachineM NativeCall := do
  let f ← topFrame
  let (args, kw, blk) ← rawArgs f.base f.argc f.kwc
  pure { self, args, kw, blk }

end Machine

end RegisterVM
