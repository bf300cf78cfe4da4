import RegisterVM.Bytecode.Listing

set_option autoImplicit false

namespace RegisterVM

inductive Operand where
  | num (n : Int)
  | name (s : String)
  | lit (l : Literal)
deriving Inhabited

inductive AsmItem where
  | label (name : String)
  | line (n : Int)
  | catchEntry (kind : CatchKind) (start stop target : String) (guards : List String)
  | loadInt (reg : Int) (n : Int)
  | instr (op : Opcode) (args : List Operand)
  | unknown (name : String)

structure AsmBody where
  items : List AsmItem := []
  params : ParamSpec := {}
  locals : Option Int := none
  regs : Option Int := none
  filename : String := ""

structure RawHandler where
  kind : CatchKind
  start : Int
  stop : Int
  target : Int
  guards : List String := []

structure RawBody where
  code : Array UInt8 := #[]
  nregs : Int := 0
  nlocals : Int := 0
  params : ParamSpec := {}
  pool : Array Literal := #[]
  syms : List String := []
  handlers : List RawHandler := []
  lines : Array LineEntry := #[]
  filename : String := ""

inductive Source where
  | asm (body : AsmBody) (children : List Source)
  | raw (body : RawBody) (children : List Source)

instance : Inhabited Source := ⟨.raw {} []⟩

inductive AsmError where
  | fault (f : Fault)
  | bad (msg : String)
deriving Inhabited

structure Label where
  name : String
  position : Option Nat := none
  refs : List (Nat × Nat) := []
deriving Inhabited

structure PendingCatch where
  kind : CatchKind
  start : String
  stop : String
  target : String
  guards : Array Sym

structure Builder where
  code : Array UInt8 := #[]
  pool : Array Literal := #[]
  syms : Array Sym := #[]
  lines : Array LineEntry := #[]
  children : Array Procedure := #[]
  maxReg : Int := 0
  labels : Array Label := #[]
  catches : Array PendingCatch := #[]

abbrev AsmM := StateT Symbols (Except AsmError)

namespace Builder

def fail {α : Type} (msg : String) : AsmM α := throw (.fault (.panic msg))

def byteOf (n : Int) : UInt8 := UInt8.ofNat (n % 256).toNat

def symIndex (b : Builder) (name : String) : AsmM (Builder × Nat) := do
  let t ← get
  let (t, s) := t.intern name
  set t
  match b.syms.idxOf? s with
  | some i => pure (b, i)
  | none => pure ({ b with syms := b.syms.push s }, b.syms.size)

def literalIndex (b : Builder) (l : Literal) : Builder × Nat :=
  match b.pool.findIdx? (Literal.same · l) with
  | some i => (b, i)
  | none => ({ b with pool := b.pool.push l }, b.pool.size)

def callExtent (c : Int) : Int :=
  let (n, nk) := callCounts c
  1 + (if n == 15 then 1 else n) + (if nk == 15 then 1 else 2 * nk)

def topRegister (op : Opcode) (xs : List Int) : Int :=
  let x (i : Nat) := xs.getD i 0
  match op with
  | .nop | .jmp | .enter | .keyEnd | .stop | .aliasMethod | .undef => -1
  | .ssend | .ssendB | .send | .sendB => x 0 + callExtent (x 2)
  | .superSend => x 0 + callExtent (x 1)
  | .array | .aryPush => x 0 + x 1
  | .hash => x 0 + 2 * x 1
  | .add | .addI | .sub | .subI | .mul | .div | .eq | .lt | .le | .gt | .ge => x 0 + 2
  | .rangeInc | .rangeExc | .classDef | .defMethod => x 0 + 1
  | .array2 => max (x 0) (x 1 + x 2)
  | .move | .rescue | .aref => max (x 0) (x 1)
  | _ => x 0

def emit (b : Builder) (op : Opcode) (xs : List Int) : AsmM Builder := do
  let shape := op.shape
  if xs.length != shape.arity then
    fail (op.name ++ " takes " ++ Text.natText shape.arity ++ " operands, got " ++
      Text.natText xs.length)
  let x (i : Nat) := xs.getD i 0
  let hi (n : Int) := byteOf (n / 256)
  let bytes : List UInt8 := match shape with
    | .z => []
    | .b => [byteOf (x 0)]
    | .s => [hi (x 0), byteOf (x 0)]
    | .bb => [byteOf (x 0), byteOf (x 1)]
    | .bs => [byteOf (x 0), hi (x 1), byteOf (x 1)]
    | .bbb => [byteOf (x 0), byteOf (x 1), byteOf (x 2)]
    | .bss => [byteOf (x 0), hi (x 1), byteOf (x 1), hi (x 2), byteOf (x 2)]
  let code := (b.code.push (UInt8.ofNat op.toNat)) ++ bytes.toArray
  pure { b with code, maxReg := max b.maxReg (topRegister op xs) }

def patch (b : Builder) (operand next target : Nat) : AsmM Builder := do
  let off : Int := (target : Int) - next
  if off < -32768 ∨ off > 32767 then fail ("jump offset " ++ Text.intText off ++ " out of range")
  let code := b.code.set! operand (byteOf (off / 256)) |>.set! (operand + 1) (byteOf off)
  pure { b with code }

def labelIndex (b : Builder) (name : String) : Builder × Nat :=
  match b.labels.findIdx? (·.name == name) with
  | some i => (b, i)
  | none => ({ b with labels := b.labels.push { name } }, b.labels.size)

def mark (b : Builder) (name : String) : AsmM Builder := do
  let (b, i) := b.labelIndex name
  let l := b.labels.getD i default
  if l.position.isSome then fail "label already resolved"
  let pos := b.code.size
  let mut b := { b with labels := b.labels.set! i { l with position := some pos, refs := [] } }
  for (operand, next) in l.refs.reverse do
    b ← b.patch operand next pos
  pure b

def jumpTo (b : Builder) (name : String) : AsmM Builder := do
  let (b, i) := b.labelIndex name
  let operand := b.code.size - 2
  let next := b.code.size
  let l := b.labels.getD i default
  match l.position with
  | some pos => b.patch operand next pos
  | none => pure { b with labels := b.labels.set! i { l with refs := (operand, next) :: l.refs } }

def operandValues (b : Builder) : List Operand → AsmM (Builder × List Int)
  | [] => pure (b, [])
  | .num n :: rest => do
    let (b, ns) ← b.operandValues rest
    pure (b, n :: ns)
  | .name s :: rest => do
    let (b, i) ← b.symIndex s
    let (b, ns) ← b.operandValues rest
    pure (b, (i : Int) :: ns)
  | .lit l :: rest => do
    let (b, i) := b.literalIndex l
    let (b, ns) ← b.operandValues rest
    pure (b, (i : Int) :: ns)

def loadInt (b : Builder) (a : Int) (n : Int) : AsmM Builder :=
  if 0 ≤ n ∧ n ≤ 255 then b.emit .loadI [a, n]
  else if -255 ≤ n ∧ n < 0 then b.emit .loadINeg [a, -n]
  else if -32768 ≤ n ∧ n ≤ 32767 then b.emit .loadI16 [a, n % 65536]
  else if -2147483648 ≤ n ∧ n ≤ 2147483647 then
    let u := n % 4294967296
    b.emit .loadI32 [a, u / 65536, u % 65536]
  else
    let (b, i) := b.literalIndex (Literal.ofInt n)
    b.emit .loadL [a, i]

def item (b : Builder) : AsmItem → AsmM Builder
  | .label name => b.mark name
  | .line n => pure { b with lines := b.lines.push ⟨b.code.size, n⟩ }
  | .catchEntry kind start stop target guards => do
    let mut ids : Array Sym := #[]
    for g in guards do
      let t ← get
      let (t, s) := t.intern g
      set t
      ids := ids.push s
    let (b, _) := b.labelIndex start
    let (b, _) := b.labelIndex stop
    let (b, _) := b.labelIndex target
    pure { b with catches := b.catches.push { kind, start, stop, target, guards := ids } }
  | .loadInt reg n => b.loadInt reg n
  | .instr op args =>
    match op.isJump, args.getLast? with
    | true, some (.name l) => do
      let (b, xs) ← b.operandValues args.dropLast
      let b ← b.emit op (xs ++ [0])
      b.jumpTo l
    | _, _ => do
      let (b, xs) ← b.operandValues args
      b.emit op xs
  | .unknown name => throw (.bad ("unknown opcode \"" ++ name ++ "\""))

def finish (b : Builder) (body : AsmBody) : AsmM Procedure := do
  for l in b.labels do
    if l.position.isNone && !l.refs.isEmpty then fail "unresolved label"
  let mut handlers : Array Handler := #[]
  for c in b.catches do
    let pos (name : String) := (b.labels.find? (·.name == name)).bind (·.position)
    match pos c.start, pos c.stop, pos c.target with
    | some s, some e, some t =>
      handlers := handlers.push { kind := c.kind, start := s, stop := e, target := t, guards := c.guards }
    | _, _, _ => fail "catch handler uses an unresolved label"
  let nlocals := body.locals.getD 1
  let maxReg := match body.regs with
    | some n => max b.maxReg (n - 1)
    | none => b.maxReg
  let params := body.params
  let nregs := max (max (maxReg + 1) nlocals) (params.blockIndex + 1)
  pure { code := b.code, params, nlocals, nregs, pool := b.pool, syms := b.syms,
         children := b.children, handlers, filename := body.filename, lines := b.lines }

end Builder

def internAll (names : List String) : AsmM (Array Sym) := do
  let mut out : Array Sym := #[]
  for n in names do
    let t ← get
    let (t, s) := t.intern n
    set t
    out := out.push s
  pure out

mutual

def Source.assemble : Source → AsmM Procedure
  | .asm body children => do
    let kids ← assembleAll children
    let mut b : Builder := { children := kids.toArray }
    for it in body.items do
      b ← b.item it
    b.finish body
  | .raw body children => do
    let kids ← assembleAll children
    let syms ← internAll body.syms
    let mut handlers : Array Handler := #[]
    for h in body.handlers do
      let guards ← internAll h.guards
      handlers := handlers.push
        { kind := h.kind, start := h.start, stop := h.stop, target := h.target, guards }
    pure { code := body.code, params := body.params, nlocals := body.nlocals,
           nregs := body.nregs, pool := body.pool, syms, children := kids.toArray,
           handlers, filename := body.filename, lines := body.lines }

def assembleAll : List Source → AsmM (List Procedure)
  | [] => pure []
  | s :: rest => do
    let p ← s.assemble
    let ps ← assembleAll rest
    pure (p :: ps)

end

end RegisterVM
