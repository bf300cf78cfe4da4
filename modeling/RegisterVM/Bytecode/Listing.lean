import RegisterVM.Bytecode.Procedure
import RegisterVM.Fault
import RegisterVM.Float.Text
import RegisterVM.Text.Quoted

set_option autoImplicit false

namespace RegisterVM

structure Operands where
  a : Nat
  b : Nat
  c : Nat
  next : Nat
deriving DecidableEq, Repr

def decode (code : Array UInt8) (pc : Nat) (shape : Shape) : Except Fault Operands :=
  if pc + shape.width > code.size then
    .error (.panic ("vm: truncated instruction at " ++ Text.intText ((pc : Int) - 1)))
  else
    let byte (i : Nat) : Nat := (code.getD (pc + i) 0).toNat
    let next := pc + shape.width
    .ok <| match shape with
    | .z => ⟨0, 0, 0, next⟩
    | .b => ⟨byte 0, 0, 0, next⟩
    | .s => ⟨byte 0 * 256 + byte 1, 0, 0, next⟩
    | .bb => ⟨byte 0, byte 1, 0, next⟩
    | .bs => ⟨byte 0, byte 1 * 256 + byte 2, 0, next⟩
    | .bbb => ⟨byte 0, byte 1, byte 2, next⟩
    | .bss => ⟨byte 0, byte 1 * 256 + byte 2, byte 3 * 256 + byte 4, next⟩

def signed16 (n : Nat) : Int := if n ≥ 32768 then (n : Int) - 65536 else n

def signed32 (n : Nat) : Int := if n ≥ Nat.pow 2 31 then (n : Int) - Int.pow 2 32 else n

def callCounts (c : Int) : Nat × Nat := ((c % 16).toNat, (c / 16 % 16).toNat)

def Literal.text (p : Literal) : String :=
  if p.kind == 0 then Text.intText p.int
  else if p.kind == 1 then Float.general p.float
  else Text.literalString p.str

namespace Procedure

def listInstruction (p : Procedure) (names : Sym → String) (pc : Nat) :
    Except Fault (String × Nat) := do
  let byte := (p.code.getD pc 0).toNat
  let op? := Opcode.ofNat? byte
  let shape := (op?.map Opcode.shape).getD .z
  let o ← decode p.code (pc + 1) shape
  let symName (i : Nat) : String :=
    match p.syms[i]? with
    | some s => ":" ++ names s
    | none => "sym#" ++ Text.natText i
  let r (n : Nat) := " R" ++ Text.natText n
  let num (n : Int) := " " ++ Text.intText n
  let target (off : Int) := " (-> " ++ Text.zeroPadded 4 ((o.next : Int) + off) ++ ")"
  let tf (b : Bool) := if b then "true" else "false"
  let head := Text.zeroPadded 4 pc ++ "  " ++ Text.padRight 10 (opcodeByteName byte)
  let tail : String := match op? with
    | some .jmp => num (signed16 o.a) ++ target (signed16 o.a)
    | some .jmpIf | some .jmpNot | some .jmpNil => r o.a ++ num (signed16 o.b) ++ target (signed16 o.b)
    | some .loadI16 => r o.a ++ num (signed16 o.b)
    | some .loadI32 => r o.a ++ num (signed32 (o.b * 65536 + o.c))
    | some .loadL | some .string =>
      let lit := match p.pool[o.b]? with
        | some l => l.text
        | none => "?"
      r o.a ++ " L" ++ Text.natText o.b ++ " ; " ++ lit
    | some .loadSym | some .getGV | some .setGV | some .getIV | some .setIV | some .getConst
    | some .setConst | some .getMConst | some .keyP | some .karg | some .classDef
    | some .moduleDef | some .defMethod => r o.a ++ " " ++ symName o.b
    | some .ssend | some .ssendB | some .send | some .sendB =>
      let (n, nk) := callCounts o.c
      r o.a ++ " " ++ symName o.b ++ " n=" ++ Text.natText n ++ " nk=" ++ Text.natText nk
    | some .superSend =>
      let (n, nk) := callCounts o.b
      r o.a ++ " n=" ++ Text.natText n ++ " nk=" ++ Text.natText nk
    | some .aliasMethod => " " ++ symName o.a ++ " " ++ symName o.b
    | some .undef => " " ++ symName o.a
    | some .lambda | some .block | some .method | some .exec => r o.a ++ " I" ++ Text.natText o.b
    | some .enter =>
      let a := p.params
      " " ++ Text.intText a.req ++ ":" ++ Text.intText a.opt ++ ":" ++ tf a.rest ++ ":" ++
        Text.intText a.post ++ ":" ++ Text.intText a.nkeys ++ ":" ++ tf a.kdict ++ ":" ++ tf a.block
    | _ => match shape with
      | .b => r o.a
      | .bb => r o.a ++ num o.b
      | .bbb => r o.a ++ num o.b ++ num o.c
      | _ => ""
  let line := head ++ tail
  return (String.ofList (line.toList.reverse.dropWhile (· == ' ')).reverse, o.next)

def listFrom (p : Procedure) (names : Sym → String) : Nat → Nat → Except Fault (List String)
  | 0, _ => pure []
  | fuel + 1, pc =>
    if pc < p.code.size then do
      let (line, next) ← p.listInstruction names pc
      let rest ← p.listFrom names fuel next
      return line :: rest
    else pure []

def handlerLines (p : Procedure) : List String :=
  p.handlers.toList.map fun h =>
    "catch " ++ catchKindName h.kind ++ " [" ++ Text.zeroPadded 4 h.start ++ ", " ++
      Text.zeroPadded 4 h.stop ++ ") -> " ++ Text.zeroPadded 4 h.target

def listing (p : Procedure) (names : Sym → String) : Except Fault (List String) := do
  let ls ← p.listFrom names (p.code.size + 1) 0
  return ls ++ p.handlerLines

end Procedure

end RegisterVM
