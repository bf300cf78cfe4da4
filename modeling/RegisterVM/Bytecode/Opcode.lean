
set_option autoImplicit false

namespace RegisterVM

inductive Shape where
  | z | b | s | bb | bs | bbb | bss
deriving DecidableEq, Repr

def Shape.width : Shape → Nat
  | .z => 0 | .b => 1 | .s => 2 | .bb => 2 | .bs => 3 | .bbb => 3 | .bss => 5

def Shape.arity : Shape → Nat
  | .z => 0 | .b => 1 | .s => 1 | .bb => 2 | .bs => 2 | .bbb => 3 | .bss => 3

inductive Opcode where
  | nop
  | move | loadL | loadI | loadINeg | loadI16 | loadI32 | loadSym | loadNil | loadSelf
  | loadT | loadF
  | getGV | setGV | getIV | setIV | getConst | setConst | getMConst | getUpvar | setUpvar
  | jmp | jmpIf | jmpNot | jmpNil
  | except | rescue | raiseIf
  | ssend | ssendB | send | sendB | superSend
  | enter | keyP | karg | keyEnd
  | ret | retBlk | brk
  | add | addI | sub | subI | mul | div | eq | lt | le | gt | ge
  | array | array2 | aref | aryPush | hash | string | lambda | block | method
  | rangeInc | rangeExc
  | oclass | classDef | moduleDef | exec | defMethod | aliasMethod | undef | sclass | tclass
  | stop
deriving DecidableEq, Repr, Inhabited

namespace Opcode

def all : List Opcode :=
  [ nop, move, loadL, loadI, loadINeg, loadI16, loadI32, loadSym, loadNil, loadSelf, loadT,
    loadF, getGV, setGV, getIV, setIV, getConst, setConst, getMConst, getUpvar, setUpvar,
    jmp, jmpIf, jmpNot, jmpNil, except, rescue, raiseIf, ssend, ssendB, send, sendB,
    superSend, enter, keyP, karg, keyEnd, ret, retBlk, brk, add, addI, sub, subI, mul, div,
    eq, lt, le, gt, ge, array, array2, aref, aryPush, hash, string, lambda, block, method,
    rangeInc, rangeExc, oclass, classDef, moduleDef, exec, defMethod, aliasMethod, undef,
    sclass, tclass, stop ]

def table : Array Opcode := all.toArray

def ofNat? (n : Nat) : Option Opcode := table[n]?

def toNat (op : Opcode) : Nat := all.idxOf op

def info : Opcode → String × Shape
  | nop => ("NOP", .z) | move => ("MOVE", .bb) | loadL => ("LOADL", .bb)
  | loadI => ("LOADI", .bb) | loadINeg => ("LOADINEG", .bb) | loadI16 => ("LOADI16", .bs)
  | loadI32 => ("LOADI32", .bss) | loadSym => ("LOADSYM", .bb) | loadNil => ("LOADNIL", .b)
  | loadSelf => ("LOADSELF", .b) | loadT => ("LOADT", .b) | loadF => ("LOADF", .b)
  | getGV => ("GETGV", .bb) | setGV => ("SETGV", .bb) | getIV => ("GETIV", .bb)
  | setIV => ("SETIV", .bb) | getConst => ("GETCONST", .bb) | setConst => ("SETCONST", .bb)
  | getMConst => ("GETMCNST", .bb) | getUpvar => ("GETUPVAR", .bbb)
  | setUpvar => ("SETUPVAR", .bbb) | jmp => ("JMP", .s) | jmpIf => ("JMPIF", .bs)
  | jmpNot => ("JMPNOT", .bs) | jmpNil => ("JMPNIL", .bs) | except => ("EXCEPT", .b)
  | rescue => ("RESCUE", .bb) | raiseIf => ("RAISEIF", .b) | ssend => ("SSEND", .bbb)
  | ssendB => ("SSENDB", .bbb) | send => ("SEND", .bbb) | sendB => ("SENDB", .bbb)
  | superSend => ("SUPER", .bb) | enter => ("ENTER", .z) | keyP => ("KEY_P", .bb)
  | karg => ("KARG", .bb) | keyEnd => ("KEYEND", .z) | ret => ("RETURN", .b)
  | retBlk => ("RETURN_BLK", .b) | brk => ("BREAK", .b) | add => ("ADD", .b)
  | addI => ("ADDI", .bb) | sub => ("SUB", .b) | subI => ("SUBI", .bb) | mul => ("MUL", .b)
  | div => ("DIV", .b) | eq => ("EQ", .b) | lt => ("LT", .b) | le => ("LE", .b)
  | gt => ("GT", .b) | ge => ("GE", .b) | array => ("ARRAY", .bb) | array2 => ("ARRAY2", .bbb)
  | aref => ("AREF", .bbb) | aryPush => ("ARYPUSH", .bb) | hash => ("HASH", .bb)
  | string => ("STRING", .bb) | lambda => ("LAMBDA", .bb) | block => ("BLOCK", .bb)
  | method => ("METHOD", .bb) | rangeInc => ("RANGE_INC", .b) | rangeExc => ("RANGE_EXC", .b)
  | oclass => ("OCLASS", .b) | classDef => ("CLASS", .bb) | moduleDef => ("MODULE", .bb)
  | exec => ("EXEC", .bb) | defMethod => ("DEF", .bb) | aliasMethod => ("ALIAS", .bb)
  | undef => ("UNDEF", .b) | sclass => ("SCLASS", .b) | tclass => ("TCLASS", .b)
  | stop => ("STOP", .z)

def name (op : Opcode) : String := op.info.1

def shape (op : Opcode) : Shape := op.info.2

def ofName? (s : String) : Option Opcode := all.find? (·.name == s)

def isJump (op : Opcode) : Bool := op == jmp || op == jmpIf || op == jmpNot || op == jmpNil

end Opcode

def opcodeByteName (b : Nat) : String :=
  match Opcode.ofNat? b with
  | some op => op.name
  | none =>
    let hex (d : Nat) := if d < 10 then Char.ofNat (48 + d) else Char.ofNat (55 + d)
    "UNKNOWN_" ++ String.ofList [hex (b / 16 % 16), hex (b % 16)]

end RegisterVM
