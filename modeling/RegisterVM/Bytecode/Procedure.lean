import RegisterVM.Bytecode.Opcode
import RegisterVM.Symbol
import RegisterVM.Text.Decimal

set_option autoImplicit false

namespace RegisterVM

structure ParamSpec where
  req : Int := 0
  opt : Int := 0
  rest : Bool := false
  post : Int := 0
  nkeys : Int := 0
  kdict : Bool := false
  block : Bool := false
deriving DecidableEq, Repr, Inhabited

namespace ParamSpec

def hasKeywords (a : ParamSpec) : Bool := a.nkeys > 0 || a.kdict

def kdictIndex (a : ParamSpec) : Int := 1 + a.req + a.opt + a.post + (if a.rest then 1 else 0)

def blockIndex (a : ParamSpec) : Int := a.kdictIndex + (if a.hasKeywords then 1 else 0)

def expected (a : ParamSpec) : String :=
  let lo := a.req + a.post
  if a.rest then Text.intText lo ++ "+"
  else if a.opt > 0 then Text.intText lo ++ ".." ++ Text.intText (lo + a.opt)
  else Text.intText lo

end ParamSpec

structure Literal where
  kind : Nat
  int : Int := 0
  float : UInt64 := 0
  str : String := ""
deriving DecidableEq, Repr, Inhabited

namespace Literal

def ofInt (n : Int) : Literal := { kind := 0, int := n }

def ofFloat (bits : UInt64) : Literal := { kind := 1, float := bits }

def ofString (s : String) : Literal := { kind := 2, str := s }

def same (p q : Literal) : Bool :=
  p.kind == q.kind &&
    (if p.kind == 0 then p.int == q.int
     else if p.kind == 1 then p.float == q.float
     else p.str == q.str)

end Literal

abbrev CatchKind := Nat

def catchKindName (k : CatchKind) : String :=
  match k with
  | 0 => "rescue" | 1 => "ensure" | 2 => "break"
  | n => "catch(" ++ Text.natText n ++ ")"

def catchKindOfName? (name : String) : Option CatchKind :=
  match name with
  | "rescue" => some 0 | "ensure" => some 1 | "break" => some 2
  | _ => none

structure Handler where
  kind : CatchKind
  start : Int
  stop : Int
  target : Int
  guards : Array Sym := #[]
deriving DecidableEq, Repr, Inhabited

def Handler.covers (h : Handler) (pc : Int) : Bool := h.start ≤ pc && pc < h.stop

structure LineEntry where
  pc : Int
  line : Int
deriving DecidableEq, Repr, Inhabited

structure Procedure where
  code : Array UInt8 := #[]
  params : ParamSpec := {}
  nlocals : Int := 0
  nregs : Int := 0
  pool : Array Literal := #[]
  syms : Array Sym := #[]
  children : Array Procedure := #[]
  handlers : Array Handler := #[]
  filename : String := ""
  lines : Array LineEntry := #[]
deriving Inhabited

namespace Procedure

def lineAt (p : Procedure) (pc : Int) : Int :=
  let n := p.lines.size
  let i := search 0 n (n + 1)
  if i == 0 then 0 else (p.lines.getD (i - 1) default).line
where
  search (lo hi : Nat) : Nat → Nat
    | 0 => lo
    | fuel + 1 =>
      if lo < hi then
        let h := (lo + hi) / 2
        if (p.lines.getD h default).pc > pc then search lo h fuel else search (h + 1) hi fuel
      else lo

end Procedure

end RegisterVM
