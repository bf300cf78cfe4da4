import RegisterVM.Bytecode.Assembler

set_option autoImplicit false

namespace RegisterVM

structure HandlerView where
  kind : String
  start : Int
  stop : Int
  target : Int
  guards : List String
deriving Inhabited

structure ProcedureView where
  code : Array UInt8
  params : ParamSpec
  nlocals : Int
  nregs : Int
  pool : Array Literal
  syms : List String
  handlers : List HandlerView
  filename : String
  lines : Array LineEntry
  listing : List String
  children : List ProcedureView
deriving Inhabited

namespace Procedure

def view (t : Symbols) (p : Procedure) : Except Fault ProcedureView := do
  let listing ← p.listing t.text
  let children ← p.children.attach.toList.mapM fun c => view t c.1
  pure {
    code := p.code, params := p.params, nlocals := p.nlocals, nregs := p.nregs,
    pool := p.pool, syms := p.syms.toList.map t.text,
    handlers := p.handlers.toList.map fun h =>
      { kind := catchKindName h.kind, start := h.start, stop := h.stop, target := h.target,
        guards := h.guards.toList.map t.text },
    filename := p.filename, lines := p.lines, listing, children }
termination_by sizeOf p
decreasing_by
  have := Array.sizeOf_lt_of_mem c.2
  cases p
  simp_all only [Procedure.mk.sizeOf_spec]
  omega

end Procedure

def Source.assembleAlone (src : Source) : Except AsmError (Procedure × Symbols) :=
  src.assemble.run Symbols.fresh

def Source.describe (src : Source) : Except AsmError ProcedureView := do
  let (p, t) ← src.assembleAlone
  match p.view t with
  | .ok v => pure v
  | .error f => throw (.fault f)

end RegisterVM
