import RegisterVM.Bundle.Wire
import RegisterVM.Digest.Sha256
import RegisterVM.Text.Quoted

set_option autoImplicit false

namespace RegisterVM.Bundle

inductive LoadError where
  | unreadable (msg : String)
  | format (msg : String)
deriving Inhabited

def LoadError.message : LoadError → String
  | .unreadable msg | .format msg => msg

def formatMessage (detail : String) : String := "bundle: invalid format: " ++ detail

def symbolName (t : Symbols) (s : Sym) : Except String String :=
  let n := t.text s
  if n.isEmpty then .error ("bundle: symbol " ++ toString s.id ++ " has no name") else .ok n

def guardList (gs : List String) : Option (List String) := if gs.isEmpty then none else some gs

def toWire (t : Symbols) (p : Procedure) : Except String WireProc := do
  let syms ← p.syms.toList.mapM (symbolName t)
  let handlers ← p.handlers.toList.mapM fun h => do
    let guards ← h.guards.toList.mapM (symbolName t)
    pure { kind := h.kind, start := h.start, stop := h.stop, target := h.target,
           guards := guardList guards : WireHandler }
  let children ← p.children.attach.toList.mapM fun c => do pure (some (← toWire t c.1))
  pure {
    code := some p.code, params := p.params, nlocals := p.nlocals, nregs := p.nregs,
    pool := p.pool.toList.map fun l => { kind := l.kind, int := l.int, float := l.float, str := l.str },
    syms, children, handlers, filename := p.filename, lines := p.lines.toList }
termination_by sizeOf p
decreasing_by
  have := Array.sizeOf_lt_of_mem c.2
  cases p
  simp_all only [Procedure.mk.sizeOf_spec]
  omega

def internNames (t : Symbols) (names : List String) : Symbols × Array Sym :=
  names.foldl (fun (t, acc) n => let (t, s) := t.intern n; (t, acc.push s)) (t, #[])

def fromWire (t : Symbols) (w : WireProc) (path : String) : Except String (Procedure × Symbols) := do
  let (t, syms) := internNames t w.syms
  let (t, handlers) := w.handlers.foldl (fun (t, acc) h =>
    let (t, guards) := internNames t (h.guards.getD [])
    (t, acc.push { kind := h.kind, start := h.start, stop := h.stop, target := h.target, guards }))
    (t, (#[] : Array Handler))
  let mut t := t
  let mut children : Array Procedure := #[]
  for c in w.children.attach do
    match h : c.1 with
    | none => throw (formatMessage (path ++ ": child " ++ toString children.size ++ " is empty"))
    | some k =>
      have : sizeOf k < sizeOf w := by
        have h1 := List.sizeOf_lt_of_mem c.2
        rw [h] at h1
        have h2 : sizeOf (some k) = 1 + sizeOf k := rfl
        cases w
        simp_all only [WireProc.mk.sizeOf_spec]
        omega
      let (p, t') ← fromWire t k (path ++ "/" ++ toString children.size)
      t := t'
      children := children.push p
  pure ({
    code := w.code.getD #[], params := w.params, nlocals := w.nlocals, nregs := w.nregs,
    pool := (w.pool.map fun l => { kind := l.kind, int := l.int, float := l.float, str := l.str : Literal }).toArray,
    syms, children, handlers, filename := w.filename, lines := w.lines.toArray }, t)
termination_by sizeOf w

def unpack (data : ByteArray) : Except LoadError WireProc :=
  match decode data with
  | .error msg => .error (.unreadable ("bundle: unmarshal: " ++ msg))
  | .ok c =>
    if c.magic != magic then .error (.format (formatMessage ("bad magic " ++ Text.literalString c.magic)))
    else if c.version != version then
      .error (.format (formatMessage ("unsupported version " ++ toString c.version)))
    else match c.root with
      | none => .error (.format (formatMessage "no root procedure"))
      | some r => .ok r

def load (t : Symbols) (data : ByteArray) : Except LoadError (WireProc × Procedure × Symbols) := do
  let w ← unpack data
  match fromWire t w "root" with
  | .ok (p, t) => pure (w, p, t)
  | .error msg => throw (.format msg)

def rewrite (t : Symbols) (w : WireProc) : Except String WireProc := do
  let check (n : String) : Except String String :=
    if n.isEmpty then
      .error ("bundle: symbol " ++ toString ((t.lookup "").getD Sym.none).id ++ " has no name")
    else .ok n
  let syms ← w.syms.mapM check
  let handlers ← w.handlers.mapM fun h => do
    let guards ← (h.guards.getD []).mapM check
    pure { h with guards := guardList guards }
  let children ← w.children.attach.mapM fun c =>
    match h : c.1 with
    | none => pure none
    | some k =>
      have : sizeOf k < sizeOf w := by
        have h1 := List.sizeOf_lt_of_mem c.2
        rw [h] at h1
        have h2 : sizeOf (some k) = 1 + sizeOf k := rfl
        cases w
        simp_all only [WireProc.mk.sizeOf_spec]
        omega
      do pure (some (← rewrite t k))
  pure { w with syms, handlers, children }
termination_by sizeOf w

def pack (t : Symbols) (p : Procedure) : Except String ByteArray := do
  pure (encode (← toWire t p))

def digest (data : ByteArray) : ByteArray := Sha256.hash data

end RegisterVM.Bundle
