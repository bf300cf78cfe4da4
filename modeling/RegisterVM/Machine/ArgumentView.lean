import RegisterVM.Machine.Frames

set_option autoImplicit false

namespace RegisterVM

namespace Machine

def argCount : MachineM Nat := do
  let f ← topFrame
  if f.argc == packedArgs then
    match ← liftStore (Store.arrayOf? (← slot (f.base + 1))) with
    | some es => pure es.size
    | none => pure 0
  else pure f.argc

def arg (i : Int) : MachineM Value := do
  let f ← topFrame
  if f.argc == packedArgs then
    match ← liftStore (Store.arrayOf? (← slot (f.base + 1))) with
    | some es =>
      if i < es.size then
        -- a negative index passes the bound check and then indexes out of range
        if i < 0 then runtimeFault else pure (es.getD i.toNat .nil)
      else pure .nil
    | none => pure .nil
  else if i < 0 ∨ f.argc ≤ i then pure .nil
  else slot (f.base + 1 + i.toNat)

def restArgs (start : Int) : MachineM (Array Value) := do
  let n ← argCount
  if n ≤ start then pure #[]
  else
    let mut out : Array Value := #[]
    for k in [0:(n - start).toNat] do
      out := out.push (← arg (start + k))
    pure out

def keywords : MachineM (Option HashTable) := do
  let f ← topFrame
  let (_, kw, _) ← rawArgs f.base f.argc f.kwc
  pure kw

def keywordArg (name : Sym) : MachineM (Option Value) := do
  let f ← topFrame
  let i := f.base + 1 + argSlots f.argc
  if f.kwc == packedArgs then
    match ← liftStore (Store.hashOf? (← slot i)) with
    | some t => liftStore (Store.tableGet t (.sym name))
    | none => pure none
  else
    for j in [0:f.kwc] do
      if (← slot (i + 2 * j)) == .sym name then
        return some (← slot (i + 2 * j + 1))
    pure none

def blockArg : MachineM Value := do
  let f ← topFrame
  slot (f.base + 1 + argSlots f.argc + kwSlots f.kwc)

def blockGiven : MachineM Bool := do
  pure !(← blockArg).isNil

end Machine

end RegisterVM
