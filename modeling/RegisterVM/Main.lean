import RegisterVM.Cli.Program

set_option autoImplicit false

namespace RegisterVM.Cli

def systemReason : IO.Error → String
  | .noFileOrDirectory .. => "no such file or directory"
  | .inappropriateType _ 21 _ => "is a directory"
  | .inappropriateType _ 20 _ => "not a directory"
  | .permissionDenied .. => "permission denied"
  | e => toString e

def systemError (path : String) (e : IO.Error) : String :=
  let why := systemReason e
  (if why == "is a directory" then "read " else "open ") ++ path ++ ": " ++ why

def perform : Request → IO Reply
  | .exists p => do
    try
      let _ ← IO.FS.Handle.mk p .read
      pure (.found true)
    catch _ => pure (.found false)
  | .read p => do
    try pure (.contents (← IO.FS.readBinFile p))
    catch e => pure (.failed (systemError p e))
  | .write p d => do
    try IO.FS.writeBinFile p d; pure .done
    catch e => pure (.failed ("open " ++ p ++ ": " ++ systemReason e))
  | .touch p => do
    try
      let _ ← IO.FS.Handle.mk p .append
      pure .done
    catch e => pure (.failed ("open " ++ p ++ ": " ++ systemReason e))
  | .out t => do
    let h ← IO.getStdout
    h.putStr t
    h.flush
    pure .done
  | .err t => do
    let h ← IO.getStderr
    h.putStr t
    h.flush
    pure .done
  | .workingDir => do pure (.text (← IO.currentDir).toString)

def interpret {α : Type} : Command α → IO α
  | .pure a => pure a
  | .ask r next => do interpret (next (← perform r))

end RegisterVM.Cli

def main (args : List String) : IO UInt32 := do
  let e ← RegisterVM.Cli.interpret (RegisterVM.Cli.rite args)
  pure e.code
