import RegisterVM.Cli.Flags
import RegisterVM.Cli.World
import RegisterVM.Config.Settings
import RegisterVM.Host.Bundle
import RegisterVM.Text.Decimal
import RegisterVM.Text.Unicode

set_option autoImplicit false

namespace RegisterVM.Cli

inductive Exit where
  | ok
  | raised
  | fatal
  | usage
  | noLog
deriving DecidableEq, Repr

def Exit.code : Exit → UInt32
  | .ok => 0
  | .raised => 1
  | .fatal => 2
  | .usage => 3
  | .noLog => 1

def sampleSource (n : Int) : Source :=
  let fib : AsmBody := {
    filename := "sample.rb", params := { req := 1 }, locals := some 2,
    items := [.line 1, .instr .enter [],
      .instr .move [.num 2, .num 1], .loadInt 3 2, .instr .lt [.num 2],
      .instr .jmpNot [.num 2, .name "recurse"], .instr .ret [.num 1],
      .label "recurse",
      .instr .move [.num 3, .num 1], .instr .subI [.num 3, .num 1],
      .instr .ssend [.num 2, .name "fib", .num 1],
      .instr .move [.num 4, .num 1], .instr .subI [.num 4, .num 2],
      .instr .ssend [.num 3, .name "fib", .num 1],
      .instr .add [.num 2], .instr .ret [.num 2]] }
  let top : AsmBody := {
    filename := "sample.rb",
    items := [.line 1, .instr .tclass [.num 1], .instr .method [.num 2, .num 0],
      .instr .defMethod [.num 1, .name "fib"],
      .line 2, .loadInt 2 n, .instr .ssend [.num 1, .name "fib", .num 1], .instr .ret [.num 1]] }
  .asm top [.asm fib []]

def sampleBundle : Except String ByteArray :=
  match (sampleSource 20).assembleAlone with
  | .error (.bad msg) => .error msg
  | .error (.fault (.panic msg)) => .error msg
  | .error (.fault .runtime) => .error "runtime error"
  | .ok (p, t) => Bundle.pack t p

def findSettings (start : String) : Command (Except String (Option Config.Settings)) := do
  let first := FilePath.absolute (← workingDir) start
  search first (first.length + 1)
where
  search (dir : String) : Nat → Command (Except String (Option Config.Settings))
    | 0 => pure (.ok none)
    | fuel + 1 => do
      let path := FilePath.join dir Config.fileName
      if ← pathExists path then
        match ← readFile path with
        | .error msg => pure (.error ("cannot read " ++ path ++ ": " ++ msg))
        | .ok data =>
          match Config.load dir path data with
          | .ok s => pure (.ok (some s))
          | .error e => pure (.error e.message)
      else
        let parent := FilePath.dir dir
        if parent == dir then pure (.ok none) else search parent fuel

def Invocation.override (inv : Invocation) (s : Config.Settings) : Config.Settings :=
  let s := if inv.verbosity ≥ 0 then { s with log.verbosity := inv.verbosity } else s
  let s := if inv.maxDepth > 0 then { s with engine.maxDepth := inv.maxDepth } else s
  if inv.stepLimit > 0 then { s with engine.stepLimit := inv.stepLimit } else s

def setupNanos : Int := 20000

def Invocation.deadline (inv : Invocation) : Option Interruption :=
  if 0 < inv.timeout && inv.timeout < setupNanos then some .deadlineExceeded else none

def openLog (s : Config.Settings) : Command (Except String Unit) :=
  match s.logPath with
  | some p => if s.log.verbosity > -4 then touch p else pure (.ok ())
  | none => pure (.ok ())

def Procedure.preorder (name : String) (p : Procedure) : List (String × Procedure) :=
  (name, p) :: (p.children.attach.toList.zipIdx.flatMap fun ci =>
    preorder (name ++ "/" ++ toString ci.2) ci.1.1)
termination_by sizeOf p
decreasing_by
  have := Array.sizeOf_lt_of_mem ci.1.2
  cases p
  simp_all only [Procedure.mk.sizeOf_spec]
  omega

def faultText : Fault → String
  | .panic msg => "panic: " ++ ((msg.splitOn "\n").headD "") ++ "\n"
  | .runtime => "panic: runtime error\n"

def disassemble (t : Symbols) : List (String × Procedure) → Command Exit
  | [] => pure .ok
  | (name, p) :: rest => do
    say ("== " ++ name ++ " (" ++ p.filename ++ ", locals " ++ toString p.nlocals ++ ", regs " ++
      toString p.nregs ++ ")\n")
    match p.listing t.text with
    | .error f => complain (faultText f); pure .fatal
    | .ok ls => say ("\n".intercalate ls ++ "\n"); disassemble t rest

def reportRun (printResult : Bool) : Outcome → Command Exit
  | .value v out => do
    say out
    if printResult then say (v.text ++ "\n")
    pure .ok
  | .failure e out => do
    say out
    match e with
    | .raised cls msg bt =>
      complain (cls ++ ": " ++ msg ++ String.join ((bt.getD #[]).toList.map ("\n\tfrom " ++ ·)) ++ "\n")
      pure .raised
    | .fault f => complain (faultText f); pure .fatal
    | .overflow _ msg | .stepLimit msg | .interrupted msg | .contextDead msg | .failed msg =>
      complain ("Fatal: " ++ msg ++ "\n"); pure .fatal
  | .badInput msg => do complain ("Fatal: " ++ msg ++ "\n"); pure .fatal

def runFile (inv : Invocation) (opts : Options) (path : String) : Command Exit := do
  match Machine.boot opts with
  | .error f => complain (faultText f); pure .fatal
  | .ok m =>
    match ← readFile path with
    | .error msg => complain ("Error: bundle: read " ++ path ++ ": " ++ msg ++ "\n"); pure .fatal
    | .ok data =>
      match Bundle.load m.store.symbols data with
      | .error e => complain ("Error: " ++ path ++ ": " ++ e.message ++ "\n"); pure .fatal
      | .ok (w, p, t) =>
        if inv.digest then
          match Bundle.rewrite t w with
          | .error msg => complain ("Error: " ++ msg ++ "\n"); pure .fatal
          | .ok w =>
            say (Text.hexOfBytes (Bundle.digest (Bundle.encode w)).toList ++ "  " ++ path ++ "\n")
            pure .ok
        else if inv.disassemble then disassemble t (Procedure.preorder "root" p)
        else
          let m := { m with store := { m.store with symbols := t } }
          let (r, m) := Machine.enter (.fixed inv.deadline) (Machine.runTop p) m
          reportRun inv.printResult (Machine.report r m).1

def rite (args : List String) : Command Exit := do
  match parseFlags args with
  | .error .help => complain usage; pure .ok
  | .error (.bad msg) => complain (msg ++ "\n" ++ usage); pure .fatal
  | .ok inv =>
    match ← findSettings inv.configDir with
    | .error msg => complain ("Error: " ++ msg ++ "\n"); pure .usage
    | .ok found =>
      let s := inv.override (found.getD {})
      if let .error msg ← openLog s then
        complain ("log file error: " ++ msg ++ "\n"); return .noLog
      if !inv.sample.isEmpty then
        match sampleBundle with
        | .error msg => complain ("Error: " ++ msg ++ "\n"); pure .fatal
        | .ok data =>
          match ← writeFile inv.sample data with
          | .error msg =>
            complain ("Error: bundle: write " ++ inv.sample ++ ": " ++ msg ++ "\n"); pure .fatal
          | .ok () => pure .ok
      else
        match inv.args with
        | [path] => runFile inv s.options path
        | _ => complain usage; pure .usage

end RegisterVM.Cli
