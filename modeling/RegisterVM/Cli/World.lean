import RegisterVM.Config.Path

set_option autoImplicit false

namespace RegisterVM.Cli

inductive Request where
  | exists (path : String)
  | read (path : String)
  | write (path : String) (data : ByteArray)
  | touch (path : String)
  | out (text : String)
  | err (text : String)
  | workingDir

inductive Reply where
  | done
  | found (b : Bool)
  | contents (data : ByteArray)
  | text (s : String)
  | failed (msg : String)

inductive Command (α : Type) where
  | pure (a : α)
  | ask (r : Request) (next : Reply → Command α)

namespace Command

variable {α β : Type}

def bind : Command α → (α → Command β) → Command β
  | .pure a, f => f a
  | .ask r next, f => .ask r (fun reply => bind (next reply) f)

instance : Monad Command where
  pure := .pure
  bind := bind

end Command

def pathExists (path : String) : Command Bool :=
  .ask (.exists path) fun
    | .found b => .pure b
    | _ => .pure false

def readFile (path : String) : Command (Except String ByteArray) :=
  .ask (.read path) fun
    | .contents d => .pure (.ok d)
    | .failed msg => .pure (.error msg)
    | _ => .pure (.error "read failed")

def writeFile (path : String) (data : ByteArray) : Command (Except String Unit) :=
  .ask (.write path data) fun
    | .failed msg => .pure (.error msg)
    | _ => .pure (.ok ())

def touch (path : String) : Command (Except String Unit) :=
  .ask (.touch path) fun
    | .failed msg => .pure (.error msg)
    | _ => .pure (.ok ())

def say (text : String) : Command Unit := .ask (.out text) fun _ => .pure ()

def complain (text : String) : Command Unit := .ask (.err text) fun _ => .pure ()

def workingDir : Command String :=
  .ask .workingDir fun
    | .text s => .pure s
    | _ => .pure "/"

structure MemoryFs where
  files : List (String × ByteArray) := []
  dirs : List String := ["/"]
  cwd : String := "/"

namespace MemoryFs

def resolve (fs : MemoryFs) (p : String) : String := FilePath.absolute fs.cwd p

def fileAt? (fs : MemoryFs) (abs : String) : Option ByteArray := (fs.files.find? (·.1 == abs)).map (·.2)

def isDir (fs : MemoryFs) (abs : String) : Bool := fs.dirs.contains abs

def chain (abs : String) : List String :=
  go abs (abs.length + 1) []
where
  go (p : String) : Nat → List String → List String
    | 0, acc => acc
    | n + 1, acc => if FilePath.dir p == p then p :: acc else go (FilePath.dir p) n (p :: acc)

def makeDirs (fs : MemoryFs) (abs : String) : MemoryFs :=
  { fs with dirs := (chain abs).foldl (fun ds d => if ds.contains d then ds else ds ++ [d]) fs.dirs }

def enter (fs : MemoryFs) (cur part : String) : Except String String :=
  if part == "." then .ok cur
  else if part == ".." then .ok (FilePath.dir cur)
  else
    let next := FilePath.join cur part
    if fs.isDir next then .ok next
    else if (fs.fileAt? next).isSome then .error "not a directory"
    else .error "no such file or directory"

def locate (fs : MemoryFs) (p : String) : Except String String :=
  if p.isEmpty then .error "no such file or directory" else
  let start := if FilePath.isAbsolute p then "/" else fs.cwd
  match ((p.splitOn "/").filter (· != "")).reverse with
  | [] => .ok start
  | last :: before =>
    match before.reverse.foldlM fs.enter start with
    | .error why => .error why
    | .ok cur =>
      if last == "." then .ok cur
      else if last == ".." then .ok (FilePath.dir cur)
      else .ok (FilePath.join cur last)

def put (fs : MemoryFs) (abs : String) (data : ByteArray) : MemoryFs :=
  if fs.files.any (·.1 == abs) then
    { fs with files := fs.files.map fun f => if f.1 == abs then (abs, data) else f }
  else { fs with files := fs.files ++ [(abs, data)] }

def openForWrite (fs : MemoryFs) (p : String) : Except String String :=
  match fs.locate p with
  | .error why => .error why
  | .ok abs =>
    if (fs.fileAt? abs).isSome && p.endsWith "/" then .error "not a directory"
    else if fs.isDir abs || p.endsWith "/" then .error "is a directory"
    else .ok abs

def answer (fs : MemoryFs) (out err : String) : Request → Reply × MemoryFs × String × String
  | .exists p =>
    match fs.locate p with
    | .error _ => (.found false, fs, out, err)
    | .ok abs => (.found (fs.isDir abs || ((fs.fileAt? abs).isSome && !p.endsWith "/")), fs, out, err)
  | .read p =>
    match fs.locate p with
    | .error why => (.failed ("open " ++ p ++ ": " ++ why), fs, out, err)
    | .ok abs =>
      match fs.fileAt? abs with
      | some d =>
        if p.endsWith "/" then (.failed ("open " ++ p ++ ": not a directory"), fs, out, err)
        else (.contents d, fs, out, err)
      | none =>
        if fs.isDir abs then (.failed ("read " ++ p ++ ": is a directory"), fs, out, err)
        else (.failed ("open " ++ p ++ ": no such file or directory"), fs, out, err)
  | .write p d =>
    match fs.openForWrite p with
    | .error why => (.failed ("open " ++ p ++ ": " ++ why), fs, out, err)
    | .ok abs => (.done, fs.put abs d, out, err)
  | .touch p =>
    match fs.openForWrite p with
    | .error why => (.failed ("open " ++ p ++ ": " ++ why), fs, out, err)
    | .ok abs => (.done, if (fs.fileAt? abs).isSome then fs else fs.put abs ByteArray.empty, out, err)
  | .out t => (.done, fs, out ++ t, err)
  | .err t => (.done, fs, out, err ++ t)
  | .workingDir => (.text fs.cwd, fs, out, err)

def run {α : Type} : Command α → MemoryFs → String → String → α × MemoryFs × String × String
  | .pure a, fs, out, err => (a, fs, out, err)
  | .ask r next, fs, out, err =>
    let (reply, fs, out, err) := fs.answer out err r
    run (next reply) fs out err

end MemoryFs

end RegisterVM.Cli
