import RegisterVM.Config.Toml.Document
import RegisterVM.Config.Path
import RegisterVM.Machine.Boot
import RegisterVM.Text.Quoted

set_option autoImplicit false

namespace RegisterVM.Config

def fileName : String := "rite.toml"

structure EngineSettings where
  maxDepth : Int := 512
  stackSize : Int := 128
  frameCapacity : Int := 16
  stepLimit : Nat := 0
  checkInterval : Int := 1024
deriving Inhabited

structure LogSettings where
  verbosity : Int := 0
  file : String := ""
deriving Inhabited

structure Settings where
  engine : EngineSettings := {}
  log : LogSettings := {}
  dir : String := ""
deriving Inhabited

inductive LoadError where
  | unreadable (msg : String)
  | parse (msg : String)
  | unknownKey (msg : String)
  | invalid (msg : String)

def LoadError.message : LoadError → String
  | .unreadable m | .parse m | .unknownKey m | .invalid m => m

def foldsTo (field key : Char) : Bool :=
  field == key || (field.isAlpha && key.isAlpha && field.toLower == key.toLower) ||
    (field.toLower == 's' && key.toNat == 0x17f) || (field.toLower == 'k' && key.toNat == 0x212a)

def namesField (field key : String) : Bool :=
  field.length == key.length && (field.toList.zip key.toList).all fun (f, k) => foldsTo f k

def fieldOf (fields : List String) (k : String) : Option String :=
  match fields.find? (· == k) with
  | some f => some f
  | none => fields.find? (namesField · k)

def typeText : Toml.Node → String
  | .str _ => "string"
  | .int _ => "int64"
  | .float => "float64"
  | .bool _ => "bool"
  | .datetime => "time.Time"
  | .array _ => "[]any"
  | .table _ => "map[string]any"
  | .tables _ => "[]map[string]any"

def complaintAt (doc : Toml.Document) (path : List String) : String :=
  let k := Text.literalString (Toml.keyText path)
  match doc.lineOf path with
  | some n => if n > 0 then "toml: line " ++ toString n ++ " (last key " ++ k ++ "): "
    else "toml: (last key " ++ k ++ "): "
  | none => "toml: (last key " ++ k ++ "): "

def wrongType (doc : Toml.Document) (path : List String) (v : Toml.Node) (want : String) : String :=
  complaintAt doc path ++ "incompatible types: TOML value has type " ++ typeText v ++
    "; destination has type " ++ want

def intOf (doc : Toml.Document) (path : List String) : Toml.Node → Except String Int
  | .int n => .ok n
  | v => .error (wrongType doc path v "integer")

def textOf (doc : Toml.Document) (path : List String) : Toml.Node → Except String String
  | .str s => .ok s
  | v => .error (wrongType doc path v "string")

def tableOf (doc : Toml.Document) (path : List String) (typeName : String) :
    Toml.Node → Except String Toml.Entries
  | .table es => .ok es
  | v => .error (complaintAt doc path ++ "type mismatch for " ++ typeName ++
      ": expected table but found " ++ typeText v)

def engineOf (doc : Toml.Document) (path : List String) (es : Toml.Entries) (e : EngineSettings) :
    Except String (EngineSettings × List (List String)) := do
  let mut e := e
  let mut seen : List (List String) := []
  for (k, v) in es do
    let p := path ++ [k]
    match fieldOf ["max-depth", "stack-size", "frame-capacity", "step-limit", "check-interval"] k with
    | some "max-depth" => seen := p :: seen; e := { e with maxDepth := ← intOf doc p v }
    | some "stack-size" => seen := p :: seen; e := { e with stackSize := ← intOf doc p v }
    | some "frame-capacity" => seen := p :: seen; e := { e with frameCapacity := ← intOf doc p v }
    | some "step-limit" =>
      seen := p :: seen; e := { e with stepLimit := ((← intOf doc p v) % Int.pow 2 64).toNat }
    | some _ => seen := p :: seen; e := { e with checkInterval := ← intOf doc p v }
    | none => pure ()
  pure (e, seen)

def logOf (doc : Toml.Document) (path : List String) (es : Toml.Entries) (l : LogSettings) :
    Except String (LogSettings × List (List String)) := do
  let mut l := l
  let mut seen : List (List String) := []
  for (k, v) in es do
    let p := path ++ [k]
    match fieldOf ["verbosity", "file"] k with
    | some "verbosity" => seen := p :: seen; l := { l with verbosity := ← intOf doc p v }
    | some _ => seen := p :: seen; l := { l with file := ← textOf doc p v }
    | none => pure ()
  pure (l, seen)

def ofDocument (doc : Toml.Document) : Except String (Settings × List (List String)) := do
  let mut s : Settings := {}
  let mut seen : List (List String) := []
  for (k, v) in doc.root do
    match fieldOf ["vm", "log"] k with
    | some "vm" =>
      let (e, used) ← engineOf doc [k] (← tableOf doc [k] "config.VMConfig" v) s.engine
      s := { s with engine := e }
      seen := used ++ [k] :: seen
    | some _ =>
      let (l, used) ← logOf doc [k] (← tableOf doc [k] "config.LogConfig" v) s.log
      s := { s with log := l }
      seen := used ++ [k] :: seen
    | none => pure ()
  pure (s, seen)

def Settings.complaint (s : Settings) : Option String :=
  let e := s.engine
  if e.maxDepth < 0 then some "vm.max-depth must not be negative"
  else if e.stackSize < 0 then some "vm.stack-size must not be negative"
  else if e.frameCapacity < 0 then some "vm.frame-capacity must not be negative"
  else if e.checkInterval < 0 then some "vm.check-interval must not be negative"
  else if s.log.verbosity < -4 || s.log.verbosity > 4 then
    some ("log.verbosity " ++ toString s.log.verbosity ++ " out of range")
  else none

def load (dir path : String) (bytes : ByteArray) : Except LoadError Settings := do
  let doc ← match Toml.parse bytes with
    | .ok d => pure d
    | .error e => throw (.parse ("parse error in " ++ path ++ ": " ++ e.text))
  let (s, used) ← match ofDocument doc with
    | .ok r => pure r
    | .error msg => throw (.parse ("parse error in " ++ path ++ ": " ++ msg))
  match doc.keys.find? (!used.contains ·) with
  | some k => throw (.unknownKey (path ++ ": unknown key " ++ Toml.keyText k))
  | none => pure ()
  match s.complaint with
  | some msg => throw (.invalid (path ++ ": " ++ msg))
  | none => pure { s with dir }

def Settings.options (s : Settings) : Options :=
  let e := s.engine
  { maxDepth := if e.maxDepth == 0 then 512 else e.maxDepth,
    stackSize := if e.stackSize == 0 then 128 else e.stackSize,
    frameCapacity := if e.frameCapacity == 0 then 16 else e.frameCapacity,
    stepLimit := e.stepLimit,
    checkInterval := if e.checkInterval == 0 then 1024 else e.checkInterval }

def Settings.logPath (s : Settings) : Option String :=
  if s.log.file.isEmpty then none
  else if FilePath.isAbsolute s.log.file || s.dir.isEmpty then some s.log.file
  else some (FilePath.join s.dir s.log.file)

end RegisterVM.Config
