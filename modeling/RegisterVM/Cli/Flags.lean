import RegisterVM.Text.Quoted

set_option autoImplicit false

namespace RegisterVM.Cli

inductive NumberError where
  | malformed
  | range
deriving DecidableEq

def NumberError.text : NumberError → String
  | .malformed => "parse error"
  | .range => "value out of range"

def digitValue (c : Char) : Option Nat :=
  if '0' ≤ c && c ≤ '9' then some (c.toNat - 48)
  else if 'a' ≤ c.toLower && c.toLower ≤ 'z' then some (c.toLower.toNat - 87)
  else none

def underscoresOk (cs : List Char) : Bool :=
  let cs := match cs with
    | '+' :: r | '-' :: r => r
    | r => r
  let (hex, start, body) := match cs with
    | '0' :: b :: r =>
      if b.toLower == 'b' || b.toLower == 'o' || b.toLower == 'x' then (b.toLower == 'x', '0', r)
      else (false, '^', cs)
    | _ => (false, '^', cs)
  let last := body.foldl (fun (saw : Char) c =>
    if saw == '?' then '?'
    else if c.isDigit || (hex && 'a' ≤ c.toLower && c.toLower ≤ 'f') then '0'
    else if c == '_' then (if saw == '0' then '_' else '?')
    else if saw == '_' then '?'
    else '!') start
  last != '_' && last != '?'

def parseUnsigned (limit : Nat) (s : String) : Except NumberError Nat :=
  let cs := s.toList
  if cs.isEmpty then .error .malformed else
  let (base, digits) := match cs with
    | '0' :: b :: r =>
      if r.length ≥ 1 && b.toLower == 'b' then (2, r)
      else if r.length ≥ 1 && b.toLower == 'o' then (8, r)
      else if r.length ≥ 1 && b.toLower == 'x' then (16, r)
      else (8, b :: r)
    | ['0'] => (8, [])
    | _ => (10, cs)
  let step (acc : Except NumberError (Nat × Bool)) (c : Char) : Except NumberError (Nat × Bool) :=
    match acc with
    | .error e => .error e
    | .ok (n, under) =>
      if c == '_' then .ok (n, true)
      else match digitValue c with
        | some d => if d ≥ base then .error .malformed
          else if n * base + d ≥ limit then .error .range
          else .ok (n * base + d, under)
        | none => .error .malformed
  match digits.foldl step (.ok (0, false)) with
  | .error e => .error e
  | .ok (n, under) => if under && !underscoresOk cs then .error .malformed else .ok n

def parseSigned (s : String) : Except NumberError Int :=
  let (neg, body) := match s.toList with
    | '+' :: r => (false, String.ofList r)
    | '-' :: r => (true, String.ofList r)
    | _ => (false, s)
  match parseUnsigned (Nat.pow 2 64) body with
  | .error .malformed => .error .malformed
  | .error .range => .error .range
  | .ok n =>
    if !neg && n ≥ Nat.pow 2 63 then .error .range
    else if neg && n > Nat.pow 2 63 then .error .range
    else .ok (if neg then -(n : Int) else n)

def unitNanos : String → Option Nat
  | "ns" => some 1
  | "us" | "µs" | "μs" => some 1000
  | "ms" => some 1000000
  | "s" => some 1000000000
  | "m" => some 60000000000
  | "h" => some 3600000000000
  | _ => none

def parseDuration (s : String) : Except NumberError Int :=
  let (neg, cs) := match s.toList with
    | '+' :: r => (false, r)
    | '-' :: r => (true, r)
    | r => (false, r)
  if cs == ['0'] then .ok 0
  else if cs.isEmpty then .error .malformed
  else
    match go cs 0 (cs.length + 1) with
    | .ok d => if !neg && d ≥ Nat.pow 2 63 then .error .malformed else .ok (if neg then -(d : Int) else d)
    | .error e => .error e
where
  go : List Char → Nat → Nat → Except NumberError Nat
    | [], d, _ => .ok d
    | _, _, 0 => .error .malformed
    | cs, d, fuel + 1 =>
      match cs with
      | c :: _ =>
        if !(c == '.' || c.isDigit) then .error .malformed else
        let whole := cs.takeWhile Char.isDigit
        let rest := cs.drop whole.length
        let (frac, rest) := match rest with
          | '.' :: r => (some (r.takeWhile Char.isDigit), r.drop (r.takeWhile Char.isDigit).length)
          | _ => (none, rest)
        if whole.isEmpty && (frac.getD []).isEmpty then .error .malformed else
        let unit := rest.takeWhile fun c => !(c == '.' || c.isDigit)
        let rest := rest.drop unit.length
        if unit.isEmpty then .error .malformed else
        match unitNanos (String.ofList unit) with
        | none => .error .malformed
        | some u =>
          let v := whole.foldl (fun n c => n * 10 + (c.toNat - 48)) 0
          let fd := frac.getD []
          let f := fd.foldl (fun n c => n * 10 + (c.toNat - 48)) 0
          let total := v * u + f * u / Nat.pow 10 fd.length
          if v > Nat.pow 2 63 || d + total > Nat.pow 2 63 then .error .malformed
          else go rest (d + total) fuel
      | [] => .ok d

def parseSwitch (s : String) : Option Bool :=
  match s with
  | "1" | "t" | "T" | "TRUE" | "true" | "True" => some true
  | "0" | "f" | "F" | "FALSE" | "false" | "False" => some false
  | _ => none

structure Invocation where
  verbosity : Int := -1
  configDir : String := "."
  maxDepth : Int := 0
  stepLimit : Nat := 0
  timeout : Int := 0
  disassemble : Bool := false
  digest : Bool := false
  printResult : Bool := false
  sample : String := ""
  args : List String := []

inductive FlagError where
  | help
  | bad (msg : String)

def switches : List String := ["d", "digest", "p"]

def valued : List String := ["v", "config", "max-depth", "step-limit", "timeout", "write-sample"]

def setValued (inv : Invocation) (name value : String) : Except String Invocation :=
  let bad (e : NumberError) : Except String Invocation :=
    .error ("invalid value " ++ Text.literalString value ++ " for flag -" ++ name ++ ": " ++ e.text)
  match name with
  | "v" => match parseSigned value with
    | .ok n => .ok { inv with verbosity := n }
    | .error e => bad e
  | "max-depth" => match parseSigned value with
    | .ok n => .ok { inv with maxDepth := n }
    | .error e => bad e
  | "step-limit" => match parseUnsigned (Nat.pow 2 64) value with
    | .ok n => .ok { inv with stepLimit := n }
    | .error e => bad e
  | "timeout" => match parseDuration value with
    | .ok n => .ok { inv with timeout := n }
    | .error _ => bad .malformed
  | "config" => .ok { inv with configDir := value }
  | _ => .ok { inv with sample := value }

def setSwitch (inv : Invocation) (name : String) (b : Bool) : Invocation :=
  match name with
  | "d" => { inv with disassemble := b }
  | "digest" => { inv with digest := b }
  | _ => { inv with printResult := b }

def parseFlags (args : List String) : Except FlagError Invocation :=
  go args {} (args.length + 1)
where
  go : List String → Invocation → Nat → Except FlagError Invocation
    | [], inv, _ => .ok { inv with args := [] }
    | rest, inv, 0 => .ok { inv with args := rest }
    | s :: rest, inv, fuel + 1 =>
      let cs := s.toList
      if cs.length < 2 || cs.head? != some '-' then .ok { inv with args := s :: rest }
      else if s == "--" then .ok { inv with args := rest }
      else
        let body := if cs[1]? == some '-' then cs.drop 2 else cs.drop 1
        match body with
        | [] | '-' :: _ | '=' :: _ => .error (.bad ("bad flag syntax: " ++ s))
        | first :: more =>
          let nameTail := more.takeWhile (· != '=')
          let name := String.ofList (first :: nameTail)
          let value : Option String :=
            if nameTail.length < more.length then some (String.ofList (more.drop (nameTail.length + 1)))
            else none
          if switches.contains name then
            match value with
            | none => go rest (setSwitch inv name true) fuel
            | some v =>
              match parseSwitch v with
              | some b => go rest (setSwitch inv name b) fuel
              | none => .error (.bad ("invalid boolean value " ++ Text.literalString v ++ " for -" ++ name ++ ": parse error"))
          else if valued.contains name then
            let (value, rest) := match value, rest with
              | some v, r => (some v, r)
              | none, v :: r => (some v, r)
              | none, [] => (none, [])
            match value with
            | none => .error (.bad ("flag needs an argument: -" ++ name))
            | some v =>
              match setValued inv name v with
              | .ok inv => go rest inv fuel
              | .error msg => .error (.bad msg)
          else if name == "h" || name == "help" then .error .help
          else .error (.bad ("flag provided but not defined: -" ++ name))

def usage : String :=
  "Usage: rite [options] bundle.rite\n\nRuns the root procedure of a CBOR bytecode bundle.\n\n" ++
  "Options:\n" ++
  "  -config string\n    \tDirectory to search upwards for rite.toml (default \".\")\n" ++
  "  -d\tDisassemble the bundle instead of running it\n" ++
  "  -digest\n    \tPrint the bundle's SHA-256 and exit\n" ++
  "  -max-depth int\n    \tFrame depth limit (overrides rite.toml)\n" ++
  "  -p\tPrint the inspected result of the run\n" ++
  "  -step-limit uint\n    \tInstruction limit, 0 for none (overrides rite.toml)\n" ++
  "  -timeout duration\n    \tInterrupt the run after this long\n" ++
  "  -v int\n    \tLog verbosity (overrides rite.toml) (default -1)\n" ++
  "  -write-sample string\n    \tWrite a sample bundle (fib 20) to this path and exit\n" ++
  "\nExamples:\n" ++
  "  rite -write-sample fib.rite   # Write a sample bundle\n" ++
  "  rite -p fib.rite              # Run it and print the result\n" ++
  "  rite -d fib.rite              # Disassemble it\n"

end RegisterVM.Cli
