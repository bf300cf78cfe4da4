import RegisterVM.Config.Toml.Lexer
import RegisterVM.Config.Toml.Scalar

set_option autoImplicit false

namespace RegisterVM.Toml

inductive Node where
  | str (s : String)
  | int (n : Int)
  | float
  | bool (b : Bool)
  | datetime
  | array (items : List Node)
  | table (entries : List (String × Node))
  | tables (elements : List (List (String × Node)))
deriving Inhabited

abbrev Entries := List (String × Node)

inductive ValueType where
  | string | integer | float | bool | datetime | array | table | arrayOfTables
deriving DecidableEq, Repr

def lookup (es : Entries) (k : String) : Option Node := (es.find? (·.1 == k)).map (·.2)

def put (es : Entries) (k : String) (n : Node) : Entries :=
  if es.any (·.1 == k) then es.map fun e => if e.1 == k then (k, n) else e else es ++ [(k, n)]

def tableAt : Entries → List String → Except (Nat × Bool) Entries
  | es, [] => .ok es
  | es, k :: rest =>
    let deeper (r : Except (Nat × Bool) Entries) := r.mapError fun (n, b) => (n + 1, b)
    match lookup es k with
    | some (.table sub) => deeper (tableAt sub rest)
    | some (.tables els) => deeper (tableAt (els.getLast?.getD []) rest)
    | some _ => .error (0, true)
    | none => .error (0, false)

def updateAt (f : Entries → Entries) : Entries → List String → Entries
  | es, [] => f es
  | es, k :: rest =>
    match lookup es k with
    | some (.table sub) => put es k (.table (updateAt f sub rest))
    | some (.tables els) => put es k (.tables (els.dropLast ++ [updateAt f (els.getLast?.getD []) rest]))
    | _ => es

def insertPath (top : Entries) : List String → String → Node → Except Unit Entries
  | [], k, v => .ok (put top k v)
  | c :: rest, k, v =>
    match lookup top c with
    | none => do .ok (put top c (.table (← insertPath [] rest k v)))
    | some (.table sub) => do .ok (put top c (.table (← insertPath sub rest k v)))
    | some _ => .error ()

def keyPart (s : String) : String :=
  let bare := !s.isEmpty && s.all fun c =>
    ('a' ≤ c && c ≤ 'z') || ('A' ≤ c && c ≤ 'Z') || ('0' ≤ c && c ≤ '9') || c == '_' || c == '-'
  if bare then s
  else
    let escape (c : Char) : String :=
      match c with
      | '"' => "\\\""
      | '\\' => "\\\\"
      | '\x08' => "\\b"
      | '\t' => "\\t"
      | '\n' => "\\n"
      | '\x0c' => "\\f"
      | '\r' => "\\r"
      | c => if c.toNat < 0x20 || c.toNat == 0x7f then "\\u00" ++ hex2 c.toNat else c.toString
    "\"" ++ String.join (s.toList.map escape) ++ "\""

def keyText (k : List String) : String := ".".intercalate (k.map keyPart)

structure ParseError where
  line : Nat
  lastKey : String
  message : String

def ParseError.text (e : ParseError) : String :=
  if e.lastKey.isEmpty then "toml: line " ++ toString e.line ++ ": " ++ e.message
  else "toml: line " ++ toString e.line ++ " (last key " ++ Text.literalString e.lastKey ++ "): " ++
    e.message

structure Parser where
  tokens : Array Token
  failure : Option LexError
  index : Nat := 0
  context : List String := []
  currentKey : String := ""
  line : Nat := 0
  ordered : Array (List String) := #[]
  info : List (List String × ValueType × Nat) := []
  root : Entries := []
  implicits : List (List String) := []

def Parser.current (p : Parser) : String :=
  if p.currentKey.isEmpty then keyText p.context
  else if p.context.isEmpty then p.currentKey
  else keyText p.context ++ "." ++ p.currentKey

abbrev ParseM := StateT Parser (Except ParseError)

namespace Parser

def failAt {α : Type} (line : Nat) (msg : String) : ParseM α := do
  throw { line, lastKey := (← get).current, message := msg }

def fail {α : Type} (msg : String) : ParseM α := do failAt (← get).line msg

def bug {α : Type} (msg : String) : ParseM α := fail ("toml: BUG: " ++ msg)

def next : ParseM Token := do
  let p ← get
  match p.tokens[p.index]? with
  | some t =>
    set { p with index := p.index + 1 }
    pure t
  | none =>
    match p.failure with
    | some e => throw { line := e.line, lastKey := p.current, message := e.message }
    | none => pure { kind := .eof, text := "", line := p.line }

def nextPos : ParseM Token := do
  let t ← next
  modify fun p => { p with line := t.line }
  pure t

def expectText : ParseM Unit := do
  if (← next).kind != .text then bug "Expected text after a comment."

def isImplicit (k : List String) : ParseM Bool := do pure ((← get).implicits.contains k)

def addImplicit (k : List String) : ParseM Unit :=
  modify fun p => if p.implicits.contains k then p else { p with implicits := k :: p.implicits }

def removeImplicit (k : List String) : ParseM Unit :=
  modify fun p => { p with implicits := p.implicits.filter (· != k) }

def isArray (k : List String) : ParseM Bool := do
  pure (((← get).info.find? (·.1 == k)).any (·.2.1 == .array))

def setType (key : String) (t : ValueType) (line : Nat) : ParseM Unit := modify fun p =>
  let k := if key.isEmpty then p.context else p.context ++ [key]
  let k := if k.isEmpty then [""] else k
  { p with info := (k, t, line) :: p.info.filter (·.1 != k) }

def write (key : String) (value : Node) : ParseM Unit := modify fun p =>
  { p with root := updateAt (put · key value) p.root p.context }

def setValue (key : String) (value : Node) : ParseM Unit := do
  let p ← get
  match tableAt p.root p.context with
  | .error (n, other) =>
    let kc := p.context.take (n + 1)
    if other then fail ("Key '" ++ keyText kc ++ "' has already been defined.")
    else bug ("Context for key '" ++ keyText kc ++ "' has not been established.")
  | .ok hash =>
    let kc := p.context ++ [key]
    match lookup hash key with
    | some _ =>
      if ← isImplicit kc then
        if ← isArray kc then write key value
        removeImplicit kc
      else fail ("Key '" ++ keyText kc ++ "' has already been defined.")
    | none => write key value

def openTables : List String → List String → ParseM Unit
  | _, [] => pure ()
  | done, k :: rest => do
    let kc := done ++ [k]
    let p ← get
    match tableAt p.root done with
    | .ok hash =>
      match lookup hash k with
      | none =>
        addImplicit kc
        modify fun p => { p with root := updateAt (put · k (.table [])) p.root done }
      | some (.table _) | some (.tables _) => pure ()
      | some _ => fail ("Key '" ++ keyText kc ++ "' was already created as a hash.")
    | .error _ => bug ("Context for key '" ++ keyText kc ++ "' has not been established.")
    openTables kc rest

def addContext (key : List String) (array : Bool) : ParseM Unit := do
  let parents := key.dropLast
  let last := key.getLast?.getD ""
  openTables [] parents
  modify fun p => { p with context := parents }
  if array then
    let p ← get
    match tableAt p.root parents with
    | .ok hash =>
      match lookup hash last with
      | none => write last (.tables [[]])
      | some (.tables els) => write last (.tables (els ++ [[]]))
      | some _ => fail ("Key '" ++ keyText key ++ "' was already created and cannot be used as an array.")
    | .error _ => bug ("Context for key '" ++ keyText parents ++ "' has not been established.")
  else setValue last (.table [])
  modify fun p => { p with context := parents ++ [last] }

def addImplicitContext (key : List String) : ParseM Unit := do
  addImplicit key
  addContext key false

def stringValue (t : Token) : ParseM String := do
  let replaced (s : String) : ParseM String :=
    match replaceEscapes s with
    | .ok r => pure r
    | .error msg => failAt t.line msg
  match t.kind with
  | .escapedString => replaced t.text
  | .multilineString => replaced (stripEscapedNewlines (stripFirstNewline t.text))
  | .rawMultilineString => pure (stripFirstNewline t.text)
  | _ => pure t.text

def keyString (t : Token) : ParseM String :=
  match t.kind with
  | .text => pure t.text
  | .string | .escapedString | .multilineString | .rawString | .rawMultilineString => stringValue t
  | _ => bug "Unexpected key type."

def keyParts (stop : TokenKind) : ParseM (List String) := do
  let t ← nextPos
  go ((← get).tokens.size + 1) t []
where
  go : Nat → Token → List String → ParseM (List String)
    | 0, _, _ => bug "Key does not end."
    | n + 1, t, acc => do
      if t.kind == stop then return acc.reverse
      if t.kind == .eof then bug "Key does not end."
      let part ← keyString t
      go n (← next) (part :: acc)

def openDotted : List String → ParseM Unit
  | [] => pure ()
  | part :: rest => do
    addImplicitContext ((← get).context ++ [part])
    openDotted rest

def checked {α : Type} (t : Token) : Except String α → ParseM α
  | .ok a => pure a
  | .error msg => failAt t.line msg

mutual

def value : Nat → Token → Bool → ParseM (Node × ValueType)
  | 0, _, _ => bug "Values nest too deeply."
  | fuel + 1, t, parentIsArray =>
    match t.kind with
    | .string | .escapedString | .multilineString | .rawString | .rawMultilineString => do
      pure (.str (← stringValue t), .string)
    | .integer => do pure (.int (← checked t (integerValue t.text)), .integer)
    | .float => do
      checked t (floatValue t.text)
      pure (.float, .float)
    | .bool => pure (.bool (t.text == "true"), .bool)
    | .datetime => do
      checked t (datetimeValue t.text)
      pure (.datetime, .datetime)
    | .arrayStart => do
      setType (← get).currentKey .array t.line
      pure (.array (← arrayItems fuel []), .array)
    | .inlineTableStart => do
      let p ← get
      let outer := p.context
      let outerKey := p.currentKey
      let ctx := p.context ++ [p.currentKey]
      set { p with context := ctx, currentKey := "" }
      addImplicit ctx
      addContext ctx parentIsArray
      let top ← inlineEntries fuel ctx []
      modify fun p => { p with context := outer, currentKey := outerKey }
      pure (.table top, .table)
    | _ => bug "Unexpected value type."

def arrayItems : Nat → List Node → ParseM (List Node)
  | 0, _ => bug "Values nest too deeply."
  | fuel + 1, acc => do
    let t ← next
    if t.kind == .arrayEnd then return acc.reverse
    if t.kind == .commentStart then
      expectText
      arrayItems fuel acc
    else
      let (v, _) ← value fuel t true
      arrayItems fuel (v :: acc)

def inlineEntries : Nat → List String → Entries → ParseM Entries
  | 0, _, _ => bug "Values nest too deeply."
  | fuel + 1, prev, top => do
    let t ← next
    if t.kind == .inlineTableEnd then return top
    if t.kind == .commentStart then
      expectText
      inlineEntries fuel prev top
    else
      let key ← keyParts .keyEnd
      let last := key.getLast?.getD ""
      modify fun p => { p with currentKey := last }
      openDotted key.dropLast
      modify fun p => { p with ordered := p.ordered.push (p.context ++ [last]) }
      let (v, typ) ← value fuel (← next) false
      setValue last v
      setType last typ t.line
      let top ← match insertPath top key.dropLast last v with
        | .ok top => pure top
        | .error () => fail (Text.literalString (keyText (← get).context) ++ " is not a table")
      modify fun p => { p with context := prev }
      inlineEntries fuel prev top

end

def topLevel (fuel : Nat) (t : Token) : ParseM Unit := do
  match t.kind with
  | .commentStart => expectText
  | .tableStart =>
    let key ← keyParts .tableEnd
    addContext key false
    setType "" .table t.line
    modify fun p => { p with ordered := p.ordered.push key }
  | .arrayTableStart =>
    let key ← keyParts .arrayTableEnd
    addContext key true
    setType "" .arrayOfTables t.line
    modify fun p => { p with ordered := p.ordered.push key }
  | .keyStart =>
    let outer := (← get).context
    let key ← keyParts .keyEnd
    let last := key.getLast?.getD ""
    modify fun p => { p with currentKey := last }
    openDotted key.dropLast
    modify fun p => { p with ordered := p.ordered.push (p.context ++ [last]) }
    let v ← next
    let (val, typ) ← value fuel v false
    setValue last val
    setType last typ v.line
    modify fun p => { p with context := outer, currentKey := "" }
  | _ => bug "Unexpected type at top level."

def document (fuel : Nat) : Nat → ParseM Unit
  | 0 => pure ()
  | n + 1 => do
    let t ← next
    if t.kind == .eof then return
    topLevel fuel t
    document fuel n

end Parser

structure Document where
  root : Entries
  keys : List (List String)
  info : List (List String × ValueType × Nat)

def Document.lineOf (doc : Document) (k : List String) : Option Nat :=
  (doc.info.find? (·.1 == k)).map (·.2.2)

def dropByteOrderMark (b : ByteArray) : ByteArray :=
  let byte (i : Nat) := if i < b.size then b[i]!.toNat else 256
  if (byte 0 == 0xff && byte 1 == 0xfe) || (byte 0 == 0xfe && byte 1 == 0xff) then b.extract 2 b.size
  else if byte 0 == 0xef && byte 1 == 0xbb && byte 2 == 0xbf then b.extract 3 b.size
  else b

def parse (bytes : ByteArray) : Except ParseError Document :=
  let b := dropByteOrderMark bytes
  if (b.extract 0 6).toList.contains 0 then
    .error { line := 1, lastKey := "",
             message := "files cannot contain NULL bytes; probably using UTF-16; TOML files must be UTF-8" }
  else
    let (tokens, failure) := tokenize b
    let fuel := tokens.size + 2
    match (Parser.document fuel fuel).run { tokens, failure } with
    | .ok ((), p) => .ok { root := p.root, keys := p.ordered.toList, info := p.info }
    | .error e => .error e

end RegisterVM.Toml
