import RegisterVM.Text.Letter
import RegisterVM.Text.Quoted
import RegisterVM.Text.Unicode

set_option autoImplicit false

namespace RegisterVM.Toml

inductive TokenKind where
  | eof
  | text
  | string
  | escapedString
  | rawString
  | multilineString
  | rawMultilineString
  | bool
  | integer
  | float
  | datetime
  | arrayStart
  | arrayEnd
  | tableStart
  | tableEnd
  | arrayTableStart
  | arrayTableEnd
  | keyStart
  | keyEnd
  | commentStart
  | inlineTableStart
  | inlineTableEnd
deriving DecidableEq, Repr, Inhabited

structure Token where
  kind : TokenKind
  text : String
  line : Nat
deriving Inhabited

structure LexError where
  line : Nat
  message : String

inductive Mode where
  | top | topEnd | tableStart | tableEnd | arrayTableEnd | tableNameStart | tableNameEnd
  | bareName | quotedName | keyStart | keyNameStart | keyEnd
  | value | arrayValue | arrayValueEnd | arrayEnd
  | inlineTableValue | inlineTableValueEnd | inlineTableEnd
  | string | multilineString | rawString | multilineRawString
  | multilineStringEscape | stringEscape | hexEscape | shortUnicodeEscape | longUnicodeEscape
  | numberOrDateStart | numberOrDate | datetime | hexInteger | octalInteger | binaryInteger
  | decimalNumber | decimalNumberStart | baseNumberOrDate | float | bool
  | commentStart | comment
deriving DecidableEq, Repr

structure Lexer where
  input : ByteArray
  start : Nat := 0
  pos : Nat := 0
  line : Nat := 1
  widths : List Nat := []
  atEnd : Bool := false
  stack : List Mode := []
  escaped : Bool := false
  tokens : Array Token := #[]

abbrev LexM := ExceptT LexError (StateM Lexer)

def endChar : Char := '\x00'

def hex2 (n : Nat) : String := String.ofList (Text.hexDigits false 2 n)

def isBlank (c : Char) : Bool := c == ' ' || c == '\t'

def isNewline (c : Char) : Bool := c == '\n' || c == '\r'

def isDigit (c : Char) : Bool := '0' ≤ c && c ≤ '9'

def isHex (c : Char) : Bool :=
  isDigit c || ('a' ≤ c && c ≤ 'f') || ('A' ≤ c && c ≤ 'F')

def isBareKeyChar (c : Char) : Bool :=
  ('A' ≤ c && c ≤ 'Z') || ('a' ≤ c && c ≤ 'z') || isDigit c || c == '_' || c == '-'

def isControl (n : Nat) : Bool :=
  (n ≤ 0x1f && n != 9 && n != 10 && n != 13) || n == 0x7f

def isLetter (c : Char) : Bool := Text.isLetterCode c.toNat

def quoteChar (c : Char) : String := Text.literalRune c

def charOrEnd (c : Char) : String :=
  if c == endChar then "end of file" else "'" ++ c.toString ++ "'"

def decodeAt (input : ByteArray) (i : Nat) : Option (Nat × Nat) :=
  let b0 := input[i]!.toNat
  let rest := [i + 1, i + 2, i + 3].filterMap fun j =>
    if j < input.size then some input[j]!.toNat else none
  (Text.utf8SeqLength b0 rest).map fun k => (Text.utf8CodePoint (b0 :: rest.take (k - 1)), k)

namespace Lexer

def next : LexM Char := do
  let lx ← get
  if lx.atEnd then return endChar
  if lx.pos ≥ lx.input.size then
    set { lx with atEnd := true }
    return endChar
  let b := lx.input[lx.pos]!.toNat
  let line := if b == 10 then lx.line + 1 else lx.line
  match decodeAt lx.input lx.pos with
  | none => throw { line, message := "invalid UTF-8 byte: 0x" ++ hex2 b }
  | some (r, w) =>
    let loneReturn := r == 13 &&
      (lx.pos + 1 ≥ lx.input.size || lx.input[lx.pos + 1]!.toNat != 10)
    if isControl r || loneReturn then
      throw { line, message := "TOML files cannot contain control characters: '0x" ++ hex2 r ++ "'" }
    set { lx with line, pos := lx.pos + w, widths := (w :: lx.widths).take 4 }
    return Char.ofNat r

def backup : LexM Unit := modify fun lx =>
  if lx.atEnd then { lx with atEnd := false }
  else
    match lx.widths with
    | [] => lx
    | w :: rest =>
      let pos := lx.pos - w
      let line := if pos < lx.input.size && lx.input[pos]!.toNat == 10 then lx.line - 1 else lx.line
      { lx with pos, line, widths := rest }

def ignore : LexM Unit := modify fun lx => { lx with start := lx.pos }

def current : LexM String := do
  let lx ← get
  pure (Text.decodeLossy (lx.input.extract lx.start lx.pos).toList)

def peek : LexM Char := do
  let r ← next
  backup
  pure r

def accept (c : Char) : LexM Bool := do
  if (← next) == c then pure true
  else
    backup
    pure false

def fail {α : Type} (msg : String) : LexM α := do
  let lx ← get
  throw { line := if lx.atEnd then lx.line - 1 else lx.line, message := msg }

def failf {α : Type} (msg : String) : LexM α := do
  let lx ← get
  let afterFeed := lx.pos ≥ 1 && lx.input[lx.pos - 1]!.toNat == 10
  throw { line := if lx.atEnd && afterFeed then lx.line - 1 else lx.line, message := msg }

def failPrevLine {α : Type} (msg : String) : LexM α := do
  throw { line := (← get).line - 1, message := msg }

def emitText (k : TokenKind) (text : String) : LexM Unit := do
  let lx ← get
  if lx.start > lx.pos then fail ("invalid UTF-8 byte: 0x" ++ hex2 lx.input[lx.pos]!.toNat)
  set { lx with tokens := lx.tokens.push { kind := k, text, line := lx.line }, start := lx.pos }

def emit (k : TokenKind) : LexM Unit := do emitText k (← current)

def emitTrimmed (k : TokenKind) : LexM Unit := do emitText k (Text.trimSpace (← current))

def remaining : LexM Nat := do
  let lx ← get
  pure (lx.input.size - lx.pos + 1)

def skipBlanks : LexM Unit := do
  go (← remaining)
where
  go : Nat → LexM Unit
    | 0 => pure ()
    | n + 1 => do
      if isBlank (← next) then go n
      else
        backup
        ignore

def letters : LexM String := do
  go (← remaining) []
where
  go : Nat → List Char → LexM String
    | 0, acc => pure (String.ofList acc.reverse)
    | n + 1, acc => do
      let r ← next
      if isLetter r then go n (r :: acc)
      else
        backup
        pure (String.ofList acc.reverse)

def push (m : Mode) : LexM Unit := modify fun lx => { lx with stack := m :: lx.stack }

def pop : LexM (Option Mode) := do
  let lx ← get
  match lx.stack with
  | m :: rest =>
    set { lx with stack := rest }
    pure (some m)
  | [] => failf "BUG in lexer: no states to pop"

def escapeDigits (n : Nat) (what : String) : LexM (Option Mode) := do
  for _ in [0:n] do
    if !isHex (← next) then
      failf ("expected " ++ what ++ ", but got " ++ Text.literalString (← current) ++ " instead")
  pop

def integerRun (self : Mode) (isDigitOf : Char → Bool) : LexM (Option Mode) := do
  let r ← next
  if isDigitOf r || r == '_' then return some self
  backup
  emit .integer
  pop

def step : Mode → LexM (Option Mode)
  | .top => do
    let r ← next
    if isBlank r || isNewline r then
      ignore
      return some .top
    if r == '#' then
      push .top
      return some .commentStart
    if r == '[' then return some .tableStart
    if r == endChar then
      let lx ← get
      if lx.pos > lx.start then failf "unexpected EOF"
      emit .eof
      return none
    backup
    push .topEnd
    return some .keyStart
  | .topEnd => do
    let r ← next
    if r == '#' then
      push .top
      return some .commentStart
    if isBlank r then return some .topEnd
    if isNewline r then
      ignore
      return some .top
    if r == endChar then
      emit .eof
      return none
    failf ("expected a top-level item to end with a newline, comment, or EOF, but got " ++
      quoteChar r ++ " instead")
  | .tableStart => do
    if (← peek) == '[' then
      let _ ← next
      emit .arrayTableStart
      push .arrayTableEnd
    else
      emit .tableStart
      push .tableEnd
    return some .tableNameStart
  | .tableEnd => do
    emit .tableEnd
    return some .topEnd
  | .arrayTableEnd => do
    let r ← next
    if r != ']' then
      failf ("expected end of table array name delimiter ']', but got " ++ quoteChar r ++ " instead")
    emit .arrayTableEnd
    return some .topEnd
  | .tableNameStart => do
    skipBlanks
    let r ← peek
    if r == ']' || r == endChar then
      failf "unexpected end of table name (table names cannot be empty)"
    if r == '.' then failf "unexpected table separator (table names cannot be empty)"
    if r == '"' || r == '\'' then
      ignore
      push .tableNameEnd
      return some .quotedName
    push .tableNameEnd
    return some .bareName
  | .tableNameEnd => do
    skipBlanks
    let r ← next
    if isBlank r then return some .tableNameEnd
    if r == '.' then
      ignore
      return some .tableNameStart
    if r == ']' then pop
    else failf ("expected '.' or ']' to end table name, but got " ++ quoteChar r ++ " instead")
  | .bareName => do
    if isBareKeyChar (← next) then return some .bareName
    backup
    emit .text
    pop
  | .quotedName => do
    let r ← next
    if isBlank r then
      ignore
      return some .value
    if r == '"' then
      ignore
      return some .string
    if r == '\'' then
      ignore
      return some .rawString
    if r == endChar then failf "unexpected EOF; expected value"
    failf ("expected value but found " ++ quoteChar r ++ " instead")
  | .keyStart => do
    skipBlanks
    let r ← peek
    if r == '=' || r == endChar then failf "unexpected '=': key name appears blank"
    if r == '.' then failf "unexpected '.': keys cannot start with a '.'"
    if r == '"' || r == '\'' then ignore
    emit .keyStart
    return some .keyNameStart
  | .keyNameStart => do
    skipBlanks
    let r ← peek
    if r == '=' || r == endChar then failf "unexpected '='"
    if r == '.' then failf "unexpected '.'"
    if r == '"' || r == '\'' then
      ignore
      push .keyEnd
      return some .quotedName
    push .keyEnd
    return some .bareName
  | .keyEnd => do
    skipBlanks
    let r ← next
    if isBlank r then
      ignore
      return some .keyEnd
    if r == endChar then failf "unexpected EOF; expected key separator '='"
    if r == '.' then
      ignore
      return some .keyNameStart
    if r == '=' then
      emit .keyEnd
      ignore
      return some .value
    let msg := "expected '.' or '=', but got " ++ quoteChar r ++ " instead"
    if r == '\n' then failPrevLine msg else failf msg
  | .value => do
    let r ← next
    if isBlank r then
      ignore
      return some .value
    if isDigit r then
      backup
      return some .numberOrDateStart
    if r == '[' then
      ignore
      emit .arrayStart
      return some .arrayValue
    if r == '{' then
      ignore
      emit .inlineTableStart
      return some .inlineTableValue
    if r == '"' then
      if ← accept '"' then
        if ← accept '"' then
          ignore
          return some .multilineString
        backup
      ignore
      return some .string
    if r == '\'' then
      if ← accept '\'' then
        if ← accept '\'' then
          ignore
          return some .multilineRawString
        backup
      ignore
      return some .rawString
    if r == '.' then failf "floats must start with a digit, not '.'"
    if r == 'i' || r == 'n' then
      let inf ← do if ← accept 'n' then accept 'f' else pure false
      let special ← if inf then pure true else do if ← accept 'a' then accept 'n' else pure false
      if special then
        emit .float
        return (← pop)
    if r == '-' || r == '+' then return some .decimalNumberStart
    if isLetter r then
      backup
      return some .bool
    if r == endChar then failf "unexpected EOF; expected value"
    let msg := "expected value but found " ++ quoteChar r ++ " instead"
    if r == '\n' then failPrevLine msg else failf msg
  | .arrayValue => do
    let r ← next
    if isBlank r || isNewline r then
      ignore
      return some .arrayValue
    if r == '#' then
      push .arrayValue
      return some .commentStart
    if r == ',' then failf "unexpected comma"
    if r == ']' then return some .arrayEnd
    backup
    push .arrayValueEnd
    return some .value
  | .arrayValueEnd => do
    let r ← next
    if isBlank r || isNewline r then
      ignore
      return some .arrayValueEnd
    if r == '#' then
      push .arrayValueEnd
      return some .commentStart
    if r == ',' then
      ignore
      return some .arrayValue
    if r == ']' then return some .arrayEnd
    failf ("expected a comma (',') or array terminator (']'), but got " ++ charOrEnd r)
  | .arrayEnd => do
    ignore
    emit .arrayEnd
    pop
  | .inlineTableValue => do
    let r ← next
    if isBlank r || isNewline r then
      ignore
      return some .inlineTableValue
    if r == '#' then
      push .inlineTableValue
      return some .commentStart
    if r == ',' then failf "unexpected comma"
    if r == '}' then return some .inlineTableEnd
    backup
    push .inlineTableValueEnd
    return some .keyStart
  | .inlineTableValueEnd => do
    let r ← next
    if isBlank r || isNewline r then
      ignore
      return some .inlineTableValueEnd
    if r == '#' then
      push .inlineTableValueEnd
      return some .commentStart
    if r == ',' then
      ignore
      skipBlanks
      if (← peek) == '}' then return some .inlineTableValueEnd
      return some .inlineTableValue
    if r == '}' then return some .inlineTableEnd
    failf ("expected a comma or an inline table terminator '\x7d', but got " ++ charOrEnd r ++ " instead")
  | .inlineTableEnd => do
    ignore
    emit .inlineTableEnd
    pop
  | .string => do
    let r ← next
    if r == endChar then failf "unexpected EOF; expected '\"'"
    if isNewline r then failPrevLine "strings cannot contain newlines"
    if r == '\\' then
      push .string
      return some .stringEscape
    if r == '"' then
      backup
      if (← get).escaped then
        modify fun lx => { lx with escaped := false }
        emit .escapedString
      else emit .string
      let _ ← next
      ignore
      pop
    else return some .string
  | .multilineString => do
    let r ← next
    if r == endChar then failf "unexpected EOF; expected '\"\"\"'"
    if r == '\\' then return some .multilineStringEscape
    if r == '"' then
      if ← accept '"' then
        if ← accept '"' then
          if (← peek) == '"' then
            let cur ← current
            if cur.endsWith "\"\"\"\"\"" && !cur.endsWith "\\\"\"\"\"\"" then
              failf "unexpected '\"\"\"\"\"\"'"
            backup
            backup
            return some .multilineString
          backup
          backup
          backup
          modify fun lx => { lx with escaped := false }
          emit .multilineString
          let _ ← next
          let _ ← next
          let _ ← next
          ignore
          return (← pop)
        backup
    return some .multilineString
  | .rawString => do
    let r ← next
    if r == endChar then failf "unexpected EOF; expected \"'\""
    if isNewline r then failPrevLine "strings cannot contain newlines"
    if r == '\'' then
      backup
      emit .rawString
      let _ ← next
      ignore
      pop
    else return some .rawString
  | .multilineRawString => do
    let r ← next
    if r == endChar then failf "unexpected EOF; expected \"'''\""
    if r == '\'' then
      if ← accept '\'' then
        if ← accept '\'' then
          if (← peek) == '\'' then
            if (← current).endsWith "'''''" then failf "unexpected \"''''''\""
            backup
            backup
            return some .multilineRawString
          backup
          backup
          backup
          emit .rawMultilineString
          let _ ← next
          let _ ← next
          let _ ← next
          ignore
          return (← pop)
        backup
    return some .multilineRawString
  | .multilineStringEscape => do
    if isNewline (← next) then return some .multilineString
    backup
    push .multilineString
    return some .stringEscape
  | .stringEscape => do
    modify fun lx => { lx with escaped := true }
    let r ← next
    if r == 'e' || r == 'b' || r == 't' || r == 'n' || r == 'f' || r == 'r' || r == '"' ||
        r == ' ' || r == '\t' || r == '\\' then
      pop
    else if r == 'x' then return some .hexEscape
    else if r == 'u' then return some .shortUnicodeEscape
    else if r == 'U' then return some .longUnicodeEscape
    else fail ("invalid escape in string '\\" ++ r.toString ++ "'")
  | .hexEscape => escapeDigits 2 "two hexadecimal digits after '\\x'"
  | .shortUnicodeEscape => escapeDigits 4 "four hexadecimal digits after '\\u'"
  | .longUnicodeEscape => escapeDigits 8 "eight hexadecimal digits after '\\U'"
  | .numberOrDateStart => do
    let r ← next
    if r == '0' then return some .baseNumberOrDate
    if !isDigit r then failf ("expected a digit but got " ++ quoteChar r)
    return some .numberOrDate
  | .numberOrDate => do
    let r ← next
    if isDigit r then return some .numberOrDate
    if r == '-' || r == ':' then return some .datetime
    if r == '_' then return some .decimalNumber
    if r == '.' || r == 'e' || r == 'E' then return some .float
    backup
    emit .integer
    pop
  | .datetime => do
    let r ← next
    if isDigit r || "-:Tt .Zz+".contains r then return some .datetime
    backup
    emitTrimmed .datetime
    pop
  | .hexInteger => integerRun .hexInteger isHex
  | .octalInteger => integerRun .octalInteger fun c => '0' ≤ c && c ≤ '7'
  | .binaryInteger => integerRun .binaryInteger fun c => c == '0' || c == '1'
  | .decimalNumber => do
    let r ← next
    if isDigit r || r == '_' then return some .decimalNumber
    if r == '.' || r == 'e' || r == 'E' then return some .float
    backup
    emit .integer
    pop
  | .decimalNumberStart => do
    let r ← next
    if r == 'i' then
      let ok ← do if ← accept 'n' then accept 'f' else pure false
      if !ok then failf ("invalid float: '" ++ (← current) ++ "'")
      emit .float
      pop
    else if r == 'n' then
      let ok ← do if ← accept 'a' then accept 'n' else pure false
      if !ok then failf ("invalid float: '" ++ (← current) ++ "'")
      emit .float
      pop
    else
      if r == '0' then
        let p ← peek
        if p == 'b' || p == 'o' || p == 'x' then
          failf ("cannot use sign with non-decimal numbers: '" ++ (← current) ++ p.toString ++ "'")
      if r == '.' then failf "floats must start with a digit, not '.'"
      if isDigit r then return some .decimalNumber
      failf ("expected a digit but got " ++ quoteChar r)
  | .baseNumberOrDate => do
    let r ← next
    if isDigit r then return some .numberOrDate
    if r == '_' then return some .decimalNumber
    if r == '.' || r == 'e' || r == 'E' then return some .float
    if r == 'b' then
      let p ← peek
      if !(p == '0' || p == '1') then
        failf ("not a binary number: '" ++ (← current) ++ p.toString ++ "'")
      return some .binaryInteger
    if r == 'o' then
      let p ← peek
      if !('0' ≤ p && p ≤ '7') then
        failf ("not an octal number: '" ++ (← current) ++ p.toString ++ "'")
      return some .octalInteger
    if r == 'x' then
      let p ← peek
      if !isHex p then
        failf ("not a hexadecimal number: '" ++ (← current) ++ p.toString ++ "'")
      return some .hexInteger
    backup
    emit .integer
    pop
  | .float => do
    let r ← next
    if isDigit r || "_.-+eE".contains r then return some .float
    backup
    emit .float
    pop
  | .bool => do
    let s ← letters
    if s == "true" || s == "false" then
      emit .bool
      pop
    else failf ("expected value but found " ++ Text.literalString s ++ " instead")
  | .commentStart => do
    ignore
    emit .commentStart
    return some .comment
  | .comment => do
    let r ← next
    if isNewline r || r == endChar then
      backup
      emit .text
      pop
    else return some .comment

def run : Nat → Mode → LexM Unit
  | 0, _ => failf "document too long to read"
  | fuel + 1, m => do
    match ← step m with
    | some m' => run fuel m'
    | none => pure ()

end Lexer

def tokenize (input : ByteArray) : Array Token × Option LexError :=
  let (r, lx) := (Lexer.run (64 * (input.size + 4)) .top).run.run { input }
  match r with
  | .ok () => (lx.tokens, none)
  | .error e => (lx.tokens, some e)

end RegisterVM.Toml
