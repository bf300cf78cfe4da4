import RegisterVM.Float.Text
import RegisterVM.Text.Quoted

set_option autoImplicit false

namespace RegisterVM.Toml

def numUnderscoresOk (s : String) : Bool :=
  if ["nan", "+nan", "-nan", "inf", "-inf", "+inf"].contains s then true
  else
    let step (acc : Option Bool) (c : Char) : Option Bool :=
      match acc with
      | none => none
      | some ok => if c == '_' && !ok then none else some (isHexDigit c)
    (s.toList.foldl step (some false)).getD false
where
  isHexDigit (c : Char) : Bool :=
    ('0' ≤ c && c ≤ '9') || ('a' ≤ c && c ≤ 'f') || ('A' ≤ c && c ≤ 'F')

def numPeriodsOk (s : String) : Bool :=
  let cs := s.toList
  (cs.zip (cs.drop 1 ++ [' '])).all fun (c, d) => c != '.' || ('0' ≤ d && d ≤ '9')

def numHasLeadingZero (s : String) : Bool :=
  match s.toList with
  | '0' :: c :: _ => !(c == 'b' || c == 'o' || c == 'x')
  | s0 :: '0' :: _ :: _ => s0 == '-' || s0 == '+'
  | _ => false

def digitValue (c : Char) : Option Nat :=
  if '0' ≤ c && c ≤ '9' then some (c.toNat - 48)
  else if 'a' ≤ c && c ≤ 'f' then some (c.toNat - 87)
  else if 'A' ≤ c && c ≤ 'F' then some (c.toNat - 55)
  else none

def digitsValue (base : Nat) (cs : List Char) : Option Nat :=
  cs.foldlM (fun acc c =>
    if c == '_' then some acc
    else match digitValue c with
      | some d => if d < base then some (acc * base + d) else none
      | none => none) 0

def integerText? (s : String) : Option Int :=
  let (neg, body) := match s.toList with
    | '-' :: r => (true, r)
    | '+' :: r => (false, r)
    | r => (false, r)
  let magnitude := match body with
    | '0' :: 'x' :: r@(_ :: _) => digitsValue 16 r
    | '0' :: 'o' :: r@(_ :: _) => digitsValue 8 r
    | '0' :: 'b' :: r@(_ :: _) => digitsValue 2 r
    | '0' :: r => digitsValue 8 r
    | [] => none
    | r => digitsValue 10 r
  magnitude.map fun m => if neg then -(m : Int) else m

def integerValue (s : String) : Except String Int := do
  if !numUnderscoresOk s then
    throw ("Invalid integer " ++ Text.literalString s ++ ": underscores must be surrounded by digits")
  if numHasLeadingZero s then
    throw ("Invalid integer " ++ Text.literalString s ++ ": cannot have leading zeroes")
  match integerText? s with
  | none => throw ("toml: BUG: Expected integer value, but got '" ++ s ++ "'.")
  | some n =>
    if n < -(Int.pow 2 63) || n ≥ Int.pow 2 63 then throw (s ++ " is out of range for int64")
    pure n

def floatParts (s : String) : List String :=
  let cut (acc : List String × List Char) (c : Char) :=
    if c == '.' || c == 'e' || c == 'E' then (String.ofList acc.2.reverse :: acc.1, [])
    else (acc.1, c :: acc.2)
  let (parts, last) := s.toList.foldl cut ([], [])
  ((String.ofList last.reverse :: parts).reverse).filter (!·.isEmpty)

def floatValue (s : String) : Except String Unit := do
  let quoted := Text.literalString s
  if !(floatParts s).all numUnderscoresOk then
    throw ("Invalid float " ++ quoted ++ ": underscores must be surrounded by digits")
  if (floatParts s).head?.any numHasLeadingZero then
    throw ("Invalid float " ++ quoted ++ ": cannot have leading zeroes")
  if !numPeriodsOk s then
    throw ("Invalid float " ++ quoted ++ ": '.' must be followed by one or more digits")
  let v := String.ofList (s.toList.filter (· != '_'))
  let v := if v == "+nan" || v == "-nan" then "nan" else v
  match Float.parse? v with
  | none => throw ("Invalid float value: " ++ quoted)
  | some bits =>
    let word := v.toList.filter Char.isAlpha
    if Float.isInfinite bits && !(word.map Char.toLower == "inf".toList ||
        word.map Char.toLower == "infinity".toList) then
      throw (s ++ " is out of range for float64")

inductive LayoutPart where
  | year
  | month
  | day
  | hour
  | minute
  | second
  | fraction
  | zone
  | literal (c : Char)

structure Stamp where
  year : Nat := 0
  month : Nat := 1
  day : Nat := 1

def twoDigits : List Char → Option (Nat × List Char)
  | a :: b :: rest =>
    if isDecimal a && isDecimal b then some ((a.toNat - 48) * 10 + (b.toNat - 48), rest) else none
  | _ => none
where
  isDecimal (c : Char) : Bool := '0' ≤ c && c ≤ '9'

def daysIn (month year : Nat) : Nat :=
  match month with
  | 2 => if year % 4 == 0 && (year % 100 != 0 || year % 400 == 0) then 29 else 28
  | 4 | 6 | 9 | 11 => 30
  | _ => 31

def readLayout : List LayoutPart → List Char → Stamp → Option Stamp
  | [], [], st => if 1 ≤ st.day && st.day ≤ daysIn st.month st.year then some st else none
  | [], _ :: _, _ => none
  | part :: parts, cs, st =>
    let isDecimal (c : Char) := '0' ≤ c && c ≤ '9'
    match part with
    | .year =>
      let ds := cs.take 4
      if ds.length == 4 && ds.all isDecimal then
        readLayout parts (cs.drop 4) { st with year := ds.foldl (fun n c => n * 10 + (c.toNat - 48)) 0 }
      else none
    | .month => do
      let (m, rest) ← twoDigits cs
      if 1 ≤ m && m ≤ 12 then readLayout parts rest { st with month := m } else none
    | .day => do
      let (d, rest) ← twoDigits cs
      readLayout parts rest { st with day := d }
    | .hour =>
      match cs with
      | a :: b :: rest =>
        if isDecimal a && isDecimal b then
          if (a.toNat - 48) * 10 + (b.toNat - 48) < 24 then readLayout parts rest st else none
        else if isDecimal a then readLayout parts (b :: rest) st
        else none
      | [a] => if isDecimal a then readLayout parts [] st else none
      | [] => none
    | .minute | .second => do
      let (n, rest) ← twoDigits cs
      if n < 60 then readLayout parts rest st else none
    | .fraction =>
      match cs with
      | p :: d :: rest =>
        if (p == '.' || p == ',') && isDecimal d then
          readLayout parts (rest.dropWhile isDecimal) st
        else readLayout parts cs st
      | _ => readLayout parts cs st
    | .zone =>
      match cs with
      | 'Z' :: rest => readLayout parts rest st
      | s :: h1 :: h2 :: ':' :: m1 :: m2 :: rest => do
        let (h, _) ← twoDigits [h1, h2]
        let (m, _) ← twoDigits [m1, m2]
        if h ≤ 24 && m ≤ 60 && (s == '+' || s == '-') then readLayout parts rest st else none
      | _ => none
    | .literal c =>
      match cs with
      | d :: rest => if c == d then readLayout parts rest st else none
      | [] => none

def layouts : List (List LayoutPart × String) :=
  let date : List LayoutPart := [.year, .literal '-', .month, .literal '-', .day]
  let hm : List LayoutPart := [.hour, .literal ':', .minute]
  let hms : List LayoutPart := hm ++ [.literal ':', .second, .fraction]
  [ (date ++ .literal 'T' :: hms ++ [.zone], "2006-01-02T15:04:05.999999999Z07:00"),
    (date ++ .literal 'T' :: hms, "2006-01-02T15:04:05.999999999"),
    (date, "2006-01-02"),
    (hms, "15:04:05.999999999"),
    (date ++ .literal 'T' :: hm ++ [.zone], "2006-01-02T15:04Z07:00"),
    (date ++ .literal 'T' :: hm, "2006-01-02T15:04"),
    (hm, "15:04") ]

def missingLeadingZero (d : List Char) (layout : String) : Bool :=
  go d layout.toList
where
  go : List Char → List Char → Bool
    | _, [] => false
    | ds, c :: cs =>
      if c == '.' || c == 'Z' then false
      else if ('0' ≤ c && c ≤ '9') then go ds.tail cs
      else if ds.head? != some c then true
      else go ds.tail cs

def datetimeValue (s : String) : Except String Unit :=
  let v := s.toList.map fun c => if c == 'z' then 'Z' else if c == 't' || c == ' ' then 'T' else c
  let bad : Except String Unit := .error ("invalid datetime: " ++ Text.literalString (String.ofList v))
  match layouts.find? fun (parts, _) => (readLayout parts v {}).isSome with
  | some (_, text) => if missingLeadingZero v text then bad else .ok ()
  | none => bad

def stripFirstNewline (s : String) : String :=
  match s.toList with
  | '\n' :: rest => String.ofList rest
  | '\r' :: '\n' :: rest => String.ofList rest
  | _ => s

def stripEscapedNewlines (s : String) : String :=
  String.ofList (go s.toList.length s.toList)
where
  isSpace (c : Char) : Bool := c == ' ' || c == '\t' || c == '\r' || c == '\n'
  go : Nat → List Char → List Char
    | 0, cs => cs
    | _ + 1, [] => []
    | n + 1, '\\' :: '\\' :: rest => '\\' :: '\\' :: go n rest
    | n + 1, '\\' :: rest =>
      let blank := rest.takeWhile isSpace
      if blank.contains '\n' then go n (rest.drop blank.length) else '\\' :: go n rest
    | n + 1, c :: rest => c :: go n rest

def escapedChar (digits : List Char) : Except String Char :=
  let v := (digitsValue 16 digits).getD 0
  if v < 0xd800 || (0xdfff < v && v ≤ 0x10ffff) then .ok (Char.ofNat v)
  else .error ("Escaped character '\\u" ++ String.ofList digits ++ "' is not valid UTF-8.")

def replaceEscapes (s : String) : Except String String :=
  (go s.toList.length s.toList []).map fun cs => String.ofList cs.reverse
where
  go : Nat → List Char → List Char → Except String (List Char)
    | 0, _, acc => .ok acc
    | _ + 1, [], acc => .ok acc
    | n + 1, '\\' :: c :: rest, acc =>
      let simple (e : Char) := go n rest (e :: acc)
      let hex (k : Nat) := do
        let e ← escapedChar (rest.take k)
        go n (rest.drop k) (e :: acc)
      match c with
      | ' ' | '\t' => .error ("invalid escape: '\\" ++ c.toString ++ "'")
      | 'b' => simple '\x08'
      | 't' => simple '\t'
      | 'n' => simple '\n'
      | 'f' => simple '\x0c'
      | 'r' => simple '\r'
      | 'e' => simple '\x1b'
      | '"' => simple '"'
      | '\\' => simple '\\'
      | 'x' => hex 2
      | 'u' => hex 4
      | 'U' => hex 8
      | _ => .error ("toml: BUG: Expected valid escape code after \\, but got " ++ Text.literalRune c ++ ".")
    | n + 1, c :: rest, acc => go n rest (c :: acc)

end RegisterVM.Toml
