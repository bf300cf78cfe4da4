import RegisterVM.Text.Decimal
import RegisterVM.Text.Printable
import RegisterVM.Text.Unicode

set_option autoImplicit false

namespace RegisterVM.Text

def hexDigits (upper : Bool) (width : Nat) (n : Nat) : List Char :=
  (List.range width).reverse.map fun i =>
    let d := (n / Nat.pow 16 i) % 16
    if d < 10 then Char.ofNat (48 + d) else Char.ofNat ((if upper then 55 else 87) + d)

def inspectChar (c : Char) : List Char :=
  match c with
  | '"' => ['\\', '"']
  | '\\' => ['\\', '\\']
  | '\n' => ['\\', 'n']
  | '\t' => ['\\', 't']
  | '\r' => ['\\', 'r']
  | c =>
    if c.toNat == 0x1b then ['\\', 'e']
    else if c.toNat < 0x20 then '\\' :: 'x' :: hexDigits true 2 c.toNat
    else [c]

def inspectString (s : String) : String :=
  String.ofList ('"' :: (s.toList.flatMap inspectChar ++ ['"']))

def literalChar (c : Char) : List Char :=
  let n := c.toNat
  if c == '"' || c == '\\' then ['\\', c]
  else if isPrintable c then [c]
  else match n with
    | 7 => ['\\', 'a']
    | 8 => ['\\', 'b']
    | 12 => ['\\', 'f']
    | 10 => ['\\', 'n']
    | 13 => ['\\', 'r']
    | 9 => ['\\', 't']
    | 11 => ['\\', 'v']
    | _ =>
      if n < 0x20 || n == 0x7f then '\\' :: 'x' :: hexDigits false 2 n
      else if n < 0x10000 then '\\' :: 'u' :: hexDigits false 4 n
      else '\\' :: 'U' :: hexDigits false 8 n

def literalRune (c : Char) : String :=
  let body := if c == '\'' then ['\\', '\''] else if c == '"' then ['"'] else literalChar c
  String.ofList ('\'' :: (body ++ ['\'']))

def literalString (s : String) : String :=
  String.ofList ('"' :: (s.toList.flatMap literalChar ++ ['"']))

end RegisterVM.Text
