
set_option autoImplicit false

namespace RegisterVM.Text

def isSpace (c : Char) : Bool :=
  let n := c.toNat
  if n < 0x100 then
    n == 0x20 || (0x09 ≤ n && n ≤ 0x0d) || n == 0x85 || n == 0xa0
  else
    n == 0x1680 || (0x2000 ≤ n && n ≤ 0x200a) || n == 0x2028 || n == 0x2029 ||
      n == 0x202f || n == 0x205f || n == 0x3000

def trimSpace (s : String) : String :=
  String.ofList ((s.toList.dropWhile isSpace).reverse.dropWhile isSpace).reverse

def fields (s : String) : List String :=
  go s.toList [] []
where
  go : List Char → List Char → List String → List String
    | [], cur, acc => (if cur.isEmpty then acc else String.ofList cur.reverse :: acc).reverse
    | c :: rest, cur, acc =>
      if isSpace c then go rest [] (if cur.isEmpty then acc else String.ofList cur.reverse :: acc)
      else go rest (c :: cur) acc

def isPrefixList (sep cs : List Char) : Bool := sep.isPrefixOf cs

def splitOnList (sep : List Char) (cs : List Char) : List (List Char) :=
  go cs [] [] (cs.length + 1)
where
  go : List Char → List Char → List (List Char) → Nat → List (List Char)
    | _, cur, acc, 0 => (cur.reverse :: acc).reverse
    | [], cur, acc, _ + 1 => (cur.reverse :: acc).reverse
    | c :: rest, cur, acc, fuel + 1 =>
      if sep.isPrefixOf (c :: rest) then go ((c :: rest).drop sep.length) [] (cur.reverse :: acc) fuel
      else go rest (c :: cur) acc fuel

def split (s sep : String) : List String :=
  if sep.isEmpty then s.toList.map fun c => String.ofList [c]
  else (splitOnList sep.toList s.toList).map String.ofList

def containsText (s pat : String) : Bool :=
  go s.toList (s.length + 1)
where
  go : List Char → Nat → Bool
    | _, 0 => false
    | cs, fuel + 1 =>
      if pat.toList.isPrefixOf cs then true
      else match cs with
        | [] => false
        | _ :: rest => go rest fuel

def utf8SeqLength (b0 : Nat) (rest : List Nat) : Option Nat :=
  let cont (b : Nat) := 0x80 ≤ b && b ≤ 0xbf
  if b0 < 0x80 then some 1
  else if 0xc2 ≤ b0 && b0 ≤ 0xdf then
    match rest with
    | b1 :: _ => if cont b1 then some 2 else none
    | _ => none
  else if 0xe0 ≤ b0 && b0 ≤ 0xef then
    let lo := if b0 == 0xe0 then 0xa0 else 0x80
    let hi := if b0 == 0xed then 0x9f else 0xbf
    match rest with
    | b1 :: b2 :: _ => if lo ≤ b1 && b1 ≤ hi && cont b2 then some 3 else none
    | _ => none
  else if 0xf0 ≤ b0 && b0 ≤ 0xf4 then
    let lo := if b0 == 0xf0 then 0x90 else 0x80
    let hi := if b0 == 0xf4 then 0x8f else 0xbf
    match rest with
    | b1 :: b2 :: b3 :: _ => if lo ≤ b1 && b1 ≤ hi && cont b2 && cont b3 then some 4 else none
    | _ => none
  else none

def utf8CodePoint (bs : List Nat) : Nat :=
  match bs with
  | [b0] => b0
  | [b0, b1] => (b0 % 0x20) * 0x40 + b1 % 0x40
  | [b0, b1, b2] => ((b0 % 0x10) * 0x40 + b1 % 0x40) * 0x40 + b2 % 0x40
  | [b0, b1, b2, b3] => (((b0 % 0x8) * 0x40 + b1 % 0x40) * 0x40 + b2 % 0x40) * 0x40 + b3 % 0x40
  | _ => 0xfffd

def decodeLossy (bytes : List UInt8) : String :=
  go (bytes.map UInt8.toNat) [] (bytes.length + 1)
where
  go : List Nat → List Char → Nat → String
    | [], acc, _ => String.ofList acc.reverse
    | _, acc, 0 => String.ofList acc.reverse
    | b :: rest, acc, fuel + 1 =>
      match utf8SeqLength b rest with
      | some k =>
        let seq := (b :: rest).take k
        go ((b :: rest).drop k) (Char.ofNat (utf8CodePoint seq) :: acc) fuel
      | none => go rest ('�' :: acc) fuel

end RegisterVM.Text
