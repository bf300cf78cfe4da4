
set_option autoImplicit false

namespace RegisterVM.Text

def digitChar (d : Nat) : Char :=
  if d < 10 then Char.ofNat (48 + d) else Char.ofNat (87 + d)

def natDigits (b : Nat) (n : Nat) : List Char :=
  if b < 2 then ['0'] else
  go n [] (n + 1)
where
  go (n : Nat) (acc : List Char) : Nat → List Char
    | 0 => acc
    | fuel + 1 =>
      let acc := digitChar (n % b) :: acc
      if n < b then acc else go (n / b) acc fuel

def natText (n : Nat) : String := String.ofList (natDigits 10 n)

def intRadix (b : Nat) (n : Int) : String :=
  if n < 0 then String.ofList ('-' :: natDigits b n.natAbs) else String.ofList (natDigits b n.natAbs)

def intText (n : Int) : String := intRadix 10 n

def zeroPadded (width : Nat) (n : Int) : String :=
  let digits := natDigits 10 n.natAbs
  let sign := if n < 0 then ['-'] else []
  let fill := width - (sign.length + digits.length)
  String.ofList (sign ++ List.replicate fill '0' ++ digits)

def padRight (width : Nat) (s : String) : String :=
  s ++ String.ofList (List.replicate (width - s.length) ' ')

def hexOfBytes (bytes : List UInt8) : String :=
  String.ofList (bytes.flatMap fun b => [digitChar (b.toNat / 16), digitChar (b.toNat % 16)])

def hexDigitValue (c : Char) : Option Nat :=
  if '0' ≤ c ∧ c ≤ '9' then some (c.toNat - 48)
  else if 'a' ≤ c ∧ c ≤ 'f' then some (c.toNat - 87)
  else if 'A' ≤ c ∧ c ≤ 'F' then some (c.toNat - 55)
  else none

def bytesOfHex (s : String) : Option (List UInt8) :=
  go s.toList []
where
  go : List Char → List UInt8 → Option (List UInt8)
    | [], acc => some acc.reverse
    | [_], _ => none
    | hi :: lo :: rest, acc =>
      match hexDigitValue hi, hexDigitValue lo with
      | some h, some l => go rest (UInt8.ofNat (h * 16 + l) :: acc)
      | _, _ => none

end RegisterVM.Text
