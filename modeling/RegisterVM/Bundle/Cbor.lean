
set_option autoImplicit false

namespace RegisterVM.Cbor

inductive Item where
  | unsigned (n : Nat)
  | negative (n : Nat)
  | bytes (b : Array UInt8)
  | text (b : Array UInt8)
  | array (items : List Item)
  | map (entries : List (Item × Item))
  | tag (n : Nat) (content : Item)
  | simple (n : Nat)
  | float (width : Nat) (bits : Nat)
deriving Inhabited

def maxDepth : Nat := 32

def maxItems : Nat := 131072

abbrev ReadM := Except String

def typeName (major : Nat) : String :=
  match major with
  | 0 => "positive integer"
  | 1 => "negative integer"
  | 2 => "byte string"
  | 3 => "UTF-8 text string"
  | 4 => "array"
  | 5 => "map"
  | 6 => "tag"
  | _ => "primitives"

def truncated : String := "unexpected EOF"

def tooDeep : String := "cbor: exceeded max nested level " ++ toString maxDepth

def strayBreak : String := "cbor: unexpected \"break\" code"

def tooMany (major : Nat) : String :=
  if major == 4 then "cbor: exceeded max number of elements " ++ toString maxItems ++ " for CBOR array"
  else "cbor: exceeded max number of key-value pairs " ++ toString maxItems ++ " for CBOR map"

def bigEndian (data : ByteArray) (pos n : Nat) : Nat :=
  (List.range n).foldl (fun acc i => acc * 256 + (data.get! (pos + i)).toNat) 0

structure Head where
  major : Nat
  info : Nat
  arg : Nat
  next : Nat

def readHead (data : ByteArray) (pos : Nat) : ReadM Head := do
  if pos ≥ data.size then throw truncated
  let b := (data.get! pos).toNat
  let major := b / 32
  let info := b % 32
  let pos := pos + 1
  if info < 24 then return ⟨major, info, info, pos⟩
  if info ≤ 27 then
    let n := Nat.pow 2 (info - 24)
    if pos + n > data.size then throw truncated
    let arg := bigEndian data pos n
    if info == 24 && major == 7 && arg < 32 then
      throw ("cbor: invalid simple value " ++ toString arg ++ " for type " ++ typeName major)
    return ⟨major, info, arg, pos + n⟩
  if info == 31 then
    if major == 7 then throw strayBreak
    if major == 0 || major == 1 || major == 6 then
      throw ("cbor: invalid additional information 31 for type " ++ typeName major)
    return ⟨major, info, 0, pos⟩
  throw ("cbor: invalid additional information " ++ toString info ++ " for type " ++ typeName major)

def isBreak (data : ByteArray) (pos : Nat) : Bool := pos < data.size && data.get! pos == 0xff

def slice (data : ByteArray) (major : Nat) (pos n : Nat) : ReadM (Array UInt8) :=
  if n ≥ Nat.pow 2 63 then
    throw ("cbor: " ++ typeName major ++ " length " ++ toString n ++ " is too large, causing integer overflow")
  else if pos + n > data.size then throw truncated
  else pure (data.extract pos (pos + n)).data

def pairs : List Item → List (Item × Item)
  | k :: v :: rest => (k, v) :: pairs rest
  | _ => []

mutual

def readItem (data : ByteArray) (depth : Nat) (fuel : Nat) (pos : Nat) : ReadM (Item × Nat) := do
  match fuel with
  | 0 => throw tooDeep
  | fuel + 1 =>
    let h ← readHead data pos
    match h.major with
    | 0 => pure (.unsigned h.arg, h.next)
    | 1 => pure (.negative h.arg, h.next)
    | 2 | 3 =>
      let (b, next) ← if h.info == 31 then readChunks data h.major fuel h.next #[] (data.size - h.next + 1)
        else do pure (← slice data h.major h.next h.arg, h.next + h.arg)
      pure (if h.major == 2 then .bytes b else .text b, next)
    | 4 | 5 =>
      if depth + 1 > maxDepth then throw tooDeep
      let xs_next ← if h.info == 31 then
          readUntilBreak data h.major (depth + 1) fuel h.next [] 0 (data.size - h.next + 1)
        else do
          if h.arg ≥ Nat.pow 2 63 then
            throw ("cbor: " ++ typeName h.major ++ " length " ++ toString h.arg ++
              " is too large, it would cause integer overflow")
          if h.arg > maxItems then throw (tooMany h.major)
          readCount data (depth + 1) fuel h.next (if h.major == 4 then h.arg else 2 * h.arg)
      let (xs, next) := xs_next
      pure (if h.major == 4 then .array xs else .map (pairs xs), next)
    | 6 =>
      if depth > maxDepth then throw tooDeep
      let nested := h.next < data.size && (data.get! h.next).toNat / 32 == 6
      let (c, next) ← readItem data (if nested then depth + 1 else depth) fuel h.next
      pure (.tag h.arg c, next)
    | _ =>
      if h.info == 25 then pure (.float 16 h.arg, h.next)
      else if h.info == 26 then pure (.float 32 h.arg, h.next)
      else if h.info == 27 then pure (.float 64 h.arg, h.next)
      else pure (.simple h.arg, h.next)
termination_by (fuel, 0)

def readCount (data : ByteArray) (depth : Nat) (fuel : Nat) (pos : Nat) :
    Nat → ReadM (List Item × Nat)
  | 0 => pure ([], pos)
  | count + 1 => do
    let (x, pos) ← readItem data depth fuel pos
    let (xs, pos) ← readCount data depth fuel pos count
    pure (x :: xs, pos)
termination_by count => (fuel, count + 1)

def readUntilBreak (data : ByteArray) (major : Nat) (depth : Nat) (fuel : Nat) (pos : Nat)
    (acc : List Item) (count : Nat) : Nat → ReadM (List Item × Nat)
  | 0 => throw truncated
  | steps + 1 => do
    if pos ≥ data.size then throw truncated
    if isBreak data pos then
      if major == 5 && count % 2 == 1 then throw strayBreak
      return (acc.reverse, pos + 1)
    let (x, pos) ← readItem data depth fuel pos
    let count := count + 1
    if major == 4 && count > maxItems then throw (tooMany major)
    if major == 5 && count % 2 == 0 && count / 2 > maxItems then throw (tooMany major)
    readUntilBreak data major depth fuel pos (x :: acc) count steps
termination_by steps => (fuel, steps + 1)

def readChunks (data : ByteArray) (major : Nat) (fuel : Nat) (pos : Nat) (acc : Array UInt8) :
    Nat → ReadM (Array UInt8 × Nat)
  | 0 => throw truncated
  | steps + 1 => do
    if pos ≥ data.size then throw truncated
    if isBreak data pos then return (acc, pos + 1)
    let b0 := (data.get! pos).toNat
    if b0 / 32 != major then
      throw ("cbor: wrong element type " ++ typeName (b0 / 32) ++ " for indefinite-length " ++ typeName major)
    if b0 % 32 == 31 then
      throw ("cbor: indefinite-length " ++ typeName major ++ " chunk is not definite-length")
    let h ← readHead data pos
    let b ← slice data major h.next h.arg
    readChunks data major fuel (h.next + h.arg) (acc ++ b) steps
termination_by steps => (fuel, steps + 1)

end

def read (data : ByteArray) : ReadM Item := do
  if data.size == 0 then throw "EOF"
  let (x, next) ← readItem data 0 (data.size + 1) 0
  if next != data.size then
    throw ("cbor: " ++ toString (data.size - next) ++ " bytes of extraneous data starting at index " ++
      toString next)
  pure x

def head (major : Nat) (n : Nat) : List UInt8 :=
  let first (info : Nat) : UInt8 := (major * 32 + info).toUInt8
  let be (k : Nat) : List UInt8 := (List.range k).reverse.map fun i => (n / Nat.pow 256 i % 256).toUInt8
  if n < 24 then [first n]
  else if n < 256 then first 24 :: be 1
  else if n < 65536 then first 25 :: be 2
  else if n < Nat.pow 2 32 then first 26 :: be 4
  else first 27 :: be 8

def int (n : Int) : List UInt8 :=
  if n ≥ 0 then head 0 n.toNat else head 1 (-1 - n).toNat

def bytes (b : Array UInt8) : List UInt8 := head 2 b.size ++ b.toList

def text (s : String) : List UInt8 := head 3 s.utf8ByteSize ++ s.toUTF8.toList

def bool (b : Bool) : List UInt8 := if b then [0xf5] else [0xf4]

def null : List UInt8 := [0xf6]

end RegisterVM.Cbor
