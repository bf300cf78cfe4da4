import RegisterVM.Bundle.Cbor
import RegisterVM.Bytecode.Procedure
import RegisterVM.Float.Width

set_option autoImplicit false

namespace RegisterVM.Bundle

open Cbor

structure WireLiteral where
  kind : Nat := 0
  int : Int := 0
  float : UInt64 := 0
  str : String := ""
deriving Inhabited

structure WireHandler where
  kind : Nat := 0
  start : Int := 0
  stop : Int := 0
  target : Int := 0
  guards : Option (List String) := none
deriving Inhabited

structure WireProc where
  code : Option (Array UInt8) := none
  params : ParamSpec := {}
  nlocals : Int := 0
  nregs : Int := 0
  pool : List WireLiteral := []
  syms : List String := []
  children : List (Option WireProc) := []
  handlers : List WireHandler := []
  filename : String := ""
  lines : List LineEntry := []
deriving Inhabited

structure Container where
  magic : String := ""
  version : Int := 0
  root : Option WireProc := none
deriving Inhabited

inductive DecodeError where
  | mismatch (data : String) (target : String) (detail : String) (field : String)
  | other (msg : String)
deriving Inhabited

def DecodeError.message : DecodeError → String
  | .mismatch data target detail field =>
    "cbor: cannot unmarshal " ++ data ++
      (if field.isEmpty then " into Go value of type " else " into Go struct field " ++ field ++ " of type ") ++
      target ++ (if detail.isEmpty then "" else " (" ++ detail ++ ")")
  | .other msg => msg

abbrev DecodeM := Except DecodeError

inductive View where
  | uint (n : Nat)
  | nint (n : Int) (wide : Bool)
  | bytes (b : Array UInt8)
  | text (s : String)
  | float (bits : UInt64)
  | bool (b : Bool)
  | null
  | array (items : List Item)
  | map (entries : List (Item × Item))

def majorOf : Item → Nat
  | .unsigned _ => 0
  | .negative _ => 1
  | .bytes _ => 2
  | .text _ => 3
  | .array _ => 4
  | .map _ => 5
  | .tag _ _ => 6
  | _ => 7

def tagContentError (n : Nat) (c : Item) : Option String :=
  let got := typeName (majorOf c)
  match n, c with
  | 0, .text _ => none
  | 0, _ => some ("cbor: tag number 0 must be followed by text string, got " ++ got)
  | 1, .unsigned _ | 1, .negative _ | 1, .float _ _ => none
  | 1, _ => some ("cbor: tag number 1 must be followed by integer or floating-point number, got " ++ got)
  | 2, .bytes _ | 3, .bytes _ => none
  | 2, _ | 3, _ => some ("cbor: tag number 2 or 3 must be followed by byte string, got " ++ got)
  | _, _ => none

def bignum (b : Array UInt8) : Nat := b.foldl (fun acc x => acc * 256 + x.toNat) 0

def view (target : String) (wantsBytes : Bool) : Nat → Item → DecodeM (String × View)
  | 0, _ => throw (.other "cbor: exceeded max nested level 32")
  | fuel + 1, it =>
    match it with
    | .tag 55799 c => view target wantsBytes fuel c
    | .tag n c =>
      match tagContentError n c with
      | some msg => throw (.other msg)
      | none =>
        match n, c with
        | 2, .bytes b => pure ("tag", if wantsBytes then .bytes b else .uint (bignum b))
        | 3, .bytes b => pure ("tag", if wantsBytes then .bytes b else .nint (-1 - bignum b) true)
        | _, _ => view target wantsBytes fuel c
    | .unsigned n => pure ("positive integer", .uint n)
    | .negative n =>
      if n < Nat.pow 2 63 then pure ("negative integer", .nint (-1 - n) false)
      else throw (.mismatch "negative integer" target ("-" ++ toString (n + 1) ++ " overflows Go's int64") "")
    | .bytes b => pure ("byte string", .bytes b)
    | .text b =>
      match String.fromUTF8? ⟨b⟩ with
      | some s => pure ("UTF-8 text string", .text s)
      | none => throw (.other "cbor: invalid UTF-8 string")
    | .float 16 bits => pure ("primitives", .float (Float.Format.half.widen bits))
    | .float 32 bits => pure ("primitives", .float (Float.Format.single.widen bits))
    | .float _ bits => pure ("primitives", .float bits.toUInt64)
    | .simple 20 => pure ("primitives", .bool false)
    | .simple 21 => pure ("primitives", .bool true)
    | .simple 22 | .simple 23 => pure ("primitives", .null)
    | .simple n => pure ("primitives", .uint n)
    | .array xs => pure ("array", .array xs)
    | .map kvs => pure ("map", .map kvs)

def viewFuel : Nat := 64

def mismatch {α : Type} (data target : String) (detail : String := "") : DecodeM α :=
  throw (.mismatch data target detail "")

def overflow {α : Type} (data target : String) (n : Int) : DecodeM α :=
  mismatch data target (toString n ++ " overflows " ++ target)

def asInt (target : String) (it : Item) : DecodeM Int := do
  match ← view target false viewFuel it with
  | (d, .uint n) => if n < Nat.pow 2 63 then pure n else overflow d target n
  | (d, .nint n _) => if n ≥ -Int.pow 2 63 then pure n else overflow d target n
  | (_, .null) => pure 0
  | (d, _) => mismatch d target

def asByte (target : String) (it : Item) : DecodeM Nat := do
  match ← view target false viewFuel it with
  | (d, .uint n) => if n < 256 then pure n else overflow d target n
  | (d, .nint n true) => if n ≥ -Int.pow 2 63 then mismatch d target else overflow d target n
  | (_, .null) => pure 0
  | (d, _) => mismatch d target

def asFloat (it : Item) : DecodeM UInt64 := do
  match ← view "float64" false viewFuel it with
  | (d, .uint n) => if n < Nat.pow 2 64 then pure (Float.ofNat n).toBits else overflow d "float64" n
  | (d, .nint n _) => if n ≥ -Int.pow 2 63 then pure (Float.ofInt n).toBits else overflow d "float64" n
  | (_, .float b) => pure b
  | (_, .null) => pure 0
  | (d, _) => mismatch d "float64"

def asBool (it : Item) : DecodeM Bool := do
  match ← view "bool" false viewFuel it with
  | (_, .bool b) => pure b
  | (_, .null) => pure false
  | (d, .nint n true) => if n ≥ -Int.pow 2 63 then mismatch d "bool" else overflow d "bool" n
  | (d, .uint n) => if d == "tag" && n ≥ Nat.pow 2 64 then overflow d "bool" n else mismatch d "bool"
  | (d, _) => mismatch d "bool"

def asText (it : Item) : DecodeM String := do
  match ← view "string" false viewFuel it with
  | (_, .text s) => pure s
  | (_, .null) => pure ""
  | (d, .nint n true) => if n ≥ -Int.pow 2 63 then mismatch d "string" else overflow d "string" n
  | (d, .uint n) => if d == "tag" && n ≥ Nat.pow 2 64 then overflow d "string" n else mismatch d "string"
  | (d, _) => mismatch d "string"

def asList {α : Type} (target : String) (elem : Item → DecodeM α) (it : Item) :
    DecodeM (Option (List α)) := do
  match ← view target true viewFuel it with
  | (_, .array xs) => pure (some (← xs.mapM elem))
  | (_, .null) => pure none
  | (d, _) => mismatch d target

def asBytes (it : Item) : DecodeM (Option (Array UInt8)) := do
  match ← view "[]uint8" true viewFuel it with
  | (_, .bytes b) => pure (some b)
  | (_, .array xs) => pure (some (← xs.mapM fun x => do pure (← asByte "uint8" x).toUInt8).toArray)
  | (_, .null) => pure none
  | (d, _) => mismatch d "[]uint8"

def inField {α : Type} (field : String) (x : DecodeM α) : DecodeM α :=
  match x with
  | .error (.mismatch d t detail _) => .error (.mismatch d t detail field)
  | r => r

def asRecord {σ : Type} (target : String) (zero : σ) (fields : List String)
    (build : List Item → DecodeM σ) (it : Item) : DecodeM σ := do
  match ← view target false viewFuel it with
  | (_, .array xs) =>
    if xs.length == fields.length then build xs
    else mismatch "array" target "cannot decode CBOR array to struct with different number of elements"
  | (_, .map _) => mismatch "map" target "cannot decode CBOR map to struct with toarray option"
  | (_, .null) => pure zero
  | (d, _) => mismatch d target

def field {α : Type} (target name : String) (x : DecodeM α) : DecodeM α :=
  inField (target ++ "." ++ name) x

inductive Key where
  | name (s : String)
  | number (n : Int)

def keyOf : Item → DecodeM Key
  | .text b =>
    match String.fromUTF8? ⟨b⟩ with
    | some s => pure (.name s)
    | none => throw (.other "cbor: invalid UTF-8 string")
  | .unsigned n => pure (.number (if n < Nat.pow 2 63 then n else (n : Int) - Int.pow 2 64))
  | .negative n =>
    if n < Nat.pow 2 63 then pure (.number (-1 - n))
    else mismatch "negative integer" "int64" ("-1-" ++ toString n ++ " overflows Go's int64")
  | it =>
    let t := typeName (majorOf it)
    mismatch t "string" ("map key is of type " ++ t ++ " and cannot be used to match struct field name")

structure Field where
  name : String
  number : Option Int := none

def sameIgnoringCase (a b : String) : Bool :=
  a.utf8ByteSize == b.utf8ByteSize &&
    (a.toList.map Char.toLower) == (b.toList.map Char.toLower)

def fieldFor (fields : List Field) (seen : List Nat) : Key → Option Nat
  | .name s =>
    let free := (List.range fields.length).filter (!seen.contains ·)
    match free.find? fun i => (fields.getD i ⟨"", none⟩).name == s with
    | some i => some i
    | none => free.find? fun i => sameIgnoringCase (fields.getD i ⟨"", none⟩).name s
  | .number n =>
    (List.range fields.length).find? fun i =>
      !seen.contains i && (fields.getD i ⟨"", none⟩).number == some n

def asFields {σ : Type} (target : String) (fields : List Field) (set : Nat → Item → σ → DecodeM σ)
    (zero : σ) (it : Item) : DecodeM σ := do
  match ← view target false viewFuel it with
  | (_, .map kvs) =>
    let mut seen : List Nat := []
    let mut acc := zero
    for (k, v) in kvs do
      match fieldFor fields seen (← keyOf k) with
      | some i =>
        seen := i :: seen
        acc ← inField (target ++ "." ++ (fields.getD i ⟨"", none⟩).name) (set i v acc)
      | none => pure ()
    pure acc
  | (_, .array _) => mismatch "array" target "cannot decode CBOR array to struct without toarray option"
  | (_, .null) => pure zero
  | (d, _) => mismatch d target

def numbered (n : Nat) : List Field :=
  (List.range n).map fun (i : Nat) => { name := toString (i + 1), number := some ((i : Int) + 1) }

def asParams : Item → DecodeM ParamSpec :=
  let t := "bundle.aspec"
  asRecord t {} ["Req", "Opt", "Rest", "Post", "NKeys", "KDict", "Block"] fun
    | [req, opt, rest, post, nkeys, kdict, block] => do
      pure { req := ← field t "Req" (asInt "int" req), opt := ← field t "Opt" (asInt "int" opt),
             rest := ← field t "Rest" (asBool rest), post := ← field t "Post" (asInt "int" post),
             nkeys := ← field t "NKeys" (asInt "int" nkeys), kdict := ← field t "KDict" (asBool kdict),
             block := ← field t "Block" (asBool block) }
    | _ => pure {}

def asLiteral : Item → DecodeM WireLiteral :=
  let t := "bundle.literal"
  asRecord t {} ["Kind", "Int", "Flt", "Str"] fun
    | [kind, int, float, str] => do
      pure { kind := ← field t "Kind" (asByte "vm.PoolKind" kind),
             int := ← field t "Int" (asInt "int64" int),
             float := ← field t "Flt" (asFloat float), str := ← field t "Str" (asText str) }
    | _ => pure {}

def asHandler : Item → DecodeM WireHandler :=
  let t := "bundle.handler"
  asRecord t {} ["Kind", "Begin", "End", "Target", "Guards"] fun
    | [kind, start, stop, target, guards] => do
      pure { kind := ← field t "Kind" (asByte "vm.CatchKind" kind),
             start := ← field t "Begin" (asInt "int" start), stop := ← field t "End" (asInt "int" stop),
             target := ← field t "Target" (asInt "int" target),
             guards := ← field t "Guards" (asList "[]string" asText guards) }
    | _ => pure {}

def asLine : Item → DecodeM LineEntry :=
  asFields "vm.LineEntry" [{ name := "PC" }, { name := "Line" }]
    (fun i v (e : LineEntry) => do
      match i with
      | 0 => pure { e with pc := ← asInt "int" v }
      | _ => pure { e with line := ← asInt "int" v })
    ⟨0, 0⟩

mutual

def asProc : Nat → Item → DecodeM WireProc
  | 0, _ => throw (.other "cbor: exceeded max nested level 32")
  | fuel + 1, it => asFields "*bundle.irep" (numbered 10) (setProcField fuel) {} it

def setProcField (fuel : Nat) (i : Nat) (v : Item) (p : WireProc) : DecodeM WireProc :=
  match i with
  | 0 => do pure { p with code := ← asBytes v }
  | 1 => do pure { p with params := ← asParams v }
  | 2 => do pure { p with nlocals := ← asInt "int" v }
  | 3 => do pure { p with nregs := ← asInt "int" v }
  | 4 => do pure { p with pool := (← asList "[]bundle.literal" asLiteral v).getD [] }
  | 5 => do pure { p with syms := (← asList "[]string" asText v).getD [] }
  | 6 => do pure { p with children := (← asList "[]*bundle.irep" (asChild fuel) v).getD [] }
  | 7 => do pure { p with handlers := (← asList "[]bundle.handler" asHandler v).getD [] }
  | 8 => do pure { p with filename := ← asText v }
  | _ => do pure { p with lines := (← asList "[]vm.LineEntry" asLine v).getD [] }

def asChild (fuel : Nat) (it : Item) : DecodeM (Option WireProc) :=
  match it with
  | .simple 22 | .simple 23 => pure none
  | _ => do pure (some (← asProc fuel it))

end

def asContainer (it : Item) : DecodeM Container :=
  asFields "bundle.container" (numbered 3)
    (fun i v (c : Container) => do
      match i with
      | 0 => pure { c with magic := ← asText v }
      | 1 => pure { c with version := ← asInt "int" v }
      | _ => pure { c with root := ← asChild (Cbor.maxDepth + 1) v })
    {} it

def decode (data : ByteArray) : Except String Container :=
  match Cbor.read data with
  | .error msg => .error msg
  | .ok it =>
    match asContainer it with
    | .ok c => .ok c
    | .error e => .error e.message

def float (bits : UInt64) : List UInt8 :=
  let (negative, e, frac) := Float.Format.double.fields bits.toNat
  let be (k : Nat) (n : Nat) : List UInt8 := (List.range k).reverse.map fun i => (n / Nat.pow 256 i % 256).toUInt8
  if e == Float.Format.double.topExponent then
    if frac == 0 then (if negative then [0xf9, 0xfc, 0x00] else [0xf9, 0x7c, 0x00])
    else 0xfb :: be 8 bits.toNat
  else
    match Float.Format.single.narrow? bits with
    | none => 0xfb :: be 8 bits.toNat
    | some single =>
      match Float.Format.half.narrow? bits with
      | some half => 0xf9 :: be 2 half
      | none => 0xfa :: be 4 single

def encodeParams (a : ParamSpec) : List UInt8 :=
  head 4 7 ++ int a.req ++ int a.opt ++ bool a.rest ++ int a.post ++ int a.nkeys ++ bool a.kdict ++
    bool a.block

def encodeLiteral (l : WireLiteral) : List UInt8 :=
  head 4 4 ++ int l.kind ++ int l.int ++ float l.float ++ text l.str

def encodeHandler (h : WireHandler) : List UInt8 :=
  head 4 5 ++ int h.kind ++ int h.start ++ int h.stop ++ int h.target ++
    match h.guards with
    | none => null
    | some gs => head 4 gs.length ++ gs.flatMap text

def encodeLine (e : LineEntry) : List UInt8 :=
  head 5 2 ++ text "PC" ++ int e.pc ++ text "Line" ++ int e.line

def optionalList {α : Type} (key : Nat) (xs : List α) (enc : α → List UInt8) : List (List UInt8) :=
  if xs.isEmpty then [] else [head 0 key ++ head 4 xs.length ++ xs.flatMap enc]

def encodeProc (p : WireProc) : List UInt8 :=
  let kids := p.children.attach.map fun c =>
    match c with
    | ⟨none, _⟩ => null
    | ⟨some k, _mem⟩ => encodeProc k
  let entries : List (List UInt8) :=
    [head 0 1 ++ (match p.code with | some b => bytes b | none => null),
     head 0 2 ++ encodeParams p.params,
     head 0 3 ++ int p.nlocals,
     head 0 4 ++ int p.nregs] ++
    optionalList 5 p.pool encodeLiteral ++
    optionalList 6 p.syms text ++
    (if kids.isEmpty then [] else [head 0 7 ++ head 4 kids.length ++ kids.flatten]) ++
    optionalList 8 p.handlers encodeHandler ++
    (if p.filename.isEmpty then [] else [head 0 9 ++ text p.filename]) ++
    optionalList 10 p.lines encodeLine
  head 5 entries.length ++ entries.flatten
termination_by sizeOf p
decreasing_by
  have h1 := List.sizeOf_lt_of_mem _mem
  have h2 : sizeOf (some k) = 1 + sizeOf k := rfl
  cases p
  simp_all only [WireProc.mk.sizeOf_spec]
  omega

def magic : String := "RITE"

def version : Int := 1

def encode (root : WireProc) : ByteArray :=
  ⟨(head 5 3 ++ head 0 1 ++ text magic ++ head 0 2 ++ int version ++ head 0 3 ++ encodeProc root).toArray⟩

end RegisterVM.Bundle
