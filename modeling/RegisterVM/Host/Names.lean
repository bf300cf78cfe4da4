import RegisterVM.Symbol
import RegisterVM.Text.Unicode

set_option autoImplicit false

namespace RegisterVM

inductive NameRequest where
  | intern (name : List UInt8)
  | lookup (name : List UInt8)
  | name (id : Int)
  | count
  | all

inductive NameAnswer where
  | id (n : Nat)
  | lookup (n : Nat) (found : Bool)
  | text (s : String)
  | count (n : Nat)
  | names (xs : List String)
deriving DecidableEq

abbrev ByteNames := SymbolTable (List UInt8)

namespace ByteNames

def answer (t : ByteNames) : NameRequest → ByteNames × NameAnswer
  | .intern n =>
    let (t, s) := t.intern n
    (t, .id s.id)
  | .lookup n =>
    match t.lookup n with
    | some s => (t, .lookup s.id true)
    | none => (t, .lookup 0 false)
  | .name id => (t, .text (Text.decodeLossy (t.name ⟨(id % Int.pow 2 32).toNat⟩ [])))
  | .count => (t, .count t.size)
  | .all => (t, .names (t.all.map Text.decodeLossy))

def answerAll (rs : List NameRequest) : List NameAnswer :=
  go (SymbolTable.empty []) rs
where
  go (t : ByteNames) : List NameRequest → List NameAnswer
    | [] => []
    | r :: rest =>
      let (t, a) := t.answer r
      a :: go t rest

end ByteNames

end RegisterVM
