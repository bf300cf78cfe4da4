import Std.Data.HashMap

set_option autoImplicit false

namespace RegisterVM

structure Sym where
  id : Nat
deriving DecidableEq, Hashable, Repr, Inhabited

instance : BEq Sym := ⟨fun a b => a.id == b.id⟩

def Sym.none : Sym := ⟨0⟩

structure SymbolTable (α : Type) [BEq α] [Hashable α] where
  names : Array α
  ids : Std.HashMap α Nat

namespace SymbolTable

variable {α : Type} [BEq α] [Hashable α]

def empty (blank : α) : SymbolTable α := { names := #[blank], ids := {} }

def intern (t : SymbolTable α) (name : α) : SymbolTable α × Sym :=
  match t.ids.get? name with
  | some id => (t, ⟨id⟩)
  | none =>
    let id := t.names.size
    ({ names := t.names.push name, ids := t.ids.insert name id }, ⟨id⟩)

def lookup (t : SymbolTable α) (name : α) : Option Sym := (t.ids.get? name).map (⟨·⟩)

def name (t : SymbolTable α) (s : Sym) (blank : α) : α :=
  if s.id == 0 then blank else t.names.getD s.id blank

def size (t : SymbolTable α) : Nat := t.names.size - 1

def all (t : SymbolTable α) : List α := t.names.toList.drop 1

end SymbolTable

abbrev Symbols := SymbolTable String

namespace Symbols

def fresh : Symbols := SymbolTable.empty ""

def text (t : Symbols) (s : Sym) : String := SymbolTable.name t s ""

end Symbols

end RegisterVM
