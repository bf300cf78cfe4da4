import Std.Data.HashMap
import RegisterVM.Value
import RegisterVM.Fault

set_option autoImplicit false

namespace RegisterVM

inductive HashKey where
  | scalar (tag : Nat) (bits : UInt64)
  | text (s : String)
  | ref (r : ObjRef)
deriving DecidableEq, Hashable, Repr, Inhabited

instance : BEq HashKey := ⟨fun a b => decide (a = b)⟩

structure HashTable where
  keys : Array Value := #[]
  vals : Array Value := #[]
  index : Std.HashMap HashKey Nat := {}
deriving Inhabited

namespace HashTable

def size (t : HashTable) : Nat := t.keys.size

def get (t : HashTable) (k : HashKey) : Except Fault (Option Value) :=
  match t.index.get? k with
  | none => .ok none
  | some i => match t.vals[i]? with
    | some v => .ok (some v)
    | none => .error .runtime

def set (t : HashTable) (key : Value) (k : HashKey) (v : Value) : Except Fault HashTable :=
  match t.index.get? k with
  | some i =>
    if i < t.vals.size then .ok { t with vals := t.vals.set! i v } else .error .runtime
  | none =>
    .ok { keys := t.keys.push key, vals := t.vals.push v, index := t.index.insert k t.keys.size }

def delete (t : HashTable) (k : HashKey) (rekey : Value → HashKey) :
    Except Fault (HashTable × Option Value) :=
  match t.index.get? k with
  | none => .ok (t, none)
  | some i =>
    match t.vals[i]? with
    | none => .error .runtime
    | some v =>
      if i ≥ t.keys.size then .error .runtime else
      let keys := t.keys.eraseIdxIfInBounds i
      let vals := t.vals.eraseIdxIfInBounds i
      let index := t.index.erase k
      let index := (List.range (keys.size - i)).foldl
        (fun idx j => idx.insert (rekey (keys.getD (i + j) .nil)) (i + j)) index
      .ok ({ keys, vals, index }, some v)

def entries (t : HashTable) : List (Value × Value) := t.keys.toList.zip t.vals.toList

end HashTable

end RegisterVM
