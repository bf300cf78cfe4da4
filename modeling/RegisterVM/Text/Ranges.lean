
set_option autoImplicit false

namespace RegisterVM.Text

def findRange {α : Type} (xs : Array α) (lo hi : α → Nat) (n : Nat) : Option α :=
  go 0 xs.size
where
  go (a b : Nat) : Option α :=
    if a < b then
      let m := (a + b) / 2
      match xs[m]? with
      | none => none
      | some x =>
        if n < lo x then go a m
        else if hi x < n then go (m + 1) b
        else some x
    else none
  termination_by b - a

def inRanges (xs : Array (Nat × Nat)) (n : Nat) : Bool :=
  (findRange xs Prod.fst Prod.snd n).isSome

end RegisterVM.Text
