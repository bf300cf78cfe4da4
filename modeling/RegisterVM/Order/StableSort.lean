
set_option autoImplicit false

namespace RegisterVM.Order

inductive Asking (E α : Type) where
  | pure (a : α)
  | less (x y : E) (next : Bool → Asking E α)

namespace Asking

variable {E α β : Type}

def bind : Asking E α → (α → Asking E β) → Asking E β
  | .pure a, f => f a
  | .less x y next, f => .less x y (fun b => bind (next b) f)

instance : Monad (Asking E) where
  pure := .pure
  bind := bind

def answerWith (lt : E → E → Bool) : Asking E α → Nat → Option α
  | .pure a, _ => some a
  | .less _ _ _, 0 => none
  | .less x y next, fuel + 1 => answerWith lt (next (lt x y)) fuel

end Asking

abbrev Sorting (E : Type) := StateT (Array E) (Asking E)

namespace Sorting

variable {E : Type} [Inhabited E]

def less (i j : Nat) : Sorting E Bool := do
  let d ← get
  StateT.lift (Asking.less (d.getD i default) (d.getD j default) Asking.pure)

def swap (i j : Nat) : Sorting E Unit := modify fun d => d.swapIfInBounds i j

def sinkDown (a : Nat) : Nat → Sorting E Unit
  | 0 => pure ()
  | j + 1 => do
    if a < j + 1 then
      if ← less (j + 1) j then
        swap (j + 1) j
        sinkDown a j

def insertionSort (a b : Nat) : Sorting E Unit := do
  for i in [a + 1 : b] do
    sinkDown a i

def search (goRight : Nat → Sorting E Bool) (i j : Nat) : Nat → Sorting E Nat
  | 0 => pure i
  | fuel + 1 => do
    if i < j then
      let h := (i + j) / 2
      if ← goRight h then search goRight (h + 1) j fuel else search goRight i h fuel
    else pure i

def swapRange (d : Array E) (a b n : Nat) : Array E :=
  (List.range n).foldl (fun d i => d.swapIfInBounds (a + i) (b + i)) d

def rotate (d : Array E) (a m b : Nat) : Array E :=
  go d (m - a) (b - m) (b - a + 1)
where
  go (d : Array E) (i j : Nat) : Nat → Array E
    | 0 => d
    | fuel + 1 =>
      if i == j then swapRange d (m - i) m i
      else if i > j then go (swapRange d (m - i) m j) (i - j) j fuel
      else go (swapRange d (m - i) (m + j - i) i) i (j - i) fuel

def symMerge (a m b : Nat) : Nat → Sorting E Unit
  | 0 => pure ()
  | fuel + 1 => do
    if m - a == 1 then
      -- one element on the left: find its place in the right run
      let i ← search (fun h => less h a) m b 64
      for k in [a : i - 1] do swap k (k + 1)
    else if b - m == 1 then
      -- one element on the right: find its place in the left run
      let i ← search (fun h => do return !(← less m h)) a m 64
      for t in [0 : m - i] do swap (m - t) (m - t - 1)
    else
      let mid := (a + b) / 2
      let n := mid + m
      let (start, r) := if m > mid then (n - b, mid) else (a, m)
      let p := n - 1
      let start ← search (fun c => do return !(← less (p - c) c)) start r 64
      let stop := n - start
      if start < m && m < stop then modify fun d => rotate d start m stop
      if a < start && start < mid then symMerge a start mid fuel
      if mid < stop && stop < b then symMerge mid stop b fuel

def mergeRounds (n size : Nat) : Nat → Sorting E Unit
  | 0 => pure ()
  | fuel + 1 => do
    if size < n then
      let pairs := n / (2 * size)
      for k in [0 : pairs] do
        let a := 2 * size * k
        symMerge a (a + size) (a + 2 * size) (n + 1)
      let a := 2 * size * pairs
      if a + size < n then symMerge a (a + size) n (n + 1)
      mergeRounds n (2 * size) fuel

def sortPrefix (n : Nat) : Sorting E Unit := do
  let blocks := n / 20
  for k in [0 : blocks] do
    insertionSort (20 * k) (20 * k + 20)
  insertionSort (20 * blocks) n
  mergeRounds n 20 64

end Sorting

def stableSort {E : Type} [Inhabited E] (elems : Array E) : Asking E (Array E) := do
  let ((), sorted) ← StateT.run (Sorting.sortPrefix elems.size) elems
  pure sorted

end RegisterVM.Order
