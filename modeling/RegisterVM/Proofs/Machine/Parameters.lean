import RegisterVM.Proofs.Machine.Arguments

set_option autoImplicit false

namespace RegisterVM

namespace ParamSpec

structure Counted (ps : ParamSpec) : Prop where
  req : 0 ≤ ps.req
  opt : 0 ≤ ps.opt
  post : 0 ≤ ps.post

theorem Counted.blockIndex_eq {ps : ParamSpec} (counted : ps.Counted) :
    ps.blockIndex = ((ps.req.toNat + ps.opt.toNat + (if ps.rest then 1 else 0) + ps.post.toNat +
      (if ps.hasKeywords then 1 else 0) + 1 : Nat) : Int) := by
  have := counted.req
  have := counted.opt
  have := counted.post
  unfold blockIndex kdictIndex
  split <;> split <;> push_cast <;> omega

structure Binding where
  req : List Value
  opt : List Value
  rest : List Value
  post : List Value
deriving DecidableEq, Repr

def bindArgs (r o p : Nat) (args : List Value) : Binding :=
  if r + p ≤ args.length then
    let middle := (args.drop r).take (args.length - r - p)
    { req := args.take r, opt := middle.take o, rest := middle.drop o, post := args.drop (args.length - p) }
  else { req := args.take r, opt := [], rest := [], post := args.drop r }

def enterBinding (ps : ParamSpec) (args : List Value) : Binding :=
  bindArgs ps.req.toNat ps.opt.toNat ps.post.toNat args

def documentedBinding (ps : ParamSpec) (args : List Value) : Binding :=
  ps.enterBinding (if ps.rest then args else args.take (ps.req.toNat + ps.opt.toNat + ps.post.toNat))

def BindsAsDocumented (ps : ParamSpec) (args : List Value) : Prop :=
  ps.rest ∨ args.length ≤ ps.req.toNat + ps.opt.toNat + ps.post.toNat ∨
    args.drop (args.length - ps.post.toNat) = (args.drop (ps.req.toNat + ps.opt.toNat)).take ps.post.toNat

def demoted (ps : ParamSpec) (args : List Value) (kw : Option HashTable) (kwArg : Value) : List Value :=
  if !ps.hasKeywords && kw.isSome then args ++ [kwArg] else args

def Spreads (ps : ParamSpec) (strict : Bool) (n : Nat) : Bool :=
  !strict && n == 1 && (decide (ps.req + ps.opt + ps.post > 1) || ps.rest && decide (ps.req + ps.opt + ps.post > 0))

def spread (st : Store) : List Value → List Value
  | [.obj r] =>
    match st.bodyAt r with
    | some (.array es) => es.toList
    | _ => [.obj r]
  | args => args

def passedArgs (ps : ParamSpec) (strict : Bool) (st : Store) (args : List Value) (kw : Option HashTable)
    (kwArg : Value) : List Value :=
  let args := ps.demoted args kw kwArg
  if ps.Spreads strict args.length then spread st args else args

def Admits (ps : ParamSpec) (n : Nat) : Prop :=
  ps.req + ps.post ≤ n ∧ (ps.rest = true ∨ (n : Int) ≤ ps.req + ps.opt + ps.post)

instance (ps : ParamSpec) (n : Nat) : Decidable (ps.Admits n) := inferInstanceAs (Decidable (_ ∧ _))

def arityMessage (ps : ParamSpec) (given : Nat) : String :=
  "wrong number of arguments (given " ++ Text.natText given ++ ", expected " ++ ps.expected ++ ")"

end ParamSpec

open ParamSpec

def fillCells (k : Nat) (vs : List Value) : List Value := (List.range k).map (vs.getD · .nil)

@[simp] theorem length_fillCells (k : Nat) (vs : List Value) : (fillCells k vs).length = k := by
  simp [fillCells]

theorem fillCells_of_length {k : Nat} {vs : List Value} (full : vs.length = k) : fillCells k vs = vs := by
  refine List.ext_getElem (by simp [full]) fun j below _ => ?_
  simp [fillCells, List.getD_eq_getElem?_getD, List.getElem?_eq_getElem (full ▸ (by simpa using below) : j < vs.length)]

def ParamSpec.Binding.cells (b : Binding) (r o p : Nat) (restCells kwCells : List Value) (blk : Value) : List Value :=
  fillCells r b.req ++ fillCells o b.opt ++ restCells ++ fillCells p b.post ++ kwCells ++ [blk]

section Agreement

variable {r o p : Nat} {args : List Value}

theorem bindArgs_take_of_le (short : args.length ≤ r + o + p) :
    bindArgs r o p (args.take (r + o + p)) = bindArgs r o p args := by
  rw [List.take_of_length_le short]

theorem bindArgs_take_of_gt (long : r + o + p < args.length) :
    bindArgs r o p (args.take (r + o + p)) =
      { bindArgs r o p args with
        rest := [], post := (args.drop (r + o)).take p } := by
  have cut : (args.take (r + o + p)).length = r + o + p := by simp; omega
  simp only [bindArgs, cut, if_pos (by omega : r + p ≤ r + o + p), if_pos (by omega : r + p ≤ args.length)]
  simp only [Binding.mk.injEq]
  refine ⟨?_, ?_, ?_, ?_⟩
  · rw [List.take_take, Nat.min_eq_left (by omega)]
  · rw [List.take_take, List.drop_take, List.take_take, List.take_take, Nat.min_eq_left (by omega),
      Nat.min_eq_left (by omega), Nat.min_eq_left (by omega)]
  · exact List.drop_eq_nil_of_le (by simp; omega)
  · rw [List.drop_take]
    congr 2 <;> omega

theorem cells_eq_iff_post (b : Binding) (rest post : List Value) (restCells kwCells : List Value) (blk : Value) :
    ({ b with rest, post } : Binding).cells r o p restCells kwCells blk = b.cells r o p restCells kwCells blk ↔
      fillCells p post = fillCells p b.post := by
  simp only [Binding.cells, List.append_assoc, List.append_cancel_left_eq, List.append_cancel_right_eq]

theorem cells_eq_of_kwCells {b b' : Binding} {restCells kwCells kwCells' : List Value} {blk : Value}
    (same : b'.cells r o p restCells kwCells' blk = b.cells r o p restCells kwCells blk)
    (sized : kwCells'.length = kwCells.length) :
    b'.cells r o p restCells kwCells blk = b.cells r o p restCells kwCells blk := by
  unfold Binding.cells at same ⊢
  obtain ⟨front, -⟩ := List.append_inj same (by simp [sized])
  obtain ⟨front, -⟩ := List.append_inj front (by simp)
  rw [front]

end Agreement

theorem bindArgs_agrees_iff (ps : ParamSpec) (args : List Value) (restCells kwCells : List Value) (blk : Value) :
    (ps.documentedBinding args).cells ps.req.toNat ps.opt.toNat ps.post.toNat restCells kwCells blk =
        (ps.enterBinding args).cells ps.req.toNat ps.opt.toNat ps.post.toNat restCells kwCells blk ↔
      ps.BindsAsDocumented args := by
  unfold documentedBinding BindsAsDocumented
  cases rest : ps.rest with
  | true => simp
  | false =>
    simp only [Bool.false_eq_true, if_false, false_or]
    by_cases short : args.length ≤ ps.req.toNat + ps.opt.toNat + ps.post.toNat
    · simp only [enterBinding, bindArgs_take_of_le short, short, true_or]
    · have long : ps.req.toNat + ps.opt.toNat + ps.post.toNat < args.length := by omega
      simp only [short, false_or, enterBinding, bindArgs_take_of_gt long]
      rw [cells_eq_iff_post]
      have lastPost : (bindArgs ps.req.toNat ps.opt.toNat ps.post.toNat args).post =
          args.drop (args.length - ps.post.toNat) := by
        rw [bindArgs, if_pos (by omega)]
      rw [lastPost, fillCells_of_length (by simp; omega), fillCells_of_length (by simp; omega), eq_comm]

theorem documentedBinding_opt (ps : ParamSpec) (args : List Value) :
    (ps.documentedBinding args).opt = (ps.enterBinding args).opt := by
  unfold ParamSpec.documentedBinding ParamSpec.enterBinding
  split
  · rfl
  · by_cases short : args.length ≤ ps.req.toNat + ps.opt.toNat + ps.post.toNat
    · rw [bindArgs_take_of_le short]
    · rw [bindArgs_take_of_gt (by omega)]

namespace Machine

theorem sliceOf_eq {xs : Array Value} {lo hi : Int} (l h : Nat) (low : lo = l) (high : hi = h) (ordered : l ≤ h)
    (within : h ≤ xs.size) : sliceOf xs lo hi = pure ((xs.toList.drop l).take (h - l)).toArray := by
  subst low high
  have fits : (decide (0 ≤ (l : Int)) && decide ((l : Int) ≤ h) && decide ((h : Int) ≤ xs.size)) = true := by
    simp only [Bool.and_eq_true, decide_eq_true_eq]
    omega
  rw [sliceOf, if_pos fits]
  congr 1
  apply Array.ext'
  simp

theorem splitArgs_eq {ps : ParamSpec} (counted : ps.Counted) (args : Array Value) :
    splitArgs ps args = pure (let b := ps.enterBinding args.toList
      (b.req.toArray, b.opt.toArray, b.rest.toArray, b.post.toArray)) := by
  obtain ⟨r, hr⟩ := Int.eq_ofNat_of_zero_le counted.req
  obtain ⟨o, ho⟩ := Int.eq_ofNat_of_zero_le counted.opt
  obtain ⟨p, hp⟩ := Int.eq_ofNat_of_zero_le counted.post
  simp only [splitArgs, enterBinding, bindArgs, hr, ho, hp, Int.toNat_natCast, Array.length_toList]
  by_cases enough : r + p ≤ args.size
  · rw [if_pos (by omega), if_pos enough]
    have last : (args.size : Int) - p = ((args.size - p : Nat) : Int) := by omega
    rw [sliceOf_eq 0 r Int.ofNat_zero.symm rfl (by omega) (by omega), pure_bind,
      sliceOf_eq (args.size - p) args.size last rfl (by omega) (Nat.le_refl _), pure_bind,
      sliceOf_eq r (args.size - p) rfl last (by omega) (by omega), pure_bind]
    have midSize : ((((args.toList.drop r).take (args.size - p - r)).toArray.size : Nat) : Int) =
        ((args.size - p - r : Nat) : Int) := by
      simp only [List.size_toArray, List.length_take, List.length_drop, Array.length_toList]
      omega
    have given : min ((((args.toList.drop r).take (args.size - p - r)).toArray.size : Nat) : Int) (o : Int) =
        ((min (args.size - p - r) o : Nat) : Int) := by
      rw [midSize]
      omega
    rw [sliceOf_eq 0 _ Int.ofNat_zero.symm given (by omega) (by simp; omega), pure_bind,
      sliceOf_eq _ _ given midSize (by omega) (by simp; omega), pure_bind]
    have swap : args.size - r - p = args.size - p - r := by omega
    congr 1
    simp only [swap, Prod.mk.injEq]
    refine ⟨by simp, ?_, ?_, ?_⟩
    · rw [Nat.sub_zero, List.drop_zero, List.take_take, List.take_take]
      congr 2
      omega
    · rw [List.take_of_length_le (by simp)]
      by_cases few : o ≤ args.size - p - r
      · rw [Nat.min_eq_right few]
      · rw [Nat.min_eq_left (by omega), List.drop_eq_nil_of_le (by simp), List.drop_eq_nil_of_le (by simp; omega)]
    · rw [List.take_of_length_le (by simp)]
  · rw [if_neg (by omega), if_neg enough]
    have cut : min (args.size : Int) r = ((min args.size r : Nat) : Int) := by omega
    rw [sliceOf_eq 0 _ Int.ofNat_zero.symm cut (by omega) (by omega), pure_bind]
    have req : (List.take (min args.size r - 0) (List.drop 0 args.toList)).toArray = (args.toList.take r).toArray := by
      simp [List.take_eq_take_iff, Nat.min_comm]
    by_cases beyond : r < args.size
    · rw [if_pos (by omega), sliceOf_eq r args.size rfl rfl (by omega) (Nat.le_refl _), pure_bind, req,
        List.take_of_length_le (l := args.toList.drop r) (by simp)]
    · rw [if_neg (by omega), pure_bind, req, List.drop_eq_nil_of_le (by simp; omega)]

def putReg (f : Frame) (nregs i : Nat) (v : Value) : MachineM Unit :=
  if i < nregs then setSlot (f.base + i) v else runtimeFault

def layBlock (f : Frame) (ps : ParamSpec) (nregs : Nat) (opt : Array Value) (blk : Value) (i : Nat) :
    MachineM Unit := do
  putReg f nregs i blk
  for j in [i + 1:nregs] do setSlot (f.base + j) .nil
  if ps.opt > 0 then modifyTop fun f => { f with pc := f.pc + 3 * opt.size }

def layPost (f : Frame) (ps : ParamSpec) (nregs : Nat) (opt post : Array Value) (kw : Option HashTable)
    (blk : Value) (i : Nat) : MachineM Unit := do
  let mut i := i
  for j in [0:ps.post.toNat] do
    putReg f nregs i (post.getD j .nil)
    i := i + 1
  if ps.hasKeywords then
    putReg f nregs i (← liftStore (Store.newHash (kw.getD {})))
    i := i + 1
  layBlock f ps nregs opt blk i

def layFrom (f : Frame) (ps : ParamSpec) (nregs : Nat) (req opt rest post : Array Value)
    (kw : Option HashTable) (blk : Value) : MachineM Unit := do
  let mut i := 1
  for j in [0:ps.req.toNat] do
    putReg f nregs i (req.getD j .nil)
    i := i + 1
  for j in [0:ps.opt.toNat] do
    putReg f nregs i (opt.getD j .nil)
    i := i + 1
  if ps.rest then
    putReg f nregs i (← liftStore (Store.newArray rest))
    i := i + 1
  layPost f ps nregs opt post kw blk i

theorem layParams_eq (f : Frame) (ps : ParamSpec) (req opt rest post : Array Value) (kw : Option HashTable)
    (blk : Value) : layParams f ps req opt rest post kw blk =
      if ps.blockIndex + 1 > f.nregs then do
        growStack (f.base + (ps.blockIndex + 1).toNat)
        modifyTop fun g => { g with nregs := (ps.blockIndex + 1).toNat }
        layFrom f ps (ps.blockIndex + 1).toNat req opt rest post kw blk
      else layFrom f ps f.nregs req opt rest post kw blk := rfl

def withTop (m : Machine) (g : Frame → Frame) : Machine :=
  m.updCurrent fun c => { c with frames := c.frames.modify (c.frames.size - 1) g }

theorem modifyTop_run (g : Frame → Frame) (m : Machine) : (modifyTop g).run m = .ok () (m.withTop g) := rfl

@[simp] theorem stack_withTop (m : Machine) (g : Frame → Frame) : (m.withTop g).stack = m.stack := by
  rw [withTop, stack_updCurrent, stack]
  cases m.contexts[m.current]? <;> rfl

@[simp] theorem store_withTop (m : Machine) (g : Frame → Frame) : (m.withTop g).store = m.store := rfl

theorem top?_withTop (m : Machine) (g : Frame → Frame) : (m.withTop g).top? = m.top?.map g := by
  cases stored : m.contexts[m.current]? with
  | none => simp [withTop, updCurrent, top?, frames, Array.getElem?_modify, stored]
  | some c =>
    simp only [withTop, updCurrent, top?, frames, Array.getElem?_modify, stored, Option.map_some,
      Option.getD_some, Array.back?_eq_getElem?, Array.size_modify, if_true]

section Registers

variable {f : Frame} {nregs : Nat} {m : Machine}

theorem putReg_run {i : Nat} (v : Value) (room : i < nregs) (fits : f.base + nregs ≤ m.stack.size) :
    (putReg f nregs i v).run m = .ok () (m.writeCells (f.base + i) [v]) := by
  rw [putReg, if_pos room]
  exact setSlot_run_of_lt v (by omega)

theorem forIn_putReg (vals : Array Value) (k : Nat) (body : Nat → Nat → MachineM (ForInStep Nat))
    (pass : ∀ j i m, i < nregs → f.base + nregs ≤ m.stack.size →
      (body j i).run m = .ok (.yield (i + 1)) (m.writeCells (f.base + i) [vals.getD j .nil]))
    (i : Nat) (room : i + k ≤ nregs) (fits : f.base + nregs ≤ m.stack.size) :
    (forIn [0:k] i body).run m = .ok (i + k) (m.writeCells (f.base + i) (fillCells k vals.toList)) := by
  rw [Std.Legacy.Range.forIn_eq_forIn_range',
    forIn_writeCells_within (fun j => [vals.getD j .nil]) 1 (fun _ => rfl) body f.base nregs
      (fun j i m below fits => pass j i m (by omega) fits) _ i m (by simp; omega) fits]
  congr 1
  · simp
  · simp [fillCells, List.range_eq_range', ← List.map_eq_flatMap]

theorem forIn_clear (body : Nat → PUnit → MachineM (ForInStep PUnit))
    (pass : ∀ j m, f.base + j < m.stack.size →
      (body j ⟨⟩).run m = .ok (.yield ⟨⟩) (m.writeCells (f.base + j) [.nil]))
    (a n : Nat) (m : Machine) (fits : f.base + a + n ≤ m.stack.size) :
    (forIn (List.range' a n) ⟨⟩ body).run m = .ok ⟨⟩ (m.writeCells (f.base + a) (List.replicate n .nil)) := by
  induction n generalizing a m with
  | zero => simp
  | succ n ih =>
    rw [List.range'_succ, List.forIn_cons, EStateM.run_bind, pass a m (by omega)]
    simp only
    rw [ih (a + 1) _ (by rw [size_stack_writeCells]; omega), List.replicate_succ,
      show f.base + (a + 1) = f.base + a + [Value.nil].length by rfl, ← writeCells_append]
    rfl

end Registers

def skipOptionals (m : Machine) (ps : ParamSpec) (given : Nat) : Machine :=
  if ps.opt > 0 then m.withTop fun g => { g with pc := g.pc + 3 * given } else m

@[simp] theorem stack_skipOptionals (m : Machine) (ps : ParamSpec) (given : Nat) :
    (m.skipOptionals ps given).stack = m.stack := by
  unfold skipOptionals
  split <;> simp

@[simp] theorem store_skipOptionals (m : Machine) (ps : ParamSpec) (given : Nat) :
    (m.skipOptionals ps given).store = m.store := by
  unfold skipOptionals
  split <;> rfl

def withStore (m : Machine) (st : Store) : Machine := { m with store := st }

@[simp] theorem stack_withStore (m : Machine) (st : Store) : (m.withStore st).stack = m.stack := rfl

@[simp] theorem store_withStore (m : Machine) (st : Store) : (m.withStore st).store = st := rfl

@[simp] theorem withStore_store (m : Machine) : m.withStore m.store = m := rfl

theorem writeCells_withStore (m : Machine) (st : Store) (i : Nat) (vs : List Value) :
    (m.withStore st).writeCells i vs = (m.writeCells i vs).withStore st :=
  writeCells_store m st i vs

theorem withStore_withStore (m : Machine) (st st' : Store) : (m.withStore st).withStore st' = m.withStore st' := rfl

theorem writeCells_writeCells (m : Machine) {i j : Nat} (vs ws : List Value) (adjacent : j = i + vs.length) :
    (m.writeCells i vs).writeCells j ws = m.writeCells i (vs ++ ws) := by
  subst adjacent
  rw [writeCells_append]

theorem liftStore_run_ok {α : Type} {x : StoreM α} {m : Machine} {a : α} {st : Store} (ran : x.run m.store = .ok a st) :
    (liftStore x).run m = .ok a (m.withStore st) := by
  rw [liftStore_run, ran]
  rfl

theorem run_bind_of_ok {α β : Type} {x : MachineM α} {g : α → MachineM β} {m m' : Machine} {a : α}
    (ran : x.run m = .ok a m') : (x >>= g).run m = (g a).run m' := by
  rw [EStateM.run_bind, ran]

def KwCells (st : Store) (takes : Bool) (kw : Option HashTable) (cells : List Value) : Prop :=
  if takes then ∃ r, cells = [.obj r] ∧ st.bodyAt r = some (.hash (kw.getD {})) else cells = []

def RestCells (st : Store) (hasRest : Bool) (rest : List Value) (cells : List Value) : Prop :=
  if hasRest then ∃ r, cells = [.obj r] ∧ st.bodyAt r = some (.array rest.toArray) else cells = []

theorem KwCells.length {st : Store} {takes : Bool} {kw : Option HashTable} {cells : List Value}
    (laid : KwCells st takes kw cells) : cells.length = if takes then 1 else 0 := by
  unfold KwCells at laid
  split at laid
  · next takes =>
    obtain ⟨r, rfl, -⟩ := laid
    simp [takes]
  · next plain => simp [laid, plain]

section Layout

variable {f : Frame} {ps : ParamSpec} {nregs : Nat} {m : Machine}

theorem layBlock_run (opt : Array Value) (blk : Value) {i : Nat} (room : i < nregs)
    (fits : f.base + nregs ≤ m.stack.size) :
    (layBlock f ps nregs opt blk i).run m =
      .ok () ((m.writeCells (f.base + i) (blk :: List.replicate (nregs - (i + 1)) .nil)).skipOptionals ps opt.size) := by
  rw [layBlock, EStateM.run_bind, putReg_run blk room fits]
  simp only
  rw [EStateM.run_bind, Std.Legacy.Range.forIn_eq_forIn_range',
    forIn_clear _ (fun j m' room => by rw [EStateM.run_bind, setSlot_run_of_lt .nil room]; rfl) _ _ _
      (by simp; omega)]
  simp only [Std.Legacy.Range.size, Nat.add_sub_cancel, Nat.div_one]
  rw [show f.base + (i + 1) = f.base + i + [blk].length by simp; omega, ← writeCells_append]
  unfold skipOptionals
  split
  · exact modifyTop_run _ _
  · rfl

theorem layPost_run (opt post : Array Value) (kw : Option HashTable) (blk : Value) {i : Nat}
    (room : i + ps.post.toNat + (if ps.hasKeywords then 1 else 0) < nregs) (fits : f.base + nregs ≤ m.stack.size) :
    ∃ kwCells st, (layPost f ps nregs opt post kw blk i).run m =
        .ok () (((m.withStore st).writeCells (f.base + i) (fillCells ps.post.toNat post.toList ++ kwCells ++
          blk :: List.replicate (nregs - (i + ps.post.toNat + kwCells.length + 1)) .nil)).skipOptionals ps opt.size) ∧
      KwCells st ps.hasKeywords kw kwCells ∧ m.store.Extends st := by
  unfold layPost
  rw [run_bind_of_ok (forIn_putReg post ps.post.toNat _ (fun j i m below fits => ?pass) i
    (by split at room <;> omega) fits)]
  case pass =>
    rw [EStateM.run_bind, putReg_run _ below fits]
    rfl
  have placed : f.base + i + (fillCells ps.post.toNat post.toList).length = f.base + (i + ps.post.toNat) := by
    simp; omega
  dsimp only
  split
  · next takes =>
    rw [if_pos takes] at room
    refine ⟨[.obj ⟨m.store.heap.size⟩], _, ?_, ?_,
      Store.extends_push _ { cls := some m.store.core.hash, body := .hash (kw.getD {}) }⟩
    · rw [run_bind_of_ok (liftStore_run_ok (by rw [store_writeCells]; exact newHash_run _ _)),
        run_bind_of_ok (putReg_run _ (by omega) (by simpa using fits)),
        layBlock_run opt blk (by omega) (by simpa using fits), ← writeCells_withStore, ← placed,
        writeCells_append, ← writeCells_append]
      have after : f.base + i + (fillCells ps.post.toNat post.toList ++ [Value.obj ⟨m.store.heap.size⟩]).length =
          f.base + (i + ps.post.toNat + 1) := by
        simp; omega
      rw [after, List.length_singleton]
    · rw [KwCells, if_pos takes]
      exact ⟨_, rfl, bodyAt_push _ _⟩
  · next plain =>
    rw [if_neg plain] at room
    refine ⟨[], m.store, ?_, by rw [KwCells, if_neg plain], Store.Extends.refl _⟩
    rw [layBlock_run opt blk (by omega) (by simpa using fits), ← placed, ← writeCells_append]
    simp

theorem layFrom_run (req opt rest post : Array Value) (kw : Option HashTable) (blk : Value)
    (counted : ps.Counted) (room : ps.blockIndex < nregs) (fits : f.base + nregs ≤ m.stack.size) :
    ∃ restCells kwCells st, (layFrom f ps nregs req opt rest post kw blk).run m =
        .ok () (((m.withStore st).writeCells (f.base + 1)
          ((Binding.mk req.toList opt.toList rest.toList post.toList).cells ps.req.toNat ps.opt.toNat ps.post.toNat
            restCells kwCells blk ++ List.replicate (nregs - (ps.blockIndex + 1).toNat) .nil)).skipOptionals
          ps opt.size) ∧
      RestCells st ps.rest rest.toList restCells ∧ KwCells st ps.hasKeywords kw kwCells ∧ m.store.Extends st := by
  have sizes := counted.blockIndex_eq
  unfold layFrom
  rw [run_bind_of_ok (forIn_putReg req ps.req.toNat _ (fun j i m below fits => ?passReq) 1 (by omega) fits)]
  case passReq =>
    rw [EStateM.run_bind, putReg_run _ below fits]
    rfl
  dsimp only
  have fitsReq : f.base + nregs ≤ (m.writeCells (f.base + 1) (fillCells ps.req.toNat req.toList)).stack.size := by
    simpa using fits
  rw [run_bind_of_ok (forIn_putReg opt ps.opt.toNat _ (fun j i m below fits => ?passOpt) (1 + ps.req.toNat)
    (by omega) fitsReq)]
  case passOpt =>
    rw [EStateM.run_bind, putReg_run _ below fits]
    rfl
  have fitsOpt : f.base + nregs ≤ ((m.writeCells (f.base + 1) (fillCells ps.req.toNat req.toList)).writeCells
      (f.base + (1 + ps.req.toNat)) (fillCells ps.opt.toNat opt.toList)).stack.size := by
    simpa using fits
  split
  · next hasRest =>
    rw [if_pos hasRest] at sizes
    rw [run_bind_of_ok (liftStore_run_ok (by rw [store_writeCells, store_writeCells]; exact newArray_run _ _)),
      run_bind_of_ok (putReg_run _ (by omega) (by simpa using fitsOpt))]
    have roomPost : 1 + ps.req.toNat + ps.opt.toNat + 1 + ps.post.toNat + (if ps.hasKeywords then 1 else 0) < nregs := by
      omega
    have fitsPost : f.base + nregs ≤ ((((m.writeCells (f.base + 1) (fillCells ps.req.toNat req.toList)).writeCells
        (f.base + (1 + ps.req.toNat)) (fillCells ps.opt.toNat opt.toList)).withStore
          { m.store with heap := m.store.heap.push { cls := some m.store.core.array, body := .array rest } }).writeCells
        (f.base + (1 + ps.req.toNat + ps.opt.toNat)) [.obj ⟨m.store.heap.size⟩]).stack.size := by
      simpa using fits
    obtain ⟨kwCells, st, ran, kwOk, grown⟩ := layPost_run opt post kw blk roomPost fitsPost
    refine ⟨[.obj ⟨m.store.heap.size⟩], kwCells, st, ?_, ?_, kwOk, ?_⟩
    · rw [ran]
      simp (disch := simp; omega) only [← writeCells_withStore, withStore_withStore, writeCells_writeCells]
      have count : nregs - (1 + ps.req.toNat + ps.opt.toNat + 1 + ps.post.toNat + kwCells.length + 1) =
          nregs - (ps.blockIndex + 1).toNat := by
        rw [kwOk.length]
        omega
      simp only [count, Binding.cells, List.append_assoc, List.cons_append, List.nil_append]
    · rw [RestCells, if_pos hasRest]
      exact ⟨_, rfl, grown.bodyAt (by simpa using bodyAt_push _ _)⟩
    · exact (Store.extends_push _ _).trans (by simpa using grown)
  · next noRest =>
    rw [if_neg noRest] at sizes
    have roomPost : 1 + ps.req.toNat + ps.opt.toNat + ps.post.toNat + (if ps.hasKeywords then 1 else 0) < nregs := by
      omega
    obtain ⟨kwCells, st, ran, kwOk, grown⟩ := layPost_run opt post kw blk roomPost fitsOpt
    refine ⟨[], kwCells, st, ?_, by rw [RestCells, if_neg noRest], kwOk, by simpa using grown⟩
    rw [ran]
    simp (disch := simp; omega) only [← writeCells_withStore, writeCells_writeCells]
    have count : nregs - (1 + ps.req.toNat + ps.opt.toNat + ps.post.toNat + kwCells.length + 1) =
        nregs - (ps.blockIndex + 1).toNat := by
      rw [kwOk.length]
      omega
    simp only [count, Binding.cells, List.append_assoc, List.cons_append, List.nil_append]

end Layout

def ParamsLaid (m : Machine) (base : Nat) (ps : ParamSpec) (b : Binding) (kw : Option HashTable) (blk : Value) :
    Prop :=
  ∃ restCells kwCells, Laid m (base + 1) (b.cells ps.req.toNat ps.opt.toNat ps.post.toNat restCells kwCells blk) ∧
    RestCells m.store ps.rest b.rest restCells ∧ KwCells m.store ps.hasKeywords kw kwCells

theorem RestCells.length {st : Store} {hasRest : Bool} {rest cells : List Value}
    (laid : RestCells st hasRest rest cells) : cells.length = if hasRest then 1 else 0 := by
  unfold RestCells at laid
  split at laid
  · next present =>
    obtain ⟨r, rfl, -⟩ := laid
    simp [present]
  · next absent => simp [laid, absent]

theorem length_cells (b : Binding) (r o p : Nat) (restCells kwCells : List Value) (blk : Value) :
    (b.cells r o p restCells kwCells blk).length = r + o + restCells.length + p + kwCells.length + 1 := by
  simp [Binding.cells]
  omega

theorem Laid.of_stack {m m' : Machine} {i : Nat} {vs : List Value} (same : m'.stack = m.stack) (laid : Laid m i vs) :
    Laid m' i vs := fun j below => by rw [same]; exact laid j below

theorem Laid.unique {m : Machine} {i : Nat} {vs ws : List Value} (first : Laid m i vs) (second : Laid m i ws)
    (sized : vs.length = ws.length) : vs = ws :=
  List.ext_getElem? fun j => by
    by_cases below : j < vs.length
    · rw [← first j below, second j (sized ▸ below)]
    · rw [List.getElem?_eq_none (by omega), List.getElem?_eq_none (by omega)]

theorem paramsLaid_documented_iff {m : Machine} {base : Nat} {ps : ParamSpec} {args : List Value}
    {kw : Option HashTable} {blk : Value} (laid : ParamsLaid m base ps (ps.enterBinding args) kw blk) :
    ParamsLaid m base ps (ps.documentedBinding args) kw blk ↔ ps.BindsAsDocumented args := by
  obtain ⟨restCells, kwCells, cells, restOk, kwOk⟩ := laid
  have sameRest : ps.rest = true → ps.documentedBinding args = ps.enterBinding args := fun rest => by
    simp [documentedBinding, rest]
  constructor
  · rintro ⟨restCells', kwCells', cells', restOk', kwOk'⟩
    cases rest : ps.rest with
    | true => exact Or.inl rest
    | false =>
      -- no rest array: the registers differ at most in the post parameters
      have none : restCells = [] := by simpa [RestCells, rest] using restOk
      have none' : restCells' = [] := by simpa [RestCells, rest] using restOk'
      subst none none'
      have same := Laid.unique cells' cells (by simp [length_cells, kwOk.length, kwOk'.length])
      exact (bindArgs_agrees_iff ps args [] kwCells blk).mp
        (cells_eq_of_kwCells same (by rw [kwOk.length, kwOk'.length]))
  · intro agrees
    refine ⟨restCells, kwCells, ?_, ?_, kwOk⟩
    · rw [(bindArgs_agrees_iff ps args restCells kwCells blk).mpr agrees]
      exact cells
    · cases rest : ps.rest with
      | true => rwa [sameRest rest, ← rest]
      | false => simpa [RestCells, rest] using restOk

theorem live_of_top {m : Machine} {f : Frame} (top : m.top? = some f) : m.current < m.contexts.size := by
  by_contra outside
  simp [top?, frames, Array.getElem?_eq_none (Nat.le_of_not_lt outside)] at top

@[simp] theorem top?_writeCells (m : Machine) (i : Nat) (vs : List Value) : (m.writeCells i vs).top? = m.top? := by
  induction vs generalizing m i with
  | nil => rfl
  | cons v vs ih => rw [writeCells, ih, top?_withSlot]

@[simp] theorem top?_withStore (m : Machine) (st : Store) : (m.withStore st).top? = m.top? := rfl

@[simp] theorem mode_writeCells (m : Machine) (i : Nat) (vs : List Value) : (m.writeCells i vs).mode = m.mode := by
  induction vs generalizing m i with
  | nil => rfl
  | cons v vs ih => exact ih _ _

@[simp] theorem mode_skipOptionals (m : Machine) (ps : ParamSpec) (given : Nat) :
    (m.skipOptionals ps given).mode = m.mode := by
  unfold skipOptionals
  split <;> rfl

theorem top?_skipOptionals (m : Machine) (ps : ParamSpec) (given : Nat) :
    (m.skipOptionals ps given).top? =
      if ps.opt > 0 then m.top?.map fun g => { g with pc := g.pc + 3 * given } else m.top? := by
  unfold skipOptionals
  split
  · exact top?_withTop _ _
  · rfl

section Laying

variable {f : Frame} {ps : ParamSpec} {m : Machine}

theorem paramsLaid_of_layFrom {nregs : Nat} (req opt rest post : Array Value) (kw : Option HashTable) (blk : Value)
    (counted : ps.Counted) (room : ps.blockIndex < nregs) (fits : f.base + nregs ≤ m.stack.size) :
    ∃ m', (layFrom f ps nregs req opt rest post kw blk).run m = .ok () m' ∧
      ParamsLaid m' f.base ps ⟨req.toList, opt.toList, rest.toList, post.toList⟩ kw blk ∧
      m'.top? = (if ps.opt > 0 then m.top?.map fun g => { g with pc := g.pc + 3 * opt.size } else m.top?) ∧
      m.store.Extends m'.store ∧ m'.mode = m.mode := by
  obtain ⟨restCells, kwCells, st, ran, restOk, kwOk, grown⟩ := layFrom_run req opt rest post kw blk counted room fits
  refine ⟨_, ran, ⟨restCells, kwCells, ?_, by simpa using restOk, by simpa using kwOk⟩, ?_, by simpa using grown, ?_⟩
  · have sizes := counted.blockIndex_eq
    have whole := laid_writeCells (m.withStore st) (f.base + 1)
      ((Binding.mk req.toList opt.toList rest.toList post.toList).cells ps.req.toNat ps.opt.toNat ps.post.toNat
        restCells kwCells blk ++ List.replicate (nregs - (ps.blockIndex + 1).toNat) .nil)
      (by simp only [List.length_append, length_cells, List.length_replicate, restOk.length, kwOk.length,
          stack_withStore]
          omega)
    exact (laid_append.mp whole).1.of_stack (by simp)
  · rw [top?_skipOptionals, top?_writeCells, top?_withStore]
  · simp only [mode_skipOptionals, mode_writeCells]
    rfl

theorem layParams_run (req opt rest post : Array Value) (kw : Option HashTable) (blk : Value)
    (counted : ps.Counted) (top : m.top? = some f) (fits : f.base + f.nregs ≤ m.stack.size) :
    ∃ m', (layParams f ps req opt rest post kw blk).run m = .ok () m' ∧
      ParamsLaid m' f.base ps ⟨req.toList, opt.toList, rest.toList, post.toList⟩ kw blk ∧
      m'.top? = some { f with
        nregs := max f.nregs (ps.blockIndex + 1).toNat
        pc := if ps.opt > 0 then f.pc + 3 * opt.size else f.pc } ∧
      m.store.Extends m'.store ∧ m'.mode = m.mode := by
  rw [layParams_eq]
  split
  · next grows =>
    -- the frame is too small: the stack grows and the frame records its new register count
    obtain ⟨m₀, grow, store₀, size₀, frames₀, mode₀⟩ := growStack_run (f.base + (ps.blockIndex + 1).toNat) m
    have top₀ : m₀.top? = m.top? := by simp only [top?, frames₀]
    have room : ps.blockIndex < ((ps.blockIndex + 1).toNat : Int) := by omega
    obtain ⟨m', ran, laid, top', grown, mode'⟩ := paramsLaid_of_layFrom
      (m := m₀.withTop fun g => { g with nregs := (ps.blockIndex + 1).toNat }) req opt rest post kw blk counted
      room (by simpa using size₀ (live_of_top top))
    refine ⟨m', by rw [run_bind_of_ok grow, run_bind_of_ok (modifyTop_run _ _), ran], laid, ?_,
      by simpa [store₀] using grown, by rw [mode', ← mode₀]; rfl⟩
    rw [top', top?_withTop, top₀, top, Nat.max_eq_right (by omega)]
    split <;> rfl
  · next fitsIn =>
    obtain ⟨m', ran, laid, top', grown, mode'⟩ := paramsLaid_of_layFrom req opt rest post kw blk counted
      (by omega) fits
    refine ⟨m', ran, laid, ?_, grown, mode'⟩
    rw [top', top, Nat.max_eq_left (by omega)]
    split <;> rfl

end Laying

theorem frameProc_run {f : Frame} {p : ObjRef} {body : Procedure} {d : ProcData} {m : Machine}
    (code : f.code = .compiled p body) (proc : m.store.bodyAt p = some (.proc d)) : (frameProc f).run m = .ok d m := by
  obtain ⟨o, stored, shape⟩ : ∃ o, m.store.heap[p.idx]? = some o ∧ o.body = .proc d := by
    simpa [Store.bodyAt] using proc
  simp only [frameProc, code, procOf?, EStateM.run_bind, liftStore_run, Store.procOf?, Store.getObj, EStateM.run_get,
    stored]
  cases o with
  | mk _ _ _ _ b =>
    subst shape
    rfl

theorem spread_run {st : Store} {v : Value} (named : st.Names v) :
    ∃ found, (Store.arrayOf? v).run st = .ok found st ∧
      spread st [v] = (match found with | some es => es | none => #[v]).toList := by
  cases v with
  | obj r =>
    obtain ⟨o, stored⟩ : ∃ o, st.heap[r.idx]? = some o := ⟨_, Array.getElem?_eq_getElem named⟩
    simp only [Store.arrayOf?, EStateM.run_bind, Store.getObj, EStateM.run_get, stored]
    cases o with
    | mk _ _ _ _ b => cases b <;> exact ⟨_, rfl, by simp [spread, Store.bodyAt, stored]⟩
  | _ => exact ⟨none, rfl, rfl⟩

theorem spreadStep_run {f : Frame} {p : ObjRef} {body : Procedure} {d : ProcData} {m : Machine}
    (code : f.code = .compiled p body) (proc : m.store.bodyAt p = some (.proc d)) (ps : ParamSpec)
    (args : Array Value) (kw : Option HashTable) (blk : Value)
    (lone : ps.Spreads d.strict args.size → ∃ v, args = #[v] ∧ m.store.Names v) :
    (do
      let d ← frameProc f
      if (!d.strict && args.size == 1 &&
          (decide (ps.req + ps.opt + ps.post > 1) || ps.rest && decide (ps.req + ps.opt + ps.post > 0))) = true then
        do
        let found ← liftStore (Store.arrayOf? (args.getD 0 .nil))
        match found with
        | some es => pure (es, kw, blk, d.strict)
        | _ => pure (args, kw, blk, d.strict)
      else pure (args, kw, blk, d.strict) : MachineM (Array Value × Option HashTable × Value × Bool)).run m =
      .ok ((if ps.Spreads d.strict args.size then spread m.store args.toList else args.toList).toArray,
        kw, blk, d.strict) m := by
  rw [run_bind_of_ok (frameProc_run code proc)]
  by_cases spreads : ps.Spreads d.strict args.size
  · obtain ⟨v, rfl, named⟩ := lone spreads
    obtain ⟨found, ran, same⟩ := spread_run named
    rw [if_pos spreads, if_pos (by simpa [Spreads] using spreads), show (#[v] : Array Value).getD 0 .nil = v from rfl,
      run_bind_of_ok (liftStore_run_ok ran), withStore_store, show (#[v] : Array Value).toList = [v] from rfl, same]
    cases found <;> rfl
  · rw [if_neg spreads, if_neg (by simpa [Spreads] using spreads)]
    simp

theorem gatherArgs_run {f : Frame} {p : ObjRef} {body : Procedure} {d : ProcData} {m : Machine}
    {args : Array Value} {kw : Option HashTable} {blk : Value} (code : f.code = .compiled p body)
    (proc : m.store.bodyAt p = some (.proc d)) (named : ∀ v ∈ args, m.store.Names v)
    (raw : (rawArgs f.base f.argc f.kwc).run m = .ok (args, kw, blk) m) (ps : ParamSpec) :
    ∃ st, (gatherArgs f ps).run m =
        .ok ((ps.passedArgs d.strict m.store args.toList kw (.obj ⟨m.store.heap.size⟩)).toArray,
          (if ps.hasKeywords then kw else none), blk, d.strict) (m.withStore st) ∧ m.store.Extends st := by
  unfold gatherArgs
  rw [run_bind_of_ok raw]
  dsimp only
  have size_one : ∀ (xs : Array Value), ps.Spreads d.strict xs.size → xs.size = 1 := fun xs spreads => by
    simp only [Spreads, Bool.and_eq_true, beq_iff_eq] at spreads
    exact spreads.1.2
  -- without demoted keywords the arguments are those of the call
  have plain : ∀ kw', (do
      let d ← frameProc f
      if (!d.strict && args.size == 1 &&
          (decide (ps.req + ps.opt + ps.post > 1) || ps.rest && decide (ps.req + ps.opt + ps.post > 0))) = true then
        do
        let found ← liftStore (Store.arrayOf? (args.getD 0 .nil))
        match found with
        | some es => pure (es, kw', blk, d.strict)
        | _ => pure (args, kw', blk, d.strict)
      else pure (args, kw', blk, d.strict) : MachineM (Array Value × Option HashTable × Value × Bool)).run m =
      .ok ((if ps.Spreads d.strict args.size then spread m.store args.toList else args.toList).toArray,
        kw', blk, d.strict) m := fun kw' => by
    refine spreadStep_run code proc ps args kw' blk fun spreads => ?_
    obtain ⟨v, single⟩ := Array.size_eq_one_iff.mp (size_one args spreads)
    exact ⟨v, single, named v (by simp [single])⟩
  cases takes : ps.hasKeywords with
  | false =>
    cases kw with
    | none =>
      refine ⟨m.store, ?_, Store.Extends.refl _⟩
      rw [if_pos (by decide)]
      refine (plain none).trans ?_
      simp [passedArgs, demoted, takes]
    | some t =>
      -- the keywords become a new hash, passed last
      let hash : Obj := { cls := some m.store.core.hash, body := .hash t }
      have grown := Store.extends_push m.store hash
      refine ⟨{ m.store with heap := m.store.heap.push hash }, ?_, grown⟩
      rw [if_pos (by decide)]
      refine (run_bind_of_ok (liftStore_run_ok (newHash_run t m.store))).trans
        ((spreadStep_run (m := m.withStore _) code (grown.bodyAt proc) ps _ none blk fun spreads => ?_).trans ?_)
      · obtain ⟨v, single⟩ := Array.size_eq_one_iff.mp (size_one _ spreads)
        refine ⟨v, single, ?_⟩
        have last : (args.push (.obj ⟨m.store.heap.size⟩)).back? = some v := by rw [single]; rfl
        rw [Array.back?_push] at last
        cases last
        show m.store.heap.size < (m.store.heap.push hash).size
        simp
      · have fresh : spread { m.store with heap := m.store.heap.push hash } [.obj ⟨m.store.heap.size⟩] =
            spread m.store [.obj ⟨m.store.heap.size⟩] := by
          simp [spread, Store.bodyAt, hash]
        congr 1
        simp only [Prod.mk.injEq, passedArgs, demoted, takes, Bool.not_false, Option.isSome_some, Bool.and_self,
          if_true, Array.toList_push, Array.size_push, List.length_append, Array.length_toList, List.length_singleton]
        refine ⟨?_, rfl, trivial⟩
        by_cases spreads : ps.Spreads d.strict (args.size + 1)
        · have empty : args = #[] := by
            have one := size_one (args.push (.obj ⟨m.store.heap.size⟩)) (by simpa using spreads)
            simp only [Array.size_push, Nat.add_eq_right] at one
            exact Array.eq_empty_of_size_eq_zero one
          subst empty
          simp only [spreads, if_true, List.nil_append, store_withStore]
          exact congrArg List.toArray fresh
        · simp only [spreads, Bool.false_eq_true, if_false]
  | true =>
    refine ⟨m.store, ?_, Store.Extends.refl _⟩
    rw [if_neg (by decide)]
    refine (plain kw).trans ?_
    simp [passedArgs, demoted, takes]

structure Entered (m : Machine) (f : Frame) (ps : ParamSpec) (b : Binding) (kw : Option HashTable) (blk : Value) :
    Prop where
  laid : ParamsLaid m f.base ps b kw blk
  frame : m.top? = some { f with
    nregs := max f.nregs (ps.blockIndex + 1).toNat
    pc := if ps.opt > 0 then f.pc + 3 * b.opt.length else f.pc }
  running : m.mode = .run

theorem KwCells.of_given {st : Store} {takes : Bool} {kw : Option HashTable} {cells : List Value}
    (laid : KwCells st takes (if takes then kw else none) cells) : KwCells st takes kw cells := by
  cases takes <;> simpa [KwCells] using laid

theorem enterParams_run {m : Machine} {f : Frame} {p : ObjRef} {body : Procedure} {d : ProcData}
    {args : Array Value} {kw : Option HashTable} {blk : Value} (top : m.top? = some f)
    (code : f.code = .compiled p body) (proc : m.store.bodyAt p = some (.proc d)) (counted : body.params.Counted)
    (fits : f.base + f.nregs ≤ m.stack.size) (named : ∀ v ∈ args, m.store.Names v)
    (raw : (rawArgs f.base f.argc f.kwc).run m = .ok (args, kw, blk) m) :
    let passed := body.params.passedArgs d.strict m.store args.toList kw (.obj ⟨m.store.heap.size⟩)
    if d.strict = true ∧ ¬body.params.Admits passed.length then
      ∃ st, (enterParams f body).run m =
        (newErr (·.argumentError) (body.params.arityMessage passed.length) >>= unwind).run (m.withStore st)
    else ∃ m', (enterParams f body).run m = .ok () m' ∧
      Entered m' f body.params (body.params.enterBinding passed) kw blk := by
  intro passed
  obtain ⟨st, gathered, -⟩ := gatherArgs_run code proc named raw body.params
  unfold enterParams
  rw [run_bind_of_ok gathered]
  dsimp only
  have check : (d.strict && (decide ((passed.toArray.size : Int) < body.params.req + body.params.post) ||
      !body.params.rest && decide ((passed.toArray.size : Int) > body.params.req + body.params.opt + body.params.post))) =
        true ↔ d.strict = true ∧ ¬body.params.Admits passed.length := by
    simp only [List.size_toArray, Admits, Bool.and_eq_true, Bool.or_eq_true, decide_eq_true_eq, Bool.not_eq_true']
    cases body.params.rest
    · simp
      omega
    · simp
  by_cases refused : d.strict = true ∧ ¬body.params.Admits passed.length
  · rw [if_pos refused, if_pos (check.mpr refused)]
    refine ⟨st, ?_⟩
    simp only [List.size_toArray]
    rfl
  · rw [if_neg refused, if_neg (fun h => refused (check.mp h)), splitArgs_eq counted, pure_bind]
    obtain ⟨m', laidOut, laid, top', -, -⟩ := layParams_run (m := m.withStore st) (f := f)
      (body.params.enterBinding passed).req.toArray (body.params.enterBinding passed).opt.toArray
      (body.params.enterBinding passed).rest.toArray (body.params.enterBinding passed).post.toArray
      (if body.params.hasKeywords then kw else none) blk counted top fits
    refine ⟨{ m' with mode := .run }, by rw [run_bind_of_ok laidOut]; rfl, ⟨?_, ?_, rfl⟩⟩
    · obtain ⟨restCells, kwCells, cells, restOk, kwOk⟩ := laid
      exact ⟨restCells, kwCells, cells, restOk, KwCells.of_given kwOk⟩
    · rw [List.size_toArray] at top'
      exact top'

theorem Entered.documented_iff {m : Machine} {f : Frame} {ps : ParamSpec} {args : List Value}
    {kw : Option HashTable} {blk : Value} (entered : Entered m f ps (ps.enterBinding args) kw blk) :
    Entered m f ps (ps.documentedBinding args) kw blk ↔ ps.BindsAsDocumented args := by
  constructor
  · intro documented
    exact (paramsLaid_documented_iff entered.laid).mp documented.laid
  · intro agrees
    refine ⟨(paramsLaid_documented_iff entered.laid).mpr agrees, ?_, entered.running⟩
    rw [documentedBinding_opt]
    exact entered.frame

theorem enter_binding_documented_iff {m : Machine} {f : Frame} {p : ObjRef} {body : Procedure}
    {d : ProcData} {args : Array Value} {kw : Option HashTable} {blk : Value} (top : m.top? = some f)
    (code : f.code = .compiled p body) (proc : m.store.bodyAt p = some (.proc d)) (counted : body.params.Counted)
    (fits : f.base + f.nregs ≤ m.stack.size) (named : ∀ v ∈ args, m.store.Names v)
    (raw : (rawArgs f.base f.argc f.kwc).run m = .ok (args, kw, blk) m) :
    let passed := body.params.passedArgs d.strict m.store args.toList kw (.obj ⟨m.store.heap.size⟩)
    if d.strict = true ∧ ¬body.params.Admits passed.length then
      ∃ st, (enterParams f body).run m =
        (newErr (·.argumentError) (body.params.arityMessage passed.length) >>= unwind).run (m.withStore st)
    else ∃ m', (enterParams f body).run m = .ok () m' ∧
      Entered m' f body.params (body.params.enterBinding passed) kw blk ∧
      (Entered m' f body.params (body.params.documentedBinding passed) kw blk ↔
        body.params.BindsAsDocumented passed) := by
  intro passed
  have ran := enterParams_run top code proc counted fits named raw
  split
  · next refused => rwa [if_pos refused] at ran
  · next admitted =>
    rw [if_neg admitted] at ran
    obtain ⟨m', run, entered⟩ := ran
    exact ⟨m', run, entered, entered.documented_iff⟩

theorem enter_binding_three_arguments :
    let body : Procedure := { params := { req := 1, opt := 1, post := 1 } }
    let f : Frame :=
      { serial := 0, base := 0, nregs := 5, code := .compiled ⟨0⟩ body, argc := 3, kwc := 0,
        kind := default, mid := default, owner := none, acc := 0, blk := .nil }
    let m : Machine :=
      { store := { heap := #[{ cls := none, body := .proc { code := .compiled body } }] },
        contexts := #[{ stack := #[.nil, .int 1, .int 5, .int 3, .nil], frames := #[f] }] }
    ∃ m', (enterParams f body).run m = .ok () m' ∧
      Entered m' f body.params (body.params.documentedBinding [.int 1, .int 5, .int 3]) none .nil := by
  intro body f m
  have top : m.top? = some f := rfl
  have code : f.code = .compiled ⟨0⟩ body := rfl
  have proc : m.store.bodyAt ⟨0⟩ = some (.proc { code := .compiled body }) := rfl
  have counted : body.params.Counted := ⟨by decide, by decide, by decide⟩
  have fits : f.base + f.nregs ≤ m.stack.size := by decide
  have named : ∀ v ∈ #[Value.int 1, .int 5, .int 3], m.store.Names v := by
    intro v member
    simp only [List.mem_toArray, List.mem_cons, List.not_mem_nil, or_false] at member
    rcases member with rfl | rfl | rfl <;> trivial
  have raw : (rawArgs f.base f.argc f.kwc).run m = .ok (#[.int 1, .int 5, .int 3], none, .nil) m := rfl
  have ran := enter_binding_documented_iff top code proc counted fits named raw
  dsimp only at ran
  rw [if_neg (by decide)] at ran
  obtain ⟨m', run, -, documented⟩ := ran
  exact ⟨m', run, documented.mpr (Or.inr (Or.inl (by decide)))⟩

theorem enter_post_takes_last_argument :
    let body : Procedure := { params := { req := 1, opt := 1, post := 1 } }
    let f : Frame :=
      { serial := 0, base := 0, nregs := 5, code := .compiled ⟨0⟩ body, argc := 4, kwc := 0,
        kind := default, mid := default, owner := none, acc := 0, blk := .nil }
    let m : Machine :=
      { store := { heap := #[{ cls := none, body := .proc { code := .compiled body } }] },
        contexts := #[{ stack := #[.nil, .int 1, .int 5, .int 3, .int 9, .nil], frames := #[f] }] }
    ∃ m', (enterParams f body).run m = .ok () m' ∧ m'.stack[3]? = some (.int 9) := by
  intro body f m
  have top : m.top? = some f := rfl
  have code : f.code = .compiled ⟨0⟩ body := rfl
  have proc : m.store.bodyAt ⟨0⟩ = some (.proc { code := .compiled body }) := rfl
  have counted : body.params.Counted := ⟨by decide, by decide, by decide⟩
  have fits : f.base + f.nregs ≤ m.stack.size := by decide
  have named : ∀ v ∈ #[Value.int 1, .int 5, .int 3, .int 9], m.store.Names v := by
    intro v member
    simp only [List.mem_toArray, List.mem_cons, List.not_mem_nil, or_false] at member
    rcases member with rfl | rfl | rfl | rfl <;> trivial
  have raw : (rawArgs f.base f.argc f.kwc).run m = .ok (#[.int 1, .int 5, .int 3, .int 9], none, .nil) m := rfl
  have ran := enterParams_run top code proc counted fits named raw
  dsimp only at ran
  rw [if_neg (by decide)] at ran
  obtain ⟨m', run, entered⟩ := ran
  obtain ⟨restCells, kwCells, cells, noRest, noKw⟩ := entered.laid
  -- neither a rest array nor a keyword dict: the registers are the four parameters and the block
  have noRest : restCells = [] := noRest
  have noKw : kwCells = [] := noKw
  subst noRest noKw
  have third := cells 2 (by decide)
  exact ⟨m', run, third.trans (by decide)⟩

end Machine

end RegisterVM
