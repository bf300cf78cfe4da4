import RegisterVM.Native.Dispatch
import RegisterVM.Proofs.Native.Environments
import RegisterVM.Proofs.Numeric.Overflow

set_option autoImplicit false

namespace RegisterVM

def intsBetween (lo hi : Int) : List Int64 :=
  (List.range (hi + 1 - lo).toNat).map fun (i : Nat) => Int64.ofInt (lo + i)

@[simp] theorem length_intsBetween (lo hi : Int) : (intsBetween lo hi).length = (hi + 1 - lo).toNat := by
  simp [intsBetween]

theorem intsBetween_of_lt {lo hi : Int} (empty : hi < lo) : intsBetween lo hi = [] := by
  simp [intsBetween, show (hi + 1 - lo).toNat = 0 by omega]

theorem intsBetween_cons {lo hi : Int} (nonempty : lo ≤ hi) :
    intsBetween lo hi = Int64.ofInt lo :: intsBetween (lo + 1) hi := by
  obtain ⟨n, count⟩ : ∃ n, (hi + 1 - lo).toNat = n + 1 := ⟨(hi - lo).toNat, by omega⟩
  have rest : (hi + 1 - (lo + 1)).toNat = n := by omega
  rw [intsBetween, intsBetween, count, rest, List.range_succ_eq_map, List.map_cons, List.map_map]
  congr 1
  · congr 1
    omega
  · refine List.map_congr_left fun i _ => ?_
    rw [Function.comp_apply]
    congr 1
    omega

theorem intsBetween_concat {lo hi : Int} (nonempty : lo ≤ hi) :
    intsBetween lo hi = intsBetween lo (hi - 1) ++ [Int64.ofInt hi] := by
  obtain ⟨n, count⟩ : ∃ n, (hi + 1 - lo).toNat = n + 1 := ⟨(hi - lo).toNat, by omega⟩
  have rest : (hi - 1 + 1 - lo).toNat = n := by omega
  rw [intsBetween, intsBetween, count, rest, List.range_succ, List.map_append, List.map_singleton,
    show lo + (n : Int) = hi by omega]

theorem toInt_ofInt_of_fits {z : Int} (fits : -2 ^ 63 ≤ z ∧ z < 2 ^ 63) : (Int64.ofInt z).toInt = z := by
  rw [Int64.toInt_ofInt]
  exact Numeric.bmod_eq_of_fits fits

theorem toInt_succ {k : Int64} (notMax : k ≠ Int64.maxValue) : (k + 1).toInt = k.toInt + 1 := by
  have below : k.toInt ≠ 2 ^ 63 - 1 := fun same =>
    notMax (Int64.toInt_inj.1 (same.trans Int64.toInt_maxValue.symm))
  have := Int64.toInt_lt k
  rw [Int64.toInt_add, Int64.toInt_one, Numeric.bmod_eq_of_fits (by have := Int64.le_toInt k; omega)]

theorem toInt_pred {k : Int64} (notMin : k ≠ Int64.minValue) : (k - 1).toInt = k.toInt - 1 := by
  have above : k.toInt ≠ -2 ^ 63 := fun same =>
    notMin (Int64.toInt_inj.1 (same.trans Int64.toInt_minValue.symm))
  have := Int64.le_toInt k
  rw [Int64.toInt_sub, Int64.toInt_one, Numeric.bmod_eq_of_fits (by have := Int64.toInt_lt k; omega)]

theorem mem_intsBetween {lo hi : Int} {k : Int64} (fromWord : -2 ^ 63 ≤ lo) (toWord : hi < 2 ^ 63) :
    k ∈ intsBetween lo hi ↔ lo ≤ k.toInt ∧ k.toInt ≤ hi := by
  simp only [intsBetween, List.mem_map, List.mem_range]
  constructor
  · rintro ⟨i, below, rfl⟩
    rw [toInt_ofInt_of_fits (by omega)]
    omega
  · rintro ⟨above, below⟩
    refine ⟨(k.toInt - lo).toNat, by omega, ?_⟩
    rw [show lo + ((k.toInt - lo).toNat : Int) = k.toInt by omega, Int64.ofInt_toInt]

theorem intsBetween_sorted {lo hi : Int} (fromWord : -2 ^ 63 ≤ lo) (toWord : hi < 2 ^ 63) :
    (intsBetween lo hi).Pairwise (· < ·) := by
  simp only [intsBetween, List.pairwise_map]
  refine List.Pairwise.imp_of_mem ?_ List.pairwise_lt_range
  intro i j iIn jIn lt
  simp only [List.mem_range] at iIn jIn
  rw [Int64.lt_iff_toInt_lt, toInt_ofInt_of_fits (by omega), toInt_ofInt_of_fits (by omega)]
  omega

def rangeInts (first last : Int64) (excl : Bool) : List Int64 :=
  intsBetween first.toInt (if excl then last.toInt - 1 else last.toInt)

theorem mem_rangeInts {first last k : Int64} {excl : Bool} :
    k ∈ rangeInts first last excl ↔ first ≤ k ∧ if excl then k < last else k ≤ last := by
  have top := Int64.toInt_lt last
  rw [rangeInts, mem_intsBetween (Int64.le_toInt first) (by split <;> omega)]
  cases excl with
  | false => simp [Int64.le_iff_toInt_le]
  | true => simp only [Int64.le_iff_toInt_le, Int64.lt_iff_toInt_lt, if_true]; omega

theorem rangeInts_sorted (first last : Int64) (excl : Bool) : (rangeInts first last excl).Pairwise (· < ·) :=
  have top := Int64.toInt_lt last
  intsBetween_sorted (Int64.le_toInt first) (by split <;> omega)

example : rangeInts 1 4 true = [1, 2, 3] := by decide

namespace Native

open Machine

section Running

variable (m : Machine) {s : Store} {call : NativeCall}

theorem pure_inj {α : Type} {a b : α} (same : (pure a : NativeM α) = pure b) : a = b := by
  have ran := congrArg (fun x : NativeM α => (x.run.run default).run (default : Store)) same
  change EStateM.Result.ok (Except.ok a) default = EStateM.Result.ok (Except.ok b) default at ran
  injection ran with ran
  injection ran

theorem objOf_run {r : ObjRef} {o : Obj} (found : s.heap[r.idx]? = some o) :
    ((objOf (.obj r)).run.run m).run s = .ok (.ok (r, o)) s := by
  have getting : ((store (Store.getObj r)).run.run m).run s = .ok (.ok o) s := by
    rw [store_run, Store.getObj_run, found]
  rw [objOf, bind_run_of_ok m getting]
  rfl

theorem intBounds_run {r : ObjRef} {first last : Int64} {excl : Bool}
    (range : s.bodyAt r = some (.range (.int first) (.int last) excl)) :
    ((intBounds (.obj r)).run.run m).run s = .ok (.ok (first, if excl then last - 1 else last)) s := by
  obtain ⟨o, found, body⟩ : ∃ o, s.heap[r.idx]? = some o ∧ o.body = .range (.int first) (.int last) excl := by
    simpa [Store.bodyAt] using range
  have parts : ((rangeParts (.obj r)).run.run m).run s = .ok (.ok (.int first, .int last, excl)) s := by
    rw [rangeParts, bind_run_of_ok m (objOf_run m found)]
    dsimp only
    rw [body]
    rfl
  rw [intBounds, bind_run_of_ok m parts]
  rfl

theorem blockProc_run {p : ObjRef} {d : ProcData} (blk : call.blk = .obj p) (isProc : s.bodyAt p = some (.proc d))
    (msg : String) :
    ((blockProc call msg).run.run m).run s = .ok (.ok p) s := by
  obtain ⟨o, found, body⟩ : ∃ o, s.heap[p.idx]? = some o ∧ o.body = .proc d := by
    simpa [Store.bodyAt] using isProc
  have proc : ((lift (procOf? call.blk)).run.run m).run s = .ok (.ok (some (p, d))) s := by
    show ((store (Store.procOf? call.blk)).run.run m).run s = _
    rw [store_run, blk]
    simp [Store.procOf?, Store.getObj_run, found, body, EStateM.run_bind]
  rw [blockProc, bind_run_of_ok m proc]
  rfl

theorem intArg_run {i : Nat} {n : Int64} (given : call.arg i = .int n) :
    ((intArg call i).run.run m).run s = .ok (.ok n) s := by
  rw [intArg, given]
  rfl

end Running

inductive Yields : NativeStep → List Request → Value → Prop
  | done (v : Value) : Yields (.done v) [] v
  | call {req : Request} {k : Task} {next : NativeStep} {reqs : List Request} {v : Value}
      (resumes : ∀ x, resume k x = pure next) (rest : Yields next reqs v) :
      Yields (.call req k) (req :: reqs) v

-- A loop of a built-in method that calls nothing: it turns until its last step answers a new
-- array of what it collected.
inductive Collects : Task → Array Value → Prop
  | last {t : Task} {out : Array Value}
      (ends : ∀ x, resume t x = (do pure (.done (← newArray out)) : NativeM NativeStep)) : Collects t out
  | turn {t t₁ : Task} {out : Array Value} (turns : ∀ x, resume t x = pure (.turn t₁)) (rest : Collects t₁ out) :
      Collects t out

def RunsBlocks (x : NativeM NativeStep) (m : Machine) (s : Store) (reqs : List Request) (v : Value) : Prop :=
  ∃ step, ((x.run.run m).run s) = .ok (.ok step) s ∧ Yields step reqs v

def blockRuns (p : ObjRef) (ks : List Int64) : List Request := ks.map fun k => runBlock p #[.int k]

section Counting

variable (self : Value) (blk : ObjRef) (task : Int64 → Task) (step : Int64 → NativeStep)

theorem yields_counting_up (hi : Int64)
    (unfolds : ∀ k, step k = if k ≤ hi then .call (runBlock blk #[.int k]) (task k) else .done self)
    (resumes : ∀ k x, resume (task k) x = pure (step (k + 1))) (k : Int64)
    (noMax : Int64.maxValue ∉ intsBetween k.toInt hi.toInt) :
    Yields (step k) (blockRuns blk (intsBetween k.toInt hi.toInt)) self := by
  -- on the number of integers still to run
  induction left : (hi.toInt + 1 - k.toInt).toNat generalizing k with
  | zero =>
    rw [intsBetween_of_lt (by omega), unfolds, if_neg (by rw [Int64.le_iff_toInt_le]; omega)]
    exact .done self
  | succ n ih =>
    have cons := intsBetween_cons (show k.toInt ≤ hi.toInt by omega)
    rw [Int64.ofInt_toInt] at cons
    have notMax : k ≠ Int64.maxValue := fun same => noMax (cons ▸ same ▸ List.mem_cons_self ..)
    have next := toInt_succ notMax
    rw [cons, blockRuns, List.map_cons, unfolds, if_pos (by rw [Int64.le_iff_toInt_le]; omega)]
    refine .call (resumes k) ?_
    have rest := ih (k + 1) (by rw [next]; exact fun mem => noMax (cons ▸ List.mem_cons_of_mem _ mem))
      (by omega)
    rwa [next] at rest

theorem yields_counting_down (lo : Int64)
    (unfolds : ∀ k, step k = if lo ≤ k then .call (runBlock blk #[.int k]) (task k) else .done self)
    (resumes : ∀ k x, resume (task k) x = pure (step (k - 1))) (k : Int64)
    (noMin : Int64.minValue ∉ intsBetween lo.toInt k.toInt) :
    Yields (step k) (blockRuns blk (intsBetween lo.toInt k.toInt).reverse) self := by
  -- on the number of integers still to run
  induction left : (k.toInt + 1 - lo.toInt).toNat generalizing k with
  | zero =>
    rw [intsBetween_of_lt (by omega), unfolds, if_neg (by rw [Int64.le_iff_toInt_le]; omega)]
    exact .done self
  | succ n ih =>
    have concat := intsBetween_concat (show lo.toInt ≤ k.toInt by omega)
    rw [Int64.ofInt_toInt] at concat
    have notMin : k ≠ Int64.minValue := fun same =>
      noMin (concat ▸ same ▸ List.mem_append_right _ (List.mem_singleton_self _))
    have next := toInt_pred notMin
    rw [concat, List.reverse_append, List.reverse_singleton, List.singleton_append, blockRuns,
      List.map_cons, unfolds, if_pos (by rw [Int64.le_iff_toInt_le]; omega)]
    refine .call (resumes k) ?_
    have rest := ih (k - 1)
      (by rw [next]; exact fun mem => noMin (concat ▸ List.mem_append_left _ mem)) (by omega)
    rwa [next] at rest

theorem counting_to_greatest_never_returns
    (unfolds : ∀ k, step k = if k ≤ Int64.maxValue then .call (runBlock blk #[.int k]) (task k) else .done self)
    (resumes : ∀ k x, resume (task k) x = pure (step (k + 1))) (k : Int64) (reqs : List Request) (v : Value) :
    ¬ Yields (step k) reqs v := by
  induction reqs generalizing k with
  | nil =>
    rw [unfolds, if_pos (Int64.le_maxValue k)]
    rintro ⟨⟩
  | cons req reqs ih =>
    rw [unfolds, if_pos (Int64.le_maxValue k)]
    intro yields
    cases yields with
    | call resumed rest =>
      have next := pure_inj ((resumed .nil).symm.trans (resumes k .nil))
      exact ih (k + 1) (next ▸ rest)

end Counting

-- While the counter is at most the bound, one step of the loop collects it and turns.
theorem rangeCollectStep_of_le {k hi : Int64} (out : Array Value) (le : k ≤ hi) :
    rangeCollectStep k hi out = pure (.turn (.rangeCollect (k + 1) hi (out.push (.int k)))) := by
  rw [rangeCollectStep, if_pos le]

theorem rangeCollect_collects (hi k : Int64) (out : Array Value)
    (noMax : Int64.maxValue ∉ intsBetween k.toInt hi.toInt) :
    Collects (.rangeCollect k hi out) (out ++ ((intsBetween k.toInt hi.toInt).map .int).toArray) := by
  -- on the number of integers still to collect
  induction left : (hi.toInt + 1 - k.toInt).toNat generalizing k out with
  | zero =>
    have empty : out ++ (([] : List Int64).map Value.int).toArray = out := by simp
    rw [intsBetween_of_lt (by omega), empty]
    refine .last fun _ => ?_
    show rangeCollectStep k hi out = _
    rw [rangeCollectStep, if_neg (by rw [Int64.le_iff_toInt_le]; omega)]
  | succ n ih =>
    have cons := intsBetween_cons (show k.toInt ≤ hi.toInt by omega)
    rw [Int64.ofInt_toInt] at cons
    have notMax : k ≠ Int64.maxValue := fun same => noMax (cons ▸ same ▸ List.mem_cons_self ..)
    have next := toInt_succ notMax
    have rest := ih (k + 1) (out.push (.int k))
      (by rw [next]; exact fun mem => noMax (cons ▸ List.mem_cons_of_mem _ mem)) (by omega)
    rw [next] at rest
    have collected : out.push (.int k) ++ ((intsBetween (k.toInt + 1) hi.toInt).map Value.int).toArray =
        out ++ ((k :: intsBetween (k.toInt + 1) hi.toInt).map Value.int).toArray := by
      simp
    rw [cons, ← collected]
    exact .turn (fun _ => rangeCollectStep_of_le out (Int64.le_iff_toInt_le.mpr (by omega))) rest

theorem rangeCollect_to_greatest_never_ends (k : Int64) (out collected : Array Value) :
    ¬ Collects (.rangeCollect k Int64.maxValue out) collected := by
  intro collects
  generalize task : Task.rangeCollect k Int64.maxValue out = t at collects
  -- every test of the loop passes, so every step is one more turn
  induction collects generalizing k out with
  | last ends =>
    have ran := ends .nil
    rw [← task] at ran
    change rangeCollectStep k Int64.maxValue out = _ at ran
    rw [rangeCollectStep_of_le out (Int64.le_maxValue k)] at ran
    have answered := congrArg (fun x : NativeM NativeStep => (x.run.run default).run (default : Store)) ran
    change EStateM.Result.ok (Except.ok (NativeStep.turn _)) default =
      EStateM.Result.ok (Except.ok (NativeStep.done _)) _ at answered
    cases answered
  | turn turns _ ih =>
    have ran := turns .nil
    rw [← task] at ran
    change rangeCollectStep k Int64.maxValue out = _ at ran
    rw [rangeCollectStep_of_le out (Int64.le_maxValue k)] at ran
    cases pure_inj ran
    exact ih (k + 1) (out.push (.int k)) rfl

theorem rangeEachStep_yields (self : Value) (blk : ObjRef) (k hi : Int64)
    (noMax : Int64.maxValue ∉ intsBetween k.toInt hi.toInt) :
    Yields (rangeEachStep self blk k hi) (blockRuns blk (intsBetween k.toInt hi.toInt)) self :=
  yields_counting_up self blk (fun k => .rangeEach self blk k hi) (rangeEachStep self blk · hi) hi
    (fun _ => rfl) (fun _ _ => rfl) k noMax

theorem rangeEachStep_to_greatest_never_returns (self : Value) (blk : ObjRef) (k : Int64) (reqs : List Request)
    (v : Value) : ¬ Yields (rangeEachStep self blk k Int64.maxValue) reqs v :=
  counting_to_greatest_never_returns self blk (fun k => .rangeEach self blk k Int64.maxValue)
    (rangeEachStep self blk · Int64.maxValue) (fun _ => rfl) (fun _ _ => rfl) k reqs v

theorem countStep_up_yields (self : Value) (blk : ObjRef) (k last : Int64)
    (noMax : Int64.maxValue ∉ intsBetween k.toInt last.toInt) :
    Yields (countStep self blk k last true) (blockRuns blk (intsBetween k.toInt last.toInt)) self :=
  yields_counting_up self blk (fun k => .count self blk k last true) (countStep self blk · last true) last
    (fun _ => rfl) (fun _ _ => rfl) k noMax

theorem countStep_down_yields (self : Value) (blk : ObjRef) (k last : Int64)
    (noMin : Int64.minValue ∉ intsBetween last.toInt k.toInt) :
    Yields (countStep self blk k last false) (blockRuns blk (intsBetween last.toInt k.toInt).reverse) self :=
  yields_counting_down self blk (fun k => .count self blk k last false) (countStep self blk · last false) last
    (fun _ => rfl) (fun _ _ => rfl) k noMin

theorem toInt_inclusive_end {last : Int64} {excl : Bool} (endsInWord : excl = true → last ≠ Int64.minValue) :
    (if excl then last - 1 else last).toInt = if excl then last.toInt - 1 else last.toInt := by
  cases excl with
  | false => rfl
  | true => exact toInt_pred (endsInWord rfl)

section Methods

variable (m : Machine) {s : Store} {call : NativeCall} {r p : ObjRef} {d : ProcData} {first last : Int64}
  {excl : Bool}

theorem range_each_yields (self : call.self = .obj r) (range : s.bodyAt r = some (.range (.int first) (.int last) excl))
    (blk : call.blk = .obj p) (isProc : s.bodyAt p = some (.proc d))
    (endsInWord : excl = true → last ≠ Int64.minValue) (noMax : Int64.maxValue ∉ rangeInts first last excl) :
    RunsBlocks (Native.range .each call) m s (blockRuns p (rangeInts first last excl)) call.self := by
  have members : rangeInts first last excl = intsBetween first.toInt (if excl then last - 1 else last).toInt := by
    rw [toInt_inclusive_end endsInWord, rangeInts]
  refine ⟨rangeEachStep call.self p first (if excl then last - 1 else last), ?_, ?_⟩
  · rw [Native.range]
    dsimp only
    rw [bind_run_of_ok m (blockProc_run m blk isProc _), self, bind_run_of_ok m (intBounds_run m range)]
    rfl
  · rw [members] at noMax ⊢
    exact rangeEachStep_yields _ _ _ _ noMax

theorem range_toA_collects (self : call.self = .obj r)
    (range : s.bodyAt r = some (.range (.int first) (.int last) excl))
    (endsInWord : excl = true → last ≠ Int64.minValue) (noMax : Int64.maxValue ∉ rangeInts first last excl) :
    ((Native.range .toA call).run.run m).run s =
        .ok (.ok (.turn (.rangeCollect first (if excl then last - 1 else last) #[]))) s ∧
      Collects (.rangeCollect first (if excl then last - 1 else last) #[]) ((rangeInts first last excl).map .int).toArray := by
  have members : rangeInts first last excl = intsBetween first.toInt (if excl then last - 1 else last).toInt := by
    rw [toInt_inclusive_end endsInWord, rangeInts]
  refine ⟨?_, ?_⟩
  · rw [Native.range]
    dsimp only
    rw [self, bind_run_of_ok m (intBounds_run m range)]
    rfl
  · rw [members] at noMax ⊢
    have collects := rangeCollect_collects _ first #[] noMax
    rwa [Array.empty_append] at collects

theorem range_size_run (self : call.self = .obj r) (range : s.bodyAt r = some (.range (.int first) (.int last) excl)) :
    ((Native.range .size call).run.run m).run s = .ok (.ok (.done (.int
      (if (if excl then last - 1 else last) < first then 0 else (if excl then last - 1 else last) - first + 1)))) s := by
  rw [Native.range]
  dsimp only
  rw [self, bind_run_of_ok m (intBounds_run m range)]
  rfl

theorem range_size_counts (self : call.self = .obj r) (range : s.bodyAt r = some (.range (.int first) (.int last) excl))
    (endsInWord : excl = true → last ≠ Int64.minValue) (fewer : (rangeInts first last excl).length < 2 ^ 63) :
    ∃ n : Int64, ((Native.range .size call).run.run m).run s = .ok (.ok (.done (.int n))) s ∧
      n.toInt = (rangeInts first last excl).length := by
  refine ⟨_, range_size_run m self range, ?_⟩
  rw [rangeInts, length_intsBetween, ← toInt_inclusive_end endsInWord] at fewer ⊢
  generalize (if excl then last - 1 else last) = hi at fewer ⊢
  split
  · rename_i below
    rw [Int64.lt_iff_toInt_lt] at below
    rw [Int64.toInt_zero]
    omega
  · rename_i above
    rw [Int64.lt_iff_toInt_lt] at above
    have := Int64.toInt_lt hi
    have := Int64.le_toInt first
    have difference : -2 ^ 63 ≤ hi.toInt - first.toInt ∧ hi.toInt - first.toInt < 2 ^ 63 := by omega
    rw [Int64.toInt_add, Int64.toInt_sub, Int64.toInt_one, Numeric.bmod_eq_of_fits difference,
      Numeric.bmod_eq_of_fits (by omega)]
    omega

theorem upto_yields {k last : Int64} (self : call.self = .int k) (args : call.args = #[.int last])
    (blk : call.blk = .obj p) (isProc : s.bodyAt p = some (.proc d))
    (noMax : Int64.maxValue ∉ rangeInts k last false) :
    RunsBlocks (numeric .upto call) m s (blockRuns p (rangeInts k last false)) call.self := by
  refine ⟨countStep call.self p k last true, ?_, countStep_up_yields _ _ _ _ noMax⟩
  have given : call.arg 0 = .int last := by simp [NativeCall.arg, args]
  rw [numeric, checkArgs_within call 1 1 (by simp [args]), pure_bind, bind_run_of_ok m (blockProc_run m blk isProc _),
    bind_run_of_ok m (intArg_run m given), self]
  rfl

theorem downto_yields {k last : Int64} (self : call.self = .int k) (args : call.args = #[.int last])
    (blk : call.blk = .obj p) (isProc : s.bodyAt p = some (.proc d))
    (noMin : Int64.minValue ∉ rangeInts last k false) :
    RunsBlocks (numeric .downto call) m s (blockRuns p (rangeInts last k false).reverse) call.self := by
  refine ⟨countStep call.self p k last false, ?_, countStep_down_yields _ _ _ _ noMin⟩
  have given : call.arg 0 = .int last := by simp [NativeCall.arg, args]
  rw [numeric, checkArgs_within call 1 1 (by simp [args]), pure_bind, bind_run_of_ok m (blockProc_run m blk isProc _),
    bind_run_of_ok m (intArg_run m given), self]
  rfl

end Methods

theorem integer_intervals_enumerated (m : Machine) (s : Store) (p : ObjRef) (d : ProcData)
    (isProc : s.bodyAt p = some (.proc d)) :
    (∀ (call : NativeCall) (r : ObjRef) (first last : Int64) (excl : Bool),
      call.self = .obj r → call.blk = .obj p → s.bodyAt r = some (.range (.int first) (.int last) excl) →
      (excl = true → last ≠ Int64.minValue) →
      (Int64.maxValue ∉ rangeInts first last excl →
        RunsBlocks (range .each call) m s (blockRuns p (rangeInts first last excl)) call.self ∧
        ∃ t, ((range .toA call).run.run m).run s = .ok (.ok (.turn t)) s ∧
          Collects t ((rangeInts first last excl).map .int).toArray) ∧
      ((rangeInts first last excl).length < 2 ^ 63 →
        ∃ n : Int64, ((range .size call).run.run m).run s = .ok (.ok (.done (.int n))) s ∧
          n.toInt = (rangeInts first last excl).length)) ∧
    (∀ (call : NativeCall) (k last : Int64),
      call.self = .int k → call.args = #[.int last] → call.blk = .obj p →
      (Int64.maxValue ∉ rangeInts k last false →
        RunsBlocks (numeric .upto call) m s (blockRuns p (rangeInts k last false)) call.self) ∧
      (Int64.minValue ∉ rangeInts last k false →
        RunsBlocks (numeric .downto call) m s (blockRuns p (rangeInts last k false).reverse) call.self)) := by
  constructor
  · intro call r first last excl self blk range endsInWord
    exact ⟨fun noMax => ⟨range_each_yields m self range blk isProc endsInWord noMax,
        _, range_toA_collects m self range endsInWord noMax⟩,
      range_size_counts m self range endsInWord⟩
  · intro call k last self args blk
    exact ⟨upto_yields m self args blk isProc, downto_yields m self args blk isProc⟩

def countingStore : Store :=
  { heap := #[{ cls := none, body := .range (.int 1) (.int 4) true }, { cls := none, body := .proc default }] }

theorem exclusive_range_one_to_four_enumerated :
    countingStore.bodyAt ⟨1⟩ = some (.proc default) ∧ rangeInts 1 4 true = [1, 2, 3] ∧
      RunsBlocks (range .each ⟨.obj ⟨0⟩, #[], none, .obj ⟨1⟩⟩) default countingStore
        (blockRuns ⟨1⟩ [1, 2, 3]) (.obj ⟨0⟩) := by
  have members : rangeInts 1 4 true = [1, 2, 3] := by decide
  have enumerated := ((integer_intervals_enumerated default countingStore ⟨1⟩ default rfl).1
    ⟨.obj ⟨0⟩, #[], none, .obj ⟨1⟩⟩ ⟨0⟩ 1 4 true rfl rfl rfl (by decide)).1 (by decide)
  rw [members] at enumerated
  exact ⟨rfl, members, enumerated.1⟩

def wrappingRangeStore : Store :=
  { heap := #[{ cls := none, body := .range (.int 5) (.int Int64.minValue) true }] }

theorem exclusive_range_to_least_integer_size :
    rangeInts 5 Int64.minValue true = [] ∧
      ((range .size ⟨.obj ⟨0⟩, #[], none, .nil⟩).run.run default).run wrappingRangeStore =
        .ok (.ok (.done (.int 9223372036854775803))) wrappingRangeStore := by
  refine ⟨by decide, ?_⟩
  rw [range_size_run default rfl rfl]
  rfl

end Native

end RegisterVM
