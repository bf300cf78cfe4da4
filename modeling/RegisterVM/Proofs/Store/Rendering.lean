import RegisterVM.Proofs.Store.Environments

set_option autoImplicit false

namespace RegisterVM

def Body.marks : Body → Bool
  | .str _ | .range .. | .cls _ | .exception .. | .proc _ => false
  | _ => true

def Body.abbreviation : Body → String
  | .array _ => "[...]"
  | .hash _ => "\x7b...\x7d"
  | _ => "..."

theorem forIn_keeps_invariant {ε σ α β : Type} (Inv : β → Prop) {f : α → β → EStateM ε σ (ForInStep β)}
    (step : ∀ a b s r t, Inv b → (f a b).run s = .ok r t → Inv r.value) :
    ∀ (xs : List α) (b : β) (s t : σ) (b' : β), Inv b → (forIn xs b f).run s = .ok b' t → Inv b' := by
  intro xs
  induction xs with
  | nil =>
    intro b s t b' start run
    cases run
    exact start
  | cons a rest ih =>
    intro b s t b' start run
    rw [List.forIn_cons] at run
    obtain ⟨r, u, pass, next⟩ := bind_run_ok run
    have kept := step a b s r u start pass
    cases r with
    | done c =>
      cases next
      exact kept
    | yield c => exact ih c u t b' kept next

namespace Store

def Covers (P : Nat → Prop) (shown : Option Shown) : Prop :=
  ∃ S, shown = some S ∧ ∀ i, P i → i ∈ S

theorem Covers.mono {P Q : Nat → Prop} {shown : Option Shown} (covers : Covers P shown)
    (sub : ∀ i, Q i → P i) : Covers Q shown := by
  obtain ⟨S, rfl, holds⟩ := covers
  exact ⟨S, rfl, fun i q => holds i (sub i q)⟩

theorem covers_self (S : Shown) : Covers (· ∈ S) (some S) := ⟨S, rfl, fun _ h => h⟩

theorem Covers.getD {P : Nat → Prop} {shown : Option Shown} (covers : Covers P shown) (T : Shown) :
    ∀ i, P i → i ∈ shown.getD T := by
  obtain ⟨S, rfl, holds⟩ := covers
  exact holds

theorem covers_of_unmarked {o : Obj} {c : ObjRef} (S : Shown) (unmarked : o.body.marks = false) :
    Covers (fun i => i ∈ S ∨ (o.body.marks = true ∧ i = c.idx)) (some S) :=
  (covers_self S).mono fun i => by
    rintro (old | ⟨marks, -⟩)
    · exact old
    · simp [unmarked] at marks

theorem inspectWith_shown_of_leaf {fuel : Nat} {v : Value} (leaf : ∀ c f, v = .obj c → fuel ≠ f + 1)
    (shown : Option Shown) {st t : Store} {res : String × Option Shown}
    (run : (inspectWith fuel v shown).run st = .ok res t) : res.2 = shown := by
  cases v with
  | obj c =>
    cases fuel with
    | zero =>
      cases run
      rfl
    | succ f => exact absurd rfl (leaf c f rfl)
  | bool b =>
    cases b <;> (simp only [inspectWith] at run; cases run; rfl)
  | sym s =>
    simp only [inspectWith] at run
    obtain ⟨_, _, -, done⟩ := bind_run_ok run
    cases done
    rfl
  | _ =>
    simp only [inspectWith] at run
    cases run
    rfl

theorem covers_obj_step {fuel : Nat}
    (ih : ∀ v S st res t, (inspectWith fuel v (some S)).run st = .ok res t → Covers (· ∈ S) res.2)
    {c : ObjRef} {S : Shown} {st t : Store} {res : String × Option Shown}
    (run : (inspectWith (fuel + 1) (.obj c) (some S)).run st = .ok res t) :
    ∃ o, st.heap[c.idx]? = some o ∧ Covers (fun i => i ∈ S ∨ (o.body.marks = true ∧ i = c.idx)) res.2 := by
  simp only [inspectWith] at run
  obtain ⟨o, u, got, rest⟩ := bind_run_ok run
  rw [getObj_run] at got
  split at got
  · rename_i found
    cases got
    refine ⟨o, found, ?_⟩
    -- every pass of a loop renders a part with the set built so far and goes on with what
    -- that rendering hands back
    have pass : ∀ {X : Shown} {v : Value} {s s' : Store} {x : String × Option Shown} (T : Shown),
        (inspectWith fuel v (some X)).run s = .ok x s' → ∀ i, i ∈ X → i ∈ x.2.getD T :=
      fun T render => (ih _ _ _ _ _ render).getD T
    have marked : ∀ i, (i ∈ S ∨ (o.body.marks = true ∧ i = c.idx)) → i ∈ markShown (some S) c := by
      rintro i (old | ⟨-, rfl⟩)
      · exact Std.HashSet.mem_insert.mpr (.inr old)
      · exact Std.HashSet.mem_insert.mpr (.inl (beq_self_eq_true _))
    split at rest
    · -- already shown: the object is in the set, which is handed back as it is
      rename_i shownBefore
      have old : c.idx ∈ S := Std.HashSet.mem_iff_contains.mpr (by simpa using shownBefore)
      have same : res.2 = some S := by split at rest <;> (cases rest; rfl)
      rw [same]
      exact (covers_self S).mono fun i => by rintro (h | ⟨-, rfl⟩) <;> assumption
    · split at rest
      · rename_i text body
        cases rest
        exact covers_of_unmarked S (by simp [Body.marks, body])
      · rename_i elems body
        obtain ⟨acc, _, loop, done⟩ := bind_run_ok rest
        cases done
        rw [← Array.forIn_toList] at loop
        refine ⟨acc.1, rfl, fun i p => ?_⟩
        refine forIn_keeps_invariant (fun acc => ∀ i, i ∈ S ∨ (o.body.marks = true ∧ i = c.idx) → i ∈ acc.1)
          (fun v b s r s' inv step => ?_) _ _ _ _ _ marked loop i p
        obtain ⟨x, _, render, yield⟩ := bind_run_ok step
        cases yield
        exact fun i p => pass _ render i (inv i p)
      · split at rest
        · cases rest
          exact ⟨_, rfl, marked⟩
        · obtain ⟨acc, _, loop, done⟩ := bind_run_ok rest
          cases done
          refine ⟨acc.1, rfl, fun i p => ?_⟩
          refine forIn_keeps_invariant (fun acc => ∀ i, i ∈ S ∨ (o.body.marks = true ∧ i = c.idx) → i ∈ acc.1)
            (fun e b s r s' inv step => ?_) _ _ _ _ _ marked loop i p
          split at step
          · -- a symbol key is written as a label; only the value is rendered
            obtain ⟨_, _, -, step⟩ := bind_run_ok step
            obtain ⟨_, _, -, step⟩ := bind_run_ok step
            obtain ⟨x, _, render, yield⟩ := bind_run_ok step
            cases yield
            exact fun i p => pass _ render i (inv i p)
          · obtain ⟨x, _, renderKey, step⟩ := bind_run_ok step
            obtain ⟨_, _, -, step⟩ := bind_run_ok step
            obtain ⟨y, _, renderValue, yield⟩ := bind_run_ok step
            cases yield
            exact fun i p => pass _ renderValue i (pass _ renderKey i (inv i p))
      · -- a range hands its set from the first end to the last
        rename_i first last excl body
        obtain ⟨x, _, renderFirst, rest⟩ := bind_run_ok rest
        obtain ⟨y, _, renderLast, done⟩ := bind_run_ok rest
        cases done
        obtain ⟨S₁, handed, grows⟩ := ih _ _ _ _ _ renderFirst
        rw [handed] at renderLast
        refine (ih _ _ _ _ _ renderLast).mono fun i => ?_
        rintro (old | ⟨marks, -⟩)
        · exact grows i old
        · simp [Body.marks, body] at marks
      · rename_i cls body
        obtain ⟨_, _, -, done⟩ := bind_run_ok rest
        cases done
        exact covers_of_unmarked S (by simp [Body.marks, body])
      · rename_i message backtrace body
        obtain ⟨_, _, -, rest⟩ := bind_run_ok rest
        obtain ⟨_, _, -, rest⟩ := bind_run_ok rest
        have same : res.2 = some S := by split at rest <;> (cases rest; rfl)
        rw [same]
        exact covers_of_unmarked S (by simp [Body.marks, body])
      · rename_i p body
        have same : res.2 = some S := by split at rest <;> (cases rest; rfl)
        rw [same]
        exact covers_of_unmarked S (by simp [Body.marks, body])
      · -- any other object shows its instance variables
        obtain ⟨_, _, -, rest⟩ := bind_run_ok rest
        obtain ⟨_, _, -, rest⟩ := bind_run_ok rest
        obtain ⟨_, _, -, rest⟩ := bind_run_ok rest
        obtain ⟨acc, _, loop, done⟩ := bind_run_ok rest
        cases done
        refine ⟨acc.1, rfl, fun i p => ?_⟩
        refine forIn_keeps_invariant (fun acc => ∀ i, i ∈ S ∨ (o.body.marks = true ∧ i = c.idx) → i ∈ acc.1)
          (fun sym b s r s' inv step => ?_) _ _ _ _ _ marked loop i p
        obtain ⟨x, _, render, yield⟩ := bind_run_ok step
        cases yield
        exact fun i p => pass _ render i (inv i p)
  · cases got

theorem covers_inspectWith :
    ∀ fuel v S st res t, (inspectWith fuel v (some S)).run st = .ok res t → Covers (· ∈ S) res.2
  | 0, v, S, _, _, _, run => by
    rw [inspectWith_shown_of_leaf (fun _ _ _ => Nat.zero_ne_add_one _) _ run]
    exact covers_self S
  | fuel + 1, v, S, _, _, _, run => by
    cases v with
    | obj c =>
      obtain ⟨o, -, covers⟩ := covers_obj_step (covers_inspectWith fuel) run
      exact covers.mono fun i old => .inl old
    | _ =>
      rw [inspectWith_shown_of_leaf (fun _ _ h => by cases h) _ run]
      exact covers_self S

theorem inspectWith_of_shown {fuel : Nat} {c : ObjRef} {S : Shown} {st t : Store}
    {res : String × Option Shown} (old : c.idx ∈ S)
    (run : (inspectWith (fuel + 1) (.obj c) (some S)).run st = .ok res t) :
    ∃ o, st.heap[c.idx]? = some o ∧ res = (o.body.abbreviation, some S) := by
  simp only [inspectWith] at run
  obtain ⟨o, u, got, rest⟩ := bind_run_ok run
  rw [getObj_run] at got
  split at got
  · rename_i found
    cases got
    refine ⟨o, found, ?_⟩
    have shownBefore : Option.any (fun x => x.contains c.idx) (some S) = true := by
      simpa using Std.HashSet.mem_iff_contains.mp old
    rw [if_pos shownBefore] at rest
    split at rest <;> (cases rest; simp_all [Body.abbreviation])
  · cases got

def elementPass (fuel : Nat) (v : Value) (acc : Shown × String × Bool) :
    StoreM (ForInStep (Shown × String × Bool)) := do
  let x ← inspectWith fuel v (some acc.1)
  pure (.yield (x.2.getD acc.1, (acc.2.1 ++ if acc.2.2 then "" else ", ") ++ x.1, false))

theorem intercalate_snoc (done : List String) (t : String) :
    (", ".intercalate done ++ if done.isEmpty then "" else ", ") ++ t = ", ".intercalate (done ++ [t]) := by
  cases done with
  | nil => simp [String.intercalate_singleton]
  | cons d rest =>
    rw [String.intercalate_append_of_ne_nil (List.cons_ne_nil d rest) (List.cons_ne_nil t []),
      String.intercalate_singleton]
    simp [String.append_assoc]

theorem elements_run {fuel : Nat} :
    ∀ (l : List Value) (acc : Shown × String × Bool) (done : List String) {st t : Store}
      {acc' : Shown × String × Bool},
      acc.2.1 = ", ".intercalate done → acc.2.2 = done.isEmpty →
      (forIn l acc (elementPass (fuel + 1))).run st = .ok acc' t →
      ∃ ts : List String, ts.length = l.length ∧ acc'.2.1 = ", ".intercalate (done ++ ts) ∧
        ∀ (k : Nat) (c : ObjRef) (o : Obj), l[k]? = some (.obj c) → st.heap[c.idx]? = some o →
          o.body.marks = true → (c.idx ∈ acc.1 ∨ ∃ k' < k, l[k']? = some (.obj c)) →
          ts[k]? = some o.body.abbreviation
  | [], acc, done, _, _, _, text, _, run => by
    cases run
    exact ⟨[], rfl, by simpa using text, fun k c o at_k => by simp at at_k⟩
  | v :: l, acc, done, st, t, acc', text, first, run => by
    rw [List.forIn_cons] at run
    obtain ⟨r, u, pass, next⟩ := bind_run_ok run
    obtain ⟨x, u', render, yield⟩ := bind_run_ok pass
    cases yield
    have same := ReadOnly.ok_state ((readOnly_render _).2 _ _) render
    subst same
    -- the rest of the loop goes on from the set this element handed back
    have grows := (covers_inspectWith _ _ _ _ _ _ render).getD acc.1
    obtain ⟨ts, length, joined, later⟩ := elements_run l _ (done ++ [x.1])
      (by simp only [text, first]; exact intercalate_snoc done x.1) (by simp) next
    refine ⟨x.1 :: ts, by simp [length], by simpa using joined, ?_⟩
    rintro (_ | k) c o at_k found marks before
    · -- the first element is abbreviated when it is in the set already
      obtain rfl : v = .obj c := by simpa using at_k
      have old : c.idx ∈ acc.1 := by simpa using before
      obtain ⟨o', found', rfl⟩ := inspectWith_of_shown old render
      rw [found] at found'
      cases found'
      rfl
    · refine later k c o (by simpa using at_k) found marks ?_
      rcases before with old | ⟨_ | k', earlier, at_k'⟩
      · exact .inl (grows _ old)
      · -- the first element is this container: rendering it entered it in the set
        obtain rfl : v = .obj c := by simpa using at_k'
        obtain ⟨o', found', covers⟩ := covers_obj_step (covers_inspectWith _) render
        rw [found] at found'
        cases found'
        exact .inl (covers.getD acc.1 _ (.inr ⟨marks, rfl⟩))
      · exact .inr ⟨k', by omega, by simpa using at_k'⟩

theorem renderFuel_run (st : Store) :
    renderFuel.run st =
      .ok ((st.heap.size + 1) * (st.heap.size + 1) * (st.heap.size + 1) + st.heap.size + 2) st := by
  unfold renderFuel
  rfl

theorem inspect_abbreviates_repeated_containers {st t : Store} {r c : ObjRef} {o oc : Obj}
    {elems : Array Value} {j : Nat} {text : String}
    (found : st.heap[r.idx]? = some o) (isArray : o.body = .array elems)
    (foundAgain : st.heap[c.idx]? = some oc) (container : oc.body.marks = true)
    (at_j : elems[j]? = some (.obj c)) (metBefore : c = r ∨ ∃ i < j, elems[i]? = some (.obj c))
    (run : (inspect (.obj r)).run st = .ok text t) :
    ∃ ts : List String, ts.length = elems.size ∧ text = "[" ++ ", ".intercalate ts ++ "]" ∧
      ts[j]? = some oc.body.abbreviation := by
  simp only [inspect] at run
  obtain ⟨fuel, u, fuelRun, rest⟩ := bind_run_ok run
  rw [renderFuel_run] at fuelRun
  cases fuelRun
  obtain ⟨res, _, render, done⟩ := bind_run_ok rest
  cases done
  -- from the top there is fuel for the array and one more level for its elements
  rw [show (st.heap.size + 1) * (st.heap.size + 1) * (st.heap.size + 1) + st.heap.size + 2 =
    ((st.heap.size + 1) * (st.heap.size + 1) * (st.heap.size + 1) + st.heap.size + 1) + 1 from rfl] at render
  simp only [inspectWith] at render
  obtain ⟨o', _, got, rest⟩ := bind_run_ok render
  rw [getObj_run, found] at got
  cases got
  rw [if_neg (by simp), isArray] at rest
  obtain ⟨acc, _, loop, done⟩ := bind_run_ok rest
  cases done
  rw [← Array.forIn_toList] at loop
  obtain ⟨ts, length, joined, abbreviated⟩ := elements_run elems.toList _ [] rfl rfl loop
  refine ⟨ts, by simpa using length, by simp [joined], ?_⟩
  refine abbreviated j c oc (by simpa using at_j) foundAgain container ?_
  rcases metBefore with rfl | ⟨i, earlier, at_i⟩
  · exact .inl (Std.HashSet.mem_insert.mpr (.inl (beq_self_eq_true _)))
  · exact .inr ⟨i, earlier, by simpa using at_i⟩

def sharedPair : Store :=
  { heap := #[{ cls := none, body := .array #[.int 1] }, { cls := none, body := .array #[.obj ⟨0⟩, .obj ⟨0⟩] }] }

theorem shared_pair_abbreviates_second :
    (inspect (.obj ⟨1⟩)).run sharedPair = .ok "[[1], [...]]" sharedPair ∧
    ∃ ts : List String, ts.length = 2 ∧ "[[1], [...]]" = "[" ++ ", ".intercalate ts ++ "]" ∧
      ts[1]? = some "[...]" := by
  have run : (inspect (.obj ⟨1⟩)).run sharedPair = .ok "[[1], [...]]" sharedPair := by
    simp [inspect, renderFuel, inspectWith, getObj, sharedPair, markShown, EStateM.run_bind,
      ← Array.forIn_toList, Std.HashSet.contains_insert]
    rfl
  exact ⟨run, @inspect_abbreviates_repeated_containers sharedPair sharedPair ⟨1⟩ ⟨0⟩ _ _ _ 1 _ rfl rfl rfl rfl
    rfl (.inr ⟨0, by decide, rfl⟩) run⟩

end Store

end RegisterVM
