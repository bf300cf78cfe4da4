import RegisterVM.Proofs.Machine.Outline

set_option autoImplicit false

namespace RegisterVM

def Context.Outline.links (o : Context.Outline) : Status × Option Nat × Bool :=
  (o.status, o.prev, o.fiber)

namespace Machine

def Guards {α : Type} (P : Machine → Prop) (Q : α → Machine → Prop) (x : MachineM α) : Prop :=
  ∀ m a m', P m → x.run m = .ok a m' → Q a m' ∧ m'.root = m.root

namespace Guards

variable {α β : Type} {P : Machine → Prop} {Q : α → Machine → Prop} {R : β → Machine → Prop}

theorem bind {x : MachineM α} {f : α → MachineM β} (hx : Guards P Q x)
    (hf : ∀ a, Guards (Q a) R (f a)) : Guards P R (x >>= f) := by
  intro m b m' pre run
  obtain ⟨a, m₁, first, second⟩ := bind_run_ok run
  obtain ⟨mid, root₁⟩ := hx m a m₁ pre first
  obtain ⟨post, root₂⟩ := hf a m₁ b m' mid second
  exact ⟨post, root₂.trans root₁⟩

theorem pure (a : α) : Guards (Q a) Q (Pure.pure a : MachineM α) := by
  intro m b m' pre run
  cases run
  exact ⟨pre, rfl⟩

theorem throw (e : Fault) : Guards P Q (MonadExcept.throw e : MachineM α) := by
  intro m a m' _ run
  cases run

theorem mono {P' : Machine → Prop} {Q' : α → Machine → Prop} {x : MachineM α} (hx : Guards P Q x)
    (pre : ∀ m, P' m → P m) (post : ∀ a m, Q a m → Q' a m) : Guards P' Q' x :=
  fun m a m' h run => (hx m a m' (pre m h) run).imp_left (post a m')

end Guards

structure Linked (m : Machine) : Prop where
  fiberBottom : ∀ i o, m.outlineAt i = some o → o.fiber = true →
    ∀ k, o.kinds.head? = some k → k = .resumed
  rootPlain : ∃ o, m.outlineAt m.root = some o ∧ o.fiber = false ∧ o.prev = none
  retired : ∀ i o, i ≠ m.root → m.outlineAt i = some o → o.fiber = false → o.status = .terminated
  resumerRunning : ∀ i o r, m.outlineAt i = some o → o.prev = some r →
    ∃ p, m.outlineAt r = some p ∧ p.status = .running
  currentUnclaimed : ∀ i o, m.outlineAt i = some o → o.prev ≠ some m.current
  resumerUnique : ∀ i j o p r, m.outlineAt i = some o → m.outlineAt j = some p →
    o.prev = some r → p.prev = some r → i = j
structure Settled (m : Machine) : Prop extends Linked m where
  live : m.mode.isHalted = false →
    (∃ o, m.outlineAt m.current = some o ∧ o.status = .running) ∧
      ∃ o, m.outlineAt m.root = some o ∧ o.status = .running
  halts : ∀ v, (m.mode = .halted (.value v) ∨ m.mode = .halted (.raised v)) →
    m.current = m.root ∧ ∃ o, m.outlineAt m.root = some o ∧ o.kinds = []

def HasTop (m : Machine) : Prop := ∃ o, m.outlineAt m.current = some o ∧ o.kinds ≠ []

structure Disciplined (m : Machine) : Prop extends Settled m where
  started : ∀ prim call, m.mode = .start prim call → m.HasTop

def Live (m : Machine) : Prop := Settled m ∧ m.mode.isHalted = false

theorem hasTop_iff {m : Machine} : m.HasTop ↔ m.frames ≠ #[] := by
  unfold HasTop
  cases stored : m.contexts[m.current]? with
  | none => simp [outlineAt, frames, stored]
  | some c => simp [outlineAt, frames, stored, Context.outline]

theorem hasTop_of_top {m : Machine} {f : Frame} (top : m.top? = some f) : m.HasTop :=
  hasTop_iff.mpr fun empty => by simp [top?, empty] at top

theorem not_ended {md : Mode} (running : md.isHalted = false) (v : Value) :
    ¬(md = .halted (.value v) ∨ md = .halted (.raised v)) := by
  rintro (ended | ended) <;> simp [ended, Mode.isHalted] at running

section Transfer

variable {m m' : Machine}

theorem Settled.of_outlineKept (s : Settled m) (h : outlineKept.rel m m') : Settled m' := by
  obtain ⟨root, current, mode, outlines⟩ := h
  have same : m'.outlineAt = m.outlineAt := funext outlines
  exact {
    fiberBottom := by simpa only [same] using s.fiberBottom
    rootPlain := by simpa only [same, root] using s.rootPlain
    retired := by simpa only [same, root] using s.retired
    resumerRunning := by simpa only [same] using s.resumerRunning
    currentUnclaimed := by simpa only [same, current] using s.currentUnclaimed
    resumerUnique := by simpa only [same] using s.resumerUnique
    live := by simpa only [same, root, current, mode] using s.live
    halts := by simpa only [same, root, current, mode] using s.halts }

theorem HasTop.of_outlineKept (h : m.HasTop) (kept : outlineKept.rel m m') :
    m'.HasTop := by
  obtain ⟨_, current, _, outlines⟩ := kept
  obtain ⟨o, found, some⟩ := h
  exact ⟨o, by rw [current, outlines, found], some⟩

theorem Live.of_outlineKept (h : Live m) (kept : outlineKept.rel m m') : Live m' :=
  ⟨h.1.of_outlineKept kept, kept.2.2.1 ▸ h.2⟩

theorem Disciplined.of_outlineKept (d : Disciplined m) (h : outlineKept.rel m m') :
    Disciplined m' := by
  refine ⟨d.toSettled.of_outlineKept h, fun prim call start => ?_⟩
  exact (d.started prim call (h.2.2.1 ▸ start)).of_outlineKept h

theorem Settled.withMode (s : Settled m) (live : m.mode.isHalted = false) (md : Mode)
    (running : md.isHalted = false) : Settled { m with mode := md } where
  fiberBottom := s.fiberBottom
  rootPlain := s.rootPlain
  retired := s.retired
  resumerRunning := s.resumerRunning
  currentUnclaimed := s.currentUnclaimed
  resumerUnique := s.resumerUnique
  live _ := s.live live
  halts v ended := absurd ended (not_ended running v)

theorem Settled.of_links (s : Settled m) (live : m.mode.isHalted = false) (root : m'.root = m.root)
    (current : m'.current = m.current) (mode : m'.mode = m.mode)
    (links : ∀ i, (m'.outlineAt i).map Context.Outline.links = (m.outlineAt i).map Context.Outline.links)
    (bottom : ∀ i o, m'.outlineAt i = some o → o.fiber = true →
      ∀ k, o.kinds.head? = some k → k = .resumed) : Settled m' := by
  -- every outline of `m'` has one of `m` at the same place with the same links
  have back : ∀ i o', m'.outlineAt i = some o' → ∃ o, m.outlineAt i = some o ∧ o.links = o'.links := by
    intro i o' found
    have same := links i
    rw [found] at same
    cases was : m.outlineAt i with
    | none => rw [was] at same; cases same
    | some o => rw [was] at same; exact ⟨o, rfl, (Option.some.inj same).symm⟩
  have forth : ∀ i o, m.outlineAt i = some o → ∃ o', m'.outlineAt i = some o' ∧ o'.links = o.links := by
    intro i o found
    have same := links i
    rw [found] at same
    cases now : m'.outlineAt i with
    | none => rw [now] at same; cases same
    | some o' => rw [now] at same; exact ⟨o', rfl, Option.some.inj same⟩
  refine ⟨⟨bottom, ?_, ?_, ?_, ?_, ?_⟩, ?_, ?_⟩
  · obtain ⟨o, found, plain, waits⟩ := s.rootPlain
    obtain ⟨o', found', same⟩ := forth _ o found
    simp only [Context.Outline.links, Prod.mk.injEq] at same
    exact ⟨o', root ▸ found', same.2.2.trans plain, same.2.1.trans waits⟩
  · intro i o' other found' plain'
    obtain ⟨o, found, same⟩ := back i o' found'
    simp only [Context.Outline.links, Prod.mk.injEq] at same
    rw [← same.1]
    exact s.retired i o (root ▸ other) found (same.2.2.trans plain')
  · intro i o' r found' waits'
    obtain ⟨o, found, same⟩ := back i o' found'
    simp only [Context.Outline.links, Prod.mk.injEq] at same
    obtain ⟨p, resumer, running⟩ := s.resumerRunning i o r found (same.2.1.trans waits')
    obtain ⟨p', resumer', same'⟩ := forth r p resumer
    simp only [Context.Outline.links, Prod.mk.injEq] at same'
    exact ⟨p', resumer', same'.1.trans running⟩
  · intro i o' found'
    obtain ⟨o, found, same⟩ := back i o' found'
    simp only [Context.Outline.links, Prod.mk.injEq] at same
    rw [← same.2.1, current]
    exact s.currentUnclaimed i o found
  · intro i j o' p' r found' found'' waits' waits''
    obtain ⟨o, found, same⟩ := back i o' found'
    obtain ⟨p, found₂, same₂⟩ := back j p' found''
    simp only [Context.Outline.links, Prod.mk.injEq] at same same₂
    exact s.resumerUnique i j o p r found found₂ (same.2.1.trans waits') (same₂.2.1.trans waits'')
  · intro _
    obtain ⟨⟨o, found, running⟩, ⟨p, found₂, running₂⟩⟩ := s.live live
    obtain ⟨o', found', same⟩ := forth _ o found
    obtain ⟨p', found₂', same₂⟩ := forth _ p found₂
    simp only [Context.Outline.links, Prod.mk.injEq] at same same₂
    exact ⟨⟨o', current ▸ found', same.1.trans running⟩, ⟨p', root ▸ found₂', same₂.1.trans running₂⟩⟩
  · intro v ended
    rw [mode] at ended
    exact absurd ended (not_ended live v)

end Transfer

section Changes

variable {m : Machine}

theorem outlineAt_updCurrent_self (g : Context → Context) :
    (m.updCurrent g).outlineAt m.current = m.contexts[m.current]?.map fun c => (g c).outline := by
  rw [outlineAt_updCurrent, if_pos rfl]

theorem outlineAt_updCurrent_other (g : Context → Context) {i : Nat} (other : m.current ≠ i) :
    (m.updCurrent g).outlineAt i = m.outlineAt i := by
  rw [outlineAt_updCurrent, if_neg other]

theorem frames_of_current {c : Context} (found : m.contexts[m.current]? = some c) :
    m.frames = c.frames := by
  simp [frames, found]

theorem links_updCurrent {g : Context → Context} (same : ∀ c, (g c).outline.links = c.outline.links)
    (i : Nat) : ((m.updCurrent g).outlineAt i).map Context.Outline.links =
      (m.outlineAt i).map Context.Outline.links := by
  rw [outlineAt_updCurrent]
  split
  · simp [outlineAt, Option.map_map, Function.comp_def, same]
  · rfl

theorem Settled.pushed (s : Settled m) (live : m.mode.isHalted = false) (f : Frame)
    (room : m.current = m.root ∨ m.frames ≠ #[] ∨ f.kind = .resumed) :
    Settled (m.updCurrent fun c => { c with frames := c.frames.push f }) := by
  refine s.of_links live rfl rfl rfl (links_updCurrent fun _ => rfl) ?_
  intro i o found fiber k head
  by_cases here : m.current = i
  · subst here
    rw [outlineAt_updCurrent_self] at found
    obtain ⟨c, stored, rfl⟩ := Option.map_eq_some_iff.mp found
    simp only [Context.outline_kinds, Array.toList_push, List.map_append, List.map_cons,
      List.map_nil, List.head?_append] at head
    cases first : (c.frames.toList.map (·.kind)).head? with
    | some k' =>
      rw [first, Option.some_or, Option.some.injEq] at head
      subst head
      exact s.fiberBottom m.current c.outline (by simp [outlineAt, stored]) fiber _ first
    | none =>
      rw [first, Option.none_or, List.head?_cons, Option.some.injEq] at head
      subst head
      have empty : c.frames = #[] := by simpa using first
      rcases room with atRoot | nonempty | resumed
      · obtain ⟨o, atRoot', plain, _⟩ := s.rootPlain
        rw [← atRoot] at atRoot'
        simp only [outlineAt, stored, Option.map_some, Option.some.injEq] at atRoot'
        subst atRoot'
        simp_all
      · exact absurd ((frames_of_current stored).trans empty) nonempty
      · exact resumed
  · rw [outlineAt_updCurrent_other _ here] at found
    exact s.fiberBottom i o found fiber k head

theorem Settled.withStore (s : Settled m) (st : Store) : Settled { m with store := st } :=
  s.of_outlineKept ⟨rfl, rfl, rfl, fun _ => rfl⟩

theorem Settled.popped (s : Settled m) (live : m.mode.isHalted = false) :
    Settled (m.updCurrent fun c => { c with frames := c.frames.pop }) := by
  refine s.of_links live rfl rfl rfl (links_updCurrent fun _ => rfl) ?_
  intro i o found fiber k head
  by_cases here : m.current = i
  · subst here
    rw [outlineAt_updCurrent_self] at found
    obtain ⟨c, stored, rfl⟩ := Option.map_eq_some_iff.mp found
    simp only [Context.outline_kinds, Array.toList_pop, List.map_dropLast, List.head?_dropLast,
      List.length_map] at head
    split at head
    · exact s.fiberBottom m.current c.outline (by simp [outlineAt, stored]) fiber k head
    · cases head
  · rw [outlineAt_updCurrent_other _ here] at found
    exact s.fiberBottom i o found fiber k head

theorem Settled.handBack (s : Settled m) (live : m.mode.isHalted = false) {o : Context.Outline}
    {r : Nat} (cur : m.outlineAt m.current = some o) (waits : o.prev = some r) (st : Status)
    {m' : Machine} (outlines : ∀ i, m'.outlineAt i =
      (m.updCurrent fun c => { c with status := st, prev := none }).outlineAt i)
    (root : m'.root = m.root) (current : m'.current = r) (running : m'.mode.isHalted = false) :
    Settled m' := by
  obtain ⟨⟨o', cur', curRunning⟩, ⟨q, rootFound, rootRunning⟩⟩ := s.live live
  rw [cur] at cur'
  cases cur'
  -- the running context is a fiber, not the root, and its resumer is another context
  have notRoot : m.current ≠ m.root := by
    intro same
    obtain ⟨p, found, _, noPrev⟩ := s.rootPlain
    rw [← same, cur] at found
    cases found
    simp [waits] at noPrev
  have fiber : o.fiber = true := by
    cases h : o.fiber
    · have := s.retired _ o notRoot cur h
      rw [curRunning] at this
      cases this
    · rfl
  have away : r ≠ m.current := fun same => s.currentUnclaimed _ o cur (same ▸ waits)
  obtain ⟨p, resumer, resumerRunning⟩ := s.resumerRunning _ o r cur waits
  -- after the change, the running context says only that it has left
  have here : m'.outlineAt m.current = some { o with status := st, prev := none } := by
    rw [outlines, outlineAt_updCurrent_self]
    simp only [outlineAt] at cur
    obtain ⟨c, stored, rfl⟩ := Option.map_eq_some_iff.mp cur
    simp [stored, Context.outline]
  have other : ∀ i, m.current ≠ i → m'.outlineAt i = m.outlineAt i :=
    fun i ne => (outlines i).trans (outlineAt_updCurrent_other _ ne)
  refine ⟨⟨?_, ?_, ?_, ?_, ?_, ?_⟩, ?_, ?_⟩
  · intro i o₁ found fib k head
    by_cases at_ : m.current = i
    · subst at_
      rw [here] at found
      cases found
      exact s.fiberBottom _ o cur fib k head
    · rw [other i at_] at found
      exact s.fiberBottom i o₁ found fib k head
  · obtain ⟨p₁, found, plain, noPrev⟩ := s.rootPlain
    exact ⟨p₁, root ▸ (other _ notRoot).trans found, plain, noPrev⟩
  · intro i o₁ notRoot' found plain
    rw [root] at notRoot'
    by_cases at_ : m.current = i
    · subst at_
      rw [here] at found
      cases found
      simp [fiber] at plain
    · rw [other i at_] at found
      exact s.retired i o₁ notRoot' found plain
  · intro i o₁ r₁ found waits₁
    by_cases at_ : m.current = i
    · subst at_
      rw [here] at found
      cases found
      cases waits₁
    · rw [other i at_] at found
      obtain ⟨p₁, found₁, running₁⟩ := s.resumerRunning i o₁ r₁ found waits₁
      have ne : m.current ≠ r₁ := fun same => s.currentUnclaimed i o₁ found (same ▸ waits₁)
      exact ⟨p₁, (other r₁ ne).trans found₁, running₁⟩
  · intro i o₁ found waits₁
    rw [current] at waits₁
    by_cases at_ : m.current = i
    · subst at_
      rw [here] at found
      cases found
      cases waits₁
    · rw [other i at_] at found
      exact at_ (s.resumerUnique _ i o o₁ r cur found waits waits₁)
  · intro i j o₁ o₂ r₁ found₁ found₂ waits₁ waits₂
    have old : ∀ k o₃, m'.outlineAt k = some o₃ → o₃.prev = some r₁ →
        m.current ≠ k ∧ m.outlineAt k = some o₃ := by
      intro k o₃ found₃ waits₃
      by_cases at_ : m.current = k
      · subst at_
        rw [here] at found₃
        cases found₃
        cases waits₃
      · exact ⟨at_, (other k at_).symm.trans found₃⟩
    exact s.resumerUnique i j o₁ o₂ r₁ (old i o₁ found₁ waits₁).2 (old j o₂ found₂ waits₂).2
      waits₁ waits₂
  · intro _
    rw [current, root]
    exact ⟨⟨p, (other r away.symm).trans resumer, resumerRunning⟩,
      ⟨q, (other _ notRoot).trans rootFound, rootRunning⟩⟩
  · intro v ended
    exact absurd ended (not_ended running v)

theorem Settled.resumed (s : Settled m) (live : m.mode.isHalted = false) {x : Nat}
    {o : Context.Outline} (target : m.outlineAt x = some o) (notEnded : o.status ≠ .terminated)
    (notRunning : o.status ≠ .running) {m' : Machine}
    (outlines : ∀ i, m'.outlineAt i = ({ m with contexts := m.contexts.modify x fun c =>
      { c with prev := some m.current, status := .running } } : Machine).outlineAt i)
    (root : m'.root = m.root) (current : m'.current = x) (mode : m'.mode = m.mode) :
    Settled m' := by
  obtain ⟨⟨q, cur, curRunning⟩, ⟨q', rootFound, rootRunning⟩⟩ := s.live live
  have notCurrent : x ≠ m.current := by
    rintro rfl
    rw [target] at cur
    cases cur
    exact notRunning curRunning
  have notRoot : x ≠ m.root := by
    rintro rfl
    rw [target] at rootFound
    cases rootFound
    exact notRunning rootRunning
  have fiber : o.fiber = true := by
    cases h : o.fiber
    · exact absurd (s.retired x o notRoot target h) notEnded
    · rfl
  -- nobody waits on a context that is not running
  have unwaited : ∀ i o₁, m.outlineAt i = some o₁ → o₁.prev ≠ some x := by
    intro i o₁ found waits
    obtain ⟨p, found₁, running⟩ := s.resumerRunning i o₁ x found waits
    rw [target] at found₁
    cases found₁
    exact notRunning running
  have here : m'.outlineAt x = some { o with prev := some m.current, status := .running } := by
    rw [outlines, outlineAt_modifyContext, if_pos rfl]
    simp only [outlineAt] at target
    obtain ⟨c, stored, rfl⟩ := Option.map_eq_some_iff.mp target
    simp [stored, Context.outline]
  have other : ∀ i, x ≠ i → m'.outlineAt i = m.outlineAt i := by
    intro i ne
    rw [outlines, outlineAt_modifyContext, if_neg ne]
  refine ⟨⟨?_, ?_, ?_, ?_, ?_, ?_⟩, ?_, ?_⟩
  · intro i o₁ found fib k head
    by_cases at_ : x = i
    · subst at_
      rw [here] at found
      cases found
      exact s.fiberBottom x o target fib k head
    · rw [other i at_] at found
      exact s.fiberBottom i o₁ found fib k head
  · obtain ⟨p, found, plain, noPrev⟩ := s.rootPlain
    exact ⟨p, root ▸ (other _ notRoot).trans found, plain, noPrev⟩
  · intro i o₁ notRoot' found plain
    rw [root] at notRoot'
    by_cases at_ : x = i
    · subst at_
      rw [here] at found
      cases found
      simp [fiber] at plain
    · rw [other i at_] at found
      exact s.retired i o₁ notRoot' found plain
  · intro i o₁ r found waits
    by_cases at_ : x = i
    · subst at_
      rw [here] at found
      cases found
      cases waits
      exact ⟨q, (other _ notCurrent).trans cur, curRunning⟩
    · rw [other i at_] at found
      obtain ⟨p, found₁, running⟩ := s.resumerRunning i o₁ r found waits
      have ne : x ≠ r := fun same => unwaited i o₁ found (same ▸ waits)
      exact ⟨p, (other r ne).trans found₁, running⟩
  · intro i o₁ found waits
    rw [current] at waits
    by_cases at_ : x = i
    · subst at_
      rw [here] at found
      cases found
      exact notCurrent (Option.some.inj waits).symm
    · rw [other i at_] at found
      exact unwaited i o₁ found waits
  · -- the one new wait is on the context that was running, on which nobody waited
    intro i j o₁ o₂ r found₁ found₂ waits₁ waits₂
    by_cases atI : x = i <;> by_cases atJ : x = j
    · exact atI.symm.trans atJ
    · subst atI
      rw [here] at found₁
      cases found₁
      cases waits₁
      rw [other j atJ] at found₂
      exact absurd waits₂ (s.currentUnclaimed j o₂ found₂)
    · subst atJ
      rw [here] at found₂
      cases found₂
      cases waits₂
      rw [other i atI] at found₁
      exact absurd waits₁ (s.currentUnclaimed i o₁ found₁)
    · rw [other i atI] at found₁
      rw [other j atJ] at found₂
      exact s.resumerUnique i j o₁ o₂ r found₁ found₂ waits₁ waits₂
  · intro _
    rw [current, root]
    exact ⟨⟨_, here, rfl⟩, ⟨q', (other _ notRoot).trans rootFound, rootRunning⟩⟩
  · intro v ended
    rw [mode] at ended
    exact absurd ended (not_ended live v)

theorem Settled.spawned (s : Settled m) (live : m.mode.isHalted = false) (c : Context)
    (empty : c.frames = #[]) (noPrev : c.prev = none) (fiber : c.fiber.isSome = true)
    {m' : Machine} (outlines : ∀ i, m'.outlineAt i =
      ({ m with contexts := m.contexts.push c } : Machine).outlineAt i)
    (root : m'.root = m.root) (current : m'.current = m.current) (mode : m'.mode = m.mode) :
    Settled m' := by
  have beyond : m.outlineAt m.contexts.size = none := by simp [outlineAt]
  have here : m'.outlineAt m.contexts.size = some c.outline := by
    rw [outlines]
    simp [outlineAt]
  have other : ∀ i, i ≠ m.contexts.size → m'.outlineAt i = m.outlineAt i := by
    intro i ne
    rw [outlines]
    simp [outlineAt, Array.getElem?_push, ne]
  have old : ∀ i o, m.outlineAt i = some o → m'.outlineAt i = some o := by
    intro i o found
    have ne : i ≠ m.contexts.size := by
      rintro rfl
      rw [beyond] at found
      cases found
    exact (other i ne).trans found
  refine ⟨⟨?_, ?_, ?_, ?_, ?_, ?_⟩, ?_, ?_⟩
  · intro i o found fib k head
    by_cases at_ : i = m.contexts.size
    · subst at_
      rw [here] at found
      cases found
      simp [empty] at head
    · rw [other i at_] at found
      exact s.fiberBottom i o found fib k head
  · obtain ⟨p, found, plain, waits⟩ := s.rootPlain
    exact ⟨p, root ▸ old _ p found, plain, waits⟩
  · intro i o notRoot found plain
    rw [root] at notRoot
    by_cases at_ : i = m.contexts.size
    · subst at_
      rw [here] at found
      cases found
      simp [fiber] at plain
    · rw [other i at_] at found
      exact s.retired i o notRoot found plain
  · intro i o r found waits
    by_cases at_ : i = m.contexts.size
    · subst at_
      rw [here] at found
      cases found
      simp [noPrev] at waits
    · rw [other i at_] at found
      obtain ⟨p, found₁, running⟩ := s.resumerRunning i o r found waits
      exact ⟨p, old r p found₁, running⟩
  · intro i o found
    rw [current]
    by_cases at_ : i = m.contexts.size
    · subst at_
      rw [here] at found
      cases found
      simp [noPrev]
    · rw [other i at_] at found
      exact s.currentUnclaimed i o found
  · intro i j o p r found₁ found₂ waits₁ waits₂
    by_cases atI : i = m.contexts.size
    · subst atI
      rw [here] at found₁
      cases found₁
      simp [noPrev] at waits₁
    by_cases atJ : j = m.contexts.size
    · subst atJ
      rw [here] at found₂
      cases found₂
      simp [noPrev] at waits₂
    rw [other i atI] at found₁
    rw [other j atJ] at found₂
    exact s.resumerUnique i j o p r found₁ found₂ waits₁ waits₂
  · intro _
    obtain ⟨⟨o, cur, running⟩, ⟨p, rootFound, rootRunning⟩⟩ := s.live live
    rw [current, root]
    exact ⟨⟨o, old _ o cur, running⟩, ⟨p, old _ p rootFound, rootRunning⟩⟩
  · intro v ended
    rw [mode] at ended
    exact absurd ended (not_ended live v)

theorem Settled.ended (s : Settled m) (live : m.mode.isHalted = false) (atRoot : m.current = m.root)
    (empty : ¬m.HasTop) (h : Halt) : Settled { m with mode := .halted h } where
  fiberBottom := s.fiberBottom
  rootPlain := s.rootPlain
  retired := s.retired
  resumerRunning := s.resumerRunning
  currentUnclaimed := s.currentUnclaimed
  resumerUnique := s.resumerUnique
  live running := by simp [Mode.isHalted] at running
  halts _ _ := by
    obtain ⟨⟨o, found, _⟩, _⟩ := s.live live
    refine ⟨atRoot, o, atRoot ▸ found, ?_⟩
    exact Classical.byContradiction fun some => empty ⟨o, found, some⟩

theorem hasTop_updCurrent {c : Context} (stored : m.contexts[m.current]? = some c)
    (g : Context → Context) : (m.updCurrent g).HasTop ↔ (g c).frames.toList ≠ [] := by
  unfold HasTop
  rw [show (m.updCurrent g).current = m.current from rfl, outlineAt_updCurrent_self, stored]
  simp [Context.outline]

theorem stored_of_live (live : Live m) : ∃ c, m.contexts[m.current]? = some c ∧ c.status = .running := by
  obtain ⟨⟨o, found, running⟩, _⟩ := live.1.live live.2
  obtain ⟨c, stored, rfl⟩ := Option.map_eq_some_iff.mp (show m.contexts[m.current]?.map _ = _ from found)
  exact ⟨c, stored, running⟩

theorem hasTop_pushed (live : Live m) (f : Frame) :
    (m.updCurrent fun c => { c with frames := c.frames.push f }).HasTop := by
  obtain ⟨c, stored, _⟩ := stored_of_live live
  simp [hasTop_updCurrent stored]

theorem root_of_popped (live : Live m) {f : Frame} (top : m.top? = some f)
    (notResumed : f.kind ≠ .resumed) (gone : ¬(m.updCurrent fun c =>
      { c with frames := c.frames.pop }).HasTop) : m.current = m.root := by
  obtain ⟨c, stored, running⟩ := stored_of_live live
  rw [hasTop_updCurrent stored] at gone
  -- the popped frame was the only one, so it was the bottom frame
  have only : c.frames.toList = [f] := by
    have last : c.frames.toList.getLast? = some f := by
      simpa [top?, frames, stored, ← Array.getLast?_toList] using top
    obtain ⟨below, layout⟩ := List.getLast?_eq_some_iff.mp last
    have rest : c.frames.toList.dropLast = [] := by simpa using gone
    rw [layout, List.dropLast_concat] at rest
    rw [layout, rest]
    rfl
  have found : m.outlineAt m.current = some c.outline := by simp [outlineAt, stored]
  have bottom : c.outline.kinds.head? = some f.kind := by simp [only]
  by_cases atRoot : m.current = m.root
  · exact atRoot
  · cases fiber : c.outline.fiber
    · have ended := live.1.retired _ _ atRoot found fiber
      simp [running] at ended
    · exact absurd (live.1.fiberBottom _ _ found fiber _ bottom) notResumed

end Changes

section Operations

theorem Guards.keep {α : Type} {P : Machine → Prop} {x : MachineM α} (hx : Keeps outlineKept x)
    (stable : ∀ m m', P m → outlineKept.rel m m' → P m') : Guards P (fun _ => P) x := by
  intro m a m' pre run
  have kept := Keeps.rel_of_ok hx run
  exact ⟨stable m m' pre kept, kept.1⟩

theorem guards_setMode (md : Mode) (running : md.isHalted = false) :
    Guards (fun m => Live m ∧ ∀ prim call, md = .start prim call → m.HasTop) (fun _ => Disciplined)
      (setMode md) := by
  rintro m _ m' ⟨⟨s, live⟩, top⟩ run
  rw [setMode_run] at run
  cases run
  exact ⟨⟨s.withMode live md running, top⟩, rfl⟩

theorem guards_popFrame : Guards Live (fun _ => Live) popFrame := by
  rintro m _ m' ⟨s, live⟩ run
  obtain ⟨f, top, st, _, rfl⟩ := popFrame_ok run
  exact ⟨⟨(s.popped live).withStore st, live⟩, rfl⟩

theorem currentContext_ok {m m' : Machine} {c : Context} (run : currentContext.run m = .ok c m') :
    m' = m ∧ m.contexts[m.current]? = some c := by
  rw [currentContext_run] at run
  split at run
  · next stored => cases run; exact ⟨rfl, stored⟩
  · cases run

theorem outlineKept_nextSerial : Keeps outlineKept nextSerial :=
  fun _ => ⟨rfl, rfl, rfl, fun _ => rfl⟩

def Room (kind : CallKind) (m : Machine) : Prop :=
  Live m ∧ (m.current = m.root ∨ m.HasTop ∨ kind = .resumed)

theorem Room.of_outlineKept {kind : CallKind} {m m' : Machine} (h : Room kind m)
    (kept : outlineKept.rel m m') : Room kind m' := by
  obtain ⟨live, room⟩ := h
  refine ⟨live.of_outlineKept kept, ?_⟩
  rw [kept.1, kept.2.1]
  rcases room with atRoot | top | resumed
  · exact .inl atRoot
  · exact .inr (.inl (top.of_outlineKept kept))
  · exact .inr (.inr resumed)

def Pushed (r : Option Fatal) (m : Machine) : Prop := Live m ∧ (r = none → m.HasTop)

theorem guards_pushFrame (code : FrameCode) (base argc kwc : Nat) (mid : Sym)
    (owner : Option ObjRef) (acc : Int) (blk : Value) (kind : CallKind) :
    Guards (Room kind) Pushed (pushFrame code base argc kwc mid owner acc blk kind) := by
  have stable : ∀ m m', Room kind m → outlineKept.rel m m' → Room kind m' :=
    fun _ _ h kept => h.of_outlineKept kept
  unfold pushFrame
  refine Guards.bind (Guards.keep (outlineKept_of_readOnly readOnly_currentContext) stable) fun c => ?_
  refine Guards.bind (Guards.keep Keeps.get stable) fun m₀ => ?_
  split
  · exact Guards.mono (Guards.pure _) (fun m pre => ⟨pre.1, nofun⟩) fun _ _ post => post
  · refine Guards.bind (Guards.keep (outlineKept_growStack _) stable) fun _ => ?_
    refine Guards.bind (Guards.keep (outlineKept_modifyCurrent fun _ => rfl) stable) fun _ => ?_
    refine Guards.bind (Guards.keep outlineKept_nextSerial stable) fun serial => ?_
    rintro m _ m' ⟨⟨s, live⟩, room⟩ run
    simp only [EStateM.run_bind, modifyCurrent_run] at run
    cases run
    refine ⟨⟨⟨s.pushed live _ ?_, live⟩, fun _ => hasTop_pushed ⟨s, live⟩ _⟩, rfl⟩
    rcases room with atRoot | top | resumed
    · exact .inl atRoot
    · exact .inr (.inl (hasTop_iff.mp top))
    · exact .inr (.inr resumed)

theorem guards_fiberEnded (result : Except Value Value) :
    Guards Live (fun _ => Disciplined) (fiberEnded result) := by
  rintro m _ m' ⟨s, live⟩ run
  obtain ⟨c, m₁, got, run⟩ := bind_run_ok run
  obtain ⟨same, stored⟩ := currentContext_ok got
  rw [same] at run
  have cur : m.outlineAt m.current = some c.outline := by simp [outlineAt, stored]
  cases waits : c.prev with
  | none => simp only [waits] at run; cases run
  | some r =>
    simp only [waits, EStateM.run_bind, modifyCurrent_run, EStateM.run_modify] at run
    cases result <;> (rw [setMode_run] at run; cases run) <;>
      exact ⟨⟨s.handBack live cur waits .terminated (fun _ => rfl) rfl rfl rfl,
        fun _ _ start => by cases start⟩, rfl⟩

theorem guards_depthChoice (md : Mode) (running : md.isHalted = false)
    (notStart : ∀ prim call, md ≠ .start prim call) (h : Halt) :
    Guards (fun m => Live m ∧ (¬m.HasTop → m.current = m.root)) (fun _ => Disciplined)
      (do if (← depth) > 0 then setMode md else setMode (.halted h)) := by
  rintro m _ m' ⟨⟨s, live⟩, atRoot⟩ run
  obtain ⟨d, m₁, got, run⟩ := bind_run_ok run
  rw [depth_run] at got
  cases stored : m.contexts[m.current]? with
  | none => rw [stored] at got; cases got
  | some c =>
    rw [stored] at got
    cases got
    by_cases deep : c.frames.size > 0
    · rw [if_pos deep, setMode_run] at run
      cases run
      exact ⟨⟨s.withMode live md running, fun prim call start => absurd start (notStart prim call)⟩,
        rfl⟩
    · rw [if_neg deep, setMode_run] at run
      cases run
      have gone : ¬m.HasTop := by
        rw [hasTop_iff, frames_of_current stored]
        simpa using deep
      exact ⟨⟨s.ended live (atRoot gone) gone h, fun _ _ start => nomatch start⟩, rfl⟩

def Left (kind : CallKind) (m : Machine) : Prop :=
  Live m ∧ (kind ≠ .resumed → ¬m.HasTop → m.current = m.root)

theorem guards_leaveWithValue (kind : CallKind) (v : Value) :
    Guards (Left kind) (fun _ => Disciplined) (leaveWithValue kind v) := by
  unfold leaveWithValue
  cases kind with
  | resumed => exact (guards_fiberEnded _).mono (fun _ pre => pre.1) fun _ _ post => post
  | vm =>
    exact (guards_depthChoice (.resume v) rfl (fun _ _ start => nomatch start) _).mono
      (fun _ pre => ⟨pre.1, pre.2 nofun⟩) fun _ _ post => post
  | host =>
    exact (guards_depthChoice (.resume v) rfl (fun _ _ start => nomatch start) _).mono
      (fun _ pre => ⟨pre.1, pre.2 nofun⟩) fun _ _ post => post

theorem guards_leaveWithException (kind : CallKind) (exc : Value) :
    Guards (Left kind) (fun _ => Disciplined) (leaveWithException kind exc) := by
  unfold leaveWithException
  cases kind with
  | resumed => exact (guards_fiberEnded _).mono (fun _ pre => pre.1) fun _ _ post => post
  | vm =>
    exact (guards_depthChoice (.throw exc) rfl (fun _ _ start => nomatch start) _).mono
      (fun _ pre => ⟨pre.1, pre.2 nofun⟩) fun _ _ post => post
  | host =>
    exact (guards_depthChoice (.throw exc) rfl (fun _ _ start => nomatch start) _).mono
      (fun _ pre => ⟨pre.1, pre.2 nofun⟩) fun _ _ post => post

theorem guards_topFrame_at : Guards Live (fun f m => Live m ∧ m.top? = some f) topFrame := by
  intro m f m' live run
  obtain ⟨rfl, top⟩ := topFrame_ok run
  exact ⟨⟨live, top⟩, rfl⟩

theorem guards_popFrame_left (f : Frame) :
    Guards (fun m => Live m ∧ m.top? = some f) (fun _ => Left f.kind) popFrame := by
  rintro m _ m' ⟨live, top⟩ pop
  obtain ⟨popped, root⟩ := guards_popFrame m () m' live pop
  refine ⟨⟨popped, fun notResumed gone => ?_⟩, root⟩
  obtain ⟨g, top', st, _, rfl⟩ := popFrame_ok pop
  exact root_of_popped (m := m) live top notResumed gone

theorem guards_returnFrom (v : Value) : Guards Live (fun _ => Disciplined) (returnFrom v) := by
  unfold returnFrom
  refine Guards.bind guards_topFrame_at fun f => ?_
  refine Guards.bind (guards_popFrame_left f) fun _ => ?_
  split
  · exact guards_leaveWithValue f.kind v
  · -- the caller receives the value in the register that made the call
    have stable : ∀ m m', Live m → outlineKept.rel m m' → Live m' :=
      fun _ _ live kept => live.of_outlineKept kept
    refine Guards.mono ?_ (fun _ left => left.1) fun _ _ post => post
    refine Guards.bind (Guards.keep (outlineKept_of_readOnly readOnly_topFrame) stable) fun _ => ?_
    refine Guards.bind (Guards.keep (outlineKept_setSlot _ _) stable) fun _ => ?_
    exact (guards_setMode .run rfl).mono (fun _ live => ⟨live, fun _ _ start => nomatch start⟩)
      fun _ _ post => post

theorem outlineKept_withPc (m : Machine) (pc : Int) : outlineKept.rel m (m.withPc pc) :=
  outlineKept_modifyTop (g := fun f => { f with pc }) (fun _ => rfl) m

theorem outlineKept_withExc (m : Machine) (exc : Value) : outlineKept.rel m (m.withExc exc) :=
  outlineKept_setExc exc m

theorem outlineKept_receive (m : Machine) (f : Frame) (acc : Int) (v : Value) :
    outlineKept.rel m (m.receive f acc v) := by
  unfold receive
  split
  · exact outlineKept_modifyCurrent (g := fun c => { c with stack := c.stack.set! _ v })
      (fun _ => rfl) m
  · exact outlineKept.refl m

theorem disciplined_resumeAt {m : Machine} (live : Live m) (pc : Int) (exc : Value) :
    Disciplined (m.resumeAt pc exc) := by
  have kept := outlineKept.trans (outlineKept_withPc m pc) (outlineKept_withExc _ exc)
  have live' := live.of_outlineKept kept
  exact ⟨live'.1.withMode live'.2 .run rfl, fun _ _ start => nomatch start⟩

theorem Left.of_outlineKept {kind : CallKind} {m m' : Machine} (h : Left kind m)
    (kept : outlineKept.rel m m') : Left kind m' := by
  refine ⟨h.1.of_outlineKept kept, fun notResumed gone => ?_⟩
  rw [kept.1, kept.2.1]
  refine h.2 notResumed fun top => gone (top.of_outlineKept kept)

theorem disciplined_of_unwinds {exc : Value} {brk : Option (BreakKind × Nat × Value)} {acc : Int}
    {m m' : Machine} (unwinds : Unwinds exc brk acc m m') (live : Live m) :
    Disciplined m' ∧ m'.root = m.root := by
  induction unwinds with
  | caught => exact ⟨disciplined_resumeAt live _ _, rfl⟩
  | popped _ _ _ _ pop _ ih =>
    obtain ⟨popped, root⟩ := guards_popFrame _ () _ live pop
    obtain ⟨d, root'⟩ := ih popped
    exact ⟨d, root'.trans root⟩
  | left top _ _ _ pop leave =>
    obtain ⟨left, root⟩ := guards_popFrame_left _ _ () _ ⟨live, top⟩ pop
    exact guards_leaveWithException _ exc _ () _ (left.of_outlineKept (outlineKept_withExc _ _))
      leave |>.imp_right (·.trans root)
  | delivered =>
    exact ⟨disciplined_resumeAt (live.of_outlineKept (outlineKept_receive _ _ _ _)) _ _,
      (outlineKept_receive _ _ _ _).1⟩
  | @returned _ m₀ _ _ _ _ _ _ ret =>
    have kept := outlineKept_withExc m₀ Value.nil
    obtain ⟨d, root⟩ := guards_returnFrom _ _ () _ (live.of_outlineKept kept) ret
    exact ⟨d, root.trans kept.1⟩

theorem guards_unwind (exc : Value) : Guards Live (fun _ => Disciplined) (unwind exc) := by
  rintro m _ m' live run
  obtain ⟨m₀, brk, noted, _, unwinds⟩ := unwind_run_iff.mp run
  have kept := Keeps.rel_of_ok (Keeps.outlineKept_of_storeOnly (storeOnly_noteBacktrace exc)) noted
  obtain ⟨d, root⟩ := disciplined_of_unwinds unwinds (live.of_outlineKept kept)
  exact ⟨d, root.trans kept.1⟩

theorem top?_of_storeOnly {m m' : Machine} (h : storeOnly.rel m m') : m'.top? = m.top? := by
  have same : m' = { m with store := m'.store } := h
  rw [same]
  rfl

theorem guards_nativeRaise (exc : Value) : Guards Live (fun _ => Disciplined) (nativeRaise exc) := by
  unfold nativeRaise
  refine Guards.bind guards_topFrame_at fun f => ?_
  split
  · exact (guards_unwind exc).mono (fun _ h => h.1) fun _ _ post => post
  · -- a boundary frame raising leaves at once
    have noted : Guards (fun m => Live m ∧ m.top? = some f) (fun _ m => Live m ∧ m.top? = some f)
        (noteBacktrace exc) := by
      intro m _ m' ⟨live, top⟩ run
      have kept := Keeps.rel_of_ok (storeOnly_noteBacktrace exc) run
      exact ⟨⟨live.of_outlineKept (outlineKept_of_storeOnly kept),
        (top?_of_storeOnly kept).trans top⟩, (outlineKept_of_storeOnly kept).1⟩
    refine Guards.bind noted fun _ => ?_
    refine Guards.bind (guards_popFrame_left f) fun _ => ?_
    exact guards_leaveWithException f.kind exc

theorem guards_throwToCaller (exc : Value) :
    Guards (fun m => Live m ∧ (m.current = m.root ∨ m.HasTop)) (fun _ => Disciplined)
      (throwToCaller exc) := by
  refine (guards_depthChoice (.throw exc) rfl (fun _ _ start => nomatch start) _).mono ?_
    fun _ _ post => post
  rintro m ⟨live, room⟩
  refine ⟨live, fun gone => ?_⟩
  rcases room with atRoot | top
  · exact atRoot
  · exact absurd top gone

theorem guards_fatal (err : Fatal) : Guards Live (fun _ => Disciplined) (setMode (.fatal err)) :=
  (guards_setMode _ rfl).mono (fun _ live => ⟨live, fun _ _ start => nomatch start⟩)
    fun _ _ post => post

theorem guards_run : Guards Live (fun _ => Disciplined) (setMode .run) :=
  (guards_setMode _ rfl).mono (fun _ live => ⟨live, fun _ _ start => nomatch start⟩)
    fun _ _ post => post

theorem guards_startNative (prim : Primitive) (self : Value) :
    Guards (fun m => Live m ∧ m.HasTop) (fun _ => Disciplined) (startNative prim self) := by
  unfold startNative
  refine Guards.bind (Guards.keep (Keeps.outlineKept_of_storeOnly (storeOnly_nativeCall self))
    fun _ _ h kept => ⟨h.1.of_outlineKept kept, h.2.of_outlineKept kept⟩) fun call => ?_
  refine (guards_setMode _ rfl).mono ?_ fun _ _ post => post
  rintro m ⟨live, top⟩
  exact ⟨live, fun _ _ _ => top⟩

theorem guards_pushed_fatal (err : Fatal) :
    Guards (Pushed (some err)) (fun _ => Disciplined) (setMode (.fatal err)) :=
  (guards_fatal err).mono (fun _ h => h.1) fun _ _ post => post

theorem guards_pushed_start (prim : Primitive) (self : Value) :
    Guards (Pushed none) (fun _ => Disciplined) (startNative prim self) :=
  (guards_startNative prim self).mono (fun _ h => ⟨h.1, h.2 rfl⟩) fun _ _ post => post

theorem guards_pushed_run : Guards (Pushed none) (fun _ => Disciplined) (setMode .run) :=
  guards_run.mono (fun _ h => h.1) fun _ _ post => post

theorem guards_callMethod (recv : Value) (meth : Method) (owner : Option ObjRef) (mid : Sym)
    (args : Array Value) (kw : Option HashTable) (blk : Value) (kind : CallKind) :
    Guards (Room kind) (fun _ => Disciplined) (callMethod recv meth owner mid args kw blk kind) := by
  have stable : ∀ m m', Room kind m → outlineKept.rel m m' → Room kind m' :=
    fun _ _ h kept => h.of_outlineKept kept
  unfold callMethod
  refine Guards.bind (Guards.keep (outlineKept_of_readOnly readOnly_stackTop) stable) fun base => ?_
  refine Guards.bind (Guards.keep (outlineKept_placeArgs _ _ _ _ _) stable) fun counts => ?_
  obtain ⟨argc, kwc⟩ := counts
  refine Guards.bind (Guards.keep (outlineKept_of_readOnly (readOnly_codeOf _)) stable) fun code => ?_
  -- the callee is a built-in method, compiled code, or missing
  split
  all_goals first
    | exact Guards.throw _
    | refine Guards.bind (guards_pushFrame _ _ _ _ _ _ _ _ _) fun r => ?_
      split
      · exact guards_pushed_fatal _
      · first
          | exact guards_pushed_start _ _
          | exact guards_pushed_run

theorem guards_callProc (p : ObjRef) (args : Array Value) (kw : Option HashTable) (blk : Value)
    (kind : CallKind) : Guards (Room kind) (fun _ => Disciplined) (callProc p args kw blk kind) := by
  have stable : ∀ m m', Room kind m → outlineKept.rel m m' → Room kind m' :=
    fun _ _ h kept => h.of_outlineKept kept
  unfold callProc
  refine Guards.bind (Guards.keep (outlineKept_of_readOnly (readOnly_procOf? _)) stable) fun found => ?_
  split
  · refine Guards.bind (Guards.keep (outlineKept_of_readOnly (readOnly_procSelf _)) stable) fun r => ?_
    exact guards_callMethod _ _ _ _ _ _ _ _
  · exact Guards.throw _

end Operations

end Machine

end RegisterVM
