import RegisterVM.Proofs.Machine.Stepping
import RegisterVM.Host.Enter

set_option autoImplicit false

namespace RegisterVM

namespace Machine

def EndsFailing {α : Type} (x : MachineM α) : Prop :=
  ∀ m a m', x.run m = .ok a m' → m'.Failing

theorem EndsFailing.bind {α β : Type} {x : MachineM α} {f : α → MachineM β}
    (hf : ∀ a, EndsFailing (f a)) : EndsFailing (x >>= f) := by
  intro m b m' run
  obtain ⟨a, m₁, _, second⟩ := bind_run_ok run
  exact hf a m₁ b m' second

theorem endsFailing_setMode (md : Mode) (failing : ∀ m : Machine, Failing { m with mode := md }) :
    EndsFailing (setMode md) := by
  intro m _ m' run
  rw [setMode_run] at run
  cases run
  exact failing m

theorem endsFailing_leaveContext (err : Fatal) : EndsFailing (failContext.leaveContext err) := by
  unfold failContext.leaveContext
  repeat' (first
    | exact endsFailing_setMode (.fatal err) fun _ => trivial
    | exact endsFailing_setMode (.halted (.fatal err)) fun _ => trivial
    | refine EndsFailing.bind fun _ => ?_
    | split)

theorem endsFailing_failContext (err : Fatal) : EndsFailing (failContext err) := by
  unfold failContext
  dsimp only
  repeat' (first
    | exact endsFailing_leaveContext err
    | refine EndsFailing.bind fun _ => ?_
    | split)

theorem endsFailing_fault (f : Fault) : EndsFailing (fault f) := by
  unfold fault
  repeat' (first
    | exact endsFailing_leaveContext _
    | exact endsFailing_setMode (.halted (.fault f)) fun _ => trivial
    | refine EndsFailing.bind fun _ => ?_
    | split)

theorem step_run_of_fatal {m : Machine} {err : Fatal} (mode : m.mode = .fatal err) :
    step.run m = (failContext err).run m := by
  simp only [step, EStateM.run_bind, EStateM.run_get, mode]

theorem step_run_of_halted {m : Machine} {h : Halt} (mode : m.mode = .halted h) :
    step.run m = .ok () m := by
  simp only [step, EStateM.run_bind, EStateM.run_get, mode, EStateM.run_pure]

theorem failing_advance_of_error {m m₁ : Machine} {f : Fault} (err : step.run m = .error f m₁) :
    (advance m).Failing := by
  unfold advance
  rw [err]
  dsimp only
  split
  · next m₂ run => exact endsFailing_fault f m₁ () m₂ run
  · exact trivial

theorem failing_advance {m : Machine} (failing : m.Failing) : (advance m).Failing := by
  unfold Failing at failing
  split at failing
  · next err mode =>
    cases run : step.run m with
    | ok u m' =>
      have ended := endsFailing_failContext err m u m' ((step_run_of_fatal mode).symm.trans run)
      unfold advance
      rw [run]
      exact ended
    | error f m₁ => exact failing_advance_of_error run
  all_goals first
    | exact absurd failing id
    | next h mode =>
      unfold advance
      rw [step_run_of_halted mode]
      simp only [Failing, mode]

def Sound (root : Nat) (m : Machine) : Prop := (Disciplined m ∧ m.root = root) ∨ m.Failing

theorem advance_sound {root : Nat} {m : Machine} (sound : Sound root m) : Sound root (advance m) := by
  rcases sound with ⟨d, atRoot⟩ | failing
  · by_cases failing : m.Failing
    · exact .inr (failing_advance failing)
    -- a step from a disciplined machine that completes keeps it so; one that faults fails
    cases run : step.run m with
    | ok u m' =>
      obtain ⟨d', root'⟩ := guards_step m u m' ⟨d, failing⟩ run
      unfold advance
      rw [run]
      exact .inl ⟨d', root'.trans atRoot⟩
    | error f m₁ => exact .inr (failing_advance_of_error run)
  · exact .inr (failing_advance failing)

theorem runFor_sound {root : Nat} (fuel : Nat) {m : Machine} (sound : Sound root m) :
    Sound root (runFor fuel m) := by
  induction fuel generalizing m with
  | zero => exact sound
  | succ fuel ih =>
    unfold runFor
    split
    · exact sound
    · exact ih (advance_sound sound)

def rootFrames (m : Machine) : Array Frame := (m.contexts.getD m.root default).frames

structure Ready (m : Machine) : Prop extends Linked m where
  atRoot : m.current = m.root
  rest : ∃ o, m.outlineAt m.root = some o ∧ (o.kinds = [] ∨ o.status = .terminated)

theorem ready_fresh (store : Store) (limits : Limits) :
    Ready { store, contexts := #[freshContext limits], limits } := by
  -- the root is the only context
  have only : ∀ i o, ({ store, contexts := #[freshContext limits], limits } : Machine).outlineAt i =
      some o → i = 0 ∧ o = (freshContext limits).outline := by
    intro i o found
    simp only [outlineAt] at found
    obtain ⟨c, stored, rfl⟩ := Option.map_eq_some_iff.mp found
    cases i with
    | zero =>
      simp only [List.getElem?_toArray, List.getElem?_cons_zero, Option.some.injEq] at stored
      exact ⟨rfl, by rw [stored]⟩
    | succ i => simp at stored
  have root : ({ store, contexts := #[freshContext limits], limits } : Machine).outlineAt 0 =
      some (freshContext limits).outline := by simp [outlineAt]
  refine ⟨⟨?_, ⟨_, root, rfl, rfl⟩, ?_, ?_, ?_, ?_⟩, rfl, ⟨_, root, .inl rfl⟩⟩
  · intro i o found fiber
    obtain ⟨_, rfl⟩ := only i o found
    cases fiber
  · intro i o other found
    obtain ⟨rfl, _⟩ := only i o found
    exact absurd rfl other
  · intro i o r found waits
    obtain ⟨_, rfl⟩ := only i o found
    cases waits
  · intro i o found waits
    obtain ⟨_, rfl⟩ := only i o found
    cases waits
  · intro i j o p r found _ waits _
    obtain ⟨_, rfl⟩ := only i o found
    cases waits

theorem ready_of_boot (opts : Options) :
    match boot opts with
    | .ok m => Ready m
    | .error _ => True := by
  unfold boot
  cases (Store.boot.run {} : EStateM.Result Fault Store Unit) with
  | ok _ store => exact ready_fresh store opts.limits
  | error => trivial

section Changes

variable {m : Machine}

theorem Linked.rootStatus (l : Linked m)
    (unclaimed : ∀ i o, m.outlineAt i = some o → o.prev ≠ some m.root) (st : Status) {g : Context → Context}
    (marks : ∀ c, (g c).outline = { c.outline with status := st }) :
    Linked { m with contexts := m.contexts.modify m.root g } := by
  -- outlines are those of `m`, with the root's status changed
  have back : ∀ i o', ({ m with contexts := m.contexts.modify m.root g } : Machine).outlineAt i = some o' →
      ∃ o, m.outlineAt i = some o ∧ o'.kinds = o.kinds ∧ o'.prev = o.prev ∧ o'.fiber = o.fiber ∧
        (i ≠ m.root → o' = o) := by
    intro i o' found
    rw [outlineAt_modifyContext] at found
    split at found
    · next here =>
      subst here
      obtain ⟨c, stored, rfl⟩ := Option.map_eq_some_iff.mp found
      rw [marks]
      exact ⟨c.outline, by simp [outlineAt, stored], rfl, rfl, rfl, fun ne => absurd rfl ne⟩
    · next other => exact ⟨o', found, rfl, rfl, rfl, fun _ => rfl⟩
  have forth : ∀ i o, m.outlineAt i = some o → i ≠ m.root →
      ({ m with contexts := m.contexts.modify m.root g } : Machine).outlineAt i = some o := by
    intro i o found other
    rw [outlineAt_modifyContext, if_neg (Ne.symm other)]
    exact found
  refine ⟨?_, ?_, ?_, ?_, ?_, ?_⟩
  · intro i o' found' fiber k head
    obtain ⟨o, found, kinds, _, fib, _⟩ := back i o' found'
    exact l.fiberBottom i o found (fib ▸ fiber) k (kinds ▸ head)
  · obtain ⟨o, found, plain, noPrev⟩ := l.rootPlain
    refine ⟨{ o with status := st }, ?_, plain, noPrev⟩
    rw [outlineAt_modifyContext, if_pos rfl]
    simp only [outlineAt] at found
    obtain ⟨c, stored, rfl⟩ := Option.map_eq_some_iff.mp found
    simp [stored, marks]
  · intro i o' other found' plain
    obtain ⟨o, found, _, _, fib, same⟩ := back i o' found'
    rw [same other]
    exact l.retired i o other found (fib ▸ plain)
  · intro i o' r found' waits'
    obtain ⟨o, found, _, prev, _, _⟩ := back i o' found'
    have waits : o.prev = some r := prev ▸ waits'
    -- the resumer is not the root, so its status is unchanged
    have notRoot : r ≠ m.root := fun same => unclaimed i o found (same ▸ waits)
    obtain ⟨p, resumer, running⟩ := l.resumerRunning i o r found waits
    exact ⟨p, forth r p resumer notRoot, running⟩
  · intro i o' found'
    obtain ⟨o, found, _, prev, _, _⟩ := back i o' found'
    rw [prev]
    exact l.currentUnclaimed i o found
  · intro i j o' p' r found' found₂' waits' waits₂'
    obtain ⟨o, found, _, prev, _, _⟩ := back i o' found'
    obtain ⟨p, found₂, _, prev₂, _, _⟩ := back j p' found₂'
    exact l.resumerUnique i j o p r found found₂ (prev ▸ waits') (prev₂ ▸ waits₂')

theorem outlineAt_push (c : Context) (i : Nat) :
    ({ m with contexts := m.contexts.push c } : Machine).outlineAt i =
      if i = m.contexts.size then some c.outline else m.outlineAt i := by
  simp only [outlineAt, Array.getElem?_push]
  split <;> rfl

theorem outlineAt_size : m.outlineAt m.contexts.size = none := by
  simp [outlineAt]

theorem Linked.replaced (l : Linked m)
    (ended : ∀ o, m.outlineAt m.root = some o → o.status = .terminated) (c : Context)
    (plain : c.fiber = none) (noPrev : c.prev = none) :
    Linked { m with
      contexts := m.contexts.push c, root := m.contexts.size, current := m.contexts.size } := by
  -- a context that is waited on is one of the old ones
  have old : ∀ i o r, m.outlineAt i = some o → o.prev = some r → r ≠ m.contexts.size := by
    intro i o r found waits same
    obtain ⟨p, resumer, _⟩ := l.resumerRunning i o r found waits
    rw [same, outlineAt_size] at resumer
    cases resumer
  have new : ∀ i o, ({ m with
      contexts := m.contexts.push c, root := m.contexts.size, current := m.contexts.size } :
        Machine).outlineAt i = some o →
      (i = m.contexts.size ∧ o = c.outline) ∨ (i ≠ m.contexts.size ∧ m.outlineAt i = some o) := by
    intro i o found
    rw [show ({ m with
      contexts := m.contexts.push c, root := m.contexts.size, current := m.contexts.size } :
        Machine).outlineAt i = ({ m with contexts := m.contexts.push c } : Machine).outlineAt i
      from rfl, outlineAt_push] at found
    split at found
    · next here => exact .inl ⟨here, (Option.some.inj found).symm⟩
    · next other => exact .inr ⟨other, found⟩
  refine ⟨?_, ?_, ?_, ?_, ?_, ?_⟩
  · intro i o found fiber k head
    rcases new i o found with ⟨_, rfl⟩ | ⟨_, found⟩
    · simp [plain] at fiber
    · exact l.fiberBottom i o found fiber k head
  · refine ⟨c.outline, ?_, by simp [plain], by simp [noPrev]⟩
    show ({ m with contexts := m.contexts.push c } : Machine).outlineAt m.contexts.size = _
    rw [outlineAt_push, if_pos rfl]
  · intro i o other found fiber
    rcases new i o found with ⟨here, _⟩ | ⟨_, found⟩
    · exact absurd here other
    · by_cases wasRoot : i = m.root
      · exact ended o (wasRoot ▸ found)
      · exact l.retired i o wasRoot found fiber
  · intro i o r found waits
    rcases new i o found with ⟨_, rfl⟩ | ⟨_, found⟩
    · simp [noPrev] at waits
    · obtain ⟨p, resumer, running⟩ := l.resumerRunning i o r found waits
      refine ⟨p, ?_, running⟩
      show ({ m with contexts := m.contexts.push c } : Machine).outlineAt r = _
      rw [outlineAt_push, if_neg (old i o r found waits)]
      exact resumer
  · intro i o found waits
    rcases new i o found with ⟨_, rfl⟩ | ⟨_, found⟩
    · simp [noPrev] at waits
    · exact old i o _ found waits rfl
  · intro i j o p r found found₂ waits waits₂
    rcases new i o found with ⟨_, rfl⟩ | ⟨_, found⟩
    · simp [noPrev] at waits
    rcases new j p found₂ with ⟨_, rfl⟩ | ⟨_, found₂⟩
    · simp [noPrev] at waits₂
    exact l.resumerUnique i j o p r found found₂ waits waits₂

theorem Linked.congr {m m' : Machine} (l : Linked m) (outlines : ∀ i, m'.outlineAt i = m.outlineAt i)
    (root : m'.root = m.root) (current : m'.current = m.current) : Linked m' := by
  have same : m'.outlineAt = m.outlineAt := funext outlines
  refine ⟨?_, ?_, ?_, ?_, ?_, ?_⟩ <;> rw [same] <;> (try rw [root]) <;> (try rw [current])
  · exact l.fiberBottom
  · exact l.rootPlain
  · exact l.retired
  · exact l.resumerRunning
  · exact l.currentUnclaimed
  · exact l.resumerUnique

end Changes

structure Entry (m : Machine) : Prop extends Linked m where
  atRoot : m.current = m.root
  fresh : ∃ c, m.contexts[m.root]? = some c ∧ c.frames = #[]

theorem prepareEntry_ok {m m₁ : Machine} {res : Option HostError} (ready : Ready m)
    (run : prepareEntry.run m = .ok res m₁) :
    res = none ∧ Entry m₁ ∧ (∀ o, m.outlineAt m.root = some o → o.status ≠ .terminated → m₁ = m) := by
  unfold prepareEntry at run
  obtain ⟨c, m₀, got, rest⟩ := bind_run_ok run
  obtain ⟨same, stored⟩ := currentContext_ok got
  rw [same] at rest
  rw [ready.atRoot] at stored
  have found : m.outlineAt m.root = some c.outline := by simp [outlineAt, stored]
  by_cases ended : c.status = .terminated
  · simp only [ended, bne_self_eq_false, Bool.false_eq_true, if_false, EStateM.run_bind,
      EStateM.run_get, ready.atRoot, EStateM.run_set, EStateM.run_pure] at rest
    cases rest
    refine ⟨rfl, ⟨ready.toLinked.replaced ?_ (freshContext m.limits) rfl rfl, rfl, ?_⟩, ?_⟩
    · intro o found'
      rw [found] at found'
      cases found'
      exact ended
    · exact ⟨freshContext m.limits, by simp, rfl⟩
    · intro o found' running
      rw [found] at found'
      cases found'
      exact absurd ended running
  · simp only [ended, bne_iff_ne, ne_eq, not_false_eq_true, if_true, EStateM.run_pure] at rest
    cases rest
    -- a root that has not ended has no frames left
    obtain ⟨o, found', empty⟩ := ready.rest
    rw [found] at found'
    cases found'
    have frames : c.frames = #[] := by
      rcases empty with empty | ended'
      · simpa [Context.outline] using empty
      · exact absurd ended' ended
    exact ⟨rfl, ⟨ready.toLinked, ready.atRoot, c, stored, frames⟩, fun _ _ _ => rfl⟩

theorem room_of_entry {m : Machine} (e : Entry m) {g : Context → Context}
    (marks : ∀ c, (g c).outline = { c.outline with status := .running }) :
    Room .host { { m with contexts := m.contexts.modify m.current g } with mode := .run } := by
  obtain ⟨c, stored, _⟩ := e.fresh
  have unclaimed : ∀ i o, m.outlineAt i = some o → o.prev ≠ some m.root :=
    fun i o found => e.atRoot ▸ e.currentUnclaimed i o found
  have linked := e.toLinked.rootStatus unclaimed .running marks
  have running : ({ m with contexts := m.contexts.modify m.root g } : Machine).outlineAt m.root =
        some { c.outline with status := .running } := by
    rw [outlineAt_modifyContext, if_pos rfl]
    simp [stored, marks]
  rw [e.atRoot]
  refine ⟨⟨⟨linked.congr (fun _ => rfl) rfl e.atRoot.symm, fun _ => ?_, fun _ halted => ?_⟩, rfl⟩, .inl rfl⟩
  · exact ⟨⟨_, running, rfl⟩, ⟨_, running, rfl⟩⟩
  · rcases halted with halted | halted <;> cases halted

inductive HostCall : MachineM Unit → Prop
  | runTop (body : Procedure) : HostCall (runTop body)
  | send (recv : Value) (name : String) (args : Array Value) : HostCall (hostSend recv name args)
  | callProc (p : ObjRef) (args : Array Value) : HostCall (callProc p args none .nil .host)

theorem guards_hostCall {start : MachineM Unit} (call : HostCall start) :
    Guards (Room .host) (fun _ => Disciplined) start := by
  cases call with
  | runTop body =>
    unfold runTop
    refine Guards.bind (Guards.keep (Keeps.outlineKept_of_storeOnly (storeOnly_liftStore _))
      (Room.stable .host)) fun _ => ?_
    refine Guards.bind (Guards.keep (Keeps.outlineKept_of_storeOnly (storeOnly_liftStore _))
      (Room.stable .host)) fun _ => ?_
    exact guards_callMethod _ _ _ _ _ _ _ _
  | send recv name args =>
    unfold hostSend
    refine Guards.bind (Guards.keep (Keeps.outlineKept_of_storeOnly (storeOnly_liftStore _))
      (Room.stable .host)) fun _ => ?_
    exact guards_funcall _ _ _ _ _
  | callProc p args => exact guards_callProc p args none .nil .host

theorem sound_of_start {m : Machine} {start : MachineM Unit} (e : Entry m) (call : HostCall start)
    {g : Context → Context} (marks : ∀ c, (g c).outline = { c.outline with status := .running }) :
    Sound m.root (match start.run { { m with contexts := m.contexts.modify m.current g } with mode := .run } with
      | .ok () m => m
      | .error f m =>
        match (fault f).run m with
        | .ok () m => m
        | .error f m => { m with mode := .halted (.fault f) }) := by
  split
  · next m₁ run =>
    obtain ⟨d, root⟩ := guards_hostCall call _ () m₁ (room_of_entry e marks) run
    exact .inl ⟨d, root⟩
  · next f m₁ _ =>
    right
    split
    · next m₂ run => exact endsFailing_fault f m₁ () m₂ run
    · exact trivial

theorem rootFrames_eq_nil {m : Machine} {o : Context.Outline} (found : m.outlineAt m.root = some o)
    (empty : o.kinds = []) : m.rootFrames = #[] := by
  simp only [outlineAt] at found
  obtain ⟨c, stored, rfl⟩ := Option.map_eq_some_iff.mp found
  simp only [Context.outline, List.map_eq_nil_iff, Array.toList_eq_nil_iff] at empty
  simp [rootFrames, Array.getD_eq_getD_getElem?, stored, empty]

theorem ready_of_returned {m m' : Machine} {ci : Nat} (sound : Sound ci m) {v : Value}
    (halted : m.mode = .halted (.value v) ∨ m.mode = .halted (.raised v)) (st : Status) {g : Context → Context}
    (marks : ∀ c, (g c).outline = { c.outline with status := st })
    (restored : m' = if ((m.contexts.getD ci default).status != .terminated) = true then
      { m with contexts := m.contexts.modify ci g } else m) :
    Ready m' ∧ m'.rootFrames = #[] ∧ m'.root = ci := by
  -- the run did not fail, so it stayed disciplined, and it halted at the root with no frames
  have notFailing : ¬m.Failing := by
    rcases halted with halted | halted <;> simp [Failing, halted]
  obtain ⟨d, atRoot⟩ : Disciplined m ∧ m.root = ci := sound.resolve_right notFailing
  obtain ⟨current, o, found, empty⟩ := d.halts v halted
  subst atRoot
  have unclaimed : ∀ i o, m.outlineAt i = some o → o.prev ≠ some m.root :=
    fun i o found => current ▸ d.currentUnclaimed i o found
  split at restored
  · subst restored
    have restoredRoot : ({ m with contexts := m.contexts.modify m.root g } : Machine).outlineAt m.root =
        some { o with status := st } := by
      rw [outlineAt_modifyContext, if_pos rfl]
      simp only [outlineAt] at found
      obtain ⟨c, stored, rfl⟩ := Option.map_eq_some_iff.mp found
      simp [stored, marks]
    exact ⟨⟨d.toLinked.rootStatus unclaimed st marks, current, _, restoredRoot, .inl empty⟩,
      rootFrames_eq_nil restoredRoot empty, rfl⟩
  · subst restored
    exact ⟨⟨d.toLinked, current, o, found, .inl empty⟩, rootFrames_eq_nil found empty, rfl⟩

theorem storeOnly_escaped (exc : Value) : Keeps storeOnly (escaped exc) := by
  unfold escaped
  repeat' (first
    | with_reducible exact Keeps.pure _
    | with_reducible exact storeOnly_liftStore _
    | with_reducible exact ReadOnly.storeOnly (readOnly_breakOf? _)
    | with_reducible apply Keeps.bind
    | with_reducible intro _
    | split)

theorem Ready.withStore {m : Machine} (ready : Ready m) (st : Store) : Ready { m with store := st } :=
  ⟨ready.toLinked.congr (fun _ => rfl) rfl rfl, ready.atRoot, ready.rest⟩

inductive Returned : Except HostError Value → Prop
  | value (v : Value) : Returned (.ok v)
  | raised (cls msg : String) (backtrace : Option (Array String)) :
      Returned (.error (.raised cls msg backtrace))

instance : DecidablePred Returned := fun r =>
  match r with
  | .ok v => isTrue (.value v)
  | .error (.raised cls msg backtrace) => isTrue (.raised cls msg backtrace)
  | .error (.overflow _ _) | .error (.stepLimit _) | .error (.interrupted _)
  | .error (.contextDead _) | .error (.failed _) | .error (.fault _) => isFalse nofun

theorem not_returned_ofFatal (err : Fatal) : ¬Returned (.error (.ofFatal err)) := by
  cases err <;> nofun

def rootStatus (m : Machine) : Status := (m.contexts.getD m.root default).status

theorem outlineAt_root_of_status {m : Machine} (ready : Ready m) (live : m.rootStatus ≠ .terminated) :
    ∃ o, m.outlineAt m.root = some o ∧ o.status ≠ .terminated ∧ o.kinds = [] := by
  obtain ⟨o, found, empty⟩ := ready.rest
  simp only [outlineAt] at found
  obtain ⟨c, stored, rfl⟩ := Option.map_eq_some_iff.mp found
  have status : c.status ≠ .terminated := by
    simpa [rootStatus, Array.getD_eq_getD_getElem?, stored] using live
  refine ⟨c.outline, by simp [outlineAt, stored], status, ?_⟩
  rcases empty with empty | ended
  · exact empty
  · exact absurd ended status

-- `Returned` leaves out the `failed "step budget exhausted"` answer: `stepBudget` only makes `enter`
-- a total function, and the engine's own loop has no such budget.
theorem host_call_restores_root_frames {m m' : Machine} {ctx : HostContext}
    {start : MachineM Unit} {r : Except HostError Value} (ready : Ready m) (call : HostCall start)
    (ran : enter ctx start m = (r, m')) (returned : Returned r) :
    (m.rootStatus ≠ .terminated → m'.root = m.root ∧ m'.rootFrames = m.rootFrames) ∧
      m'.rootFrames = #[] ∧ Ready m' := by
  unfold enter at ran
  dsimp only at ran
  split at ran
  · cases ran; cases returned
  · next err m₁ run => exact absurd (prepareEntry_ok (ready.withStore _) run).1 (by simp)
  · next m₁ run =>
    obtain ⟨_, entry, same⟩ := prepareEntry_ok (ready.withStore _) run
    -- a host context that has already reported ends the call before it runs
    split at ran
    · cases ran; exact absurd returned (not_returned_ofFatal _)
    -- the state the call starts from, with the step counter restarted or not
    generalize hS : (if ((m₁.contexts.getD m₁.current default).status != Status.running) = true then
      { m₁ with steps := 0 } else m₁) = mS at ran
    have current : mS.current = m₁.current := by rw [← hS]; split <;> rfl
    have root : mS.root = m₁.root := by rw [← hS]; split <;> rfl
    have entryS : Entry mS := by
      rw [← hS]
      split
      · exact ⟨entry.toLinked.congr (fun _ => rfl) rfl rfl, entry.atRoot, entry.fresh⟩
      · exact entry
    rw [← current] at ran
    -- the run, sound from the entered root all along
    have sound := runFor_sound stepBudget
      (sound_of_start (g := fun c => { c with status := .running, host := ctx }) entryS call fun _ => rfl)
    dsimp only at sound
    generalize runFor stepBudget _ = m₄ at ran sound
    rw [entryS.atRoot] at ran
    -- the root gets its former status back
    generalize hm₅ : (if ((m₄.contexts.getD mS.root default).status != Status.terminated) = true then
      { m₄ with contexts := m₄.contexts.modify mS.root fun c =>
        { c with
          status := (m₁.contexts.getD mS.root default).status,
          host := (m₁.contexts.getD mS.root default).host } } else m₄) = m₅ at ran
    have mode : m₅.mode = m₄.mode := by rw [← hm₅]; split <;> rfl
    -- a root that had not ended had no frames, and it is the one the call ran in
    have rootKept : m.rootStatus ≠ .terminated → m₁.root = m.root ∧ m.rootFrames = #[] := by
      intro live
      obtain ⟨o, found, notEnded, empty⟩ := outlineAt_root_of_status ready live
      exact ⟨by rw [same o found notEnded], rootFrames_eq_nil found empty⟩
    split at ran
    · next v halted =>
      cases ran
      obtain ⟨ready', empty, atRoot⟩ := ready_of_returned sound (.inl (mode ▸ halted)) _ (fun _ => by rfl) hm₅.symm
      refine ⟨fun live => ?_, empty, ready'⟩
      obtain ⟨kept, none⟩ := rootKept live
      exact ⟨atRoot.trans (root.trans kept), empty.trans none.symm⟩
    · next exc halted =>
      split at ran
      · next err m₆ escapedRun =>
        obtain ⟨ready', empty, atRoot⟩ := ready_of_returned sound (.inr (mode ▸ halted)) _ (fun _ => by rfl) hm₅.symm
        -- reporting the exception only reads the store and adds to it
        have kept : m₆ = { m₅ with store := m₆.store } :=
          Keeps.rel_of_ok (storeOnly_escaped exc) escapedRun
        cases ran
        rw [kept]
        refine ⟨fun live => ?_, empty, ready'.withStore _⟩
        obtain ⟨kept, none⟩ := rootKept live
        exact ⟨atRoot.trans (root.trans kept), empty.trans none.symm⟩
      · cases ran; cases returned
    · cases ran; exact absurd returned (not_returned_ofFatal _)
    all_goals (cases ran; cases returned)

theorem stop_at_top_restores_root_frames :
    Returned (enter {} (runTop { code := #[71] })
      { store := {}, contexts := #[freshContext { stackSize := 4 }], limits := { stackSize := 4 } }).1 ∧
    (enter {} (runTop { code := #[71] })
      { store := {}, contexts := #[freshContext { stackSize := 4 }], limits := { stackSize := 4 } }).2.rootFrames
      = #[] := by
  have returned : Returned (enter {} (runTop { code := #[71] })
      { store := {}, contexts := #[freshContext { stackSize := 4 }], limits := { stackSize := 4 } }).1 := by
    decide +kernel
  exact ⟨returned,
    (host_call_restores_root_frames (ready_fresh _ _) (.runTop _) (Prod.eta _).symm returned).2.1⟩

end Machine

end RegisterVM
