import RegisterVM.Proofs.Machine.StepCount

set_option autoImplicit false

namespace RegisterVM

def Limits.stopFetch (l : Limits) : Nat := l.interval * (l.stepLimit / l.interval + 1)

namespace Limits

variable {l : Limits}

theorem stepLimit_lt_stopFetch (checked : 0 < l.interval) : l.stepLimit < l.stopFetch :=
  Nat.lt_mul_div_succ l.stepLimit checked

theorem stopFetch_multiple : l.stopFetch % l.interval = 0 := Nat.mul_mod_right _ _

theorem stopFetch_le (checked : 0 < l.interval) {n : Nat} (multiple : n % l.interval = 0)
    (past : l.stepLimit < n) : l.stopFetch ≤ n := by
  obtain ⟨q, rfl⟩ := Nat.dvd_of_mod_eq_zero multiple
  -- a multiple of the interval past the limit is at least the stopping fetch
  have above : l.stepLimit / l.interval < q := (Nat.div_lt_iff_lt_mul checked).mpr (by
    rw [Nat.mul_comm]
    exact past)
  exact Nat.mul_le_mul_left _ above

end Limits

theorem Options.limits_interval (o : Options) (limited : 0 < o.stepLimit) :
    o.limits.interval = min (if o.checkInterval ≤ 0 then 1024 else o.checkInterval.toNat) o.stepLimit := by
  unfold Options.limits
  dsimp only
  split <;> split <;> simp_all <;> omega

theorem Options.limits_interval_pos (o : Options) : 0 < o.limits.interval := by
  unfold Options.limits
  dsimp only
  split <;> split <;> simp_all

namespace Machine

def fetched : Nat → Machine → Nat
  | 0, _ => 0
  | n + 1, m => if m.mode.isHalted then 0 else (if m.fetches then 1 else 0) + fetched n (advance m)

theorem steps_runFor (n : Nat) (m : Machine) : (runFor n m).steps = m.steps + fetched n m := by
  induction n generalizing m with
  | zero => rfl
  | succ n ih =>
    rw [runFor, fetched]
    split
    · rfl
    · rw [ih, steps_advance]
      omega

theorem limits_runFor (n : Nat) (m : Machine) : (runFor n m).limits = m.limits := by
  induction n generalizing m with
  | zero => rfl
  | succ n ih =>
    rw [runFor]
    split
    · rfl
    · rw [ih, limits_advance]

theorem fetches_of_failing {m : Machine} (failing : m.Failing) : m.fetches = false := by
  unfold Failing at failing
  unfold fetches
  split
  · next running _ => simp [running] at failing
  · rfl

theorem fetches_of_stopsBy {m : Machine} {k : StopKind} (stops : m.mode.StopsBy k) : m.fetches = false := by
  unfold fetches
  split
  · next running _ => rw [running] at stops; exact stops.elim
  · rfl

theorem checkpoint_stopFetch {m : Machine} (checked : 0 < m.limits.interval) (limited : 0 < m.limits.stepLimit) :
    m.checkpoint m.limits.stopFetch = some .stepLimit := by
  have past := Limits.stepLimit_lt_stopFetch checked
  simp [checkpoint, checkInterrupt, Limits.stopFetch_multiple, limited, past]

-- A checkpoint reports the step limit once it is passed, and before that whatever the host
-- context of the running context reports.
theorem checkpoint_some {m : Machine} {n : Nat} {err : Fatal} (stop : m.checkpoint n = some err) :
    n % m.limits.interval = 0 ∧
      (err = .stepLimit ∧ m.limits.stepLimit < n ∨
        ∃ why, err = .interrupted n why ∧ ¬(0 < m.limits.stepLimit ∧ m.limits.stepLimit < n) ∧
          (m.contexts.getD m.current default).host.err n = some why) := by
  unfold checkpoint checkInterrupt at stop
  split at stop
  · next multiple =>
    refine ⟨by simpa using multiple, ?_⟩
    split at stop
    · next limit =>
      cases stop
      exact .inl ⟨rfl, by simp at limit; omega⟩
    · next notLimit =>
      obtain ⟨why, reported, rfl⟩ := Option.map_eq_some_iff.mp stop
      exact .inr ⟨why, rfl, by simpa using notLimit, reported⟩
  · cases stop

theorem checkpoint_of_host {m : Machine} {why : Interruption} (checked : 0 < m.limits.interval)
    {n : Nat} (multiple : n % m.limits.interval = 0) (early : n < m.limits.stopFetch)
    (reported : (m.contexts.getD m.current default).host.err n = some why) :
    m.checkpoint n = some (.interrupted n why) := by
  -- a checkpoint before the stopping fetch is not past the limit
  have notPast : ¬(0 < m.limits.stepLimit ∧ m.limits.stepLimit < n) := fun ⟨_, past⟩ =>
    absurd (Limits.stopFetch_le checked multiple past) (Nat.not_le.mpr early)
  rw [checkpoint, if_pos (by simpa using multiple), checkInterrupt, if_neg (by simpa using notPast), reported]
  rfl

structure WithinLimit (l : Limits) (m : Machine) : Prop where
  le : m.steps ≤ l.stopFetch
  failing : m.steps = l.stopFetch → m.Failing
  stopped : m.mode.StopsBy .stepLimit → m.steps = l.stopFetch
  interrupted : m.mode.StopsBy .interruption → 0 < m.steps ∧ m.steps % l.interval = 0 ∧ m.steps < l.stopFetch

theorem WithinLimit.start {m : Machine} (checked : 0 < m.limits.interval)
    (zero : m.steps = 0) (clear : ¬m.mode.StopsBy .stepLimit) (quiet : ¬m.mode.StopsBy .interruption) :
    WithinLimit m.limits m where
  le := by omega
  failing := by
    have past := Limits.stepLimit_lt_stopFetch checked
    omega
  stopped stops := absurd stops clear
  interrupted stops := absurd stops quiet

theorem WithinLimit.fetch_lt {l : Limits} {m : Machine} (inv : WithinLimit l m) (fetching : m.fetches = true) :
    m.steps < l.stopFetch := by
  rcases Nat.lt_or_eq_of_le inv.le with below | reached
  · exact below
  · rw [fetches_of_failing (inv.failing reached)] at fetching
    cases fetching

theorem advance_at_stopFetch {m : Machine} (checked : 0 < m.limits.interval)
    (limited : 0 < m.limits.stepLimit) (fetching : m.fetches = true) (last : m.steps + 1 = m.limits.stopFetch) :
    advance m = { m with steps := m.limits.stopFetch, mode := .fatal .stepLimit } := by
  have stop := checkpoint_stopFetch checked limited
  rw [← last] at stop ⊢
  exact advance_of_checkpoint fetching stop

theorem advance_of_host {m : Machine} {why : Interruption} (checked : 0 < m.limits.interval)
    (fetching : m.fetches = true) (multiple : (m.steps + 1) % m.limits.interval = 0)
    (early : m.steps + 1 < m.limits.stopFetch)
    (reported : (m.contexts.getD m.current default).host.err (m.steps + 1) = some why) :
    advance m = { m with steps := m.steps + 1, mode := .fatal (.interrupted (m.steps + 1) why) } :=
  advance_of_checkpoint fetching (checkpoint_of_host checked multiple early reported)

def runningKept : StateOrder Machine where
  rel m m' := m'.current = m.current ∧ m'.contexts.size = m.contexts.size
  refl _ := ⟨rfl, rfl⟩
  trans h₁ h₂ := ⟨h₂.1.trans h₁.1, h₂.2.trans h₁.2⟩

theorem runningKept_of_storeOnly {α : Type} {x : MachineM α} (hx : Keeps storeOnly x) :
    Keeps runningKept x := by
  intro m
  have same : endState (x.run m) = { m with store := (endState (x.run m)).store } := hx m
  rw [same]
  exact ⟨rfl, rfl⟩

theorem runningKept_modifyCurrent (g : Context → Context) : Keeps runningKept (modifyCurrent g) :=
  fun _ => ⟨rfl, Array.size_modify⟩

theorem runningKept_popFrame : Keeps runningKept popFrame := by
  unfold popFrame
  refine Keeps.bind (runningKept_of_storeOnly (ReadOnly.storeOnly readOnly_currentContext)) fun c => ?_
  repeat' (first
    | with_reducible apply Keeps.pure _
    | with_reducible apply Keeps.throw _
    | with_reducible apply runningKept_of_storeOnly (ReadOnly.storeOnly readOnly_runtimeFault)
    | with_reducible apply runningKept_of_storeOnly (storeOnly_liftStore _)
    | with_reducible apply runningKept_of_storeOnly (ReadOnly.storeOnly (readOnly_procOf? _))
    | with_reducible apply runningKept_of_storeOnly (ReadOnly.storeOnly (readOnly_envData _))
    | with_reducible apply runningKept_of_storeOnly (ReadOnly.storeOnly (readOnly_context _))
    | with_reducible apply runningKept_modifyCurrent _
    | with_reducible unfold unshareEnv
    | with_reducible apply Keeps.bind
    | with_reducible intro _
    | split)

theorem runningKept_unwindTo (n : Nat) : Keeps runningKept (unwindTo n) :=
  Keeps.unwindTo runningKept_popFrame n

theorem failContext_terminates {m m' : Machine} {err : Fatal} (run : (failContext err).run m = .ok () m') :
    (m'.contexts.getD m.current default).status = .terminated := by
  unfold failContext at run
  obtain ⟨c, m₀, got, rest⟩ := bind_run_ok run
  obtain ⟨rfl, stored⟩ := currentContext_ok got
  clear run
  -- built-in methods entered from outside are unwound first, in the same context
  obtain ⟨m₁, kept, run⟩ : ∃ m₁, runningKept.rel m₀ m₁ ∧ (do
      modifyCurrent fun c => { c with status := .terminated }
      failContext.leaveContext err).run m₁ = .ok () m' := by
    dsimp only at rest
    split at rest
    · obtain ⟨_, m₁, first, rest⟩ := bind_run_ok rest
      exact ⟨m₁, Keeps.rel_of_ok (runningKept_unwindTo _) first, rest⟩
    · exact ⟨m₀, runningKept.refl m₀, rest⟩
  have within : m₀.current < m₁.contexts.size := by
    rw [kept.2]
    exact (Array.getElem?_eq_some_iff.mp stored).1
  obtain ⟨_, m₂, marked, run⟩ := bind_run_ok run
  rw [modifyCurrent_run] at marked
  cases marked
  unfold failContext.leaveContext at run
  obtain ⟨_, m₃, got, run⟩ := bind_run_ok run
  obtain ⟨rfl, -⟩ := currentContext_ok got
  split at run
  · -- the error goes to the resumer; the ended context only forgets it
    obtain ⟨_, m₄, cleared, run⟩ := bind_run_ok run
    rw [modifyCurrent_run] at cleared
    cases cleared
    obtain ⟨_, m₅, moved, run⟩ := bind_run_ok run
    cases moved
    cases run
    simp [updCurrent, Array.getD_eq_getD_getElem?, Array.getElem_modify, kept.1, within]
  · cases run
    simp [updCurrent, Array.getD_eq_getD_getElem?, Array.getElem_modify, kept.1, within]

theorem WithinLimit.advance {m : Machine} (checked : 0 < m.limits.interval)
    (limited : 0 < m.limits.stepLimit) (inv : WithinLimit m.limits m) : WithinLimit m.limits (advance m) := by
  by_cases stop : m.fetches = true ∧ (m.checkpoint (m.steps + 1)).isSome
  · -- a checkpoint that stops the run: the limit at the stopping fetch, or the host before it
    obtain ⟨fetching, stopping⟩ := stop
    obtain ⟨err, stops⟩ := Option.isSome_iff_exists.mp stopping
    have below := inv.fetch_lt fetching
    rw [advance_of_checkpoint fetching stops]
    obtain ⟨multiple, ⟨rfl, past⟩ | ⟨why, rfl, notPast, -⟩⟩ := checkpoint_some stops
    · have last : m.steps + 1 = m.limits.stopFetch :=
        Nat.le_antisymm below (Limits.stopFetch_le checked multiple past)
      exact ⟨last.le, fun _ => trivial, fun _ => last, fun ⟨_, _, same⟩ => by cases same⟩
    · have early : m.steps + 1 < m.limits.stopFetch := by
        have := Limits.stepLimit_lt_stopFetch checked
        omega
      exact ⟨early.le, fun reached => absurd reached early.ne, fun stopped => (by cases stopped),
        fun _ => ⟨Nat.succ_pos _, multiple, early⟩⟩
  · have pass : m.fetches = true → m.checkpoint (m.steps + 1) = none := fun fetching => by
      simpa [fetching] using stop
    obtain ⟨steps, limits, stops⟩ := countKept_advance .stepLimit pass
    obtain ⟨-, -, interrupts⟩ := countKept_advance .interruption pass
    dsimp only at steps limits stops interrupts
    refine ⟨?_, fun reached => ?_, fun stopped => ?_, fun interrupted => ?_⟩
    · cases fetching : m.fetches
      · simpa [fetching, steps] using inv.le
      · have below := inv.fetch_lt fetching
        simp only [fetching, if_true, steps]
        omega
    · cases fetching : m.fetches
      · -- nothing was fetched: the machine was already at the stopping fetch
        simp only [fetching, steps] at reached
        exact failing_advance (inv.failing (by simpa using reached))
      · -- a fetch that reaches the stopping fetch is a checkpoint past the limit, which this one was not
        simp only [fetching, if_true, steps] at reached
        have passed := pass fetching
        rw [reached, checkpoint_stopFetch checked limited] at passed
        cases passed
    · have reached := inv.stopped (stops stopped)
      rw [steps, fetches_of_failing (inv.failing reached)]
      simpa using reached
    · -- an interruption already there: nothing was fetched since
      have before := interrupts interrupted
      rw [steps, fetches_of_stopsBy before]
      simpa using inv.interrupted before

theorem WithinLimit.runFor {m : Machine} (checked : 0 < m.limits.interval)
    (limited : 0 < m.limits.stepLimit) (inv : WithinLimit m.limits m) (n : Nat) :
    WithinLimit m.limits (Machine.runFor n m) := by
  induction n generalizing m with
  | zero => exact inv
  | succ n ih =>
    rw [Machine.runFor]
    split
    · exact inv
    · have next := ih (by rwa [limits_advance]) (by rwa [limits_advance]) (by
        rw [limits_advance]
        exact inv.advance checked limited)
      rwa [limits_advance] at next

section Host

variable (k : StopKind)

theorem countKept_hostCall {start : MachineM Unit} (call : HostCall start) : Keeps (countKept k) start := by
  cases call with
  | runTop body =>
    unfold runTop
    exact Keeps.bind (countKept_liftStore k _) fun _ =>
      Keeps.bind (countKept_liftStore k _) fun _ => countKept_callMethod k _ _ _ _ _ _ _ _
  | send recv name args =>
    unfold hostSend
    exact Keeps.bind (countKept_liftStore k _) fun _ => countKept_funcall k _ _ _ _ _
  | callProc p args => exact countKept_callProc k _ _ _ _ _

end Host

theorem prepareEntry_idle {m m₁ : Machine} {res : Option HostError} (run : prepareEntry.run m = .ok res m₁)
    (idle : (m.contexts.getD m.current default).status ≠ .running) :
    m₁.steps = m.steps ∧ m₁.limits = m.limits ∧ (m₁.contexts.getD m₁.current default).status ≠ .running := by
  unfold prepareEntry at run
  obtain ⟨c, m₀, got, rest⟩ := bind_run_ok run
  obtain ⟨same, -⟩ := currentContext_ok got
  rw [same] at rest
  by_cases ended : c.status = .terminated
  · simp only [ended, bne_self_eq_false, Bool.false_eq_true, if_false, EStateM.run_bind,
      EStateM.run_get] at rest
    split at rest
    · cases rest
      exact ⟨rfl, rfl, idle⟩
    · cases rest
      refine ⟨rfl, rfl, ?_⟩
      simp [freshContext]
  · simp only [ended, bne_iff_ne, ne_eq, not_false_eq_true, if_true, EStateM.run_pure] at rest
    cases rest
    exact ⟨rfl, rfl, idle⟩

theorem prepareEntry_no_fault {m m₁ : Machine} {f : Fault} (ready : Ready m)
    (run : prepareEntry.run m = .error f m₁) : False := by
  obtain ⟨o, found, -, -⟩ := ready.rootPlain
  simp only [outlineAt, Option.map_eq_some_iff] at found
  obtain ⟨c, stored, -⟩ := found
  unfold prepareEntry at run
  rw [EStateM.run_bind, currentContext_run, ready.atRoot, stored] at run
  dsimp only at run
  split at run
  · cases run
  · simp only [EStateM.run_bind, EStateM.run_get] at run
    split at run
    · cases run
    · cases run

theorem escaped_raised {exc : Value} {m m₁ : Machine} {err : HostError}
    (run : (escaped exc).run m = .ok err m₁) : ∃ cls msg backtrace, err = .raised cls msg backtrace := by
  unfold escaped at run
  obtain ⟨found, _, -, run⟩ := bind_run_ok run
  dsimp only at run
  -- every way through the report ends in the same raised error
  repeat' (first
    | (obtain ⟨_, _, -, run⟩ := bind_run_ok run)
    | split at run
    | (cases run; exact ⟨_, _, _, rfl⟩))

end Machine

theorem HostError.stopsBy_of_ofFatal_stepLimit {err : Fatal} {msg : String}
    (h : HostError.ofFatal err = .stepLimit msg) : StopKind.stepLimit.holds err := by
  cases err <;> first | rfl | cases h

theorem HostError.stopsBy_of_ofFatal_interrupted {err : Fatal} {msg : String}
    (h : HostError.ofFatal err = .interrupted msg) : StopKind.interruption.holds err := by
  cases err <;> first | exact ⟨_, _, rfl⟩ | cases h

namespace Machine

theorem withinLimit_call {start : MachineM Unit} (call : HostCall start) (x : Machine)
    (checked : 0 < x.limits.interval) (limited : 0 < x.limits.stepLimit) (zero : x.steps = 0)
    (running : x.mode = .run) (n : Nat) :
    WithinLimit x.limits (runFor n (match start.run x with
      | .ok () m => m
      | .error f m =>
        match (fault f).run m with
        | .ok () m => m
        | .error f m => { m with mode := .halted (.fault f) })) := by
  -- a fault at the start is handled as a step's fault is
  obtain ⟨steps, limits, stops⟩ := countKept_handled .stepLimit (countKept_hostCall .stepLimit call x)
  obtain ⟨-, -, interrupts⟩ := countKept_handled .interruption (countKept_hostCall .interruption call x)
  rw [← limits] at checked limited ⊢
  refine WithinLimit.runFor checked limited (WithinLimit.start checked (steps.trans zero) ?_ ?_) n
  · intro stopped
    have before := stops stopped
    rw [running] at before
    exact before
  · intro interrupted
    have before := interrupts interrupted
    rw [running] at before
    exact before

theorem host_call_within_step_limit {m m' : Machine} {ctx : HostContext}
    {start : MachineM Unit} {r : Except HostError Value} (ready : Ready m) (call : HostCall start)
    (idle : (m.contexts.getD m.current default).status ≠ .running)
    (checked : 0 < m.limits.interval) (limited : 0 < m.limits.stepLimit)
    (ran : enter ctx start m = (r, m')) :
    ((ctx.err m.steps).isSome → ∃ msg, r = .error (.interrupted msg)) ∧
      (ctx.err m.steps = none → m'.steps ≤ m.limits.stopFetch ∧
        (∀ msg, r = .error (.stepLimit msg) → m'.steps = m.limits.stopFetch) ∧
        ∀ msg, r = .error (.interrupted msg) →
          0 < m'.steps ∧ m'.steps % m.limits.interval = 0 ∧ m'.steps < m.limits.stopFetch) := by
  unfold enter at ran
  dsimp only at ran
  split at ran
  · next f m₁ run => exact (prepareEntry_no_fault (ready.withStore _) run).elim
  · next err m₁ run => cases (prepareEntry_ok (ready.withStore _) run).1
  · next m₁ run =>
    obtain ⟨steps₁, limits₁, idle₁⟩ := prepareEntry_idle run idle
    have sameSteps : m₁.steps = m.steps := steps₁
    split at ran
    · next why reported =>
      -- the host's context is looked at before anything runs
      cases ran
      rw [sameSteps] at reported
      exact ⟨fun _ => ⟨_, rfl⟩, fun quiet => by rw [quiet] at reported; cases reported⟩
    · next quiet =>
      rw [sameSteps] at quiet
      refine ⟨fun reported => (by rw [quiet] at reported; cases reported), fun _ => ?_⟩
      -- a context that is not running starts the counter at zero
      generalize hS : (if ((m₁.contexts.getD m₁.current default).status != Status.running) = true then
        { m₁ with steps := 0 } else m₁) = mS at ran
      have zero : mS.steps = 0 := by
        rw [← hS, if_pos (by simpa using idle₁)]
      have limitsS : mS.limits = m.limits := by
        rw [← hS]
        split <;> exact limits₁
      generalize hU : runFor stepBudget _ = mU at ran
      have within : WithinLimit mS.limits mU := hU ▸
        withinLimit_call call { { mS with contexts := mS.contexts.modify m₁.current fun c =>
          { c with status := .running, host := ctx } } with mode := .run } (limitsS ▸ checked)
          (limitsS ▸ limited) zero rfl stepBudget
      rw [limitsS] at within
      -- the context gets its former status and host context back, which changes neither counter nor mode
      generalize hV : (if ((mU.contexts.getD m₁.current default).status != Status.terminated) = true then
        { mU with contexts := mU.contexts.modify m₁.current fun c =>
          { c with
            status := (m₁.contexts.getD m₁.current default).status,
            host := (m₁.contexts.getD m₁.current default).host } } else mU) = mV at ran
      have stepsV : mV.steps = mU.steps := by
        rw [← hV]
        split <;> rfl
      have modeV : mV.mode = mU.mode := by
        rw [← hV]
        split <;> rfl
      -- only a fatal error of the run is reported as the step limit or an interruption
      have unstopped : ∀ {res : Except HostError Value}, (∀ msg, res ≠ .error (.stepLimit msg)) →
          (∀ msg, res ≠ .error (.interrupted msg)) → ∀ {m₆ : Machine}, m₆.steps = mV.steps →
          m₆.steps ≤ m.limits.stopFetch ∧ (∀ msg, res = .error (.stepLimit msg) → m₆.steps = m.limits.stopFetch) ∧
          ∀ msg, res = .error (.interrupted msg) →
            0 < m₆.steps ∧ m₆.steps % m.limits.interval = 0 ∧ m₆.steps < m.limits.stopFetch :=
        fun notLimit notInterrupted _ same => ⟨same ▸ stepsV ▸ within.le,
          fun msg reported => absurd reported (notLimit msg),
          fun msg reported => absurd reported (notInterrupted msg)⟩
      split at ran
      · cases ran
        exact unstopped (fun _ reported => by cases reported) (fun _ reported => by cases reported) rfl
      · next exc halted =>
        -- the report of an escaped exception writes only the store, whether it succeeds or not
        have escapedSteps : ∀ {res}, (escaped exc).run mV = res → (endState res).steps = mV.steps :=
          fun escapedRun => escapedRun ▸ (Keeps.countKept_of_storeOnly .empty (storeOnly_escaped exc) mV).1
        split at ran
        · next err m₆ escapedRun =>
          injection ran with reported same
          subst reported same
          obtain ⟨cls, msg, backtrace, rfl⟩ := escaped_raised escapedRun
          exact unstopped (fun _ reported => by cases reported) (fun _ reported => by cases reported) (escapedSteps escapedRun)
        · next f m₆ escapedRun =>
          injection ran with reported same
          subst reported same
          exact unstopped (fun _ reported => by cases reported) (fun _ reported => by cases reported) (escapedSteps escapedRun)
      · next err halted =>
        cases ran
        have stopping : ∀ kind : StopKind, kind.holds err → mU.mode.StopsBy kind := by
          intro kind holds
          rw [← modeV, halted]
          exact holds
        refine ⟨stepsV ▸ within.le, fun msg reported => ?_, fun msg reported => ?_⟩
        · have limit := HostError.stopsBy_of_ofFatal_stepLimit (Except.error.inj reported)
          rw [stepsV]
          exact within.stopped (stopping _ limit)
        · have interrupted := HostError.stopsBy_of_ofFatal_interrupted (Except.error.inj reported)
          rw [stepsV]
          exact within.interrupted (stopping _ interrupted)
      all_goals (cases ran; exact unstopped (fun _ reported => by cases reported) (fun _ reported => by cases reported) rfl)

theorem step_limit_stops_at_fetch (o : Options) (limited : 0 < o.stepLimit) :
    o.limits.interval = min (if o.checkInterval ≤ 0 then 1024 else o.checkInterval.toNat) o.stepLimit ∧
    (∀ m : Machine, m.limits = o.limits → m.steps = 0 → ¬m.mode.StopsBy .stepLimit →
      ¬m.mode.StopsBy .interruption → ∀ n,
        (runFor n m).steps = fetched n m ∧ WithinLimit o.limits (runFor n m) ∧
        ((runFor n m).fetches = true → (runFor n m).steps + 1 = o.limits.stopFetch →
          advance (runFor n m) = { runFor n m with steps := o.limits.stopFetch, mode := .fatal .stepLimit } ∧
          ∀ m', step.run (advance (runFor n m)) = .ok () m' →
            (m'.contexts.getD (runFor n m).current default).status = .terminated) ∧
        ∀ why, (runFor n m).fetches = true → ((runFor n m).steps + 1) % o.limits.interval = 0 →
          (runFor n m).steps + 1 < o.limits.stopFetch →
          ((runFor n m).contexts.getD (runFor n m).current default).host.err ((runFor n m).steps + 1) = some why →
          advance (runFor n m) = { runFor n m with
            steps := (runFor n m).steps + 1, mode := .fatal (.interrupted ((runFor n m).steps + 1) why) }) ∧
    (∀ (m m' : Machine) (ctx : HostContext) (start : MachineM Unit) (r : Except HostError Value),
      Ready m → m.limits = o.limits → HostCall start →
      (m.contexts.getD m.current default).status ≠ .running → enter ctx start m = (r, m') →
      ((ctx.err m.steps).isSome → ∃ msg, r = .error (.interrupted msg)) ∧
      (ctx.err m.steps = none → m'.steps ≤ o.limits.stopFetch ∧
        (∀ msg, r = .error (.stepLimit msg) → m'.steps = o.limits.stopFetch) ∧
        ∀ msg, r = .error (.interrupted msg) →
          0 < m'.steps ∧ m'.steps % o.limits.interval = 0 ∧ m'.steps < o.limits.stopFetch)) := by
  have checked := o.limits_interval_pos
  refine ⟨o.limits_interval limited, fun m limits zero clear quiet n => ?_,
    fun m m' ctx start r ready limits call idle ran => ?_⟩
  · -- a run: the invariant from its start, the stopping fetch, and the checkpoints before it
    rw [← limits] at checked ⊢
    have limitedM : 0 < m.limits.stepLimit := by
      rw [limits]
      exact limited
    have within := WithinLimit.runFor checked limitedM (WithinLimit.start checked zero clear quiet) n
    have limitsN := limits_runFor n m
    refine ⟨by rw [steps_runFor, zero, Nat.zero_add], within, fun fetching last => ?_,
      fun why fetching multiple early reported => ?_⟩
    · have stopFetchN : (runFor n m).limits.stopFetch = m.limits.stopFetch := by rw [limitsN]
      have stopped := advance_at_stopFetch (limitsN ▸ checked) (limitsN ▸ limitedM) fetching
        (last.trans stopFetchN.symm)
      rw [stopFetchN] at stopped
      refine ⟨stopped, fun m' ended => ?_⟩
      rw [stopped, step_run_of_fatal rfl] at ended
      have terminated := failContext_terminates ended
      exact terminated
    · rw [← limitsN] at checked multiple early
      exact advance_of_host checked fetching multiple early reported
  · -- a call from the host
    rw [← limits]
    exact host_call_within_step_limit ready call idle (limits ▸ checked) (by rw [limits]; exact limited) ran

def twoStepChecks : Options := { stepLimit := 3, checkInterval := 2 }

def twoStepMachine : Machine :=
  { store := {}, contexts := #[freshContext twoStepChecks.limits], limits := twoStepChecks.limits }

def endlessLoop : Procedure := { code := #[21, 255, 253] }

-- A host context cancelled once the counter reaches two.
def cancelledAtTwo : HostContext := ⟨fun n => if 2 ≤ n then some .canceled else none⟩

def stoppedByStepLimit : Except HostError Value → Bool
  | .error (.stepLimit _) => true
  | _ => false

def stoppedByInterruption : Except HostError Value → Bool
  | .error (.interrupted _) => true
  | _ => false

theorem endless_loop_checkpoints :
    0 < twoStepChecks.stepLimit ∧ twoStepChecks.limits.stopFetch = 4 ∧
      (enter {} (runTop endlessLoop) twoStepMachine).2.steps = 4 ∧
      (enter cancelledAtTwo (runTop endlessLoop) twoStepMachine).2.steps = 2 := by
  have stops := step_limit_stops_at_fetch twoStepChecks (by decide)
  have idle : (twoStepMachine.contexts.getD twoStepMachine.current default).status ≠ .running := by
    decide
  have limitHit : ∃ msg, (enter {} (runTop endlessLoop) twoStepMachine).1 = .error (.stepLimit msg) := by
    have hit : stoppedByStepLimit (enter {} (runTop endlessLoop) twoStepMachine).1 = true := by
      decide +kernel
    unfold stoppedByStepLimit at hit
    split at hit
    · next msg same => exact ⟨msg, same⟩
    · cases hit
  have cancelHit : ∃ msg, (enter cancelledAtTwo (runTop endlessLoop) twoStepMachine).1 =
      .error (.interrupted msg) := by
    have hit : stoppedByInterruption (enter cancelledAtTwo (runTop endlessLoop) twoStepMachine).1 = true := by
      decide +kernel
    unfold stoppedByInterruption at hit
    split at hit
    · next msg same => exact ⟨msg, same⟩
    · cases hit
  obtain ⟨msg, same⟩ := limitHit
  have counted := ((stops.2.2 twoStepMachine _ {} _ _ (ready_fresh _ _) rfl (.runTop endlessLoop) idle
    (Prod.eta _).symm).2 rfl).2.1 msg same
  obtain ⟨msg', cancelled⟩ := cancelHit
  -- the first checkpoint, at the second fetch, is the only one before the stopping fetch
  have checkpoint := ((stops.2.2 twoStepMachine _ cancelledAtTwo _ _ (ready_fresh _ _) rfl (.runTop endlessLoop)
    idle (Prod.eta _).symm).2 rfl).2.2 msg' cancelled
  have stopFetch : twoStepChecks.limits.stopFetch = 4 := by decide
  have interval : twoStepChecks.limits.interval = 2 := by decide
  rw [stopFetch, interval] at checkpoint
  exact ⟨by decide, stopFetch, counted.trans stopFetch, by omega⟩

end Machine

end RegisterVM
