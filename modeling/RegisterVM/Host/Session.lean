import RegisterVM.Host.Outcome

set_option autoImplicit false

namespace RegisterVM

inductive HostValue where
  | nil
  | bool (b : Bool)
  | int (n : Int64)
  | float (bits : UInt64)
  | str (s : String)
  | sym (name : String)
  | array (items : List HostValue)
  | hash (pairs : List (HostValue × HostValue))
  | ref (i : Nat)
  | main
  | const (name : String)
deriving Inhabited

inductive Step where
  | run (src : Source) (cancelled : Bool)
  | funcall (recv : HostValue) (name : String) (args : List HostValue) (cancelled : Bool)
  | call (proc : HostValue) (args : List HostValue) (cancelled : Bool)
  | globalGet (name : String)
  | globalSet (name : String) (value : HostValue)
  | constGet (name : String)
  | depth
  | invalid (msg : String)

inductive StepAnswer where
  | outcome (o : Outcome)
  | notFound
  | depth (n : Nat) (status : String)
deriving Inhabited

inductive SessionAnswer where
  | steps (answers : List StepAnswer)
  | badInput (msg : String)
deriving Inhabited

def StepAnswer.isFault : StepAnswer → Bool
  | .outcome o => o.isFault
  | _ => false

namespace Machine

def hostValue (vals : Array Value) : HostValue → MachineM (Except String Value)
  | .nil => pure (.ok .nil)
  | .bool b => pure (.ok (.bool b))
  | .int n => pure (.ok (.int n))
  | .float bits => pure (.ok (.float bits))
  | .str s => do pure (.ok (← liftStore (Store.newString s)))
  | .sym name => do pure (.ok (.sym (← liftStore (Store.intern name))))
  | .array items => do
    let mut out := #[]
    for it in items.attach do
      match ← hostValue vals it.1 with
      | .ok v => out := out.push v
      | .error e => return .error e
    pure (.ok (← liftStore (Store.newArray out)))
  | .hash pairs => do
    let mut t : HashTable := {}
    for p in pairs.attach do
      match ← hostValue vals p.1.1 with
      | .error e => return .error e
      | .ok k =>
        match ← hostValue vals p.1.2 with
        | .error e => return .error e
        | .ok v => t ← liftStore (Store.tableSet t k v)
    pure (.ok (← liftStore (Store.newHash t)))
  | .ref i => pure (.ok (vals.getD i .nil))
  | .main => do pure (.ok (.obj (← liftStore Store.wellKnown).main))
  | .const name => do
    let c ← liftStore Store.wellKnown
    match ← liftStore (Store.constGet c.object (← liftStore (Store.intern name))) with
    | some v => pure (.ok v)
    | none => pure (.error ("no constant " ++ name))
decreasing_by
  all_goals simp_wf
  all_goals first
    | have := List.sizeOf_lt_of_mem it.2; omega
    | (obtain ⟨⟨k, v⟩, hp⟩ := p
       have := List.sizeOf_lt_of_mem hp
       simp only [Prod.mk.sizeOf_spec] at this ⊢
       omega)

def hostValues (vals : Array Value) (xs : List HostValue) : MachineM (Except String (Array Value)) := do
  let mut out := #[]
  for x in xs do
    match ← hostValue vals x with
    | .ok v => out := out.push v
    | .error e => return .error e
  pure (.ok out)

def constPath (name : String) : MachineM (Option Value) := do
  let c ← liftStore Store.wellKnown
  let mut cur : Value := .obj c.object
  for part in name.splitOn "::" do
    match ← liftStore (Store.classOf? cur) with
    | none => return none
    | some (k, _) =>
      match ← liftStore (Store.constGet k (← liftStore (Store.intern part))) with
      | some v => cur := v
      | none => return none
  pure (some cur)

def plainOutcome (v : Value) (m : Machine) : Outcome × Machine :=
  report (.ok v) { m with store := { m.store with out := "" } }

def runQuiet {α : Type} (x : MachineM α) (m : Machine) : Except Fault α × Machine :=
  match x.run m with
  | .ok a m => (.ok a, m)
  | .error f m => (.error f, m)

def sessionStep (cancelled : Bool) (vals : Array Value) (st : Step) (m : Machine) :
    Except String (StepAnswer × Value) × Machine :=
  let valueOf (o : Outcome) (r : Except HostError Value) : Value :=
    match o, r with
    | .value _ _, .ok v => v
    | _, _ => .nil
  match st with
  | .run src c =>
    match assemble src m with
    | (.error (.bad msg), m) => (.error msg, m)
    | (.error (.fault f), m) => (.ok (.outcome (.failure (.fault f) ""), .nil), m)
    | (.ok p, m) =>
      let (r, m) := enter (.fixed (Interruption.ofCancelled (cancelled || c))) (runTop p) m
      let (o, m) := report r m
      (.ok (.outcome o, valueOf o r), m)
  | .funcall recv name args c =>
    match runQuiet (do
        match ← hostValue vals recv with
        | .error e => pure (Except.error e)
        | .ok r =>
          match ← hostValues vals args with
          | .error e => pure (.error e)
          | .ok a => pure (.ok (r, a))) m with
    | (.error f, m) => (.ok (.outcome (.failure (.fault f) ""), .nil), m)
    | (.ok (.error e), m) => (.error e, m)
    | (.ok (.ok (r, a)), m) =>
      let (res, m) := enter (.fixed (Interruption.ofCancelled (cancelled || c))) (hostSend r name a) m
      let (o, m) := report res m
      (.ok (.outcome o, valueOf o res), m)
  | .call proc args c =>
    match runQuiet (do
        match ← hostValue vals proc with
        | .error e => pure (Except.error e)
        | .ok p =>
          match ← hostValues vals args with
          | .error e => pure (.error e)
          | .ok a => pure (.ok (p, a))) m with
    | (.error f, m) => (.ok (.outcome (.failure (.fault f) ""), .nil), m)
    | (.ok (.error e), m) => (.error e, m)
    | (.ok (.ok (p, a)), m) =>
      match runQuiet (procOf? p) m with
      | (.ok (some (r, _)), m) =>
        let (res, m) := enter (.fixed (Interruption.ofCancelled (cancelled || c))) (callProc r a none .nil .host) m
        let (o, m) := report res m
        (.ok (.outcome o, valueOf o res), m)
      | (_, m) =>
        match runQuiet (liftStore (Store.inspect p)) m with
        | (.ok text, m) =>
          (.ok (.outcome (.failure (.failed ("vm: Call: " ++ text ++ " is not a Proc")) ""), .nil), m)
        | (.error f, m) => (.ok (.outcome (.failure (.fault f) ""), .nil), m)
  | .globalGet name =>
    match runQuiet (do
        let sym ← liftStore (Store.intern name)
        pure ((← get).store.globals.getD sym .nil)) m with
    | (.ok v, m) =>
      let (o, m) := plainOutcome v m
      (.ok (.outcome o, v), m)
    | (.error f, m) => (.ok (.outcome (.failure (.fault f) ""), .nil), m)
  | .globalSet name value =>
    match runQuiet (do
        match ← hostValue vals value with
        | .error e => pure (Except.error e)
        | .ok v =>
          let sym ← liftStore (Store.intern name)
          modify fun m => { m with store := { m.store with globals := m.store.globals.insert sym v } }
          pure (.ok v)) m with
    | (.ok (.ok v), m) =>
      let (o, m) := plainOutcome v m
      (.ok (.outcome o, v), m)
    | (.ok (.error e), m) => (.error e, m)
    | (.error f, m) => (.ok (.outcome (.failure (.fault f) ""), .nil), m)
  | .constGet name =>
    match runQuiet (constPath name) m with
    | (.ok (some v), m) =>
      let (o, m) := plainOutcome v m
      (.ok (.outcome o, v), m)
    | (.ok none, m) => (.ok (.notFound, .nil), m)
    | (.error f, m) => (.ok (.outcome (.failure (.fault f) ""), .nil), m)
  | .depth =>
    let c := m.contexts.getD m.root default
    (.ok (.depth c.frames.size c.status.name, .nil), m)
  | .invalid msg => (.error msg, m)

def sessionSteps (cancelled : Bool) : List Step → Array Value → Array StepAnswer → Machine →
    Except String (Array StepAnswer)
  | [], _, out, _ => .ok out
  | st :: rest, vals, out, m =>
    match sessionStep cancelled vals st m with
    | (.error e, _) => .error e
    | (.ok (a, v), m) =>
      let out := out.push a
      if a.isFault then .ok out else sessionSteps cancelled rest (vals.push v) out m

end Machine

def runSession (opts : Options) (cancelled : Bool) (steps : List Step) : SessionAnswer :=
  match Machine.boot opts with
  | .error f => .steps [.outcome (.failure (.fault f) "")]
  | .ok m =>
    match Machine.sessionSteps cancelled steps #[] #[] m with
    | .ok answers => .steps answers.toList
    | .error msg => .badInput msg

end RegisterVM
