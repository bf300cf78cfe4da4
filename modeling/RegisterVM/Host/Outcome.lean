import RegisterVM.Host.Enter

set_option autoImplicit false

namespace RegisterVM

inductive Outcome where
  | value (v : Shown) (stdout : String)
  | failure (e : HostError) (stdout : String)
  | badInput (msg : String)
deriving Inhabited

def Outcome.isFault : Outcome → Bool
  | .failure (.fault _) _ => true
  | _ => false

namespace Machine

def report (r : Except HostError Value) (m : Machine) : Outcome × Machine :=
  let out := m.store.out
  match r with
  | .error e => (.failure e out, m)
  | .ok v =>
    match (shown v).run m with
    | .ok s m => (.value s out, m)
    | .error f m => (.failure (.fault f) out, m)

def assemble (src : Source) (m : Machine) : Except AsmError Procedure × Machine :=
  match src.assemble.run m.store.symbols with
  | .ok (p, symbols) => (.ok p, { m with store := { m.store with symbols } })
  | .error e => (.error e, m)

def runSource (src : Source) (cancelled : Bool) (m : Machine) : Outcome × Machine :=
  match assemble src m with
  | (.error (.bad msg), m) => (.badInput msg, m)
  | (.error (.fault f), m) => (.failure (.fault f) "", m)
  | (.ok p, m) =>
    let (r, m) := enter (.fixed (Interruption.ofCancelled cancelled)) (runTop p) m
    report r m

end Machine

def runFresh (opts : Options) (cancelled : Bool) (src : Source) : Outcome :=
  match Machine.boot opts with
  | .error f => .failure (.fault f) ""
  | .ok m => (Machine.runSource src cancelled m).1

end RegisterVM
