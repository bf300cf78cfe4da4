import RegisterVM.Bundle.Convert
import RegisterVM.Bytecode.View
import RegisterVM.Host.Outcome

set_option autoImplicit false

namespace RegisterVM

inductive PackAnswer where
  | packed (data : ByteArray) (digest : ByteArray) (decoded : ProcedureView)
  | unwritable (msg : String)
  | unreadable
  | fault (f : Fault)
  | badInput (msg : String)

inductive UnpackAnswer where
  | described (view : ProcedureView) (digest : ByteArray)
  | unreadable
  | format (msg : String)
  | unwritable (msg : String)
  | fault (f : Fault)

def packSource (src : Source) : PackAnswer :=
  match src.assembleAlone with
  | .error (.bad msg) => .badInput msg
  | .error (.fault f) => .fault f
  | .ok (p, t) =>
    match Bundle.pack t p with
    | .error msg => .unwritable msg
    | .ok data =>
      match Bundle.load Symbols.fresh data with
      | .error _ => .unreadable
      | .ok (_, q, t) =>
        match q.view t with
        | .ok v => .packed data (Bundle.digest data) v
        | .error f => .fault f

def describeBundle (data : ByteArray) : UnpackAnswer :=
  match Bundle.load Symbols.fresh data with
  | .error (.unreadable _) => .unreadable
  | .error (.format msg) => .format msg
  | .ok (w, p, t) =>
    match p.view t with
    | .error f => .fault f
    | .ok v =>
      match Bundle.rewrite t w with
      | .error msg => .unwritable msg
      | .ok w => .described v (Bundle.digest (Bundle.encode w))

def runBundle (opts : Options) (cancelled : Bool) (data : ByteArray) :
    Except Bundle.LoadError Outcome :=
  match Machine.boot opts with
  | .error f => .ok (.failure (.fault f) "")
  | .ok m =>
    match Bundle.load m.store.symbols data with
    | .error e => .error e
    | .ok (_, p, symbols) =>
      let m := { m with store := { m.store with symbols } }
      let (r, m) := Machine.enter (.fixed (Interruption.ofCancelled cancelled)) (Machine.runTop p) m
      .ok (Machine.report r m).1

end RegisterVM
