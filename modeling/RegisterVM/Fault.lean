
set_option autoImplicit false

namespace RegisterVM

inductive Fault where
  | panic (msg : String)
  | runtime
deriving DecidableEq, Repr, Inhabited

end RegisterVM
