/-!
Contract: the settings of a run.

Owns: the settings and what they are unless set otherwise.

Does not own: what depends on them.
-/

set_option autoImplicit false

namespace Registrar

/-- What a run depends on besides its unit. -/
structure Configuration where
  /-- The name of the module that is made. -/
  moduleName : String := "module"
  /-- Whether to warn of directives that name no base. -/
  warnOnUnknownBase : Bool := true
  /-- Whether records carry documentation. -/
  emitDocs : Bool := true
  deriving DecidableEq

end Registrar
