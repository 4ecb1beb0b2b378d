/-!
# Findings

What an audit finds: actions and tasks that reach no usecase, files without a
spec, and files that could not be read.  The results hold one list per check,
and none for a check that was not asked for.
-/

namespace UsecaseAudit

structure IdleAction where
  file : String
  action : String
  line : Option Int
  deriving DecidableEq, Repr

structure IdleTask where
  file : String
  task : String
  line : Option Int
  deriving DecidableEq, Repr

structure MissingSpec where
  file : String
  expected : String
  deriving DecidableEq, Repr

structure Warning where
  file : String
  message : String
  deriving DecidableEq, Repr

structure Results where
  controllers : Option (List IdleAction) := none
  usecaseSpecs : Option (List MissingSpec) := none
  rakes : Option (List IdleTask) := none
  rakeSpecs : Option (List MissingSpec) := none
  warnings : List Warning := []
  deriving DecidableEq, Repr

namespace Results

/-- How many findings a check has; a check that was not asked for has none. -/
def count {α : Type} (findings : Option (List α)) : Nat :=
  (findings.getD []).length

def total (r : Results) : Nat :=
  count r.controllers + count r.usecaseSpecs + count r.rakes + count r.rakeSpecs

def hasFindings (r : Results) : Bool :=
  decide (0 < r.total)

end Results
end UsecaseAudit
