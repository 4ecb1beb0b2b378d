import UsecaseAudit.Text.Lower

/-!
# Checks and roles

The audit has four checks, run in a fixed order.  Each looks at the files that
play one role in a project.
-/

namespace UsecaseAudit

inductive Role where
  | controller
  | usecase
  | task
  deriving DecidableEq, Repr

namespace Role

def name : Role → String
  | .controller => "controller"
  | .usecase => "usecase"
  | .task => "task"

def all : List Role :=
  [.controller, .usecase, .task]

def ofName? (text : String) : Option Role :=
  all.find? fun role => role.name == text

end Role

inductive Check where
  | controllers
  | usecaseSpecs
  | rakes
  | rakeSpecs
  deriving DecidableEq, Repr

namespace Check

def name : Check → String
  | .controllers => "controllers"
  | .usecaseSpecs => "usecase_specs"
  | .rakes => "rakes"
  | .rakeSpecs => "rake_specs"

def role : Check → Role
  | .controllers => .controller
  | .usecaseSpecs => .usecase
  | .rakes => .task
  | .rakeSpecs => .task

def all : List Check :=
  [.controllers, .usecaseSpecs, .rakes, .rakeSpecs]

def ofName? (text : String) : Option Check :=
  all.find? fun check => check.name == text

/-!
# Choosing checks by switches
-/

structure Switches where
  controllersOnly : Bool := false
  specsOnly : Bool := false
  rakesOnly : Bool := false
  deriving DecidableEq, Repr

def Switches.admits (s : Switches) : Check → Bool
  | .controllers => s.controllersOnly
  | .usecaseSpecs => s.specsOnly
  | .rakes => s.rakesOnly
  | .rakeSpecs => s.rakesOnly

/-- The checks that the switches choose; without any switch, all of them. -/
def chosen (s : Switches) : List Check :=
  if s.controllersOnly || s.specsOnly || s.rakesOnly then all.filter s.admits else all

/-!
# Choosing checks by name
-/

def textLE (a b : String) : Bool :=
  !decide (b < a)

def distinctSorted (texts : List String) : List String :=
  texts.eraseDups.mergeSort textLE

/-- The names, in lower case, that no check has; each once and in order. -/
def unknownNames (names : List String) : List String :=
  distinctSorted ((names.map Lower.text).filter fun n => (ofName? n).isNone)

/-- The checks that are asked for by name, in running order, or the unknown names. -/
def named (names : Option (List String)) : Except (List String) (List Check) :=
  match names with
  | none => .ok all
  | some given =>
      match unknownNames given with
      | [] => .ok (all.filter fun check => (given.map Lower.text).contains check.name)
      | unknown => .error unknown

def unknownMessage (unknown : List String) : String :=
  "Unknown checks requested: " ++ ", ".intercalate unknown

end Check
end UsecaseAudit
