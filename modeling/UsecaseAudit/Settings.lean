import UsecaseAudit.Check

/-!
# Settings

The settings of a project say which files, actions and tasks the audit passes
over, and where the specs of files with unusual names stand.
-/

namespace UsecaseAudit

structure NamedExclusion where
  file : String
  names : List String
  deriving DecidableEq, Repr

structure Exclusions where
  controllers : List String := []
  controllerActions : List NamedExclusion := []
  usecaseSpecs : List String := []
  rakeFiles : List String := []
  rakeTasks : List NamedExclusion := []
  rakeSpecs : List String := []
  deriving DecidableEq, Repr

namespace Exclusions

def files (e : Exclusions) : Check → List String
  | .controllers => e.controllers
  | .usecaseSpecs => e.usecaseSpecs
  | .rakes => e.rakeFiles
  | .rakeSpecs => e.rakeSpecs

def excludesFile (e : Exclusions) (check : Check) (file : String) : Bool :=
  (e.files check).contains file

/-- As `excludesFile`, for a check given by name; an unknown check passes over nothing. -/
def excludesFileFor (e : Exclusions) (check : String) (file : String) : Bool :=
  match Check.ofName? check with
  | none => false
  | some c => e.excludesFile c file

def listed (entries : List NamedExclusion) (file name : String) : Bool :=
  entries.any fun entry => entry.file == file && entry.names.contains name

def excludesAction (e : Exclusions) (file action : String) : Bool :=
  listed e.controllerActions file action

def excludesTask (e : Exclusions) (file task : String) : Bool :=
  listed e.rakeTasks file task

end Exclusions

structure SpecPlace where
  source : String
  spec : String
  deriving DecidableEq, Repr

structure SpecPlaces where
  usecases : List SpecPlace := []
  rakes : List SpecPlace := []
  deriving DecidableEq, Repr

structure Settings where
  exclusions : Exclusions := {}
  specPlaces : SpecPlaces := {}
  deriving DecidableEq, Repr

end UsecaseAudit
