import UsecaseAudit.Delegation.Action
import UsecaseAudit.Delegation.Task
import UsecaseAudit.Discovery
import UsecaseAudit.Settings.File
import UsecaseAudit.SourceFile
import UsecaseAudit.SpecPath

/-!
# The audit of a project

An audit finds the root of a project and its settings, and runs the checks that
are asked for in their fixed order.  A check takes the files of its role that
the settings do not pass over.  The two checks of code read each file and look
for idle actions or tasks; a file that cannot be read becomes a warning.  The
two checks of specs look for a spec at the expected place of each file.
-/

namespace UsecaseAudit
namespace Audit

structure Request where
  root : String
  settingsPath : Option String := none
  settings : Option Settings := none
  checks : Option (List String) := none

structure Project where
  disk : Disk
  root : Location
  settings : Settings

def part : String := "orchestrator"

def checkPart (check : Check) : String :=
  "analyzers." ++ check.name

/-!
# Candidates
-/

def isExcluded (p : Project) (check : Check) (path : ProjectPath) : Bool :=
  p.settings.exclusions.excludesFile check path.text

def candidates (p : Project) (check : Check) : Traced (List ProjectPath) := do
  let files ← Discovery.inRoot p.disk p.root check.role
  Traced.notes <| (files.filter (isExcluded p check)).map fun path =>
    ⟨.debug, Log.sourceName (some (checkPart check)), "Skipping excluded file " ++ path.text⟩
  return files.filter fun path => !isExcluded p check path

/-!
# Checks of code
-/

structure CodeFindings (α : Type) where
  findings : List α := []
  warnings : List Warning := []

def readCode (p : Project) (path : ProjectPath) : Except ReadFailure Code :=
  SourceFile.readAs p.disk path.text (Path.ofLocation (p.root ++ path))

def auditFile {α : Type} (p : Project) (check : Check) (scan : String → Code → List α)
    (path : ProjectPath) : Traced (CodeFindings α) :=
  match readCode p path with
  | .ok code => pure { findings := scan path.text code }
  | .error failure => do
      Traced.note .warning (checkPart check)
        ("Could not parse " ++ path.text ++ ": " ++ failure.cause.detail)
      return { warnings := [{ file := path.text, message := failure.message }] }

def auditFiles {α : Type} (p : Project) (check : Check) (scan : String → Code → List α) :
    List ProjectPath → Traced (CodeFindings α)
  | [] => pure {}
  | path :: rest => do
      let first ← auditFile p check scan path
      let others ← auditFiles p check scan rest
      return {
        findings := first.findings ++ others.findings
        warnings := first.warnings ++ others.warnings }

def auditCode {α : Type} (p : Project) (check : Check) (scan : String → Code → List α) :
    Traced (CodeFindings α) := do
  let paths ← candidates p check
  auditFiles p check scan paths

/-!
# Checks of specs
-/

def expectedSpec (p : Project) (role : Role) (path : ProjectPath) : String :=
  (SpecPath.expected? role (SpecPath.placesFor p.settings.specPlaces role) path.text).getD ""

def missingSpec? (p : Project) (role : Role) (path : ProjectPath) :
    Except Failure (Option MissingSpec) := do
  let expected := expectedSpec p role path
  let place := (Path.ofLocation p.root).join (Path.ofText expected)
  let present ← (p.disk.isPresent place).mapError Failure.system
  return if present then none else some { file := path.text, expected := expected }

def missingSpecs (p : Project) (role : Role) :
    List ProjectPath → Except Failure (List MissingSpec)
  | [] => .ok []
  | path :: rest => do
      let first ← missingSpec? p role path
      let others ← missingSpecs p role rest
      return first.toList ++ others

def auditSpecs (p : Project) (check : Check) : Traced (List MissingSpec) := do
  let paths ← candidates p check
  Traced.lift (missingSpecs p check.role paths)

/-!
# The whole run
-/

/-- Runs a check if it is chosen, and logs how much it found. -/
def whenChosen {α : Type} (checks : List Check) (check : Check) (size : α → Nat)
    (run : Traced α) : Traced (Option α) :=
  if checks.contains check then do
    let found ← run
    Traced.note .debug part (check.name ++ ": " ++ toString (size found) ++ " violations")
    return some found
  else
    pure none

def warningsOf {α : Type} (found : Option (CodeFindings α)) : List Warning :=
  (found.map CodeFindings.warnings).getD []

def runChecks (p : Project) (checks : List Check) : Traced Results := do
  let exclusions := p.settings.exclusions
  let controllers ← whenChosen checks .controllers (fun f => f.findings.length)
    (auditCode p .controllers (Code.idleActions exclusions))
  let usecaseSpecs ← whenChosen checks .usecaseSpecs List.length (auditSpecs p .usecaseSpecs)
  let rakes ← whenChosen checks .rakes (fun f => f.findings.length)
    (auditCode p .rakes (Code.idleTasks exclusions))
  let rakeSpecs ← whenChosen checks .rakeSpecs List.length (auditSpecs p .rakeSpecs)
  return {
    controllers := controllers.map CodeFindings.findings
    usecaseSpecs := usecaseSpecs
    rakes := rakes.map CodeFindings.findings
    rakeSpecs := rakeSpecs
    warnings := warningsOf controllers ++ warningsOf rakes }

/-- The settings of a run: those of the request, or those of a file. -/
def settingsFor (disk : Disk) (root : Location) (request : Request) :
    Except Failure LoadedSettings :=
  match request.settings with
  | some settings => .ok { settings := settings }
  | none =>
      match request.settingsPath with
      | none => LoadedSettings.load disk (Path.ofLocation (root ++ [Starter.fileName]))
      | some "" => LoadedSettings.load disk (Path.ofLocation (root ++ [Starter.fileName]))
      | some path => LoadedSettings.load disk (Path.ofText path)

def noteSource (loaded : LoadedSettings) : Traced Unit :=
  match loaded.source with
  | none => pure ()
  | some place =>
      Traced.note .debug part ("Loaded configuration from " ++ (Path.ofLocation place).text)

def run (disk : Disk) (request : Request) : Traced Results := do
  let root ← Traced.lift (Discovery.rootOf disk request.root)
  let loaded ← Traced.lift (settingsFor disk root request)
  noteSource loaded
  let checks ← Traced.lift ((Check.named request.checks).mapError Failure.unknownChecks)
  Traced.note .info part
    ("Checking " ++ (Path.ofLocation root).text ++ " ("
      ++ ", ".intercalate (checks.map Check.name) ++ ")")
  let results ← runChecks { disk := disk, root := root, settings := loaded.settings } checks
  Traced.note .info part
    ("Found " ++ toString results.total ++ " violations ("
      ++ toString results.warnings.length ++ " files skipped)")
  return results

def check (disk : Disk) (root : String) (settingsPath : Option String)
    (switches : Check.Switches) : Traced Results :=
  run disk {
    root := root
    settingsPath := settingsPath
    checks := some ((Check.chosen switches).map Check.name) }

end Audit
end UsecaseAudit
