import UsecaseAudit.Check
import UsecaseAudit.Disk

/-!
# Failures

What can stop an audit as a whole.  A source file that cannot be read stops
nothing; it becomes a warning.  A path may begin at the home folder of a user, and
fails when there is none.
-/

namespace UsecaseAudit

inductive SettingsFailure where
  | unreadable (path explanation : String)
  | malformed (name explanation : String)
  | notMapping (name : String)
  deriving DecidableEq, Repr

def SettingsFailure.message : SettingsFailure → String
  | .unreadable path explanation => "Failed to read " ++ path ++ ": " ++ explanation
  | .malformed name explanation => "Failed to parse " ++ name ++ ": " ++ explanation
  | .notMapping name => name ++ " must contain a mapping at the root"

inductive Failure where
  | system (e : SystemError)
  | homeUnknown
  | rootMissing (path : String)
  | rootNotFolder (path : String)
  | unknownRole (name : String)
  | unknownChecks (names : List String)
  | settings (e : SettingsFailure)
  | reader (e : ReaderError)
  | number (e : Whole.Refusal)
  | tooDeep
  deriving DecidableEq, Repr

def Failure.message : Failure → String
  | .system e => e.message
  | .homeUnknown => "Could not determine home directory."
  | .rootMissing path => "Project path not found: " ++ path
  | .rootNotFolder path => "Project path is not a directory: " ++ path
  | .unknownRole name => "Unknown file role: " ++ name
  | .unknownChecks names => Check.unknownMessage names
  | .settings e => e.message
  | .reader e => e.message
  | .number e => e.message
  | .tooDeep => "maximum recursion depth exceeded"

/-- A path with the home folder of the user at which it begins, if it begins at one.  A name with a
null character is not even looked up. -/
def expandHome (host : Host) (p : Path) : Except Failure Path :=
  match p.user? with
  | none => .ok p
  | some name =>
      if Path.hasNull name then .error (.system ⟨.nullCharacter, p.text⟩)
      else
        match (host.homes name).bind p.atHome? with
        | none => .error .homeUnknown
        | some expanded => .ok expanded

end UsecaseAudit
