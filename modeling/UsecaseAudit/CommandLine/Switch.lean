import UsecaseAudit.Check
import UsecaseAudit.Report

/-!
# Options of the command line

Every option has its written names, in the order in which they are listed, and
either takes a value or does not.  Each command knows a list of options.
-/

namespace UsecaseAudit
namespace CommandLine

inductive Switch where
  | help
  | version
  | root
  | settings
  | format
  | output
  | controllersOnly
  | specsOnly
  | rakesOnly
  | force
  | verbose
  | quiet
  deriving DecidableEq, Repr

namespace Switch

def names : Switch → List String
  | .help => ["-h", "--help"]
  | .version => ["--version"]
  | .root => ["-r", "--root"]
  | .settings => ["-c", "--config"]
  | .format => ["-f", "--format"]
  | .output => ["-o", "--output"]
  | .controllersOnly => ["-C", "--controllers-only"]
  | .specsOnly => ["-S", "--specs-only"]
  | .rakesOnly => ["-R", "--rakes-only"]
  | .force => ["-f", "--force"]
  | .verbose => ["-v", "--verbose"]
  | .quiet => ["-q", "--quiet"]

def title (s : Switch) : String :=
  "/".intercalate s.names

def takesValue : Switch → Bool
  | .root => true
  | .settings => true
  | .format => true
  | .output => true
  | _ => false

/-- The option that must not be given together with this one. -/
def rival? : Switch → Option Switch
  | .verbose => some .quiet
  | .quiet => some .verbose
  | _ => none

end Switch

inductive Scope where
  | program
  | check
  | init
  deriving DecidableEq, Repr

namespace Scope

def switches : Scope → List Switch
  | .program => [.help, .version]
  | .check =>
      [.help, .root, .settings, .format, .output, .controllersOnly, .specsOnly, .rakesOnly,
        .verbose, .quiet]
  | .init => [.help, .root, .force, .verbose, .quiet]

def table (scope : Scope) : List (String × Switch) :=
  scope.switches.flatMap fun s => s.names.map fun name => (name, s)

def find? (scope : Scope) (name : String) : Option Switch :=
  (scope.table.find? fun row => row.1 == name).map Prod.snd

end Scope

/-!
# Commands
-/

inductive Command where
  | check
  | init
  deriving DecidableEq, Repr

namespace Command

def name : Command → String
  | .check => "check"
  | .init => "init"

def all : List Command :=
  [.check, .init]

def ofName? (text : String) : Option Command :=
  all.find? fun command => command.name == text

def scope : Command → Scope
  | .check => .check
  | .init => .init

end Command

/-- The values of all options, each with the value it has when it is not given.  An option that
is given with its value withheld has none. -/
structure Options where
  root : Option String := some "."
  settings : Option String := none
  format : Option Report.Format := some .console
  output : Option String := none
  switches : Check.Switches := {}
  force : Bool := false
  verbose : Bool := false
  quiet : Bool := false
  deriving DecidableEq, Repr

structure Invocation where
  command : Command
  options : Options
  deriving DecidableEq, Repr

end CommandLine
end UsecaseAudit
