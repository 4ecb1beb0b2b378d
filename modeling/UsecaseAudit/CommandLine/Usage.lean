import UsecaseAudit.CommandLine.Switch
import UsecaseAudit.Text.Quoted

/-!
# Usage, help and usage errors

The fixed texts of the command line, and the wording of its errors.
-/

namespace UsecaseAudit
namespace CommandLine

def versionText : String := "usecompass 0.1.0\n"

def paragraph (lines : List String) : String :=
  String.join (lines.map (· ++ "\n"))

namespace Scope

def programName : Scope → String
  | .program => "usecompass"
  | .check => "usecompass check"
  | .init => "usecompass init"

def usage : Scope → String
  | .program => paragraph ["usage: usecompass [-h] [--version] \x7bcheck,init\x7d ..."]
  | .check => paragraph [
      "usage: usecompass check [-h] [-r ROOT] [-c CONFIG] [-f \x7bconsole,json\x7d]",
      "                        [-o OUTPUT] [-C] [-S] [-R] [-v | -q]"]
  | .init => paragraph ["usage: usecompass init [-h] [-r ROOT] [-f] [-v | -q]"]

def explanation : Scope → String
  | .program => paragraph [
      "",
      "Check that controllers and rake tasks delegate to usecases, and that usecases",
      "and rake files have specs.",
      "",
      "positional arguments:",
      "  \x7bcheck,init\x7d",
      "    check       Run the checks (default when no command is given).",
      "    init        Create a usecompass.yml template in the project root.",
      "",
      "options:",
      "  -h, --help    show this help message and exit",
      "  --version     show program's version number and exit"]
  | .check => paragraph [
      "",
      "options:",
      "  -h, --help            show this help message and exit",
      "  -r ROOT, --root ROOT  Root path of the project (defaults to current",
      "                        directory).",
      "  -c CONFIG, --config CONFIG",
      "                        Config file path.",
      "  -f \x7bconsole,json\x7d, --format \x7bconsole,json\x7d",
      "                        Output format.",
      "  -o OUTPUT, --output OUTPUT",
      "                        Write the report to this file.",
      "  -C, --controllers-only",
      "                        Check controllers only.",
      "  -S, --specs-only      Check usecase specs only.",
      "  -R, --rakes-only      Check rake files only.",
      "  -v, --verbose         Increase log verbosity for troubleshooting.",
      "  -q, --quiet           Only log warnings and errors."]
  | .init => paragraph [
      "",
      "options:",
      "  -h, --help            show this help message and exit",
      "  -r ROOT, --root ROOT  Root path of the project (defaults to current",
      "                        directory).",
      "  -f, --force           Overwrite an existing config file without asking.",
      "  -v, --verbose         Increase log verbosity for troubleshooting.",
      "  -q, --quiet           Only log warnings and errors."]

def help (scope : Scope) : String :=
  scope.usage ++ scope.explanation

end Scope

/-!
# Usage errors
-/

inductive UsageError where
  | unknownCommand (given : String)
  | leftover (arguments : List String)
  | ambiguous (argument : String) (names : List String)
  | missingValue (option : Switch)
  | invalidChoice (option : Switch) (value : String)
  | notAllowedWith (option other : Switch)
  | unexpectedValue (option : Switch) (value : String)
  deriving DecidableEq, Repr

namespace UsageError

def invalid (argument value : String) (choices : List String) : String :=
  "argument " ++ argument ++ ": invalid choice: " ++ Quoted.text value ++ " (choose from "
    ++ ", ".intercalate (choices.map Quoted.text) ++ ")"

def message : UsageError → String
  | .unknownCommand given => invalid "command" given (Command.all.map Command.name)
  | .leftover arguments => "unrecognized arguments: " ++ " ".intercalate arguments
  | .ambiguous argument names =>
      "ambiguous option: " ++ argument ++ " could match " ++ ", ".intercalate names
  | .missingValue option => "argument " ++ option.title ++ ": expected one argument"
  | .invalidChoice option value =>
      invalid option.title value (Report.Format.all.map Report.Format.name)
  | .notAllowedWith option other =>
      "argument " ++ option.title ++ ": not allowed with argument " ++ other.title
  | .unexpectedValue option value =>
      "argument " ++ option.title ++ ": ignored explicit argument " ++ Quoted.text value

end UsageError

inductive Stop where
  | help (scope : Scope)
  | version
  | usage (scope : Scope) (e : UsageError)
  deriving DecidableEq, Repr

end CommandLine
end UsecaseAudit
