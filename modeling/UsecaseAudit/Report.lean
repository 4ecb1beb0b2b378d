import UsecaseAudit.Report.Console
import UsecaseAudit.Report.Json

/-!
# Reports

The results of an audit can be reported in two formats.  A report that is broken off
leaves what was written of it before.
-/

namespace UsecaseAudit
namespace Report

inductive Format where
  | console
  | json
  deriving DecidableEq, Repr

namespace Format

def name : Format → String
  | .console => "console"
  | .json => "json"

def all : List Format :=
  [.console, .json]

def ofName? (text : String) : Option Format :=
  all.find? fun format => format.name == text

end Format

/-- What was written of a report, and the number that broke it off, if one did. -/
structure Written where
  text : String := ""
  failure : Option Whole.Refusal := none
  deriving DecidableEq, Repr

def Written.ofPieces : List Piece → Written
  | [] => {}
  | .error e :: _ => { failure := some e }
  | .ok text :: rest =>
      let others := ofPieces rest
      { others with text := text ++ others.text }

def pieces (print : String → String) (format : Format) (r : Results) : List Piece :=
  match format with
  | .console => console print r
  | .json => [json r]

def text (print : String → String) (format : Format) (r : Results) : Written :=
  .ofPieces (pieces print format r)

/-- As `text`, for a format given by name; the error is the name of an unknown format. -/
def textFor (print : String → String) (format : String) (r : Results) : Except String Written :=
  match Format.ofName? format with
  | some f => .ok (text print f r)
  | none => .error format

def unknownFormatMessage (format : String) : String :=
  "Unsupported format: " ++ format

end Report
end UsecaseAudit
