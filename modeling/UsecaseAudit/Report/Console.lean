import UsecaseAudit.Decimal.Whole
import UsecaseAudit.Finding
import UsecaseAudit.Report.Markup

/-!
# Console report

The warnings, then one section for each check with findings, then how many
findings there are; or a single line when there are none.  Every line is written in
markup, which the console renders before it prints the line.

The report is made piece by piece, since a line number with too many digits breaks
it off after what was printed before.
-/

namespace UsecaseAudit
namespace Report

/-- A piece of a report, or the number that breaks the report off. -/
abbrev Piece := Except Whole.Refusal String

section

variable (print : String → String)

/-- What a console that prints plain text by `print` shows for a line in markup. -/
def consoleLine (markup : String) : String :=
  print (Markup.render markup)

def warningLine (w : Warning) : String :=
  consoleLine print ("[yellow]Warning: could not parse " ++ Markup.escape w.message ++ "[/yellow]")

def findingLine (text : String) : String :=
  consoleLine print ("  " ++ Markup.escape text)

/-- The findings of one check under a heading; nothing for a check without findings. -/
def consoleSection {α : Type} (heading : String) (line : α → Except Whole.Refusal String)
    (findings : Option (List α)) : List Piece :=
  match findings.getD [] with
  | [] => []
  | found =>
      .ok (consoleLine print ("\n[bold yellow]⚠ " ++ heading ++ "[/bold yellow]"))
        :: found.map fun v => (line v).map (findingLine print)

end

def lineText : Option Int → Except Whole.Refusal String
  | none => .ok "?"
  | some n => Whole.text n

def located (file : String) (line : Option Int) (name : String) :
    Except Whole.Refusal String := do
  let number ← lineText line
  return file ++ ":" ++ number ++ " - " ++ name

def actionLine (v : IdleAction) : Except Whole.Refusal String :=
  located v.file v.line v.action

def taskLine (v : IdleTask) : Except Whole.Refusal String :=
  located v.file v.line v.task

def specLine (v : MissingSpec) : Except Whole.Refusal String :=
  .ok (v.file ++ " - " ++ v.expected)

def consoleSections (print : String → String) (r : Results) : List Piece :=
  consoleSection print "Controllers not calling usecases:" actionLine r.controllers
    ++ consoleSection print "Usecases without specs:" specLine r.usecaseSpecs
    ++ consoleSection print "Rake tasks not calling usecases:" taskLine r.rakes
    ++ consoleSection print "Rake files without specs:" specLine r.rakeSpecs

def totalLine (print : String → String) (r : Results) : Piece :=
  (Whole.text r.total).map fun total =>
    consoleLine print ("[red]Found " ++ total ++ " violations[/red]")

def console (print : String → String) (r : Results) : List Piece :=
  r.warnings.map (fun w => .ok (warningLine print w))
    ++ if r.hasFindings then
        consoleSections print r ++ [.ok (consoleLine print ""), totalLine print r]
      else
        [.ok (consoleLine print "[green]✓ All checks passed![/green]")]

end Report
end UsecaseAudit
