import UsecaseAudit.Audit
import UsecaseAudit.CommandLine.Arguments

/-!
# Running a command line

A run takes a disk, the arguments and the text on the standard input, and ends
with a disk, the two output texts and an exit status.  Failures that the
program has no words for break the run off: there is no exit status then, but
the disk and what was written so far are left.
-/

namespace UsecaseAudit
namespace CommandLine

structure Outcome where
  disk : Disk
  stdout : String := ""
  stderr : String := ""
  status : Nat := 0

inductive Breakdown where
  | audit (e : Failure)
  | starter (e : Starter.Failure)
  /-- The root was given with its value withheld. -/
  | noRoot
  /-- The format was given with its value withheld. -/
  | noFormat
  deriving DecidableEq, Repr

def Breakdown.message : Breakdown → String
  | .audit e => e.message
  | .starter e => e.message
  | .noRoot => "expected str, bytes or os.PathLike object, not list"
  | .noFormat => Report.unknownFormatMessage "[]"

structure Broken where
  disk : Disk
  cause : Breakdown
  stdout : String := ""
  stderr : String := ""

/-!
# The check command
-/

def part : String := "cli"

def logText (o : Options) (records : List Log.Record) : String :=
  Log.consoleText (Log.Level.ofVerbosity o.verbose o.quiet) records

def statusOf (r : Results) : Nat :=
  if r.hasFindings then 1 else 0

/-- The report in the format that was asked for; without a format there is none. -/
def report? (disk : Disk) (o : Options) (r : Results) : Option Report.Written :=
  o.format.map fun format => Report.text disk.host.print format r

def reportBreakdown? : Option Report.Written → Option Breakdown
  | none => some .noFormat
  | some written => written.failure.map fun e => .audit (.number e)

def reportText (report : Option Report.Written) : String :=
  (report.map Report.Written.text).getD ""

/-- Writes the report to the file that was asked for.  The file is there before the report is
made, so it is left with what there is of the report when that breaks off. -/
def reportToFile (disk : Disk) (o : Options) (records : List Log.Record) (r : Results)
    (output : String) : Except Broken Outcome :=
  let report := report? disk o r
  match disk.write output (File.ofText (reportText report)) with
  | .ok written =>
      match reportBreakdown? report with
      | some cause => .error { disk := written, cause := cause, stderr := logText o records }
      | none =>
          let written? : Log.Record :=
            ⟨.info, Log.sourceName (some part), "Report written to " ++ output⟩
          .ok {
            disk := written
            stderr := logText o (records ++ [written?])
            status := statusOf r }
  | .error e =>
      if e.fault = .nullCharacter then
        .error { disk := disk, cause := .audit (.system e), stderr := logText o records }
      else
        .ok {
          disk := disk
          stderr := logText o records ++ "usecompass: could not write report: " ++ e.message ++ "\n"
          status := 1 }

def report (disk : Disk) (o : Options) (records : List Log.Record) (r : Results) :
    Except Broken Outcome :=
  match o.output.getD "" with
  | "" =>
      let report := report? disk o r
      match reportBreakdown? report with
      | some cause =>
          .error {
            disk := disk
            cause := cause
            stdout := reportText report
            stderr := logText o records }
      | none =>
          .ok {
            disk := disk
            stdout := reportText report
            stderr := logText o records
            status := statusOf r }
  | output => reportToFile disk o records r output

/-- The message that ends a check, for the failures the program has words for. -/
def complaint? : Failure → Option String
  | .rootMissing path => some (Failure.rootMissing path).message
  | .rootNotFolder path => some (Failure.rootNotFolder path).message
  | .settings e => some ("usecompass: invalid configuration: " ++ e.message)
  | _ => none

def runCheckAt (disk : Disk) (o : Options) (root : String) : Except Broken Outcome :=
  let traced := Audit.check disk root o.settings o.switches
  match traced.outcome with
  | .ok results => report disk o traced.records results
  | .error failure =>
      match complaint? failure with
      | none =>
          .error {
            disk := disk
            cause := .audit failure
            stderr := logText o traced.records }
      | some text =>
          .ok {
            disk := disk
            stderr := logText o traced.records ++ text ++ "\n"
            status := 1 }

def runCheck (disk : Disk) (o : Options) : Except Broken Outcome :=
  match o.root with
  | none => .error { disk := disk, cause := .noRoot }
  | some root => runCheckAt disk o root

/-!
# The init command
-/

/-- The first line of a text; an empty text has none. -/
def firstLine? (input : String) : Option String :=
  match input.toList with
  | [] => none
  | cs => some (String.ofList (cs.takeWhile (· != '\n')))

def confirmed (input : String) : Bool :=
  match firstLine? input with
  | none => false
  | some line => ["y", "yes"].contains (Lower.text (Blank.trim line))

def create (disk : Disk) (path : Path) (overwrite : Bool) (said : String) :
    Except Broken Outcome :=
  match Starter.write disk path overwrite with
  | (written, .ok ()) =>
      .ok { disk := written, stdout := said ++ "Created configuration file: " ++ path.text ++ "\n" }
  | (changed, .error e) =>
      match e with
      | .system ⟨.nullCharacter, _⟩ | .tooDeep =>
          .error { disk := changed, cause := .starter e, stdout := said }
      | _ =>
          .ok {
            disk := changed
            stdout := said
            stderr := "usecompass init failed: " ++ e.message ++ "\n"
            status := 1 }

def settingsPath (host : Host) (o : Options) : Except Breakdown Path :=
  match o.root with
  | none => .error .noRoot
  | some root => do
      let given ← (expandHome host (Path.ofText root)).mapError Breakdown.audit
      return given.join (Path.ofText Starter.fileName)

/-- The question that the init command asks before it replaces an entry, if it asks one. -/
def question? (disk : Disk) (o : Options) (path : Path) : Except Breakdown (Option String) := do
  let present ← (disk.isPresent path).mapError fun e => Breakdown.audit (.system e)
  if present && !o.force then
    return some ("Configuration file already exists at " ++ path.text ++ ". Overwrite? [y/N]: ")
  else
    return none

def initPlan (disk : Disk) (o : Options) : Except Breakdown (Path × Option String) := do
  let path ← settingsPath disk.host o
  let question ← question? disk o path
  return (path, question)

def runInit (disk : Disk) (o : Options) (input : String) : Except Broken Outcome :=
  match initPlan disk o with
  | .error cause => .error { disk := disk, cause := cause }
  | .ok (path, none) => create disk path o.force ""
  | .ok (path, some question) =>
      if confirmed input then create disk path true question
      else .ok { disk := disk, stdout := question ++ "Aborted.\n" }

/-!
# Command lines
-/

def stopped (disk : Disk) : Stop → Outcome
  | .help scope => { disk := disk, stdout := scope.help }
  | .version => { disk := disk, stdout := versionText }
  | .usage scope e =>
      { disk := disk
        stderr := scope.usage ++ scope.programName ++ ": error: " ++ e.message ++ "\n"
        status := 2 }

def run (disk : Disk) (arguments : List String) (input : String) :
    Except Broken Outcome :=
  match parse arguments with
  | .error stop => .ok (stopped disk stop)
  | .ok invocation =>
      match invocation.command with
      | .check => runCheck disk invocation.options
      | .init => runInit disk invocation.options input

def asks? (disk : Disk) (arguments : List String) : Option String :=
  match parse arguments with
  | .ok ⟨.init, options⟩ => (initPlan disk options).toOption.bind Prod.snd
  | _ => none

end CommandLine
end UsecaseAudit
