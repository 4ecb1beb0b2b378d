import UsecaseAudit.Log.Source

/-!
# Log

The program keeps a log of what it does.  A record has a level, the part of the
program it comes from and a text.  Sinks take the records at or above their
level: the console, and a file when one is asked for.  A record that comes from
outside of the program never reaches these sinks but those around the program;
where there are none, the console shows its bare text if it is a warning or worse.
-/

namespace UsecaseAudit
namespace Log

inductive Level where
  | debug
  | info
  | warning
  | error
  | critical
  deriving DecidableEq, Repr

namespace Level

def rank : Level → Nat
  | .debug => 10
  | .info => 20
  | .warning => 30
  | .error => 40
  | .critical => 50

def name : Level → String
  | .debug => "DEBUG"
  | .info => "INFO"
  | .warning => "WARNING"
  | .error => "ERROR"
  | .critical => "CRITICAL"

def all : List Level :=
  [.debug, .info, .warning, .error, .critical]

def ofName? (text : String) : Option Level :=
  all.find? fun level => level.name == text

/-- Whether a sink of this level takes a record of the other level. -/
def admits (sink record : Level) : Bool :=
  decide (sink.rank ≤ record.rank)

/-- Verbose comes before quiet. -/
def ofVerbosity (verbose quiet : Bool) : Level :=
  if verbose then .debug else if quiet then .warning else .info

end Level

structure Record where
  level : Level
  source : String
  text : String
  deriving DecidableEq, Repr

def Record.fileLine (r : Record) : String :=
  r.level.name ++ " " ++ r.source ++ ": " ++ r.text

inductive Form where
  | console
  | file
  | bare
  deriving DecidableEq, Repr

def Form.line : Form → Record → String
  | .console, r => "[usecompass] " ++ r.level.name ++ " " ++ r.text
  | .file, r => r.fileLine
  | .bare, r => r.text

def Record.consoleLine (r : Record) : String :=
  Form.console.line r ++ "\n"

def consoleText (level : Level) (records : List Record) : String :=
  String.join ((records.filter fun r => level.admits r.level).map Record.consoleLine)

/-!
# Sinks
-/

inductive Target where
  | console
  | file (place : String)
  deriving DecidableEq, Repr

/-- A sink.  Sinks that are alike are told apart by the number under which they were made. -/
structure Sink where
  number : Nat
  target : Target
  level : Level
  form : Form
  deriving DecidableEq, Repr

/-- Where a record is shown that comes by no sink at all. -/
def lastSink : Sink :=
  { number := 0, target := .console, level := .warning, form := .bare }

structure State where
  level : Level := .warning
  /-- Whether records go on to the sinks around the program. -/
  propagates : Bool := true
  sinks : List Sink := []
  outer : List Sink := []
  made : Nat := 0
  /-- The lines of the file at a place; a file that does not exist has none. -/
  lines : String → List String := fun _ => []
  known : List String := []
  /-- Whether records of a source and a level were let in, as far as it was asked since the last
  configuration. -/
  answers : List ((String × Level) × Bool) := []

namespace State

/-!
# Configuring a log
-/

def remove (s : State) (sink : Sink) : State :=
  { s with sinks := s.sinks.erase sink }

def add (s : State) (target : Target) (level : Level) (form : Form) : State :=
  { s with
    sinks := s.sinks ++ [{ number := s.made, target := target, level := level, form := form }]
    made := s.made + 1 }

/--
A new configuration takes out the sinks one after the other and adds new ones,
the console first.  It fails when the system does not open the log file, which
is after the console has been added.
-/
def configure (s : State) (verbose quiet : Bool) (file : Option String) (opens : Bool) :
    State × Bool :=
  let level := Level.ofVerbosity verbose quiet
  let cleared :=
    s.sinks.foldl remove { s with level := level, propagates := false, answers := [] }
  let shown := cleared.add .console level .console
  match file with
  | none => (shown, true)
  | some place => if opens then (shown.add (.file place) level .file, true) else (shown, false)

/-!
# Taking a record
-/

def write (s : State) (r : Record) (sink : Sink) : State × String :=
  if sink.level.admits r.level then
    match sink.target with
    | .console => (s, sink.form.line r ++ "\n")
    | .file place =>
        ({ s with
            lines := fun other =>
              if other = place then s.lines place ++ [sink.form.line r] else s.lines other },
          "")
  else
    (s, "")

def writeAll (s : State) (r : Record) : List Sink → State × String
  | [] => (s, "")
  | sink :: rest =>
      let first := s.write r sink
      let others := first.1.writeAll r rest
      (others.1, first.2 ++ others.2)

def reached (s : State) (source : String) : List Sink :=
  if belongs s.known source then s.sinks ++ (if s.propagates then s.outer else []) else s.outer

def threshold (s : State) (source : String) : Level :=
  if belongs s.known source then s.level else .warning

/-- Whether a record is let in.  What was answered once for a source and a level is not asked again,
even when the source has come to belong to the program since, or no longer does. -/
def letsIn (s : State) (r : Record) : Bool :=
  match s.answers.lookup (r.source, r.level) with
  | some answer => answer
  | none => (s.threshold r.source).admits r.level

def emit (s : State) (r : Record) : State × String :=
  match s.reached r.source with
  | [] => s.write r lastSink
  | sink :: rest => s.writeAll r (sink :: rest)

/-- The state in which a record is taken: its source is known, and it is known whether the record is
let in. -/
def ask (s : State) (r : Record) : State :=
  let heard := { s with known := r.source :: s.known }
  { heard with answers := ((r.source, r.level), heard.letsIn r) :: s.answers }

def record (s : State) (r : Record) : State × String :=
  let asked := s.ask r
  if asked.letsIn r then asked.emit r else (asked, "")

end State

/-!
# Calls and events
-/

/-- A call that concerns the log.  A configuration may name a log file, which the system opens or
does not; a record comes from a part of the program. -/
inductive Call where
  | configure (verbose quiet : Bool) (file : Option String) (opens : Bool)
  | log (part : Option String) (level : Level) (text : String)
  deriving DecidableEq, Repr

def State.perform (s : State) : Call → State × String
  | .configure verbose quiet file opens => ((s.configure verbose quiet file opens).1, "")
  | .log part level text => s.record { level := level, source := sourceName part, text := text }

def State.run (s : State) (calls : List Call) : State :=
  calls.foldl (fun s call => (s.perform call).1) s

def usualPlace : String := "run.log"

inductive Event where
  | configure (verbose quiet toFile : Bool)
  | record (r : Record)
  deriving DecidableEq, Repr

def State.step (s : State) : Event → State × String
  | .configure verbose quiet toFile =>
      s.perform (.configure verbose quiet (if toFile then some usualPlace else none) true)
  | .record r => s.record r

end Log
end UsecaseAudit
