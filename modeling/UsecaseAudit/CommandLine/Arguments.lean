import UsecaseAudit.CommandLine.Usage
import UsecaseAudit.Text.Affix
import UsecaseAudit.Text.Digit

/-!
# Reading a command line

First every argument is told apart: an option of the scope, an argument that
looks like an option but is none, or a plain argument.  An option may be
written by a beginning of its long name that no other option shares, with its
value after an equals sign, or in short form with other short options or its
value right behind it.  An equals sign is only set aside right after the first
name in an argument.  Then the options act from left to right, and what no
option takes is left over.
-/

namespace UsecaseAudit
namespace CommandLine

/-!
# Telling arguments apart
-/

/-- An option that was recognised, by which of its names, and with which text attached. -/
structure Recognised where
  switch : Switch
  name : String
  attached : Option (List Char)
  deriving DecidableEq, Repr

inductive Token where
  | plain (text : String)
  | separator
  | unknown (text : String)
  | option (found : Recognised)
  deriving DecidableEq, Repr

def splitEquals (cs : List Char) : List Char × Option (List Char) :=
  match cs.dropWhile (· != '=') with
  | [] => (cs, none)
  | _ :: after => (cs.takeWhile (· != '='), some after)

/-- Digits, or digits and a point with digits after it, up to the end of a line. -/
def looksNumeric (cs : List Char) : Bool :=
  let line := if cs.getLast? == some '\n' then cs.dropLast else cs
  match line.dropWhile Digit.isDigit with
  | [] => !line.isEmpty
  | c :: after => c == '.' && !after.isEmpty && after.all Digit.isDigit

/-- The options that a long argument may mean: those with a name that begins as it does. -/
def longMatches (scope : Scope) (cs : List Char) : List Recognised :=
  let (beginning, value) := splitEquals cs
  (scope.table.filter fun row => beginning.isPrefixOf row.1.toList).map fun row =>
    { switch := row.2, name := row.1, attached := value }

/-- The options that a short argument may mean: the one of its first letter. -/
def shortMatches (scope : Scope) (cs : List Char) : List Recognised :=
  scope.table.filterMap fun row =>
    if row.1.toList = cs.take 2 then
      some { switch := row.2, name := row.1, attached := some (cs.drop 2) }
    else if cs.isPrefixOf row.1.toList then
      some { switch := row.2, name := row.1, attached := none }
    else
      none

def possible (scope : Scope) (cs : List Char) : List Recognised :=
  match cs with
  | '-' :: '-' :: _ => longMatches scope cs
  | _ => shortMatches scope cs

/-- An option with an equals sign right after its whole name. -/
def exactWithValue? (scope : Scope) (cs : List Char) : Option Recognised :=
  match splitEquals cs with
  | (_, none) => none
  | (name, some value) =>
      (scope.find? (String.ofList name)).map fun s =>
        { switch := s, name := String.ofList name, attached := some value }

/-- An argument of two or more characters that begins with a dash and is no name itself. -/
def classifyDashed (scope : Scope) (argument : String) : Except UsageError Token :=
  let cs := argument.toList
  match exactWithValue? scope cs with
  | some found => .ok (.option found)
  | none =>
      match possible scope cs with
      | [found] => .ok (.option found)
      | [] =>
          if looksNumeric (cs.drop 1) || cs.contains ' ' then .ok (.plain argument)
          else .ok (.unknown argument)
      | several => .error (.ambiguous argument (several.map Recognised.name))

def classify (scope : Scope) (argument : String) : Except UsageError Token :=
  match argument.toList with
  | '-' :: rest =>
      match scope.find? argument with
      | some s => .ok (.option { switch := s, name := argument, attached := none })
      | none => if rest.isEmpty then .ok (.plain argument) else classifyDashed scope argument
  | _ => .ok (.plain argument)

/-- Tells what each argument is; after a double dash all are plain. -/
def tokens (scope : Scope) : List String → Except UsageError (List Token)
  | [] => .ok []
  | argument :: rest =>
      if argument = "--" then
        .ok (.separator :: rest.map .plain)
      else do
        let first ← classify scope argument
        let others ← tokens scope rest
        return first :: others

/-!
# What one argument asks for
-/

structure Demand where
  /-- Options without a value, and an option with its value attached. -/
  given : List (Switch × Option String) := []
  /-- An option whose value is the next argument. -/
  awaiting : Option Switch := none
  deriving DecidableEq, Repr

/-- The value that an attached text gives; a double dash alone withholds it. -/
def attachedValue (cs : List Char) : Option String :=
  if cs = ['-', '-'] then none else some (String.ofList cs)

def Demand.ofAttached (s : Switch) (cs : List Char) : Demand :=
  { given := [(s, attachedValue cs)] }

def Demand.ofBare (s : Switch) : Demand :=
  if s.takesValue then { awaiting := some s } else { given := [(s, none)] }

def Demand.after (s : Switch) (d : Demand) : Demand :=
  { d with given := (s, none) :: d.given }

/-- Reads a short option with text attached: its value, or more short options. -/
def spread (scope : Scope) (s : Switch) : List Char → Except UsageError Demand
  | [] =>
      if s.takesValue then .ok (Demand.ofAttached s []) else .error (.unexpectedValue s "")
  | c :: rest =>
      if s.takesValue then
        .ok (Demand.ofAttached s (c :: rest))
      else
        match scope.find? (String.ofList ['-', c]) with
        | none => .error (.unexpectedValue s (String.ofList (c :: rest)))
        | some next =>
            if rest.isEmpty then .ok ((Demand.ofBare next).after s)
            else (spread scope next rest).map (Demand.after s)

def isLong (name : String) : Bool :=
  Affix.starts name "--"

def demand (scope : Scope) (found : Recognised) : Except UsageError Demand :=
  match found.attached with
  | none => .ok (Demand.ofBare found.switch)
  | some cs =>
      if isLong found.name then
        if found.switch.takesValue then .ok (Demand.ofAttached found.switch cs)
        else .error (.unexpectedValue found.switch (String.ofList cs))
      else
        spread scope found.switch cs

/-!
# Acting on options
-/

/-- The values so far, the options seen, and the arguments that nothing took. -/
structure Progress where
  options : Options := {}
  seen : List Switch := []
  leftover : List String := []
  deriving DecidableEq, Repr

def Progress.leave (p : Progress) (argument : String) : Progress :=
  { p with leftover := p.leftover ++ [argument] }

def assign (o : Options) (s : Switch) (value : Option String) : Options :=
  match s with
  | .root => { o with root := value }
  | .settings => { o with settings := value }
  | .format => { o with format := value.bind Report.Format.ofName? }
  | .output => { o with output := value }
  | .controllersOnly => { o with switches := { o.switches with controllersOnly := true } }
  | .specsOnly => { o with switches := { o.switches with specsOnly := true } }
  | .rakesOnly => { o with switches := { o.switches with rakesOnly := true } }
  | .force => { o with force := true }
  | .verbose => { o with verbose := true }
  | .quiet => { o with quiet := true }
  | .help => o
  | .version => o

def badChoice? (s : Switch) (value : Option String) : Option String :=
  match s with
  | .format => value.filter fun name => (Report.Format.ofName? name).isNone
  | _ => none

def act (scope : Scope) (p : Progress) (s : Switch) (value : Option String) :
    Except Stop Progress :=
  match badChoice? s value with
  | some name => .error (.usage scope (.invalidChoice s name))
  | none =>
      match s.rival? with
      | some rival =>
          if p.seen.contains rival then .error (.usage scope (.notAllowedWith s rival))
          else .ok { p with options := assign p.options s value, seen := s :: p.seen }
      | none =>
          match s with
          | .help => .error (.help scope)
          | .version => .error .version
          | _ => .ok { p with options := assign p.options s value, seen := s :: p.seen }

def actAll (scope : Scope) (p : Progress) :
    List (Switch × Option String) → Except Stop Progress
  | [] => .ok p
  | (s, value) :: rest => do
      let next ← act scope p s value
      actAll scope next rest

def consume (scope : Scope) : Progress → List Token → Except Stop Progress
  | p, [] => .ok p
  | p, .plain text :: rest => consume scope (p.leave text) rest
  | p, .separator :: rest => consume scope (p.leave "--") rest
  | p, .unknown text :: rest => consume scope (p.leave text) rest
  | p, .option found :: rest =>
      match demand scope found with
      | .error e => .error (.usage scope e)
      | .ok d =>
          match d.awaiting with
          | none => do
              let next ← actAll scope p d.given
              consume scope next rest
          | some s =>
              match rest with
              | .plain value :: others => do
                  let next ← actAll scope p (d.given ++ [(s, some value)])
                  consume scope next others
              | _ => .error (.usage scope (.missingValue s))

/-!
# Whole command lines
-/

def withDefaultCommand (arguments : List String) : List String :=
  match arguments with
  | [] => ["check"]
  | first :: _ =>
      if (Command.ofName? first).isSome || ["-h", "--help", "--version"].contains first then
        arguments
      else if Affix.starts first "-" then
        "check" :: arguments
      else
        arguments

/-- Reads the arguments of a command; also gives what is left over. -/
def parseCommand (command : Command) (arguments : List String) : Except Stop Progress := do
  let ts ← (tokens command.scope arguments).mapError (Stop.usage command.scope)
  consume command.scope {} ts

def parseFrom : List String → Except Stop Invocation
  | [] => .error (.usage .program (.unknownCommand ""))
  | first :: rest =>
      match Scope.find? .program first with
      | some .version => .error .version
      | some _ => .error (.help .program)
      | none =>
          match Command.ofName? first with
          | none => .error (.usage .program (.unknownCommand first))
          | some command => do
              let p ← parseCommand command rest
              if p.leftover.isEmpty then
                return { command := command, options := p.options }
              else
                .error (.usage .program (.leftover p.leftover))

def parse (arguments : List String) : Except Stop Invocation := do
  let whole := withDefaultCommand arguments
  let _ ← (tokens .program whole).mapError (Stop.usage .program)
  parseFrom whole

end CommandLine
end UsecaseAudit
