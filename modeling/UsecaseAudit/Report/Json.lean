import UsecaseAudit.Decimal.Whole
import UsecaseAudit.Finding
import UsecaseAudit.Text.Utf8

/-!
# JSON report

JSON text with two blanks for each level.  Strings are written with the short
escapes where there are some, other control characters by their code, and
everything else as it stands.  A value that holds a whole number with too many
digits has no text.
-/

namespace UsecaseAudit

inductive Json where
  | null
  | int (n : Int)
  | text (s : String)
  | list (items : List Json)
  | object (fields : List (String × Json))

namespace Json

/-!
# Writing
-/

def escapeChar (c : Char) : List Char :=
  if c = '"' then ['\\', '"']
  else if c = '\\' then ['\\', '\\']
  else if c = '\n' then ['\\', 'n']
  else if c = '\r' then ['\\', 'r']
  else if c = '\t' then ['\\', 't']
  else if c = Char.ofNat 12 then ['\\', 'f']
  else if c = Char.ofNat 8 then ['\\', 'b']
  else if c.toNat < 32 then '\\' :: 'u' :: Utf8.hex 4 c.toNat
  else [c]

def quote (s : String) : List Char :=
  '"' :: s.toList.flatMap escapeChar ++ ['"']

def newLine (level : Nat) : List Char :=
  '\n' :: List.replicate (2 * level) ' '

mutual

def write (level : Nat) : Json → List Char
  | .null => "null".toList
  | .int n => (toString n).toList
  | .text s => quote s
  | .list [] => "[]".toList
  | .list (item :: rest) =>
      '[' :: newLine (level + 1) ++ write (level + 1) item ++ writeItems level rest
        ++ newLine level ++ [']']
  | .object [] => ['\x7b', '\x7d']
  | .object ((key, value) :: rest) =>
      '\x7b' :: newLine (level + 1) ++ quote key ++ [':', ' ']
        ++ write (level + 1) value ++ writeFields level rest
        ++ newLine level ++ ['\x7d']

def writeItems (level : Nat) : List Json → List Char
  | [] => []
  | item :: rest =>
      ',' :: newLine (level + 1) ++ write (level + 1) item ++ writeItems level rest

def writeFields (level : Nat) : List (String × Json) → List Char
  | [] => []
  | (key, value) :: rest =>
      ',' :: newLine (level + 1) ++ quote key ++ [':', ' '] ++ write (level + 1) value
        ++ writeFields level rest

end

mutual

def isShort : Json → Bool
  | .int n => Whole.isShort n
  | .list items => areShort items
  | .object fields => haveShort fields
  | _ => true

def areShort : List Json → Bool
  | [] => true
  | item :: rest => isShort item && areShort rest

def haveShort : List (String × Json) → Bool
  | [] => true
  | (_, value) :: rest => isShort value && haveShort rest

end

def written (value : Json) : Except Whole.Refusal (List Char) :=
  if value.isShort then .ok (value.write 0) else .error .tooManyDigits

end Json

namespace Report

/-!
# The report as a value
-/

def intJson : Option Int → Json
  | none => .null
  | some n => .int n

def actionJson (v : IdleAction) : Json :=
  .object [("file", .text v.file), ("action_name", .text v.action), ("line", intJson v.line)]

def taskJson (v : IdleTask) : Json :=
  .object [("file", .text v.file), ("task_name", .text v.task), ("line", intJson v.line)]

def specJson (v : MissingSpec) : Json :=
  .object [("file", .text v.file), ("expected_spec", .text v.expected)]

def warningJson (w : Warning) : Json :=
  .object [("file", .text w.file), ("message", .text w.message)]

/-- The findings of a check; a check that was not run has the null value. -/
def findingsJson {α : Type} (encode : α → Json) : Option (List α) → Json
  | none => .null
  | some found => .list (found.map encode)

def resultsJson (r : Results) : Json :=
  .object [
    ("controller_violations", findingsJson actionJson r.controllers),
    ("usecase_violations", findingsJson specJson r.usecaseSpecs),
    ("rake_violations", findingsJson taskJson r.rakes),
    ("rake_spec_violations", findingsJson specJson r.rakeSpecs),
    ("warnings", .list (r.warnings.map warningJson)),
    ("total_violations", .int r.total)]

def json (r : Results) : Except Whole.Refusal String :=
  (resultsJson r).written.map fun cs => String.ofList (cs ++ ['\n'])

end Report
end UsecaseAudit
