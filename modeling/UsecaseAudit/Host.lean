import UsecaseAudit.Code.Reading
import UsecaseAudit.Settings.Document

/-!
# The host of the program

What the program does not do itself but asks of others: the home folders of users,
the opening of files for reading, walks through folders, the data in the text of a
settings file, the concrete tree of a source, the room on the stack and the printing
of a line.  Nothing is assumed here about how they answer.
-/

namespace UsecaseAudit

/-- An error of the system for a file that is there, such as one that only others may read. -/
structure Denial where
  number : Nat
  text : String
  deriving DecidableEq, Repr

/-- An error of the reader of settings that is not about the form of the text, such as a date that
the calendar does not have. -/
structure ReaderError where
  kind : String
  message : String
  deriving DecidableEq, Repr

inductive Interpretation where
  | document (d : Document)
  | malformed (explanation : String)
  | broken (e : ReaderError)

def Concrete.emptyProgram : Concrete :=
  { label :=
      { kind := "program"
        field := none
        named := true
        missing := false
        flagged := false
        start := 0
        stop := 0
        row := 0 }
    children := [] }

structure Host where
  /-- The home folder of a user; the empty name is that of the one who runs the program. -/
  homes : String → Option String := fun _ => none
  /-- What the system gives in place of a file, by the path under which it is read. -/
  denial : String → Option Denial := fun _ => none
  /-- How many folders within one another a walk can go through, if there is a limit. -/
  walk : Option Nat := none
  /-- How many folders in a row may be missing above one that is made, if there is a limit. -/
  climb : Option Nat := none
  /-- The data in the text of a settings file. -/
  interpret : String → Interpretation := fun _ => .document .null
  /-- The tree of a source that does not come with one. -/
  grammar : List UInt8 → Concrete := fun _ => .emptyProgram
  /-- What the program finds left of the stack. -/
  stack : Stack := { room := 900, making := 3, listing := 1 }
  /-- What the console shows for a text that is printed on a line of its own. -/
  print : String → String := fun text => text ++ "\n"

end UsecaseAudit
