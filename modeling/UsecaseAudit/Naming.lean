import UsecaseAudit.Text.Affix
import UsecaseAudit.Text.Blank

/-!
# Naming rules

The audit knows a program by its names.  A class is a controller, a method is
an action and a call goes to a usecase when the name says so; no name, and the
empty name, never does.
-/

namespace UsecaseAudit
namespace Naming

def isController (name : Option String) : Bool :=
  match name with
  | none => false
  | some s => Affix.ends s "Controller"

def resourceActions : List String :=
  ["index", "show", "new", "create", "edit", "update", "destroy"]

/--
A method may be an action when it is one of the seven of a resource, or when
its name neither begins with an underscore nor asks a question.
-/
def isAction (name : Option String) : Bool :=
  match name with
  | none => false
  | some s =>
      if s = "" then false
      else if resourceActions.contains s then true
      else !Affix.starts s "_" && !Affix.ends s "?"

def refersToUsecase (name : Option String) : Bool :=
  match name with
  | none => false
  | some s =>
      if s = "" then false
      else Affix.ends s "usecase" || Affix.occurs s "Usecase"

/-!
# Segments of a qualified name

A qualified name is made of segments divided by double colons.
-/

def lastSegmentChars (current : List Char) : List Char → List Char
  | ':' :: ':' :: rest => lastSegmentChars [] rest
  | c :: rest => lastSegmentChars (c :: current) rest
  | [] => current.reverse

def lastSegment (name : String) : String :=
  String.ofList (Blank.trimChars (lastSegmentChars [] name.toList))

end Naming
end UsecaseAudit
