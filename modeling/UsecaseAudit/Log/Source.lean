/-!
# Sources of log records

Every part of the program has a name in the log, which begins with the name of
the whole program.  The records of a part rise to the nearest part around it
that is known, and from there on until they reach the whole program.

The parts around a part are read off its name, from the end: what stands before
a point is the name of one.  When no such part is known, the character before
that point is passed over as well.  So of two points side by side only the
second one counts, and a part whose own name begins with a point may stand
outside of the program.
-/

namespace UsecaseAudit
namespace Log

def wholeName : String := "usecompass"

/-- The name of a part of the program in the log; the whole program has a name of its own. -/
def sourceName (part : Option String) : String :=
  match part with
  | none => wholeName
  | some "" => wholeName
  | some name => wholeName ++ "." ++ name

/-- Whether records rise to the whole program from inside a name, which is given from its last
character to its first. -/
def rises (known : List String) : List Char → Bool
  | [] => false
  | [_] => false
  | c :: d :: rest =>
      if c = '.' then
        let around := String.ofList (d :: rest).reverse
        if around = wholeName then true
        else if known.contains around then rises known (d :: rest)
        else rises known rest
      else
        rises known (d :: rest)

def belongs (known : List String) (source : String) : Bool :=
  source == wholeName || rises known source.toList.reverse

end Log
end UsecaseAudit
