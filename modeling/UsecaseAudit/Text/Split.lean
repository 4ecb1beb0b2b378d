/-!
# Splitting a text

The pieces of a text between the occurrences of one character.  There is always
one piece more than there are occurrences.
-/

namespace UsecaseAudit
namespace Split

/-- The pieces of the rest of a text; `current` is the piece so far, last character first. -/
def piecesFrom (mark : Char) (current : List Char) : List Char → List (List Char)
  | [] => [current.reverse]
  | c :: rest =>
      if c = mark then current.reverse :: piecesFrom mark [] rest
      else piecesFrom mark (c :: current) rest

def pieces (mark : Char) (text : String) : List String :=
  (piecesFrom mark [] text.toList).map String.ofList

end Split
end UsecaseAudit
