/-!
# Classes of characters

A class of characters is given by its edges: the increasing list of code points
at which membership changes, starting from "not a member" at zero.  A character
belongs to the class when an odd number of edges lie at or below it.
-/

namespace UsecaseAudit

/-- A class of characters, as the increasing list of code points where membership changes. -/
structure CharClass where
  edges : List Nat

namespace CharClass

def contains (cls : CharClass) (c : Char) : Bool :=
  (cls.edges.takeWhile fun edge => decide (edge ≤ c.toNat)).length % 2 == 1

end CharClass
end UsecaseAudit
