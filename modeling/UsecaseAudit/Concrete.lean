/-!
# Concrete trees

A grammar reads source text into a concrete tree: one node for every piece of
the text, down to the punctuation.  A node carries a label and its children in
source order.  The label says which construct it is, in which field of its
parent it stands, which bytes it covers and on which row it begins.

Where the text does not fit the grammar, the tree holds error nodes and nodes
that were missing from the text; a flag marks every node above such a place.
-/

namespace UsecaseAudit

structure Label where
  kind : String
  field : Option String
  named : Bool
  missing : Bool
  flagged : Bool
  start : Nat
  stop : Nat
  row : Nat
  deriving DecidableEq, Repr

structure Concrete where
  label : Label
  children : List Concrete

namespace Concrete

def kind (t : Concrete) : String :=
  t.label.kind

/-- Lines count from one, rows from zero. -/
def line (t : Concrete) : Int :=
  Int.ofNat t.label.row + 1

def child? (t : Concrete) (field : String) : Option Concrete :=
  t.children.find? fun c => c.label.field == some field

/-!
# The first fault

A tree that does not fit the grammar is searched for its first fault: an error
node or a missing node, reached from the root through children that are flagged
or missing themselves.  The search goes down a bounded number of levels.
-/

def isFault (t : Concrete) : Bool :=
  t.kind == "ERROR" || t.label.missing

/-- Whether the search for a fault enters this child. -/
def isSuspect (t : Concrete) : Bool :=
  t.label.flagged || t.label.missing

inductive FaultSearch where
  | tooDeep
  | found (fault : Concrete)
  | clear

def searchEach (search : Concrete → FaultSearch) : List Concrete → FaultSearch
  | [] => .clear
  | t :: rest =>
      match search t with
      | .clear => searchEach search rest
      | result => result

/-- The first fault of a tree in preorder, looked for in at most `levels` levels. -/
def firstFault : (levels : Nat) → Concrete → FaultSearch
  | 0, _ => .tooDeep
  | levels + 1, t =>
      if t.isFault then .found t
      else searchEach (firstFault levels) (t.children.filter isSuspect)

end Concrete
end UsecaseAudit
