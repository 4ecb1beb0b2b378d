import UsecaseAudit.Concrete
import UsecaseAudit.Text.Split

/-!
# Concrete trees as rows

A concrete tree is passed around as the list of its nodes in preorder, each
with the number of its children.  The tree is put together from the last row to
the first: the trees that follow a row wait on a stack, and the row takes as
many of them as it has children.
-/

namespace UsecaseAudit

structure Row where
  label : Label
  childCount : Nat
  deriving DecidableEq, Repr

namespace Row

def push (r : Row) (following : List Concrete) : List Concrete :=
  { label := r.label, children := following.take r.childCount } :: following.drop r.childCount

def ofParts (kind field : String) (flags start stop row childCount : Nat) : Row :=
  { label :=
      { kind := kind
        field := if field = "" then none else some field
        named := flags.testBit 0
        missing := flags.testBit 1
        flagged := flags.testBit 2
        start := start
        stop := stop
        row := row }
    childCount := childCount }

def number? (text : String) : Option Nat :=
  if text.toList.isEmpty || !text.toList.all Char.isDigit then none
  else some (text.toList.foldl (fun n c => n * 10 + (c.toNat - 48)) 0)

/-- Reads a row whose parts are divided by tabs. -/
def ofLine? (line : String) : Option Row :=
  match Split.pieces '\t' line with
  | [kind, field, flags, start, stop, row, childCount] => do
      let flags ← number? flags
      let start ← number? start
      let stop ← number? stop
      let row ← number? row
      let childCount ← number? childCount
      return ofParts kind field flags start stop row childCount
  | _ => none

end Row

namespace Concrete

def ofRows? (rows : List Row) : Option Concrete :=
  (rows.foldr Row.push []).head?

def ofText? (text : String) : Option Concrete :=
  (((Split.pieces '\n' text).filter (· != "")).mapM Row.ofLine?).bind ofRows?

end Concrete
end UsecaseAudit
