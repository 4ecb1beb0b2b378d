/-!
# Code trees

The audit looks at programs through a small vocabulary: classes, methods,
calls, blocks, assignments, symbol and string literals and references to
constants.  Everything else is `other` and only passed through.

A call knows its receiver, its arguments and its block, and a constant its
scope, besides the children of the node.  In a tree that was read from source
these parts are children as well; in a tree built by hand they need not be.
-/

namespace UsecaseAudit

inductive Kind where
  | classDef
  | methodDef
  | call
  | block
  | assignment
  | symbolLiteral
  | stringLiteral
  | constantRef
  | other
  deriving DecidableEq, Repr

namespace Kind

def all : List Kind :=
  [.classDef, .methodDef, .call, .block, .assignment, .symbolLiteral, .stringLiteral,
    .constantRef, .other]

def label : Kind → String
  | .classDef => "class-def"
  | .methodDef => "method-def"
  | .call => "call"
  | .block => "block"
  | .assignment => "assignment"
  | .symbolLiteral => "symbol-literal"
  | .stringLiteral => "string-literal"
  | .constantRef => "constant-reference"
  | .other => "other"

def ofLabel? (text : String) : Option Kind :=
  all.find? fun kind => kind.label == text

end Kind

structure Code where
  kind : Kind
  line : Option Int := none
  name : Option String := none
  value : Option String := none
  receiver : Option Code := none
  arguments : List Code := []
  block : Option Code := none
  scope : Option Code := none
  children : List Code := []

namespace Code

/-!
# Walking a tree

A walk lists a node before its children and keeps the order of siblings.  It
runs on a stack of trees that wait to be listed, so that the depth of a tree
does not matter.
-/

theorem sizeOf_append (xs ys : List Code) :
    sizeOf (xs ++ ys) + 1 = sizeOf xs + sizeOf ys := by
  induction xs with
  | nil =>
      simp only [List.nil_append, List.nil.sizeOf_spec]
      omega
  | cons x xs ih =>
      simp only [List.cons_append, List.cons.sizeOf_spec]
      omega

theorem sizeOf_children_lt (c : Code) : sizeOf c.children < sizeOf c := by
  cases c
  simp only [Code.mk.sizeOf_spec]
  omega

/-- Lists the trees of a stack, the first of them first. -/
def walkAll : List Code → List Code
  | [] => []
  | c :: rest => c :: walkAll (c.children ++ rest)
termination_by stack => sizeOf stack
decreasing_by
  have happend := sizeOf_append c.children rest
  have hchildren := sizeOf_children_lt c
  simp only [List.cons.sizeOf_spec]
  omega

def walk (c : Code) : List Code :=
  walkAll [c]

/-!
# Qualified names
-/

def constantName? (c : Code) : Option String :=
  if c.kind = .constantRef then
    match c.name with
    | none => none
    | some name => if name = "" then none else some name
  else
    none

/-- The name of a constant behind the names of the constants that enclose it. -/
def qualifiedName : Code → Option String
  | c@{ scope := none, .. } => c.constantName?
  | c@{ scope := some outer, .. } =>
      match c.constantName? with
      | none => none
      | some name =>
          match qualifiedName outer with
          | none => some name
          | some path => some (path ++ "::" ++ name)

end Code
end UsecaseAudit
