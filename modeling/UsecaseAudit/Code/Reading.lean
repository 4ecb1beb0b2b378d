import UsecaseAudit.Code
import UsecaseAudit.Concrete
import UsecaseAudit.Naming
import UsecaseAudit.Text.Utf8

/-!
# Reading code from a concrete tree

A concrete tree becomes a code tree construct by construct.  The statements of
a node are its named children without comments and parameter lists, where a
body that only wraps statements gives way to the statements in it.

Reading calls itself on the way down, and the stack has room for a number of
calls only.  When they do not suffice, reading gives nothing at all, rather than
a part of the tree.
-/

namespace UsecaseAudit

/-- The constructs that are read in a way of their own. -/
inductive Form where
  | classDef
  | methodDef
  | call
  | identifier
  | block
  | assignment
  | plainSymbol
  | quotedSymbol
  | string
  | constant
  | scopePath
  | other
  deriving DecidableEq, Repr

def Form.ofKind (kind : String) : Form :=
  match kind with
  | "class" => .classDef
  | "method" => .methodDef
  | "call" => .call
  | "identifier" => .identifier
  | "do_block" => .block
  | "block" => .block
  | "assignment" => .assignment
  | "simple_symbol" => .plainSymbol
  | "delimited_symbol" => .quotedSymbol
  | "string" => .string
  | "constant" => .constant
  | "scope_resolution" => .scopePath
  | _ => .other

/-- What is left of the stack to a reader: the room for calls within calls, and how many calls it
takes for a moment to make a node and to list the statements of one. -/
structure Stack where
  room : Nat
  making : Nat
  listing : Nat
  deriving DecidableEq, Repr

namespace Concrete

def form (t : Concrete) : Form :=
  Form.ofKind t.kind

/-!
# Text and statements of a node
-/

def text (source : List UInt8) (t : Concrete) : String :=
  Utf8.decodeLossy (Utf8.slice t.label.start t.label.stop source)

def isBody (t : Concrete) : Bool :=
  t.kind == "body_statement" || t.kind == "block_body"

def silentKinds : List String :=
  ["method_parameters", "parameters", "bare_parameters", "block_parameters",
    "lambda_parameters", "comment"]

def isSilent (t : Concrete) : Bool :=
  !t.label.named || silentKinds.contains t.kind

def standsIn (fields : List String) (t : Concrete) : Bool :=
  match t.label.field with
  | none => false
  | some field => fields.contains field

/-- The children of a node that are read as its statements, apart from the given fields. -/
def statements (apart : List String) (t : Concrete) : List Concrete :=
  t.children.filter fun c => !c.isSilent && !standsIn apart c

/-- The content of a literal whose named children are all plain content or escapes. -/
def literal? (source : List UInt8) (t : Concrete) : Option String :=
  let parts := t.children.filter fun c => c.label.named
  if parts.all fun c => c.kind == "string_content" || c.kind == "escape_sequence" then
    some (String.join (parts.map (text source)))
  else
    none

def symbolText (source : List UInt8) (t : Concrete) : String :=
  String.ofList ((t.text source).toList.dropWhile (· == ':'))

/-- The name a call is made by; a call on a value alone has none. -/
def callName? (source : List UInt8) (t : Concrete) : Option String :=
  match t.child? "method" with
  | none => none
  | some m => if m.kind == "argument_list" then none else some (m.text source)

/-- The targets whose assignment is told apart from other code. -/
def isTarget (t : Concrete) : Bool :=
  t.kind == "identifier" || t.kind == "instance_variable"

end Concrete

namespace Code

/-!
# Nodes of each kind
-/

def ofClass (source : List UInt8) (t : Concrete) (body : List Code) : Code :=
  { kind := .classDef
    line := some t.line
    name := (t.child? "name").map fun n => Naming.lastSegment (n.text source)
    children := body }

def ofMethod (source : List UInt8) (t : Concrete) (body : List Code) : Code :=
  { kind := .methodDef
    line := some t.line
    name := (t.child? "name").map fun n => n.text source
    children := body }

def ofCall (source : List UInt8) (t : Concrete)
    (receiver : Option Code) (arguments : List Code) (block : Option Code) : Code :=
  { kind := .call
    line := some t.line
    name := t.callName? source
    receiver := receiver
    arguments := arguments
    block := block
    children := receiver.toList ++ arguments ++ block.toList }

/-- An identifier may be a call without arguments, and is taken for one. -/
def ofIdentifier (source : List UInt8) (t : Concrete) : Code :=
  { kind := .call, line := some t.line, name := some (t.text source) }

def ofBlock (t : Concrete) (body : List Code) : Code :=
  { kind := .block, line := some t.line, children := body }

def ofTarget (source : List UInt8) (t : Concrete) : Code :=
  { kind := .other, line := some t.line, name := some (t.text source) }

def ofAssignment (source : List UInt8) (t left : Concrete) (value : Code) : Code :=
  { kind := .assignment, line := some t.line, children := [ofTarget source left, value] }

def ofLiteral (kind : Kind) (t : Concrete) (value : String) : Code :=
  { kind := kind, line := some t.line, value := some value }

def ofConstant (t : Concrete) (name : String) (scope : Option Code) : Code :=
  { kind := .constantRef
    line := some t.line
    name := some name
    scope := scope
    children := scope.toList }

def ofOther (t : Concrete) (body : List Code) : Code :=
  { kind := .other, line := some t.line, children := body }

/-!
# One level of reading

A node is put together from what lies below it.  The readers passed here read a
node whole, the statements of a node apart from some fields, and a node as one
that has no form of its own.
-/

section Level

variable (source : List UInt8) (whole : Concrete → Option Code)
variable (statements : List String → Concrete → Option (List Code))
variable (other : Concrete → Option Code)

def readOptional : Option Concrete → Option (Option Code)
  | none => some none
  | some t => (whole t).map some

def readStatement (t : Concrete) : Option (List Code) :=
  if t.isBody then statements [] t else (whole t).map ([·])

def readArguments : Option Concrete → Option (List Code)
  | none => some []
  | some list => statements [] list

def readCall (t : Concrete) : Option Code := do
  let receiver ← readOptional whole (t.child? "receiver")
  let arguments ← readArguments statements (t.child? "arguments")
  let block ← readOptional whole (t.child? "block")
  return ofCall source t receiver arguments block

def readAssignment (t : Concrete) : Option Code :=
  match t.child? "left", t.child? "right" with
  | some left, some right =>
      if left.isTarget then (whole right).map (ofAssignment source t left) else other t
  | _, _ => other t

def readLiteral (kind : Kind) (t : Concrete) : Option Code :=
  match t.literal? source with
  | some value => some (ofLiteral kind t value)
  | none => other t

def readScoped (t : Concrete) : Option Code :=
  match t.child? "name" with
  | none => other t
  | some name =>
      if name.kind == "constant" then
        (readOptional whole (t.child? "scope")).map (ofConstant t (name.text source))
      else
        other t

def readForm (t : Concrete) : Option Code :=
  match t.form with
  | .classDef => (statements ["name"] t).map (ofClass source t)
  | .methodDef => (statements ["name", "parameters"] t).map (ofMethod source t)
  | .call => readCall source whole statements t
  | .identifier => some (ofIdentifier source t)
  | .block => (statements [] t).map (ofBlock t)
  | .assignment => readAssignment source whole other t
  | .plainSymbol => some (ofLiteral .symbolLiteral t (t.symbolText source))
  | .quotedSymbol => readLiteral source other .symbolLiteral t
  | .string => readLiteral source other .stringLiteral t
  | .constant => some (ofConstant t (t.text source) none)
  | .scopePath => readScoped source whole other t
  | .other => other t

end Level

/-!
# Reading on a stack

Each of the functions below is one call deeper than the one that calls it.
-/

mutual

def readWhole (source : List UInt8) (stack : Stack) : (room : Nat) → Concrete → Option Code
  | 0, _ => none
  | room + 1, t =>
      if t.form = .other then readOther source stack room t else readOwn source stack room t

def readOwn (source : List UInt8) (stack : Stack) : (room : Nat) → Concrete → Option Code
  | 0, _ => none
  | room + 1, t =>
      if stack.making ≤ room then
        readForm source (readWhole source stack room) (readStatements source stack room)
          (readOther source stack room) t
      else
        none

/-- Reads a node that has no form of its own, or does not have the parts of its form. -/
def readOther (source : List UInt8) (stack : Stack) : (room : Nat) → Concrete → Option Code
  | 0, _ => none
  | room + 1, t =>
      if stack.making ≤ room then
        (readStatements source stack room [] t).map (ofOther t)
      else
        none

def readStatements (source : List UInt8) (stack : Stack) :
    (room : Nat) → List String → Concrete → Option (List Code)
  | 0, _, _ => none
  | room + 1, apart, t =>
      if stack.listing ≤ room then
        ((t.statements apart).mapM (readStatement (readWhole source stack room)
          (readStatements source stack room))).map List.flatten
      else
        none

end

def read (source : List UInt8) (stack : Stack) (t : Concrete) : Option Code :=
  readWhole source stack stack.room t

end Code
end UsecaseAudit
