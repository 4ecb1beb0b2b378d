import UsecaseAudit.Code.Reading

/-!
# Source files

A source file is a sequence of bytes together with the concrete tree that the
grammar gives for them.  Reading it ends with a code tree or with a failure
that names the file, and the line where one is known.

The text must be UTF-8; the tree must fit the grammar; the stack must have room
for the search for a fault and for the reading.  The first of these conditions that does
not hold gives the failure.
-/

namespace UsecaseAudit

inductive ReadFailure.Cause where
  | invalidText (reason : Utf8.Reason)
  | brokenCode
  | tooDeep
  | inaccessible (explanation : String)
  deriving DecidableEq, Repr

def ReadFailure.Cause.detail : ReadFailure.Cause → String
  | .invalidText reason => "invalid UTF-8: " ++ reason.message
  | .brokenCode => "syntax error"
  | .tooDeep => "syntax tree too deep"
  | .inaccessible explanation => "could not read file: " ++ explanation

structure ReadFailure where
  path : String
  cause : ReadFailure.Cause
  line : Option Int := none
  deriving DecidableEq, Repr

namespace ReadFailure

/-- The grammar counts rows in 32 bits, so that a line never has too many digits for a text. -/
def locate (path : String) (line : Option Int) (detail : String) : String :=
  match line with
  | none => path ++ ": " ++ detail
  | some n => path ++ ":" ++ toString n ++ ": " ++ detail

def message (failure : ReadFailure) : String :=
  locate failure.path failure.line failure.cause.detail

end ReadFailure

structure Source where
  bytes : List UInt8
  tree : Concrete

namespace Source

/-- The failure of a tree that does not fit the grammar; each level of the search for a fault is a
call. -/
def brokenFailure (stack : Stack) (path : String) (tree : Concrete) : ReadFailure :=
  match tree.firstFault stack.room with
  | .tooDeep => { path := path, cause := .tooDeep }
  | .found fault => { path := path, cause := .brokenCode, line := some fault.line }
  | .clear => { path := path, cause := .brokenCode }

def read (stack : Stack) (path : String) (source : Source) : Except ReadFailure Code :=
  match Utf8.firstFault source.bytes with
  | some fault => .error { path := path, cause := .invalidText fault.reason }
  | none =>
      if source.tree.label.flagged then
        .error (brokenFailure stack path source.tree)
      else
        match Code.read source.bytes stack source.tree with
        | none => .error { path := path, cause := .tooDeep }
        | some code => .ok code

end Source
end UsecaseAudit
