import UsecaseAudit.Delegation
import UsecaseAudit.Finding
import UsecaseAudit.Settings

/-!
# Idle tasks

A task is declared by a call of `task` whose first argument is a plain symbol
or string, which is the name of the task.  Its body is its block, or else the
first block among its children.  A task whose body does not delegate is idle,
unless the settings pass over it; so is a task without a body.
-/

namespace UsecaseAudit
namespace Code

def taskName? (c : Code) : Option String :=
  if c.kind = .call ∧ c.name = some "task" then
    match c.arguments with
    | [] => none
    | first :: _ =>
        if first.kind = .symbolLiteral ∨ first.kind = .stringLiteral then first.value else none
  else
    none

inductive BodyPlace where
  | block
  | child (index : Nat)
  deriving DecidableEq, Repr

def bodyPlace? (c : Code) : Option BodyPlace :=
  if c.block.isSome then
    some .block
  else
    (c.children.findIdx? fun child => child.kind == .block).map .child

def atPlace? (c : Code) : BodyPlace → Option Code
  | .block => c.block
  | .child index => c.children[index]?

def taskBody? (c : Code) : Option Code :=
  c.bodyPlace?.bind c.atPlace?

def idleTask? (exclusions : Exclusions) (file : String) (c : Code) : Option IdleTask :=
  match c.taskName? with
  | none => none
  | some name =>
      if exclusions.excludesTask file name || delegates c.taskBody? then none
      else some { file := file, task := name, line := c.line }

def idleTasks (exclusions : Exclusions) (file : String) (tree : Code) : List IdleTask :=
  tree.walk.filterMap (idleTask? exclusions file)

end Code
end UsecaseAudit
