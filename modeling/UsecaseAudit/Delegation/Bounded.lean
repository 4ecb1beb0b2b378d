import UsecaseAudit.Delegation.Action
import UsecaseAudit.Delegation.Task

/-!
# Delegation within a bound

A qualified name is put together from scope to scope, by a call for each, and
the stack has room for a number of levels only.  When the receiver of a call
lies in more scopes than that, the call gives no answer to whether it names a
usecase.  A search that comes upon such a
call before it has found a usecase gives no answer either, and a scan that
needs the answer gives no findings at all.

Code that was read on the same stack is never so deep; code built by hand may be.
-/

namespace UsecaseAudit
namespace Code

/-- The qualified name of a node, put together from at most `levels` nodes. -/
def nameWithin : (levels : Nat) → Code → Option (Option String)
  | 0, _ => none
  | levels + 1, c =>
      match c.constantName?, c.scope with
      | none, _ => some none
      | some name, none => some (some name)
      | some name, some outer =>
          (nameWithin levels outer).map fun path =>
            match path with
            | none => some name
            | some path => some (path ++ "::" ++ name)

def nameOf (levels : Nat) (code : Option Code) : Option (Option String) :=
  match code with
  | none => some none
  | some c => c.nameWithin levels

def receiverRefers? (levels : Nat) (c : Code) : Option Bool :=
  match c.receiver with
  | none => some false
  | some r =>
      if r.kind = .constantRef then (r.nameWithin levels).map Naming.refersToUsecase
      else some false

/-- Whether a node is a call that names a usecase; the name of the call is looked at first. -/
def namesUsecase? (levels : Nat) (c : Code) : Option Bool :=
  if c.kind = .call then
    if Naming.refersToUsecase c.name then some true else c.receiverRefers? levels
  else
    some false

theorem sizeOf_perm {xs ys : List Code} (h : xs.Perm ys) : sizeOf xs = sizeOf ys := by
  induction h with
  | nil =>
      rfl
  | cons x _ ih =>
      simp only [List.cons.sizeOf_spec, ih]
  | swap x y rest =>
      simp only [List.cons.sizeOf_spec]
      omega
  | trans _ _ ih₁ ih₂ =>
      exact ih₁.trans ih₂

/-- Searches the trees of a stack, on which the last child of a node comes to lie on top. -/
def anyDelegates? (levels : Nat) : List Code → Option Bool
  | [] => some false
  | c :: rest =>
      match c.namesUsecase? levels with
      | none => none
      | some true => some true
      | some false => anyDelegates? levels (c.searched.reverse ++ rest)
termination_by stack => sizeOf stack
decreasing_by
  have happend := sizeOf_append c.searched.reverse rest
  have hreverse := sizeOf_perm c.searched.reverse_perm
  have hsearched := sizeOf_searched_lt c
  simp only [List.cons.sizeOf_spec]
  omega

def delegates? (levels : Nat) (code : Option Code) : Option Bool :=
  anyDelegates? levels code.toList

/-!
# Scans
-/

def actionFindings? (levels : Nat) (file : String) (m : Code) : Option (List IdleAction) :=
  (delegates? levels (some m)).map fun busy =>
    if busy then [] else [{ file := file, action := m.name.getD "", line := m.line }]

def idleActions? (levels : Nat) (exclusions : Exclusions) (file : String) (tree : Code) :
    Option (List IdleAction) :=
  (((tree.walk.filter isController).flatMap (actions exclusions file)).mapM
    (actionFindings? levels file)).map List.flatten

def taskFindings? (levels : Nat) (exclusions : Exclusions) (file : String) (c : Code) :
    Option (List IdleTask) :=
  match c.taskName? with
  | none => some []
  | some name =>
      if exclusions.excludesTask file name then some []
      else
        (delegates? levels c.taskBody?).map fun busy =>
          if busy then [] else [{ file := file, task := name, line := c.line }]

def idleTasks? (levels : Nat) (exclusions : Exclusions) (file : String) (tree : Code) :
    Option (List IdleTask) :=
  (tree.walk.mapM (taskFindings? levels exclusions file)).map List.flatten

end Code
end UsecaseAudit
