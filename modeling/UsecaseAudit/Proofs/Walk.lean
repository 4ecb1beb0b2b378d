import UsecaseAudit.Delegation
import UsecaseAudit.Proofs.Lists

/-!
# The two stacks, read recursively

A walk and a search for calls both run on a stack of trees.  A stack is worked
off tree by tree, so that what is said about a stack follows from what is said
about the trees in it: a walk lists a node and then walks through its children,
and a search looks at a node and then searches the children it goes on to.
-/

namespace UsecaseAudit
namespace Code

/-!
# Walks
-/

theorem walkAll_append (xs ys : List Code) :
    walkAll (xs ++ ys) = walkAll xs ++ walkAll ys := by
  induction xs using walkAll.induct with
  | case1 =>
      simp [walkAll]
  | case2 c rest ih =>
      rw [List.cons_append, walkAll, walkAll, ← List.append_assoc, ih]
      rfl

theorem walkAll_eq_flatMap (xs : List Code) : walkAll xs = xs.flatMap walk := by
  induction xs with
  | nil =>
      simp [walkAll]
  | cons x xs ih =>
      have hsplit : walkAll (x :: xs) = walk x ++ walkAll xs := walkAll_append [x] xs
      rw [hsplit, ih, List.flatMap_cons]

theorem walk_eq_cons (c : Code) : c.walk = c :: c.children.flatMap walk := by
  rw [walk, walkAll, List.append_nil, walkAll_eq_flatMap]

/-!
# Searches
-/

theorem anyDelegates_append (xs ys : List Code) :
    anyDelegates (xs ++ ys) = (anyDelegates xs || anyDelegates ys) := by
  induction xs using anyDelegates.induct with
  | case1 =>
      simp [anyDelegates]
  | case2 c rest ih =>
      rw [List.cons_append, anyDelegates, anyDelegates, ← List.append_assoc, ih, Bool.or_assoc]

theorem anyDelegates_eq_any (xs : List Code) :
    anyDelegates xs = xs.any fun c => delegates (some c) := by
  induction xs with
  | nil =>
      simp [anyDelegates]
  | cons x xs ih =>
      have hsplit : anyDelegates (x :: xs) = (delegates (some x) || anyDelegates xs) :=
        anyDelegates_append [x] xs
      rw [hsplit, ih, List.any_cons]

theorem delegates_none : delegates none = false := by
  simp [delegates, anyDelegates]

theorem delegates_some (c : Code) :
    delegates (some c) = (c.namesUsecase || c.searched.any fun d => delegates (some d)) := by
  rw [delegates, Option.toList_some, anyDelegates, List.append_nil, anyDelegates_eq_any]

end Code
end UsecaseAudit
