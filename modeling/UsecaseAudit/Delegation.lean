import UsecaseAudit.Code
import UsecaseAudit.Naming

/-!
# Delegation

Code delegates to a usecase when a call somewhere in it names one, either by
the name of the call or by the constant that receives it.  The search passes
through children; of an assignment only the value is looked at, because the
name of its target calls nothing.
-/

namespace UsecaseAudit
namespace Code

def receiverRefers (c : Code) : Bool :=
  match c.receiver with
  | none => false
  | some r => r.kind == .constantRef && Naming.refersToUsecase r.qualifiedName

def namesUsecase (c : Code) : Bool :=
  c.kind == .call && (Naming.refersToUsecase c.name || c.receiverRefers)

def searched (c : Code) : List Code :=
  if c.kind = .assignment then c.children.getLast?.toList else c.children

theorem sizeOf_toList_getLast?_le (xs : List Code) :
    sizeOf xs.getLast?.toList ≤ sizeOf xs := by
  induction xs with
  | nil =>
      exact Nat.le_refl _
  | cons x xs ih =>
      cases xs with
      | nil =>
          exact Nat.le_refl _
      | cons y ys =>
          rw [List.getLast?_cons_cons]
          simp only [List.cons.sizeOf_spec] at ih ⊢
          omega

theorem sizeOf_searched_lt (c : Code) : sizeOf c.searched < sizeOf c := by
  have hchildren := sizeOf_children_lt c
  have hlast := sizeOf_toList_getLast?_le c.children
  unfold searched
  split
  · omega
  · exact hchildren

def anyDelegates : List Code → Bool
  | [] => false
  | c :: rest => c.namesUsecase || anyDelegates (c.searched ++ rest)
termination_by stack => sizeOf stack
decreasing_by
  have happend := sizeOf_append c.searched rest
  have hsearched := sizeOf_searched_lt c
  simp only [List.cons.sizeOf_spec]
  omega

/-- Whether the code delegates to a usecase; no code does not. -/
def delegates (code : Option Code) : Bool :=
  anyDelegates code.toList

end Code
end UsecaseAudit
