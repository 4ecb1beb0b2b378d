import Mathlib.Logic.Relation
import UsecaseAudit.Proofs.Evidence

/-!
# The shape of code that was read

Whatever the concrete tree looks like, the code that is read from it has a
fixed shape.  A call repeats its receiver, its arguments and its block among its
children, in this order and with nothing else; a constant repeats its scope; an
assignment has a target, of which only the text is kept, and a value; a literal
has a value and no children; and a node of another kind has none of these parts.
A walk through children therefore sees every node that can be got at in any way.

Every node of such code was read from a visited place of the concrete tree,
except for the targets of assignments.
-/

namespace UsecaseAudit
namespace Code

open Concrete

/-!
# What a walk sees
-/

theorem sizeOf_lt_of_mem_children {c d : Code} (hd : d ∈ c.children) : sizeOf d < sizeOf c :=
  Nat.lt_trans (List.sizeOf_lt_of_mem hd) (sizeOf_children_lt c)

@[elab_as_elim]
theorem induction_on_children {motive : Code → Prop} (c : Code)
    (step : ∀ c : Code, (∀ d ∈ c.children, motive d) → motive c) : motive c := by
  refine step c fun d hd => ?_
  have hlt := sizeOf_lt_of_mem_children hd
  exact induction_on_children d step
termination_by sizeOf c

theorem mem_walk_iff {c d : Code} : d ∈ c.walk ↔ d = c ∨ ∃ e ∈ c.children, d ∈ e.walk := by
  rw [walk_eq_cons, List.mem_cons, List.mem_flatMap]

theorem mem_walk_self (c : Code) : c ∈ c.walk :=
  mem_walk_iff.mpr (Or.inl rfl)

theorem mem_walk_of_mem_children {c d : Code} (hd : d ∈ c.children) : d ∈ c.walk :=
  mem_walk_iff.mpr (Or.inr ⟨d, hd, mem_walk_self d⟩)

theorem mem_walk_trans {c d e : Code} (hd : d ∈ c.walk) (he : e ∈ d.walk) : e ∈ c.walk := by
  induction c using induction_on_children with
  | step c ih =>
      rcases mem_walk_iff.mp hd with rfl | ⟨b, hb, hd⟩
      · exact he
      · exact mem_walk_iff.mpr (Or.inr ⟨b, hb, ih b hb hd⟩)

/-!
# Nodes and the places they were read from
-/

/-- A node of code that was read comes from a visited place, or is the target of an assignment. -/
theorem mem_walk_convert {source : List UInt8} {t : Concrete} {c : Code}
    (h : c ∈ (convert source t).walk) :
    (∃ position s, Visits t position s ∧ c = convert source s) ∨
      ∃ left, c = ofTarget source left := by
  induction t using visited.induct with
  | case1 t ih =>
      have hbelow : ∀ d ∈ convertAll source (t.visible .whole), c ∈ d.walk →
          (∃ position s, Visits t position s ∧ c = convert source s) ∨
            ∃ left, c = ofTarget source left := by
        intro d hd hc
        rcases List.mem_map.mp hd with ⟨p, hp, rfl⟩
        rcases ih p hp hc with ⟨position, s, hvisits, hread⟩ | htarget
        · exact Or.inl ⟨_, s, Visits.onward (reaches_of_mem_visible hp) hvisits, hread⟩
        · exact Or.inr htarget
      rcases mem_walk_iff.mp h with rfl | ⟨d, hd, hc⟩
      · exact Or.inl ⟨[], t, Visits.here t, rfl⟩
      · rcases children_convert_cases source t with
          ⟨_, hchildren⟩ | ⟨left, value, _, hcode, hvisible⟩
        · rw [hchildren] at hd
          exact hbelow d hd hc
        · rw [hcode] at hd
          rcases List.mem_pair.mp hd with rfl | rfl
          · -- the target has no children, so that the walk through it ends at once
            right
            rcases mem_walk_iff.mp hc with rfl | ⟨e, he, _⟩
            · exact ⟨left, rfl⟩
            · cases he
          · exact hbelow d (by rw [hvisible]; exact List.mem_singleton_self d) hc

/-!
# The shape of a node
-/

def isLiteralKind (kind : Kind) : Bool :=
  kind == .symbolLiteral || kind == .stringLiteral

/-- The shape of a node of code that was read from the tree `t`. -/
structure IsShaped (source : List UInt8) (t : Concrete) (c : Code) : Prop where
  /-- A call has its receiver, its arguments and its block for children. -/
  call : c.kind = .call → c.children = c.receiver.toList ++ c.arguments ++ c.block.toList
  constant : c.kind = .constantRef → c.children = c.scope.toList ∧ c.name.isSome = true
  /-- An assignment was read from one in the tree, and has a target with the text of the target
  there, which has no children, and a value. -/
  assignment : c.kind = .assignment → ∃ position s left target value,
    Visits t position s ∧ (∃ stack, read source stack s = some c) ∧
    s.kind = "assignment" ∧ s.child? "left" = some left ∧ c.children = [target, value] ∧
    target.kind = .other ∧ target.children = [] ∧ target.name = some (left.text source)
  literal : isLiteralKind c.kind = true → c.value.isSome = true ∧ c.children = []
  parts_of_call : c.kind ≠ .call → c.receiver = none ∧ c.arguments = [] ∧ c.block = none
  scope_of_constant : c.kind ≠ .constantRef → c.scope = none
  value_of_literal : isLiteralKind c.kind = false → c.value = none
  line : ∃ n, c.line = some n ∧ 1 ≤ n

theorem exists_line {t : Concrete} {c : Code} (h : c.line = some t.line) :
    ∃ n, c.line = some n ∧ 1 ≤ n :=
  ⟨t.line, h, Int.le_add_of_nonneg_left (Int.natCast_nonneg t.label.row)⟩

section

variable {source : List UInt8} {t s : Concrete}

theorem isShaped_of_plain {c : Code}
    (hkind : c.kind ∈ [Kind.classDef, .methodDef, .block, .other]) (hline : c.line = some s.line)
    (hparts : c.receiver = none ∧ c.arguments = [] ∧ c.block = none) (hscope : c.scope = none)
    (hvalue : c.value = none) : c.IsShaped source t where
  call h := absurd hkind (by rw [h]; decide)
  constant h := absurd hkind (by rw [h]; decide)
  assignment h := absurd hkind (by rw [h]; decide)
  literal h := by
    rcases Bool.or_eq_true_iff.mp h with h | h
    · exact absurd hkind (by rw [eq_of_beq h]; decide)
    · exact absurd hkind (by rw [eq_of_beq h]; decide)
  parts_of_call _ := hparts
  scope_of_constant _ := hscope
  value_of_literal _ := hvalue
  line := exists_line hline

theorem isShaped_of_call {c : Code} (hkind : c.kind = .call) (hline : c.line = some s.line)
    (hchildren : c.children = c.receiver.toList ++ c.arguments ++ c.block.toList)
    (hscope : c.scope = none) (hvalue : c.value = none) : c.IsShaped source t where
  call _ := hchildren
  constant h := absurd (hkind.symm.trans h) (by decide)
  assignment h := absurd (hkind.symm.trans h) (by decide)
  literal h := absurd h (by rw [hkind]; decide)
  parts_of_call h := absurd hkind h
  scope_of_constant _ := hscope
  value_of_literal _ := hvalue
  line := exists_line hline

theorem isShaped_ofConstant (name : String) (scope : Option Code) :
    (ofConstant s name scope).IsShaped source t where
  call h := absurd h (by decide : Kind.constantRef ≠ .call)
  constant _ := ⟨rfl, rfl⟩
  assignment h := absurd h (by decide : Kind.constantRef ≠ .assignment)
  literal h := absurd h (by decide : ¬ isLiteralKind .constantRef = true)
  parts_of_call _ := ⟨rfl, rfl, rfl⟩
  scope_of_constant h := absurd rfl h
  value_of_literal _ := rfl
  line := exists_line rfl

theorem isShaped_ofLiteral {kind : Kind} (hkind : kind = .symbolLiteral ∨ kind = .stringLiteral)
    (value : String) : (ofLiteral kind s value).IsShaped source t := by
  have hliteral : isLiteralKind kind = true := by
    rcases hkind with rfl | rfl
    · rfl
    · rfl
  have hne : ∀ k, isLiteralKind k = false → kind ≠ k := by
    rintro k hk rfl
    exact absurd (hliteral.symm.trans hk) (by decide)
  exact
    { call := fun h => absurd h (hne .call rfl)
      constant := fun h => absurd h (hne .constantRef rfl)
      assignment := fun h => absurd h (hne .assignment rfl)
      literal := fun _ => ⟨rfl, rfl⟩
      parts_of_call := fun _ => ⟨rfl, rfl, rfl⟩
      scope_of_constant := fun _ => rfl
      value_of_literal := fun h => absurd (hliteral.symm.trans h) (by decide)
      line := exists_line rfl }

theorem isShaped_ofAssignment {position : Position} {left : Concrete} {value : Code}
    {stack : Stack} (hvisits : Visits t position s)
    (hread : read source stack s = some (ofAssignment source s left value))
    (hkind : s.kind = "assignment") (hleft : s.child? "left" = some left) :
    (ofAssignment source s left value).IsShaped source t where
  call h := absurd h (by decide : Kind.assignment ≠ .call)
  constant h := absurd h (by decide : Kind.assignment ≠ .constantRef)
  assignment _ := ⟨position, s, left, ofTarget source left, value, hvisits, ⟨stack, hread⟩, hkind,
    hleft, rfl, rfl, rfl, rfl⟩
  literal h := absurd h (by decide : ¬ isLiteralKind .assignment = true)
  parts_of_call _ := ⟨rfl, rfl, rfl⟩
  scope_of_constant _ := rfl
  value_of_literal _ := rfl
  line := exists_line rfl

end

/-- A stack on which there is just enough room for a tree, when nothing takes any for a moment. -/
def fittingStack (t : Concrete) : Stack :=
  ⟨t.frames ⟨0, 0, 0⟩ .whole, 0, 0⟩

theorem read_convert (source : List UInt8) (t : Concrete) :
    read source (fittingStack t) t = some (convert source t) := by
  rw [read_eq, if_pos]
  exact frames_le_of_exceeds ⟨Nat.zero_le _, Nat.le_refl 0, Nat.le_refl 0⟩ .whole t

theorem isShaped_convert {source : List UInt8} {t s : Concrete} {position : Position}
    (hvisits : Visits t position s) : (convert source s).IsShaped source t := by
  have hread := read_convert source s
  revert hread
  refine convert_cases (motive := fun c => read source (fittingStack s) s = some c →
    c.IsShaped source t) source s ?_ ?_ ?_ ?_ ?_ ?_ ?_ ?_ ?_ ?_
  · intro _ _
    exact isShaped_of_plain (show Kind.classDef ∈ _ by decide) rfl ⟨rfl, rfl, rfl⟩ rfl rfl
  · intro _ _
    exact isShaped_of_plain (show Kind.methodDef ∈ _ by decide) rfl ⟨rfl, rfl, rfl⟩ rfl rfl
  · intro _ _
    exact isShaped_of_call rfl rfl rfl rfl rfl
  · intro _ _
    exact isShaped_of_call rfl rfl rfl rfl rfl
  · intro _ _
    exact isShaped_of_plain (show Kind.block ∈ _ by decide) rfl ⟨rfl, rfl, rfl⟩ rfl rfl
  · intro left right hkind hleft _ _ hread
    have hform := List.mem_singleton.mp (form_mem_formsOf hkind)
    exact isShaped_ofAssignment hvisits hread ((form_eq_iff .assignment rfl).mp hform) hleft
  · intro kind value _ hliteral _ _
    exact isShaped_ofLiteral hliteral value
  · intro _ _
    exact isShaped_ofConstant _ none
  · intro name _ _ _
    exact isShaped_ofConstant _ _
  · intro _ _
    exact isShaped_of_plain (show Kind.other ∈ _ by decide) rfl ⟨rfl, rfl, rfl⟩ rfl rfl

theorem isShaped_of_mem_walk {source : List UInt8} {t : Concrete} {c : Code}
    (h : c ∈ (convert source t).walk) : c.IsShaped source t := by
  rcases mem_walk_convert h with ⟨position, s, hvisits, rfl⟩ | ⟨left, rfl⟩
  · exact isShaped_convert hvisits
  · exact isShaped_of_plain (show Kind.other ∈ _ by decide) rfl ⟨rfl, rfl, rfl⟩ rfl rfl

/-!
# Everything that can be got at
-/

inductive HasPart (c d : Code) : Prop where
  | child : d ∈ c.children → HasPart c d
  | receiver : c.receiver = some d → HasPart c d
  | argument : d ∈ c.arguments → HasPart c d
  | block : c.block = some d → HasPart c d
  | scope : c.scope = some d → HasPart c d

theorem IsShaped.mem_children {source : List UInt8} {t : Concrete} {c d : Code}
    (hshaped : c.IsShaped source t) (h : HasPart c d) : d ∈ c.children := by
  cases h with
  | child h =>
      exact h
  | receiver h =>
      by_cases hkind : c.kind = .call
      · rw [hshaped.call hkind, h]
        simp
      · rw [(hshaped.parts_of_call hkind).left] at h
        cases h
  | argument h =>
      by_cases hkind : c.kind = .call
      · rw [hshaped.call hkind]
        simp [h]
      · rw [(hshaped.parts_of_call hkind).right.left] at h
        cases h
  | block h =>
      by_cases hkind : c.kind = .call
      · rw [hshaped.call hkind, h]
        simp
      · rw [(hshaped.parts_of_call hkind).right.right] at h
        cases h
  | scope h =>
      by_cases hkind : c.kind = .constantRef
      · rw [(hshaped.constant hkind).left, h]
        exact List.mem_singleton_self d
      · rw [hshaped.scope_of_constant hkind] at h
        cases h

/-- Every node of code that was read is shaped, and a walk through its children sees every node
that can be got at. -/
theorem read_isShaped {source : List UInt8} {stack : Stack} {t : Concrete} {code : Code}
    (h : read source stack t = some code) :
    (∀ c ∈ code.walk, c.IsShaped source t) ∧
      ∀ c, Relation.ReflTransGen HasPart code c → c ∈ code.walk := by
  rw [read_eq] at h
  cases (Option.ite_none_right_eq_some.mp h).right
  refine ⟨fun c hc => isShaped_of_mem_walk hc, ?_⟩
  intro c hreach
  induction hreach with
  | refl =>
      exact mem_walk_self _
  | tail _ hpart hmem =>
      exact mem_walk_trans hmem
        (mem_walk_of_mem_children ((isShaped_of_mem_walk hmem).mem_children hpart))

/-- The tree of `x = A::B.call(:d)`, in which the value stands before the target. -/
def valueFirst : Concrete :=
  let node kind field start stop children : Concrete :=
    ⟨⟨kind, field, true, false, false, start, stop, 0⟩, children⟩
  node "assignment" none 0 17 [
    node "call" (some "right") 4 17 [
      node "scope_resolution" (some "receiver") 4 8 [
        node "constant" (some "scope") 4 5 [],
        node "constant" (some "name") 7 8 []],
      node "identifier" (some "method") 9 13 [],
      node "argument_list" (some "arguments") 13 17 [node "simple_symbol" none 14 16 []]],
    node "identifier" (some "left") 0 1 []]

theorem read_isShaped_valueFirst :
    ∃ code, read (Utf8.encode "x = A::B.call(:d)") ⟨12, 3, 1⟩ valueFirst = some code ∧
      (code.walk.map fun c => (c.kind, c.name)) = [(.assignment, none), (.other, some "x"),
        (.call, some "call"), (.constantRef, some "B"), (.constantRef, some "A"),
        (.symbolLiteral, none)] ∧
      ∀ c ∈ code.walk, c.IsShaped (Utf8.encode "x = A::B.call(:d)") valueFirst := by
  have hwalk : (read (Utf8.encode "x = A::B.call(:d)") ⟨12, 3, 1⟩ valueFirst).map
      (fun code => code.walk.map fun c => (c.kind, c.name)) =
      some [(.assignment, none), (.other, some "x"), (.call, some "call"),
        (.constantRef, some "B"), (.constantRef, some "A"), (.symbolLiteral, none)] := by
    decide +kernel
  rcases Option.map_eq_some_iff.mp hwalk with ⟨code, hread, hkinds⟩
  exact ⟨code, hread, hkinds, (read_isShaped hread).left⟩

end Code
end UsecaseAudit
