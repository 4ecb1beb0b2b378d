import UsecaseAudit.Proofs.Lists
import UsecaseAudit.Proofs.Visited
import UsecaseAudit.Source

/-!
# Reading without a bound

Reading gives nothing when the stack has no room for all its calls.  This module
says what a tree is read as when there is no bound, by recursion on the places
that are read next, and how much of the stack that takes.  Reading on a stack
gives exactly the tree of unbounded reading when the room suffices, and nothing
otherwise; it never gives a part of it.
-/

namespace UsecaseAudit

/-- A stack with as much room or more, of which nothing takes more. -/
structure Stack.Exceeds (larger stack : Stack) : Prop where
  room : stack.room ≤ larger.room
  making : larger.making ≤ stack.making
  listing : larger.listing ≤ stack.listing

namespace Concrete

/-!
# Calls of a node

Reading a node is a chain of calls, each made by the one before, and the children
that reading goes on to are read by the last of them.
-/

inductive Call where
  | dispatch
  | form
  | other
  | statements
  deriving DecidableEq, Repr

def Call.moment (stack : Stack) : Call → Nat
  | .dispatch => 0
  | .form => stack.making
  | .other => stack.making
  | .statements => stack.listing

/-- The calls that lead from the form of a node to its children.  A form lists the statements of the
node, or takes its parts from fields, or falls back on the way in which nodes without a form are
read. -/
def formCalls (t : Concrete) : List Call :=
  let fallback := [.other, .statements]
  match t.form with
  | .classDef => [.statements]
  | .methodDef => [.statements]
  | .call => []
  | .identifier => []
  | .block => [.statements]
  | .assignment => if t.isPlainAssignment then [] else fallback
  | .plainSymbol => []
  | .quotedSymbol => if t.isLiteral then [] else fallback
  | .string => if t.isLiteral then [] else fallback
  | .constant => []
  | .scopePath => if t.endsInConstant then [] else fallback
  | .other => fallback

def calls (t : Concrete) : Manner → List Call
  | .body => [.statements]
  | .whole => .dispatch :: if t.form = .other then t.formCalls else .form :: t.formCalls

def peak (stack : Stack) : List Call → Nat
  | [] => 0
  | call :: rest => max (call.moment stack) (peak stack rest) + 1

/-- The most that reading a node takes of the stack. -/
def frames (stack : Stack) (m : Manner) (t : Concrete) : Nat :=
  ((t.steps m).attach.map fun ⟨s, _hs⟩ =>
    (t.calls m).length + frames stack s.manner s.child).foldr max (peak stack (t.calls m))
termination_by sizeOf t
decreasing_by
  exact sizeOf_child_lt _hs

/-- Whether there is room for a chain of calls, and beyond them for what the steps lead to. -/
def Fits (stack : Stack) (room : Nat) (calls : List Call) (steps : List Step) : Prop :=
  peak stack calls ≤ room ∧ ∀ s ∈ steps, calls.length + s.child.frames stack s.manner ≤ room

instance (stack : Stack) (room : Nat) (calls : List Call) (steps : List Step) :
    Decidable (Fits stack room calls steps) :=
  inferInstanceAs (Decidable (_ ∧ ∀ s ∈ steps, _))

theorem foldr_max_le_iff {l : List Nat} {m n : Nat} :
    l.foldr max m ≤ n ↔ m ≤ n ∧ ∀ x ∈ l, x ≤ n := by
  induction l with
  | nil =>
      simp
  | cons x l ih =>
      rw [List.foldr_cons, Nat.max_le, ih, List.forall_mem_cons]
      exact and_left_comm

section Fits

variable {stack : Stack} {room : Nat}

theorem frames_le_iff {m : Manner} {t : Concrete} :
    t.frames stack m ≤ room ↔ Fits stack room (t.calls m) (t.steps m) := by
  rw [frames, foldr_max_le_iff]
  simp [Fits]

theorem fits_cons {call : Call} {calls : List Call} {steps : List Step} :
    Fits stack (room + 1) (call :: calls) steps ↔
      call.moment stack ≤ room ∧ Fits stack room calls steps := by
  simp only [Fits, peak, List.length_cons, Nat.add_le_add_iff_right, Nat.max_le, and_assoc,
    Nat.add_right_comm _ 1]

theorem not_fits_zero {call : Call} {calls : List Call} {steps : List Step} :
    ¬ Fits stack 0 (call :: calls) steps :=
  fun h => Nat.not_succ_le_zero _ h.left

theorem fits_nil : Fits stack room [] [] :=
  ⟨Nat.zero_le room, List.forall_mem_nil _⟩

theorem fits_append {l r : List Step} :
    Fits stack room [] (l ++ r) ↔ Fits stack room [] l ∧ Fits stack room [] r := by
  simp only [Fits, peak, Nat.zero_le, true_and, List.forall_mem_append]

end Fits

theorem peak_le_of_exceeds {stack larger : Stack} (h : larger.Exceeds stack)
    (calls : List Call) : peak larger calls ≤ peak stack calls := by
  have hmaking := h.making
  have hlisting := h.listing
  induction calls with
  | nil =>
      exact Nat.le_refl 0
  | cons call rest ih =>
      have hmoment : call.moment larger ≤ call.moment stack := by
        cases call with
        | dispatch => exact Nat.le_refl 0
        | form => exact hmaking
        | other => exact hmaking
        | statements => exact hlisting
      rw [peak, peak]
      omega

theorem frames_le_of_exceeds {stack larger : Stack} (h : larger.Exceeds stack) (m : Manner)
    (t : Concrete) : t.frames larger m ≤ t.frames stack m := by
  rcases frames_le_iff.mp (Nat.le_refl (t.frames stack m)) with ⟨hpeak, hsteps⟩
  refine frames_le_iff.mpr ⟨Nat.le_trans (peak_le_of_exceeds h _) hpeak, ?_⟩
  intro s hs
  have hlt := sizeOf_child_lt hs
  have hchild := frames_le_of_exceeds h s.manner s.child
  have hroom := hsteps s hs
  omega
termination_by sizeOf t

def argumentPlaces (t : Concrete) : List Place :=
  match t.child? "arguments" with
  | none => []
  | some list => list.visible .body

theorem sizeOf_lt_of_child? {t c : Concrete} {field : String} (h : t.child? field = some c) :
    sizeOf c < sizeOf t :=
  sizeOf_lt_of_mem_children (List.mem_of_find?_eq_some h)

theorem sizeOf_lt_of_mem_argumentPlaces {t : Concrete} {p : Place}
    (hp : p ∈ t.argumentPlaces) : sizeOf p.node < sizeOf t := by
  unfold argumentPlaces at hp
  cases hlist : t.child? "arguments" with
  | none =>
      rw [hlist] at hp
      cases hp
  | some list =>
      rw [hlist] at hp
      exact Nat.lt_trans (sizeOf_lt_of_mem_visible hp) (sizeOf_lt_of_child? hlist)

end Concrete

namespace Code

open Concrete

/-!
# Unbounded reading
-/

/-- The code of a node, put together from the code of the places read next, the code of its
arguments and the code of the children in its fields. -/
def assemble (source : List UInt8) (t : Concrete) (parts arguments : List Code)
    (piece : String → Option Code) : Code :=
  match t.form with
  | .classDef => ofClass source t parts
  | .methodDef => ofMethod source t parts
  | .call => ofCall source t (piece "receiver") arguments (piece "block")
  | .identifier => ofIdentifier source t
  | .block => ofBlock t parts
  | .assignment =>
      match t.child? "left", piece "right" with
      | some left, some value =>
          if left.isTarget then ofAssignment source t left value else ofOther t parts
      | _, _ => ofOther t parts
  | .plainSymbol => ofLiteral .symbolLiteral t (t.symbolText source)
  | .quotedSymbol =>
      match t.literal? source with
      | some value => ofLiteral .symbolLiteral t value
      | none => ofOther t parts
  | .string =>
      match t.literal? source with
      | some value => ofLiteral .stringLiteral t value
      | none => ofOther t parts
  | .constant => ofConstant t (t.text source) none
  | .scopePath =>
      match t.child? "name" with
      | none => ofOther t parts
      | some name =>
          if name.kind == "constant" then ofConstant t (name.text source) (piece "scope")
          else ofOther t parts
  | .other => ofOther t parts

def convert (source : List UInt8) (t : Concrete) : Code :=
  assemble source t
    ((t.visible .whole).attach.map fun ⟨p, _hp⟩ => convert source p.node)
    (t.argumentPlaces.attach.map fun ⟨p, _hp⟩ => convert source p.node)
    (fun field => (t.child? field).attach.map fun ⟨c, _hc⟩ => convert source c)
termination_by sizeOf t
decreasing_by
  · exact sizeOf_lt_of_mem_visible _hp
  · exact sizeOf_lt_of_mem_argumentPlaces _hp
  · exact sizeOf_lt_of_child? _hc

def convertAll (source : List UInt8) (places : List Place) : List Code :=
  places.map fun p => convert source p.node

theorem convert_eq_assemble (source : List UInt8) (t : Concrete) :
    convert source t =
      assemble source t (convertAll source (t.visible .whole))
        (convertAll source t.argumentPlaces)
        (fun field => (t.child? field).map (convert source)) := by
  rw [convert]
  simp [convertAll]

theorem convert_of_classDef (source : List UInt8) {t : Concrete} (hform : t.form = .classDef) :
    convert source t = ofClass source t (convertAll source (t.visible .whole)) := by
  rw [convert_eq_assemble, assemble, hform]

theorem convert_of_methodDef (source : List UInt8) {t : Concrete} (hform : t.form = .methodDef) :
    convert source t = ofMethod source t (convertAll source (t.visible .whole)) := by
  rw [convert_eq_assemble, assemble, hform]

theorem convert_of_call (source : List UInt8) {t : Concrete} (hform : t.form = .call) :
    convert source t = ofCall source t ((t.child? "receiver").map (convert source))
      (convertAll source t.argumentPlaces) ((t.child? "block").map (convert source)) := by
  rw [convert_eq_assemble, assemble, hform]

theorem convert_of_identifier (source : List UInt8) {t : Concrete}
    (hform : t.form = .identifier) : convert source t = ofIdentifier source t := by
  rw [convert_eq_assemble, assemble, hform]

theorem literal?_of_isLiteral {t : Concrete} (source : List UInt8) (h : t.isLiteral = true) :
    t.literal? source =
      some (String.join ((t.children.filter fun c => c.label.named).map (text source))) :=
  if_pos h

theorem literal?_of_not_isLiteral {t : Concrete} (source : List UInt8)
    (h : t.isLiteral = false) : t.literal? source = none :=
  if_neg (Bool.eq_false_iff.mp h)

def kindOf (t : Concrete) : Kind :=
  match t.form with
  | .classDef => .classDef
  | .methodDef => .methodDef
  | .call => .call
  | .identifier => .call
  | .block => .block
  | .assignment => if t.isPlainAssignment then .assignment else .other
  | .plainSymbol => .symbolLiteral
  | .quotedSymbol => if t.isLiteral then .symbolLiteral else .other
  | .string => if t.isLiteral then .stringLiteral else .other
  | .constant => .constantRef
  | .scopePath => if t.endsInConstant then .constantRef else .other
  | .other => .other

def formsOf : Kind → List Form
  | .classDef => [.classDef]
  | .methodDef => [.methodDef]
  | .call => [.call, .identifier]
  | .block => [.block]
  | .assignment => [.assignment]
  | .symbolLiteral => [.plainSymbol, .quotedSymbol]
  | .stringLiteral => [.string]
  | .constantRef => [.constant, .scopePath]
  | .other => [.other, .assignment, .quotedSymbol, .string, .scopePath]

theorem form_mem_formsOf {t : Concrete} {kind : Kind} (h : kindOf t = kind) :
    t.form ∈ formsOf kind := by
  rw [← h, kindOf]
  cases t.form with
  | assignment => cases t.isPlainAssignment <;> simp [formsOf]
  | quotedSymbol => cases t.isLiteral <;> simp [formsOf]
  | string => cases t.isLiteral <;> simp [formsOf]
  | scopePath => cases t.endsInConstant <;> simp [formsOf]
  | _ => simp [formsOf]

/-- What a node can be read as, with the steps that are taken below it. -/
theorem convert_cases {motive : Code → Prop} (source : List UInt8) (t : Concrete)
    (classDef : t.form = .classDef →
      motive (ofClass source t (convertAll source (t.visible .whole))))
    (methodDef : t.form = .methodDef →
      motive (ofMethod source t (convertAll source (t.visible .whole))))
    (call : t.form = .call →
      motive (ofCall source t ((t.child? "receiver").map (convert source))
        (convertAll source t.argumentPlaces) ((t.child? "block").map (convert source))))
    (identifier : t.form = .identifier → motive (ofIdentifier source t))
    (block : t.form = .block → motive (ofBlock t (convertAll source (t.visible .whole))))
    (assignment : ∀ left right, kindOf t = .assignment → t.child? "left" = some left →
      t.child? "right" = some right → t.steps .whole = t.fieldSteps .whole "right" →
      motive (ofAssignment source t left (convert source right)))
    (literal : ∀ kind value, kindOf t = kind → kind = .symbolLiteral ∨ kind = .stringLiteral →
      t.steps .whole = [] → motive (ofLiteral kind t value))
    (constant : t.form = .constant → motive (ofConstant t (t.text source) none))
    (scopePath : ∀ name : Concrete, kindOf t = .constantRef →
      t.steps .whole = t.fieldSteps .whole "scope" →
      motive (ofConstant t (name.text source) ((t.child? "scope").map (convert source))))
    (other : kindOf t = .other → motive (ofOther t (convertAll source (t.visible .whole)))) :
    motive (convert source t) := by
  have hsteps := steps.eq_2 t
  have hkind := kindOf.eq_1 t
  rw [convert_eq_assemble, assemble]
  cases hform : t.form with
  | classDef =>
      exact classDef hform
  | methodDef =>
      exact methodDef hform
  | call =>
      exact call hform
  | identifier =>
      exact identifier hform
  | block =>
      exact block hform
  | assignment =>
      rw [hform, isPlainAssignment] at hsteps hkind
      dsimp only at hsteps hkind ⊢
      cases hleft : t.child? "left" with
      | none =>
          rw [hleft] at hkind
          exact other hkind
      | some left =>
          cases hright : t.child? "right" with
          | none =>
              rw [hleft, hright] at hkind
              exact other hkind
          | some right =>
              rw [hleft, hright] at hsteps hkind
              dsimp only [Option.map_some] at hsteps hkind ⊢
              by_cases htarget : left.isTarget
              · rw [if_pos htarget] at hsteps hkind ⊢
                exact assignment left right hkind hleft hright hsteps
              · rw [if_neg htarget] at hkind ⊢
                exact other hkind
  | plainSymbol =>
      rw [hform] at hsteps hkind
      exact literal .symbolLiteral _ hkind (Or.inl rfl) hsteps
  | quotedSymbol =>
      rw [hform] at hsteps hkind
      dsimp only at hsteps hkind ⊢
      cases hliteral : t.isLiteral with
      | true =>
          rw [hliteral] at hsteps hkind
          rw [literal?_of_isLiteral source hliteral]
          exact literal .symbolLiteral _ hkind (Or.inl rfl) hsteps
      | false =>
          rw [hliteral] at hkind
          rw [literal?_of_not_isLiteral source hliteral]
          exact other hkind
  | string =>
      rw [hform] at hsteps hkind
      dsimp only at hsteps hkind ⊢
      cases hliteral : t.isLiteral with
      | true =>
          rw [hliteral] at hsteps hkind
          rw [literal?_of_isLiteral source hliteral]
          exact literal .stringLiteral _ hkind (Or.inr rfl) hsteps
      | false =>
          rw [hliteral] at hkind
          rw [literal?_of_not_isLiteral source hliteral]
          exact other hkind
  | constant =>
      exact constant hform
  | scopePath =>
      rw [hform, endsInConstant] at hsteps hkind
      dsimp only at hsteps hkind ⊢
      cases hname : t.child? "name" with
      | none =>
          rw [hname] at hkind
          exact other hkind
      | some name =>
          rw [hname] at hsteps hkind
          dsimp only at hsteps hkind ⊢
          by_cases hconstant : (name.kind == "constant") = true
          · rw [if_pos hconstant] at hsteps hkind ⊢
            exact scopePath name hkind hsteps
          · rw [if_neg hconstant] at hkind ⊢
            exact other hkind
  | other =>
      rw [hform] at hkind
      exact other hkind

theorem kind_convert (source : List UInt8) (t : Concrete) :
    (convert source t).kind = kindOf t := by
  refine convert_cases (motive := fun c => c.kind = kindOf t) source t
    ?_ ?_ ?_ ?_ ?_ ?_ ?_ ?_ ?_ ?_
  · intro hform
    rw [kindOf, hform]
    rfl
  · intro hform
    rw [kindOf, hform]
    rfl
  · intro hform
    rw [kindOf, hform]
    rfl
  · intro hform
    rw [kindOf, hform]
    rfl
  · intro hform
    rw [kindOf, hform]
    rfl
  · intro left right hkind _ _ _
    exact hkind.symm
  · intro kind value hkind _ _
    exact hkind.symm
  · intro hform
    rw [kindOf, hform]
    rfl
  · intro name hkind _
    exact hkind.symm
  · intro hkind
    exact hkind.symm

/-!
# One level of reading

The readers of one level are taken to be right on what there is room for, and to
give nothing on anything else.
-/

theorem map_child_statementSteps (apart : List String) (t : Concrete) :
    (t.statementSteps apart).map Step.child = t.statements apart := by
  have hchildren := List.zipIdx_map_fst 0 t.children
  rw [statements, statementSteps, List.map_map]
  conv_rhs => rw [← hchildren, List.filter_map]
  rfl

theorem fieldSteps_cases (m : Manner) (field : String) (t : Concrete) :
    (t.child? field = none ∧ t.fieldSteps m field = []) ∨
      ∃ c index, t.child? field = some c ∧ t.fieldSteps m field = [⟨index, m, c⟩] := by
  have hchild : t.child? field =
      (t.children.zipIdx.find? fun c => c.1.label.field == some field).map Prod.fst := by
    have hchildren := List.zipIdx_map_fst 0 t.children
    rw [child?]
    conv_lhs => rw [← hchildren, List.find?_map]
    rfl
  rw [hchild, fieldSteps]
  cases t.children.zipIdx.find? fun c => c.1.label.field == some field with
  | none =>
      exact Or.inl ⟨rfl, rfl⟩
  | some c =>
      exact Or.inr ⟨c.1, c.2, rfl, rfl⟩

theorem manner_of_mem_statementSteps {apart : List String} {t : Concrete} {s : Step}
    (hs : s ∈ t.statementSteps apart) : s.manner = s.child.manner := by
  rcases List.mem_map.mp hs with ⟨c, _, rfl⟩
  rfl

theorem convertAll_append (source : List UInt8) (l r : List Place) :
    convertAll source (l ++ r) = convertAll source l ++ convertAll source r :=
  List.map_append

theorem convertAll_under (source : List UInt8) (outer : Position) (l : List Place) :
    convertAll source (l.map (Place.under outer)) = convertAll source l := by
  rw [convertAll, List.map_map]
  rfl

theorem fits_fieldSteps_iff {t c : Concrete} {field : String} {m : Manner} {stack : Stack}
    {room : Nat} (h : t.child? field = some c) :
    Fits stack room [] (t.fieldSteps m field) ↔ c.frames stack m ≤ room := by
  rcases fieldSteps_cases m field t with ⟨hchild, _⟩ | ⟨d, index, hchild, hsteps⟩
  · rw [hchild] at h
    cases h
  · rw [hchild] at h
    cases h
    rw [hsteps, Fits, List.forall_mem_singleton, List.length_nil, Nat.zero_add]
    exact and_iff_right (Nat.zero_le room)

def statementCode (source : List UInt8) (apart : List String) (t : Concrete) : List Code :=
  convertAll source ((t.statementSteps apart).flatMap Step.places)

section Level

variable {source : List UInt8} {stack : Stack} {room : Nat}
variable {whole : Concrete → Option Code}
variable {statements : List String → Concrete → Option (List Code)}
variable {other : Concrete → Option Code}
variable (hwhole : ∀ c, whole c =
  if c.frames stack .whole ≤ room then some (convert source c) else none)
variable (hstatements : ∀ apart c, statements apart c =
  if Fits stack room [.statements] (c.statementSteps apart) then
    some (statementCode source apart c)
  else none)
variable (hother : ∀ c, other c =
  if Fits stack room [.other, .statements] (c.statementSteps []) then
    some (ofOther c (statementCode source [] c))
  else none)

section Statements

include hwhole hstatements

theorem readStatement_eq {s : Step} (hmanner : s.manner = s.child.manner) :
    readStatement whole statements s.child =
      if s.child.frames stack s.manner ≤ room then some (convertAll source s.places) else none := by
  rw [readStatement]
  cases hisBody : s.child.isBody with
  | true =>
      have hm : s.manner = .body := by
        rw [hmanner, manner, if_pos hisBody]
      rw [if_pos rfl, hstatements, hm, Step.places_body hm, convertAll_under, visible_eq_flatMap]
      simp only [frames_le_iff]
      rfl
  | false =>
      have hm : s.manner = .whole := by
        rw [hmanner, manner, hisBody]
        rfl
      rw [if_neg Bool.false_ne_true, hwhole, hm, Step.places_whole hm]
      split
      · rfl
      · rfl

theorem mapM_readStatement_eq (apart : List String) (t : Concrete) :
    ((t.statements apart).mapM (readStatement whole statements)).map List.flatten =
      if Fits stack room [] (t.statementSteps apart) then some (statementCode source apart t)
      else none := by
  have hread : (t.statementSteps apart).mapM (readStatement whole statements ∘ Step.child) =
      if ∀ s ∈ t.statementSteps apart, s.child.frames stack s.manner ≤ room then
        some ((t.statementSteps apart).map fun s => convertAll source s.places)
      else none :=
    Lists.mapM_ite_some _ fun s hs =>
      readStatement_eq hwhole hstatements (manner_of_mem_statementSteps hs)
  rw [← map_child_statementSteps, List.mapM_map, hread, statementCode, convertAll,
    List.map_flatMap, List.flatMap_def]
  simp only [Fits, peak, Nat.zero_le, true_and, List.length_nil, Nat.zero_add]
  split
  · rfl
  · rfl

end Statements

include hwhole in
theorem readOptional_eq (field : String) (t : Concrete) :
    readOptional whole (t.child? field) =
      if Fits stack room [] (t.fieldSteps .whole field) then
        some ((t.child? field).map (convert source))
      else none := by
  rcases fieldSteps_cases .whole field t with ⟨hchild, hsteps⟩ | ⟨c, index, hchild, _⟩
  · rw [hchild, hsteps, if_pos fits_nil]
    rfl
  · simp only [fits_fieldSteps_iff hchild]
    rw [hchild, readOptional, hwhole]
    split
    · rfl
    · rfl

include hstatements in
theorem readArguments_eq (t : Concrete) :
    readArguments statements (t.child? "arguments") =
      if Fits stack room [] (t.fieldSteps .body "arguments") then
        some (convertAll source t.argumentPlaces)
      else none := by
  rw [argumentPlaces]
  rcases fieldSteps_cases .body "arguments" t with ⟨hchild, hsteps⟩ | ⟨c, index, hchild, _⟩
  · rw [hchild, hsteps, if_pos fits_nil]
    rfl
  · simp only [fits_fieldSteps_iff hchild, frames_le_iff]
    rw [hchild]
    dsimp only
    rw [visible_eq_flatMap]
    exact hstatements [] c

include hstatements in
theorem readListed_eq {t : Concrete} {apart : List String} (make : List Code → Code)
    (hsteps : t.steps .whole = t.statementSteps apart) :
    (statements apart t).map make =
      if Fits stack room [.statements] (t.steps .whole) then
        some (make (convertAll source (t.visible .whole)))
      else none := by
  rw [hstatements, statementCode, visible_eq_flatMap, hsteps]
  split
  · rfl
  · rfl

include hother in
theorem readFallback_eq {t : Concrete} (hsteps : t.steps .whole = t.statementSteps []) :
    other t =
      if Fits stack room [.other, .statements] (t.steps .whole) then
        some (ofOther t (convertAll source (t.visible .whole)))
      else none := by
  rw [hother, statementCode, visible_eq_flatMap, hsteps]

include hwhole hstatements in
theorem readCall_eq {t : Concrete} (hform : t.form = .call) :
    readCall source whole statements t =
      if Fits stack room [] (t.steps .whole) then some (convert source t) else none := by
  have hsteps : t.steps .whole = t.fieldSteps .whole "receiver" ++ t.fieldSteps .body "arguments"
      ++ t.fieldSteps .whole "block" := by
    rw [steps, hform]
  rw [readCall, readOptional_eq hwhole, readArguments_eq hstatements, readOptional_eq hwhole,
    hsteps, convert_of_call source hform]
  simp only [fits_append]
  by_cases hreceiver : Fits stack room [] (t.fieldSteps .whole "receiver")
  · by_cases harguments : Fits stack room [] (t.fieldSteps .body "arguments")
    · by_cases hblock : Fits stack room [] (t.fieldSteps .whole "block")
      · simp [hreceiver, harguments, hblock]
      · simp [hreceiver, harguments, hblock]
    · simp [hreceiver, harguments]
  · simp [hreceiver]

include hwhole hother

theorem readAssignment_eq {t : Concrete} (hform : t.form = .assignment) :
    readAssignment source whole other t =
      if Fits stack room t.formCalls (t.steps .whole) then some (convert source t) else none := by
  have hsteps : t.steps .whole =
      if t.isPlainAssignment then t.fieldSteps .whole "right" else t.statementSteps [] := by
    rw [steps, hform]
  have hcalls : t.formCalls = if t.isPlainAssignment then [] else [.other, .statements] := by
    rw [formCalls, hform]
  rw [isPlainAssignment] at hsteps hcalls
  rw [readAssignment, convert_eq_assemble, assemble, hform]
  dsimp only
  cases hleft : t.child? "left" with
  | none =>
      rw [hleft] at hsteps hcalls
      rw [hcalls]
      exact readFallback_eq hother hsteps
  | some left =>
      cases hright : t.child? "right" with
      | none =>
          rw [hleft, hright] at hsteps hcalls
          rw [hcalls]
          exact readFallback_eq hother hsteps
      | some right =>
          rw [hleft, hright] at hsteps hcalls
          dsimp only [Option.map_some] at hsteps hcalls ⊢
          by_cases htarget : left.isTarget
          · rw [if_pos htarget] at hsteps hcalls
            simp only [hsteps, hcalls, fits_fieldSteps_iff hright]
            rw [if_pos htarget, if_pos htarget, hwhole]
            split
            · rfl
            · rfl
          · rw [if_neg htarget] at hsteps hcalls
            rw [if_neg htarget, if_neg htarget, hcalls]
            exact readFallback_eq hother hsteps

omit hwhole in
theorem readLiteral_eq {t : Concrete} (kind : Kind)
    (hsteps : t.steps .whole = if t.isLiteral then [] else t.statementSteps [])
    (hcalls : t.formCalls = if t.isLiteral then [] else [.other, .statements]) :
    readLiteral source other kind t =
      if Fits stack room t.formCalls (t.steps .whole) then
        some (match t.literal? source with
          | some value => ofLiteral kind t value
          | none => ofOther t (convertAll source (t.visible .whole)))
      else none := by
  rw [readLiteral]
  cases hliteral : t.isLiteral with
  | true =>
      rw [hliteral] at hsteps hcalls
      rw [literal?_of_isLiteral source hliteral, hsteps, hcalls]
      exact (if_pos fits_nil).symm
  | false =>
      rw [hliteral] at hsteps hcalls
      rw [literal?_of_not_isLiteral source hliteral, hcalls]
      exact readFallback_eq hother hsteps

theorem readScoped_eq {t : Concrete} (hform : t.form = .scopePath) :
    readScoped source whole other t =
      if Fits stack room t.formCalls (t.steps .whole) then some (convert source t) else none := by
  have hsteps : t.steps .whole =
      if t.endsInConstant then t.fieldSteps .whole "scope" else t.statementSteps [] := by
    rw [steps, hform]
  have hcalls : t.formCalls = if t.endsInConstant then [] else [.other, .statements] := by
    rw [formCalls, hform]
  rw [endsInConstant] at hsteps hcalls
  rw [readScoped, convert_eq_assemble, assemble, hform]
  dsimp only
  cases hname : t.child? "name" with
  | none =>
      rw [hname] at hsteps hcalls
      rw [hcalls]
      exact readFallback_eq hother hsteps
  | some name =>
      rw [hname] at hsteps hcalls
      dsimp only at hsteps hcalls ⊢
      by_cases hconstant : (name.kind == "constant") = true
      · rw [if_pos hconstant] at hsteps hcalls
        rw [if_pos hconstant, if_pos hconstant, readOptional_eq hwhole, hsteps, hcalls]
        split
        · rfl
        · rfl
      · rw [if_neg hconstant] at hsteps hcalls
        rw [if_neg hconstant, if_neg hconstant, hcalls]
        exact readFallback_eq hother hsteps

include hstatements

theorem readForm_eq (t : Concrete) :
    readForm source whole statements other t =
      if Fits stack room t.formCalls (t.steps .whole) then some (convert source t) else none := by
  have hsteps := steps.eq_2 t
  have hcalls := formCalls.eq_1 t
  rw [readForm]
  cases hform : t.form with
  | classDef =>
      rw [hform] at hsteps hcalls
      rw [convert_of_classDef source hform, hcalls]
      exact readListed_eq hstatements (ofClass source t) hsteps
  | methodDef =>
      rw [hform] at hsteps hcalls
      rw [convert_of_methodDef source hform, hcalls]
      exact readListed_eq hstatements (ofMethod source t) hsteps
  | call =>
      rw [hform] at hcalls
      rw [hcalls]
      exact readCall_eq hwhole hstatements hform
  | identifier =>
      rw [hform] at hsteps hcalls
      rw [convert_of_identifier source hform, hsteps, hcalls]
      exact (if_pos fits_nil).symm
  | block =>
      rw [hform] at hsteps hcalls
      rw [convert_eq_assemble, assemble, hform, hcalls]
      exact readListed_eq hstatements (ofBlock t) hsteps
  | assignment =>
      exact readAssignment_eq hwhole hother hform
  | plainSymbol =>
      rw [hform] at hsteps hcalls
      rw [convert_eq_assemble, assemble, hform, hsteps, hcalls]
      exact (if_pos fits_nil).symm
  | quotedSymbol =>
      rw [hform] at hsteps hcalls
      rw [convert_eq_assemble, assemble, hform]
      exact readLiteral_eq hother .symbolLiteral hsteps hcalls
  | string =>
      rw [hform] at hsteps hcalls
      rw [convert_eq_assemble, assemble, hform]
      exact readLiteral_eq hother .stringLiteral hsteps hcalls
  | constant =>
      rw [hform] at hsteps hcalls
      rw [convert_eq_assemble, assemble, hform, hsteps, hcalls]
      exact (if_pos fits_nil).symm
  | scopePath =>
      exact readScoped_eq hwhole hother hform
  | other =>
      rw [hform] at hsteps hcalls
      rw [convert_eq_assemble, assemble, hform, hcalls]
      exact readFallback_eq hother hsteps

end Level

/-!
# Reading on a stack
-/

section Stack

variable (source : List UInt8) (stack : Stack)

/-- All readers with the same room are right on what there is room for. -/
structure ReadsAll (room : Nat) : Prop where
  whole : ∀ t, readWhole source stack room t =
    if t.frames stack .whole ≤ room then some (convert source t) else none
  own : ∀ t, readOwn source stack room t =
    if Fits stack room (.form :: t.formCalls) (t.steps .whole) then some (convert source t)
    else none
  other : ∀ t, readOther source stack room t =
    if Fits stack room [.other, .statements] (t.statementSteps []) then
      some (ofOther t (statementCode source [] t))
    else none
  statements : ∀ apart t, readStatements source stack room apart t =
    if Fits stack room [.statements] (t.statementSteps apart) then
      some (statementCode source apart t)
    else none

theorem readsAll_zero : ReadsAll source stack 0 where
  whole t := by
    rw [readWhole, if_neg]
    rw [frames_le_iff]
    exact not_fits_zero
  own t := by
    rw [readOwn, if_neg not_fits_zero]
  other t := by
    rw [readOther, if_neg not_fits_zero]
  statements apart t := by
    rw [readStatements, if_neg not_fits_zero]

variable {source stack}

theorem readsAll_succ {room : Nat} (h : ReadsAll source stack room) :
    ReadsAll source stack (room + 1) where
  whole t := by
    have hdispatch : Call.dispatch.moment stack ≤ room := Nat.zero_le room
    simp only [frames_le_iff, calls, fits_cons, and_iff_right hdispatch]
    rw [readWhole]
    by_cases hform : t.form = .other
    · have hcalls : t.formCalls = [.other, .statements] := by
        rw [formCalls, hform]
      have hsteps : t.steps .whole = t.statementSteps [] := by
        rw [steps, hform]
      rw [if_pos hform, if_pos hform, hcalls, convert_eq_assemble, assemble, hform]
      exact readFallback_eq h.other hsteps
    · rw [if_neg hform, if_neg hform]
      exact h.own t
  own t := by
    simp only [fits_cons]
    rw [readOwn, readForm_eq h.whole h.statements h.other, ite_and]
    rfl
  other t := by
    rw [readOther, h.statements]
    simp only [@fits_cons stack room .other, ite_and]
    refine if_congr Iff.rfl ?_ rfl
    split
    · rfl
    · rfl
  statements apart t := by
    simp only [fits_cons]
    rw [readStatements, mapM_readStatement_eq h.whole h.statements, ite_and]
    rfl

theorem readsAll (room : Nat) : ReadsAll source stack room := by
  induction room with
  | zero => exact readsAll_zero source stack
  | succ room ih => exact readsAll_succ ih

end Stack

/-- Reading gives all of a tree or, when the stack has no room for it, nothing. -/
theorem read_eq (source : List UInt8) (stack : Stack) (t : Concrete) :
    read source stack t =
      if t.frames stack .whole ≤ stack.room then some (convert source t) else none :=
  (readsAll stack.room).whole t

end Code

namespace Source

theorem path_of_read {stack : Stack} {label : String} {source : Source} {failure : ReadFailure}
    (h : source.read stack label = .error failure) : failure.path = label := by
  unfold read at h
  split at h
  · cases h
    rfl
  · split at h
    · cases h
      unfold brokenFailure
      split
      · rfl
      · rfl
      · rfl
    · split at h
      · cases h
        rfl
      · cases h

/-- A valid text with a tree that fits the grammar and the room on the stack. -/
structure IsReadable (stack : Stack) (source : Source) : Prop where
  valid : Utf8.firstFault source.bytes = none
  fits : source.tree.label.flagged = false
  shallow : source.tree.frames stack .whole ≤ stack.room

theorem read_eq_ok {stack : Stack} (label : String) {source : Source}
    (h : source.IsReadable stack) :
    source.read stack label = .ok (Code.convert source.bytes source.tree) := by
  rw [read, h.valid]
  dsimp only
  rw [h.fits, if_neg Bool.false_ne_true, Code.read_eq, if_pos h.shallow]

theorem isReadable_of_read_eq_ok {stack : Stack} {label : String} {source : Source} {code : Code}
    (h : source.read stack label = .ok code) : source.IsReadable stack := by
  unfold read at h
  cases hvalid : Utf8.firstFault source.bytes with
  | some fault =>
      rw [hvalid] at h
      cases h
  | none =>
      rw [hvalid] at h
      dsimp only at h
      cases hfits : source.tree.label.flagged with
      | true =>
          rw [hfits, if_pos rfl] at h
          cases h
      | false =>
          rw [hfits, if_neg Bool.false_ne_true, Code.read_eq] at h
          by_cases hshallow : source.tree.frames stack .whole ≤ stack.room
          · exact ⟨hvalid, hfits, hshallow⟩
          · rw [if_neg hshallow] at h
            cases h

theorem isReadable_of_map_eq_some {α : Type} {stack : Stack} {label : String} {source : Source}
    {f : Code → α} {a : α} (h : (source.read stack label).toOption.map f = some a) :
    source.IsReadable stack := by
  cases hread : source.read stack label with
  | ok code =>
      exact isReadable_of_read_eq_ok hread
  | error failure =>
      rw [hread] at h
      cases h

end Source
end UsecaseAudit
