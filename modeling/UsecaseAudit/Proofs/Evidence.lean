import UsecaseAudit.Proofs.Conversion
import UsecaseAudit.Proofs.Walk

/-!
# Evidence of a usecase on the concrete tree

A node of a concrete tree is evidence of a usecase when it is an identifier
that refers to one, or a call that refers to one by its name or by the constant
that receives it.  The code that is read from a tree delegates exactly when
some visited place of the tree holds evidence.

Of what lies below a node, reading keeps the places read next and no others.
The one node of code that is not read from a visited place is the target of an
assignment, which no search looks at and which has nothing below it.
-/

namespace UsecaseAudit

/-!
# Forms and written kinds
-/

def Form.kinds : Form → List String
  | .classDef => ["class"]
  | .methodDef => ["method"]
  | .call => ["call"]
  | .identifier => ["identifier"]
  | .block => ["do_block", "block"]
  | .assignment => ["assignment"]
  | .plainSymbol => ["simple_symbol"]
  | .quotedSymbol => ["delimited_symbol"]
  | .string => ["string"]
  | .constant => ["constant"]
  | .scopePath => ["scope_resolution"]
  | .other => []

theorem Form.ofKind_eq_iff {kind : String} {form : Form} (hother : form ≠ .other) :
    Form.ofKind kind = form ↔ kind ∈ form.kinds := by
  constructor
  · rintro rfl
    unfold Form.ofKind at hother ⊢
    split <;> simp_all [Form.kinds]
  · intro hkind
    cases form with
    | block =>
        rcases List.mem_pair.mp hkind with rfl | rfl
        · rfl
        · rfl
    | other =>
        exact absurd rfl hother
    | _ =>
        rw [List.mem_singleton.mp hkind]
        rfl

namespace Concrete

theorem form_eq_iff (form : Form) {t : Concrete} {kind : String} (hkinds : form.kinds = [kind]) :
    t.form = form ↔ t.kind = kind := by
  have hother : form ≠ .other := by
    rintro rfl
    cases hkinds
  rw [Concrete.form, Form.ofKind_eq_iff hother, hkinds, List.mem_singleton]

/-!
# Evidence
-/

def qualifiedName (source : List UInt8) (t : Concrete) : Option String :=
  match t.form with
  | .constant => if t.text source = "" then none else some (t.text source)
  | .scopePath =>
      match t.child? "name" with
      | none => none
      | some name =>
          if name.kind == "constant" then
            if name.text source = "" then none
            else
              match (t.child? "scope").attach.bind fun ⟨c, _hc⟩ => qualifiedName source c with
              | none => some (name.text source)
              | some path => some (path ++ "::" ++ name.text source)
          else none
  | _ => none
termination_by sizeOf t
decreasing_by
  exact sizeOf_lt_of_child? _hc

def receiverRefers (source : List UInt8) (t : Concrete) : Bool :=
  match t.child? "receiver" with
  | none => false
  | some receiver => Naming.refersToUsecase (receiver.qualifiedName source)

def isEvidence (source : List UInt8) (t : Concrete) : Bool :=
  match t.form with
  | .identifier => Naming.refersToUsecase (some (t.text source))
  | .call => Naming.refersToUsecase (t.callName? source) || t.receiverRefers source
  | _ => false

def holdsEvidence (source : List UInt8) (t : Concrete) : Bool :=
  t.visited.any fun p => p.node.isEvidence source

inductive Evidence (source : List UInt8) (t : Concrete) : Prop where
  | identifier :
      t.kind = "identifier" → Naming.refersToUsecase (some (t.text source)) = true →
      Evidence source t
  | method {m : Concrete} :
      t.kind = "call" → t.child? "method" = some m → m.kind ≠ "argument_list" →
      Naming.refersToUsecase (some (m.text source)) = true → Evidence source t
  | receiver {r : Concrete} {name : String} :
      t.kind = "call" → t.child? "receiver" = some r → r.qualifiedName source = some name →
      Naming.refersToUsecase (some name) = true → Evidence source t

theorem refersToUsecase_callName?_iff {source : List UInt8} {t : Concrete} :
    Naming.refersToUsecase (t.callName? source) = true ↔
      ∃ m, t.child? "method" = some m ∧ m.kind ≠ "argument_list" ∧
        Naming.refersToUsecase (some (m.text source)) = true := by
  rw [callName?]
  cases t.child? "method" with
  | none =>
      simp [Naming.refersToUsecase]
  | some m =>
      by_cases hkind : m.kind = "argument_list"
      · simp [hkind, Naming.refersToUsecase]
      · simp [hkind]

theorem receiverRefers_iff {source : List UInt8} {t : Concrete} :
    t.receiverRefers source = true ↔
      ∃ r name, t.child? "receiver" = some r ∧ r.qualifiedName source = some name ∧
        Naming.refersToUsecase (some name) = true := by
  rw [receiverRefers]
  cases t.child? "receiver" with
  | none =>
      simp
  | some r =>
      cases hname : r.qualifiedName source with
      | none =>
          simp [hname, Naming.refersToUsecase]
      | some name =>
          simp [hname]

theorem isEvidence_iff {source : List UInt8} {t : Concrete} :
    t.isEvidence source = true ↔ Evidence source t := by
  constructor
  · intro h
    unfold isEvidence at h
    split at h
    · exact Evidence.identifier ((form_eq_iff .identifier rfl).mp ‹_›) h
    · have hkind := (form_eq_iff .call rfl).mp ‹_›
      rcases Bool.or_eq_true_iff.mp h with hname | hreceiver
      · rcases refersToUsecase_callName?_iff.mp hname with ⟨m, hm, hlist, hrefers⟩
        exact Evidence.method hkind hm hlist hrefers
      · rcases receiverRefers_iff.mp hreceiver with ⟨r, name, hr, hqualified, hrefers⟩
        exact Evidence.receiver hkind hr hqualified hrefers
    · cases h
  · intro h
    rw [isEvidence]
    cases h with
    | identifier hkind hrefers =>
        rw [(form_eq_iff .identifier rfl).mpr hkind]
        exact hrefers
    | method hkind hm hlist hrefers =>
        rw [(form_eq_iff .call rfl).mpr hkind]
        exact Bool.or_eq_true_iff.mpr
          (Or.inl (refersToUsecase_callName?_iff.mpr ⟨_, hm, hlist, hrefers⟩))
    | receiver hkind hr hqualified hrefers =>
        rw [(form_eq_iff .call rfl).mpr hkind]
        exact Bool.or_eq_true_iff.mpr
          (Or.inr (receiverRefers_iff.mpr ⟨_, _, hr, hqualified, hrefers⟩))

theorem holdsEvidence_eq_false_iff {source : List UInt8} {t : Concrete} :
    t.holdsEvidence source = false ↔
      ∀ position n, Visits t position n → ¬ Evidence source n := by
  rw [holdsEvidence, List.any_eq_false]
  constructor
  · intro h position n hvisits hevidence
    exact h ⟨position, n⟩ (mem_visited_of_visits hvisits) (isEvidence_iff.mpr hevidence)
  · intro h p hp hevidence
    exact h p.position p.node (visits_of_mem_visited hp) (isEvidence_iff.mp hevidence)

end Concrete

namespace Code

open Concrete

/-!
# What lies below a node of code
-/

theorem convertAll_fieldSteps (source : List UInt8) (field : String) (t : Concrete) :
    convertAll source ((t.fieldSteps .whole field).flatMap Step.places) =
      ((t.child? field).map (convert source)).toList := by
  rcases fieldSteps_cases .whole field t with ⟨hchild, hsteps⟩ | ⟨c, index, hchild, hsteps⟩
  · rw [hchild, hsteps]
    rfl
  · rw [hchild, hsteps]
    rfl

theorem convertAll_argumentSteps (source : List UInt8) (t : Concrete) :
    convertAll source ((t.fieldSteps .body "arguments").flatMap Step.places) =
      convertAll source t.argumentPlaces := by
  rw [argumentPlaces]
  rcases fieldSteps_cases .body "arguments" t with ⟨hchild, hsteps⟩ | ⟨c, index, hchild, hsteps⟩
  · rw [hchild, hsteps]
    rfl
  · rw [hchild, hsteps, List.flatMap_singleton, Step.places_body rfl, convertAll_under]

theorem convertAll_visible_call (source : List UInt8) {t : Concrete} (hform : t.form = .call) :
    convertAll source (t.visible .whole) =
      ((t.child? "receiver").map (convert source)).toList ++ convertAll source t.argumentPlaces
        ++ ((t.child? "block").map (convert source)).toList := by
  have hsteps : t.steps .whole = t.fieldSteps .whole "receiver" ++ t.fieldSteps .body "arguments"
      ++ t.fieldSteps .whole "block" := by
    rw [steps, hform]
  rw [visible_eq_flatMap, hsteps, List.flatMap_append, List.flatMap_append, convertAll_append,
    convertAll_append, convertAll_fieldSteps, convertAll_argumentSteps, convertAll_fieldSteps]

/-- The children of a node of code are read from the places read next, but for the target of an
assignment, which stands in front of its value. -/
theorem children_convert_cases (source : List UInt8) (t : Concrete) :
    ((convert source t).kind ≠ .assignment ∧
      (convert source t).children = convertAll source (t.visible .whole)) ∨
    ∃ left value, t.child? "left" = some left ∧ convert source t = ofAssignment source t left value ∧
      convertAll source (t.visible .whole) = [value] := by
  refine convert_cases (motive := fun c =>
    (c.kind ≠ .assignment ∧ c.children = convertAll source (t.visible .whole)) ∨
      ∃ left value, t.child? "left" = some left ∧ c = ofAssignment source t left value ∧
        convertAll source (t.visible .whole) = [value]) source t
    ?_ ?_ ?_ ?_ ?_ ?_ ?_ ?_ ?_ ?_
  · intro _
    exact Or.inl ⟨(by decide : Kind.classDef ≠ .assignment), rfl⟩
  · intro _
    exact Or.inl ⟨(by decide : Kind.methodDef ≠ .assignment), rfl⟩
  · intro hform
    exact Or.inl ⟨(by decide : Kind.call ≠ .assignment), (convertAll_visible_call source hform).symm⟩
  · intro hform
    refine Or.inl ⟨(by decide : Kind.call ≠ .assignment), ?_⟩
    rw [visible_eq_flatMap, steps, hform]
    rfl
  · intro _
    exact Or.inl ⟨(by decide : Kind.block ≠ .assignment), rfl⟩
  · intro left right _ hleft hright hsteps
    refine Or.inr ⟨left, convert source right, hleft, rfl, ?_⟩
    rw [visible_eq_flatMap, hsteps, convertAll_fieldSteps, hright]
    rfl
  · intro kind value _ hliteral hsteps
    refine Or.inl ⟨?_, ?_⟩
    · intro hassignment
      rcases hliteral with rfl | rfl
      · cases hassignment
      · cases hassignment
    · rw [visible_eq_flatMap, hsteps]
      rfl
  · intro hform
    refine Or.inl ⟨(by decide : Kind.constantRef ≠ .assignment), ?_⟩
    rw [visible_eq_flatMap, steps, hform]
    rfl
  · intro name _ hsteps
    refine Or.inl ⟨(by decide : Kind.constantRef ≠ .assignment), ?_⟩
    rw [visible_eq_flatMap, hsteps, convertAll_fieldSteps]
    rfl
  · intro _
    exact Or.inl ⟨(by decide : Kind.other ≠ .assignment), rfl⟩

theorem searched_convert (source : List UInt8) (t : Concrete) :
    (convert source t).searched = convertAll source (t.visible .whole) := by
  rcases children_convert_cases source t with ⟨hkind, hchildren⟩ | ⟨left, value, _, hcode, hvisible⟩
  · rw [searched, if_neg hkind, hchildren]
  · rw [hcode, hvisible]
    rfl

/-- A walk through code that was read meets the visited places in their order, as far as nodes of
no interest are left out. -/
theorem flatMap_walk_convert {α : Type} {f : Code → List α} (source : List UInt8)
    (hf : ∀ c : Code, c.kind = .other → f c = []) (t : Concrete) :
    (convert source t).walk.flatMap f =
      t.visited.flatMap fun p => f (convert source p.node) := by
  induction t using visited.induct with
  | case1 t ih =>
      have hbelow : ∀ p ∈ t.visible .whole,
          (convert source p.node).walk.flatMap f =
            p.visited.flatMap fun q => f (convert source q.node) := by
        intro p hp
        rw [ih p hp, Place.visited, List.flatMap_map]
        rfl
      have hparts : (convertAll source (t.visible .whole)).flatMap (fun c => c.walk.flatMap f) =
          ((t.visible .whole).flatMap Place.visited).flatMap fun q => f (convert source q.node) := by
        rw [convertAll, List.flatMap_map, List.flatMap_assoc]
        exact List.flatMap_congr hbelow
      rw [visited_eq_cons, List.flatMap_cons, ← hparts, walk_eq_cons, List.flatMap_cons,
        List.flatMap_assoc]
      rcases children_convert_cases source t with ⟨_, hchildren⟩ | ⟨left, value, _, hcode, hvisible⟩
      · rw [hchildren]
      · -- the target of the assignment is a node of no interest without children
        have htarget : (ofTarget source left).walk.flatMap f = [] := by
          rw [walk_eq_cons, List.flatMap_cons, hf _ rfl]
          rfl
        rw [hcode, hvisible]
        show _ ++ List.flatMap _ [ofTarget source left, value] = _
        rw [List.flatMap_cons, htarget, List.nil_append]

/-!
# Delegation of code that was read
-/

theorem qualifiedName_eq (c : Code) :
    c.qualifiedName =
      match c.constantName? with
      | none => none
      | some name =>
          match c.scope.bind qualifiedName with
          | none => some name
          | some path => some (path ++ "::" ++ name) := by
  rcases c with ⟨kind, line, name, value, receiver, arguments, block, scope, children⟩
  cases scope with
  | none =>
      rw [qualifiedName]
      dsimp only [Option.bind_none]
      split
      · assumption
      · assumption
  | some outer =>
      rw [qualifiedName]
      rfl

theorem qualifiedName_of_kind_ne {c : Code} (h : c.kind ≠ .constantRef) :
    c.qualifiedName = none := by
  rw [qualifiedName_eq, constantName?, if_neg h]

theorem qualifiedName_ofConstant (t : Concrete) (name : String) (scope : Option Code) :
    (ofConstant t name scope).qualifiedName =
      if name = "" then none
      else
        match scope.bind qualifiedName with
        | none => some name
        | some path => some (path ++ "::" ++ name) := by
  rw [qualifiedName_eq, constantName?]
  by_cases h : name = ""
  · simp [ofConstant, h]
  · simp [ofConstant, h]

theorem qualifiedName_of_kindOf_ne (source : List UInt8) {t : Concrete}
    (h : kindOf t ≠ .constantRef) : t.qualifiedName source = none := by
  rw [Concrete.qualifiedName]
  cases hform : t.form with
  | constant =>
      rw [kindOf, hform] at h
      exact absurd rfl h
  | scopePath =>
      rw [kindOf, hform, endsInConstant] at h
      dsimp only at h ⊢
      cases hname : t.child? "name" with
      | none =>
          rfl
      | some name =>
          rw [hname] at h
          dsimp only at h ⊢
          by_cases hconstant : (name.kind == "constant") = true
          · rw [if_pos hconstant] at h
            exact absurd rfl h
          · rw [if_neg hconstant]
  | _ =>
      rfl

theorem qualifiedName_convert (source : List UInt8) (t : Concrete) :
    (convert source t).qualifiedName = t.qualifiedName source := by
  have ih : ∀ c, t.child? "scope" = some c →
      (convert source c).qualifiedName = c.qualifiedName source := by
    intro c hc
    have hlt := sizeOf_lt_of_child? hc
    exact qualifiedName_convert source c
  by_cases hkind : kindOf t = .constantRef
  · rcases List.mem_pair.mp (form_mem_formsOf hkind) with hform | hform
    · rw [convert_eq_assemble, assemble, hform]
      dsimp only
      rw [qualifiedName_ofConstant, Concrete.qualifiedName, hform]
      rfl
    · have hscope : ((t.child? "scope").map (convert source)).bind qualifiedName =
          (t.child? "scope").attach.bind fun c => c.val.qualifiedName source := by
        revert ih
        generalize t.child? "scope" = scope
        intro ih
        cases scope with
        | none => rfl
        | some c => exact ih c rfl
      rw [kindOf, hform, endsInConstant] at hkind
      rw [convert_eq_assemble, assemble, Concrete.qualifiedName, hform]
      dsimp only at hkind ⊢
      cases hname : t.child? "name" with
      | none =>
          rw [hname] at hkind
          cases hkind
      | some name =>
          rw [hname] at hkind
          dsimp only at hkind ⊢
          by_cases hconstant : (name.kind == "constant") = true
          · rw [if_pos hconstant, if_pos hconstant, qualifiedName_ofConstant, hscope]
          · rw [if_neg hconstant] at hkind
            cases hkind
  · rw [qualifiedName_of_kindOf_ne source hkind]
    exact qualifiedName_of_kind_ne (by rw [kind_convert]; exact hkind)
termination_by sizeOf t

theorem isEvidence_of_kindOf_ne (source : List UInt8) {t : Concrete} (h : kindOf t ≠ .call) :
    t.isEvidence source = false := by
  rw [isEvidence]
  cases hform : t.form with
  | call =>
      rw [kindOf, hform] at h
      exact absurd rfl h
  | identifier =>
      rw [kindOf, hform] at h
      exact absurd rfl h
  | _ =>
      rfl

theorem receiverRefers_ofCall (source : List UInt8) (t : Concrete) (arguments : List Code)
    (block : Option Code) :
    (ofCall source t ((t.child? "receiver").map (convert source)) arguments block).receiverRefers =
      t.receiverRefers source := by
  rw [receiverRefers, Concrete.receiverRefers]
  dsimp only [ofCall]
  cases t.child? "receiver" with
  | none =>
      rfl
  | some receiver =>
      dsimp only [Option.map_some]
      rw [kind_convert, qualifiedName_convert]
      by_cases hkind : kindOf receiver = .constantRef
      · rw [hkind]
        rfl
      · -- a receiver that is no constant has no qualified name
        rw [qualifiedName_of_kindOf_ne source hkind]
        exact Bool.and_false _

theorem namesUsecase_convert (source : List UInt8) (t : Concrete) :
    (convert source t).namesUsecase = t.isEvidence source := by
  by_cases hkind : kindOf t = .call
  · rcases List.mem_pair.mp (form_mem_formsOf hkind) with hform | hform
    · rw [convert_of_call source hform, namesUsecase, receiverRefers_ofCall, isEvidence, hform]
      rfl
    · rw [convert_of_identifier source hform, isEvidence, hform]
      exact Bool.or_false _
  · have hcode : ((convert source t).kind == .call) = false := by
      rw [kind_convert]
      exact beq_eq_false_iff_ne.mpr hkind
    rw [namesUsecase, hcode, isEvidence_of_kindOf_ne source hkind, Bool.false_and]

/-- Code that was read delegates when a visited place holds evidence. -/
theorem delegates_convert (source : List UInt8) (t : Concrete) :
    delegates (some (convert source t)) = t.holdsEvidence source := by
  induction t using visited.induct with
  | case1 t ih =>
      have hbelow : ∀ p ∈ t.visible .whole,
          delegates (some (convert source p.node)) =
            p.visited.any fun q => q.node.isEvidence source := by
        intro p hp
        rw [ih p hp, holdsEvidence, Place.visited, List.any_map]
        rfl
      rw [delegates_some, namesUsecase_convert, searched_convert, holdsEvidence, visited_eq_cons,
        List.any_cons, List.any_flatMap, convertAll, List.any_map]
      congr 1
      rw [Bool.eq_iff_iff, List.any_eq_true, List.any_eq_true]
      refine exists_congr fun p => and_congr_right fun hp => ?_
      rw [← hbelow p hp]
      rfl

end Code
end UsecaseAudit
