import Mathlib.Data.List.Flatten
import UsecaseAudit.Delegation.Action
import UsecaseAudit.Proofs.Evidence

/-!
# Idle actions on the concrete tree

The idle actions of a file can be found on its concrete tree, without reading
it as code: they are the methods that stand in the body of a visited class with
the name of a controller, are named like an action that the settings do not
pass over, and hold no evidence of a usecase.  This module says so in a scan of
the concrete tree and in a predicate on its places, and shows that the idle
actions of the code that is read from the tree are the same.
-/

namespace UsecaseAudit
namespace Concrete

/-!
# A scan of the concrete tree
-/

def isControllerClass (source : List UInt8) (t : Concrete) : Bool :=
  t.kind == "class" &&
    match t.child? "name" with
    | none => false
    | some name => Affix.ends (Naming.lastSegment (name.text source)) "Controller"

def isIdleAction (source : List UInt8) (exclusions : Exclusions) (file : String)
    (t : Concrete) : Bool :=
  t.kind == "method" &&
    match t.child? "name" with
    | none => false
    | some name =>
        Naming.isAction (some (name.text source))
          && !exclusions.excludesAction file (name.text source) && !t.holdsEvidence source

/-- The places of the idle actions: class by class as they are read, and in each class method by
method. -/
def idleActionPlaces (source : List UInt8) (exclusions : Exclusions) (file : String)
    (t : Concrete) : List Place :=
  (t.visited.filter fun c => c.node.isControllerClass source).flatMap fun c =>
    c.visible.filter fun m => m.node.isIdleAction source exclusions file

def idleActionAt (source : List UInt8) (file : String) (p : Place) : IdleAction :=
  { file := file
    action := ((p.node.child? "name").map (text source)).getD ""
    line := some (Int.ofNat p.node.label.row + 1) }

structure IsIdleActionPlace (source : List UInt8) (exclusions : Exclusions) (file : String)
    (t : Concrete) (p : Place) : Prop where
  /-- The method stands in the body of a visited class with the name of a controller. -/
  controller : ∃ outer inner c name, Visits t outer c ∧ Reaches .whole c inner p.node ∧
    p.position = outer ++ inner ∧ c.kind = "class" ∧ c.child? "name" = some name ∧
    Affix.ends (Naming.lastSegment (name.text source)) "Controller" = true
  isMethod : p.node.kind = "method"
  /-- It is named like an action, and the settings do not pass over it. -/
  action : ∃ name, p.node.child? "name" = some name ∧
    Naming.isAction (some (name.text source)) = true ∧
    exclusions.excludesAction file (name.text source) = false
  /-- Nothing that is read from it on refers to a usecase. -/
  idle : ∀ position n, Visits p.node position n → ¬ Evidence source n

theorem isControllerClass_iff {source : List UInt8} {t : Concrete} :
    t.isControllerClass source = true ↔ t.kind = "class" ∧ ∃ name, t.child? "name" = some name ∧
      Affix.ends (Naming.lastSegment (name.text source)) "Controller" = true := by
  rw [isControllerClass, Bool.and_eq_true, beq_iff_eq]
  cases t.child? "name" with
  | none => simp
  | some name => simp

theorem isIdleAction_iff {source : List UInt8} {exclusions : Exclusions} {file : String}
    {t : Concrete} :
    t.isIdleAction source exclusions file = true ↔ t.kind = "method" ∧
      (∃ name, t.child? "name" = some name ∧ Naming.isAction (some (name.text source)) = true ∧
        exclusions.excludesAction file (name.text source) = false) ∧
      ∀ position n, Visits t position n → ¬ Evidence source n := by
  rw [isIdleAction, Bool.and_eq_true, beq_iff_eq, ← holdsEvidence_eq_false_iff]
  cases t.child? "name" with
  | none => simp
  | some name => simp [and_assoc]

theorem mem_idleActionPlaces_iff {source : List UInt8} {exclusions : Exclusions} {file : String}
    {t : Concrete} {p : Place} :
    p ∈ t.idleActionPlaces source exclusions file ↔
      IsIdleActionPlace source exclusions file t p := by
  rw [idleActionPlaces, List.mem_flatMap]
  constructor
  · rintro ⟨c, hc, hp⟩
    rcases List.mem_filter.mp hc with ⟨hvisited, hcontroller⟩
    rcases List.mem_filter.mp hp with ⟨hvisible, hidle⟩
    rcases isControllerClass_iff.mp hcontroller with ⟨hclass, name, hname, hends⟩
    rcases isIdleAction_iff.mp hidle with ⟨hmethod, haction, hevidence⟩
    rcases List.mem_map.mp hvisible with ⟨m, hm, rfl⟩
    exact
      { controller := ⟨c.position, m.position, c.node, name, visits_of_mem_visited hvisited,
          reaches_of_mem_visible hm, rfl, hclass, hname, hends⟩
        isMethod := hmethod
        action := haction
        idle := hevidence }
  · rintro ⟨⟨outer, inner, c, name, hvisits, hreaches, hposition, hclass, hname, hends⟩,
      hmethod, haction, hevidence⟩
    refine ⟨⟨outer, c⟩, List.mem_filter.mpr ⟨mem_visited_of_visits hvisits, ?_⟩,
      List.mem_filter.mpr ⟨List.mem_map.mpr ⟨⟨inner, p.node⟩, ?_, ?_⟩, ?_⟩⟩
    · exact isControllerClass_iff.mpr ⟨hclass, name, hname, hends⟩
    · exact mem_visible_of_reaches hreaches
    · rw [Place.under, ← hposition]
    · exact isIdleAction_iff.mpr ⟨hmethod, haction, hevidence⟩

theorem IsIdleActionPlace.at?_eq {source : List UInt8} {exclusions : Exclusions} {file : String}
    {t : Concrete} {p : Place} (h : IsIdleActionPlace source exclusions file t p) :
    t.at? p.position = some p.node := by
  rcases h.controller with ⟨outer, inner, c, name, hvisits, hreaches, hposition, -⟩
  rw [hposition, at?_append inner (at?_of_visits hvisits)]
  exact at?_of_reaches hreaches

theorem nodup_position_idleActionPlaces (source : List UInt8) (exclusions : Exclusions)
    (file : String) (t : Concrete) :
    ((t.idleActionPlaces source exclusions file).map Place.position).Nodup := by
  have hmethods : List.Sublist (t.idleActionPlaces source exclusions file)
      ((t.visited.filter fun c => c.node.isControllerClass source).flatMap Place.visible) :=
    List.Sublist.flatMap_right _ fun c _ => List.filter_sublist
  have hclasses := (List.filter_sublist (p := fun c : Place => c.node.isControllerClass source)
    (l := t.visited)).flatMap Place.visible
  exact ((hmethods.trans hclasses).map _).nodup (nodup_position_flatMap_visible t)

end Concrete

namespace Code

open Concrete

/-!
# The same scan on code that was read
-/

theorem isController_convert (source : List UInt8) (t : Concrete) :
    (convert source t).isController = t.isControllerClass source := by
  by_cases hform : t.form = .classDef
  · rw [isController, isControllerClass, (form_eq_iff .classDef rfl).mp hform,
      convert_of_classDef source hform]
    dsimp only [ofClass]
    cases t.child? "name" with
    | none => rfl
    | some name => rfl
  · have hkind : (convert source t).kind ≠ .classDef := by
      rw [kind_convert]
      exact fun h => hform (List.mem_singleton.mp (form_mem_formsOf h))
    have hclass : t.kind ≠ "class" := fun h => hform ((form_eq_iff .classDef rfl).mpr h)
    rw [isController, isControllerClass, beq_eq_false_iff_ne.mpr hkind,
      beq_eq_false_iff_ne.mpr hclass, Bool.false_and, Bool.false_and]

def isIdle (exclusions : Exclusions) (file : String) (m : Code) : Bool :=
  m.kind == .methodDef && Naming.isAction m.name
    && !exclusions.excludesAction file (m.name.getD "") && !delegates (some m)

theorem isIdle_convert (source : List UInt8) (exclusions : Exclusions) (file : String)
    (t : Concrete) :
    (convert source t).isIdle exclusions file = t.isIdleAction source exclusions file := by
  by_cases hform : t.form = .methodDef
  · rw [isIdle, isIdleAction, delegates_convert, (form_eq_iff .methodDef rfl).mp hform,
      convert_of_methodDef source hform]
    dsimp only [ofMethod]
    cases t.child? "name" with
    | none => rfl
    | some name => rfl
  · have hkind : (convert source t).kind ≠ .methodDef := by
      rw [kind_convert]
      exact fun h => hform (List.mem_singleton.mp (form_mem_formsOf h))
    have hmethod : t.kind ≠ "method" := fun h => hform ((form_eq_iff .methodDef rfl).mpr h)
    rw [isIdle, isIdleAction, beq_eq_false_iff_ne.mpr hkind, beq_eq_false_iff_ne.mpr hmethod,
      Bool.false_and, Bool.false_and, Bool.false_and, Bool.false_and]

theorem idleActionsOf_eq (exclusions : Exclusions) (file : String) (c : Code) :
    c.idleActionsOf exclusions file =
      (c.children.filter (isIdle exclusions file)).map fun m =>
        { file := file, action := m.name.getD "", line := m.line } := by
  rw [idleActionsOf, actions, List.filter_filter]
  congr 1
  refine List.filter_congr fun m _ => ?_
  rw [isIdle, Bool.and_comm]

theorem idleActionsOf_convert (source : List UInt8) (exclusions : Exclusions) (file : String)
    {p : Place} (hclass : p.node.isControllerClass source = true) :
    (convert source p.node).idleActionsOf exclusions file =
      (p.visible.filter fun m => m.node.isIdleAction source exclusions file).map
        (idleActionAt source file) := by
  have hform := (form_eq_iff .classDef rfl).mpr (isControllerClass_iff.mp hclass).left
  rw [idleActionsOf_eq, convert_of_classDef source hform]
  dsimp only [ofClass]
  rw [convertAll, List.filter_map, List.map_map, Place.visible, List.filter_map, List.map_map]
  have hidle : ∀ m : Place, (isIdle exclusions file ∘ fun q : Place => convert source q.node) m =
      m.node.isIdleAction source exclusions file :=
    fun m => isIdle_convert source exclusions file m.node
  rw [List.filter_congr fun m _ => hidle m]
  refine List.map_congr_left fun m hm => ?_
  have hmethod := (isIdleAction_iff.mp (List.mem_filter.mp hm).right).left
  dsimp only [Function.comp]
  rw [convert_of_methodDef source ((form_eq_iff .methodDef rfl).mpr hmethod)]
  rfl

theorem idleActions_convert (source : List UInt8) (exclusions : Exclusions) (file : String)
    (t : Concrete) :
    (convert source t).idleActions exclusions file =
      (t.idleActionPlaces source exclusions file).map (idleActionAt source file) := by
  have hother : ∀ c : Code, c.kind = .other →
      (if c.isController then c.idleActionsOf exclusions file else []) = [] := by
    intro c hkind
    rw [isController, hkind]
    rfl
  rw [idleActions, Lists.flatMap_filter, flatMap_walk_convert source hother, idleActionPlaces,
    List.map_flatMap, Lists.flatMap_filter]
  refine List.flatMap_congr fun p _ => ?_
  rw [isController_convert]
  by_cases hclass : p.node.isControllerClass source
  · rw [if_pos hclass, if_pos hclass, idleActionsOf_convert source exclusions file hclass]
  · rw [if_neg hclass, if_neg hclass]

end Code

namespace Source

/-- A source file that can be read has one idle action for every place of its concrete tree that
holds one, and no other. -/
theorem idleActions_read {stack : Stack} (label file : String) (exclusions : Exclusions)
    {source : Source} (h : source.IsReadable stack) :
    let places := source.tree.idleActionPlaces source.bytes exclusions file
    ∃ code, source.read stack label = .ok code ∧
      code.idleActions exclusions file = places.map (Concrete.idleActionAt source.bytes file) ∧
      (places.map Concrete.Place.position).Nodup ∧
      (∀ p ∈ places, source.tree.at? p.position = some p.node) ∧
      ∀ p, p ∈ places ↔
        Concrete.IsIdleActionPlace source.bytes exclusions file source.tree p := by
  refine ⟨Code.convert source.bytes source.tree, read_eq_ok label h, ?_, ?_, ?_, ?_⟩
  · exact Code.idleActions_convert source.bytes exclusions file source.tree
  · exact Concrete.nodup_position_idleActionPlaces source.bytes exclusions file source.tree
  · intro p hp
    exact (Concrete.mem_idleActionPlaces_iff.mp hp).at?_eq
  · intro p
    exact Concrete.mem_idleActionPlaces_iff

/-- A controller with the idle action `b` and the action `c`, which calls a usecase. -/
def twoActions : Source :=
  let node kind field start stop row children : Concrete :=
    ⟨⟨kind, field, true, false, false, start, stop, row⟩, children⟩
  { bytes := Utf8.encode
      "class AController\ndef b\nend\ndef c\nRunUsecase.call\nend\nend\n"
    tree := node "program" none 0 58 0 [
      node "class" none 0 57 0 [
        node "constant" (some "name") 6 17 0 [],
        node "body_statement" (some "body") 18 53 1 [
          node "method" none 18 27 1 [node "identifier" (some "name") 22 23 1 []],
          node "method" none 28 53 3 [
            node "identifier" (some "name") 32 33 3 [],
            node "body_statement" (some "body") 34 49 4 [
              node "call" none 34 49 4 [
                node "constant" (some "receiver") 34 44 4 [],
                node "identifier" (some "method") 45 49 4 []]]]]]] }

theorem idleActionPlaces_twoActions : twoActions.IsReadable ⟨30, 3, 1⟩ ∧
    (twoActions.tree.idleActionPlaces twoActions.bytes {} "a.rb").map
      (Concrete.idleActionAt twoActions.bytes "a.rb") = [⟨"a.rb", "b", some 2⟩] := by
  have hfound : (twoActions.read ⟨30, 3, 1⟩ "a.rb").toOption.map (Code.idleActions {} "a.rb") =
      some [⟨"a.rb", "b", some 2⟩] := by
    decide +kernel
  have hreadable := isReadable_of_map_eq_some hfound
  rcases idleActions_read "a.rb" "a.rb" {} hreadable with ⟨code, hread, hplaces, -⟩
  rw [hread] at hfound
  exact ⟨hreadable, hplaces ▸ Option.some.inj hfound⟩

end Source
end UsecaseAudit
