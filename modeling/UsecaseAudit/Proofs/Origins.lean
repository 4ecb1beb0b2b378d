import UsecaseAudit.Proofs.Lists
import UsecaseAudit.Proofs.ReadCalls

/-!
# Where the nodes of code come from

Every node of code that was read has an origin, a place of the concrete tree:
the place it was read from, or the place of the target that it stands for.  No
two nodes have the same origin, so that code is never larger than the tree it
was read from.

Reading follows the order of the source wherever the parts of calls and of
assignments stand in their usual order.  The origins then come in the order of
the concrete tree, and lines that grow there grow in the code as well.
-/

namespace UsecaseAudit
namespace Concrete

/-!
# The order of parts
-/

def Precedes (t : Concrete) (first second : String) : Prop :=
  ∀ i ∈ t.fieldIndex? first, ∀ j ∈ t.fieldIndex? second, i < j

instance (t : Concrete) (first second : String) : Decidable (t.Precedes first second) :=
  inferInstanceAs (Decidable (∀ i ∈ t.fieldIndex? first, ∀ j ∈ t.fieldIndex? second, i < j))

/-- The parts of calls and of assignments stand in the order in which they are written. -/
structure InOrder (t : Concrete) : Prop where
  call : t.kind = "call" →
    t.Precedes "receiver" "arguments" ∧ t.Precedes "arguments" "block" ∧
      t.Precedes "receiver" "block"
  assignment : t.kind = "assignment" → t.Precedes "left" "right"

instance (t : Concrete) : Decidable t.InOrder :=
  decidable_of_iff
    ((t.kind = "call" → t.Precedes "receiver" "arguments" ∧ t.Precedes "arguments" "block" ∧
      t.Precedes "receiver" "block") ∧ (t.kind = "assignment" → t.Precedes "left" "right"))
    ⟨fun h => ⟨h.left, h.right⟩, fun h => ⟨h.call, h.assignment⟩⟩

def IsOrdered (t : Concrete) : Prop :=
  ∀ position n, t.at? position = some n → n.InOrder

instance (t : Concrete) : Decidable t.IsOrdered :=
  decidable_of_iff (∀ p ∈ t.places, p.node.InOrder)
    ⟨fun h position n hn => h ⟨position, n⟩ (mem_places_iff.mpr hn),
      fun h p hp => h p.position p.node (mem_places_iff.mp hp)⟩

theorem IsOrdered.root {t : Concrete} (h : t.IsOrdered) : t.InOrder :=
  h [] t rfl

theorem IsOrdered.of_at? {t n : Concrete} {position : Position} (h : t.IsOrdered)
    (hn : t.at? position = some n) : n.IsOrdered := by
  intro inner m hm
  exact h (position ++ inner) m ((at?_append inner hn).trans hm)

theorem Precedes.index_lt {t : Concrete} {first second : String} {m m' : Manner} {s s' : Step}
    (h : t.Precedes first second) (hs : s ∈ t.fieldSteps m first)
    (hs' : s' ∈ t.fieldSteps m' second) : s.index < s'.index :=
  h s.index (fieldIndex?_of_mem_fieldSteps hs) s'.index (fieldIndex?_of_mem_fieldSteps hs')

theorem pairwise_fieldSteps {r : Step → Step → Prop} (m : Manner) (field : String)
    (t : Concrete) : (t.fieldSteps m field).Pairwise r := by
  rcases Code.fieldSteps_cases m field t with ⟨_, hsteps⟩ | ⟨c, index, _, hsteps⟩
  · rw [hsteps]
    exact List.Pairwise.nil
  · rw [hsteps]
    exact List.pairwise_singleton r _

theorem pairwise_index_statementSteps (apart : List String) (t : Concrete) :
    (t.statementSteps apart).Pairwise fun s s' => s.index < s'.index := by
  rw [statementSteps, List.pairwise_map]
  exact (Lists.pairwise_index_zipIdx t.children).filter _

theorem pairwise_index_steps {t : Concrete} (h : t.InOrder) (m : Manner) :
    (t.steps m).Pairwise fun s s' => s.index < s'.index := by
  refine steps_cases (motive := fun l => l.Pairwise fun s s' => s.index < s'.index) t m
    ?_ List.Pairwise.nil ?_ ?_
  · intro apart
    exact pairwise_index_statementSteps apart t
  · intro name
    exact pairwise_fieldSteps .whole name t
  · intro hform
    rcases h.call ((form_eq_iff .call rfl).mp hform) with ⟨hfirst, hsecond, houter⟩
    rw [List.pairwise_append, List.pairwise_append]
    refine ⟨⟨pairwise_fieldSteps _ _ t, pairwise_fieldSteps _ _ t, ?_⟩,
      pairwise_fieldSteps _ _ t, ?_⟩
    · intro s hs s' hs'
      exact hfirst.index_lt hs hs'
    · intro s hs s' hs'
      rcases List.mem_append.mp hs with hs | hs
      · exact houter.index_lt hs hs'
      · exact hsecond.index_lt hs hs'

theorem flatMap_sublist_innerPlaces {t : Concrete} {steps : List Step} {f : Step → List Place}
    (hchild : ∀ s ∈ steps, t.children[s.index]? = some s.child)
    (hindex : steps.Pairwise fun s s' => s.index < s'.index)
    (hf : ∀ s ∈ steps, (f s).Sublist (childPlaces (s.child, s.index))) :
    (steps.flatMap f).Sublist t.innerPlaces := by
  have hsublist : (steps.map fun s => (s.child, s.index)).Sublist t.children.zipIdx := by
    refine Lists.sublist_zipIdx (List.pairwise_map.mpr hindex) ?_
    intro c hc
    rcases List.mem_map.mp hc with ⟨s, hs, rfl⟩
    exact hchild s hs
  have hplaces := hsublist.flatMap childPlaces
  rw [List.flatMap_map] at hplaces
  exact (List.Sublist.flatMap_right steps hf).trans hplaces

def Place.places (p : Place) : List Place :=
  p.node.places.map (Place.under p.position)

theorem flatMap_places_under (index : Nat) (l : List Place) :
    (l.map (Place.under [index])).flatMap Place.places =
      (l.flatMap Place.places).map (Place.under [index]) := by
  rw [List.flatMap_map, List.map_flatMap]
  refine List.flatMap_congr fun p _ => ?_
  rw [Place.places, Place.places, List.map_map]
  exact List.map_congr_left fun q _ => (Place.under_under [index] p.position q).symm

theorem flatMap_places_sublist {s : Step}
    (hbody : s.manner = .body →
      ((s.child.visible .body).flatMap Place.places).Sublist s.child.innerPlaces) :
    (s.places.flatMap Place.places).Sublist (childPlaces (s.child, s.index)) := by
  cases hm : s.manner with
  | whole =>
      rw [Step.places_whole hm, List.flatMap_singleton]
      exact List.Sublist.refl _
  | body =>
      rw [Step.places_body hm, flatMap_places_under, childPlaces, places_eq_cons]
      exact ((hbody hm).trans (List.sublist_cons_self _ _)).map _

theorem flatMap_visible_sublist (m : Manner) (t : Concrete) (h : t.IsOrdered) :
    ((t.visible m).flatMap Place.places).Sublist t.innerPlaces := by
  induction m, t using visible.induct with
  | case1 m t ih =>
      rw [visible_eq_flatMap, List.flatMap_assoc]
      refine flatMap_sublist_innerPlaces (fun s hs => getElem?_of_mem_steps hs)
        (pairwise_index_steps h.root m) fun s hs => flatMap_places_sublist fun _ => ?_
      exact ih s hs (h.of_at? (at?_of_mem_steps hs))

/-!
# Origins
-/

/-- The step to the target of an assignment, of which only the text is read. -/
def targetSteps (t : Concrete) : List Step :=
  if Code.kindOf t = .assignment then t.fieldSteps .whole "left" else []

theorem form_of_assignment {t : Concrete} (h : Code.kindOf t = .assignment) :
    t.form = .assignment :=
  List.mem_singleton.mp (Code.form_mem_formsOf h)

theorem isPlainAssignment_of_assignment {t : Concrete} (h : Code.kindOf t = .assignment) :
    t.isPlainAssignment = true := by
  rw [Code.kindOf, form_of_assignment h] at h
  by_contra hplain
  rw [if_neg hplain] at h
  cases h

theorem steps_of_assignment {t : Concrete} (h : Code.kindOf t = .assignment) :
    t.steps .whole = t.fieldSteps .whole "right" := by
  rw [steps, form_of_assignment h]
  exact if_pos (isPlainAssignment_of_assignment h)

theorem targetSteps_cases (t : Concrete) :
    t.targetSteps = [] ∨
      t.targetSteps = t.fieldSteps .whole "left" ∧
        t.steps .whole = t.fieldSteps .whole "right" ∧ t.kind = "assignment" := by
  by_cases h : Code.kindOf t = .assignment
  · exact Or.inr ⟨if_pos h, steps_of_assignment h,
      (form_eq_iff .assignment rfl).mp (form_of_assignment h)⟩
  · exact Or.inl (if_neg h)

theorem getElem?_of_mem_targetSteps {t : Concrete} {s : Step} (hs : s ∈ t.targetSteps) :
    t.children[s.index]? = some s.child := by
  rcases targetSteps_cases t with hnone | ⟨hleft, _⟩
  · rw [hnone] at hs
    cases hs
  · rw [hleft] at hs
    exact getElem?_of_mem_fieldSteps hs

theorem places_of_mem_targetSteps {t : Concrete} {s : Step} (hs : s ∈ t.targetSteps) :
    s.places = [⟨[s.index], s.child⟩] := by
  apply Step.places_whole
  rcases targetSteps_cases t with hnone | ⟨hleft, _⟩
  · rw [hnone] at hs
    cases hs
  · rw [hleft] at hs
    rcases Option.map_eq_some_iff.mp (Option.mem_toList.mp hs) with ⟨c, _, rfl⟩
    rfl

/-- The places from which the nodes of the code of a tree come, in the order of a walk. -/
def origins (t : Concrete) : List Place :=
  ⟨[], t⟩ :: (t.targetSteps.flatMap Step.places ++
    (t.visible .whole).attach.flatMap fun ⟨p, _hp⟩ => (origins p.node).map (Place.under p.position))
termination_by sizeOf t
decreasing_by
  exact sizeOf_lt_of_mem_visible _hp

def Place.origins (p : Place) : List Place :=
  p.node.origins.map (Place.under p.position)

theorem origins_eq_cons (t : Concrete) :
    t.origins =
      ⟨[], t⟩ :: (t.targetSteps.flatMap Step.places ++
        (t.visible .whole).flatMap Place.origins) := by
  rw [origins]
  simp only [List.flatMap_subtype, List.unattach_attach]
  rfl

theorem mem_origins_iff {t : Concrete} {p : Place} :
    p ∈ t.origins ↔ p = ⟨[], t⟩ ∨ (∃ s ∈ t.targetSteps, p = ⟨[s.index], s.child⟩) ∨
      ∃ q ∈ t.visible .whole, ∃ r ∈ q.node.origins, p = r.under q.position := by
  rw [origins_eq_cons, List.mem_cons, List.mem_append, List.mem_flatMap, List.mem_flatMap]
  have htarget : (∃ s ∈ t.targetSteps, p ∈ s.places) ↔
      ∃ s ∈ t.targetSteps, p = ⟨[s.index], s.child⟩ := by
    refine exists_congr fun s => and_congr_right fun hs => ?_
    rw [places_of_mem_targetSteps hs, List.mem_singleton]
  rw [htarget]
  simp only [Place.origins, List.mem_map, eq_comm]

theorem at?_of_mem_origins {t : Concrete} {p : Place} (hp : p ∈ t.origins) :
    t.at? p.position = some p.node := by
  induction t using visited.induct generalizing p with
  | case1 t ih =>
      rcases mem_origins_iff.mp hp with rfl | ⟨s, hs, rfl⟩ | ⟨q, hq, r, hr, rfl⟩
      · rfl
      · show (t.children[s.index]?).bind _ = _
        rw [getElem?_of_mem_targetSteps hs]
        rfl
      · have hq' := at?_of_reaches (reaches_of_mem_visible hq)
        exact (at?_append r.position hq').trans (ih q hq hr)

/-!
# No two nodes have the same origin
-/

theorem index_ne_of_mem_targetSteps {t : Concrete} {s s' : Step} (hs : s ∈ t.targetSteps)
    (hs' : s' ∈ t.steps .whole) : s.index ≠ s'.index := by
  rcases targetSteps_cases t with hnone | ⟨hleft, hright, _⟩
  · rw [hnone] at hs
    cases hs
  · rw [hleft] at hs
    rw [hright] at hs'
    exact index_ne_of_field_ne hs hs' (by decide)

theorem nodup_position_targetPlaces (t : Concrete) :
    ((t.targetSteps.flatMap Step.places).map Place.position).Nodup := by
  have hsteps : t.targetSteps = [] ∨ ∃ s, t.targetSteps = [s] := by
    rcases targetSteps_cases t with hnone | ⟨hleft, _⟩
    · exact Or.inl hnone
    · rcases Code.fieldSteps_cases .whole "left" t with ⟨_, hnone⟩ | ⟨c, index, _, hone⟩
      · exact Or.inl (hleft.trans hnone)
      · exact Or.inr ⟨_, hleft.trans hone⟩
  rcases hsteps with hnone | ⟨s, hone⟩
  · rw [hnone]
    exact List.nodup_nil
  · have hplaces := places_of_mem_targetSteps (t := t) (s := s) (by rw [hone]; simp)
    rw [hone, List.flatMap_singleton, hplaces]
    exact List.nodup_singleton _

theorem nodup_position_origins (t : Concrete) : (t.origins.map Place.position).Nodup := by
  induction t using visited.induct with
  | case1 t ih =>
      rw [origins_eq_cons, List.map_cons, List.map_append, List.nodup_cons, List.nodup_append]
      refine ⟨?_, nodup_position_targetPlaces t,
        nodup_position_flatMap (pairwise_apart_visible .whole t) ih, ?_⟩
      · -- the position of the root is empty, and no other is
        intro hroot
        rcases List.mem_append.mp hroot with hroot | hroot
        · rcases List.mem_map.mp hroot with ⟨p, hp, hnil⟩
          rcases List.mem_flatMap.mp hp with ⟨s, hs, hp⟩
          rw [places_of_mem_targetSteps hs] at hp
          rw [List.mem_singleton.mp hp] at hnil
          cases hnil
        · rcases List.mem_map.mp hroot with ⟨p, hp, hnil⟩
          rcases List.mem_flatMap.mp hp with ⟨q, hq, hp⟩
          rcases List.mem_map.mp hp with ⟨r, _, rfl⟩
          exact position_ne_nil_of_mem_visible hq (List.append_eq_nil_iff.mp hnil).left
      · intro a ha b hb
        rcases List.mem_map.mp ha with ⟨p, hp, rfl⟩
        rcases List.mem_flatMap.mp hp with ⟨s, hs, hp⟩
        rw [places_of_mem_targetSteps hs] at hp
        rcases List.mem_map.mp hb with ⟨p', hp', rfl⟩
        rcases List.mem_flatMap.mp hp' with ⟨q, hq, hp'⟩
        rcases List.mem_map.mp hp' with ⟨r, _, rfl⟩
        rw [visible_eq_flatMap] at hq
        rcases List.mem_flatMap.mp hq with ⟨s', hs', hq⟩
        rcases position_of_mem_places hq with ⟨rest, hrest⟩
        rw [List.mem_singleton.mp hp, Place.under, hrest]
        intro heq
        exact index_ne_of_mem_targetSteps hs hs' (List.cons.inj heq).left

/-!
# Origins in the order of the tree
-/

theorem pairwise_index_nextSteps {t : Concrete} (h : t.InOrder) :
    (t.targetSteps ++ t.steps .whole).Pairwise fun s s' => s.index < s'.index := by
  rw [List.pairwise_append]
  refine ⟨?_, pairwise_index_steps h .whole, ?_⟩
  · rcases targetSteps_cases t with hnone | ⟨hleft, _⟩
    · rw [hnone]
      exact List.Pairwise.nil
    · rw [hleft]
      exact pairwise_fieldSteps .whole "left" t
  · intro s hs s' hs'
    rcases targetSteps_cases t with hnone | ⟨hleft, hright, hkind⟩
    · rw [hnone] at hs
      cases hs
    · rw [hleft] at hs
      rw [hright] at hs'
      exact (h.assignment hkind).index_lt hs hs'

/-- Where the parts of all nodes are in order, the origins come in the order of the tree. -/
theorem origins_sublist_places (t : Concrete) (h : t.IsOrdered) :
    t.origins.Sublist t.places := by
  induction t using visited.induct with
  | case1 t ih =>
      have hchild : ∀ s ∈ t.targetSteps ++ t.steps .whole, t.children[s.index]? = some s.child := by
        intro s hs
        rcases List.mem_append.mp hs with hs | hs
        · exact getElem?_of_mem_targetSteps hs
        · exact getElem?_of_mem_steps hs
      have hinner : ((t.targetSteps ++ t.steps .whole).flatMap fun s =>
          s.places.flatMap Place.places).Sublist t.innerPlaces := by
        refine flatMap_sublist_innerPlaces hchild (pairwise_index_nextSteps h.root) ?_
        intro s hs
        have hat : t.at? [s.index] = some s.child := by
          rw [at?, hchild s hs]
          rfl
        exact flatMap_places_sublist fun _ => flatMap_visible_sublist .body s.child (h.of_at? hat)
      have htarget : (t.targetSteps.flatMap Step.places).Sublist
          (t.targetSteps.flatMap fun s => s.places.flatMap Place.places) := by
        refine List.Sublist.flatMap_right _ fun s hs => ?_
        rw [places_of_mem_targetSteps hs, List.flatMap_singleton, Place.places, places_eq_cons,
          List.map_cons]
        exact (List.nil_sublist _).cons_cons _
      have hvisible : ((t.visible .whole).flatMap Place.origins).Sublist
          ((t.steps .whole).flatMap fun s => s.places.flatMap Place.places) := by
        rw [← List.flatMap_assoc, ← visible_eq_flatMap]
        refine List.Sublist.flatMap_right _ fun p hp => ?_
        exact (ih p hp (h.of_at? (at?_of_reaches (reaches_of_mem_visible hp)))).map _
      rw [List.flatMap_append] at hinner
      rw [origins_eq_cons, places_eq_cons]
      exact ((htarget.append hvisible).trans hinner).cons_cons _

end Concrete

namespace Code

open Concrete

/-!
# Nodes and their origins
-/

/-- A node of code that comes from a node of a concrete tree: it was read from there, or it stands
for the target there. -/
inductive ComesFrom (source : List UInt8) (c : Code) (n : Concrete) : Prop where
  | read (stack : Stack) : read source stack n = some c → ComesFrom source c n
  | target : c = ofTarget source n → ComesFrom source c n

theorem line_convert (source : List UInt8) (t : Concrete) :
    (convert source t).line = some t.line := by
  refine convert_cases (motive := fun c => c.line = some t.line) source t (fun _ => rfl)
    (fun _ => rfl) (fun _ => rfl) (fun _ => rfl) (fun _ => rfl) (fun _ _ _ _ _ _ => rfl)
    (fun _ _ _ _ _ => rfl) (fun _ => rfl) (fun _ _ _ => rfl) (fun _ => rfl)

theorem ComesFrom.line {source : List UInt8} {c : Code} {n : Concrete}
    (h : ComesFrom source c n) : c.line = some n.line := by
  cases h with
  | read stack hread =>
      rw [read_eq] at hread
      cases (Option.ite_none_right_eq_some.mp hread).right
      exact line_convert source n
  | target htarget =>
      rw [htarget]
      rfl

theorem children_convert (source : List UInt8) (t : Concrete) :
    (convert source t).children =
      (t.targetSteps.flatMap Step.places).map (fun p => ofTarget source p.node) ++
        convertAll source (t.visible .whole) := by
  have hkind := kind_convert source t
  rcases children_convert_cases source t with
    ⟨hother, hchildren⟩ | ⟨left, value, hleft, hcode, hvisible⟩
  · rw [hkind] at hother
    rw [targetSteps, if_neg hother, hchildren]
    rfl
  · have hassignment : kindOf t = .assignment := by
      rw [← hkind, hcode]
      rfl
    rcases fieldSteps_cases .whole "left" t with ⟨hnone, _⟩ | ⟨c, index, hchild, hstep⟩
    · rw [hnone] at hleft
      cases hleft
    · rw [hchild] at hleft
      cases hleft
      rw [targetSteps, if_pos hassignment, hstep, hvisible, hcode]
      rfl

/-- A walk through code that was read sees one node for every origin, and in their order. -/
theorem forall₂_walk_origins (source : List UInt8) (t : Concrete) :
    List.Forall₂ (fun c p => ComesFrom source c p.node) (convert source t).walk t.origins := by
  induction t using visited.induct with
  | case1 t ih =>
      rw [walk_eq_cons, children_convert, List.flatMap_append, origins_eq_cons]
      refine List.Forall₂.cons (ComesFrom.read _ (read_convert source t))
        (List.rel_append ?_ ?_)
      · -- a target has no children, so that a walk sees only itself there
        rw [List.flatMap_map]
        have htarget : ∀ p : Place, (ofTarget source p.node).walk = [ofTarget source p.node] := by
          intro p
          rw [walk_eq_cons]
          rfl
        simp only [htarget]
        rw [← List.map_eq_flatMap, List.forall₂_map_left_iff]
        exact List.forall₂_same.mpr fun p _ => ComesFrom.target rfl
      · rw [convertAll, List.flatMap_map]
        refine Lists.forall₂_flatMap fun p hp => ?_
        rw [Place.origins, List.forall₂_map_right_iff]
        exact ih p hp

/-!
# Lines
-/

def LinesGrow (lines : List (Option Int)) : Prop :=
  ∃ numbers : List Int, lines = numbers.map some ∧ numbers.Pairwise (· ≤ ·)

theorem LinesGrow.sublist {l r : List (Option Int)} (h : l.Sublist r) (hr : LinesGrow r) :
    LinesGrow l := by
  rcases hr with ⟨numbers, rfl, hgrow⟩
  rcases List.sublist_map_iff.mp h with ⟨part, hpart, rfl⟩
  exact ⟨part, rfl, hgrow.sublist hpart⟩

theorem map_line_walk (source : List UInt8) (t : Concrete) :
    (convert source t).walk.map Code.line = (t.origins.map fun p => p.node.line).map some := by
  rw [List.map_map, ← List.forall₂_eq_eq_eq, List.forall₂_map_left_iff,
    List.forall₂_map_right_iff]
  exact (forall₂_walk_origins source t).imp fun _ _ h => h.line

theorem linesGrow_walk (source : List UInt8) {t : Concrete} (hordered : t.IsOrdered)
    (hrows : (t.places.map fun p => p.node.label.row).Pairwise (· ≤ ·)) :
    LinesGrow ((convert source t).walk.map Code.line) := by
  refine ⟨_, map_line_walk source t, ?_⟩
  have hsublist := origins_sublist_places t hordered
  have horigins := (List.pairwise_map.mp hrows).sublist hsublist
  refine List.pairwise_map.mpr (horigins.imp ?_)
  intro p q hle
  exact Int.add_le_add_right (Int.ofNat_le.mpr hle) 1

theorem line_of_idleTask? {exclusions : Exclusions} {file : String} {c : Code} {task : IdleTask}
    (h : c.idleTask? exclusions file = some task) : task.line = c.line := by
  unfold idleTask? at h
  split at h
  · cases h
  · split at h
    · cases h
    · cases h
      rfl

theorem map_line_idleTasks_sublist (exclusions : Exclusions) (file : String) (code : Code) :
    ((code.idleTasks exclusions file).map IdleTask.line).Sublist (code.walk.map Code.line) := by
  rw [idleTasks]
  induction code.walk with
  | nil =>
      exact List.Sublist.refl _
  | cons c rest ih =>
      rw [List.filterMap_cons, List.map_cons]
      cases htask : c.idleTask? exclusions file with
      | none =>
          exact ih.cons _
      | some task =>
          dsimp only
          rw [List.map_cons, line_of_idleTask? htask]
          exact ih.cons_cons _

/-- The nodes that a walk through code sees come from different nodes of the concrete tree, and
have their lines; so there are no more of them than nodes of the tree.  Where calls and assignments
have their parts in order, the nodes come in the order of the concrete tree; and when the rows do
not decrease there, the lines of the code do not decrease, nor do those of the idle tasks. -/
theorem read_origins {source : List UInt8} {stack : Stack} {t : Concrete} {code : Code}
    (h : read source stack t = some code) :
    ∃ origins : List Place,
      List.Forall₂ (fun c p => ComesFrom source c p.node ∧
        c.line = some (Int.ofNat p.node.label.row + 1)) code.walk origins ∧
      (∀ p ∈ origins, t.at? p.position = some p.node) ∧
      (origins.map Place.position).Nodup ∧
      code.walk.length ≤ t.places.length ∧
      (t.IsOrdered → origins.Sublist t.places ∧
        ((t.places.map fun p => p.node.label.row).Pairwise (· ≤ ·) →
          LinesGrow (code.walk.map Code.line) ∧
          ∀ levels, stack.room ≤ 2 * levels + 1 → ∀ exclusions file,
            ∃ tasks, code.idleTasks? levels exclusions file = some tasks ∧
              LinesGrow (tasks.map IdleTask.line))) := by
  rw [read_eq] at h
  rcases Option.ite_none_right_eq_some.mp h with ⟨hroom, hcode⟩
  cases hcode
  have hwalk := forall₂_walk_origins source t
  refine ⟨t.origins, hwalk.imp fun _ _ hfrom => ⟨hfrom, hfrom.line⟩,
    fun p hp => at?_of_mem_origins hp, nodup_position_origins t, ?_, ?_⟩
  · have hsubset : t.origins.map Place.position ⊆ t.places.map Place.position :=
      List.map_subset _ fun p hp => mem_places_iff.mpr (at?_of_mem_origins hp)
    have hlength := (List.subperm_of_subset (nodup_position_origins t) hsubset).length_le
    rw [hwalk.length_eq]
    simpa using hlength
  · intro hordered
    refine ⟨origins_sublist_places t hordered, fun hrows => ?_⟩
    have hgrow := linesGrow_walk source hordered hrows
    refine ⟨hgrow, fun levels hlevels exclusions file =>
      ⟨_, idleTasks?_convert (Nat.le_trans hroom hlevels) exclusions file, ?_⟩⟩
    exact hgrow.sublist (map_line_idleTasks_sublist exclusions file _)

/-- The tree of an assignment and of a task in which another is declared. -/
def nestedTasks : Concrete :=
  let node kind field start stop row children : Concrete :=
    ⟨⟨kind, field, true, false, false, start, stop, row⟩, children⟩
  node "program" none 0 35 0 [
    node "assignment" none 0 9 0 [
      node "identifier" (some "left") 0 1 0 [],
      node "identifier" (some "right") 4 9 0 []],
    node "call" none 10 34 1 [
      node "identifier" (some "method") 10 14 1 [],
      node "argument_list" (some "arguments") 15 17 1 [node "simple_symbol" none 15 17 1 []],
      node "do_block" (some "block") 18 34 1 [
        node "body_statement" (some "body") 23 30 2 [
          node "call" none 23 30 2 [
            node "identifier" (some "method") 23 27 2 [],
            node "argument_list" (some "arguments") 28 30 2 [
              node "simple_symbol" none 28 30 2 []]]]]]]

theorem read_origins_nestedTasks :
    nestedTasks.IsOrdered ∧ (nestedTasks.places.map fun p => p.node.label.row).Pairwise (· ≤ ·) ∧
      nestedTasks.places.length = 14 ∧
      ∃ code, read (Utf8.encode "x = fetch\ntask :a do\n  task :b\nend\n") ⟨30, 3, 1⟩
          nestedTasks = some code ∧
        (code.walk.map Code.line) = [1, 1, 1, 1, 2, 2, 2, 3, 3].map some ∧
        code.walk.length ≤ 14 ∧
        ∃ tasks, code.idleTasks? 15 {} "a.rake" = some tasks ∧
          LinesGrow (tasks.map IdleTask.line) := by
  have hordered : nestedTasks.IsOrdered := by
    decide +kernel
  have hrows : (nestedTasks.places.map fun p => p.node.label.row).Pairwise (· ≤ ·) := by
    decide +kernel
  have hlines : (read (Utf8.encode "x = fetch\ntask :a do\n  task :b\nend\n") ⟨30, 3, 1⟩
      nestedTasks).map (fun code => code.walk.map Code.line) =
      some ([1, 1, 1, 1, 2, 2, 2, 3, 3].map some) := by
    decide +kernel
  rcases Option.map_eq_some_iff.mp hlines with ⟨code, hread, hwalk⟩
  rcases read_origins hread with ⟨origins, _, _, _, hlength, hgrow⟩
  exact ⟨hordered, hrows, rfl, code, hread, hwalk, hlength,
    ((hgrow hordered).right hrows).right 15 (by decide) {} "a.rake"⟩

end Code
end UsecaseAudit
