import Mathlib.Data.List.Nodup
import Mathlib.Data.List.Perm.Basic
import UsecaseAudit.Code.Reading

/-!
# Visited places of a concrete tree

Reading does not go everywhere in a concrete tree.  From a node it goes on to
some of the children, in an order of its own: to the statements of a body, to
the receiver, the arguments and the block of a call, to the value of an
assignment, to the scope of a constant.  A child that only wraps statements is
not read itself; reading goes through it to the statements in it.

This module says where reading goes without saying what it makes of the nodes.
A place is a node together with its position, the indexes of the children on
the way to it.  The places are listed in the order of reading, each once.
-/

namespace UsecaseAudit
namespace Concrete

/-!
# Steps to children
-/

/-- How a child is read: as a node of its own, or only for the statements in it. -/
inductive Manner where
  | whole
  | body
  deriving DecidableEq, Repr

structure Step where
  index : Nat
  manner : Manner
  child : Concrete

def manner (t : Concrete) : Manner :=
  if t.isBody then .body else .whole

def statementSteps (apart : List String) (t : Concrete) : List Step :=
  (t.children.zipIdx.filter fun c => !c.1.isSilent && !standsIn apart c.1).map fun c =>
    ⟨c.2, c.1.manner, c.1⟩

def fieldSteps (manner : Manner) (field : String) (t : Concrete) : List Step :=
  ((t.children.zipIdx.find? fun c => c.1.label.field == some field).map fun c =>
    ⟨c.2, manner, c.1⟩).toList

def fieldIndex? (t : Concrete) (field : String) : Option Nat :=
  t.children.findIdx? fun c => c.label.field == some field

def isPlainAssignment (t : Concrete) : Bool :=
  match t.child? "left", t.child? "right" with
  | some left, some _ => left.isTarget
  | _, _ => false

def isLiteral (t : Concrete) : Bool :=
  (t.children.filter fun c => c.label.named).all fun c =>
    c.kind == "string_content" || c.kind == "escape_sequence"

def endsInConstant (t : Concrete) : Bool :=
  match t.child? "name" with
  | none => false
  | some name => name.kind == "constant"

def steps (t : Concrete) : Manner → List Step
  | .body => t.statementSteps []
  | .whole =>
      match t.form with
      | .classDef => t.statementSteps ["name"]
      | .methodDef => t.statementSteps ["name", "parameters"]
      | .call =>
          t.fieldSteps .whole "receiver" ++ t.fieldSteps .body "arguments"
            ++ t.fieldSteps .whole "block"
      | .identifier => []
      | .block => t.statementSteps []
      | .assignment =>
          if t.isPlainAssignment then t.fieldSteps .whole "right" else t.statementSteps []
      | .plainSymbol => []
      | .quotedSymbol => if t.isLiteral then [] else t.statementSteps []
      | .string => if t.isLiteral then [] else t.statementSteps []
      | .constant => []
      | .scopePath => if t.endsInConstant then t.fieldSteps .whole "scope" else t.statementSteps []
      | .other => t.statementSteps []

theorem getElem?_of_mem_statementSteps {apart : List String} {t : Concrete} {s : Step}
    (hs : s ∈ t.statementSteps apart) : t.children[s.index]? = some s.child := by
  rcases List.mem_map.mp hs with ⟨c, hc, rfl⟩
  exact List.mem_zipIdx_iff_getElem?.mp (List.mem_filter.mp hc).left

theorem getElem?_of_mem_fieldSteps {manner : Manner} {field : String} {t : Concrete} {s : Step}
    (hs : s ∈ t.fieldSteps manner field) : t.children[s.index]? = some s.child := by
  rcases Option.map_eq_some_iff.mp (Option.mem_toList.mp hs) with ⟨c, hc, rfl⟩
  exact List.mem_zipIdx_iff_getElem?.mp (List.mem_of_find?_eq_some hc)

theorem fieldIndex?_of_mem_fieldSteps {m : Manner} {field : String} {t : Concrete} {s : Step}
    (hs : s ∈ t.fieldSteps m field) : t.fieldIndex? field = some s.index := by
  rcases Option.map_eq_some_iff.mp (Option.mem_toList.mp hs) with ⟨c, hc, rfl⟩
  rw [fieldIndex?, List.findIdx?_eq_fst_find?_zipIdx]
  exact congrArg (Option.map Prod.snd) hc

theorem field_of_mem_fieldSteps {manner : Manner} {field : String} {t : Concrete} {s : Step}
    (hs : s ∈ t.fieldSteps manner field) : s.child.label.field = some field := by
  rcases Option.map_eq_some_iff.mp (Option.mem_toList.mp hs) with ⟨c, hc, rfl⟩
  have hfield := List.find?_some hc
  exact beq_iff_eq.mp hfield

/-- Every list of steps is one of four kinds: statements, nothing, one field, or a call's three. -/
theorem steps_cases {motive : List Step → Prop} (t : Concrete) (m : Manner)
    (statements : ∀ apart, motive (t.statementSteps apart))
    (nothing : motive [])
    (field : ∀ name, motive (t.fieldSteps .whole name))
    (call : t.form = .call → motive (t.fieldSteps .whole "receiver"
      ++ t.fieldSteps .body "arguments" ++ t.fieldSteps .whole "block")) :
    motive (t.steps m) := by
  cases m with
  | body =>
      exact statements []
  | whole =>
      unfold steps
      cases hform : t.form with
      | classDef => exact statements _
      | methodDef => exact statements _
      | call => exact call hform
      | identifier => exact nothing
      | block => exact statements _
      | assignment =>
          dsimp only
          split
          · exact field _
          · exact statements _
      | plainSymbol => exact nothing
      | quotedSymbol =>
          dsimp only
          split
          · exact nothing
          · exact statements _
      | string =>
          dsimp only
          split
          · exact nothing
          · exact statements _
      | constant => exact nothing
      | scopePath =>
          dsimp only
          split
          · exact field _
          · exact statements _
      | other => exact statements _

theorem getElem?_of_mem_steps {t : Concrete} {m : Manner} {s : Step}
    (hs : s ∈ t.steps m) : t.children[s.index]? = some s.child := by
  revert hs
  refine steps_cases (motive := fun l => s ∈ l → t.children[s.index]? = some s.child) t m
    ?_ ?_ ?_ ?_
  · intro apart hs
    exact getElem?_of_mem_statementSteps hs
  · intro hs
    cases hs
  · intro name hs
    exact getElem?_of_mem_fieldSteps hs
  · intro _ hs
    rcases List.mem_append.mp hs with hs | hs
    · rcases List.mem_append.mp hs with hs | hs
      · exact getElem?_of_mem_fieldSteps hs
      · exact getElem?_of_mem_fieldSteps hs
    · exact getElem?_of_mem_fieldSteps hs

theorem sizeOf_lt_of_mem_children {t c : Concrete} (hc : c ∈ t.children) :
    sizeOf c < sizeOf t := by
  have hlt := List.sizeOf_lt_of_mem hc
  cases t
  dsimp only at hlt
  simp only [Concrete.mk.sizeOf_spec]
  omega

theorem sizeOf_child_lt {t : Concrete} {m : Manner} {s : Step} (hs : s ∈ t.steps m) :
    sizeOf s.child < sizeOf t :=
  sizeOf_lt_of_mem_children (List.mem_of_getElem? (getElem?_of_mem_steps hs))

theorem nodup_index_statementSteps (apart : List String) (t : Concrete) :
    ((t.statementSteps apart).map Step.index).Nodup := by
  have hsub : List.Sublist ((t.statementSteps apart).map Step.index)
      (t.children.zipIdx.map Prod.snd) := by
    rw [statementSteps, List.map_map]
    exact List.Sublist.map _ List.filter_sublist
  rw [List.zipIdx_map_snd] at hsub
  exact List.Nodup.sublist hsub List.nodup_range'

theorem nodup_index_fieldSteps (m : Manner) (field : String) (t : Concrete) :
    ((t.fieldSteps m field).map Step.index).Nodup := by
  unfold fieldSteps
  cases t.children.zipIdx.find? fun c => c.1.label.field == some field with
  | none =>
      exact List.nodup_nil
  | some c =>
      exact List.nodup_singleton _

theorem index_ne_of_field_ne {m m' : Manner} {field field' : String} {t : Concrete}
    {s s' : Step} (hs : s ∈ t.fieldSteps m field) (hs' : s' ∈ t.fieldSteps m' field')
    (hne : field ≠ field') : s.index ≠ s'.index := by
  intro hindex
  have hchild := getElem?_of_mem_fieldSteps hs
  rw [hindex, getElem?_of_mem_fieldSteps hs'] at hchild
  have hfield := field_of_mem_fieldSteps hs'
  rw [Option.some.inj hchild, field_of_mem_fieldSteps hs] at hfield
  exact hne (Option.some.inj hfield)

theorem nodup_index_steps (t : Concrete) (m : Manner) :
    ((t.steps m).map Step.index).Nodup := by
  refine steps_cases (motive := fun l => (l.map Step.index).Nodup) t m ?_ ?_ ?_ ?_
  · intro apart
    exact nodup_index_statementSteps apart t
  · exact List.nodup_nil
  · intro name
    exact nodup_index_fieldSteps .whole name t
  · -- the three fields of a call are filled by three different children
    intro _
    rw [List.map_append, List.map_append, List.nodup_append, List.nodup_append]
    refine ⟨⟨nodup_index_fieldSteps _ _ t, nodup_index_fieldSteps _ _ t, ?_⟩,
      nodup_index_fieldSteps _ _ t, ?_⟩
    · intro i hi j hj
      rcases List.mem_map.mp hi with ⟨s, hs, rfl⟩
      rcases List.mem_map.mp hj with ⟨s', hs', rfl⟩
      exact index_ne_of_field_ne hs hs' (by decide)
    · intro i hi j hj
      rcases List.mem_map.mp hj with ⟨s', hs', rfl⟩
      rcases List.mem_append.mp hi with hi | hi
      · rcases List.mem_map.mp hi with ⟨s, hs, rfl⟩
        exact index_ne_of_field_ne hs hs' (by decide)
      · rcases List.mem_map.mp hi with ⟨s, hs, rfl⟩
        exact index_ne_of_field_ne hs hs' (by decide)

/-!
# Places
-/

abbrev Position := List Nat

structure Place where
  position : Position
  node : Concrete

def Place.under (outer : Position) (p : Place) : Place :=
  { p with position := outer ++ p.position }

def at? : Concrete → Position → Option Concrete
  | t, [] => some t
  | t, index :: rest => t.children[index]?.bind fun c => c.at? rest

/-- The places that are read next: the steps, where a body gives way to what is read in it. -/
def visible (m : Manner) (t : Concrete) : List Place :=
  (t.steps m).attach.flatMap fun ⟨s, _hs⟩ =>
    match s.manner with
    | .whole => [⟨[s.index], s.child⟩]
    | .body => (visible .body s.child).map (Place.under [s.index])
termination_by sizeOf t
decreasing_by
  exact sizeOf_child_lt _hs

def Step.places (s : Step) : List Place :=
  match s.manner with
  | .whole => [⟨[s.index], s.child⟩]
  | .body => (visible .body s.child).map (Place.under [s.index])

theorem visible_eq_flatMap (m : Manner) (t : Concrete) :
    t.visible m = (t.steps m).flatMap Step.places := by
  rw [visible]
  simp only [List.flatMap_subtype, List.unattach_attach]
  rfl

theorem Step.places_whole {s : Step} (hm : s.manner = .whole) :
    s.places = [⟨[s.index], s.child⟩] := by
  rw [Step.places, hm]

theorem Step.places_body {s : Step} (hm : s.manner = .body) :
    s.places = (visible .body s.child).map (Place.under [s.index]) := by
  rw [Step.places, hm]

/-- A position is reached when only bodies lie on the way to it. -/
inductive Reaches : Manner → Concrete → Position → Concrete → Prop where
  | whole {m : Manner} {t : Concrete} {s : Step} :
      s ∈ t.steps m → s.manner = .whole → Reaches m t [s.index] s.child
  | body {m : Manner} {t : Concrete} {s : Step} {inner : Position} {c : Concrete} :
      s ∈ t.steps m → s.manner = .body → Reaches .body s.child inner c →
      Reaches m t (s.index :: inner) c

theorem sizeOf_lt_of_reaches {m : Manner} {t c : Concrete} {position : Position}
    (h : Reaches m t position c) : sizeOf c < sizeOf t := by
  induction h with
  | whole hs _ =>
      exact sizeOf_child_lt hs
  | body hs _ _ ih =>
      exact Nat.lt_trans ih (sizeOf_child_lt hs)

theorem reaches_of_mem_visible {m : Manner} {t : Concrete} {p : Place}
    (hp : p ∈ t.visible m) : Reaches m t p.position p.node := by
  induction m, t using visible.induct generalizing p with
  | case1 m t ih =>
      rw [visible_eq_flatMap] at hp
      rcases List.mem_flatMap.mp hp with ⟨s, hs, hp⟩
      cases hm : s.manner with
      | whole =>
          rw [Step.places_whole hm] at hp
          rw [List.mem_singleton.mp hp]
          exact Reaches.whole hs hm
      | body =>
          rw [Step.places_body hm] at hp
          rcases List.mem_map.mp hp with ⟨q, hq, rfl⟩
          exact Reaches.body hs hm (ih s hs hq)

theorem mem_visible_of_reaches {m : Manner} {t c : Concrete} {position : Position}
    (h : Reaches m t position c) : ⟨position, c⟩ ∈ t.visible m := by
  induction h with
  | whole hs hm =>
      rw [visible_eq_flatMap]
      refine List.mem_flatMap.mpr ⟨_, hs, ?_⟩
      rw [Step.places_whole hm]
      exact List.mem_singleton.mpr rfl
  | body hs hm _ ih =>
      rw [visible_eq_flatMap]
      refine List.mem_flatMap.mpr ⟨_, hs, ?_⟩
      rw [Step.places_body hm]
      exact List.mem_map.mpr ⟨_, ih, rfl⟩

theorem sizeOf_lt_of_mem_visible {m : Manner} {t : Concrete} {p : Place}
    (hp : p ∈ t.visible m) : sizeOf p.node < sizeOf t :=
  sizeOf_lt_of_reaches (reaches_of_mem_visible hp)

def visited (t : Concrete) : List Place :=
  ⟨[], t⟩ :: (t.visible .whole).attach.flatMap fun ⟨p, _hp⟩ =>
    (visited p.node).map (Place.under p.position)
termination_by sizeOf t
decreasing_by
  exact sizeOf_lt_of_mem_visible _hp

def Place.visited (p : Place) : List Place :=
  p.node.visited.map (Place.under p.position)

theorem visited_eq_cons (t : Concrete) :
    t.visited = ⟨[], t⟩ :: (t.visible .whole).flatMap Place.visited := by
  rw [visited]
  simp only [List.flatMap_subtype, List.unattach_attach]
  rfl

/-- A position is visited when it is reached from the root in some number of readings. -/
inductive Visits : Concrete → Position → Concrete → Prop where
  | here (t : Concrete) : Visits t [] t
  | onward {t c n : Concrete} {outer inner : Position} :
      Reaches .whole t outer c → Visits c inner n → Visits t (outer ++ inner) n

theorem visits_of_mem_visited {t : Concrete} {p : Place} (hp : p ∈ t.visited) :
    Visits t p.position p.node := by
  induction t using visited.induct generalizing p with
  | case1 t ih =>
      rw [visited_eq_cons] at hp
      cases hp with
      | head =>
          exact Visits.here t
      | tail _ hp =>
          rcases List.mem_flatMap.mp hp with ⟨q, hq, hp⟩
          rcases List.mem_map.mp hp with ⟨r, hr, rfl⟩
          exact Visits.onward (reaches_of_mem_visible hq) (ih q hq hr)

theorem mem_visited_of_visits {t n : Concrete} {position : Position}
    (h : Visits t position n) : ⟨position, n⟩ ∈ t.visited := by
  induction h with
  | here t =>
      rw [visited_eq_cons]
      exact List.mem_cons_self
  | onward hreach _ ih =>
      rw [visited_eq_cons]
      refine List.mem_cons_of_mem _ (List.mem_flatMap.mpr ?_)
      exact ⟨_, mem_visible_of_reaches hreach, List.mem_map.mpr ⟨_, ih, rfl⟩⟩

/-!
# A position is the way to its node
-/

theorem at?_append {t c : Concrete} {outer : Position} (inner : Position)
    (h : t.at? outer = some c) : t.at? (outer ++ inner) = c.at? inner := by
  induction outer generalizing t with
  | nil =>
      rw [List.nil_append, Option.some.inj h]
  | cons index rest ih =>
      rw [at?] at h
      rcases Option.bind_eq_some_iff.mp h with ⟨d, hd, hrest⟩
      rw [List.cons_append, at?, hd]
      exact ih hrest

theorem at?_of_mem_steps {t : Concrete} {m : Manner} {s : Step} (hs : s ∈ t.steps m) :
    t.at? [s.index] = some s.child := by
  rw [at?, getElem?_of_mem_steps hs]
  rfl

theorem at?_of_reaches {m : Manner} {t c : Concrete} {position : Position}
    (h : Reaches m t position c) : t.at? position = some c := by
  induction h with
  | whole hs _ =>
      exact at?_of_mem_steps hs
  | body hs _ _ ih =>
      exact (at?_append _ (at?_of_mem_steps hs)).trans ih

theorem at?_of_visits {t n : Concrete} {position : Position} (h : Visits t position n) :
    t.at? position = some n := by
  induction h with
  | here t =>
      rfl
  | onward hreach _ ih =>
      exact (at?_append _ (at?_of_reaches hreach)).trans ih

/-!
# No place is visited twice

Two places that are read next lie apart: no continuation of one position is a
continuation of the other.  So the places below them are different too.
-/

/-- No continuation of one position is a continuation of the other. -/
def Apart (p q : Position) : Prop :=
  ∀ u v : Position, p ++ u ≠ q ++ v

theorem apart_cons_of_ne {i j : Nat} (hne : i ≠ j) (p q : Position) :
    Apart (i :: p) (j :: q) := by
  intro u v heq
  exact hne (List.cons.inj heq).left

theorem apart_cons {p q : Position} (i : Nat) (h : Apart p q) : Apart (i :: p) (i :: q) := by
  intro u v heq
  exact h u v (List.cons.inj heq).right

theorem position_of_mem_places {s : Step} {p : Place} (hp : p ∈ s.places) :
    ∃ rest, p.position = s.index :: rest := by
  cases hm : s.manner with
  | whole =>
      rw [Step.places_whole hm] at hp
      rw [List.mem_singleton.mp hp]
      exact ⟨[], rfl⟩
  | body =>
      rw [Step.places_body hm] at hp
      rcases List.mem_map.mp hp with ⟨q, _, rfl⟩
      exact ⟨q.position, rfl⟩

theorem pairwise_apart_visible (m : Manner) (t : Concrete) :
    (t.visible m).Pairwise fun p q => Apart p.position q.position := by
  induction m, t using visible.induct with
  | case1 m t ih =>
      rw [visible_eq_flatMap, List.pairwise_flatMap]
      constructor
      · intro s hs
        cases hm : s.manner with
        | whole =>
            rw [Step.places_whole hm]
            exact List.pairwise_singleton _ _
        | body =>
            rw [Step.places_body hm, List.pairwise_map]
            exact (ih s hs).imp fun h => apart_cons s.index h
      · refine (List.pairwise_map.mp (nodup_index_steps t m)).imp ?_
        intro s s' hne p hp q hq
        rcases position_of_mem_places hp with ⟨u, hu⟩
        rcases position_of_mem_places hq with ⟨v, hv⟩
        rw [hu, hv]
        exact apart_cons_of_ne hne u v

theorem position_ne_nil_of_mem_visible {m : Manner} {t : Concrete} {p : Place}
    (hp : p ∈ t.visible m) : p.position ≠ [] := by
  rw [visible_eq_flatMap] at hp
  rcases List.mem_flatMap.mp hp with ⟨s, _, hp⟩
  rcases position_of_mem_places hp with ⟨rest, hrest⟩
  rw [hrest]
  exact List.cons_ne_nil _ _

theorem nodup_position_flatMap {l : List Place} {f : Concrete → List Place}
    (hapart : l.Pairwise fun p q => Apart p.position q.position)
    (hf : ∀ p ∈ l, ((f p.node).map Place.position).Nodup) :
    ((l.flatMap fun p => (f p.node).map (Place.under p.position)).map Place.position).Nodup := by
  rw [List.map_flatMap, List.nodup_flatMap]
  have hposition : ∀ p : Place, ((f p.node).map (Place.under p.position)).map Place.position =
      ((f p.node).map Place.position).map (p.position ++ ·) := by
    intro p
    rw [List.map_map, List.map_map]
    rfl
  constructor
  · intro p hp
    rw [hposition]
    exact (hf p hp).map fun _ _ heq => List.append_cancel_left heq
  · refine hapart.imp ?_
    intro p q hpq position hp hq
    dsimp only at hp hq
    rw [hposition] at hp hq
    rcases List.mem_map.mp hp with ⟨u, _, rfl⟩
    rcases List.mem_map.mp hq with ⟨v, _, heq⟩
    exact hpq u v heq.symm

theorem nodup_position_visited (t : Concrete) : (t.visited.map Place.position).Nodup := by
  induction t using visited.induct with
  | case1 t ih =>
      rw [visited_eq_cons, List.map_cons, List.nodup_cons]
      refine ⟨?_, nodup_position_flatMap (pairwise_apart_visible .whole t) ih⟩
      intro hnil
      rcases List.mem_map.mp hnil with ⟨q, hq, hnil⟩
      rcases List.mem_flatMap.mp hq with ⟨p, hp, hq⟩
      rcases List.mem_map.mp hq with ⟨r, _, rfl⟩
      exact position_ne_nil_of_mem_visible hp (List.append_eq_nil_iff.mp hnil).left

/-!
# Every visited place but the root has one parent
-/

def Place.visible (p : Place) : List Place :=
  (p.node.visible .whole).map (Place.under p.position)

theorem Place.under_under (outer middle : Position) (p : Place) :
    (p.under middle).under outer = p.under (outer ++ middle) := by
  simp [Place.under]

theorem Place.visible_under (outer : Position) (p : Place) :
    (p.under outer).visible = p.visible.map (Place.under outer) := by
  rw [Place.visible, Place.visible, List.map_map]
  exact List.map_congr_left fun q _ => (Place.under_under outer p.position q).symm

theorem Place.visible_root (t : Concrete) : Place.visible ⟨[], t⟩ = t.visible .whole :=
  List.map_id _

theorem Place.visited_eq_cons (p : Place) :
    p.visited =
      p :: ((p.node.visible .whole).flatMap Place.visited).map (Place.under p.position) := by
  rw [Place.visited, Concrete.visited_eq_cons, List.map_cons]
  simp [Place.under]

theorem flatMap_visible_visited (p : Place) :
    p.visited.flatMap Place.visible =
      (p.node.visited.flatMap Place.visible).map (Place.under p.position) := by
  rw [Place.visited, List.flatMap_map, List.map_flatMap]
  exact List.flatMap_congr fun q _ => Place.visible_under p.position q

/-- Listing the places below every visited place lists every visited place but the root. -/
theorem perm_flatMap_visible (t : Concrete) :
    (t.visited.flatMap Place.visible).Perm ((t.visible .whole).flatMap Place.visited) := by
  induction t using visited.induct with
  | case1 t ih =>
      let deeper (p : Place) : List Place :=
        ((p.node.visible .whole).flatMap Place.visited).map (Place.under p.position)
      have hbelow : ∀ p ∈ t.visible .whole,
          (p.visited.flatMap Place.visible).Perm (deeper p) := by
        intro p hp
        rw [flatMap_visible_visited]
        exact (ih p hp).map _
      rw [visited_eq_cons, List.flatMap_cons, Place.visible_root, List.flatMap_assoc]
      have hleft : ((t.visible .whole) ++
          (t.visible .whole).flatMap fun p => p.visited.flatMap Place.visible).Perm
          ((t.visible .whole) ++ (t.visible .whole).flatMap deeper) :=
        (List.Perm.flatMap_left _ hbelow).append_left _
      refine hleft.trans ?_
      have hright := List.map_append_flatMap_perm (t.visible .whole) id deeper
      rw [List.map_id] at hright
      refine hright.trans (List.Perm.of_eq ?_)
      exact List.flatMap_congr fun p _ => (Place.visited_eq_cons p).symm

/-- No place is read next from two visited places, nor twice from one. -/
theorem nodup_position_flatMap_visible (t : Concrete) :
    ((t.visited.flatMap Place.visible).map Place.position).Nodup := by
  have hnodup := nodup_position_visited t
  rw [visited_eq_cons, List.map_cons] at hnodup
  exact ((perm_flatMap_visible t).map _).nodup_iff.mpr (List.nodup_cons.mp hnodup).right

/-!
# All places of a tree
-/

mutual

def places : Concrete → List Place
  | ⟨label, children⟩ => ⟨[], ⟨label, children⟩⟩ :: placesFrom 0 children

def placesFrom (index : Nat) : List Concrete → List Place
  | [] => []
  | c :: rest => c.places.map (Place.under [index]) ++ placesFrom (index + 1) rest

end

def childPlaces (c : Concrete × Nat) : List Place :=
  c.1.places.map (Place.under [c.2])

def innerPlaces (t : Concrete) : List Place :=
  t.children.zipIdx.flatMap childPlaces

theorem placesFrom_eq (index : Nat) (children : List Concrete) :
    placesFrom index children = (children.zipIdx index).flatMap childPlaces := by
  induction children generalizing index with
  | nil =>
      rw [placesFrom]
      rfl
  | cons c rest ih =>
      rw [placesFrom, ih, List.zipIdx_cons, List.flatMap_cons]
      rfl

theorem places_eq_cons (t : Concrete) : t.places = ⟨[], t⟩ :: t.innerPlaces := by
  rcases t with ⟨label, children⟩
  rw [places, placesFrom_eq]
  rfl

theorem mem_places_iff {t n : Concrete} {position : Position} :
    ⟨position, n⟩ ∈ t.places ↔ t.at? position = some n := by
  induction position generalizing t with
  | nil =>
      rw [places_eq_cons, List.mem_cons, at?]
      constructor
      · rintro (hroot | hbelow)
        · cases hroot
          rfl
        · rcases List.mem_flatMap.mp hbelow with ⟨c, _, hplace⟩
          rcases List.mem_map.mp hplace with ⟨q, _, hq⟩
          cases congrArg Place.position hq
      · intro hroot
        cases hroot
        exact Or.inl rfl
  | cons index rest ih =>
      rw [places_eq_cons, List.mem_cons, at?, Option.bind_eq_some_iff]
      constructor
      · rintro (hroot | hbelow)
        · cases congrArg Place.position hroot
        · rcases List.mem_flatMap.mp hbelow with ⟨c, hc, hplace⟩
          rcases List.mem_map.mp hplace with ⟨q, hq, hunder⟩
          cases hunder
          exact ⟨c.1, List.mem_zipIdx_iff_getElem?.mp hc, ih.mp hq⟩
      · rintro ⟨c, hc, hrest⟩
        refine Or.inr (List.mem_flatMap.mpr ⟨(c, index), ?_, ?_⟩)
        · exact List.mem_zipIdx_iff_getElem?.mpr hc
        · exact List.mem_map.mpr ⟨⟨rest, n⟩, ih.mpr hrest, rfl⟩

end Concrete
end UsecaseAudit
