import UsecaseAudit.Proofs.CodeScans

/-!
# Walks in preorder

The preorder of a tree is its node, and then the preorders of its children from
the first to the last.  A walk lists the same nodes without recursion.  In each
round it takes the tree at the end of its stack, lists the node of this tree and
puts the children in its place, in reverse, so that the first of them is next.

The trees on the stack, read from its end, are what the rest of the preorder
lists.  Since a round lists one node, a walk ends after as many rounds as nodes
occur in the tree, however deep the tree is.
-/

namespace UsecaseAudit
namespace Code

open Concrete (Position)

/-!
# The recursive listing
-/

mutual

def preorder : Code → List Code
  | ⟨kind, line, name, value, receiver, arguments, block, scope, children⟩ =>
      ⟨kind, line, name, value, receiver, arguments, block, scope, children⟩ ::
        preorderAll children

def preorderAll : List Code → List Code
  | [] => []
  | c :: rest => c.preorder ++ preorderAll rest

end

mutual

/-- How many nodes occur in a tree; a subtree counts at each of its occurrences. -/
def nodeCount : Code → Nat
  | ⟨_, _, _, _, _, _, _, _, children⟩ => nodeCountAll children + 1

def nodeCountAll : List Code → Nat
  | [] => 0
  | c :: rest => c.nodeCount + nodeCountAll rest

end

theorem preorder_eq_cons (c : Code) : c.preorder = c :: preorderAll c.children := by
  cases c
  rw [preorder]

theorem preorderAll_eq_flatMap (xs : List Code) : preorderAll xs = xs.flatMap preorder := by
  induction xs with
  | nil =>
      rw [preorderAll]
      rfl
  | cons c xs ih =>
      rw [preorderAll, ih, List.flatMap_cons]

theorem nodeCount_eq_succ (c : Code) : c.nodeCount = nodeCountAll c.children + 1 := by
  cases c
  rw [nodeCount]

theorem length_preorderAll {xs : List Code} (h : ∀ c ∈ xs, c.preorder.length = c.nodeCount) :
    (preorderAll xs).length = nodeCountAll xs := by
  induction xs with
  | nil =>
      rw [preorderAll, nodeCountAll]
      rfl
  | cons c xs ih =>
      rw [List.forall_mem_cons] at h
      rw [preorderAll, nodeCountAll, List.length_append, h.left, ih h.right]

theorem length_preorder (c : Code) : c.preorder.length = c.nodeCount := by
  induction c using induction_on_children with
  | step c ih =>
      rw [preorder_eq_cons, nodeCount_eq_succ, List.length_cons, length_preorderAll ih]

theorem walk_eq_preorder (c : Code) : c.walk = c.preorder := by
  induction c using induction_on_children with
  | step c ih =>
      rw [walk_eq_cons, preorder_eq_cons, preorderAll_eq_flatMap, List.flatMap_congr ih]

/-!
# Rounds of a walk
-/

theorem walkAll_eq_nil_iff {stack : List Code} : walkAll stack = [] ↔ stack = [] := by
  cases stack with
  | nil => simp [walkAll]
  | cons c rest => simp [walkAll]

/-- A walk on its way: the nodes that it has listed, and the trees that wait, the next one last. -/
structure WalkState where
  listed : List Code
  stack : List Code

namespace WalkState

def start (c : Code) : WalkState :=
  { listed := [], stack := [c] }

/-- One round: the tree at the end of the stack gives way to its children, the first of them last.
There is none when no tree waits. -/
def next? (s : WalkState) : Option WalkState :=
  s.stack.getLast?.map fun c =>
    { listed := s.listed ++ [c], stack := s.stack.dropLast ++ c.children.reverse }

def after : (rounds : Nat) → WalkState → Option WalkState
  | 0, s => some s
  | rounds + 1, s => s.next?.bind (after rounds)

def outcome (s : WalkState) : List Code :=
  s.listed ++ walkAll s.stack.reverse

theorem next?_eq_some_iff {s s' : WalkState} :
    s.next? = some s' ↔ ∃ below c, s.stack = below ++ [c] ∧
      s' = { listed := s.listed ++ [c], stack := below ++ c.children.reverse } := by
  rcases s with ⟨listed, stack⟩
  rcases List.eq_nil_or_concat' stack with rfl | ⟨below, c, rfl⟩
  · simp [next?]
  · constructor
    · intro h
      exists below, c
      constructor
      · rfl
      · simpa [next?] using h.symm
    · intro h
      rcases h with ⟨below', c', hstack, rfl⟩
      rcases List.append_inj' hstack rfl with ⟨rfl, hlast⟩
      cases hlast
      simp [next?]

theorem outcome_next? {s s' : WalkState} (h : s.next? = some s') :
    s'.outcome = s.outcome ∧ s'.listed.length = s.listed.length + 1 := by
  rcases next?_eq_some_iff.mp h with ⟨below, c, hstack, rfl⟩
  constructor
  · -- the children come to stand before the trees below them once the stack is read from its end
    rw [outcome, outcome, hstack, List.reverse_append, List.reverse_append, List.reverse_reverse,
      List.reverse_singleton, List.singleton_append, walkAll, List.append_assoc]
    rfl
  · rw [List.length_append, List.length_singleton]

theorem outcome_after {rounds : Nat} {s s' : WalkState} (h : after rounds s = some s') :
    s'.outcome = s.outcome ∧ s'.listed.length = s.listed.length + rounds := by
  induction rounds generalizing s with
  | zero =>
      cases h
      exact ⟨rfl, rfl⟩
  | succ rounds ih =>
      rcases Option.bind_eq_some_iff.mp h with ⟨middle, hnext, hafter⟩
      rcases outcome_next? hnext with ⟨hfirst, hlength⟩
      rcases ih hafter with ⟨hrest, hlength'⟩
      constructor
      · exact hrest.trans hfirst
      · rw [hlength', hlength, Nat.add_assoc, Nat.add_comm 1 rounds]

theorem exists_after {rounds : Nat} {s : WalkState}
    (h : rounds ≤ (walkAll s.stack.reverse).length) : ∃ s', after rounds s = some s' := by
  induction rounds generalizing s with
  | zero =>
      exact ⟨s, rfl⟩
  | succ rounds ih =>
      have hstack : s.stack ≠ [] := by
        intro hnil
        rw [hnil, List.reverse_nil, walkAll_eq_nil_iff.mpr rfl] at h
        exact Nat.not_succ_le_zero rounds h
      obtain ⟨middle, hnext⟩ : ∃ middle, s.next? = some middle :=
        ⟨_, next?_eq_some_iff.mpr ⟨_, _, (List.dropLast_append_getLast hstack).symm, rfl⟩⟩
      rcases outcome_next? hnext with ⟨houtcome, hlisted⟩
      have hlength := congrArg List.length houtcome
      rw [outcome, outcome, List.length_append, List.length_append, hlisted] at hlength
      rcases ih (show rounds ≤ (walkAll middle.stack.reverse).length by omega) with ⟨s', hafter⟩
      exact ⟨s', Option.bind_eq_some_iff.mpr ⟨middle, hnext, hafter⟩⟩

/-- After any number of rounds a walk has listed as many nodes of the whole listing, and the stack
holds the trees of all others. -/
theorem after_start {c : Code} {rounds : Nat} (h : rounds ≤ c.walk.length) :
    ∃ stack, after rounds (start c) = some ⟨c.walk.take rounds, stack⟩ ∧
      walkAll stack.reverse = c.walk.drop rounds := by
  rcases exists_after (show rounds ≤ (walkAll (start c).stack.reverse).length from h) with
    ⟨⟨listed, stack⟩, hafter⟩
  rcases outcome_after hafter with ⟨houtcome, hlength⟩
  have hwalk : c.walk = listed ++ walkAll stack.reverse := houtcome.symm
  have hlisted : listed.length = rounds := hlength.trans (Nat.zero_add rounds)
  exists stack
  constructor
  · rw [hafter, hwalk, List.take_left' hlisted]
  · rw [hwalk, List.drop_left' hlisted]

end WalkState

/-!
# The order of positions
-/

/-- The positions of all nodes of a tree, each once, a child behind its parent and behind all that
is below the children before it. -/
structure IsPreorderOf (c : Code) (positions : List Position) : Prop where
  nodup : positions.Nodup
  mem_iff : ∀ position, position ∈ positions ↔ (c.at? position).isSome = true
  child_after_parent : ∀ (k l : Nat) (parent : Position) (index : Nat),
    positions[k]? = some parent → positions[l]? = some (parent ++ [index]) → k < l
  child_after_earlier : ∀ (k l : Nat) (parent inner : Position) (earlier index : Nat),
    earlier < index → positions[k]? = some (parent ++ earlier :: inner) →
      positions[l]? = some (parent ++ [index]) → k < l

theorem lt_of_getElem?_lt {positions : List Position} (h : positions.Pairwise (· < ·)) {k l : Nat}
    {p q : Position} (hk : positions[k]? = some p) (hl : positions[l]? = some q) (hlt : p < q) :
    k < l := by
  rcases List.getElem?_eq_some_iff.mp hk with ⟨hkBound, rfl⟩
  rcases List.getElem?_eq_some_iff.mp hl with ⟨hlBound, rfl⟩
  rcases Nat.lt_trichotomy k l with hless | rfl | hgreater
  · exact hless
  · exact absurd hlt (List.lt_irrefl _)
  · have hsorted := List.pairwise_iff_getElem.mp h l k hlBound hkBound hgreater
    exact absurd hlt (List.lt_asymm hsorted)

theorem isPreorderOf_occurrences (c : Code) :
    c.IsPreorderOf (c.occurrences.map Occurrence.position) := by
  have hsorted : (c.occurrences.map Occurrence.position).Pairwise (· < ·) :=
    List.pairwise_map.mpr (pairwise_position_occurrences c)
  constructor
  case nodup =>
    apply hsorted.imp
    intro p q hlt heq
    rw [heq] at hlt
    exact List.lt_irrefl q hlt
  case mem_iff =>
    intro position
    rw [List.mem_map, Option.isSome_iff_exists]
    constructor
    · intro h
      rcases h with ⟨o, ho, rfl⟩
      exact ⟨o.node, mem_occurrences_iff.mp ho⟩
    · intro h
      rcases h with ⟨n, hn⟩
      exact ⟨⟨position, n⟩, mem_occurrences_iff.mpr hn, rfl⟩
  case child_after_parent =>
    intro k l parent index hk hl
    apply lt_of_getElem?_lt hsorted hk hl
    have hbelow : parent ++ [] < parent ++ [index] := List.append_left_lt (List.nil_lt_cons _ _)
    rwa [List.append_nil] at hbelow
  case child_after_earlier =>
    intro k l parent inner earlier index hindex hk hl
    apply lt_of_getElem?_lt hsorted hk hl
    exact List.append_left_lt (List.cons_lt_cons_iff.mpr (Or.inl hindex))

/-- A walk is the recursive preorder of a tree.  It ends after one round for each occurrence of a
node; after every round before, it has listed the beginning of the preorder, and the trees on the
stack list the rest.  Every node is listed behind its parent and behind all descendants of the
siblings before it. -/
theorem walk_in_preorder (c : Code) :
    c.walk = c.preorder ∧
    c.walk.length = c.nodeCount ∧
    (∀ rounds ≤ c.nodeCount, ∃ stack,
      WalkState.after rounds (WalkState.start c) = some ⟨c.preorder.take rounds, stack⟩ ∧
      walkAll stack.reverse = c.preorder.drop rounds ∧ (stack = [] ↔ rounds = c.nodeCount)) ∧
    ∃ positions, c.IsPreorderOf positions ∧ positions.map c.at? = c.walk.map some := by
  have hlength : c.walk.length = c.nodeCount := by
    rw [walk_eq_preorder, length_preorder]
  refine ⟨walk_eq_preorder c, hlength, ?_, ?_⟩
  · intro rounds hrounds
    rcases WalkState.after_start (hrounds.trans_eq hlength.symm) with ⟨stack, hafter, hrest⟩
    rw [walk_eq_preorder] at hafter hrest
    refine ⟨stack, hafter, hrest, ?_⟩
    rw [← List.reverse_eq_nil_iff, ← walkAll_eq_nil_iff, hrest, List.drop_eq_nil_iff,
      length_preorder]
    omega
  · refine ⟨_, isPreorderOf_occurrences c, ?_⟩
    rw [← map_node_occurrences, List.map_map, List.map_map]
    exact List.map_congr_left fun o ho => mem_occurrences_iff.mp ho

theorem walk_in_preorder_shared :
    sharedControllers.walk.map name =
        [none, "AController", "a", "BController", "b", "c", "d", "run_usecase",
          "AController", "a", "BController", "b", "c", "d", "run_usecase"] ∧
      ∃ stack, WalkState.after 15 (WalkState.start sharedControllers) =
        some ⟨sharedControllers.preorder.take 15, stack⟩ ∧ stack = [] := by
  have hcount : sharedControllers.nodeCount = 15 := by decide
  rcases walk_in_preorder sharedControllers with ⟨hwalk, _, hrounds, _⟩
  constructor
  · rw [hwalk]
    decide
  · rcases hrounds 15 hcount.ge with ⟨stack, hafter, _, hend⟩
    exact ⟨stack, hafter, hend.mpr hcount.symm⟩

end Code
end UsecaseAudit
