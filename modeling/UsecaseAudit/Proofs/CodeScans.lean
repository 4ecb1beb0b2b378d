import UsecaseAudit.Proofs.Origins

/-!
# Scans of code built by hand

A scan goes through all nodes of a tree, each before its children, and asks of
some of them whether they delegate.  The same subtree may occur at several
positions, and then counts once for each.  A scan of actions has one finding for
each occurrence of a controller and each child of it that is an idle action; a
scan of tasks has one for each occurrence of an idle task.

A scan in which a search gives no answer has no findings at all.  This happens
only where a search comes upon an obstacle.
-/

namespace UsecaseAudit
namespace Code

open Concrete (Position)

/-!
# Occurrences
-/

/-- The node at a position, which lists the indexes of the children on the way to it. -/
def at? : Code → Position → Option Code
  | c, [] => some c
  | c, index :: rest => c.children[index]?.bind fun child => child.at? rest

structure Occurrence where
  position : Position
  node : Code

def Occurrence.under (index : Nat) (o : Occurrence) : Occurrence :=
  { o with position := index :: o.position }

mutual

/-- The occurrences in a tree: a node before its children, and the children in their order. -/
def occurrences : Code → List Occurrence
  | ⟨kind, line, name, value, receiver, arguments, block, scope, children⟩ =>
      ⟨[], ⟨kind, line, name, value, receiver, arguments, block, scope, children⟩⟩ ::
        occurrencesFrom 0 children

def occurrencesFrom (index : Nat) : List Code → List Occurrence
  | [] => []
  | c :: rest => c.occurrences.map (Occurrence.under index) ++ occurrencesFrom (index + 1) rest

end

structure Enumerates {α : Type} (before : α → α → Prop) (P : α → Prop) (items : List α) : Prop where
  ordered : items.Pairwise before
  mem_iff : ∀ a, a ∈ items ↔ P a

theorem occurrencesFrom_eq (index : Nat) (children : List Code) :
    occurrencesFrom index children =
      (children.zipIdx index).flatMap fun c => c.1.occurrences.map (Occurrence.under c.2) := by
  induction children generalizing index with
  | nil =>
      rw [occurrencesFrom]
      rfl
  | cons c rest ih =>
      rw [occurrencesFrom, ih, List.zipIdx_cons, List.flatMap_cons]

theorem occurrences_eq_cons (c : Code) :
    c.occurrences = ⟨[], c⟩ ::
      c.children.zipIdx.flatMap fun d => d.1.occurrences.map (Occurrence.under d.2) := by
  rcases c with ⟨kind, line, name, value, receiver, arguments, block, scope, children⟩
  rw [occurrences, occurrencesFrom_eq]

theorem map_node_occurrences (c : Code) : c.occurrences.map Occurrence.node = c.walk := by
  induction c using induction_on_children with
  | step c ih =>
      rw [occurrences_eq_cons, walk_eq_cons, List.map_cons, List.map_flatMap]
      congr 1
      have hchild : ∀ d ∈ c.children.zipIdx,
          (d.1.occurrences.map (Occurrence.under d.2)).map Occurrence.node = walk d.1 := by
        intro d hd
        rw [List.map_map]
        exact ih d.1 (List.fst_mem_of_mem_zipIdx hd)
      rw [List.flatMap_congr hchild, ← List.flatMap_map, List.zipIdx_map_fst]

theorem mem_occurrences_iff {c n : Code} {position : Position} :
    ⟨position, n⟩ ∈ c.occurrences ↔ c.at? position = some n := by
  induction position generalizing c with
  | nil =>
      rw [occurrences_eq_cons, List.mem_cons, at?]
      constructor
      · rintro (hroot | hbelow)
        · cases hroot
          rfl
        · rcases List.mem_flatMap.mp hbelow with ⟨d, _, hplace⟩
          rcases List.mem_map.mp hplace with ⟨o, _, ho⟩
          cases congrArg Occurrence.position ho
      · intro hroot
        cases hroot
        exact Or.inl rfl
  | cons index rest ih =>
      rw [occurrences_eq_cons, List.mem_cons, at?, Option.bind_eq_some_iff]
      constructor
      · rintro (hroot | hbelow)
        · cases congrArg Occurrence.position hroot
        · rcases List.mem_flatMap.mp hbelow with ⟨d, hd, hplace⟩
          rcases List.mem_map.mp hplace with ⟨o, ho, hunder⟩
          cases hunder
          exact ⟨d.1, List.mem_zipIdx_iff_getElem?.mp hd, ih.mp ho⟩
      · rintro ⟨d, hd, hrest⟩
        refine Or.inr (List.mem_flatMap.mpr ⟨(d, index), ?_, ?_⟩)
        · exact List.mem_zipIdx_iff_getElem?.mpr hd
        · exact List.mem_map.mpr ⟨⟨rest, n⟩, ih.mpr hrest, rfl⟩

theorem pairwise_position_occurrences (c : Code) :
    c.occurrences.Pairwise fun o o' => o.position < o'.position := by
  induction c using induction_on_children with
  | step c ih =>
      rw [occurrences_eq_cons, List.pairwise_cons, List.pairwise_flatMap]
      refine ⟨?_, ?_, ?_⟩
      · intro o ho
        rcases List.mem_flatMap.mp ho with ⟨d, _, ho⟩
        rcases List.mem_map.mp ho with ⟨inner, _, rfl⟩
        exact List.nil_lt_cons _ _
      · intro d hd
        rw [List.pairwise_map]
        refine (ih d.1 (List.fst_mem_of_mem_zipIdx hd)).imp ?_
        intro o o' hlt
        exact List.cons_lt_cons_iff.mpr (Or.inr ⟨rfl, hlt⟩)
      · refine (Lists.pairwise_index_zipIdx c.children).imp ?_
        intro d d' hlt o ho o' ho'
        rcases List.mem_map.mp ho with ⟨inner, _, rfl⟩
        rcases List.mem_map.mp ho' with ⟨inner', _, rfl⟩
        exact List.cons_lt_cons_iff.mpr (Or.inl hlt)

theorem enumerates_occurrences (c : Code) :
    Enumerates (fun o o' => o.position < o'.position) (fun o => c.at? o.position = some o.node)
      c.occurrences where
  ordered := pairwise_position_occurrences c
  mem_iff _ := mem_occurrences_iff

/-!
# Findings gathered from many items
-/

def gather {α β : Type} (findings? : α → Option (List β)) (items : List α) : Option (List β) :=
  (items.mapM findings?).map List.flatten

section Gather

variable {α β γ : Type} {f : α → Option (List β)}

theorem gather_cons (f : α → Option (List β)) (a : α) (items : List α) :
    gather f (a :: items) = (f a).bind fun first => (gather f items).map (first ++ ·) := by
  rw [gather, gather, List.mapM_cons]
  cases f a with
  | none =>
      rfl
  | some first =>
      cases items.mapM f with
      | none => rfl
      | some rest => rfl

theorem gather_singleton (f : α → Option (List β)) (a : α) : gather f [a] = f a := by
  rw [gather_cons]
  cases f a with
  | none => rfl
  | some findings => exact congrArg some (List.append_nil findings)

theorem gather_append (f : α → Option (List β)) (xs ys : List α) :
    gather f (xs ++ ys) = (gather f xs).bind fun first => (gather f ys).map (first ++ ·) := by
  induction xs with
  | nil =>
      have hnil : gather f [] = some [] := rfl
      rw [hnil, List.nil_append, Option.bind_some]
      simp
  | cons x xs ih =>
      rw [List.cons_append, gather_cons, gather_cons, ih]
      cases f x with
      | none =>
          rfl
      | some first =>
          cases gather f xs with
          | none => rfl
          | some second =>
              cases gather f ys with
              | none => rfl
              | some third => simp

theorem gather_flatMap (f : α → Option (List β)) (parts : γ → List α) (items : List γ) :
    gather f (items.flatMap parts) = gather (fun c => gather f (parts c)) items := by
  induction items with
  | nil =>
      rfl
  | cons c items ih =>
      rw [List.flatMap_cons, gather_append, gather_cons, ih]

theorem gather_map (f : α → Option (List β)) (g : γ → α) (items : List γ) :
    gather f (items.map g) = gather (fun c => f (g c)) items := by
  rw [gather, gather, List.mapM_map]
  rfl

theorem gather_congr {g : α → Option (List β)} {items : List α} (h : ∀ a ∈ items, f a = g a) :
    gather f items = gather g items := by
  induction items with
  | nil =>
      rfl
  | cons a items ih =>
      rw [gather_cons, gather_cons, h a List.mem_cons_self,
        ih fun b hb => h b (List.mem_cons_of_mem a hb)]

theorem gather_eq_some {g : α → List β} {items : List α} (h : ∀ a ∈ items, f a = some (g a)) :
    gather f items = some (items.flatMap g) := by
  rw [gather, Lists.mapM_eq_some_map h, Option.map_some, ← List.flatMap_def]

theorem gather_eq_none_iff {items : List α} : gather f items = none ↔ ∃ a ∈ items, f a = none := by
  induction items with
  | nil =>
      simp [gather]
  | cons a items ih =>
      rw [gather_cons, List.exists_mem_cons_iff, ← ih]
      cases f a with
      | none => simp
      | some first => simp

end Gather

def searchFindings? {α β : Type} (levels : Nat) (part : α → Option Code) (finding : α → β)
    (a : α) : Option (List β) :=
  (delegates? levels (part a)).map fun busy => if busy then [] else [finding a]

theorem delegates?_eq_some {levels : Nat} {code : Option Code}
    (h : delegates? levels code ≠ none) : delegates? levels code = some (delegates code) := by
  have hspeaks := (@answers_anyDelegates? levels code.toList).speaks
  rw [delegates?] at h ⊢
  rw [delegates]
  cases hanswer : anyDelegates? levels code.toList with
  | none =>
      exact absurd hanswer h
  | some busy =>
      rw [hanswer] at hspeaks
      cases busy with
      | true =>
          rw [(anyDelegates_iff_meets code.toList).mpr hspeaks]
      | false =>
          rw [Bool.eq_false_iff.mpr (mt (anyDelegates_iff_meets code.toList).mp hspeaks.left)]

theorem meets_isObstacle_of_delegates? {levels : Nat} {code : Option Code}
    (h : delegates? levels code = none) : Meets (IsObstacle levels) code.toList := by
  have hspeaks := (@answers_anyDelegates? levels code.toList).speaks
  rw [delegates?] at h
  rw [h] at hspeaks
  exact hspeaks

/-- A scan of the items with a property finds those of them whose part reaches no usecase call, and
fails exactly when one of the searches does. -/
theorem gather_searchFindings? {α β : Type} {before : α → α → Prop} {P : α → Prop}
    {items : List α} (levels : Nat) (part : α → Option Code) (finding : α → β)
    (h : Enumerates before P items) :
    (∃ idle, Enumerates before (fun a => P a ∧ ¬ Meets IsUsecaseCall (part a).toList) idle ∧
      ((∀ a, P a → delegates? levels (part a) ≠ none) →
        gather (searchFindings? levels part finding) items = some (idle.map finding))) ∧
    (gather (searchFindings? levels part finding) items = none ↔
      ∃ a, P a ∧ delegates? levels (part a) = none) := by
  refine ⟨⟨items.filter fun a => !delegates (part a), ⟨h.ordered.filter _, ?_⟩, ?_⟩, ?_⟩
  · intro a
    rw [List.mem_filter, h.mem_iff, Bool.not_eq_true', ← Bool.not_eq_true, delegates,
      anyDelegates_iff_meets]
  · intro hanswers
    have hfindings : ∀ a ∈ items, searchFindings? levels part finding a =
        some (if !delegates (part a) then [finding a] else []) := by
      intro a ha
      rw [searchFindings?, delegates?_eq_some (hanswers a ((h.mem_iff a).mp ha))]
      cases delegates (part a) with
      | true => rfl
      | false => rfl
    rw [gather_eq_some hfindings, List.map_eq_flatMap, Lists.flatMap_filter]
  · rw [gather_eq_none_iff]
    simp only [h.mem_iff, searchFindings?, Option.map_eq_none_iff]

/-!
# Actions
-/

structure Member where
  owner : Position
  index : Nat
  node : Code
  name : String

/-- Members come class by class, and in each class in the order of the children. -/
def Member.Before (m m' : Member) : Prop :=
  m.owner < m'.owner ∨ m.owner = m'.owner ∧ m.index < m'.index

def Member.finding (file : String) (m : Member) : IdleAction :=
  { file := file, action := m.name, line := m.node.line }

structure IsAction (exclusions : Exclusions) (file : String) (tree : Code) (m : Member) : Prop where
  owner : ∃ c name, tree.at? m.owner = some c ∧ c.kind = .classDef ∧ c.name = some name ∧
    Affix.ends name "Controller" = true ∧ c.children[m.index]? = some m.node
  isMethod : m.node.kind = .methodDef
  name : m.node.name = some m.name
  actionName : Naming.isAction (some m.name) = true
  included : exclusions.excludesAction file m.name = false

def Occurrence.actionMembers (exclusions : Exclusions) (file : String) (o : Occurrence) :
    List Member :=
  (o.node.children.zipIdx.filter fun c =>
    c.1.kind == .methodDef && Naming.isAction c.1.name
      && !exclusions.excludesAction file (c.1.name.getD "")).map fun c =>
        ⟨o.position, c.2, c.1, c.1.name.getD ""⟩

def actionMembers (exclusions : Exclusions) (file : String) (tree : Code) : List Member :=
  (tree.occurrences.filter fun o => o.node.isController).flatMap
    (Occurrence.actionMembers exclusions file)

theorem isController_iff {c : Code} : c.isController = true ↔
    c.kind = .classDef ∧ ∃ name, c.name = some name ∧ Affix.ends name "Controller" = true := by
  rw [isController, Bool.and_eq_true, beq_iff_eq]
  cases c.name with
  | none => simp [Naming.isController]
  | some name => simp [Naming.isController]

theorem name_of_isAction {c : Code} (h : Naming.isAction c.name = true) :
    c.name = some (c.name.getD "") := by
  cases hname : c.name with
  | none =>
      rw [hname] at h
      cases h
  | some name =>
      rfl

theorem mem_actionMembers_iff {exclusions : Exclusions} {file : String} {tree : Code} {m : Member} :
    m ∈ tree.actionMembers exclusions file ↔ tree.IsAction exclusions file m := by
  rw [actionMembers, List.mem_flatMap]
  constructor
  · rintro ⟨o, ho, hm⟩
    rcases List.mem_filter.mp ho with ⟨ho, hcontroller⟩
    rcases List.mem_map.mp hm with ⟨c, hc, rfl⟩
    rcases List.mem_filter.mp hc with ⟨hc, haction⟩
    rcases isController_iff.mp hcontroller with ⟨hkind, name, hname, hends⟩
    simp only [Bool.and_eq_true, beq_iff_eq, Bool.not_eq_true'] at haction
    rcases haction with ⟨⟨hmethod, haction⟩, hincluded⟩
    have hcname := name_of_isAction haction
    exact
      { owner := ⟨o.node, name, mem_occurrences_iff.mp ho, hkind, hname, hends,
          List.mem_zipIdx_iff_getElem?.mp hc⟩
        isMethod := hmethod
        name := hcname
        actionName := hcname ▸ haction
        included := hincluded }
  · rintro ⟨⟨c, name, hat, hkind, hname, hends, hchild⟩, hmethod, hmname, haction, hincluded⟩
    refine ⟨⟨m.owner, c⟩, List.mem_filter.mpr ⟨mem_occurrences_iff.mpr hat, ?_⟩, ?_⟩
    · exact isController_iff.mpr ⟨hkind, name, hname, hends⟩
    · refine List.mem_map.mpr ⟨(m.node, m.index), List.mem_filter.mpr ⟨?_, ?_⟩, ?_⟩
      · exact List.mem_zipIdx_iff_getElem?.mpr hchild
      · simp only [Bool.and_eq_true, beq_iff_eq, Bool.not_eq_true']
        rw [hmname]
        exact ⟨⟨hmethod, haction⟩, hincluded⟩
      · rw [hmname, Option.getD_some]

theorem enumerates_actionMembers (exclusions : Exclusions) (file : String) (tree : Code) :
    Enumerates Member.Before (tree.IsAction exclusions file)
      (tree.actionMembers exclusions file) where
  ordered := by
    rw [actionMembers, List.pairwise_flatMap]
    constructor
    · intro o _
      rw [Occurrence.actionMembers, List.pairwise_map]
      refine ((Lists.pairwise_index_zipIdx o.node.children).filter _).imp ?_
      intro c c' hlt
      exact Or.inr ⟨rfl, hlt⟩
    · refine ((pairwise_position_occurrences tree).filter _).imp ?_
      intro o o' hlt m hm m' hm'
      rcases List.mem_map.mp hm with ⟨c, _, rfl⟩
      rcases List.mem_map.mp hm' with ⟨c', _, rfl⟩
      exact Or.inl hlt
  mem_iff _ := mem_actionMembers_iff

theorem idleActions?_eq_gather (levels : Nat) (exclusions : Exclusions) (file : String)
    (tree : Code) : tree.idleActions? levels exclusions file =
      gather (searchFindings? levels (fun m => some m.node) (Member.finding file))
        (tree.actionMembers exclusions file) := by
  have hactions : ∀ o : Occurrence, o.node.actions exclusions file =
      (o.actionMembers exclusions file).map Member.node := by
    intro o
    rw [Occurrence.actionMembers, List.map_map]
    have hmethods := List.filter_map (f := Prod.fst) (l := o.node.children.zipIdx)
      (p := fun c : Code => c.kind == .methodDef && Naming.isAction c.name
        && !exclusions.excludesAction file (c.name.getD ""))
    rw [List.zipIdx_map_fst] at hmethods
    exact hmethods
  have hwalk : (tree.walk.filter isController).flatMap (actions exclusions file) =
      (tree.actionMembers exclusions file).map Member.node := by
    rw [← map_node_occurrences, List.filter_map, List.flatMap_map, actionMembers, List.map_flatMap]
    exact List.flatMap_congr fun o _ => hactions o
  have hfindings : ∀ m ∈ tree.actionMembers exclusions file,
      actionFindings? levels file m.node =
        searchFindings? levels (fun m => some m.node) (Member.finding file) m := by
    intro m hm
    have hname := (mem_actionMembers_iff.mp hm).name
    rw [actionFindings?, searchFindings?, Member.finding, hname, Option.getD_some]
  have hscan : tree.idleActions? levels exclusions file = gather (actionFindings? levels file)
      ((tree.walk.filter isController).flatMap (actions exclusions file)) := rfl
  rw [hscan, hwalk, gather_map, gather_congr hfindings]

/-!
# Tasks
-/

structure Declaration where
  position : Position
  node : Code
  name : String

def Declaration.finding (file : String) (d : Declaration) : IdleTask :=
  { file := file, task := d.name, line := d.node.line }

structure IsTask (exclusions : Exclusions) (file : String) (tree : Code) (d : Declaration) :
    Prop where
  occurs : tree.at? d.position = some d.node
  isCall : d.node.kind = .call
  isTask : d.node.name = some "task"
  argument : ∃ first rest, d.node.arguments = first :: rest ∧
    (first.kind = .symbolLiteral ∨ first.kind = .stringLiteral) ∧ first.value = some d.name
  included : exclusions.excludesTask file d.name = false

/-- The body of a task: its block, or else the first block among its children. -/
inductive IsTaskBody (c : Code) : Code → Prop where
  | block {b : Code} : c.block = some b → IsTaskBody c b
  | child {b : Code} {before after : List Code} :
      c.block = none → c.children = before ++ b :: after → (∀ d ∈ before, d.kind ≠ .block) →
      b.kind = .block → IsTaskBody c b

def Occurrence.declarations (exclusions : Exclusions) (file : String) (o : Occurrence) :
    List Declaration :=
  ((o.node.taskName?.filter fun name => !exclusions.excludesTask file name).map fun name =>
    ⟨o.position, o.node, name⟩).toList

def declarations (exclusions : Exclusions) (file : String) (tree : Code) : List Declaration :=
  tree.occurrences.flatMap (Occurrence.declarations exclusions file)

theorem taskName?_eq_some_iff {c : Code} {name : String} :
    c.taskName? = some name ↔ c.kind = .call ∧ c.name = some "task" ∧
      ∃ first rest, c.arguments = first :: rest ∧
        (first.kind = .symbolLiteral ∨ first.kind = .stringLiteral) ∧ first.value = some name := by
  rw [taskName?, Option.ite_none_right_eq_some, and_assoc]
  refine and_congr_right fun _ => and_congr_right fun _ => ?_
  cases c.arguments with
  | nil => simp
  | cons first rest => simp [Option.ite_none_right_eq_some]

theorem taskBody?_eq_some_iff {c b : Code} : c.taskBody? = some b ↔ IsTaskBody c b := by
  rw [taskBody?_eq]
  constructor
  · intro h
    split at h
    · cases h
      exact IsTaskBody.block ‹_›
    · rcases List.find?_eq_some_iff_append.mp h with ⟨hblock, before, after, hsplit, hbefore⟩
      refine IsTaskBody.child ‹_› hsplit ?_ (beq_iff_eq.mp hblock)
      intro d hd
      simpa using hbefore d hd
  · intro h
    cases h with
    | block hb =>
        rw [hb]
    | child hnone hsplit hbefore hblock =>
        rw [hnone]
        refine List.find?_eq_some_iff_append.mpr ⟨beq_iff_eq.mpr hblock, _, _, hsplit, ?_⟩
        intro d hd
        simpa using hbefore d hd

theorem not_meets_taskBody?_iff {P : Code → Prop} {c : Code} :
    ¬ Meets P c.taskBody?.toList ↔ ∀ b, IsTaskBody c b → ¬ Meets P [b] := by
  simp only [← taskBody?_eq_some_iff]
  cases c.taskBody? with
  | none =>
      simp [not_meets_nil]
  | some b =>
      simp

theorem mem_declarations_of_occurrence {exclusions : Exclusions} {file : String} {o : Occurrence}
    {d : Declaration} :
    d ∈ o.declarations exclusions file ↔ (o.position = d.position ∧ o.node = d.node) ∧
      d.node.taskName? = some d.name ∧ exclusions.excludesTask file d.name = false := by
  rw [Occurrence.declarations, Option.mem_toList, Option.map_eq_some_iff]
  simp only [Option.filter_eq_some_iff, Bool.not_eq_true']
  constructor
  · rintro ⟨name, ⟨hname, hincluded⟩, rfl⟩
    exact ⟨⟨rfl, rfl⟩, hname, hincluded⟩
  · rintro ⟨⟨hposition, hnode⟩, hname, hincluded⟩
    refine ⟨d.name, ⟨hnode ▸ hname, hincluded⟩, ?_⟩
    rw [hposition, hnode]

theorem mem_declarations_iff {exclusions : Exclusions} {file : String} {tree : Code}
    {d : Declaration} :
    d ∈ tree.declarations exclusions file ↔ tree.IsTask exclusions file d := by
  rw [declarations, List.mem_flatMap]
  simp only [mem_declarations_of_occurrence]
  constructor
  · rintro ⟨⟨position, node⟩, ho, ⟨hposition, hnode⟩, hname, hincluded⟩
    cases hposition
    cases hnode
    rcases taskName?_eq_some_iff.mp hname with ⟨hcall, htask, hargument⟩
    exact ⟨mem_occurrences_iff.mp ho, hcall, htask, hargument, hincluded⟩
  · rintro ⟨hat, hcall, htask, hargument, hincluded⟩
    exact ⟨⟨d.position, d.node⟩, mem_occurrences_iff.mpr hat, ⟨rfl, rfl⟩,
      taskName?_eq_some_iff.mpr ⟨hcall, htask, hargument⟩, hincluded⟩

theorem enumerates_declarations (exclusions : Exclusions) (file : String) (tree : Code) :
    Enumerates (fun d d' => d.position < d'.position) (tree.IsTask exclusions file)
      (tree.declarations exclusions file) where
  ordered := by
    rw [declarations, List.pairwise_flatMap]
    constructor
    · intro o _
      rw [Occurrence.declarations]
      cases (o.node.taskName?.filter _).map _ with
      | none => exact List.Pairwise.nil
      | some d => exact List.pairwise_singleton _ d
    · refine (pairwise_position_occurrences tree).imp ?_
      intro o o' hlt d hd d' hd'
      rw [← (mem_declarations_of_occurrence.mp hd).left.left,
        ← (mem_declarations_of_occurrence.mp hd').left.left]
      exact hlt
  mem_iff _ := mem_declarations_iff

theorem idleTasks?_eq_gather (levels : Nat) (exclusions : Exclusions) (file : String)
    (tree : Code) : tree.idleTasks? levels exclusions file =
      gather (searchFindings? levels (fun d => d.node.taskBody?) (Declaration.finding file))
        (tree.declarations exclusions file) := by
  have hfindings : ∀ o ∈ tree.occurrences, taskFindings? levels exclusions file o.node =
      gather (searchFindings? levels (fun d => d.node.taskBody?) (Declaration.finding file))
        (o.declarations exclusions file) := by
    intro o _
    rw [taskFindings?, Occurrence.declarations]
    cases o.node.taskName? with
    | none =>
        rfl
    | some name =>
        dsimp only
        cases hexcluded : exclusions.excludesTask file name with
        | true =>
            rw [Option.filter_some_neg (by rw [hexcluded]; decide)]
            rfl
        | false =>
            rw [Option.filter_some_pos (by rw [hexcluded]; rfl), Option.map_some,
              Option.toList_some, gather_singleton]
            rfl
  have hscan : tree.idleTasks? levels exclusions file =
      gather (taskFindings? levels exclusions file) tree.walk := rfl
  rw [hscan, ← map_node_occurrences, gather_map, gather_congr hfindings, declarations,
    gather_flatMap]

/-!
# Both scans
-/

theorem idleActions?_of_other {tree : Code} (levels : Nat) (exclusions : Exclusions)
    (file : String) (h : tree.kind = .other) :
    tree.idleActions? levels exclusions file =
      (tree.children.mapM (idleActions? levels exclusions file)).map List.flatten := by
  have hroot : tree.isController = false := by
    rw [isController, h]
    rfl
  have hscan : ∀ c : Code, c.idleActions? levels exclusions file =
      gather (fun n => gather (actionFindings? levels file) (n.actions exclusions file))
        (c.walk.filter isController) := fun c =>
    gather_flatMap (actionFindings? levels file) (actions exclusions file)
      (c.walk.filter isController)
  rw [hscan, walk_eq_cons, List.filter_cons_of_neg (by rw [hroot]; exact Bool.false_ne_true),
    List.filter_flatMap, gather_flatMap]
  exact gather_congr fun c _ => (hscan c).symm

theorem idleTasks?_of_other {tree : Code} (levels : Nat) (exclusions : Exclusions)
    (file : String) (h : tree.kind = .other) :
    tree.idleTasks? levels exclusions file =
      (tree.children.mapM (idleTasks? levels exclusions file)).map List.flatten := by
  have hname : tree.taskName? = none := by
    rw [taskName?, if_neg]
    rintro ⟨hcall, _⟩
    cases h.symm.trans hcall
  have hroot : taskFindings? levels exclusions file tree = some [] := by
    rw [taskFindings?, hname]
  have hscan : ∀ c : Code, c.idleTasks? levels exclusions file =
      gather (taskFindings? levels exclusions file) c.walk := fun _ => rfl
  rw [hscan, walk_eq_cons, gather_cons, hroot, Option.bind_some, gather_flatMap]
  simp only [List.nil_append, Option.map_id']
  exact gather_congr fun c _ => (hscan c).symm

/-- On any code, the scan of actions has one finding for each occurrence of a controller and each
action in it from which no usecase call can be reached, and the scan of tasks one for each
occurrence of a task whose body reaches none, both in the order of the occurrences.  The findings
about a node of no special kind are those about its children, one after the other.

The exception is a search that gives no answer, which happens only where it comes upon an obstacle:
then the scan has none either. -/
theorem scans_exact (levels : Nat) (exclusions : Exclusions) (file : String) (tree : Code) :
    (tree.occurrences.map Occurrence.node = tree.walk ∧
      Enumerates (fun o o' => o.position < o'.position)
        (fun o => tree.at? o.position = some o.node) tree.occurrences) ∧
    ((∃ idle, Enumerates Member.Before
        (fun m => tree.IsAction exclusions file m ∧ ¬ Meets IsUsecaseCall [m.node]) idle ∧
        ((∀ m, tree.IsAction exclusions file m → delegates? levels (some m.node) ≠ none) →
          tree.idleActions? levels exclusions file = some (idle.map (Member.finding file)))) ∧
      (tree.idleActions? levels exclusions file = none ↔
        ∃ m, tree.IsAction exclusions file m ∧ delegates? levels (some m.node) = none)) ∧
    ((∃ idle, Enumerates (fun d d' => d.position < d'.position)
        (fun d => tree.IsTask exclusions file d ∧
          ∀ b, IsTaskBody d.node b → ¬ Meets IsUsecaseCall [b]) idle ∧
        ((∀ d, tree.IsTask exclusions file d → delegates? levels d.node.taskBody? ≠ none) →
          tree.idleTasks? levels exclusions file = some (idle.map (Declaration.finding file)))) ∧
      (tree.idleTasks? levels exclusions file = none ↔
        ∃ d, tree.IsTask exclusions file d ∧ delegates? levels d.node.taskBody? = none)) ∧
    (∀ code, delegates? levels code = none → Meets (IsObstacle levels) code.toList) ∧
    (tree.kind = .other →
      tree.idleActions? levels exclusions file =
        (tree.children.mapM (idleActions? levels exclusions file)).map List.flatten ∧
      tree.idleTasks? levels exclusions file =
        (tree.children.mapM (idleTasks? levels exclusions file)).map List.flatten) := by
  have hactions := gather_searchFindings? levels (fun m => some m.node) (Member.finding file)
    (enumerates_actionMembers exclusions file tree)
  have htasks := gather_searchFindings? levels (fun d => d.node.taskBody?) (Declaration.finding file)
    (enumerates_declarations exclusions file tree)
  rw [← idleActions?_eq_gather] at hactions
  rw [← idleTasks?_eq_gather] at htasks
  simp only [not_meets_taskBody?_iff] at htasks
  refine ⟨⟨map_node_occurrences tree, enumerates_occurrences tree⟩, hactions, htasks,
    fun _ => meets_isObstacle_of_delegates?, ?_⟩
  intro hother
  exact ⟨idleActions?_of_other levels exclusions file hother,
    idleTasks?_of_other levels exclusions file hother⟩

/-- A controller with an action before and one behind a controller in it, and a busy action. -/
def nestedControllers : Code :=
  let method name children : Code := { kind := .methodDef, name := some name, children := children }
  { kind := .classDef
    name := some "AController"
    children := [
      method "a" [],
      { kind := .classDef, name := some "BController", children := [method "b" []] },
      method "c" [],
      method "d" [namedCall]] }

def sharedControllers : Code :=
  { kind := .other, children := [nestedControllers, nestedControllers] }

/-- A task with an obstacle for its body. -/
def deepTask (levels : Nat) : Code :=
  { kind := .call
    name := some "task"
    arguments := [{ kind := .symbolLiteral, value := some "a" }]
    block := some (deepCall levels) }

theorem scans_exact_shared :
    (∃ idle, Enumerates Member.Before (fun m =>
        sharedControllers.IsAction {} "a.rb" m ∧ ¬ Meets IsUsecaseCall [m.node]) idle ∧
      idle.map (Member.finding "a.rb") =
        ["a", "c", "b", "a", "c", "b"].map fun name => ⟨"a.rb", name, none⟩) ∧
      (deepTask 5).idleTasks? 5 {} "a.rake" = none := by
  constructor
  · have hfound : sharedControllers.idleActions? 5 {} "a.rb" =
        some (["a", "c", "b", "a", "c", "b"].map fun name => ⟨"a.rb", name, none⟩) := by
      decide +kernel
    rcases (scans_exact 5 {} "a.rb" sharedControllers).right.left with ⟨⟨idle, hidle, hexact⟩, hnone⟩
    have hanswers : ∀ m, sharedControllers.IsAction {} "a.rb" m →
        delegates? 5 (some m.node) ≠ none := by
      intro m hm hstuck
      rw [hnone.mpr ⟨m, hm, hstuck⟩] at hfound
      cases hfound
    exact ⟨idle, hidle, Option.some.inj ((hexact hanswers).symm.trans hfound)⟩
  · refine (scans_exact 5 {} "a.rake" (deepTask 5)).right.right.left.right.mpr
      ⟨⟨[], deepTask 5, "a"⟩, ⟨rfl, rfl, rfl, ⟨_, _, rfl, Or.inl rfl, rfl⟩, by decide +kernel⟩, ?_⟩
    have hbody : (deepTask 5).taskBody? = some (deepCall 5) := rfl
    rw [hbody, delegates?, Option.toList_some, anyDelegates?, namesUsecase?_deepCall]

end Code
end UsecaseAudit
