import Mathlib.Data.List.Basic
import Mathlib.Data.List.Flatten
import UsecaseAudit.Delegation.Task
import UsecaseAudit.Proofs.Evidence

/-!
# Idle tasks on the concrete tree

The idle tasks of a file can be found on its concrete tree, without reading it
as code.  A task is declared by a visited call of `task` with a first argument
that is written out in full.  Its body is the child in the field of the block,
or else the first block among its receiver and arguments; a task without a body
is idle whatever else it mentions.
-/

namespace UsecaseAudit
namespace Concrete

/-!
# A scan of the concrete tree
-/

def literalText? (source : List UInt8) (t : Concrete) : Option String :=
  match t.form with
  | .plainSymbol => some (t.symbolText source)
  | .quotedSymbol => t.literal? source
  | .string => t.literal? source
  | _ => none

def taskName? (source : List UInt8) (t : Concrete) : Option String :=
  if t.kind = "call" ∧ t.callName? source = some "task" then
    match t.argumentPlaces with
    | [] => none
    | first :: _ => first.node.literalText? source
  else
    none

def isBlock (t : Concrete) : Bool :=
  t.kind == "do_block" || t.kind == "block"

/-- The receiver and the arguments of a call, which may be blocks themselves. -/
def operands (t : Concrete) : List Concrete :=
  (t.child? "receiver").toList ++ t.argumentPlaces.map Place.node

def taskBody? (t : Concrete) : Option Concrete :=
  match t.child? "block" with
  | some block => some block
  | none => t.operands.find? isBlock

def isIdleTask (source : List UInt8) (exclusions : Exclusions) (file : String)
    (t : Concrete) : Bool :=
  match t.taskName? source with
  | none => false
  | some name =>
      !exclusions.excludesTask file name && !t.taskBody?.any (holdsEvidence source)

def idleTaskPlaces (source : List UInt8) (exclusions : Exclusions) (file : String)
    (t : Concrete) : List Place :=
  t.visited.filter fun p => p.node.isIdleTask source exclusions file

def idleTaskAt (source : List UInt8) (file : String) (p : Place) : IdleTask :=
  { file := file
    task := (p.node.taskName? source).getD ""
    line := some (Int.ofNat p.node.label.row + 1) }

/-!
# The places of idle tasks
-/

inductive LiteralText (source : List UInt8) (t : Concrete) : String → Prop where
  | symbol :
      t.kind = "simple_symbol" →
      LiteralText source t (String.ofList ((t.text source).toList.dropWhile (· == ':')))
  | quoted :
      t.kind = "string" ∨ t.kind = "delimited_symbol" →
      (∀ c ∈ t.children, c.label.named = true →
        c.kind = "string_content" ∨ c.kind = "escape_sequence") →
      LiteralText source t
        (String.join ((t.children.filter fun c => c.label.named).map (text source)))

inductive IsTaskBody (t : Concrete) : Concrete → Prop where
  | block {b : Concrete} : t.child? "block" = some b → IsTaskBody t b
  | operand {b : Concrete} {before after : List Concrete} :
      t.child? "block" = none → t.operands = before ++ b :: after →
      (∀ c ∈ before, c.kind ≠ "do_block" ∧ c.kind ≠ "block") →
      b.kind = "do_block" ∨ b.kind = "block" → IsTaskBody t b

structure IsIdleTaskPlace (source : List UInt8) (exclusions : Exclusions) (file : String)
    (t : Concrete) (p : Place) (name : String) : Prop where
  visited : Visits t p.position p.node
  isCall : p.node.kind = "call"
  method : ∃ m, p.node.child? "method" = some m ∧ m.kind ≠ "argument_list" ∧
    m.text source = "task"
  argument : ∃ first rest, p.node.argumentPlaces = first :: rest ∧
    LiteralText source first.node name
  included : exclusions.excludesTask file name = false
  /-- Nothing that is read from a body on refers to a usecase. -/
  idle : ∀ b, IsTaskBody p.node b → ∀ position n, Visits b position n → ¬ Evidence source n

theorem literal?_eq_some_iff {source : List UInt8} {t : Concrete} {value : String} :
    t.literal? source = some value ↔
      (∀ c ∈ t.children, c.label.named = true →
        c.kind = "string_content" ∨ c.kind = "escape_sequence") ∧
      String.join ((t.children.filter fun c => c.label.named).map (text source)) = value := by
  simp only [literal?, Option.ite_none_right_eq_some, List.all_filter, List.all_eq_true,
    Option.some.injEq]
  refine and_congr_left fun _ => forall₂_congr fun c _ => ?_
  cases c.label.named with
  | false =>
      simp
  | true =>
      simp

theorem literalText?_eq_some_iff {source : List UInt8} {t : Concrete} {name : String} :
    t.literalText? source = some name ↔ LiteralText source t name := by
  constructor
  · intro h
    unfold literalText? at h
    split at h
    · cases h
      exact LiteralText.symbol ((form_eq_iff .plainSymbol rfl).mp ‹_›)
    · rcases literal?_eq_some_iff.mp h with ⟨hparts, rfl⟩
      exact LiteralText.quoted (Or.inr ((form_eq_iff .quotedSymbol rfl).mp ‹_›)) hparts
    · rcases literal?_eq_some_iff.mp h with ⟨hparts, rfl⟩
      exact LiteralText.quoted (Or.inl ((form_eq_iff .string rfl).mp ‹_›)) hparts
    · cases h
  · intro h
    rw [literalText?]
    cases h with
    | symbol hkind =>
        rw [(form_eq_iff .plainSymbol rfl).mpr hkind]
        rfl
    | quoted hkind hparts =>
        have hliteral : t.literal? source = some _ := literal?_eq_some_iff.mpr ⟨hparts, rfl⟩
        rcases hkind with hkind | hkind
        · rw [(form_eq_iff .string rfl).mpr hkind]
          exact hliteral
        · rw [(form_eq_iff .quotedSymbol rfl).mpr hkind]
          exact hliteral

theorem callName?_eq_some_iff {source : List UInt8} {t : Concrete} {name : String} :
    t.callName? source = some name ↔
      ∃ m, t.child? "method" = some m ∧ m.kind ≠ "argument_list" ∧ m.text source = name := by
  rw [callName?]
  cases t.child? "method" with
  | none =>
      simp
  | some m =>
      simp

theorem taskName?_eq_some_iff {source : List UInt8} {t : Concrete} {name : String} :
    t.taskName? source = some name ↔
      (t.kind = "call" ∧ t.callName? source = some "task") ∧
      ∃ first rest, t.argumentPlaces = first :: rest ∧ LiteralText source first.node name := by
  rw [taskName?]
  by_cases hcall : t.kind = "call" ∧ t.callName? source = some "task"
  · rw [if_pos hcall]
    cases t.argumentPlaces with
    | nil =>
        simp
    | cons first rest =>
        simp [hcall, literalText?_eq_some_iff]
  · simp [hcall]

theorem taskBody?_eq_some_iff {t b : Concrete} : t.taskBody? = some b ↔ IsTaskBody t b := by
  constructor
  · intro h
    unfold taskBody? at h
    split at h
    · cases h
      exact IsTaskBody.block ‹_›
    · rcases List.find?_eq_some_iff_append.mp h with ⟨hblock, before, after, hsplit, hbefore⟩
      refine IsTaskBody.operand ‹_› hsplit ?_ ?_
      · intro c hc
        simpa [isBlock] using hbefore c hc
      · simpa [isBlock] using hblock
  · intro h
    rw [taskBody?]
    cases h with
    | block hb =>
        rw [hb]
    | operand hnone hsplit hbefore hblock =>
        rw [hnone]
        refine List.find?_eq_some_iff_append.mpr ⟨?_, _, _, hsplit, ?_⟩
        · simpa [isBlock] using hblock
        · intro c hc
          simpa [isBlock] using hbefore c hc

theorem isIdleTask_iff {source : List UInt8} {exclusions : Exclusions} {file : String}
    {t : Concrete} :
    t.isIdleTask source exclusions file = true ↔
      ∃ name, t.taskName? source = some name ∧ exclusions.excludesTask file name = false ∧
        ∀ b, IsTaskBody t b → ∀ position n, Visits b position n → ¬ Evidence source n := by
  have hbody : t.taskBody?.any (holdsEvidence source) = false ↔
      ∀ b, IsTaskBody t b → ∀ position n, Visits b position n → ¬ Evidence source n := by
    simp only [← taskBody?_eq_some_iff, ← holdsEvidence_eq_false_iff]
    cases t.taskBody? with
    | none =>
        simp
    | some b =>
        simp
  rw [isIdleTask, ← hbody]
  cases t.taskName? source with
  | none =>
      simp
  | some name =>
      simp

theorem mem_idleTaskPlaces_iff {source : List UInt8} {exclusions : Exclusions} {file : String}
    {t : Concrete} {p : Place} {name : String} :
    p ∈ t.idleTaskPlaces source exclusions file ∧ (idleTaskAt source file p).task = name ↔
      IsIdleTaskPlace source exclusions file t p name := by
  rw [idleTaskPlaces, List.mem_filter, isIdleTask_iff, idleTaskAt]
  constructor
  · rintro ⟨⟨hvisited, found, hname, hincluded, hidle⟩, rfl⟩
    rw [hname, Option.getD_some]
    rcases taskName?_eq_some_iff.mp hname with ⟨⟨hcall, hmethod⟩, hargument⟩
    exact
      { visited := visits_of_mem_visited hvisited
        isCall := hcall
        method := callName?_eq_some_iff.mp hmethod
        argument := hargument
        included := hincluded
        idle := hidle }
  · rintro ⟨hvisited, hcall, hmethod, hargument, hincluded, hidle⟩
    have hname := taskName?_eq_some_iff.mpr
      ⟨⟨hcall, callName?_eq_some_iff.mpr hmethod⟩, hargument⟩
    refine ⟨⟨mem_visited_of_visits hvisited, name, hname, hincluded, hidle⟩, ?_⟩
    rw [hname, Option.getD_some]

end Concrete

namespace Code

open Concrete

/-!
# The same scan on code that was read
-/

theorem value_convert (source : List UInt8) (t : Concrete) :
    (convert source t).value = t.literalText? source := by
  rw [convert_eq_assemble, assemble, literalText?]
  cases t.form with
  | assignment =>
      dsimp only
      split
      · split
        · rfl
        · rfl
      · rfl
  | quotedSymbol =>
      cases t.literal? source with
      | none => rfl
      | some value => rfl
  | string =>
      cases t.literal? source with
      | none => rfl
      | some value => rfl
  | scopePath =>
      dsimp only
      split
      · rfl
      · split
        · rfl
        · rfl
  | _ =>
      rfl

theorem kindOf_of_literalText? {source : List UInt8} {t : Concrete} {value : String}
    (h : t.literalText? source = some value) :
    kindOf t = .symbolLiteral ∨ kindOf t = .stringLiteral := by
  have hliteral : t.literal? source = some value → t.isLiteral = true := by
    intro hvalue
    by_contra hnot
    rw [literal?_of_not_isLiteral source (Bool.eq_false_iff.mpr hnot)] at hvalue
    cases hvalue
  unfold literalText? at h
  split at h
  · exact Or.inl (by rw [kindOf, ‹t.form = _›])
  · exact Or.inl (by rw [kindOf, ‹t.form = _›, hliteral h]; rfl)
  · exact Or.inr (by rw [kindOf, ‹t.form = _›, hliteral h]; rfl)
  · cases h

theorem taskName?_ofCall (source : List UInt8) (t : Concrete) (receiver : Option Code)
    (arguments : List Code) (block : Option Code) :
    (ofCall source t receiver arguments block).taskName? =
      if t.callName? source = some "task" then
        match arguments with
        | [] => none
        | first :: _ =>
            if first.kind = .symbolLiteral ∨ first.kind = .stringLiteral then first.value
            else none
      else none := by
  cases arguments with
  | nil => simp [taskName?, ofCall]
  | cons first rest => simp [taskName?, ofCall]

theorem taskName?_convert (source : List UInt8) (t : Concrete) :
    (convert source t).taskName? = t.taskName? source := by
  by_cases hform : t.form = .call
  · have hkind := (form_eq_iff .call rfl).mp hform
    rw [convert_of_call source hform, taskName?_ofCall, Concrete.taskName?]
    by_cases hname : t.callName? source = some "task"
    · rw [if_pos hname, if_pos ⟨hkind, hname⟩]
      cases t.argumentPlaces with
      | nil =>
          rfl
      | cons first rest =>
          rw [convertAll, List.map_cons]
          dsimp only
          rw [kind_convert, value_convert]
          cases hvalue : first.node.literalText? source with
          | none =>
              rw [ite_self]
          | some value =>
              rw [if_pos (kindOf_of_literalText? hvalue)]
    · rw [if_neg hname, if_neg fun h => hname h.right]
  · have hnone : t.taskName? source = none :=
      if_neg fun h => hform ((form_eq_iff .call rfl).mpr h.left)
    rw [hnone]
    by_cases hkind : kindOf t = .call
    · -- an identifier is taken for a call, but for one without arguments
      have hidentifier : t.form = .identifier := by
        simpa [formsOf, hform] using form_mem_formsOf hkind
      rw [convert_eq_assemble, assemble, hidentifier, taskName?]
      exact ite_self none
    · rw [taskName?, kind_convert, if_neg fun h => hkind h.left]

theorem taskBody?_eq (c : Code) :
    c.taskBody? =
      match c.block with
      | some block => some block
      | none => c.children.find? fun child => child.kind == .block := by
  rw [taskBody?, bodyPlace?]
  cases hblock : c.block with
  | some block =>
      simp [atPlace?, hblock]
  | none =>
      rw [List.find?_eq_bind_findIdx?_getElem?]
      simp [atPlace?, Option.bind_map, Function.comp_def]

theorem kindOf_eq_block_iff {t : Concrete} : kindOf t = .block ↔ t.isBlock = true := by
  have hform : t.form = .block ↔ t.isBlock = true := by
    rw [Concrete.form, Form.ofKind_eq_iff (by decide)]
    simp [Form.kinds, isBlock]
  rw [← hform]
  constructor
  · intro hkind
    exact List.mem_singleton.mp (form_mem_formsOf hkind)
  · intro hblock
    rw [kindOf, hblock]

theorem taskBody?_convert (source : List UInt8) {t : Concrete} (hform : t.form = .call) :
    (convert source t).taskBody? = t.taskBody?.map (convert source) := by
  rw [taskBody?_eq, convert_of_call source hform, Concrete.taskBody?]
  dsimp only [ofCall]
  cases t.child? "block" with
  | some block =>
      rfl
  | none =>
      have hoperands : ((t.child? "receiver").map (convert source)).toList ++
          convertAll source t.argumentPlaces = t.operands.map (convert source) := by
        rw [operands, List.map_append, List.map_map, Option.toList_map]
        rfl
      have hblock : ((fun child : Code => child.kind == .block) ∘ convert source) = isBlock := by
        funext c
        rw [Function.comp, kind_convert, Bool.eq_iff_iff, beq_iff_eq]
        exact kindOf_eq_block_iff
      dsimp only [Option.map_none, Option.toList_none]
      rw [List.append_nil, hoperands, List.find?_map, hblock]

theorem delegates_map_convert (source : List UInt8) (t : Option Concrete) :
    delegates (t.map (convert source)) = t.any (holdsEvidence source) := by
  cases t with
  | none => exact delegates_none
  | some t => exact delegates_convert source t

theorem idleTask?_convert (source : List UInt8) (exclusions : Exclusions) (file : String)
    (p : Place) :
    (convert source p.node).idleTask? exclusions file =
      if p.node.isIdleTask source exclusions file then some (idleTaskAt source file p)
      else none := by
  rw [idleTask?, taskName?_convert]
  cases hname : p.node.taskName? source with
  | none =>
      have hnot : p.node.isIdleTask source exclusions file = false := by
        rw [isIdleTask, hname]
      exact (if_neg (Bool.eq_false_iff.mp hnot)).symm
  | some name =>
      have hform := (form_eq_iff .call rfl).mpr (taskName?_eq_some_iff.mp hname).left.left
      have hidle : p.node.isIdleTask source exclusions file =
          !(exclusions.excludesTask file name ||
            p.node.taskBody?.any (holdsEvidence source)) := by
        rw [isIdleTask, hname, Bool.not_or]
      dsimp only
      rw [taskBody?_convert source hform, delegates_map_convert, convert_of_call source hform]
      by_cases hpassed :
          (exclusions.excludesTask file name || p.node.taskBody?.any (holdsEvidence source)) = true
      · rw [if_pos hpassed, if_neg (by rw [hidle, hpassed]; exact Bool.false_ne_true)]
      · rw [if_neg hpassed, if_pos (by rw [hidle, Bool.eq_false_iff.mpr hpassed]; rfl),
          idleTaskAt, hname]
        rfl

theorem idleTasks_convert (source : List UInt8) (exclusions : Exclusions) (file : String)
    (t : Concrete) :
    (convert source t).idleTasks exclusions file =
      (t.idleTaskPlaces source exclusions file).map (idleTaskAt source file) := by
  have hother : ∀ c : Code, c.kind = .other → (c.idleTask? exclusions file).toList = [] := by
    intro c hkind
    rw [idleTask?, taskName?, hkind]
    rfl
  rw [idleTasks, List.filterMap_eq_flatMap_toList, flatMap_walk_convert source hother,
    idleTaskPlaces, List.map_eq_flatMap, Lists.flatMap_filter]
  refine List.flatMap_congr fun p _ => ?_
  rw [idleTask?_convert]
  by_cases hidle : p.node.isIdleTask source exclusions file
  · rw [if_pos hidle, if_pos hidle]
    rfl
  · rw [if_neg hidle, if_neg hidle]
    rfl

end Code

namespace Source

/-- A source file that can be read has one idle task for every place of its concrete tree that
declares one, and no other. -/
theorem idleTasks_read {stack : Stack} (label file : String) (exclusions : Exclusions)
    {source : Source} (h : source.IsReadable stack) :
    let places := source.tree.idleTaskPlaces source.bytes exclusions file
    ∃ code, source.read stack label = .ok code ∧
      code.idleTasks exclusions file = places.map (Concrete.idleTaskAt source.bytes file) ∧
      (places.map Concrete.Place.position).Nodup ∧
      (∀ p ∈ places, source.tree.at? p.position = some p.node) ∧
      ∀ p name, (p ∈ places ∧ (Concrete.idleTaskAt source.bytes file p).task = name) ↔
        Concrete.IsIdleTaskPlace source.bytes exclusions file source.tree p name := by
  refine ⟨Code.convert source.bytes source.tree, read_eq_ok label h, ?_, ?_, ?_, ?_⟩
  · exact Code.idleTasks_convert source.bytes exclusions file source.tree
  · have hsublist := List.filter_sublist (l := source.tree.visited)
      (p := fun p => p.node.isIdleTask source.bytes exclusions file)
    exact (hsublist.map _).nodup (Concrete.nodup_position_visited source.tree)
  · intro p hp
    exact Concrete.at?_of_visits (Concrete.visits_of_mem_visited (List.mem_of_mem_filter hp))
  · intro p name
    exact Concrete.mem_idleTaskPlaces_iff

/-- A task with an empty body, one whose body calls a usecase, and one that mentions a usecase but
has no body. -/
def threeTasks : Source :=
  let node kind field start stop row children : Concrete :=
    ⟨⟨kind, field, true, false, false, start, stop, row⟩, children⟩
  { bytes := Utf8.encode
      "task :a do\nend\ntask \"b\" do\nRunUsecase.call\nend\ntask :c, RunUsecase\n"
    tree := node "program" none 0 67 0 [
      node "call" none 0 14 0 [
        node "identifier" (some "method") 0 4 0 [],
        node "argument_list" (some "arguments") 5 7 0 [node "simple_symbol" none 5 7 0 []],
        node "do_block" (some "block") 8 14 0 []],
      node "call" none 15 46 2 [
        node "identifier" (some "method") 15 19 2 [],
        node "argument_list" (some "arguments") 20 23 2 [
          node "string" none 20 23 2 [node "string_content" none 21 22 2 []]],
        node "do_block" (some "block") 24 46 2 [
          node "body_statement" (some "body") 27 42 3 [
            node "call" none 27 42 3 [
              node "constant" (some "receiver") 27 37 3 [],
              node "identifier" (some "method") 38 42 3 []]]]],
      node "call" none 47 66 5 [
        node "identifier" (some "method") 47 51 5 [],
        node "argument_list" (some "arguments") 52 66 5 [
          node "simple_symbol" none 52 54 5 [],
          node "constant" none 56 66 5 []]]] }

theorem idleTaskPlaces_threeTasks : threeTasks.IsReadable ⟨30, 3, 1⟩ ∧
    (threeTasks.tree.idleTaskPlaces threeTasks.bytes {} "a.rake").map
      (Concrete.idleTaskAt threeTasks.bytes "a.rake") =
        [⟨"a.rake", "a", some 1⟩, ⟨"a.rake", "c", some 6⟩] := by
  have hfound : (threeTasks.read ⟨30, 3, 1⟩ "a.rake").toOption.map (Code.idleTasks {} "a.rake") =
      some [⟨"a.rake", "a", some 1⟩, ⟨"a.rake", "c", some 6⟩] := by
    decide +kernel
  have hreadable := isReadable_of_map_eq_some hfound
  rcases idleTasks_read "a.rake" "a.rake" {} hreadable with ⟨code, hread, hplaces, -⟩
  rw [hread] at hfound
  exact ⟨hreadable, hplaces ▸ Option.some.inj hfound⟩

end Source
end UsecaseAudit
