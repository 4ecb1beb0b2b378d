import UsecaseAudit.Report

/-!
# Numbers that break a report off

A report holds the line numbers of findings and the number of findings.  When all of
them can be written the report is written to its end, in either format.  Otherwise it
is broken off: in JSON before anything is written, on the console at the first finding
whose line number has too many digits.
-/

namespace UsecaseAudit
namespace Report

def knownLines (r : Results) : List Int :=
  (r.controllers.getD []).filterMap IdleAction.line ++ (r.rakes.getD []).filterMap IdleTask.line

def IsShort (r : Results) : Prop :=
  (∀ n ∈ knownLines r, Whole.isShort n = true) ∧ Whole.isShort r.total = true

instance : DecidablePred IsShort :=
  fun r => inferInstanceAs (Decidable (_ ∧ Whole.isShort r.total = true))

/-!
# Pieces
-/

def isWritten (piece : Piece) : Bool :=
  piece.toOption.isSome

theorem failure_ofPieces (pieces : List Piece) :
    (Written.ofPieces pieces).failure = none ↔ ∀ piece ∈ pieces, isWritten piece = true := by
  induction pieces with
  | nil =>
      simp [Written.ofPieces]
  | cons piece rest ih =>
      cases piece with
      | error e => simp [Written.ofPieces, isWritten, Except.toOption]
      | ok text => simpa [Written.ofPieces, isWritten, Except.toOption] using ih

theorem isWritten_text (n : Int) : isWritten (Whole.text n) = Whole.isShort n := by
  unfold Whole.text
  split
  · next h => exact h.symm
  · next h => exact (Bool.eq_false_iff.mpr h).symm

theorem isWritten_map (piece : Piece) (f : String → String) :
    isWritten (piece.map f) = isWritten piece := by
  cases piece with
  | error e => rfl
  | ok text => rfl

/-!
# JSON
-/

theorem areShort_iff {items : List Json} :
    Json.areShort items = true ↔ ∀ item ∈ items, item.isShort = true := by
  induction items with
  | nil =>
      simp [Json.areShort]
  | cons item rest ih =>
      rw [Json.areShort, Bool.and_eq_true, ih, List.forall_mem_cons]

theorem isShort_intJson (line : Option Int) :
    (intJson line).isShort = true ↔ ∀ n ∈ line, Whole.isShort n = true := by
  cases line with
  | none => simp [intJson, Json.isShort]
  | some n => simp [intJson, Json.isShort]

theorem isShort_actionJson (v : IdleAction) :
    (actionJson v).isShort = true ↔ ∀ n ∈ v.line, Whole.isShort n = true := by
  simp [actionJson, Json.isShort, Json.haveShort, isShort_intJson]

theorem isShort_taskJson (v : IdleTask) :
    (taskJson v).isShort = true ↔ ∀ n ∈ v.line, Whole.isShort n = true := by
  simp [taskJson, Json.isShort, Json.haveShort, isShort_intJson]

section Lists

variable {α : Type} {encode : α → Json}

theorem isShort_findingsJson {line : α → Option Int}
    (h : ∀ a, (encode a).isShort = true ↔ ∀ n ∈ line a, Whole.isShort n = true)
    (findings : Option (List α)) :
    (findingsJson encode findings).isShort = true ↔
      ∀ n ∈ (findings.getD []).filterMap line, Whole.isShort n = true := by
  cases findings with
  | none =>
      simp [findingsJson, Json.isShort]
  | some found =>
      rw [findingsJson, Json.isShort, areShort_iff, List.forall_mem_map, Option.getD_some]
      simp only [h, List.forall_mem_filterMap, Option.mem_def]

theorem isShort_list_map (h : ∀ a, (encode a).isShort = true) (items : List α) :
    Json.areShort (items.map encode) = true := by
  rw [areShort_iff, List.forall_mem_map]
  exact fun a _ => h a

theorem isShort_findingsJson_of_forall (h : ∀ a, (encode a).isShort = true)
    (findings : Option (List α)) : (findingsJson encode findings).isShort = true := by
  cases findings with
  | none => rfl
  | some found => exact isShort_list_map h found

end Lists

theorem isShort_resultsJson (r : Results) : (resultsJson r).isShort = true ↔ IsShort r := by
  have hspecs := @isShort_findingsJson_of_forall _ specJson fun _ => rfl
  have hwarnings := @isShort_list_map _ warningJson fun _ => rfl
  simp only [resultsJson, Json.isShort, Json.haveShort, hspecs, hwarnings, Bool.and_eq_true,
    isShort_findingsJson isShort_actionJson, isShort_findingsJson isShort_taskJson, true_and,
    and_true, IsShort, knownLines, List.forall_mem_append, and_assoc]

section

variable (print : String → String) {r : Results}

theorem text_json_of_isShort (h : IsShort r) :
    text print .json r =
      { text := String.ofList ((resultsJson r).write 0 ++ ['\n']) } := by
  have hjson : json r = .ok (String.ofList ((resultsJson r).write 0 ++ ['\n'])) := by
    rw [json, Json.written, if_pos ((isShort_resultsJson r).mpr h)]
    rfl
  rw [text, pieces, hjson, Written.ofPieces, Written.ofPieces, String.append_empty]

theorem text_json_of_not_isShort (h : ¬ IsShort r) :
    text print .json r = { failure := some .tooManyDigits } := by
  have hjson : json r = .error .tooManyDigits := by
    rw [json, Json.written, if_neg fun hshort => h ((isShort_resultsJson r).mp hshort)]
    rfl
  rw [text, pieces, hjson, Written.ofPieces]

/-!
# The console
-/

theorem isWritten_located (file name : String) (line : Option Int) :
    isWritten (located file line name) = true ↔ ∀ n ∈ line, Whole.isShort n = true := by
  have hmap : located file line name =
      (lineText line).map fun number => file ++ ":" ++ number ++ " - " ++ name := by
    unfold located
    cases lineText line with
    | error e => rfl
    | ok number => rfl
  rw [hmap, isWritten_map]
  cases line with
  | none => simp [lineText, isWritten, Except.toOption]
  | some n => simp [lineText, isWritten_text]

theorem forall_isWritten_consoleSection {α : Type} (heading : String)
    (line : α → Except Whole.Refusal String) (findings : Option (List α)) :
    (∀ piece ∈ consoleSection print heading line findings, isWritten piece = true) ↔
      ∀ v ∈ findings.getD [], isWritten (line v) = true := by
  unfold consoleSection
  cases findings.getD [] with
  | nil =>
      simp
  | cons v rest =>
      rw [List.forall_mem_cons, List.forall_mem_map]
      simp only [isWritten_map]
      exact and_iff_right rfl

theorem forall_isWritten_consoleSections (r : Results) :
    (∀ piece ∈ consoleSections print r, isWritten piece = true) ↔
      ∀ n ∈ knownLines r, Whole.isShort n = true := by
  have hspecs : ∀ v, isWritten (specLine v) = true := fun _ => rfl
  simp only [consoleSections, List.forall_mem_append, forall_isWritten_consoleSection, hspecs,
    actionLine, taskLine, isWritten_located, implies_true, and_true, knownLines,
    List.forall_mem_filterMap, Option.mem_def]

theorem isShort_of_not_hasFindings (h : r.hasFindings = false) : IsShort r := by
  have htotal : r.total = 0 := Nat.eq_zero_of_not_pos (of_decide_eq_false h)
  have hcontrollers : r.controllers.getD [] = [] := by
    rw [Results.total, Results.count, Results.count] at htotal
    exact List.eq_nil_of_length_eq_zero (by omega)
  have hrakes : r.rakes.getD [] = [] := by
    rw [Results.total, Results.count, Results.count, Results.count] at htotal
    exact List.eq_nil_of_length_eq_zero (by omega)
  rw [IsShort, knownLines, hcontrollers, hrakes, htotal]
  exact ⟨nofun, by decide +kernel⟩

theorem failure_console_eq_none_iff : (text print .console r).failure = none ↔ IsShort r := by
  rw [text, pieces, failure_ofPieces, console]
  cases hfindings : r.hasFindings with
  | false =>
      refine iff_of_true ?_ (isShort_of_not_hasFindings hfindings)
      rw [if_neg Bool.false_ne_true, List.forall_mem_append, List.forall_mem_map,
        List.forall_mem_singleton]
      exact ⟨fun _ _ => rfl, rfl⟩
  | true =>
      rw [if_pos rfl, List.forall_mem_append, List.forall_mem_append,
        forall_isWritten_consoleSections, List.forall_mem_map, List.forall_mem_cons,
        List.forall_mem_singleton, totalLine, isWritten_map, isWritten_text]
      simp [isWritten, Except.toOption, IsShort]

/-- A report is written to its end exactly if all its numbers can be written. -/
theorem failure_text_eq_none_iff (format : Format) :
    (text print format r).failure = none ↔ IsShort r := by
  cases format with
  | console => exact failure_console_eq_none_iff print
  | json =>
      by_cases h : IsShort r
      · rw [text_json_of_isShort print h]
        exact iff_of_true rfl h
      · rw [text_json_of_not_isShort print h]
        exact iff_of_false nofun h

end

end Report
end UsecaseAudit
