import UsecaseAudit.Proofs.JsonReader
import UsecaseAudit.Proofs.ReportNumbers

/-!
# The JSON report read back

A report in JSON is a well-formed text from which the results can be read back:
a check that was not run is told from a check without findings, and every text
and number comes back as it was.  There is no report at all when a line number, or
the number of findings, has too many digits to be written.
-/

namespace UsecaseAudit
namespace Report

/-!
# Decoding
-/

def field? (key : String) : Json → Option Json
  | .object fields => fields.lookup key
  | _ => none

def textIn? (key : String) (v : Json) : Option String :=
  match field? key v with
  | some (.text s) => some s
  | _ => none

def lineIn? (v : Json) : Option (Option Int) :=
  match field? "line" v with
  | some .null => some none
  | some (.int n) => some (some n)
  | _ => none

def actionOf? (v : Json) : Option IdleAction := do
  let file ← textIn? "file" v
  let action ← textIn? "action_name" v
  let line ← lineIn? v
  return { file := file, action := action, line := line }

def taskOf? (v : Json) : Option IdleTask := do
  let file ← textIn? "file" v
  let task ← textIn? "task_name" v
  let line ← lineIn? v
  return { file := file, task := task, line := line }

def specOf? (v : Json) : Option MissingSpec := do
  let file ← textIn? "file" v
  let expected ← textIn? "expected_spec" v
  return { file := file, expected := expected }

def warningOf? (v : Json) : Option Warning := do
  let file ← textIn? "file" v
  let message ← textIn? "message" v
  return { file := file, message := message }

def listOf? {α : Type} (decode : Json → Option α) : Json → Option (List α)
  | .list items => items.mapM decode
  | _ => none

def findingsOf? {α : Type} (decode : Json → Option α) : Json → Option (Option (List α))
  | .null => some none
  | v => (listOf? decode v).map some

def resultsOf? (v : Json) : Option Results := do
  let controllers ← (field? "controller_violations" v).bind (findingsOf? actionOf?)
  let usecaseSpecs ← (field? "usecase_violations" v).bind (findingsOf? specOf?)
  let rakes ← (field? "rake_violations" v).bind (findingsOf? taskOf?)
  let rakeSpecs ← (field? "rake_spec_violations" v).bind (findingsOf? specOf?)
  let warnings ← (field? "warnings" v).bind (listOf? warningOf?)
  return {
    controllers := controllers
    usecaseSpecs := usecaseSpecs
    rakes := rakes
    rakeSpecs := rakeSpecs
    warnings := warnings }

def totalOf? (v : Json) : Option Int :=
  match field? "total_violations" v with
  | some (.int n) => some n
  | _ => none

def decode? (report : String) : Option Results :=
  (Json.Reader.read? report.toList).bind resultsOf?

def decodeTotal? (report : String) : Option Int :=
  (Json.Reader.read? report.toList).bind totalOf?

/-!
# What was encoded is decoded
-/

theorem lineIn?_eq {v : Json} {line : Option Int} (h : field? "line" v = some (intJson line)) :
    lineIn? v = some line := by
  unfold lineIn?
  rw [h]
  cases line with
  | none => rfl
  | some n => rfl

theorem actionOf?_actionJson (v : IdleAction) : actionOf? (actionJson v) = some v := by
  have hline : lineIn? (actionJson v) = some v.line := lineIn?_eq rfl
  unfold actionOf?
  rw [hline]
  rfl

theorem taskOf?_taskJson (v : IdleTask) : taskOf? (taskJson v) = some v := by
  have hline : lineIn? (taskJson v) = some v.line := lineIn?_eq rfl
  unfold taskOf?
  rw [hline]
  rfl

theorem specOf?_specJson (v : MissingSpec) : specOf? (specJson v) = some v :=
  rfl

theorem warningOf?_warningJson (w : Warning) : warningOf? (warningJson w) = some w :=
  rfl

section Lists

variable {α : Type} {encode : α → Json} {decode : Json → Option α}

theorem listOf?_map (h : ∀ a, decode (encode a) = some a) (items : List α) :
    listOf? decode (.list (items.map encode)) = some items := by
  show (items.map encode).mapM decode = some items
  induction items with
  | nil =>
      rfl
  | cons item items ih =>
      rw [List.map_cons, List.mapM_cons, h, ih]
      rfl

theorem findingsOf?_findingsJson (h : ∀ a, decode (encode a) = some a)
    (findings : Option (List α)) :
    findingsOf? decode (findingsJson encode findings) = some findings := by
  cases findings with
  | none =>
      rfl
  | some found =>
      show (listOf? decode (.list (found.map encode))).map some = some (some found)
      rw [listOf?_map h]
      rfl

end Lists

theorem resultsOf?_resultsJson (r : Results) : resultsOf? (resultsJson r) = some r := by
  have hcontrollers : (field? "controller_violations" (resultsJson r)).bind
      (findingsOf? actionOf?) = some r.controllers :=
    findingsOf?_findingsJson actionOf?_actionJson r.controllers
  have husecases : (field? "usecase_violations" (resultsJson r)).bind
      (findingsOf? specOf?) = some r.usecaseSpecs :=
    findingsOf?_findingsJson specOf?_specJson r.usecaseSpecs
  have hrakes : (field? "rake_violations" (resultsJson r)).bind
      (findingsOf? taskOf?) = some r.rakes :=
    findingsOf?_findingsJson taskOf?_taskJson r.rakes
  have hrakeSpecs : (field? "rake_spec_violations" (resultsJson r)).bind
      (findingsOf? specOf?) = some r.rakeSpecs :=
    findingsOf?_findingsJson specOf?_specJson r.rakeSpecs
  have hwarnings : (field? "warnings" (resultsJson r)).bind
      (listOf? warningOf?) = some r.warnings :=
    listOf?_map warningOf?_warningJson r.warnings
  unfold resultsOf?
  rw [hcontrollers, husecases, hrakes, hrakeSpecs, hwarnings]
  rfl

theorem read?_write_resultsJson (r : Results) :
    Json.Reader.read? ((resultsJson r).write 0 ++ ['\n']) = some (resultsJson r) :=
  Json.Reader.read?_write (resultsJson r)

theorem isText_write_resultsJson (r : Results) :
    Json.Grammar.IsText ((resultsJson r).write 0 ++ ['\n']) :=
  ⟨_, ['\n'], .nil _, Json.Grammar.value_write 0 (resultsJson r) ['\n'],
    Json.Grammar.blanks_newLine 0 []⟩

theorem decode?_write_resultsJson (r : Results) :
    decode? (String.ofList ((resultsJson r).write 0 ++ ['\n'])) = some r := by
  rw [decode?, String.toList_ofList, read?_write_resultsJson, Option.bind_some]
  exact resultsOf?_resultsJson r

def presentLengths (r : Results) : List Nat :=
  [r.controllers.map List.length, r.usecaseSpecs.map List.length, r.rakes.map List.length,
    r.rakeSpecs.map List.length].filterMap id

def presentTotal (r : Results) : Nat :=
  (presentLengths r).foldr (· + ·) 0

theorem foldr_filterMap_cons {α : Type} (findings : Option (List α))
    (lengths : List (Option Nat)) :
    ((findings.map List.length :: lengths).filterMap id).foldr (· + ·) 0 =
      Results.count findings + (lengths.filterMap id).foldr (· + ·) 0 := by
  cases findings with
  | none => exact (Nat.zero_add _).symm
  | some found => rfl

theorem presentTotal_eq (r : Results) : presentTotal r = r.total := by
  unfold presentTotal presentLengths Results.total
  rw [foldr_filterMap_cons, foldr_filterMap_cons, foldr_filterMap_cons, foldr_filterMap_cons]
  show _ + (_ + (_ + (_ + 0))) = _
  omega

/-- A report in JSON is written exactly if all its numbers can be written.  It is well-formed then
and loses nothing: the results are read back from it, so that different results never have the same
report, and the total in it counts the lists present.  Otherwise nothing is written. -/
theorem json_readBack (print : String → String) (r : Results) :
    (IsShort r → ∃ report, text print .json r = { text := report } ∧
      Json.Grammar.IsText report.toList ∧
      decode? report = some r ∧
      (∀ s, text print .json s = { text := report } → s = r) ∧
      decodeTotal? report = some (presentTotal r : Int)) ∧
    (¬ IsShort r → text print .json r = { failure := some .tooManyDigits }) := by
  refine ⟨fun hshort => ?_, fun hlong => text_json_of_not_isShort print hlong⟩
  refine ⟨_, text_json_of_isShort print hshort, ?_, decode?_write_resultsJson r, ?_, ?_⟩
  · rw [String.toList_ofList]
    exact isText_write_resultsJson r
  · intro s hsame
    have hshort' : IsShort s := (failure_text_eq_none_iff print .json).mp (hsame ▸ rfl)
    rw [text_json_of_isShort print hshort'] at hsame
    have htexts := congrArg (fun written => decode? written.text) hsame
    dsimp only at htexts
    rw [decode?_write_resultsJson, decode?_write_resultsJson] at htexts
    exact Option.some.inj htexts
  · rw [decodeTotal?, String.toList_ofList, read?_write_resultsJson, presentTotal_eq]
    rfl

def actionResults (line : Int) : Results :=
  { controllers := some
      [{ file := "app/controllers/a_controller.rb", action := "index", line := some line }] }

theorem json_readBack_lastLine :
    ∃ report,
      text (fun line => line) .json (actionResults (Whole.leastLong - 1)) = { text := report } ∧
      decode? report = some (actionResults (Whole.leastLong - 1)) := by
  have hshort : IsShort (actionResults (Whole.leastLong - 1)) := by decide +kernel
  rcases (json_readBack (fun line => line) _).left hshort with ⟨report, htext, _, hdecoded, _⟩
  exact ⟨report, htext, hdecoded⟩

/-- With one digit more nothing is written, so that the results cannot be read back. -/
theorem text_json_longLine :
    text (fun line => line) .json (actionResults (Whole.leastLong)) =
        { failure := some .tooManyDigits } ∧
      decode? (text (fun line => line) .json (actionResults (Whole.leastLong))).text ≠
        some (actionResults (Whole.leastLong)) := by
  have hlong : ¬ IsShort (actionResults (Whole.leastLong)) := by decide +kernel
  have htext := text_json_of_not_isShort (fun line => line) hlong
  have hempty : decode? "" = none := by decide +kernel
  refine ⟨htext, ?_⟩
  rw [htext, hempty]
  intro h
  cases h

end Report
end UsecaseAudit
