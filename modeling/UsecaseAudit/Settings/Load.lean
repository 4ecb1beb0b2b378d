import UsecaseAudit.Settings
import UsecaseAudit.Settings.Document

/-!
# Settings from a document

Settings are read key by key.  What is missing or of the wrong shape counts as
empty, and entries without an owner or without a place are left out.  A document
that is neither empty nor a mapping has no settings, and one that has a whole
number with too many digits where a text is asked for is refused.
-/

namespace UsecaseAudit
namespace Settings

/-- An entry that lists names under an owner; without an owner the names are not looked at. -/
def namedExclusion? (ownerKey namesKey : String) (entry : Document) :
    Except Whole.Refusal (Option NamedExclusion) :=
  if entry.isMapping then do
    match ← (entry.get ownerKey).name? with
    | none => return none
    | some owner =>
        let names ← (entry.get namesKey).texts
        return some { file := owner, names := names }
  else
    .ok none

/-- An entry that gives the place of a spec; the place is looked at even without a source. -/
def specPlace? (sourceKey : String) (entry : Document) :
    Except Whole.Refusal (Option SpecPlace) :=
  if entry.isMapping then do
    let source? ← (entry.get sourceKey).name?
    let spec? ← (entry.get "spec_file").name?
    match source?, spec? with
    | some source, some spec => return some { source := source, spec := spec }
    | _, _ => return none
  else
    .ok none

def exclusionsOf (part : Document) : Except Whole.Refusal Exclusions := do
  let controllers ← (part.get "controllers").texts
  let controllerActions ←
    Document.collect (namedExclusion? "controller" "actions") (part.get "controller_actions").items
  let usecaseSpecs ← (part.get "usecase_specs").texts
  let rakeFiles ← (part.get "rake_files").texts
  let rakeTasks ←
    Document.collect (namedExclusion? "rake_file" "tasks") (part.get "rake_tasks").items
  let rakeSpecs ← (part.get "rake_specs").texts
  return {
    controllers := controllers
    controllerActions := controllerActions
    usecaseSpecs := usecaseSpecs
    rakeFiles := rakeFiles
    rakeTasks := rakeTasks
    rakeSpecs := rakeSpecs }

def specPlacesOf (part : Document) : Except Whole.Refusal SpecPlaces := do
  let usecases ← Document.collect (specPlace? "usecase_file") (part.get "usecases").items
  let rakes ← Document.collect (specPlace? "rake_file") (part.get "rakes").items
  return { usecases := usecases, rakes := rakes }

/-- The settings in a document; an empty document has none, and only mappings have some. -/
def ofDocument? : Document → Except Whole.Refusal (Option Settings)
  | .null => .ok (some {})
  | d@(.mapping _) => do
      let exclusions ← exclusionsOf (d.get "exclusions")
      let specPlaces ← specPlacesOf (d.get "custom_mappings")
      return some { exclusions := exclusions, specPlaces := specPlaces }
  | _ => .ok none

end Settings
end UsecaseAudit
