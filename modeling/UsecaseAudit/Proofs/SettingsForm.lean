import Mathlib.Data.List.Basic
import UsecaseAudit.Proofs.Places

/-!
# The written form of settings

Settings can be written as a document: every list under its key, an entry as a
mapping, and nothing but texts.  Loading a document that was written so gives the
settings back, in order and with what is listed twice, except that an entry
without an owner or a place is left out.

Loading leaves out such entries from any document.  So what was loaded, from
whatever document, is written and loaded again without a change.
-/

namespace UsecaseAudit

/-!
# Asking a mapping for its keys
-/

namespace Document

theorem get_cons_self (key : String) (value : Document) (fields : List (Document × Document)) :
    (mapping ((.text key, value) :: fields)).get key = value := by
  simp [get, isText]

theorem get_cons_of_ne {key other : String} (value : Document)
    (fields : List (Document × Document)) (h : other ≠ key) :
    (mapping ((.text other, value) :: fields)).get key = (mapping fields).get key := by
  simp [get, isText, h]

def ofTexts (texts : List String) : Document :=
  .list (texts.map .text)

theorem collect_append {α β : Type} (read : α → Except Whole.Refusal (Option β))
    (xs ys : List α) :
    collect read (xs ++ ys) =
      (collect read xs).bind fun first => (collect read ys).map fun second => first ++ second := by
  induction xs with
  | nil =>
      cases hys : collect read ys with
      | error e => simp [collect, hys, Except.bind, Except.map]
      | ok second => simp [collect, hys, Except.bind, Except.map]
  | cons x rest ih =>
      simp only [List.cons_append, collect, ih, bind, Except.bind]
      cases read x with
      | error e =>
          rfl
      | ok first =>
          cases collect read rest with
          | error e =>
              rfl
          | ok others =>
              cases collect read ys with
              | error e => rfl
              | ok second => simp [Except.map, pure, Except.pure]

theorem collect_map_of_guard {α β : Type} {write : α → β}
    {read : β → Except Whole.Refusal (Option α)} {p : α → Bool}
    (h : ∀ a, read (write a) = .ok (Option.guard p a)) (l : List α) :
    collect read (l.map write) = .ok (l.filter p) := by
  induction l with
  | nil =>
      rfl
  | cons a rest ih =>
      rw [List.map_cons, collect, h, ih, List.filter_cons]
      cases hp : p a with
      | true => simp [Option.guard, hp, bind, Except.bind, pure, Except.pure]
      | false => simp [Option.guard, hp, bind, Except.bind, pure, Except.pure]

theorem exists_of_mem_collect {α β : Type} {read : α → Except Whole.Refusal (Option β)}
    {xs : List α} {ys : List β} (h : collect read xs = .ok ys) {y : β} (hy : y ∈ ys) :
    ∃ x ∈ xs, read x = .ok (some y) := by
  induction xs generalizing ys with
  | nil =>
      cases h
      cases hy
  | cons x rest ih =>
      rcases exists_of_bind_eq_ok h with ⟨first, hfirst, hrest⟩
      rcases exists_of_bind_eq_ok hrest with ⟨others, hothers, hys⟩
      cases hys
      rcases List.mem_append.mp hy with hhead | htail
      · rw [Option.mem_toList] at hhead
        exact ⟨x, List.mem_cons_self, hhead ▸ hfirst⟩
      · rcases ih hothers htail with ⟨found, hfound, hread⟩
        exact ⟨found, List.mem_cons_of_mem x hfound, hread⟩

theorem texts_ofTexts (texts : List String) : (ofTexts texts).texts = .ok texts := by
  have hall := @collect_map_of_guard _ _ Document.text scalar? (fun _ => true) (fun _ => rfl) texts
  rwa [List.filter_eq_self.mpr fun _ _ => rfl] at hall

theorem name?_text (s : String) : (text s).name? = .ok (if s = "" then none else some s) :=
  rfl

theorem name?_eq (d : Document) :
    d.name? = d.scalar?.map fun read => read.filter fun s => s ≠ "" := by
  unfold name?
  cases d.scalar? with
  | error e =>
      rfl
  | ok read =>
      cases read with
      | none => rfl
      | some s =>
          by_cases hs : s = ""
          · simp [hs, bind, Except.bind, pure, Except.pure, Except.map, Option.filter]
          · simp [hs, bind, Except.bind, pure, Except.pure, Except.map, Option.filter]

theorem ne_empty_of_name? {d : Document} {s : String} (h : d.name? = .ok (some s)) : s ≠ "" := by
  rw [name?_eq] at h
  cases hread : d.scalar? with
  | error e =>
      rw [hread] at h
      cases h
  | ok read =>
      rw [hread] at h
      exact of_decide_eq_true (Option.filter_eq_some_iff.mp (Except.ok.inj h)).right

end Document

namespace Settings

open Document

/-!
# Writing settings
-/

def ofNamedExclusion (ownerKey namesKey : String) (entry : NamedExclusion) : Document :=
  .mapping [(.text ownerKey, .text entry.file), (.text namesKey, ofTexts entry.names)]

def ofSpecPlace (sourceKey : String) (place : SpecPlace) : Document :=
  .mapping [(.text sourceKey, .text place.source), (.text "spec_file", .text place.spec)]

def ofExclusions (e : Exclusions) : Document :=
  .mapping [
    (.text "controllers", ofTexts e.controllers),
    (.text "controller_actions",
      .list (e.controllerActions.map (ofNamedExclusion "controller" "actions"))),
    (.text "usecase_specs", ofTexts e.usecaseSpecs),
    (.text "rake_files", ofTexts e.rakeFiles),
    (.text "rake_tasks", .list (e.rakeTasks.map (ofNamedExclusion "rake_file" "tasks"))),
    (.text "rake_specs", ofTexts e.rakeSpecs)]

def ofSpecPlaces (p : SpecPlaces) : Document :=
  .mapping [
    (.text "usecases", .list (p.usecases.map (ofSpecPlace "usecase_file"))),
    (.text "rakes", .list (p.rakes.map (ofSpecPlace "rake_file")))]

/-- Settings as a document in which every key has its list and every scalar is a text. -/
def document (s : Settings) : Document :=
  .mapping [
    (.text "exclusions", ofExclusions s.exclusions),
    (.text "custom_mappings", ofSpecPlaces s.specPlaces)]

/-!
# Loading what was written
-/

def hasOwner (entry : NamedExclusion) : Bool :=
  entry.file != ""

def isPlaced (place : SpecPlace) : Bool :=
  place.source != "" && place.spec != ""

/-- The settings without the entries that lack an owner or a place. -/
def proper (s : Settings) : Settings :=
  { exclusions :=
      { s.exclusions with
        controllerActions := s.exclusions.controllerActions.filter hasOwner
        rakeTasks := s.exclusions.rakeTasks.filter hasOwner }
    specPlaces :=
      { usecases := s.specPlaces.usecases.filter isPlaced
        rakes := s.specPlaces.rakes.filter isPlaced } }

theorem namedExclusion?_ofNamedExclusion {ownerKey namesKey : String} (h : ownerKey ≠ namesKey)
    (entry : NamedExclusion) :
    namedExclusion? ownerKey namesKey (ofNamedExclusion ownerKey namesKey entry) =
      .ok (Option.guard hasOwner entry) := by
  have howner : (ofNamedExclusion ownerKey namesKey entry).get ownerKey = .text entry.file :=
    get_cons_self _ _ _
  have hnames : (ofNamedExclusion ownerKey namesKey entry).get namesKey = ofTexts entry.names := by
    rw [ofNamedExclusion, get_cons_of_ne _ _ h, get_cons_self]
  have hmapping : (ofNamedExclusion ownerKey namesKey entry).isMapping = true := rfl
  rw [namedExclusion?, if_pos hmapping, howner, hnames, texts_ofTexts, name?_text]
  by_cases hfile : entry.file = ""
  · simp [hfile, hasOwner, Option.guard, bind, Except.bind, pure, Except.pure]
  · simp [hfile, hasOwner, Option.guard, bind, Except.bind, pure, Except.pure]

theorem specPlace?_ofSpecPlace {sourceKey : String} (h : sourceKey ≠ "spec_file")
    (place : SpecPlace) :
    specPlace? sourceKey (ofSpecPlace sourceKey place) = .ok (Option.guard isPlaced place) := by
  have hsource : (ofSpecPlace sourceKey place).get sourceKey = .text place.source :=
    get_cons_self _ _ _
  have hspec : (ofSpecPlace sourceKey place).get "spec_file" = .text place.spec := by
    rw [ofSpecPlace, get_cons_of_ne _ _ h, get_cons_self]
  have hmapping : (ofSpecPlace sourceKey place).isMapping = true := rfl
  rw [specPlace?, if_pos hmapping, hsource, hspec, name?_text, name?_text]
  by_cases hempty : place.source = ""
  · simp [hempty, isPlaced, Option.guard, bind, Except.bind, pure, Except.pure]
  · by_cases hempty' : place.spec = ""
    · simp [hempty, hempty', isPlaced, Option.guard, bind, Except.bind, pure, Except.pure]
    · simp [hempty, hempty', isPlaced, Option.guard, bind, Except.bind, pure, Except.pure]

theorem exclusionsOf_ofExclusions (e : Exclusions) :
    exclusionsOf (ofExclusions e) =
      .ok { e with
        controllerActions := e.controllerActions.filter hasOwner
        rakeTasks := e.rakeTasks.filter hasOwner } := by
  have hactions := collect_map_of_guard
    (namedExclusion?_ofNamedExclusion (show "controller" ≠ "actions" by decide))
    e.controllerActions
  have htasks := collect_map_of_guard
    (namedExclusion?_ofNamedExclusion (show "rake_file" ≠ "tasks" by decide)) e.rakeTasks
  simp [exclusionsOf, ofExclusions, get_cons_self, get_cons_of_ne, texts_ofTexts, items,
    hactions, htasks, bind, Except.bind, pure, Except.pure]

theorem specPlacesOf_ofSpecPlaces (p : SpecPlaces) :
    specPlacesOf (ofSpecPlaces p) =
      .ok { usecases := p.usecases.filter isPlaced, rakes := p.rakes.filter isPlaced } := by
  have husecases := collect_map_of_guard
    (specPlace?_ofSpecPlace (show "usecase_file" ≠ "spec_file" by decide)) p.usecases
  have hrakes := collect_map_of_guard
    (specPlace?_ofSpecPlace (show "rake_file" ≠ "spec_file" by decide)) p.rakes
  simp [specPlacesOf, ofSpecPlaces, get_cons_self, get_cons_of_ne, items, husecases, hrakes, bind,
    Except.bind, pure, Except.pure]

theorem ofDocument?_document (s : Settings) : ofDocument? s.document = .ok (some s.proper) := by
  have hexclusions : s.document.get "exclusions" = ofExclusions s.exclusions :=
    get_cons_self _ _ _
  have hplaces : s.document.get "custom_mappings" = ofSpecPlaces s.specPlaces := by
    rw [document, get_cons_of_ne _ _ (by decide), get_cons_self]
  show ((exclusionsOf (s.document.get "exclusions")).bind fun exclusions =>
    (specPlacesOf (s.document.get "custom_mappings")).bind fun specPlaces => _) = _
  rw [hexclusions, hplaces, exclusionsOf_ofExclusions, specPlacesOf_ofSpecPlaces]
  rfl

/-!
# What loading leaves
-/

structure IsProper (s : Settings) : Prop where
  actions : ∀ entry ∈ s.exclusions.controllerActions, entry.file ≠ ""
  tasks : ∀ entry ∈ s.exclusions.rakeTasks, entry.file ≠ ""
  usecases : ∀ place ∈ s.specPlaces.usecases, place.source ≠ "" ∧ place.spec ≠ ""
  rakes : ∀ place ∈ s.specPlaces.rakes, place.source ≠ "" ∧ place.spec ≠ ""

theorem filter_hasOwner_eq_iff {entries : List NamedExclusion} :
    entries.filter hasOwner = entries ↔ ∀ entry ∈ entries, entry.file ≠ "" := by
  simp [List.filter_eq_self, hasOwner]

theorem filter_isPlaced_eq_iff {places : List SpecPlace} :
    places.filter isPlaced = places ↔
      ∀ place ∈ places, place.source ≠ "" ∧ place.spec ≠ "" := by
  simp [List.filter_eq_self, isPlaced]

theorem proper_eq_self_iff {s : Settings} : s.proper = s ↔ s.IsProper := by
  constructor
  · intro h
    have hexclusions := congrArg Settings.exclusions h
    have hplaces := congrArg Settings.specPlaces h
    exact
      { actions := filter_hasOwner_eq_iff.mp (congrArg Exclusions.controllerActions hexclusions)
        tasks := filter_hasOwner_eq_iff.mp (congrArg Exclusions.rakeTasks hexclusions)
        usecases := filter_isPlaced_eq_iff.mp (congrArg SpecPlaces.usecases hplaces)
        rakes := filter_isPlaced_eq_iff.mp (congrArg SpecPlaces.rakes hplaces) }
  · intro h
    rw [proper, filter_hasOwner_eq_iff.mpr h.actions, filter_hasOwner_eq_iff.mpr h.tasks,
      filter_isPlaced_eq_iff.mpr h.usecases, filter_isPlaced_eq_iff.mpr h.rakes]

theorem file_ne_empty_of_namedExclusion? {ownerKey namesKey : String} {d : Document}
    {entry : NamedExclusion} (h : namedExclusion? ownerKey namesKey d = .ok (some entry)) :
    entry.file ≠ "" := by
  unfold namedExclusion? at h
  split at h
  · rcases exists_of_bind_eq_ok h with ⟨owner?, howner, hrest⟩
    cases owner? with
    | none =>
        cases hrest
    | some owner =>
        rcases exists_of_bind_eq_ok hrest with ⟨names, _, hentry⟩
        cases hentry
        exact ne_empty_of_name? howner
  · cases h

theorem ne_empty_of_specPlace? {sourceKey : String} {d : Document} {place : SpecPlace}
    (h : specPlace? sourceKey d = .ok (some place)) : place.source ≠ "" ∧ place.spec ≠ "" := by
  unfold specPlace? at h
  split at h
  · rcases exists_of_bind_eq_ok h with ⟨source?, hsource, hrest⟩
    rcases exists_of_bind_eq_ok hrest with ⟨spec?, hspec, hplace⟩
    cases source? with
    | none =>
        cases hplace
    | some source =>
        cases spec? with
        | none =>
            cases hplace
        | some spec =>
            cases hplace
            exact ⟨ne_empty_of_name? hsource, ne_empty_of_name? hspec⟩
  · cases h

theorem ne_empty_of_mem_exclusions {ownerKey namesKey : String} {items : List Document}
    {entries : List NamedExclusion}
    (h : collect (namedExclusion? ownerKey namesKey) items = .ok entries) :
    ∀ entry ∈ entries, entry.file ≠ "" := by
  intro entry hmem
  rcases exists_of_mem_collect h hmem with ⟨_, _, hentry⟩
  exact file_ne_empty_of_namedExclusion? hentry

theorem ne_empty_of_mem_places {sourceKey : String} {items : List Document}
    {places : List SpecPlace} (h : collect (specPlace? sourceKey) items = .ok places) :
    ∀ place ∈ places, place.source ≠ "" ∧ place.spec ≠ "" := by
  intro place hmem
  rcases exists_of_mem_collect h hmem with ⟨_, _, hplace⟩
  exact ne_empty_of_specPlace? hplace

theorem isProper_default : IsProper {} where
  actions _ hmem := absurd hmem List.not_mem_nil
  tasks _ hmem := absurd hmem List.not_mem_nil
  usecases _ hmem := absurd hmem List.not_mem_nil
  rakes _ hmem := absurd hmem List.not_mem_nil

theorem exclusionsOf_eq_ok {part : Document} {e : Exclusions} (h : exclusionsOf part = .ok e) :
    (part.get "controllers").texts = .ok e.controllers ∧
      collect (namedExclusion? "controller" "actions") (part.get "controller_actions").items =
        .ok e.controllerActions ∧
      (part.get "usecase_specs").texts = .ok e.usecaseSpecs ∧
      (part.get "rake_files").texts = .ok e.rakeFiles ∧
      collect (namedExclusion? "rake_file" "tasks") (part.get "rake_tasks").items =
        .ok e.rakeTasks ∧
      (part.get "rake_specs").texts = .ok e.rakeSpecs := by
  rcases exists_of_bind_eq_ok h with ⟨_, hcontrollers, h⟩
  rcases exists_of_bind_eq_ok h with ⟨_, hactions, h⟩
  rcases exists_of_bind_eq_ok h with ⟨_, husecaseSpecs, h⟩
  rcases exists_of_bind_eq_ok h with ⟨_, hrakeFiles, h⟩
  rcases exists_of_bind_eq_ok h with ⟨_, htasks, h⟩
  rcases exists_of_bind_eq_ok h with ⟨_, hrakeSpecs, h⟩
  cases h
  exact ⟨hcontrollers, hactions, husecaseSpecs, hrakeFiles, htasks, hrakeSpecs⟩

theorem specPlacesOf_eq_ok {part : Document} {p : SpecPlaces} (h : specPlacesOf part = .ok p) :
    collect (specPlace? "usecase_file") (part.get "usecases").items = .ok p.usecases ∧
      collect (specPlace? "rake_file") (part.get "rakes").items = .ok p.rakes := by
  rcases exists_of_bind_eq_ok h with ⟨_, husecases, h⟩
  rcases exists_of_bind_eq_ok h with ⟨_, hrakes, h⟩
  cases h
  exact ⟨husecases, hrakes⟩

theorem ofDocument?_eq_some {d : Document} {s : Settings} (h : ofDocument? d = .ok (some s)) :
    (d = .null ∧ s = {}) ∨
      d.isMapping = true ∧ exclusionsOf (d.get "exclusions") = .ok s.exclusions ∧
        specPlacesOf (d.get "custom_mappings") = .ok s.specPlaces := by
  unfold ofDocument? at h
  split at h
  · cases h
    exact Or.inl ⟨rfl, rfl⟩
  · rcases exists_of_bind_eq_ok h with ⟨_, hexclusions, h⟩
    rcases exists_of_bind_eq_ok h with ⟨_, hplaces, h⟩
    cases h
    exact Or.inr ⟨rfl, hexclusions, hplaces⟩
  · cases h

theorem isProper_of_ofDocument? {d : Document} {s : Settings}
    (h : ofDocument? d = .ok (some s)) : s.IsProper := by
  rcases ofDocument?_eq_some h with ⟨_, rfl⟩ | ⟨_, hexclusions, hplaces⟩
  · exact isProper_default
  · rcases exclusionsOf_eq_ok hexclusions with ⟨_, hactions, _, _, htasks, _⟩
    rcases specPlacesOf_eq_ok hplaces with ⟨husecases, hrakes⟩
    exact
      { actions := ne_empty_of_mem_exclusions hactions
        tasks := ne_empty_of_mem_exclusions htasks
        usecases := ne_empty_of_mem_places husecases
        rakes := ne_empty_of_mem_places hrakes }

theorem ofDocument?_document_eq_self_iff {s : Settings} :
    ofDocument? s.document = .ok (some s) ↔ s.IsProper := by
  rw [ofDocument?_document, Except.ok.injEq, Option.some_inj, proper_eq_self_iff]

end Settings

/-!
# Settings files
-/

namespace LoadedSettings

open Settings

def Holds (disk : Disk) (path : Path) (document : Document) : Prop :=
  ∃ place file text,
    Means disk path place ∧ disk.read (Path.ofLocation place) = .ok file ∧
      Utf8.decode file.bytes = .ok text ∧
        documentOf disk.host (place.getLast?.getD "") text = .ok document

section

variable {disk : Disk} {path : Path} {document : Document} {settings : Settings}

theorem load_of_holds (h : Holds disk path document) :
    ∃ place, load disk path =
      ((ofDocument? document).mapError Failure.number).bind fun settings? =>
        settings?.elim (.error (.settings (.notMapping (place.getLast?.getD "")))) fun settings =>
          .ok { settings := settings, source := some place } := by
  rcases h with ⟨place, file, text, hmeans, hfile, htext, hdocument⟩
  refine ⟨place, ?_⟩
  rw [load_of_means hmeans, Disk.isPresent,
    Disk.asks_of_lookup (Disk.read_eq_ok_iff.mp hfile).left, ofFile_of_text hfile htext, hdocument]
  cases hsettings : ofDocument? document with
  | error e =>
      simp [mapError_ok, mapError_error, Except.bind, hsettings]
  | ok settings? =>
      cases settings? with
      | none => simp [mapError_ok, Except.bind, hsettings]
      | some settings => simp [mapError_ok, Except.bind, hsettings]

theorem exists_load_iff_of_holds (h : Holds disk path document) :
    (∃ loaded, load disk path = .ok loaded ∧ loaded.settings = settings) ↔
      ofDocument? document = .ok (some settings) := by
  rcases load_of_holds h with ⟨place, hload⟩
  rw [hload]
  cases ofDocument? document with
  | error e =>
      simp [mapError_error, Except.bind]
  | ok settings? =>
      cases settings? with
      | none => simp [mapError_ok, Except.bind]
      | some found => simp [mapError_ok, Except.bind]

theorem isProper_of_ofFile {place : Location} (h : ofFile disk place = .ok settings) :
    settings.IsProper := by
  cases hread : disk.read (Path.ofLocation place) with
  | error e =>
      cases h.symm.trans (ofFile_of_unread hread)
  | ok file =>
      cases htext : Utf8.decode file.bytes with
      | error fault =>
          cases h.symm.trans (ofFile_of_notText hread htext)
      | ok text =>
          rw [ofFile_of_text hread htext] at h
          rcases exists_of_bind_eq_ok h with ⟨document, _, hdocument⟩
          rcases exists_of_bind_eq_ok hdocument with ⟨settings?, hsettings, hfound⟩
          cases settings? with
          | none =>
              cases hfound
          | some found =>
              cases hfound
              exact isProper_of_ofDocument? (eq_ok_of_mapError_eq_ok hsettings)

/-- Whatever a settings file holds, no entry that is loaded lacks its owner or its place. -/
theorem isProper_of_load {loaded : LoadedSettings} (h : load disk path = .ok loaded) :
    loaded.settings.IsProper := by
  unfold load at h
  rcases exists_of_bind_eq_ok h with ⟨place, _, hplace⟩
  rcases exists_of_bind_eq_ok hplace with ⟨present, _, hpresent⟩
  split at hpresent
  · rcases exists_of_bind_eq_ok hpresent with ⟨settings, hsettings, hloaded⟩
    cases hloaded
    exact isProper_of_ofFile hsettings
  · cases hpresent
    exact isProper_default

end

/-- A disk on which the settings file of the usual name holds a document, as its host reads it. -/
def diskHolding (document : Document) : Disk :=
  { entries := [(Starter.fileName, .file (File.ofText "---"))]
    host := { interpret := fun _ => .document document } }

theorem holds_diskHolding (document : Document) :
    Holds (diskHolding document) (Path.ofText Starter.fileName) document := by
  have hadmits : (diskHolding document).host.Admits (Path.ofText Starter.fileName)
      (Path.ofText Starter.fileName) :=
    ⟨.plain (by decide +kernel), by decide +kernel⟩
  have hmeans : Means (diskHolding document) (Path.ofText Starter.fileName)
      [Starter.fileName] :=
    .file hadmits (rfl : _ = Except.ok (Entry.file (File.ofText "---")))
  have htext : Utf8.decode (File.ofText "---").bytes = .ok "---" := by decide +kernel
  have hblank : Blank.allBlank "---" = false := by decide +kernel
  refine ⟨_, File.ofText "---", "---", hmeans, rfl, htext, ?_⟩
  rw [documentOf, hblank]
  rfl

/-- Written settings load unchanged exactly if they are proper, and settings that were once loaded
are written and loaded without a change. -/
theorem load_document :
    (∀ document : Document, ∃ disk path, Holds disk path document) ∧
      (∀ (settings : Settings) (disk : Disk) (path : Path),
        Holds disk path settings.document →
          ((∃ loaded, load disk path = .ok loaded ∧ loaded.settings = settings) ↔
            settings.IsProper)) ∧
      ∀ (disk : Disk) (path : Path) (loaded : LoadedSettings), load disk path = .ok loaded →
        ∀ (disk' : Disk) (path' : Path), Holds disk' path' loaded.settings.document →
          ∃ reloaded, load disk' path' = .ok reloaded ∧ reloaded.settings = loaded.settings := by
  refine ⟨fun document => ⟨_, _, holds_diskHolding document⟩, ?_, ?_⟩
  · intro settings disk path hholds
    rw [exists_load_iff_of_holds hholds, ofDocument?_document_eq_self_iff]
  · intro disk path loaded hload disk' path' hholds
    rw [exists_load_iff_of_holds hholds, ofDocument?_document_eq_self_iff]
    exact isProper_of_load hload

/-- Keys that are no texts or not known, a text for a list, and entries that cannot be used. -/
def looseDocument : Document :=
  .mapping [
    (.int 1, .null),
    (.text "exclusions", .mapping [
      (.text "controllers", .text "app/controllers/a.rb"),
      (.text "controller_actions", .list [
        .mapping [(.text "controller", .int 7), (.text "actions", .list [.bool true, .null])],
        .mapping [(.text "controller", .text ""), (.text "actions", .list [.text "index"])],
        .text "index"]),
      (.text "owners", .date)]),
    (.text "custom_mappings", .list [.null])]

def looseSettings : Settings :=
  { exclusions :=
      { controllers := ["app/controllers/a.rb"]
        controllerActions := [{ file := "7", names := ["True"] }] } }

def placelessSettings : Settings :=
  { specPlaces := { rakes := [{ source := "lib/tasks/a.rake", spec := "" }] } }

theorem load_document_loose :
    (∃ loaded, load (diskHolding looseDocument) (Path.ofText Starter.fileName) = .ok loaded ∧
        loaded.settings = looseSettings) ∧
      (∃ reloaded,
        load (diskHolding looseSettings.document) (Path.ofText Starter.fileName) = .ok reloaded ∧
          reloaded.settings = looseSettings) ∧
      ¬ ∃ loaded,
        load (diskHolding placelessSettings.document) (Path.ofText Starter.fileName) =
            .ok loaded ∧ loaded.settings = placelessSettings := by
  have hloose : Settings.ofDocument? looseDocument = .ok (some looseSettings) := by
    decide +kernel
  rcases (exists_load_iff_of_holds (holds_diskHolding looseDocument)).mpr hloose with
    ⟨loaded, hload, hsettings⟩
  refine ⟨⟨loaded, hload, hsettings⟩, ?_, ?_⟩
  · rw [← hsettings]
    exact load_document.right.right _ _ loaded hload _ _ (holds_diskHolding _)
  · intro h
    have hproper := (load_document.right.left placelessSettings _ _ (holds_diskHolding _)).mp h
    exact (hproper.rakes _ List.mem_cons_self).right rfl

end LoadedSettings
end UsecaseAudit
