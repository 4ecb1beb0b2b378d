import Mathlib.Data.List.Sort
import UsecaseAudit.Proofs.Isolation
import UsecaseAudit.Proofs.SettingsSchema

/-!
# When an audit fails, and with what

An audit fails for its root, for its settings, for the names of its checks or for a
place that its checks ask about, in this order.  What can be wrong with each of them is
said here about paths, about the entries at them, about the text of the settings file
and about the names alone.  An audit for which none of this is wrong gives results;
what the source files hold never decides whether it fails.
-/

namespace UsecaseAudit

/-!
# The settings
-/

namespace LoadedSettings

open Settings

def HasText (disk : Disk) (place : Location) (text : String) : Prop :=
  ∃ file, disk.read (Path.ofLocation place) = .ok file ∧ Utf8.decode file.bytes = .ok text

/-- The file at a location has data, which is null if its text is blank. -/
def HasDocument (disk : Disk) (place : Location) (document : Document) : Prop :=
  ∃ text, HasText disk place text ∧
    (Blank.allBlank text = true ∧ document = .null ∨
      Blank.allBlank text = false ∧ disk.host.interpret text = .document document)

/-- What can be wrong with a settings file that exists.  Only an error about the form of its text is
reported as one of the settings; any other error of their reader is passed on as it is. -/
inductive Defect (disk : Disk) (place : Location) : Failure → Prop where
  | unreadable {e : SystemError} :
      disk.read (Path.ofLocation place) = .error e →
      Defect disk place (.settings (.unreadable (Path.ofLocation place).text e.message))
  | notText {file : File} {fault : Utf8.Fault} :
      disk.read (Path.ofLocation place) = .ok file → Utf8.decode file.bytes = .error fault →
      Defect disk place (.settings (.unreadable (Path.ofLocation place).text fault.message))
  | malformed {text explanation : String} :
      HasText disk place text → Blank.allBlank text = false →
      disk.host.interpret text = .malformed explanation →
      Defect disk place (.settings (.malformed (place.getLast?.getD "") explanation))
  | broken {text : String} {e : ReaderError} :
      HasText disk place text → Blank.allBlank text = false →
      disk.host.interpret text = .broken e → Defect disk place (.reader e)
  | overlong {document : Document} :
      HasDocument disk place document → Part.whole.Overlong document →
      Defect disk place (.number .tooManyDigits)
  | notMapping {document : Document} :
      HasDocument disk place document → document ≠ .null → document.isMapping = false →
      Defect disk place (.settings (.notMapping (place.getLast?.getD "")))

inductive Fails (disk : Disk) (path : Path) : Failure → Prop where
  | refused {failure : Failure} : disk.host.Refuses path failure → Fails disk path failure
  | tooLong {p : Path} : Asks disk path p → disk.findsTooLong p = true →
      Fails disk path (.tooLong p)
  | defect {place : Location} {entry : Entry} {failure : Failure} :
      Means disk path place → disk.lookup (Path.ofLocation place) = .ok entry →
      Defect disk place failure → Fails disk path failure

/-- A path gives settings if its settings file is absent or has no defect. -/
def Gives (disk : Disk) (path : Path) : Prop :=
  ∃ place, Means disk path place ∧
    (disk.Lacks (Path.ofLocation place) ∨
      ∃ entry, disk.lookup (Path.ofLocation place) = .ok entry ∧ ∀ e, ¬ Defect disk place e)

section

variable {disk : Disk} {path : Path} {place : Location}

theorem ofDocument?_eq_none_iff {document : Document} :
    ofDocument? document = .ok none ↔ document ≠ .null ∧ document.isMapping = false := by
  cases document with
  | null =>
      simp [ofDocument?]
  | mapping fields =>
      refine iff_of_false ?_ (by simp [Document.isMapping])
      intro h
      rcases exists_of_bind_eq_ok h with ⟨_, _, hrest⟩
      rcases exists_of_bind_eq_ok hrest with ⟨_, _, hnone⟩
      cases hnone
  | _ => simp [ofDocument?, Document.isMapping]

theorem documentOf_of_hasDocument {document : Document} (h : HasDocument disk place document) :
    ∃ file text, disk.read (Path.ofLocation place) = .ok file ∧
      Utf8.decode file.bytes = .ok text ∧
        documentOf disk.host (place.getLast?.getD "") text = .ok document := by
  rcases h with ⟨text, ⟨file, hread, htext⟩, ⟨hblank, rfl⟩ | ⟨hblank, hdocument⟩⟩
  · exact ⟨file, text, hread, htext, if_pos hblank⟩
  · refine ⟨file, text, hread, htext, ?_⟩
    rw [documentOf, hblank, hdocument]
    rfl

theorem hasDocument_or_defect {text : String} (h : HasText disk place text) :
    (∃ document, HasDocument disk place document) ∨ ∃ failure, Defect disk place failure := by
  cases hblank : Blank.allBlank text with
  | true =>
      exact Or.inl ⟨.null, text, h, Or.inl ⟨hblank, rfl⟩⟩
  | false =>
      cases hread : disk.host.interpret text with
      | document document => exact Or.inl ⟨document, text, h, Or.inr ⟨hblank, hread⟩⟩
      | malformed explanation => exact Or.inr ⟨_, .malformed h hblank hread⟩
      | broken e => exact Or.inr ⟨_, .broken h hblank hread⟩

theorem ofFile_of_hasDocument {document : Document} (h : HasDocument disk place document) :
    ofFile disk place =
      ((ofDocument? document).mapError Failure.number).bind fun settings? =>
        settings?.elim (.error (.settings (.notMapping (place.getLast?.getD "")))) .ok := by
  rcases documentOf_of_hasDocument h with ⟨file, text, hread, htext, hdocument⟩
  rw [ofFile_of_text hread htext, hdocument]
  rfl

theorem ofFile_of_defect {failure : Failure} (h : Defect disk place failure) :
    ofFile disk place = .error failure := by
  cases h with
  | unreadable hread =>
      exact ofFile_of_unread hread
  | notText hread htext =>
      exact ofFile_of_notText hread htext
  | malformed htext hblank hinterpret =>
      rcases htext with ⟨file, hread, htext⟩
      rw [ofFile_of_text hread htext, documentOf, hblank, hinterpret]
      rfl
  | broken htext hblank hinterpret =>
      rcases htext with ⟨file, hread, htext⟩
      rw [ofFile_of_text hread htext, documentOf, hblank, hinterpret]
      rfl
  | overlong hdocument hlong =>
      have hsettings : ofDocument? _ = .error .tooManyDigits :=
        Part.reading_eq_error_iff.mpr hlong
      rw [ofFile_of_hasDocument hdocument, hsettings]
      rfl
  | notMapping hdocument hnull hmapping =>
      rw [ofFile_of_hasDocument hdocument, ofDocument?_eq_none_iff.mpr ⟨hnull, hmapping⟩]
      rfl

theorem defect_or_ofFile (disk : Disk) (place : Location) :
    (∃ failure, Defect disk place failure) ∨ ∃ settings, ofFile disk place = .ok settings := by
  cases hread : disk.read (Path.ofLocation place) with
  | error e =>
      exact Or.inl ⟨_, .unreadable hread⟩
  | ok file =>
      cases htext : Utf8.decode file.bytes with
      | error fault =>
          exact Or.inl ⟨_, .notText hread htext⟩
      | ok text =>
          rcases hasDocument_or_defect ⟨file, hread, htext⟩ with ⟨document, hdocument⟩ | hdefect
          · cases hsettings : ofDocument? document with
            | error e =>
                exact Or.inl ⟨_, .overlong hdocument (Part.reading_eq_error_iff.mp hsettings)⟩
            | ok settings? =>
                cases settings? with
                | none =>
                    rcases ofDocument?_eq_none_iff.mp hsettings with ⟨hnull, hmapping⟩
                    exact Or.inl ⟨_, .notMapping hdocument hnull hmapping⟩
                | some settings =>
                    refine Or.inr ⟨settings, ?_⟩
                    rw [ofFile_of_hasDocument hdocument, hsettings]
                    rfl
          · exact Or.inl hdefect

theorem load_of_fails {failure : Failure} (h : Fails disk path failure) :
    load disk path = .error failure := by
  cases h with
  | refused hrefuses =>
      unfold load
      rw [locate_of_refuses hrefuses]
      rfl
  | tooLong hasks hlong =>
      exact load_of_tooLong hasks hlong
  | defect hmeans hentry hdefect =>
      rw [load_of_means hmeans, Disk.isPresent, Disk.asks_of_lookup hentry,
        ofFile_of_defect hdefect]
      rfl

theorem load_of_gives (h : Gives disk path) : ∃ loaded, load disk path = .ok loaded := by
  rcases h with ⟨place, hmeans, hlacks | ⟨entry, hentry, hsound⟩⟩
  · rw [load_of_means hmeans, Disk.isPresent, Disk.asks_of_lacks hlacks]
    exact ⟨_, rfl⟩
  · rcases defect_or_ofFile disk place with ⟨e, hdefect⟩ | ⟨settings, hsettings⟩
    · exact absurd hdefect (hsound e)
    · rw [load_of_means hmeans, Disk.isPresent, Disk.asks_of_lookup hentry, hsettings]
      exact ⟨_, rfl⟩

theorem fails_or_gives (disk : Disk) (path : Path) :
    (∃ failure, Fails disk path failure) ∨ Gives disk path := by
  rcases refuses_or_means disk path with
    ⟨failure, hrefuses⟩ | ⟨q, hadmits, hlong⟩ | ⟨place, hmeans⟩
  · exact Or.inl ⟨failure, .refused hrefuses⟩
  · exact Or.inl ⟨_, .tooLong (.path hadmits) hlong⟩
  · rcases disk.lookup_cases (Path.ofLocation place) with ⟨entry, hentry⟩ | hlacks | hlong
    · by_cases hdefect : ∃ e, Defect disk place e
      · rcases hdefect with ⟨e, he⟩
        exact Or.inl ⟨_, .defect hmeans hentry he⟩
      · exact Or.inr ⟨place, hmeans, Or.inr ⟨entry, hentry, not_exists.mp hdefect⟩⟩
    · exact Or.inr ⟨place, hmeans, Or.inl hlacks⟩
    · exact Or.inl ⟨_, .tooLong (.file hmeans) hlong⟩

end

end LoadedSettings

/-!
# The names of checks
-/

namespace Check

theorem ofName?_eq_none_iff {text : String} :
    ofName? text = none ↔ ∀ check : Check, check.name ≠ text := by
  rw [ofName?, List.find?_eq_none]
  constructor
  · intro h check heq
    exact h check (Audit.mem_all check) (beq_iff_eq.mpr heq)
  · intro h check _ heq
    exact h check (beq_iff_eq.mp heq)

theorem pairwise_distinctSorted (texts : List String) :
    (distinctSorted texts).Pairwise (· < ·) := by
  have hle : (distinctSorted texts).Pairwise fun a b => textLE a b = true := by
    refine List.pairwise_mergeSort ?_ ?_ _
    · intro a b c hab hbc
      exact Discovery.textLE_iff.mpr
        (String.le_trans (Discovery.textLE_iff.mp hab) (Discovery.textLE_iff.mp hbc))
    · intro a b
      rw [Bool.or_eq_true, Discovery.textLE_iff, Discovery.textLE_iff]
      exact String.le_total a b
  have hnodup : (distinctSorted texts).Nodup := by
    have hkey := Lists.nodup_map_eraseDupsBy id texts
    rw [List.map_id] at hkey
    exact (List.mergeSort_perm _ _).nodup_iff.mpr hkey
  refine hle.imp₂ ?_ hnodup
  intro a b hab hne
  rw [← String.not_le]
  intro hba
  exact hne (String.le_antisymm (Discovery.textLE_iff.mp hab) hba)

theorem mem_unknownNames_iff {given : List String} {name : String} :
    name ∈ unknownNames given ↔
      name ∈ given.map Lower.text ∧ ∀ check : Check, check.name ≠ name := by
  rw [unknownNames, distinctSorted, List.mem_mergeSort, List.mem_eraseDups, List.mem_filter,
    Option.isNone_iff_eq_none, ofName?_eq_none_iff]

/-- The names that no check has among those that are given, in lower case, each once and in
increasing order. -/
structure AreUnknown (given names : List String) : Prop where
  sorted : names.Pairwise (· < ·)
  mem_iff : ∀ name, name ∈ names ↔
    name ∈ given.map Lower.text ∧ ∀ check : Check, check.name ≠ name

theorem areUnknown_iff {given names : List String} :
    AreUnknown given names ↔ unknownNames given = names := by
  constructor
  · rintro ⟨hsorted, hmem⟩
    refine List.Pairwise.eq_of_mem_iff (pairwise_distinctSorted _) hsorted ?_
    intro name
    exact mem_unknownNames_iff.trans (hmem name).symm
  · rintro rfl
    exact ⟨pairwise_distinctSorted _, fun _ => mem_unknownNames_iff⟩

theorem named_of_areUnknown {given names : List String} (h : AreUnknown given names)
    (hne : names ≠ []) : named (some given) = .error names := by
  rw [named, areUnknown_iff.mp h]
  cases names with
  | nil => exact absurd rfl hne
  | cons first rest => rfl

theorem AreUnknown.eq {given names others : List String} (h : AreUnknown given names)
    (hothers : AreUnknown given others) : names = others :=
  (areUnknown_iff.mp h).symm.trans (areUnknown_iff.mp hothers)

theorem named_of_known {given : List String} (h : AreUnknown given []) :
    named (some given) = .ok (all.filter (Audit.isAsked given)) := by
  refine Audit.named_eq fun name hname => ?_
  by_contra hnone
  have hmem := (h.mem_iff (Lower.text name)).mpr
    ⟨List.mem_map_of_mem hname, not_exists.mp hnone⟩
  cases hmem

end Check

/-!
# The places that checks ask about
-/

namespace Audit

/-- A check stops at its first search place with an obstacle, or, if all of them can be searched and
it looks for specs, at the first file whose spec has a place that is too long. -/
inductive Stops (p : Project) (check : Check) : Failure → Prop where
  | search {before after : List SearchPlace} {place : SearchPlace} {failure : Failure} :
      check.role.searchPlaces = before ++ place :: after →
      (∀ earlier ∈ before, Discovery.obstacle? p.disk p.root earlier = none) →
      Discovery.obstacle? p.disk p.root place = some failure →
      Stops p check failure
  | spec {before after : List ProjectPath} {path : ProjectPath} :
      check ∈ specChecks →
      (∀ place ∈ check.role.searchPlaces, Discovery.obstacle? p.disk p.root place = none) →
      files p check = before ++ path :: after →
      (∀ earlier ∈ before, isBlocked p check.role earlier = false) →
      isBlocked p check.role path = true →
      Stops p check (.tooLong (specPlace p check.role path))

theorem blocked?_eq_some_iff {p : Project} {check : Check} {failure : Failure} :
    blocked? p check = some failure ↔ ∃ before path after, files p check = before ++ path :: after ∧
      (∀ earlier ∈ before, isBlocked p check.role earlier = false) ∧
      isBlocked p check.role path = true ∧ .tooLong (specPlace p check.role path) = failure := by
  rw [blocked?, Option.map_eq_some_iff]
  simp only [List.find?_eq_some_iff_append, Bool.not_eq_true']
  constructor
  · rintro ⟨path, ⟨hblocked, before, after, hfiles, hbefore⟩, rfl⟩
    exact ⟨before, path, after, hfiles, hbefore, hblocked, rfl⟩
  · rintro ⟨before, path, after, hfiles, hbefore, hblocked, rfl⟩
    exact ⟨path, ⟨hblocked, before, after, hfiles, hbefore⟩, rfl⟩

theorem stops_iff {p : Project} {check : Check} {failure : Failure} :
    Stops p check failure ↔ stop? p check = some failure := by
  rw [stop?, Option.or_eq_some_iff, unreached?, Discovery.unreachable?_eq_none_iff,
    Option.ite_none_right_eq_some, Discovery.unreachable?, List.findSome?_eq_some_iff,
    blocked?_eq_some_iff]
  constructor
  · intro h
    cases h with
    | search hplaces hbefore hobstacle =>
        exact Or.inl ⟨_, _, _, hplaces, hobstacle, hbefore⟩
    | spec hspec hreach hfiles hbefore hlong =>
        exact Or.inr ⟨hreach, hspec, _, _, _, hfiles, hbefore, hlong, rfl⟩
  · rintro (⟨before, place, after, hplaces, hobstacle, hbefore⟩ |
      ⟨hreach, hspec, before, path, after, hfiles, hbefore, hlong, rfl⟩)
    · exact .search hplaces hbefore hobstacle
    · exact .spec hspec hreach hfiles hbefore hlong

/-- Whether a request asks for a check: without names it asks for all of them. -/
def Wants (request : Request) (check : Check) : Prop :=
  ∀ given, request.checks = some given → isAsked given check = true

def FirstStop (p : Project) (request : Request) (failure : Failure) : Prop :=
  ∃ before check after, Check.all = before ++ check :: after ∧ Wants request check ∧
    Stops p check failure ∧ ∀ earlier ∈ before, Wants request earlier → ∀ e, ¬ Stops p earlier e

theorem firstStop_iff {p : Project} {request : Request} {asked : Check → Bool} {failure : Failure}
    (hasked : ∀ check, asked check = true ↔ Wants request check) :
    FirstStop p request failure ↔ stopAmong? p asked = some failure := by
  have hnone : ∀ check, stopIfAsked? p asked check = none ↔
      (Wants request check → ∀ e, ¬ Stops p check e) := by
    intro check
    simp only [stopIfAsked?, ite_eq_right_iff, hasked, stops_iff, Option.eq_none_iff_forall_ne_some,
      ne_eq]
  rw [stopAmong?, List.findSome?_eq_some_iff]
  constructor
  · rintro ⟨before, check, after, hall, hwants, hstops, hbefore⟩
    refine ⟨before, check, after, hall, ?_, fun earlier hearlier => ?_⟩
    · exact Option.ite_none_right_eq_some.mpr ⟨(hasked check).mpr hwants, stops_iff.mp hstops⟩
    · exact (hnone earlier).mpr (hbefore earlier hearlier)
  · rintro ⟨before, check, after, hall, hstop, hbefore⟩
    rcases Option.ite_none_right_eq_some.mp hstop with ⟨hcheck, hfailure⟩
    exact ⟨before, check, after, hall, (hasked check).mp hcheck, stops_iff.mpr hfailure,
      fun earlier hearlier => (hnone earlier).mp (hbefore earlier hearlier)⟩

/-!
# The run
-/

def HasSettings (disk : Disk) (root : Location) (request : Request) : Prop :=
  request.settings = none → LoadedSettings.Gives disk (settingsPathOf root request)

/-- What can be wrong with a request.  Settings are looked for once there is a root, the names of
checks matter once there are settings, and checks are made once their names are known. -/
inductive Fails (disk : Disk) (request : Request) : Failure → Prop where
  | root {failure : Failure} :
      Discovery.RootFails disk request.root failure → Fails disk request failure
  | settings {root : Location} {failure : Failure} :
      Discovery.IsRoot disk request.root root → request.settings = none →
      LoadedSettings.Fails disk (settingsPathOf root request) failure →
      Fails disk request failure
  | checks {root : Location} {given names : List String} :
      Discovery.IsRoot disk request.root root → HasSettings disk root request →
      request.checks = some given → Check.AreUnknown given names → names ≠ [] →
      Fails disk request (.unknownChecks names)
  | stop {root : Location} {loaded : LoadedSettings} {failure : Failure} :
      Discovery.IsRoot disk request.root root → settingsFor disk root request = .ok loaded →
      (∀ given, request.checks = some given → Check.AreUnknown given []) →
      FirstStop ⟨disk, root, loaded.settings⟩ request failure → Fails disk request failure

section

variable {disk : Disk} {request : Request} {root : Location}

theorem settingsFor_of_hasSettings (h : HasSettings disk root request) :
    ∃ loaded, settingsFor disk root request = .ok loaded := by
  cases hgiven : request.settings with
  | some settings =>
      unfold settingsFor
      rw [hgiven]
      exact ⟨_, rfl⟩
  | none =>
      rw [settingsFor_eq_load disk root hgiven]
      exact LoadedSettings.load_of_gives (h hgiven)

theorem unknown_or_named (request : Request) :
    (∃ given names, request.checks = some given ∧ Check.AreUnknown given names ∧ names ≠ []) ∨
      (∀ given, request.checks = some given → Check.AreUnknown given []) ∧
        ∃ checks, Check.named request.checks = .ok checks ∧
          ∀ check, checks.contains check = true ↔ Wants request check := by
  cases hgiven : request.checks with
  | none =>
      refine Or.inr ⟨nofun, Check.all, rfl, fun check => iff_of_true ?_ ?_⟩
      · exact List.contains_iff_mem.mpr (mem_all check)
      · intro given heq
        cases hgiven.symm.trans heq
  | some given =>
      by_cases hnil : Check.unknownNames given = []
      · have hunknown : Check.AreUnknown given [] := Check.areUnknown_iff.mpr hnil
        refine Or.inr ⟨?_, _, Check.named_of_known hunknown, fun check => ?_⟩
        · rintro other ⟨⟩
          exact hunknown
        · rw [contains_filter_all]
          constructor
          · intro hasked other heq
            cases hgiven.symm.trans heq
            exact hasked
          · intro hwants
            exact hwants given hgiven
      · exact Or.inl ⟨given, _, rfl, Check.areUnknown_iff.mpr rfl, hnil⟩

theorem outcome_of_fails {failure : Failure} (h : Fails disk request failure) :
    (run disk request).outcome = .error failure := by
  rw [outcome_run_eq]
  cases h with
  | root hroot =>
      rw [Discovery.rootOf_of_rootFails hroot]
      rfl
  | settings hroot hgiven hfails =>
      rw [Discovery.rootOf_of_isRoot hroot, Except.bind, settingsFor_eq_load disk _ hgiven,
        LoadedSettings.load_of_fails hfails]
      rfl
  | checks hroot hsettings hgiven hunknown hne =>
      rcases settingsFor_of_hasSettings hsettings with ⟨loaded, hloaded⟩
      rw [Discovery.rootOf_of_isRoot hroot, Except.bind, hloaded, Except.bind, hgiven,
        Check.named_of_areUnknown hunknown hne]
      rfl
  | stop hroot hloaded hknown hstop =>
      rcases unknown_or_named request with
        ⟨given, names, hgiven, hunknown, hne⟩ | ⟨_, checks, hchecks, hwants⟩
      · exact absurd ((hunknown.eq (hknown given hgiven))) hne
      · rw [Discovery.rootOf_of_isRoot hroot, Except.bind, hloaded, Except.bind, hchecks]
        exact verdict_eq_error_iff.mpr ((firstStop_iff hwants).mp hstop)

theorem outcome_cases (disk : Disk) (request : Request) :
    (∃ failure, Fails disk request failure) ∨
      ∃ results, (run disk request).outcome = .ok results := by
  rcases Discovery.rootFails_or_isRoot disk request.root with ⟨failure, hfails⟩ | ⟨root, hroot⟩
  · exact Or.inl ⟨failure, .root hfails⟩
  have hsettings : (∃ failure, Fails disk request failure) ∨ HasSettings disk root request := by
    cases hgiven : request.settings with
    | some settings =>
        refine Or.inr fun hnone => ?_
        cases hgiven.symm.trans hnone
    | none =>
        rcases LoadedSettings.fails_or_gives disk (settingsPathOf root request) with
          ⟨failure, hfails⟩ | hgives
        · exact Or.inl ⟨failure, .settings hroot hgiven hfails⟩
        · exact Or.inr fun _ => hgives
  rcases hsettings with hfails | hsettings
  · exact Or.inl hfails
  rcases unknown_or_named request with
    ⟨given, names, hgiven, hunknown, hne⟩ | ⟨hknown, checks, hchecks, hwants⟩
  · exact Or.inl ⟨_, .checks hroot hsettings hgiven hunknown hne⟩
  rcases settingsFor_of_hasSettings hsettings with ⟨loaded, hloaded⟩
  cases hstop : stopAmong? ⟨disk, root, loaded.settings⟩ checks.contains with
  | some failure =>
      exact Or.inl ⟨failure, .stop hroot hloaded hknown ((firstStop_iff hwants).mpr hstop)⟩
  | none =>
      rw [outcome_run_eq, Discovery.rootOf_of_isRoot hroot, Except.bind, hloaded, Except.bind,
        hchecks]
      exact Or.inr ⟨_, verdict_eq_ok_iff.mpr ⟨hstop, rfl⟩⟩

theorem outcome_eq_error_iff {failure : Failure} :
    (run disk request).outcome = .error failure ↔ Fails disk request failure := by
  refine ⟨?_, outcome_of_fails⟩
  intro houtcome
  rcases outcome_cases disk request with ⟨wrong, hwrong⟩ | ⟨results, hresults⟩
  · cases houtcome.symm.trans (outcome_of_fails hwrong)
    exact hwrong
  · cases houtcome.symm.trans hresults

/-!
# What files hold
-/

/-- Of all that files hold, only the settings file decides how an audit fails. -/
theorem outcome_eq_error_iff_of_shape {d e : Disk} (h : d.shape = e.shape)
    (hread : ∀ place, TakesSettingsFrom d request place →
      d.read (Path.ofLocation place) = e.read (Path.ofLocation place)) (failure : Failure) :
    (run d request).outcome = .error failure ↔ (run e request).outcome = .error failure := by
  have hrootOf : Discovery.rootOf e request.root = Discovery.rootOf d request.root := by
    rw [← Discovery.rootOf_shape, ← h, Discovery.rootOf_shape]
  rw [outcome_run_eq, outcome_run_eq, hrootOf]
  cases hroot : Discovery.rootOf d request.root with
  | error other =>
      exact Iff.rfl
  | ok root =>
      dsimp only [Except.bind]
      rw [← settingsFor_eq_of_read h hread hroot]
      cases settingsFor d root request with
      | error other =>
          exact Iff.rfl
      | ok loaded =>
          cases (Check.named request.checks).mapError Failure.unknownChecks with
          | error other =>
              exact Iff.rfl
          | ok checks =>
              dsimp only
              rw [verdict_eq_error_iff, verdict_eq_error_iff, stopAmong?_same h]

end

/-- An audit fails exactly for what is wrong with its root, its settings, the names of its checks or
a place that a check asks about, and otherwise gives results.  What the source files hold has no part
in it. -/
theorem run_fails_iff (disk : Disk) (request : Request) :
    (∀ failure, (run disk request).outcome = .error failure ↔ Fails disk request failure) ∧
    ((∀ failure, ¬ Fails disk request failure) →
      ∃ results, (run disk request).outcome = .ok results) ∧
    (∀ names, (Failure.unknownChecks names).message =
      "Unknown checks requested: " ++ ", ".intercalate names) ∧
    ∀ other : Disk, disk.shape = other.shape →
      (∀ place, TakesSettingsFrom disk request place →
        disk.read (Path.ofLocation place) = other.read (Path.ofLocation place)) →
      ∀ failure, (run disk request).outcome = .error failure ↔
        (run other request).outcome = .error failure := by
  refine ⟨fun _ => outcome_eq_error_iff, ?_, fun _ => rfl, fun _ => outcome_eq_error_iff_of_shape⟩
  intro hsound
  rcases outcome_cases disk request with ⟨failure, hfails⟩ | hresults
  · exact absurd hfails (hsound failure)
  · exact hresults

def misnamedRequest : Request :=
  { root := "/", checks := some ["Zeta", "controllers", "BETA", "zeta"] }

theorem areUnknown_misnamed :
    Check.AreUnknown ["Zeta", "controllers", "BETA", "zeta"] ["beta", "zeta"] := by
  have hlower : ["Zeta", "controllers", "BETA", "zeta"].map Lower.text =
      ["zeta", "controllers", "beta", "zeta"] := by
    decide +kernel
  refine ⟨by decide, ?_⟩
  intro name
  rw [hlower, ← Check.ofName?_eq_none_iff]
  constructor
  · intro hname
    rcases List.mem_pair.mp hname with rfl | rfl
    · decide
    · decide
  · rintro ⟨hname, hnone⟩
    simp only [List.mem_cons, List.not_mem_nil, or_false] at hname ⊢
    rcases hname with rfl | rfl | rfl | rfl
    · exact Or.inr rfl
    · cases hnone
    · exact Or.inl rfl
    · exact Or.inr rfl

/-- Files that are no texts and settings that are absent leave the unknown names to be reported. -/
theorem run_fails_misnamed :
    Fails unreadableDisk misnamedRequest (.unknownChecks ["beta", "zeta"]) ∧
      (run unreadableDisk misnamedRequest).outcome = .error (.unknownChecks ["beta", "zeta"]) := by
  have hplain : unreadableDisk.host.Admits (Path.ofText "/") (Path.ofText "/") :=
    ⟨.plain (by decide +kernel), by decide +kernel⟩
  have hroot : Discovery.IsRoot unreadableDisk misnamedRequest.root [] :=
    ⟨⟨_, hplain, by decide +kernel⟩, unreadableDisk.entries, rfl⟩
  have hsettings : HasSettings unreadableDisk [] misnamedRequest := by
    intro _
    have hlacks : unreadableDisk.Lacks (Path.ofLocation [Starter.fileName]) :=
      Disk.lacks_of_isPresent (by decide +kernel)
    have hadmits : unreadableDisk.host.Admits (Path.ofLocation [Starter.fileName])
        (Path.ofLocation [Starter.fileName]) :=
      ⟨.plain (by decide +kernel), by decide +kernel⟩
    exact ⟨[Starter.fileName], .nothing hadmits hlacks, Or.inl hlacks⟩
  have hfails : Fails unreadableDisk misnamedRequest (.unknownChecks ["beta", "zeta"]) :=
    .checks hroot hsettings rfl areUnknown_misnamed (List.cons_ne_nil _ _)
  exact ⟨hfails, ((run_fails_iff _ _).left _).mpr hfails⟩

/-- Nothing is at a path that begins at the home folder of an unknown user, but this is not what the
audit says. -/
theorem run_unknownHome :
    Disk.Lacks {} (Path.ofText "~no_such_user_zz") ∧
      (run {} { root := "~no_such_user_zz" }).outcome = .error .homeUnknown := by
  have huser : (Path.ofText "~no_such_user_zz").user? = some "no_such_user_zz" := by
    decide +kernel
  have hrefuses : Host.Refuses {} (Path.ofText "~no_such_user_zz") .homeUnknown :=
    .homeless huser (by decide) nofun
  exact ⟨Disk.lacks_of_isPresent (by decide +kernel), outcome_of_fails (.root (.refused hrefuses))⟩

end Audit
end UsecaseAudit
