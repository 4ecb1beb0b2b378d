import UsecaseAudit.Proofs.Outcome
import UsecaseAudit.Proofs.Walk

/-!
# What an exclusion takes away

An entry that is added to the exclusions, at whatever position, takes from the
results the findings and warnings that it names and leaves all others as they
were.  A run that fails goes on failing in the same way, with one exception: an
audit that stops at a file whose spec has a place that is too long goes on when
this file is excluded.
-/

namespace UsecaseAudit

/-!
# Added entries
-/

inductive Addition where
  | file (check : Check) (path : String)
  | actions (entry : NamedExclusion)
  | tasks (entry : NamedExclusion)
  deriving DecidableEq, Repr

namespace Addition

/-- Puts an item before position `n` of a list, or at its end. -/
def insertAt {α : Type} (n : Nat) (item : α) (items : List α) : List α :=
  items.take n ++ item :: items.drop n

def addTo (n : Nat) (e : Exclusions) : Addition → Exclusions
  | .file .controllers path => { e with controllers := insertAt n path e.controllers }
  | .file .usecaseSpecs path => { e with usecaseSpecs := insertAt n path e.usecaseSpecs }
  | .file .rakes path => { e with rakeFiles := insertAt n path e.rakeFiles }
  | .file .rakeSpecs path => { e with rakeSpecs := insertAt n path e.rakeSpecs }
  | .actions entry => { e with controllerActions := insertAt n entry e.controllerActions }
  | .tasks entry => { e with rakeTasks := insertAt n entry e.rakeTasks }

def namesFile (check : Check) (file : String) : Addition → Bool
  | .file other path => other == check && path == file
  | _ => false

def namesAction (file action : String) : Addition → Bool
  | .actions entry => entry.file == file && entry.names.contains action
  | _ => false

def namesTask (file task : String) : Addition → Bool
  | .tasks entry => entry.file == file && entry.names.contains task
  | _ => false

theorem namesFile_iff {a : Addition} {check : Check} {file : String} :
    a.namesFile check file = true ↔ a = .file check file := by
  cases a with
  | file other path => simp [namesFile]
  | actions entry => simp [namesFile]
  | tasks entry => simp [namesFile]

theorem any_insertAt {α : Type} (n : Nat) (item : α) (items : List α) (test : α → Bool) :
    (insertAt n item items).any test = (test item || items.any test) := by
  have hsplit : items.any test = ((items.take n).any test || (items.drop n).any test) := by
    rw [← List.any_append, List.take_append_drop]
  rw [insertAt, List.any_append, List.any_cons, hsplit]
  exact Bool.or_left_comm _ _ _

theorem contains_insertAt (n : Nat) (item : String) (items : List String) (text : String) :
    (insertAt n item items).contains text = (item == text || items.contains text) := by
  rw [List.contains_eq_any_beq, List.contains_eq_any_beq, any_insertAt, Bool.beq_comm]

variable (a : Addition) (n : Nat) (e : Exclusions)

theorem files_addTo_file (check other : Check) (path : String) :
    (addTo n e (.file check path)).files other =
      if check = other then insertAt n path (e.files other) else e.files other := by
  cases check with
  | _ =>
      cases other with
      | _ => rfl

theorem excludesFile_addTo (check : Check) (file : String) :
    (a.addTo n e).excludesFile check file =
      (a.namesFile check file || e.excludesFile check file) := by
  unfold Exclusions.excludesFile
  cases a with
  | file other path =>
      rw [files_addTo_file, namesFile]
      by_cases hcheck : other = check
      · rw [if_pos hcheck, contains_insertAt, beq_iff_eq.mpr hcheck, Bool.true_and]
      · rw [if_neg hcheck, beq_eq_false_iff_ne.mpr hcheck, Bool.false_and, Bool.false_or]
  | actions entry =>
      cases check with
      | _ => rfl
  | tasks entry =>
      cases check with
      | _ => rfl

theorem excludesAction_addTo (file action : String) :
    (a.addTo n e).excludesAction file action =
      (a.namesAction file action || e.excludesAction file action) := by
  cases a with
  | file check path =>
      cases check with
      | _ => rfl
  | actions entry => exact any_insertAt n entry e.controllerActions _
  | tasks entry => rfl

theorem excludesTask_addTo (file task : String) :
    (a.addTo n e).excludesTask file task =
      (a.namesTask file task || e.excludesTask file task) := by
  cases a with
  | file check path =>
      cases check with
      | _ => rfl
  | actions entry => rfl
  | tasks entry => exact any_insertAt n entry e.rakeTasks _

/-!
# Covered findings
-/

def coversAction (v : IdleAction) : Bool :=
  a.namesFile .controllers v.file || a.namesAction v.file v.action

def coversTask (v : IdleTask) : Bool :=
  a.namesFile .rakes v.file || a.namesTask v.file v.task

def coversSpec (check : Check) (v : MissingSpec) : Bool :=
  a.namesFile check v.file

/-- A warning is covered if the file is named for the check that issued the warning. -/
def coversWarning (issued : Check → List Warning) (w : Warning) : Addition → Bool
  | .file check path => path == w.file && (issued check).contains w
  | _ => false

def deleteFrom (issued : Check → List Warning) (r : Results) : Results :=
  { controllers := r.controllers.map (List.filter fun v => !a.coversAction v)
    usecaseSpecs := r.usecaseSpecs.map (List.filter fun v => !a.coversSpec .usecaseSpecs v)
    rakes := r.rakes.map (List.filter fun v => !a.coversTask v)
    rakeSpecs := r.rakeSpecs.map (List.filter fun v => !a.coversSpec .rakeSpecs v)
    warnings := r.warnings.filter fun w => !a.coversWarning issued w }

end Addition

namespace Code

variable (a : Addition) (n : Nat) (e : Exclusions) (file : String)

theorem idleActionsOf_addTo (c : Code) :
    idleActionsOf (a.addTo n e) file c =
      (idleActionsOf e file c).filter fun v => !a.namesAction v.file v.action := by
  unfold idleActionsOf actions
  rw [List.filter_map, List.filter_filter, List.filter_filter, List.filter_filter]
  congr 1
  apply List.filter_congr
  intro m _
  rw [Addition.excludesAction_addTo]
  cases hnames : a.namesAction file (m.name.getD "") with
  | true => simp [hnames]
  | false => simp [hnames]

theorem idleActions_addTo (tree : Code) :
    idleActions (a.addTo n e) file tree =
      (idleActions e file tree).filter fun v => !a.namesAction v.file v.action := by
  unfold idleActions
  rw [List.filter_flatMap]
  exact List.flatMap_congr fun c _ => idleActionsOf_addTo a n e file c

theorem idleTask?_addTo (c : Code) :
    idleTask? (a.addTo n e) file c =
      (idleTask? e file c).filter fun v => !a.namesTask v.file v.task := by
  unfold idleTask?
  cases c.taskName? with
  | none =>
      rfl
  | some name =>
      dsimp only
      rw [Addition.excludesTask_addTo, Bool.or_assoc]
      cases e.excludesTask file name || delegates c.taskBody? with
      | true =>
          rw [Bool.or_true]
          rfl
      | false =>
          rw [Bool.or_false, if_neg Bool.false_ne_true, Option.filter_some]
          cases a.namesTask file name with
          | true => rfl
          | false => rfl

theorem idleTasks_addTo (tree : Code) :
    idleTasks (a.addTo n e) file tree =
      (idleTasks e file tree).filter fun v => !a.namesTask v.file v.task := by
  unfold idleTasks
  rw [List.filter_filterMap]
  exact List.filterMap_congr fun c _ => idleTask?_addTo a n e file c

end Code

namespace Audit

/-!
# Projects with an added entry
-/

def excluding (a : Addition) (n : Nat) (p : Project) : Project :=
  { p with settings := { p.settings with exclusions := a.addTo n p.settings.exclusions } }

section

variable (a : Addition) (n : Nat) (p : Project)

theorem files_excluding (check : Check) :
    files (excluding a n p) check =
      (files p check).filter fun path => !a.namesFile check path.text := by
  unfold files
  rw [List.filter_filter]
  apply List.filter_congr
  intro path _
  show (!(a.addTo n p.settings.exclusions).excludesFile check path.text) = _
  rw [Addition.excludesFile_addTo, Bool.not_or]
  rfl

theorem flatMap_findingsIn_excluding {α : Type} (check : Check) (fileOf : α → String)
    (scan changed : String → Code → List α) (names : α → Bool)
    (hfile : ∀ file code, ∀ v ∈ scan file code, fileOf v = file)
    (hscan : ∀ file code, changed file code = (scan file code).filter fun v => !names v) :
    (files (excluding a n p) check).flatMap (findingsIn (excluding a n p) changed) =
      ((files p check).flatMap (findingsIn p scan)).filter fun v =>
        !(a.namesFile check (fileOf v) || names v) := by
  rw [files_excluding, Lists.flatMap_filter, List.filter_flatMap]
  apply List.flatMap_congr
  intro path _
  have hread : readCode (excluding a n p) path = readCode p path := rfl
  unfold findingsIn
  rw [hread]
  cases readCode p path with
  | error failure =>
      exact ite_self _
  | ok code =>
      dsimp only
      rw [hscan]
      -- all findings of a file carry its name, so that they are covered together or not at all
      have hsame : ∀ v ∈ scan path.text code, (!(a.namesFile check (fileOf v) || names v)) =
          (!(a.namesFile check path.text) && !names v) := by
        intro v hv
        rw [hfile _ _ v hv, Bool.not_or]
      rw [List.filter_congr hsame]
      cases a.namesFile check path.text with
      | true => simp
      | false => simp

theorem warningsIn_excluding (check : Check) :
    warningsIn (excluding a n p) check =
      (warningsIn p check).filter fun w => !a.namesFile check w.file := by
  unfold warningsIn
  rw [files_excluding, List.filterMap_filter, List.filter_filterMap]
  apply List.filterMap_congr
  intro path _
  have hread : readCode (excluding a n p) path = readCode p path := rfl
  unfold warning?
  rw [hread]
  cases readCode p path with
  | ok code =>
      exact ite_self _
  | error failure =>
      dsimp only
      rw [Option.filter_some]

theorem missingAmong_excluding (role : Role) (paths : List ProjectPath) :
    missingAmong (excluding a n p) role paths = missingAmong p role paths :=
  rfl

theorem missingIn_excluding (check : Check) :
    missingIn (excluding a n p) check =
      (missingIn p check).filter fun v => !a.coversSpec check v := by
  rw [missingIn, missingIn, missingAmong_excluding, files_excluding]
  unfold missingAmong
  rw [List.filter_map, List.filter_filter, List.filter_filter]
  apply congrArg
  apply List.filter_congr
  intro path _
  apply Bool.and_comm

theorem unreached?_excluding (check : Check) :
    unreached? (excluding a n p) check = unreached? p check :=
  rfl

theorem stop?_excluding_of_none {check : Check} (h : stop? p check = none) :
    stop? (excluding a n p) check = none := by
  rw [stop?_eq_none_iff] at h ⊢
  refine ⟨h.left, ?_⟩
  intro hspec path hpath
  rw [files_excluding] at hpath
  exact h.right hspec path (List.mem_of_mem_filter hpath)

/-- The added entry names the file at which a check of specs fails. -/
def Lifts (check : Check) (failure : Failure) : Prop :=
  ∃ path ∈ files p check, isBlocked p check.role path = true ∧
    failure = blockFailure p check.role path ∧ a = .file check path.text

theorem blocked?_excluding_of_some {check : Check} {failure : Failure}
    (h : blocked? p check = some failure) :
    blocked? (excluding a n p) check = some failure ∨ Lifts a p check failure := by
  rcases Option.map_eq_some_iff.mp h with ⟨path, hfind, rfl⟩
  by_cases hnames : a.namesFile check path.text = true
  · right
    exact ⟨path, List.mem_of_find?_eq_some hfind, List.find?_some hfind, rfl,
      Addition.namesFile_iff.mp hnames⟩
  · left
    rcases List.find?_eq_some_iff_append.mp hfind with ⟨hblocked, before, after, hfiles, hfree⟩
    have hkept : (files (excluding a n p) check).find? (isBlocked p check.role) = some path := by
      rw [files_excluding, List.find?_filter]
      apply List.find?_eq_some_iff_append.mpr
      -- no file in front of the first blocked one is blocked, whether it is kept or not
      refine ⟨?_, before, after, hfiles, ?_⟩
      · simp [hnames, hblocked]
      · intro other hother
        have hother := hfree other hother
        rw [Bool.not_eq_true'] at hother
        simp [hother]
    exact congrArg (Option.map (blockFailure p check.role)) hkept

theorem stop?_excluding_of_some {check : Check} {failure : Failure}
    (h : stop? p check = some failure) :
    stop? (excluding a n p) check = some failure ∨
      check ∈ specChecks ∧ Lifts a p check failure := by
  unfold stop? at h ⊢
  rw [unreached?_excluding]
  rcases Option.or_eq_some_iff.mp h with hsearch | ⟨hsearch, hspecs⟩
  · rw [hsearch]
    exact Or.inl rfl
  · rcases Option.ite_none_right_eq_some.mp hspecs with ⟨hcheck, hblocked⟩
    rw [hsearch, if_pos hcheck]
    rcases blocked?_excluding_of_some a n p hblocked with hkept | hlifts
    · exact Or.inl hkept
    · exact Or.inr ⟨hcheck, hlifts⟩

variable (asked : Check → Bool)

theorem stopAmong?_excluding_of_none (h : stopAmong? p asked = none) :
    stopAmong? (excluding a n p) asked = none := by
  rw [stopAmong?_eq_none_iff] at h ⊢
  intro check hasked
  exact stop?_excluding_of_none a n p (h check hasked)

theorem stopIfAsked?_excluding_of_none {check : Check} (h : stopIfAsked? p asked check = none) :
    stopIfAsked? (excluding a n p) asked check = none := by
  rw [stopIfAsked?, ite_eq_right_iff] at h ⊢
  intro hasked
  exact stop?_excluding_of_none a n p (h hasked)

theorem stopAmong?_excluding_of_some {failure : Failure} (h : stopAmong? p asked = some failure) :
    stopAmong? (excluding a n p) asked = some failure ∨
      ∃ check ∈ specChecks, asked check = true ∧ Lifts a p check failure := by
  rcases List.findSome?_eq_some_iff.mp h with ⟨before, check, after, hall, hstop, hfree⟩
  rcases Option.ite_none_right_eq_some.mp hstop with ⟨hasked, hcheck⟩
  rcases stop?_excluding_of_some a n p hcheck with hkept | ⟨hspec, hlifts⟩
  · left
    -- the checks before this one do not stop the audit with the entry either
    refine List.findSome?_eq_some_iff.mpr ⟨before, check, after, hall, ?_, ?_⟩
    · rw [stopIfAsked?, if_pos hasked]
      exact hkept
    · intro other hother
      exact stopIfAsked?_excluding_of_none a n p asked (hfree other hother)
  · exact Or.inr ⟨check, hspec, hasked, hlifts⟩

end

/-!
# Warnings by the check that issues them
-/

def issuedIn (p : Project) (check : Check) : List Warning :=
  match verdict p (isAsked [check.name]) with
  | .ok results => results.warnings
  | .error _ => []

theorem warnings_resultsOf_single (p : Project) (check : Check) :
    (resultsOf p (isAsked [check.name])).warnings =
      if check ∈ specChecks then [] else warningsIn p check := by
  have hasked : ∀ other, isAsked [check.name] other = true ↔ other = check :=
    fun _ => isAsked_single_iff
  unfold resultsOf
  dsimp only
  cases check with
  | controllers => simp [hasked, specChecks]
  | usecaseSpecs => simp [hasked, specChecks]
  | rakes => simp [hasked, specChecks]
  | rakeSpecs => simp [hasked, specChecks]

theorem issuedIn_eq (p : Project) (check : Check) :
    issuedIn p check =
      if check ∈ specChecks ∨ stop? p check ≠ none then [] else warningsIn p check := by
  have hsingle : stopAmong? p (isAsked [check.name]) = none ↔ stop? p check = none := by
    rw [stopAmong?_eq_none_iff]
    exact ⟨fun h => h check (isAsked_single_iff.mpr rfl),
      fun h other hother => isAsked_single_iff.mp hother ▸ h⟩
  unfold issuedIn verdict
  cases hstop : stopAmong? p (isAsked [check.name]) with
  | none =>
      have hnone := hsingle.mp hstop
      simp only [hnone, ne_eq, not_true_eq_false, or_false]
      exact warnings_resultsOf_single p check
  | some failure =>
      refine (if_pos (Or.inr ?_)).symm
      intro hnone
      cases hstop.symm.trans (hsingle.mpr hnone)

theorem mem_warningsIn_of_mem_issuedIn {p : Project} {check : Check} {w : Warning}
    (h : w ∈ issuedIn p check) : check ∉ specChecks ∧ w ∈ warningsIn p check := by
  rw [issuedIn_eq] at h
  split at h
  · cases h
  · rename_i hnot
    exact ⟨fun hspec => hnot (Or.inl hspec), h⟩

theorem exists_file_of_mem_warningsIn {p : Project} {check : Check} {w : Warning}
    (h : w ∈ warningsIn p check) :
    ∃ path ∈ Discovery.filesOfRole p.disk p.root check.role, path.text = w.file := by
  rcases List.mem_filterMap.mp h with ⟨path, hpath, hwarning⟩
  exact ⟨path, List.mem_of_mem_filter hpath, (file_of_warning? hwarning).symm⟩

theorem eq_of_not_mem_specChecks {check : Check} (h : check ∉ specChecks) :
    check = .controllers ∨ check = .rakes := by
  cases check with
  | controllers => exact Or.inl rfl
  | rakes => exact Or.inr rfl
  | usecaseSpecs => exact absurd List.mem_cons_self h
  | rakeSpecs => exact absurd (List.mem_cons_of_mem _ List.mem_cons_self) h

theorem check_eq_of_mem_warningsIn {p : Project} {check other : Check} {w : Warning}
    (hcheck : check ∉ specChecks) (hother : other ∉ specChecks)
    (h : w ∈ warningsIn p check) (h' : w ∈ warningsIn p other) : check = other := by
  rcases exists_file_of_mem_warningsIn h with ⟨path, hpath, htext⟩
  rcases exists_file_of_mem_warningsIn h' with ⟨path', hpath', htext'⟩
  rcases eq_of_not_mem_specChecks hcheck with rfl | rfl
  · rcases eq_of_not_mem_specChecks hother with rfl | rfl
    · rfl
    · exact absurd (htext.trans htext'.symm)
        (Discovery.text_controller_ne_text_task hpath hpath')
  · rcases eq_of_not_mem_specChecks hother with rfl | rfl
    · exact absurd (htext'.trans htext.symm)
        (Discovery.text_controller_ne_text_task hpath' hpath)
    · rfl

theorem coversWarning_eq (a : Addition) {p : Project} {check : Check} {w : Warning}
    (hcheck : check ∉ specChecks) (hstop : stop? p check = none) (h : w ∈ warningsIn p check) :
    a.coversWarning (issuedIn p) w = a.namesFile check w.file := by
  cases a with
  | actions entry => rfl
  | tasks entry => rfl
  | file other path =>
      -- the checks of specs issue no warnings, and the others warn of different files
      have hissued : (issuedIn p other).contains w = (other == check) := by
        rw [Bool.eq_iff_iff, List.contains_iff_mem, beq_iff_eq]
        constructor
        · intro hmem
          rcases mem_warningsIn_of_mem_issuedIn hmem with ⟨hother, hwarning⟩
          exact check_eq_of_mem_warningsIn hother hcheck hwarning h
        · rintro rfl
          rw [issuedIn_eq, if_neg (not_or.mpr ⟨hcheck, not_not.mpr hstop⟩)]
          exact h
      show (path == w.file && (issuedIn p other).contains w) = (other == check && path == w.file)
      rw [hissued, Bool.and_comm]

/-!
# Results and runs
-/

section

variable (a : Addition) (n : Nat) {p : Project} {asked : Check → Bool}
  (hstop : stopAmong? p asked = none)

include hstop

theorem filter_warningsIn {check : Check} (hcheck : check ∉ specChecks) :
    (if asked check then warningsIn (excluding a n p) check else []) =
      (if asked check then warningsIn p check else []).filter fun w =>
        !a.coversWarning (issuedIn p) w := by
  by_cases hasked : asked check = true
  · rw [if_pos hasked, if_pos hasked, warningsIn_excluding]
    apply List.filter_congr
    intro w hw
    rw [coversWarning_eq a hcheck (stopAmong?_eq_none_iff.mp hstop check hasked) hw]
  · rw [if_neg hasked, if_neg hasked]
    rfl

/-- The results with an added entry are those without it, less what the entry covers. -/
theorem resultsOf_excluding :
    resultsOf (excluding a n p) asked = a.deleteFrom (issuedIn p) (resultsOf p asked) := by
  have hactions := flatMap_findingsIn_excluding a n p .controllers IdleAction.file
    (Code.idleActions p.settings.exclusions)
    (Code.idleActions (a.addTo n p.settings.exclusions))
    (fun v => a.namesAction v.file v.action)
    (fun _ _ _ hv => Code.file_of_mem_idleActions hv)
    (Code.idleActions_addTo a n p.settings.exclusions)
  have htasks := flatMap_findingsIn_excluding a n p .rakes IdleTask.file
    (Code.idleTasks p.settings.exclusions)
    (Code.idleTasks (a.addTo n p.settings.exclusions))
    (fun v => a.namesTask v.file v.task)
    (fun _ _ _ hv => Code.file_of_mem_idleTasks hv)
    (Code.idleTasks_addTo a n p.settings.exclusions)
  unfold resultsOf Addition.deleteFrom
  rw [Results.mk.injEq]
  refine ⟨ite_some_eq_map _ hactions, ite_some_eq_map _ (missingIn_excluding a n p _),
    ite_some_eq_map _ htasks, ite_some_eq_map _ (missingIn_excluding a n p _), ?_⟩
  rw [List.filter_append, filter_warningsIn a n hstop (by decide),
    filter_warningsIn a n hstop (by decide)]

end

def UsesSettings (disk : Disk) (request : Request) (settings : Settings) : Prop :=
  ∀ root, Discovery.rootOf disk request.root = .ok root →
    ∃ loaded, settingsFor disk root request = .ok loaded ∧ loaded.settings = settings

def issuedBy (disk : Disk) (request : Request) (check : Check) : List Warning :=
  match (run disk { request with checks := some [check.name] }).outcome with
  | .ok results => results.warnings
  | .error _ => []

theorem outcome_run_of_uses {disk : Disk} {request : Request} {settings : Settings}
    (huses : UsesSettings disk request settings) {root : Location}
    (hroot : Discovery.rootOf disk request.root = .ok root) :
    (run disk request).outcome =
      ((Check.named request.checks).mapError Failure.unknownChecks).bind fun checks =>
        verdict ⟨disk, root, settings⟩ checks.contains := by
  rcases huses root hroot with ⟨loaded, hloaded, rfl⟩
  rw [outcome_run_eq, hroot]
  show ((settingsFor disk root request).bind fun loaded => _) = _
  rw [hloaded]
  rfl

theorem outcome_run_of_rootless {disk : Disk} {request : Request} {failure : Failure}
    (hroot : Discovery.rootOf disk request.root = .error failure) :
    (run disk request).outcome = .error failure := by
  rw [outcome_run_eq, hroot]
  rfl

theorem issuedBy_of_rootless {disk : Disk} {request : Request} {failure : Failure}
    (hroot : Discovery.rootOf disk request.root = .error failure) (check : Check) :
    issuedBy disk request check = [] := by
  have hsingle : Discovery.rootOf disk
      { request with checks := some [check.name] }.root = .error failure := hroot
  unfold issuedBy
  rw [outcome_run_of_rootless hsingle]

theorem issuedBy_eq {disk : Disk} {request : Request} {settings : Settings}
    (huses : UsesSettings disk request settings) {root : Location}
    (hroot : Discovery.rootOf disk request.root = .ok root) :
    issuedBy disk request = issuedIn ⟨disk, root, settings⟩ := by
  funext check
  have hknown : ∀ name ∈ [check.name], ∃ other : Check, other.name = Lower.text name := by
    intro name hname
    exact ⟨check, by rw [List.mem_singleton.mp hname, lower_name]⟩
  have hsingle : UsesSettings disk { request with checks := some [check.name] } settings := huses
  unfold issuedBy issuedIn
  rw [outcome_run_of_uses hsingle hroot, named_eq hknown]
  show (match verdict _ (Check.all.filter (isAsked [check.name])).contains with
    | .ok results => results.warnings
    | .error _ => []) = _
  rw [contains_filter_all]

theorem verdict_excluding (a : Addition) (n : Nat) (p : Project) (asked : Check → Bool) :
    (∀ results, verdict p asked = .ok results →
      verdict (excluding a n p) asked = .ok (a.deleteFrom (issuedIn p) results)) ∧
    (∀ failure, verdict p asked = .error failure →
      verdict (excluding a n p) asked = .error failure ∨
        ∃ check ∈ specChecks, asked check = true ∧ Lifts a p check failure) := by
  unfold verdict
  cases hstop : stopAmong? p asked with
  | none =>
      constructor
      · intro results hresults
        cases hresults
        rw [stopAmong?_excluding_of_none a n p asked hstop, resultsOf_excluding a n hstop]
        rfl
      · intro failure hfailure
        cases hfailure
  | some failure =>
      constructor
      · intro results hresults
        cases hresults
      · intro other hother
        cases hother
        rcases stopAmong?_excluding_of_some a n p asked hstop with hkept | hlifts
        · rw [hkept]
          exact Or.inl rfl
        · exact Or.inr hlifts

theorem file_ne_of_mem_issuedIn {check : Check} {path : String} {n : Nat} {p : Project}
    {w : Warning} (h : w ∈ issuedIn (excluding (.file check path) n p) check) : w.file ≠ path := by
  have hwarning := (mem_warningsIn_of_mem_issuedIn h).right
  rw [warningsIn_excluding] at hwarning
  intro heq
  have hkept := (List.mem_filter.mp hwarning).right
  rw [Addition.namesFile_iff.mpr (heq ▸ rfl)] at hkept
  cases hkept

/-- An entry that is added to the exclusions of a run takes from its results what the entry covers
and nothing else, and the check for which it names a file issues no warning of the file.  A run
that fails goes on failing in the same way, unless it has stopped at a file whose spec has a place
that is too long, and the entry names this file. -/
theorem run_excluding {disk : Disk} {request changed : Request} {settings : Settings}
    (a : Addition) (n : Nat) (hroot : changed.root = request.root)
    (hchecks : changed.checks = request.checks) (huses : UsesSettings disk request settings)
    (hchanged : UsesSettings disk changed
      { settings with exclusions := a.addTo n settings.exclusions }) :
    (∀ results, (run disk request).outcome = .ok results →
      (run disk changed).outcome = .ok (a.deleteFrom (issuedBy disk request) results)) ∧
    (∀ check path, a = .file check path → ∀ w ∈ issuedBy disk changed check, w.file ≠ path) ∧
    (∀ failure, (run disk request).outcome = .error failure →
      (run disk changed).outcome = .error failure ∨
        ∃ root, Discovery.rootOf disk request.root = .ok root ∧
          ∃ check ∈ specChecks, Lifts a ⟨disk, root, settings⟩ check failure) := by
  cases hplace : Discovery.rootOf disk request.root with
  | error failure =>
      have hfails : Discovery.rootOf disk changed.root = .error failure := hroot ▸ hplace
      rw [outcome_run_of_rootless hplace, outcome_run_of_rootless hfails]
      refine ⟨?_, ?_, ?_⟩
      · intro results hresults
        cases hresults
      · intro check path _ w hw
        rw [issuedBy_of_rootless hfails] at hw
        cases hw
      · intro other hother
        exact Or.inl hother
  | ok root =>
      have hfound : Discovery.rootOf disk changed.root = .ok root := hroot ▸ hplace
      have hrun : (run disk changed).outcome =
          ((Check.named changed.checks).mapError Failure.unknownChecks).bind fun checks =>
            verdict (excluding a n ⟨disk, root, settings⟩) checks.contains :=
        outcome_run_of_uses hchanged hfound
      have hissued : issuedBy disk changed = issuedIn (excluding a n ⟨disk, root, settings⟩) :=
        issuedBy_eq hchanged hfound
      have hwarnings : ∀ check path, a = .file check path →
          ∀ w ∈ issuedBy disk changed check, w.file ≠ path := by
        rintro check path rfl w hw
        rw [hissued] at hw
        exact file_ne_of_mem_issuedIn hw
      rw [issuedBy_eq huses hplace, outcome_run_of_uses huses hplace, hrun, hchecks]
      cases (Check.named request.checks).mapError Failure.unknownChecks with
      | error unknown =>
          refine ⟨?_, hwarnings, ?_⟩
          · intro results hresults
            cases hresults
          · intro failure hfailure
            exact Or.inl hfailure
      | ok checks =>
          dsimp only [Except.bind]
          rcases verdict_excluding a n ⟨disk, root, settings⟩ checks.contains with
            ⟨hresults, hfailures⟩
          refine ⟨hresults, hwarnings, ?_⟩
          intro failure hfailure
          rcases hfailures failure hfailure with hsame | ⟨check, hspec, _, hlifts⟩
          · exact Or.inl hsame
          · exact Or.inr ⟨root, rfl, check, hspec, hlifts⟩

def brokenFileDisk : Disk :=
  { entries := [("lib", .folder [("tasks", .folder [("a.rake", .file { bytes := [255] })])])] }

def brokenFileRequest (exclusions : Exclusions) : Request :=
  { root := "/"
    settings := some { exclusions := exclusions }
    checks := some ["rakes", "rake_specs"] }

def brokenFileResults : Results :=
  { rakes := some []
    rakeSpecs := some [⟨"lib/tasks/a.rake", "spec/lib/tasks/a_spec.rb"⟩]
    warnings := [⟨"lib/tasks/a.rake", "lib/tasks/a.rake: invalid UTF-8: invalid start byte"⟩] }

/-- Excluded from the check of its code, the file loses its warning but not its missing spec. -/
theorem run_excluding_brokenFile :
    (run brokenFileDisk (brokenFileRequest {})).outcome = .ok brokenFileResults ∧
    (run brokenFileDisk (brokenFileRequest { rakeFiles := ["lib/tasks/a.rake"] })).outcome =
      .ok { brokenFileResults with warnings := [] } := by
  have hbefore : (run brokenFileDisk (brokenFileRequest {})).outcome = .ok brokenFileResults := by
    decide +kernel
  have huses : ∀ exclusions, UsesSettings brokenFileDisk (brokenFileRequest exclusions)
      { exclusions := exclusions } := by
    intro exclusions root _
    exact ⟨{ settings := { exclusions := exclusions } }, rfl, rfl⟩
  have hdeleted : (Addition.file .rakes "lib/tasks/a.rake").deleteFrom
      (issuedBy brokenFileDisk (brokenFileRequest {})) brokenFileResults =
        { brokenFileResults with warnings := [] } := by
    decide +kernel
  have hroot : (brokenFileRequest { rakeFiles := ["lib/tasks/a.rake"] }).root =
      (brokenFileRequest {}).root := rfl
  have hafter := (run_excluding (.file .rakes "lib/tasks/a.rake") 0 hroot rfl (huses {})
    (huses { rakeFiles := ["lib/tasks/a.rake"] })).left brokenFileResults hbefore
  rw [hdeleted] at hafter
  exact ⟨hbefore, hafter⟩

end Audit
end UsecaseAudit
