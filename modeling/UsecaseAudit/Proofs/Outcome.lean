import UsecaseAudit.Audit
import UsecaseAudit.Proofs.Discovered

/-!
# The outcome of an audit

Apart from its log, an audit of a project depends only on the files that its
checks look at.  A check of code puts together what it finds in each file that
can be read, and warns of each file that cannot.  A check of specs lists the
files whose expected spec does not exist.

A check stops the whole audit at a search place of its role that cannot be searched.
The disk does not answer whether anything exists at a place that is too long, so a
check of specs also stops it at a file whose spec has such a place.
-/

namespace UsecaseAudit

/-!
# The file of a finding
-/

namespace Code

theorem file_of_mem_idleActions {e : Exclusions} {file : String} {tree : Code} {v : IdleAction}
    (h : v ∈ idleActions e file tree) : v.file = file := by
  rcases List.mem_flatMap.mp h with ⟨c, _, hv⟩
  rcases List.mem_map.mp hv with ⟨m, _, rfl⟩
  rfl

theorem file_of_mem_idleTasks {e : Exclusions} {file : String} {tree : Code} {v : IdleTask}
    (h : v ∈ idleTasks e file tree) : v.file = file := by
  rcases List.mem_filterMap.mp h with ⟨c, _, hv⟩
  unfold idleTask? at hv
  split at hv
  · cases hv
  · rcases Option.ite_none_left_eq_some.mp hv with ⟨_, hsome⟩
    cases hsome
    rfl

end Code

namespace Audit

open Traced

/-!
# The files of a check
-/

/-- The files a check looks at: those of its role that the settings do not pass over. -/
def files (p : Project) (check : Check) : List ProjectPath :=
  (Discovery.filesOfRole p.disk p.root check.role).filter fun path => !isExcluded p check path

theorem pairwise_text_files (p : Project) (check : Check) :
    (files p check).Pairwise fun a b => a.text < b.text :=
  (Discovery.pairwise_text_filesOfRole p.disk p.root check.role).filter _

def unreached? (p : Project) (check : Check) : Option Failure :=
  Discovery.unreachable? p.disk p.root check.role.searchPlaces

theorem outcome_candidates (p : Project) (check : Check) :
    (candidates p check).outcome = unlessStopped (unreached? p check) (files p check) := by
  rw [candidates, outcome_bind, Discovery.outcome_inRoot, unlessStopped_bind]
  rfl

/-!
# Checks of code
-/

section Code

variable {α : Type} (p : Project) (check : Check) (scan : String → Code → List α)

def findingsIn (path : ProjectPath) : List α :=
  match readCode p path with
  | .ok code => scan path.text code
  | .error _ => []

def warning? (path : ProjectPath) : Option Warning :=
  match readCode p path with
  | .ok _ => none
  | .error failure => some { file := path.text, message := failure.message }

theorem file_of_warning? {p : Project} {path : ProjectPath} {w : Warning}
    (h : warning? p path = some w) : w.file = path.text := by
  unfold warning? at h
  split at h
  · cases h
  · cases h
    rfl

theorem outcome_auditFile (path : ProjectPath) :
    (auditFile p check scan path).outcome =
      .ok { findings := findingsIn p scan path, warnings := (warning? p path).toList } := by
  rw [auditFile, findingsIn, warning?]
  cases readCode p path with
  | ok code => rfl
  | error failure => rfl

theorem outcome_auditFiles (paths : List ProjectPath) :
    (auditFiles p check scan paths).outcome =
      .ok { findings := paths.flatMap (findingsIn p scan)
            warnings := paths.filterMap (warning? p) } := by
  induction paths with
  | nil =>
      rfl
  | cons path rest ih =>
      rw [auditFiles, outcome_bind_ok (outcome_auditFile p check scan path), outcome_bind_ok ih,
        List.flatMap_cons, List.filterMap_cons]
      cases warning? p path with
      | none => rfl
      | some warning => rfl

def warningsIn : List Warning :=
  (files p check).filterMap (warning? p)

theorem outcome_auditCode :
    (auditCode p check scan).outcome =
      unlessStopped (unreached? p check)
        { findings := (files p check).flatMap (findingsIn p scan)
          warnings := warningsIn p check } := by
  rw [auditCode, outcome_bind, outcome_candidates, unlessStopped_bind, outcome_auditFiles]
  rfl

end Code

/-!
# Checks of specs
-/

section Specs

variable (p : Project) (role : Role)

def conventional : Role → String → String
  | .controller => fun _ => ""
  | .usecase => SpecPath.ofUsecase
  | .task => SpecPath.ofTask

/-- The spec of a file: that of its first entry in the settings, or else the conventional one. -/
def specOf (path : ProjectPath) : String :=
  match (SpecPath.placesFor p.settings.specPlaces role).find? fun s => s.source == path.text with
  | some place => place.spec
  | none => conventional role path.text

def specPlace (path : ProjectPath) : Path :=
  (Path.ofLocation p.root).join (Path.ofText (specOf p role path))

def hasSpec (path : ProjectPath) : Bool :=
  (p.disk.lookup (specPlace p role path)).isOk

/-- Whether the place of the spec is too long for the disk to answer. -/
def isBlocked (path : ProjectPath) : Bool :=
  p.disk.findsTooLong (specPlace p role path)

def blockFailure (path : ProjectPath) : Failure :=
  .tooLong (specPlace p role path)

theorem expectedSpec_eq (path : ProjectPath) : expectedSpec p role path = specOf p role path := by
  rw [expectedSpec, SpecPath.expected?, SpecPath.given?, specOf]
  cases role with
  | controller =>
      rfl
  | usecase =>
      cases (SpecPath.placesFor p.settings.specPlaces .usecase).find?
          fun s => s.source == path.text with
      | none => rfl
      | some place => rfl
  | task =>
      cases (SpecPath.placesFor p.settings.specPlaces .task).find?
          fun s => s.source == path.text with
      | none => rfl
      | some place => rfl

theorem isPresent_specPlace (path : ProjectPath) :
    p.disk.isPresent (specPlace p role path) =
      if isBlocked p role path then .error ⟨.nameTooLong, (specPlace p role path).text⟩
      else .ok (hasSpec p role path) := by
  rw [Disk.isPresent, Disk.asks_eq, Disk.answer, isBlocked, hasSpec]
  cases p.disk.lookup (specPlace p role path) with
  | ok entry => rfl
  | error fault => rfl

theorem missingSpec?_eq (path : ProjectPath) :
    missingSpec? p role path =
      if isBlocked p role path then .error (blockFailure p role path)
      else .ok (if hasSpec p role path then none
        else some { file := path.text, expected := specOf p role path }) := by
  unfold missingSpec?
  rw [expectedSpec_eq]
  dsimp only
  rw [← specPlace, isPresent_specPlace]
  by_cases hblocked : isBlocked p role path
  · rw [if_pos hblocked, if_pos hblocked]
    rfl
  · rw [if_neg hblocked, if_neg hblocked]
    rfl

def missingAmong (paths : List ProjectPath) : List MissingSpec :=
  (paths.filter fun path => !hasSpec p role path).map fun path =>
    { file := path.text, expected := specOf p role path }

theorem missingSpecs_eq (paths : List ProjectPath) :
    missingSpecs p role paths =
      unlessStopped ((paths.find? (isBlocked p role)).map (blockFailure p role))
        (missingAmong p role paths) := by
  induction paths with
  | nil =>
      rfl
  | cons path rest ih =>
      rw [missingSpecs, missingSpec?_eq, ih]
      by_cases hblocked : isBlocked p role path
      · rw [if_pos hblocked, List.find?_cons_of_pos hblocked]
        rfl
      · rw [if_neg hblocked, List.find?_cons_of_neg hblocked]
        cases rest.find? (isBlocked p role) with
        | some other =>
            rfl
        | none =>
            rw [missingAmong, missingAmong, List.filter_cons]
            cases hasSpec p role path with
            | true => rfl
            | false => rfl

variable (check : Check)

def blocked? : Option Failure :=
  ((files p check).find? (isBlocked p check.role)).map (blockFailure p check.role)

def missingIn : List MissingSpec :=
  missingAmong p check.role (files p check)

theorem outcome_auditSpecs :
    (auditSpecs p check).outcome =
      unlessStopped ((unreached? p check).or (blocked? p check)) (missingIn p check) := by
  rw [auditSpecs, outcome_bind, outcome_candidates, unlessStopped_bind]
  cases unreached? p check with
  | some failure => rfl
  | none => exact missingSpecs_eq p check.role (files p check)

end Specs

/-!
# The chosen checks
-/

def specChecks : List Check :=
  [.usecaseSpecs, .rakeSpecs]

def stop? (p : Project) (check : Check) : Option Failure :=
  (unreached? p check).or (if check ∈ specChecks then blocked? p check else none)

def stopIfAsked? (p : Project) (asked : Check → Bool) (check : Check) : Option Failure :=
  if asked check then stop? p check else none

def stopAmong? (p : Project) (asked : Check → Bool) : Option Failure :=
  Check.all.findSome? (stopIfAsked? p asked)

theorem outcome_whenChosen {α : Type} {p : Project} {checks : List Check} {check : Check}
    {size : α → Nat} {run : Traced α} {found : α}
    (h : run.outcome = unlessStopped (stop? p check) found) :
    (whenChosen checks check size run).outcome =
      unlessStopped (stopIfAsked? p checks.contains check)
        (if checks.contains check then some found else none) := by
  rw [whenChosen, stopIfAsked?]
  by_cases hchosen : checks.contains check
  · rw [if_pos hchosen, if_pos hchosen, if_pos hchosen, outcome_bind, h, unlessStopped_bind]
    rfl
  · rw [if_neg hchosen, if_neg hchosen, if_neg hchosen]
    rfl

def resultsOf (p : Project) (asked : Check → Bool) : Results :=
  let exclusions := p.settings.exclusions
  { controllers :=
      if asked .controllers then
        some ((files p .controllers).flatMap (findingsIn p (Code.idleActions exclusions)))
      else none
    usecaseSpecs := if asked .usecaseSpecs then some (missingIn p .usecaseSpecs) else none
    rakes :=
      if asked .rakes then
        some ((files p .rakes).flatMap (findingsIn p (Code.idleTasks exclusions)))
      else none
    rakeSpecs := if asked .rakeSpecs then some (missingIn p .rakeSpecs) else none
    warnings :=
      (if asked .controllers then warningsIn p .controllers else []) ++
        (if asked .rakes then warningsIn p .rakes else []) }

theorem ite_some_eq_map {α β : Type} {f : α → β} {x : α} {y : β} (c : Bool) (h : y = f x) :
    (if c then some y else none) = (if c then some x else none).map f := by
  cases c with
  | false => rfl
  | true => exact congrArg some h

def verdict (p : Project) (asked : Check → Bool) : Except Failure Results :=
  unlessStopped (stopAmong? p asked) (resultsOf p asked)

theorem outcome_runChecks (p : Project) (checks : List Check) :
    (runChecks p checks).outcome = verdict p checks.contains := by
  have hcode : ∀ check, check ∉ specChecks → unreached? p check = stop? p check := by
    intro check hcheck
    rw [stop?, if_neg hcheck, Option.or_none]
  have hspecs : ∀ check ∈ specChecks,
      (unreached? p check).or (blocked? p check) = stop? p check := by
    intro check hcheck
    rw [stop?, if_pos hcheck]
  have hcontrollers := outcome_auditCode p .controllers (Code.idleActions p.settings.exclusions)
  have husecases := outcome_auditSpecs p .usecaseSpecs
  have hrakes := outcome_auditCode p .rakes (Code.idleTasks p.settings.exclusions)
  have htasks := outcome_auditSpecs p .rakeSpecs
  rw [hcode _ (by decide)] at hcontrollers hrakes
  rw [hspecs _ (by decide)] at husecases htasks
  rw [verdict, stopAmong?, Check.all, runChecks, outcome_bind, outcome_whenChosen hcontrollers,
    unlessStopped_bind, List.findSome?_cons]
  cases stopIfAsked? p checks.contains .controllers with
  | some failure => rfl
  | none =>
      dsimp only
      rw [outcome_bind, outcome_whenChosen husecases, unlessStopped_bind, List.findSome?_cons]
      cases stopIfAsked? p checks.contains .usecaseSpecs with
      | some failure => rfl
      | none =>
          dsimp only
          rw [outcome_bind, outcome_whenChosen hrakes, unlessStopped_bind, List.findSome?_cons]
          cases stopIfAsked? p checks.contains .rakes with
          | some failure => rfl
          | none =>
              dsimp only
              rw [outcome_bind, outcome_whenChosen htasks, unlessStopped_bind,
                List.findSome?_cons]
              cases stopIfAsked? p checks.contains .rakeSpecs with
              | some failure => rfl
              | none =>
                  rw [resultsOf]
                  cases checks.contains .controllers with
                  | false =>
                      cases checks.contains .rakes with
                      | false => rfl
                      | true => rfl
                  | true =>
                      cases checks.contains .rakes with
                      | false => rfl
                      | true => rfl

/-!
# The whole run
-/

def isAsked (names : List String) (check : Check) : Bool :=
  (names.map Lower.text).contains check.name

theorem ofName?_name (check : Check) : Check.ofName? check.name = some check := by
  cases check with
  | controllers => decide
  | usecaseSpecs => decide
  | rakes => decide
  | rakeSpecs => decide

theorem named_eq {names : List String}
    (hknown : ∀ name ∈ names, ∃ check : Check, check.name = Lower.text name) :
    Check.named (some names) = .ok (Check.all.filter (isAsked names)) := by
  have hunknown : Check.unknownNames names = [] := by
    rw [Check.unknownNames, List.filter_eq_nil_iff.mpr]
    · exact List.mergeSort_nil
    · intro lowered hlowered
      rcases List.mem_map.mp hlowered with ⟨name, hname, rfl⟩
      rcases hknown name hname with ⟨check, hcheck⟩
      rw [← hcheck, ofName?_name]
      exact Bool.false_ne_true
  rw [Check.named, hunknown]
  rfl

theorem mem_all (check : Check) : check ∈ Check.all := by
  cases check with
  | controllers => decide
  | usecaseSpecs => decide
  | rakes => decide
  | rakeSpecs => decide

theorem contains_filter_all (asked : Check → Bool) : (Check.all.filter asked).contains = asked := by
  funext check
  rw [Bool.eq_iff_iff, List.contains_iff_mem, List.mem_filter]
  exact and_iff_right (mem_all check)

theorem outcome_noteSource (loaded : LoadedSettings) : (noteSource loaded).outcome = .ok () := by
  rw [noteSource]
  cases loaded.source with
  | none => rfl
  | some place => rfl

/-- A run finds the root, the settings and the checks, and ends as its checks do. -/
theorem outcome_run_eq (disk : Disk) (request : Request) :
    (run disk request).outcome =
      (Discovery.rootOf disk request.root).bind fun root =>
        (settingsFor disk root request).bind fun loaded =>
          ((Check.named request.checks).mapError Failure.unknownChecks).bind fun checks =>
            verdict ⟨disk, root, loaded.settings⟩ checks.contains := by
  rw [run, outcome_bind]
  congr 1
  funext root
  rw [outcome_bind]
  congr 1
  funext loaded
  rw [outcome_bind_ok (outcome_noteSource loaded), outcome_bind]
  congr 1
  funext checks
  -- what is left after the first line of the log
  show (runChecks ⟨disk, root, loaded.settings⟩ checks >>= _).outcome = _
  rw [outcome_bind, outcome_runChecks]
  cases verdict ⟨disk, root, loaded.settings⟩ checks.contains with
  | ok results => rfl
  | error failure => rfl

theorem outcome_run {disk : Disk} {request : Request} {root : Location} {loaded : LoadedSettings}
    {names : List String} (hroot : Discovery.rootOf disk request.root = .ok root)
    (hsettings : settingsFor disk root request = .ok loaded)
    (hnames : request.checks = some names)
    (hknown : ∀ name ∈ names, ∃ check : Check, check.name = Lower.text name) :
    (run disk request).outcome = verdict ⟨disk, root, loaded.settings⟩ (isAsked names) := by
  rw [outcome_run_eq, hroot, hnames, named_eq hknown]
  show ((settingsFor disk root request).bind fun loaded => _) = _
  rw [hsettings]
  show verdict _ (Check.all.filter (isAsked names)).contains = _
  rw [contains_filter_all]

/-!
# The settings of a run
-/

def settingsPathOf (root : Location) (request : Request) : Path :=
  let given := request.settingsPath.getD ""
  if given = "" then Path.ofLocation (root ++ [Starter.fileName]) else Path.ofText given

/-- Whether a run takes its settings from the file at a location, if there is one. -/
def TakesSettingsFrom (disk : Disk) (request : Request) (f : Location) : Prop :=
  request.settings = none ∧ ∃ root, Discovery.rootOf disk request.root = .ok root ∧
    LoadedSettings.locate disk (settingsPathOf root request) = .ok f

theorem settingsFor_eq_load (disk : Disk) (root : Location) {request : Request}
    (h : request.settings = none) :
    settingsFor disk root request = LoadedSettings.load disk (settingsPathOf root request) := by
  unfold settingsFor
  rw [h]
  dsimp only
  split
  · rename_i hpath
    rw [settingsPathOf, hpath]
    rfl
  · rename_i hpath
    rw [settingsPathOf, hpath]
    rfl
  · rename_i path hne hpath
    rw [settingsPathOf, hpath]
    exact congrArg (LoadedSettings.load disk) (if_neg hne).symm

/-!
# What a run gives
-/

theorem stop?_eq_some {p : Project} {check : Check} {failure : Failure}
    (h : stop? p check = some failure) :
    (∃ place ∈ check.role.searchPlaces,
      Discovery.obstacle? p.disk p.root place = some failure) ∨
    check ∈ specChecks ∧ ∃ path ∈ files p check, isBlocked p check.role path = true ∧
      failure = blockFailure p check.role path := by
  rcases Option.or_eq_some_iff.mp h with hsearch | ⟨_, hspecs⟩
  · exact Or.inl (Discovery.unreachable?_eq_some hsearch)
  · rcases Option.ite_none_right_eq_some.mp hspecs with ⟨hcheck, hblocked⟩
    rcases Option.map_eq_some_iff.mp hblocked with ⟨path, hfind, rfl⟩
    exact Or.inr ⟨hcheck, path, List.mem_of_find?_eq_some hfind, List.find?_some hfind, rfl⟩

theorem blocked?_eq_none_iff {p : Project} {check : Check} :
    blocked? p check = none ↔ ∀ path ∈ files p check, isBlocked p check.role path = false := by
  rw [blocked?, Option.map_eq_none_iff, List.find?_eq_none]
  simp only [Bool.not_eq_true]

theorem stop?_eq_none_iff {p : Project} {check : Check} :
    stop? p check = none ↔
      (∀ place ∈ check.role.searchPlaces, Discovery.obstacle? p.disk p.root place = none) ∧
      (check ∈ specChecks → ∀ path ∈ files p check, isBlocked p check.role path = false) := by
  rw [stop?, Option.or_eq_none_iff, unreached?, Discovery.unreachable?_eq_none_iff,
    ite_eq_right_iff, blocked?_eq_none_iff]

theorem stopAmong?_eq_some {p : Project} {asked : Check → Bool} {failure : Failure}
    (h : stopAmong? p asked = some failure) :
    ∃ check, asked check = true ∧ stop? p check = some failure := by
  rcases List.exists_of_findSome?_eq_some h with ⟨check, _, hstop⟩
  exact ⟨check, Option.ite_none_right_eq_some.mp hstop⟩

theorem stopAmong?_eq_none_iff {p : Project} {asked : Check → Bool} :
    stopAmong? p asked = none ↔ ∀ check, asked check = true → stop? p check = none := by
  rw [stopAmong?, List.findSome?_eq_none_iff]
  constructor
  · intro h check hasked
    have hnone := h check (mem_all check)
    rwa [stopIfAsked?, if_pos hasked] at hnone
  · intro h check _
    rw [stopIfAsked?, ite_eq_right_iff]
    exact h check

theorem verdict_eq_ok_iff {p : Project} {asked : Check → Bool} {results : Results} :
    verdict p asked = .ok results ↔ stopAmong? p asked = none ∧ results = resultsOf p asked :=
  unlessStopped_eq_ok_iff

theorem verdict_eq_error_iff {p : Project} {asked : Check → Bool} {failure : Failure} :
    verdict p asked = .error failure ↔ stopAmong? p asked = some failure :=
  unlessStopped_eq_error_iff

theorem sublist_file_filterMap (p : Project) (paths : List ProjectPath) :
    ((paths.filterMap (warning? p)).map Warning.file).Sublist (paths.map ProjectPath.text) := by
  induction paths with
  | nil =>
      exact List.Sublist.refl []
  | cons path rest ih =>
      rw [List.filterMap_cons, List.map_cons, warning?]
      cases readCode p path with
      | ok code => exact ih.cons path.text
      | error failure => exact ih.cons_cons path.text

theorem nodup_file_warningsIn (p : Project) (check : Check) :
    ((warningsIn p check).map Warning.file).Nodup := by
  have htexts : ((files p check).map ProjectPath.text).Nodup := by
    refine List.pairwise_map.mpr ((pairwise_text_files p check).imp ?_)
    intro a b hlt heq
    exact String.lt_irrefl b.text (heq ▸ hlt)
  exact (sublist_file_filterMap p (files p check)).nodup htexts

theorem nodup_file_warnings (p : Project) (asked : Check → Bool) :
    ((resultsOf p asked).warnings.map Warning.file).Nodup := by
  have hpart : ∀ check, ((if asked check then warningsIn p check else []).map
      Warning.file).Sublist ((warningsIn p check).map Warning.file) := by
    intro check
    by_cases hasked : asked check
    · rw [if_pos hasked]
    · rw [if_neg hasked]
      exact List.nil_sublist _
  have hmem : ∀ check text, text ∈ (warningsIn p check).map Warning.file →
      ∃ path ∈ Discovery.filesOfRole p.disk p.root check.role, path.text = text := by
    intro check text htext
    have hfile := (sublist_file_filterMap p (files p check)).subset htext
    rcases List.mem_map.mp hfile with ⟨path, hpath, rfl⟩
    exact ⟨path, List.mem_of_mem_filter hpath, rfl⟩
  have happend : ((resultsOf p asked).warnings.map Warning.file).Sublist
      ((warningsIn p .controllers).map Warning.file ++
        (warningsIn p .rakes).map Warning.file) := by
    dsimp only [resultsOf]
    rw [List.map_append]
    exact (hpart .controllers).append (hpart .rakes)
  refine happend.nodup (List.nodup_append.mpr
    ⟨nodup_file_warningsIn p .controllers, nodup_file_warningsIn p .rakes, ?_⟩)
  intro text hcontroller other htask
  rcases hmem .controllers text hcontroller with ⟨a, ha, rfl⟩
  rcases hmem .rakes other htask with ⟨b, hb, rfl⟩
  exact Discovery.text_controller_ne_text_task ha hb

def holds (r : Results) : Check → Bool
  | .controllers => r.controllers.isSome
  | .usecaseSpecs => r.usecaseSpecs.isSome
  | .rakes => r.rakes.isSome
  | .rakeSpecs => r.rakeSpecs.isSome

def AgreeOn (r s : Results) : Check → Prop
  | .controllers => r.controllers = s.controllers
  | .usecaseSpecs => r.usecaseSpecs = s.usecaseSpecs
  | .rakes => r.rakes = s.rakes
  | .rakeSpecs => r.rakeSpecs = s.rakeSpecs

theorem holds_resultsOf (p : Project) (asked : Check → Bool) (check : Check) :
    holds (resultsOf p asked) check = asked check := by
  rw [Bool.eq_iff_iff]
  cases check with
  | controllers => exact Option.isSome_ite
  | usecaseSpecs => exact Option.isSome_ite
  | rakes => exact Option.isSome_ite
  | rakeSpecs => exact Option.isSome_ite

theorem agreeOn_resultsOf (p : Project) {asked others : Check → Bool} {check : Check}
    (h : asked check = others check) :
    AgreeOn (resultsOf p asked) (resultsOf p others) check := by
  cases check with
  | controllers => simp [AgreeOn, resultsOf, h]
  | usecaseSpecs => simp [AgreeOn, resultsOf, h]
  | rakes => simp [AgreeOn, resultsOf, h]
  | rakeSpecs => simp [AgreeOn, resultsOf, h]

theorem lower_name (check : Check) : Lower.text check.name = check.name := by
  cases check with
  | controllers => decide +kernel
  | usecaseSpecs => decide +kernel
  | rakes => decide +kernel
  | rakeSpecs => decide +kernel

theorem isAsked_single_iff {check other : Check} :
    isAsked [check.name] other = true ↔ other = check := by
  rw [isAsked, List.map_singleton, lower_name, List.contains_iff_mem, List.mem_singleton]
  constructor
  · intro hname
    have hsome := congrArg Check.ofName? hname
    rw [ofName?_name, ofName?_name] at hsome
    exact Option.some.inj hsome
  · rintro rfl
    rfl

/-- An audit of a folder with readable settings and known checks ends in one of three ways.  A check
that is asked for stops it at a search place that cannot be searched, or a check of specs at a file
whose spec has a place that is too long; or there is no such place, and the results hold, for each
check that is asked for and for no other, what the check alone gives. -/
theorem run_stops_or_gives {disk : Disk} {request : Request} {root : Location}
    {loaded : LoadedSettings} {names : List String}
    (hroot : Discovery.rootOf disk request.root = .ok root)
    (hsettings : settingsFor disk root request = .ok loaded)
    (hnames : request.checks = some names)
    (hknown : ∀ name ∈ names, ∃ check : Check, check.name = Lower.text name) :
    let p : Project := ⟨disk, root, loaded.settings⟩
    (∃ check, isAsked names check = true ∧ ∃ place ∈ check.role.searchPlaces, ∃ failure,
      Discovery.obstacle? disk root place = some failure ∧
        (run disk request).outcome = .error failure) ∨
    (∃ check ∈ specChecks, isAsked names check = true ∧
      ∃ path ∈ files p check, isBlocked p check.role path = true ∧
        (run disk request).outcome = .error (blockFailure p check.role path)) ∨
    ((∀ check, isAsked names check = true → ∀ place ∈ check.role.searchPlaces,
        Discovery.obstacle? disk root place = none) ∧
      (∀ check ∈ specChecks, isAsked names check = true →
        ∀ path ∈ files p check, isBlocked p check.role path = false) ∧
      ∃ results, (run disk request).outcome = .ok results ∧
        results = resultsOf p (isAsked names) ∧
        (∀ check, holds results check = isAsked names check) ∧
        (∀ check, isAsked names check = true → ∃ single,
          (run disk { request with checks := some [check.name] }).outcome = .ok single ∧
            AgreeOn results single check) ∧
        (∀ check, (files p check).Pairwise fun a b => a.text < b.text) ∧
        (results.warnings.map Warning.file).Nodup) := by
  intro p
  have hrun := outcome_run hroot hsettings hnames hknown
  rw [verdict] at hrun
  cases hstop : stopAmong? p (isAsked names) with
  | some failure =>
      rw [hstop] at hrun
      rcases stopAmong?_eq_some hstop with ⟨check, hasked, hcheck⟩
      rcases stop?_eq_some hcheck with
        ⟨place, hplace, hobstacle⟩ | ⟨hspec, path, hpath, hblocked, rfl⟩
      · exact Or.inl ⟨check, hasked, place, hplace, failure, hobstacle, hrun⟩
      · exact Or.inr (Or.inl ⟨check, hspec, hasked, path, hpath, hblocked, hrun⟩)
  | none =>
      rw [hstop] at hrun
      have hfree := stopAmong?_eq_none_iff.mp hstop
      refine Or.inr (Or.inr ⟨fun check hasked => (stop?_eq_none_iff.mp (hfree check hasked)).left,
        fun check hspec hasked => (stop?_eq_none_iff.mp (hfree check hasked)).right hspec,
        resultsOf p (isAsked names), hrun, rfl, holds_resultsOf p _, ?_, pairwise_text_files p,
        nodup_file_warnings p _⟩)
      intro check hasked
      have hsingle : (run disk { request with checks := some [check.name] }).outcome = _ :=
        outcome_run hroot hsettings rfl (by
          intro name hname
          exact ⟨check, by rw [List.mem_singleton.mp hname, lower_name]⟩)
      have hnone : stopAmong? p (isAsked [check.name]) = none := by
        refine stopAmong?_eq_none_iff.mpr fun other hother => ?_
        cases isAsked_single_iff.mp hother
        exact hfree check hasked
      rw [verdict, hnone] at hsingle
      refine ⟨_, hsingle, agreeOn_resultsOf p ?_⟩
      rw [hasked, isAsked_single_iff.mpr rfl]

def longName : String :=
  String.ofList (List.replicate 256 'n')

theorem toList_longName : longName.toList = List.replicate 256 'n' :=
  String.toList_ofList

def longNameProject : Project :=
  { disk := { entries := [
      ("lib", .folder [("tasks", .folder [("a.rake", .file (File.ofText ""))])])] }
    root := []
    settings := { specPlaces := { rakes := [⟨"lib/tasks/a.rake", longName⟩] } } }

theorem specPlace_longNameProject :
    specPlace longNameProject .task ["lib", "tasks", "a.rake"] = ⟨"/", [longName]⟩ := by
  have hspec : specOf longNameProject .task ["lib", "tasks", "a.rake"] = longName := by
    decide +kernel
  have hpieces : Path.pieces longName = [longName] := by
    rw [Path.pieces, Split.pieces, toList_longName]
    decide +kernel
  rw [specPlace, hspec, Path.ofText, Path.anchorOf, hpieces, toList_longName]
  decide +kernel

theorem text_longName : Path.text ⟨"/", [longName]⟩ = "/" ++ longName := by
  decide +kernel

theorem isBlocked_longNameProject :
    isBlocked longNameProject .task ["lib", "tasks", "a.rake"] = true := by
  have hnull : Path.hasNull (Path.text ⟨"/", [longName]⟩) = false := by
    rw [text_longName, Path.hasNull, String.toList_append, toList_longName]
    decide +kernel
  have hrefusal : Disk.refusal? (Path.text ⟨"/", [longName]⟩) = none := by
    rw [Disk.refusal?, if_neg (Bool.eq_false_iff.mp hnull)]
    exact if_neg (by decide +kernel)
  rw [isBlocked, specPlace_longNameProject, Disk.findsTooLong, Disk.lookup, hrefusal]
  decide +kernel

def longNameRequest : Request :=
  { root := "/"
    settings := some longNameProject.settings
    checks := some ["rakes", "RAKE_SPECS"] }

/-- An audit of this project stops, although its one rake file has no spec. -/
theorem run_longNameProject :
    (run longNameProject.disk longNameRequest).outcome =
      .error (.system ⟨.nameTooLong, "/" ++ longName⟩) := by
  have hroot : Discovery.rootOf longNameProject.disk longNameRequest.root = .ok [] := by
    decide +kernel
  have hsettings : settingsFor longNameProject.disk [] longNameRequest =
      .ok { settings := longNameProject.settings } := rfl
  have hnames : longNameRequest.checks = some ["rakes", "RAKE_SPECS"] := rfl
  have hknown : ∀ name ∈ ["rakes", "RAKE_SPECS"],
      ∃ check : Check, check.name = Lower.text name := by
    intro name hname
    rcases List.mem_pair.mp hname with rfl | rfl
    · exact ⟨.rakes, by decide +kernel⟩
    · exact ⟨.rakeSpecs, by decide +kernel⟩
  have hasked : ∀ check ∈ specChecks, isAsked ["rakes", "RAKE_SPECS"] check = true →
      check = .rakeSpecs := by
    decide +kernel
  have hfiles : files longNameProject .rakeSpecs = [["lib", "tasks", "a.rake"]] := by
    decide +kernel
  have hreach : ∀ check : Check, ∀ place ∈ check.role.searchPlaces,
      Discovery.obstacle? longNameProject.disk [] place = none := by
    intro check
    cases check with
    | controllers => decide +kernel
    | usecaseSpecs => decide +kernel
    | rakes => decide +kernel
    | rakeSpecs => decide +kernel
  rcases run_stops_or_gives hroot hsettings hnames hknown with
    ⟨check, _, place, hplace, failure, hobstacle, _⟩ |
      ⟨check, hspec, hcheck, path, hpath, _, hrun⟩ | ⟨_, hfree, _⟩
  · cases (hreach check place hplace).symm.trans hobstacle
  · cases hasked check hspec hcheck
    have hfailure : blockFailure longNameProject .task ["lib", "tasks", "a.rake"] =
        .system ⟨.nameTooLong, "/" ++ longName⟩ := by
      rw [blockFailure, specPlace_longNameProject, Failure.tooLong, text_longName]
    have hpaths : path ∈ files longNameProject .rakeSpecs := hpath
    rw [hfiles, List.mem_singleton] at hpaths
    rw [hrun, hpaths]
    exact congrArg Except.error hfailure
  · have hpath : ["lib", "tasks", "a.rake"] ∈ files longNameProject .rakeSpecs := by
      rw [hfiles, List.mem_singleton]
    have hblocked := hfree .rakeSpecs (by decide) (by decide +kernel) _ hpath
    cases hblocked.symm.trans isBlocked_longNameProject

end Audit
end UsecaseAudit
