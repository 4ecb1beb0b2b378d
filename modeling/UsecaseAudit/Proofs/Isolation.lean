import UsecaseAudit.Proofs.DiskShape
import UsecaseAudit.Proofs.Outcome

/-!
# Files do not influence one another

When two disks differ in the content of one file only, and this is not the
settings file, then audits of the two disks fail alike, or they report the same
about every other file.
-/

namespace UsecaseAudit

/-!
# Disks that differ in one file
-/

namespace Disk

/-- Disks with the same folders and files, which differ at most in the content of the file at `f`. -/
structure SameBut (f : Location) (d e : Disk) : Prop where
  shape : d.shape = e.shape
  content : ∀ place, place ≠ f → ∀ file, d.entry? place = some (.file file) →
    e.entry? place = some (.file file)

section

variable {d e : Disk} {f : Location}

theorem SameBut.map_shape_entry? (h : SameBut f d e) (place : Location) :
    (d.entry? place).map Entry.shape = (e.entry? place).map Entry.shape := by
  rw [← entry?_shape, ← entry?_shape, h.shape]

theorem SameBut.follow_eq (h : SameBut f d e) (place : Location) (names : List String) :
    d.follow place names = e.follow place names := by
  rw [← follow_shape d, h.shape, follow_shape]

theorem host_eq (h : d.shape = e.shape) : d.host = e.host := by
  rw [← host_shape d, h, host_shape]

theorem map_shape_lookup (h : d.shape = e.shape) (p : Path) :
    (d.lookup p).map Entry.shape = (e.lookup p).map Entry.shape := by
  rw [← lookup_shape, ← lookup_shape, h]

theorem sameBut_install {old : File} (content : File) (h : d.entry? f = some (.file old)) :
    SameBut f d (d.install f (.file content)) := by
  rcases Entry.install_file content h with ⟨hshape, hkept⟩
  refine ⟨?_, hkept⟩
  unfold shape install
  rw [hshape]

theorem SameBut.entry?_cases (h : SameBut f d e) {place : Location} (hplace : place ≠ f) :
    d.entry? place = e.entry? place ∨
      ∃ old new, d.entry? place = some (.folder old) ∧ e.entry? place = some (.folder new) := by
  have hshape := h.map_shape_entry? place
  cases hd : d.entry? place with
  | none =>
      rw [hd] at hshape
      exact Or.inl (Option.map_eq_none_iff.mp hshape.symm).symm
  | some entry =>
      cases entry with
      | file content =>
          exact Or.inl (h.content place hplace content hd).symm
      | folder old =>
          rw [hd] at hshape
          rcases Option.map_eq_some_iff.mp hshape.symm with ⟨entry, he, hentry⟩
          cases entry with
          | file content => cases hentry
          | folder new => exact Or.inr ⟨old, new, rfl, he⟩

theorem SameBut.read_eq (h : SameBut f d e) {place : Location} (hplace : place ≠ f)
    (hstraight : ∀ name ∈ place, name ≠ "." ∧ name ≠ "..") :
    d.read (Path.ofLocation place) = e.read (Path.ofLocation place) := by
  unfold read
  rw [lookup_ofLocation hstraight, lookup_ofLocation hstraight, h.follow_eq, host_eq h.shape]
  cases refusal? (Path.ofLocation place).text with
  | some fault =>
      rfl
  | none =>
      cases e.follow [] place with
      | error fault =>
          rfl
      | ok target =>
          rcases h.entry?_cases hplace with heq | ⟨old, new, hd, he⟩
          · rw [heq]
          · rw [hd, he]

end

end Disk

/-!
# Settings
-/

/-- Of all contents only that of the settings file matters for loading. -/
theorem LoadedSettings.load_eq {d e : Disk} (h : d.shape = e.shape) {path : Path}
    (hread : ∀ place, locate d path = .ok place →
      d.read (Path.ofLocation place) = e.read (Path.ofLocation place)) :
    load d path = load e path := by
  have hlocate : locate d path = locate e path := by
    rw [← locate_shape d, h, locate_shape]
  have hpresent : ∀ p, d.isPresent p = e.isPresent p := by
    intro p
    rw [← Disk.isPresent_shape, h, Disk.isPresent_shape]
  unfold load
  rw [← hlocate]
  cases hplace : locate d path with
  | error failure =>
      rfl
  | ok place =>
      have hfile : ofFile d place = ofFile e place := by
        unfold ofFile
        dsimp only
        rw [hread place hplace, Disk.host_eq h]
      show ((d.isPresent _).mapError _ >>= _) = ((e.isPresent _).mapError _ >>= _)
      rw [hpresent, hfile]

namespace Audit

theorem ne_dot_of_mem_settingsPathOf {root : Location}
    (hroot : ∀ name ∈ root, name ≠ "." ∧ name ≠ "..") (request : Request) :
    ∀ name ∈ (settingsPathOf root request).parts, name ≠ "." := by
  have hdefault : ∀ name ∈ (Path.ofLocation (root ++ [Starter.fileName])).parts, name ≠ "." := by
    intro name hname
    rcases List.mem_append.mp hname with hold | hlast
    · exact (hroot name hold).left
    · rw [List.mem_singleton.mp hlast]
      decide
  unfold settingsPathOf
  dsimp only
  split
  · exact hdefault
  · exact fun _ => Path.ne_dot_of_mem_ofText

theorem settingsFor_eq_of_read {d e : Disk} (h : d.shape = e.shape) {request : Request}
    (hread : ∀ place, TakesSettingsFrom d request place →
      d.read (Path.ofLocation place) = e.read (Path.ofLocation place))
    {root : Location} (hroot : Discovery.rootOf d request.root = .ok root) :
    settingsFor d root request = settingsFor e root request := by
  cases hgiven : request.settings with
  | some settings =>
      unfold settingsFor
      rw [hgiven]
  | none =>
      rw [settingsFor_eq_load d root hgiven, settingsFor_eq_load e root hgiven]
      apply LoadedSettings.load_eq h
      intro place hplace
      exact hread place ⟨hgiven, root, hroot, hplace⟩

theorem settingsFor_eq {d e : Disk} {f : Location} (h : Disk.SameBut f d e)
    (hproper : d.isProper = true) {request : Request} (hf : ¬ TakesSettingsFrom d request f)
    {root : Location} (hroot : Discovery.rootOf d request.root = .ok root) :
    settingsFor d root request = settingsFor e root request := by
  refine settingsFor_eq_of_read h.shape ?_ hroot
  rintro place ⟨hgiven, other, hother, hplace⟩
  have hdots := ne_dot_of_mem_settingsPathOf (Discovery.straight_of_rootOf hproper hother) request
  apply h.read_eq
  · rintro rfl
    exact hf ⟨hgiven, other, hother, hplace⟩
  · exact LoadedSettings.straight_of_locate hproper hdots hplace

/-!
# Projects on two disks
-/

theorem isOk_map (x : Except Fault Entry) : (x.map Entry.shape).isOk = x.isOk := by
  cases x with
  | ok entry => rfl
  | error fault => rfl

section

variable {d e : Disk} (h : d.shape = e.shape) (root : Location) (settings : Settings)

include h

theorem files_same (check : Check) :
    files ⟨d, root, settings⟩ check = files ⟨e, root, settings⟩ check := by
  have hrole :
      Discovery.filesOfRole d root check.role = Discovery.filesOfRole e root check.role := by
    rw [← Discovery.filesOfRole_shape d, h, Discovery.filesOfRole_shape]
  unfold files
  rw [hrole]
  rfl

theorem hasSpec_same (role : Role) :
    hasSpec ⟨d, root, settings⟩ role = hasSpec ⟨e, root, settings⟩ role := by
  funext path
  have hok := congrArg Except.isOk
    (Disk.map_shape_lookup h (specPlace ⟨d, root, settings⟩ role path))
  rw [isOk_map, isOk_map] at hok
  exact hok

theorem isBlocked_same (role : Role) :
    isBlocked ⟨d, root, settings⟩ role = isBlocked ⟨e, root, settings⟩ role := by
  funext path
  unfold isBlocked
  rw [← Disk.findsTooLong_shape d, h, Disk.findsTooLong_shape]
  rfl

theorem unreached?_same (check : Check) :
    unreached? ⟨d, root, settings⟩ check = unreached? ⟨e, root, settings⟩ check := by
  unfold unreached?
  rw [← Discovery.unreachable?_shape d, h, Discovery.unreachable?_shape]

theorem stop?_same (check : Check) :
    stop? ⟨d, root, settings⟩ check = stop? ⟨e, root, settings⟩ check := by
  unfold stop? blocked?
  rw [unreached?_same h, files_same h, isBlocked_same h]
  rfl

theorem missingIn_same (check : Check) :
    missingIn ⟨d, root, settings⟩ check = missingIn ⟨e, root, settings⟩ check := by
  unfold missingIn missingAmong
  rw [files_same h, hasSpec_same h]
  rfl

theorem stopAmong?_same (asked : Check → Bool) :
    stopAmong? ⟨d, root, settings⟩ asked = stopAmong? ⟨e, root, settings⟩ asked := by
  unfold stopAmong? stopIfAsked?
  simp only [stop?_same h]

end

/-!
# What is reported
-/

def isShown (root f : Location) (file : String) : Bool :=
  root.isPrefixOf f && ProjectPath.text (f.drop root.length) == file

theorem isShown_append (root : Location) (path : ProjectPath) :
    isShown root (root ++ path) path.text = true := by
  unfold isShown
  rw [List.drop_left, beq_self_eq_true, Bool.and_true, List.isPrefixOf_iff_prefix]
  exact List.prefix_append root path

/-- Results that say the same, apart from the findings and warnings of hidden files. -/
structure AgreeBut (hidden : String → Bool) (r s : Results) : Prop where
  usecaseSpecs : r.usecaseSpecs = s.usecaseSpecs
  rakeSpecs : r.rakeSpecs = s.rakeSpecs
  controllers : r.controllers.map (List.filter fun v => !hidden v.file) =
    s.controllers.map (List.filter fun v => !hidden v.file)
  rakes : r.rakes.map (List.filter fun v => !hidden v.file) =
    s.rakes.map (List.filter fun v => !hidden v.file)
  warnings : (r.warnings.filter fun w => !hidden w.file) =
    s.warnings.filter fun w => !hidden w.file

section

variable {d e : Disk} {f : Location} (h : Disk.SameBut f d e) (hproper : d.isProper = true)
  {root : Location} (hroot : ∀ name ∈ root, name ≠ "." ∧ name ≠ "..") (settings : Settings)

include h hproper hroot

theorem readCode_same {role : Role} {path : ProjectPath}
    (hpath : path ∈ Discovery.filesOfRole d root role) (hne : root ++ path ≠ f) :
    readCode ⟨d, root, settings⟩ path = readCode ⟨e, root, settings⟩ path := by
  have hstraight : ∀ name ∈ root ++ path, name ≠ "." ∧ name ≠ ".." := by
    intro name hname
    rcases List.mem_append.mp hname with hold | hnew
    · exact hroot name hold
    · exact (Entry.ne_of_isName
        (Discovery.isName_of_mem_filesOfRole hproper hpath name hnew)).right
  unfold readCode SourceFile.readAs
  dsimp only
  rw [h.read_eq hne hstraight, Disk.host_eq h.shape]

theorem filter_findings_same {α : Type} (check : Check) (fileOf : α → String)
    (scan : String → Code → List α) (hfile : ∀ file code, ∀ v ∈ scan file code, fileOf v = file) :
    (((files ⟨d, root, settings⟩ check).flatMap (findingsIn ⟨d, root, settings⟩ scan)).filter
        fun v => !isShown root f (fileOf v)) =
      ((files ⟨e, root, settings⟩ check).flatMap (findingsIn ⟨e, root, settings⟩ scan)).filter
        fun v => !isShown root f (fileOf v) := by
  rw [← files_same h.shape, List.filter_flatMap, List.filter_flatMap]
  apply List.flatMap_congr
  intro path hpath
  by_cases hf : root ++ path = f
  -- whatever is found in the file at `f` is hidden, on either disk
  · have hnone : ∀ p : Project,
        ((findingsIn p scan path).filter fun v => !isShown root f (fileOf v)) = [] := by
      intro p
      apply List.filter_eq_nil_iff.mpr
      intro v hv
      unfold findingsIn at hv
      split at hv
      · rw [hfile _ _ v hv, ← hf, isShown_append]
        exact Bool.false_ne_true
      · cases hv
    rw [hnone, hnone]
  · unfold findingsIn
    rw [readCode_same h hproper hroot settings (List.mem_of_mem_filter hpath) hf]

theorem filter_warningsIn_same (check : Check) :
    ((warningsIn ⟨d, root, settings⟩ check).filter fun w => !isShown root f w.file) =
      (warningsIn ⟨e, root, settings⟩ check).filter fun w => !isShown root f w.file := by
  unfold warningsIn
  rw [← files_same h.shape, List.filter_filterMap, List.filter_filterMap]
  apply List.filterMap_congr
  intro path hpath
  by_cases hf : root ++ path = f
  · have hnone : ∀ p : Project,
        ((warning? p path).filter fun w => !isShown root f w.file) = none := by
      intro p
      apply Option.filter_eq_none_iff.mpr
      intro w hw
      rw [file_of_warning? hw, ← hf, isShown_append]
      exact Bool.false_ne_true
    rw [hnone, hnone]
  · unfold warning?
    rw [readCode_same h hproper hroot settings (List.mem_of_mem_filter hpath) hf]

theorem agreeBut_resultsOf (asked : Check → Bool) :
    AgreeBut (isShown root f) (resultsOf ⟨d, root, settings⟩ asked)
      (resultsOf ⟨e, root, settings⟩ asked) where
  usecaseSpecs := by
    dsimp only [resultsOf]
    rw [missingIn_same h.shape]
  rakeSpecs := by
    dsimp only [resultsOf]
    rw [missingIn_same h.shape]
  controllers := by
    apply (ite_some_eq_map _ rfl).symm.trans
    apply ite_some_eq_map
    exact filter_findings_same h hproper hroot settings .controllers IdleAction.file _
      fun _ _ _ => Code.file_of_mem_idleActions
  rakes := by
    apply (ite_some_eq_map _ rfl).symm.trans
    apply ite_some_eq_map
    exact filter_findings_same h hproper hroot settings .rakes IdleTask.file _
      fun _ _ _ => Code.file_of_mem_idleTasks
  warnings := by
    have hpart : ∀ check,
        ((if asked check then warningsIn ⟨d, root, settings⟩ check else []).filter
          fun w => !isShown root f w.file) =
        (if asked check then warningsIn ⟨e, root, settings⟩ check else []).filter
          fun w => !isShown root f w.file := by
      intro check
      cases asked check with
      | true => exact filter_warningsIn_same h hproper hroot settings check
      | false => rfl
    dsimp only [resultsOf]
    rw [List.filter_append, List.filter_append, hpart, hpart]

end

/-- Audits of two disks that differ in the content of one file only, which is not the settings
file, fail alike; or they agree about specs, and about the code of every other file. -/
theorem run_isolated {d e : Disk} {f : Location} (request : Request)
    (hproper : d.isProper = true) (hsame : Disk.SameBut f d e)
    (hsettings : ¬ TakesSettingsFrom d request f) :
    (∃ failure, (run d request).outcome = .error failure ∧
      (run e request).outcome = .error failure) ∨
    (∃ root r s, Discovery.rootOf d request.root = .ok root ∧
      (run d request).outcome = .ok r ∧ (run e request).outcome = .ok s ∧
        AgreeBut (isShown root f) r s) := by
  have hrootOf : Discovery.rootOf e request.root = Discovery.rootOf d request.root := by
    rw [← Discovery.rootOf_shape, ← hsame.shape, Discovery.rootOf_shape]
  -- up to the checks themselves a run looks at the content of the settings file only
  rw [outcome_run_eq, outcome_run_eq, hrootOf]
  cases hroot : Discovery.rootOf d request.root with
  | error failure =>
      exact Or.inl ⟨failure, rfl, rfl⟩
  | ok root =>
      dsimp only [Except.bind]
      rw [← settingsFor_eq hsame hproper hsettings hroot]
      cases settingsFor d root request with
      | error failure =>
          exact Or.inl ⟨failure, rfl, rfl⟩
      | ok loaded =>
          cases (Check.named request.checks).mapError Failure.unknownChecks with
          | error failure =>
              exact Or.inl ⟨failure, rfl, rfl⟩
          | ok checks =>
              dsimp only
              unfold verdict
              rw [← stopAmong?_same hsame.shape]
              cases stopAmong? ⟨d, root, loaded.settings⟩ checks.contains with
              | some failure =>
                  exact Or.inl ⟨failure, rfl, rfl⟩
              | none =>
                  exact Or.inr ⟨root, _, _, rfl, rfl, rfl,
                    agreeBut_resultsOf hsame hproper
                      (Discovery.straight_of_rootOf hproper hroot) _ _⟩

def unreadableDisk : Disk :=
  { entries := [
      ("app", .folder [("controllers", .folder [("x_controller.rb", .file { bytes := [255] })])]),
      ("lib", .folder [("tasks", .folder [("a.rake", .file { bytes := [255] })])])] }

def unreadableRequest : Request :=
  { root := "/", checks := some ["controllers", "rakes", "rake_specs"] }

/-- With a rake file that can be read, the same is said about the controller and about specs. -/
theorem run_isolated_unreadable :
    ∃ r s, (run unreadableDisk unreadableRequest).outcome = .ok r ∧
      (run (unreadableDisk.install ["lib", "tasks", "a.rake"] (.file { bytes := [] }))
        unreadableRequest).outcome = .ok s ∧
      r.warnings.length = 2 ∧ s.warnings.length = 1 ∧
      AgreeBut (isShown [] ["lib", "tasks", "a.rake"]) r s := by
  have htop : Discovery.rootOf unreadableDisk unreadableRequest.root = .ok [] := by
    decide +kernel
  have hsettings : ¬ TakesSettingsFrom unreadableDisk unreadableRequest
      ["lib", "tasks", "a.rake"] := by
    rintro ⟨_, root, hroot, hlocate⟩
    cases hroot.symm.trans htop
    exact absurd hlocate (by decide +kernel)
  have hsame := Disk.sameBut_install (d := unreadableDisk) (f := ["lib", "tasks", "a.rake"])
    { bytes := [] } rfl
  have htwo : (run unreadableDisk unreadableRequest).outcome.map
      (fun results => results.warnings.length) = .ok 2 := by
    decide +kernel
  rcases run_isolated unreadableRequest (by decide +kernel) hsame hsettings with
    ⟨failure, hfails, _⟩ | ⟨root, r, s, hroot, hr, hs, hagree⟩
  · rw [hfails] at htwo
    cases htwo
  · have hone : (run (unreadableDisk.install ["lib", "tasks", "a.rake"] (.file { bytes := [] }))
        unreadableRequest).outcome.map (fun results => results.warnings.length) = .ok 1 := by
      decide +kernel
    rw [hr] at htwo
    rw [hs] at hone
    cases hroot.symm.trans htop
    exact ⟨r, s, hr, hs, Except.ok.inj htwo, Except.ok.inj hone, hagree⟩

end Audit
end UsecaseAudit
