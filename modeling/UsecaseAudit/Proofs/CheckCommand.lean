import UsecaseAudit.CommandLine.Run
import UsecaseAudit.Proofs.FileOpening
import UsecaseAudit.Proofs.ReportNumbers
import UsecaseAudit.Proofs.RunFailures

/-!
# The check command and the audit

The check command reports what the audit with the same root, settings and switches
gives, on the standard output or in a file, and its status says whether there are
findings.  An audit fails in words when its root is missing or no folder or its
settings are no settings, and the command then only says so.  Any other failure is one
of a path that is refused or too long, of folders that go too far within one another,
of the reader of settings or of a number with too many digits, and the command then
breaks off with the same failure.  A report with such a number breaks off as well, and
leaves what was written before.
-/

namespace UsecaseAudit

/-!
# How an audit fails
-/

/-- A failure that the check command has words for. -/
def Failure.isAnnounced : Failure → Bool
  | .rootMissing _ => true
  | .rootNotFolder _ => true
  | .settings _ => true
  | _ => false

/-- A failure that breaks the check command off. -/
def Failure.isAbrupt : Failure → Bool
  | .homeUnknown => true
  | .system e => e.fault = .nullCharacter || e.fault = .nameTooLong
  | .reader _ => true
  | .number _ => true
  | .tooDeep => true
  | _ => false

def Failure.IsExpected (failure : Failure) : Prop :=
  failure.isAnnounced = true ∨ failure.isAbrupt = true

section

variable {failure : Failure}

theorem Host.Refuses.isExpected {host : Host} {p : Path} (h : host.Refuses p failure) :
    failure.IsExpected := by
  cases h with
  | nullUser => exact Or.inr rfl
  | homeless => exact Or.inr rfl
  | null => exact Or.inr rfl

theorem Discovery.RootFails.isExpected {disk : Disk} {text : String}
    (h : RootFails disk text failure) : failure.IsExpected := by
  cases h with
  | refused hrefuses => exact hrefuses.isExpected
  | tooLong => exact Or.inr rfl
  | missing => exact Or.inl rfl
  | notFolder => exact Or.inl rfl

theorem LoadedSettings.Fails.isExpected {disk : Disk} {path : Path}
    (h : Fails disk path failure) : failure.IsExpected := by
  cases h with
  | refused hrefuses =>
      exact hrefuses.isExpected
  | tooLong =>
      exact Or.inr rfl
  | defect _ _ hdefect =>
      cases hdefect with
      | unreadable => exact Or.inl rfl
      | notText => exact Or.inl rfl
      | malformed => exact Or.inl rfl
      | broken => exact Or.inr rfl
      | overlong => exact Or.inr rfl
      | notMapping => exact Or.inl rfl

theorem Discovery.isExpected_of_obstacle? {disk : Disk} {root : Location} {place : SearchPlace}
    (h : obstacle? disk root place = some failure) : failure.IsExpected := by
  unfold obstacle? at h
  split at h
  · cases h
    exact Or.inr rfl
  · split at h
    · cases h
      exact Or.inr rfl
    · cases h

namespace Audit

theorem FirstStop.isExpected {p : Project} {request : Request}
    (h : FirstStop p request failure) : failure.IsExpected := by
  rcases h with ⟨_, check, _, _, _, hstops, _⟩
  cases hstops with
  | search _ _ hobstacle => exact Discovery.isExpected_of_obstacle? hobstacle
  | spec => exact Or.inr rfl

theorem areUnknown_chosen (switches : Check.Switches) :
    Check.AreUnknown ((Check.chosen switches).map Check.name) [] := by
  refine ⟨List.Pairwise.nil, fun name => iff_of_false List.not_mem_nil ?_⟩
  rintro ⟨hname, hunknown⟩
  rcases List.mem_map.mp hname with ⟨given, hgiven, rfl⟩
  rcases List.mem_map.mp hgiven with ⟨check, _, rfl⟩
  exact hunknown check (lower_name check).symm

theorem isExpected_check {disk : Disk} {root : String} {settings : Option String}
    {switches : Check.Switches}
    (h : (check disk root settings switches).outcome = .error failure) : failure.IsExpected := by
  cases outcome_eq_error_iff.mp h with
  | root hroot =>
      exact hroot.isExpected
  | settings _ _ hsettings =>
      exact hsettings.isExpected
  | checks _ _ hgiven hunknown hne =>
      cases hgiven
      exact absurd (hunknown.eq (areUnknown_chosen switches)) hne
  | stop _ _ _ hstop =>
      exact hstop.isExpected

/-- The home of a user that is not known is neither missing nor a folder. -/
theorem check_unknownHome :
    (check {} "~no_such_user_zz" none {}).outcome = .error .homeUnknown ∧
      Failure.homeUnknown.isAnnounced = false := by
  decide +kernel

end Audit

end

/-!
# How the command ends
-/

namespace Results

def HasViolation (r : Results) : Prop :=
  r.controllers.getD [] ≠ [] ∨ r.usecaseSpecs.getD [] ≠ [] ∨ r.rakes.getD [] ≠ [] ∨
    r.rakeSpecs.getD [] ≠ []

theorem hasFindings_iff (r : Results) : r.hasFindings = true ↔ r.HasViolation := by
  unfold hasFindings total count HasViolation
  rw [decide_eq_true_iff, ← List.length_pos_iff, ← List.length_pos_iff, ← List.length_pos_iff,
    ← List.length_pos_iff]
  omega

end Results

namespace CommandLine

def Ends (ending : Except Broken Outcome) (disk : Disk) (stdout : String) (status : Nat) : Prop :=
  ∃ outcome, ending = .ok outcome ∧ outcome.disk = disk ∧ outcome.stdout = stdout ∧
    outcome.status = status

def BreaksOff (ending : Except Broken Outcome) (disk : Disk) (stdout : String)
    (failure : Failure) : Prop :=
  ∃ broken, ending = .error broken ∧ broken.disk = disk ∧ broken.stdout = stdout ∧
    broken.cause = .audit failure

def IsStatus (r : Results) (status : Nat) : Prop :=
  (status = 1 ∧ r.HasViolation) ∨ (status = 0 ∧ ¬ r.HasViolation)

theorem isStatus_statusOf (r : Results) : IsStatus r (statusOf r) := by
  unfold IsStatus statusOf
  rw [← r.hasFindings_iff]
  cases r.hasFindings with
  | true => exact Or.inl ⟨rfl, rfl⟩
  | false => exact Or.inr ⟨rfl, Bool.false_ne_true⟩

/-- A file is the only thing that differs between two disks, and a path leads to it. -/
structure Saved (before after : Disk) (output text : String) (target : Location) : Prop where
  placed : before.Placed after target (.file (File.ofText text))
  leads : after.leads output = .ok target

/-- What becomes of results: their report goes to the standard output, or else to a file.  A number
that cannot be written breaks it off. -/
structure Reports (disk : Disk) (output : String) (report : Report.Written) (r : Results)
    (ending : Except Broken Outcome) : Prop where
  shown : output = "" → report.failure = none →
    ∃ status, IsStatus r status ∧ Ends ending disk report.text status
  brokenShown : ∀ e, output = "" → report.failure = some e →
    BreaksOff ending disk report.text (.number e)
  saved : ∀ target, output ≠ "" → disk.opened output = .ok target → report.failure = none →
    ∃ status written, IsStatus r status ∧ Ends ending written "" status ∧
      Saved disk written output report.text target
  brokenSaved : ∀ target e, output ≠ "" → disk.opened output = .ok target →
    report.failure = some e →
    ∃ written, BreaksOff ending written "" (.number e) ∧
      Saved disk written output report.text target
  unopened : ∀ e, output ≠ "" → disk.opened output = .error e →
    (e.fault ≠ .nullCharacter → Ends ending disk "" 1) ∧
      (e.fault = .nullCharacter → BreaksOff ending disk "" (.system e))

section

variable {disk : Disk} {o : Options} {format : Report.Format} {records : List Log.Record}
  {r : Results}

theorem report?_eq (hformat : o.format = some format) :
    report? disk o r = some (Report.text disk.host.print format r) := by
  rw [report?, hformat]
  rfl

theorem reportToFile_of_opened (hformat : o.format = some format) {output : String}
    {target : Location} (h : disk.opened output = .ok target) :
    ∃ written,
      Saved disk written output (Report.text disk.host.print format r).text target ∧
      ((Report.text disk.host.print format r).failure = none →
        Ends (reportToFile disk o records r output) written "" (statusOf r)) ∧
      ∀ e, (Report.text disk.host.print format r).failure = some e →
        BreaksOff (reportToFile disk o records r output) written "" (.number e) := by
  have hplaced := Disk.opened_eq_ok h
    (File.ofText (Report.text disk.host.print format r).text)
  rcases hplaced with ⟨_, _, hplaced, hleads⟩
  refine ⟨_, ⟨hplaced, hleads⟩, ?_, ?_⟩
  · intro hwhole
    unfold reportToFile
    dsimp only
    rw [report?_eq hformat, Disk.write_eq, h, reportBreakdown?, hwhole]
    exact ⟨_, rfl, rfl, rfl, rfl⟩
  · intro e he
    unfold reportToFile
    dsimp only
    rw [report?_eq hformat, Disk.write_eq, h, reportBreakdown?, he]
    exact ⟨_, rfl, rfl, rfl, rfl⟩

theorem reportToFile_of_error {output : String} {e : SystemError}
    (h : disk.opened output = .error e) :
    (e.fault ≠ .nullCharacter → Ends (reportToFile disk o records r output) disk "" 1) ∧
      (e.fault = .nullCharacter →
        BreaksOff (reportToFile disk o records r output) disk "" (.system e)) := by
  have hwrite : ∀ content, disk.write output content = .error e := by
    intro content
    rw [Disk.write_eq, h]
    rfl
  unfold reportToFile
  dsimp only
  rw [hwrite]
  dsimp only
  constructor
  · intro hfault
    rw [if_neg hfault]
    exact ⟨_, rfl, rfl, rfl, rfl⟩
  · intro hfault
    rw [if_pos hfault]
    exact ⟨_, rfl, rfl, rfl, rfl⟩

theorem report_of_output (hne : o.output.getD "" ≠ "") :
    report disk o records r = reportToFile disk o records r (o.output.getD "") := by
  unfold report
  split
  · rename_i hempty
    exact absurd hempty hne
  · rfl

theorem reports_report (hformat : o.format = some format) :
    Reports disk (o.output.getD "") (Report.text disk.host.print format r) r
      (report disk o records r) where
  shown := by
    intro hempty hwhole
    refine ⟨statusOf r, isStatus_statusOf r, ?_⟩
    unfold report
    rw [hempty]
    dsimp only
    rw [report?_eq hformat, reportBreakdown?, hwhole]
    exact ⟨_, rfl, rfl, rfl, rfl⟩
  brokenShown := by
    intro e hempty he
    unfold report
    rw [hempty]
    dsimp only
    rw [report?_eq hformat, reportBreakdown?, he]
    exact ⟨_, rfl, rfl, rfl, rfl⟩
  saved := by
    intro target hne hopened hwhole
    rcases reportToFile_of_opened hformat hopened with ⟨written, hsaved, hends, _⟩
    rw [report_of_output hne]
    exact ⟨statusOf r, written, isStatus_statusOf r, hends hwhole, hsaved⟩
  brokenSaved := by
    intro target e hne hopened he
    rcases reportToFile_of_opened hformat hopened with ⟨written, hsaved, _, hbroken⟩
    rw [report_of_output hne]
    exact ⟨written, hbroken e he, hsaved⟩
  unopened := by
    intro e hne hopened
    rw [report_of_output hne]
    exact reportToFile_of_error hopened

theorem runCheckAt_of_error {root : String} {failure : Failure}
    (h : (Audit.check disk root o.settings o.switches).outcome = .error failure) :
    (failure.isAnnounced = true ∧ Ends (runCheckAt disk o root) disk "" 1) ∨
      (failure.isAbrupt = true ∧ BreaksOff (runCheckAt disk o root) disk "" failure) := by
  have hexpected := Audit.isExpected_check h
  unfold runCheckAt
  dsimp only
  rw [h]
  cases failure with
  | rootMissing path => exact Or.inl ⟨rfl, _, rfl, rfl, rfl, rfl⟩
  | rootNotFolder path => exact Or.inl ⟨rfl, _, rfl, rfl, rfl, rfl⟩
  | settings e => exact Or.inl ⟨rfl, _, rfl, rfl, rfl, rfl⟩
  | _ => exact Or.inr ⟨hexpected.resolve_left Bool.false_ne_true, _, rfl, rfl, rfl, rfl⟩

end

/-- The check command reports the results of the audit with the same root, settings and switches in
the format that is asked for; the report is written to its end exactly if all its numbers can be
written.  Where the audit fails, the command says so with status one if the failure has words, and
otherwise breaks off with the failure; nothing is written either way. -/
theorem run_check_agrees {disk : Disk} {arguments : List String} {o : Options} {root : String}
    {format : Report.Format} (hparse : parse arguments = .ok ⟨.check, o⟩)
    (hroot : o.root = some root) (hformat : o.format = some format) (input : String) :
    (∀ r, (Audit.check disk root o.settings o.switches).outcome = .ok r →
      Reports disk (o.output.getD "") (Report.text disk.host.print format r) r
        (run disk arguments input) ∧
      ((Report.text disk.host.print format r).failure = none ↔ Report.IsShort r)) ∧
    ∀ failure, (Audit.check disk root o.settings o.switches).outcome = .error failure →
      (failure.isAnnounced = true ∧ Ends (run disk arguments input) disk "" 1) ∨
        (failure.isAbrupt = true ∧ BreaksOff (run disk arguments input) disk "" failure) := by
  have hrun : run disk arguments input = runCheckAt disk o root := by
    unfold run
    rw [hparse]
    dsimp only [runCheck]
    rw [hroot]
  rw [hrun]
  constructor
  · intro r hr
    refine ⟨?_, Report.failure_text_eq_none_iff _ _⟩
    unfold runCheckAt
    dsimp only
    rw [hr]
    exact reports_report hformat
  · intro failure hfailure
    exact runCheckAt_of_error hfailure

def unreadableRakeDisk : Disk :=
  { entries := [("lib", .folder [("tasks", .folder [("a.rake", .file { bytes := [255] })])])] }

/-- A missing spec is reported to a file, with status one and nothing on the standard output. -/
theorem run_check_unreadableRake :
    ∃ r written,
      (Audit.check unreadableRakeDisk "/" none { rakesOnly := true }).outcome = .ok r ∧
      r.warnings.length = 1 ∧
      Ends (run unreadableRakeDisk ["-r", "/", "-R", "--format=json", "-qo", "/report"] "")
        written "" 1 ∧
      written.entry? ["report"] =
        some (.file (File.ofText (Report.text unreadableRakeDisk.host.print .json r).text)) := by
  have hparse : parse ["-r", "/", "-R", "--format=json", "-qo", "/report"] =
      .ok ⟨.check, {
        root := some "/"
        format := some .json
        output := some "/report"
        switches := { rakesOnly := true }
        quiet := true }⟩ := by
    decide +kernel
  have hcheck : (Audit.check unreadableRakeDisk "/" none { rakesOnly := true }).outcome =
      .ok { rakes := some []
            rakeSpecs := some [⟨"lib/tasks/a.rake", "spec/lib/tasks/a_spec.rb"⟩]
            warnings := [⟨"lib/tasks/a.rake",
              "lib/tasks/a.rake: invalid UTF-8: invalid start byte"⟩] } := by
    decide +kernel
  have hopened : unreadableRakeDisk.opened "/report" = .ok ["report"] := by
    decide +kernel
  rcases (run_check_agrees hparse rfl rfl "").left _ hcheck with ⟨hreports, hwhole⟩
  have hshort := hwhole.mpr (by decide +kernel)
  rcases hreports.saved _ (by decide) hopened hshort with ⟨status, written, hstatus, hends, hsaved⟩
  rcases hstatus with ⟨rfl, _⟩ | ⟨_, hnone⟩
  · exact ⟨_, written, hcheck, rfl, hends, hsaved.placed.placed⟩
  · exact absurd (Or.inr (Or.inr (Or.inr (List.cons_ne_nil _ _)))) hnone

end CommandLine
end UsecaseAudit
