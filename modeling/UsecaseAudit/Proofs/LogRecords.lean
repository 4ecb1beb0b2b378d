import Mathlib.Data.List.Forall2
import UsecaseAudit.CommandLine.Run
import UsecaseAudit.Proofs.Conversion
import UsecaseAudit.Proofs.LogRuns
import UsecaseAudit.Proofs.Outcome
import UsecaseAudit.Proofs.SpecCollisions

/-!
# The records of an audit

Every record of an audit comes from a part of the program, so a configured log shows
it exactly once if its level is admitted.  The records that say that a file could
not be parsed go with the warnings of the results, one for each and in their order.
-/

namespace UsecaseAudit

namespace Log

/-!
# A log over time
-/

def written : State → List Event → String
  | _, [] => ""
  | s, event :: rest => (s.step event).2 ++ written (s.step event).1 rest

def programParts : List String :=
  ["orchestrator", "repo_scanner", "cli"] ++ Check.all.map fun check => "analyzers." ++ check.name

def FromProgram (records : List Record) : Prop :=
  ∀ r ∈ records, ∃ part ∈ programParts, r.source = sourceName (some part)

theorem isPlain_part {part : String} (h : part ∈ programParts) : IsPlain (some part) := by
  have hparts : ∀ name ∈ programParts, IsPlain (some name) := by
    decide
  exact hparts part h

theorem consoleText_cons (level : Level) (r : Record) (records : List Record) :
    consoleText level (r :: records) =
      (if level.admits r.level then r.consoleLine else "") ++ consoleText level records := by
  unfold consoleText
  rw [List.filter_cons]
  split
  · rw [List.map_cons, String.join_cons]
  · rw [String.empty_append]

theorem State.IsConfigured.written_records {s : State} {c : Configuration} (h : s.IsConfigured c)
    {records : List Record} (hrecords : FromProgram records) :
    written s (records.map .record) = consoleText c.level records := by
  induction records generalizing s with
  | nil =>
      rfl
  | cons r rest ih =>
      rcases r with ⟨level, source, text⟩
      rcases hrecords _ List.mem_cons_self with ⟨part, hpart, rfl⟩
      have hshown := (h.record_plain (isPlain_part hpart) level text).left
      rw [List.map_cons, written, consoleText_cons, ← hshown, State.step,
        ih (h.record _) fun other hother => hrecords other (List.mem_cons_of_mem _ hother)]

/-- A log that is configured for the console shows what its level admits, whatever was before. -/
theorem written_configure (s : State) (verbose quiet : Bool) {records : List Record}
    (hrecords : FromProgram records) :
    written s (.configure verbose quiet false :: records.map .record) =
      consoleText (Level.ofVerbosity verbose quiet) records := by
  have hconfigured : (s.step (.configure verbose quiet false)).1.IsConfigured
      ⟨verbose, quiet, none, true⟩ := State.isConfigured_configure s ⟨verbose, quiet, none, true⟩
  rw [written, hconfigured.written_records hrecords]
  exact String.empty_append

/-!
# Files that could not be parsed
-/

def Record.isSkip (r : Record) : Bool :=
  Affix.starts r.text "Could not parse "

def skips (records : List Record) : List Record :=
  records.filter Record.isSkip

theorem skips_append (first second : List Record) :
    skips (first ++ second) = skips first ++ skips second :=
  List.filter_append first second

/-- A record that says of the file of a warning what the warning says. -/
def Record.Announces (r : Record) (w : Warning) : Prop :=
  r.level = .warning ∧ ∃ line detail,
    r.text = "Could not parse " ++ w.file ++ ": " ++ detail ∧
      w.message = ReadFailure.locate w.file line detail

theorem starts_append_eq_false {front mark : String} (rest : String)
    (h : (mark.toList.isPrefixOf front.toList || front.toList.isPrefixOf mark.toList) = false) :
    Affix.starts (front ++ rest) mark = false := by
  rw [Bool.or_eq_false_iff] at h
  unfold Affix.starts
  rw [Bool.eq_false_iff, String.toList_append]
  intro hmark
  rcases List.prefix_or_prefix_of_prefix (List.isPrefixOf_iff_prefix.mp hmark)
    (List.prefix_append front.toList rest.toList) with hfirst | hsecond
  · rw [List.isPrefixOf_iff_prefix.mpr hfirst] at h
    cases h.left
  · rw [List.isPrefixOf_iff_prefix.mpr hsecond] at h
    cases h.right

end Log

namespace Traced

variable {α β : Type} {x : Traced α} {f : α → Traced β}

theorem records_bind_ok {a : α} (h : x.outcome = .ok a) :
    (x >>= f).records = x.records ++ (f a).records := by
  show (bind x f).records = _
  unfold bind
  rw [h]

theorem records_bind_error {failure : Failure} (h : x.outcome = .error failure) :
    (x >>= f).records = x.records := by
  show (bind x f).records = _
  unfold bind
  rw [h]

theorem exists_of_outcome_bind {b : β} (h : (x >>= f).outcome = .ok b) :
    ∃ a, x.outcome = .ok a ∧ (f a).outcome = .ok b ∧
      (x >>= f).records = x.records ++ (f a).records := by
  cases hx : x.outcome with
  | error failure =>
      rw [outcome_bind, hx] at h
      cases h
  | ok a =>
      rw [outcome_bind_ok hx] at h
      exact ⟨a, rfl, h, records_bind_ok hx⟩

theorem forall_records_bind {P : Log.Record → Prop} (hx : ∀ r ∈ x.records, P r)
    (hf : ∀ a, ∀ r ∈ (f a).records, P r) : ∀ r ∈ (x >>= f).records, P r := by
  cases houtcome : x.outcome with
  | error failure =>
      rw [records_bind_error houtcome]
      exact hx
  | ok a =>
      rw [records_bind_ok houtcome]
      exact List.forall_mem_append.mpr ⟨hx, hf a⟩

theorem fromProgram_bind (hx : Log.FromProgram x.records)
    (hf : ∀ a, Log.FromProgram (f a).records) : Log.FromProgram (x >>= f).records :=
  forall_records_bind hx hf

theorem skips_bind_eq_nil (hx : Log.skips x.records = [])
    (hf : ∀ a, Log.skips (f a).records = []) : Log.skips (x >>= f).records = [] := by
  unfold Log.skips at hx hf ⊢
  simp only [List.filter_eq_nil_iff] at hx hf ⊢
  exact forall_records_bind hx hf

theorem fromProgram_pure (a : α) : Log.FromProgram (pure a : Traced α).records :=
  fun _ h => absurd h List.not_mem_nil

theorem fromProgram_lift (outcome : Except Failure α) :
    Log.FromProgram (lift outcome).records :=
  fun _ h => absurd h List.not_mem_nil

theorem fromProgram_note (level : Log.Level) {part : String} (text : String)
    (hpart : part ∈ Log.programParts) : Log.FromProgram (note level part text).records := by
  intro r hr
  rw [List.mem_singleton.mp hr]
  exact ⟨part, hpart, rfl⟩

end Traced

namespace Audit

open Traced

/-!
# Where the records come from
-/

theorem checkPart_mem (check : Check) : checkPart check ∈ Log.programParts := by
  cases check with
  | controllers => decide
  | usecaseSpecs => decide
  | rakes => decide
  | rakeSpecs => decide

theorem fromProgram_search (disk : Disk) (root : Location) (role : Role)
    (places : List SearchPlace) :
    Log.FromProgram (Discovery.search disk root role places).records := by
  induction places with
  | nil =>
      exact fromProgram_pure _
  | cons place rest ih =>
      refine fromProgram_bind (fromProgram_lift _) fun found => ?_
      cases found with
      | none => exact fromProgram_bind (fromProgram_note _ _ (by decide)) fun _ => ih
      | some paths => exact fromProgram_bind ih fun _ => fromProgram_pure _

theorem fromProgram_inRoot (disk : Disk) (root : Location) (role : Role) :
    Log.FromProgram (Discovery.inRoot disk root role).records := by
  refine fromProgram_bind (fromProgram_search disk root role _) fun _ => ?_
  exact fromProgram_bind (fromProgram_note _ _ (by decide)) fun _ => fromProgram_pure _

theorem fromProgram_candidates (p : Project) (check : Check) :
    Log.FromProgram (candidates p check).records := by
  refine fromProgram_bind (fromProgram_inRoot p.disk p.root check.role) fun files => ?_
  refine fromProgram_bind ?_ fun _ => fromProgram_pure _
  intro r hr
  rcases List.mem_map.mp hr with ⟨path, _, rfl⟩
  exact ⟨checkPart check, checkPart_mem check, rfl⟩

theorem fromProgram_auditFile {α : Type} (p : Project) (check : Check)
    (scan : String → Code → List α) (path : ProjectPath) :
    Log.FromProgram (auditFile p check scan path).records := by
  unfold auditFile
  split
  · exact fromProgram_pure _
  · exact fromProgram_bind (fromProgram_note _ _ (checkPart_mem check)) fun _ => fromProgram_pure _

theorem fromProgram_auditFiles {α : Type} (p : Project) (check : Check)
    (scan : String → Code → List α) (paths : List ProjectPath) :
    Log.FromProgram (auditFiles p check scan paths).records := by
  induction paths with
  | nil =>
      exact fromProgram_pure _
  | cons path rest ih =>
      refine fromProgram_bind (fromProgram_auditFile p check scan path) fun _ => ?_
      exact fromProgram_bind ih fun _ => fromProgram_pure _

theorem fromProgram_auditCode {α : Type} (p : Project) (check : Check)
    (scan : String → Code → List α) : Log.FromProgram (auditCode p check scan).records :=
  fromProgram_bind (fromProgram_candidates p check) fun paths =>
    fromProgram_auditFiles p check scan paths

theorem fromProgram_auditSpecs (p : Project) (check : Check) :
    Log.FromProgram (auditSpecs p check).records :=
  fromProgram_bind (fromProgram_candidates p check) fun _ => fromProgram_lift _

theorem fromProgram_whenChosen {α : Type} (checks : List Check) (check : Check) (size : α → Nat)
    {run : Traced α} (h : Log.FromProgram run.records) :
    Log.FromProgram (whenChosen checks check size run).records := by
  unfold whenChosen
  split
  · refine fromProgram_bind h fun _ => ?_
    exact fromProgram_bind (fromProgram_note _ _ (by decide)) fun _ => fromProgram_pure _
  · exact fromProgram_pure _

theorem fromProgram_runChecks (p : Project) (checks : List Check) :
    Log.FromProgram (runChecks p checks).records := by
  unfold runChecks
  refine fromProgram_bind (fromProgram_whenChosen _ _ _ (fromProgram_auditCode p _ _)) fun _ => ?_
  refine fromProgram_bind (fromProgram_whenChosen _ _ _ (fromProgram_auditSpecs p _)) fun _ => ?_
  refine fromProgram_bind (fromProgram_whenChosen _ _ _ (fromProgram_auditCode p _ _)) fun _ => ?_
  refine fromProgram_bind (fromProgram_whenChosen _ _ _ (fromProgram_auditSpecs p _)) fun _ => ?_
  exact fromProgram_pure _

theorem fromProgram_noteSource (loaded : LoadedSettings) :
    Log.FromProgram (noteSource loaded).records := by
  unfold noteSource
  split
  · exact fromProgram_pure _
  · exact fromProgram_note _ _ (by decide)

theorem fromProgram_run (disk : Disk) (request : Request) :
    Log.FromProgram (run disk request).records := by
  unfold run
  refine fromProgram_bind (fromProgram_lift _) fun _ => ?_
  refine fromProgram_bind (fromProgram_lift _) fun _ => ?_
  refine fromProgram_bind (fromProgram_noteSource _) fun _ => ?_
  refine fromProgram_bind (fromProgram_lift _) fun _ => ?_
  refine fromProgram_bind (fromProgram_note _ _ (by decide)) fun _ => ?_
  refine fromProgram_bind (fromProgram_runChecks _ _) fun _ => ?_
  refine fromProgram_bind (fromProgram_note _ _ (by decide)) fun _ => ?_
  exact fromProgram_pure _

/-!
# The records of warnings
-/

theorem path_of_readCode {p : Project} {path : ProjectPath} {failure : ReadFailure}
    (h : readCode p path = .error failure) : failure.path = path.text := by
  unfold readCode SourceFile.readAs at h
  split at h
  · cases h
    rfl
  · exact Source.path_of_read h

theorem skips_note {level : Log.Level} {part text : String}
    (h : Affix.starts text "Could not parse " = false) :
    Log.skips (note level part text).records = [] :=
  List.filter_cons_of_neg (Bool.not_eq_true _ ▸ h)

theorem skips_lift {α : Type} (outcome : Except Failure α) :
    Log.skips (lift outcome).records = [] :=
  rfl

theorem skips_pure {α : Type} (a : α) : Log.skips (pure a : Traced α).records = [] :=
  rfl

theorem skips_search (disk : Disk) (root : Location) (role : Role) (places : List SearchPlace) :
    Log.skips (Discovery.search disk root role places).records = [] := by
  induction places with
  | nil =>
      rfl
  | cons place rest ih =>
      refine skips_bind_eq_nil rfl fun found => ?_
      cases found with
      | none =>
          refine skips_bind_eq_nil (skips_note ?_) fun _ => ih
          simp only [String.append_assoc]
          exact Log.starts_append_eq_false _ (by decide)
      | some paths =>
          exact skips_bind_eq_nil ih fun _ => rfl

theorem skips_candidates (p : Project) (check : Check) :
    Log.skips (candidates p check).records = [] := by
  refine skips_bind_eq_nil (skips_bind_eq_nil (skips_search _ _ _ _) fun _ => ?_) fun paths => ?_
  · refine skips_bind_eq_nil (skips_note ?_) fun _ => rfl
    simp only [String.append_assoc]
    exact Log.starts_append_eq_false _ (by decide)
  · refine skips_bind_eq_nil ?_ fun _ => rfl
    apply List.filter_eq_nil_iff.mpr
    intro r hr
    rcases List.mem_map.mp hr with ⟨path, _, rfl⟩
    rw [Bool.not_eq_true]
    exact Log.starts_append_eq_false _ (by decide)

theorem announced_auditFile {α : Type} (p : Project) (check : Check)
    (scan : String → Code → List α) (path : ProjectPath) :
    List.Forall₂ Log.Record.Announces (Log.skips (auditFile p check scan path).records)
      (warning? p path).toList := by
  unfold auditFile warning?
  cases hread : readCode p path with
  | ok code =>
      exact List.Forall₂.nil
  | error failure =>
      have hskip : Log.Record.isSkip ⟨.warning, Log.sourceName (some (checkPart check)),
          "Could not parse " ++ path.text ++ ": " ++ failure.cause.detail⟩ = true := by
        unfold Log.Record.isSkip
        dsimp only
        rw [String.append_assoc, String.append_assoc]
        exact Affix.starts_append _ _
      have hskips : Log.skips [⟨.warning, Log.sourceName (some (checkPart check)),
          "Could not parse " ++ path.text ++ ": " ++ failure.cause.detail⟩] = [⟨.warning,
            Log.sourceName (some (checkPart check)),
            "Could not parse " ++ path.text ++ ": " ++ failure.cause.detail⟩] :=
        List.filter_cons_of_pos hskip
      show List.Forall₂ Log.Record.Announces (Log.skips [_]) _
      rw [hskips]
      refine List.Forall₂.cons ⟨rfl, failure.line, failure.cause.detail, rfl, ?_⟩ List.Forall₂.nil
      show failure.message = _
      unfold ReadFailure.message
      rw [path_of_readCode hread]

theorem announced_auditFiles {α : Type} (p : Project) (check : Check)
    (scan : String → Code → List α) (paths : List ProjectPath) :
    List.Forall₂ Log.Record.Announces (Log.skips (auditFiles p check scan paths).records)
      (paths.filterMap (warning? p)) := by
  induction paths with
  | nil =>
      exact List.Forall₂.nil
  | cons path rest ih =>
      have hrecords : (auditFiles p check scan (path :: rest)).records =
          (auditFile p check scan path).records ++ (auditFiles p check scan rest).records := by
        rw [auditFiles, records_bind_ok (outcome_auditFile p check scan path),
          records_bind_ok (outcome_auditFiles p check scan rest)]
        exact congrArg _ (List.append_nil _)
      have hwarnings : (path :: rest).filterMap (warning? p) =
          (warning? p path).toList ++ rest.filterMap (warning? p) := by
        rw [List.filterMap_cons]
        cases warning? p path with
        | none => rfl
        | some w => rfl
      rw [hrecords, hwarnings, Log.skips_append]
      exact List.rel_append (announced_auditFile p check scan path) ih

theorem announced_auditCode {α : Type} {p : Project} {check : Check}
    (scan : String → Code → List α) (h : unreached? p check = none) :
    List.Forall₂ Log.Record.Announces (Log.skips (auditCode p check scan).records)
      (warningsIn p check) := by
  have hfiles : (candidates p check).outcome = .ok (files p check) := by
    rw [outcome_candidates, h]
    rfl
  unfold auditCode
  rw [records_bind_ok hfiles, Log.skips_append, skips_candidates]
  exact announced_auditFiles p check scan (files p check)

theorem skips_auditSpecs (p : Project) (check : Check) :
    Log.skips (auditSpecs p check).records = [] :=
  skips_bind_eq_nil (skips_candidates p check) fun _ => rfl

theorem skips_whenChosen {α : Type} {checks : List Check} {check : Check} {size : α → Nat}
    {run : Traced α} {found : Option α}
    (h : (whenChosen checks check size run).outcome = .ok found) :
    Log.skips (whenChosen checks check size run).records =
      if checks.contains check then Log.skips run.records else [] := by
  unfold whenChosen at h ⊢
  split
  · rename_i hchosen
    rw [if_pos hchosen] at h
    rcases exists_of_outcome_bind h with ⟨a, _, _, hrecords⟩
    have hnote : Affix.starts (check.name ++ ": " ++ toString (size a) ++ " violations")
        "Could not parse " = false := by
      simp only [String.append_assoc]
      cases check with
      | controllers => exact Log.starts_append_eq_false _ (by decide)
      | usecaseSpecs => exact Log.starts_append_eq_false _ (by decide)
      | rakes => exact Log.starts_append_eq_false _ (by decide)
      | rakeSpecs => exact Log.starts_append_eq_false _ (by decide)
    rw [hrecords, Log.skips_append, records_bind_ok rfl, Log.skips_append, skips_note hnote,
      skips_pure, List.append_nil, List.append_nil]
  · rfl

theorem announced_whenChosen_auditCode {α : Type} {p : Project} {checks : List Check} {check : Check}
    {scan : String → Code → List α} {size : CodeFindings α → Nat}
    {found : Option (CodeFindings α)}
    (h : (whenChosen checks check size (auditCode p check scan)).outcome = .ok found) :
    List.Forall₂ Log.Record.Announces
      (Log.skips (whenChosen checks check size (auditCode p check scan)).records)
      (warningsOf found) := by
  rw [skips_whenChosen h]
  unfold whenChosen at h
  split at h
  · rename_i hchosen
    rcases exists_of_outcome_bind h with ⟨findings, hfindings, hrest, _⟩
    cases hrest
    rw [outcome_auditCode] at hfindings
    rcases unlessStopped_eq_ok_iff.mp hfindings with ⟨hreached, rfl⟩
    rw [if_pos hchosen]
    exact announced_auditCode scan hreached
  · rename_i hchosen
    cases h
    rw [if_neg hchosen]
    exact List.Forall₂.nil

theorem skips_whenChosen_auditSpecs {p : Project} {checks : List Check} {check : Check}
    {found : Option (List MissingSpec)}
    (h : (whenChosen checks check List.length (auditSpecs p check)).outcome = .ok found) :
    Log.skips (whenChosen checks check List.length (auditSpecs p check)).records = [] := by
  rw [skips_whenChosen h, skips_auditSpecs, ite_self]

theorem announced_runChecks {p : Project} {checks : List Check} {r : Results}
    (h : (runChecks p checks).outcome = .ok r) :
    List.Forall₂ Log.Record.Announces (Log.skips (runChecks p checks).records) r.warnings := by
  unfold runChecks at h ⊢
  rcases exists_of_outcome_bind h with ⟨controllers, hcontrollers, h, hfirst⟩
  rcases exists_of_outcome_bind h with ⟨usecaseSpecs, husecaseSpecs, h, hsecond⟩
  rcases exists_of_outcome_bind h with ⟨rakes, hrakes, h, hthird⟩
  rcases exists_of_outcome_bind h with ⟨rakeSpecs, hrakeSpecs, h, hfourth⟩
  rw [hfirst, hsecond, hthird, hfourth, Log.skips_append, Log.skips_append, Log.skips_append,
    Log.skips_append, skips_whenChosen_auditSpecs husecaseSpecs,
    skips_whenChosen_auditSpecs hrakeSpecs]
  cases h
  refine List.rel_append (announced_whenChosen_auditCode hcontrollers) ?_
  rw [List.nil_append, List.nil_append]
  have hrest := announced_whenChosen_auditCode hrakes
  rw [← List.append_nil (Log.skips _)] at hrest
  exact hrest

theorem skips_noteSource (loaded : LoadedSettings) : Log.skips (noteSource loaded).records = [] := by
  unfold noteSource
  split
  · rfl
  · exact skips_note (Log.starts_append_eq_false _ (by decide))

/-- The records of an audit that say that a file could not be parsed go with its warnings. -/
theorem announced_run {disk : Disk} {request : Request} {r : Results}
    (h : (run disk request).outcome = .ok r) :
    List.Forall₂ Log.Record.Announces (Log.skips (run disk request).records) r.warnings := by
  unfold run at h ⊢
  rcases exists_of_outcome_bind h with ⟨root, _, h, hroot⟩
  rcases exists_of_outcome_bind h with ⟨loaded, _, h, hloaded⟩
  rcases exists_of_outcome_bind h with ⟨_, _, h, hsource⟩
  rcases exists_of_outcome_bind h with ⟨checks, _, h, hchecks⟩
  rcases exists_of_outcome_bind h with ⟨_, _, h, hstart⟩
  rcases exists_of_outcome_bind h with ⟨results, hresults, h, hrun⟩
  rcases exists_of_outcome_bind h with ⟨_, _, h, hend⟩
  cases h
  rw [hroot, hloaded, hsource, hchecks, hstart, hrun, hend]
  have hchecking : Affix.starts ("Checking " ++ (Path.ofLocation root).text ++ " ("
      ++ ", ".intercalate (checks.map Check.name) ++ ")") "Could not parse " = false := by
    simp only [String.append_assoc]
    exact Log.starts_append_eq_false _ (by decide)
  have hfound : Affix.starts ("Found " ++ toString r.total ++ " violations ("
      ++ toString r.warnings.length ++ " files skipped)") "Could not parse " = false := by
    simp only [String.append_assoc]
    exact Log.starts_append_eq_false _ (by decide)
  simp only [Log.skips_append, skips_lift, skips_noteSource, skips_note hchecking,
    skips_note hfound, skips_pure, List.nil_append, List.append_nil]
  exact announced_runChecks hresults

end Audit
end UsecaseAudit
