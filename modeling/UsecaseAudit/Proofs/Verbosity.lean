import UsecaseAudit.Proofs.CheckCommand
import UsecaseAudit.Proofs.LogRecords

/-!
# Verbosity

An option for verbosity right behind the command changes nothing but how much of the
log is shown.  Reading a command line, it acts before the other options and none of
them looks at it.  Running the command, only the log looks at it, and a louder log
shows what a quieter one shows, among more.
-/

namespace UsecaseAudit
namespace CommandLine

inductive Verbosity where
  | verbose
  | plain
  | quiet
  deriving DecidableEq, Repr

namespace Verbosity

def flags : Verbosity → List String
  | .verbose => ["-v"]
  | .plain => []
  | .quiet => ["-q"]

def switches : Verbosity → List Switch
  | .verbose => [.verbose]
  | .plain => []
  | .quiet => [.quiet]

def level : Verbosity → Log.Level
  | .verbose => .debug
  | .plain => .info
  | .quiet => .warning

def adjust (v : Verbosity) (o : Options) : Options :=
  { o with verbose := v == .verbose, quiet := v == .quiet }

def before (v : Verbosity) (p : Progress) : Progress :=
  { p with options := v.adjust p.options, seen := p.seen ++ v.switches }

end Verbosity

/-!
# Reading the options
-/

def Options.IsPlain (o : Options) : Prop :=
  o.verbose = false ∧ o.quiet = false

section

variable {scope : Scope} {p q : Progress} {s : Switch} {value : Option String}

theorem act_eq_ok (h : act scope p s value = .ok q) :
    q = { p with options := assign p.options s value, seen := s :: p.seen } := by
  unfold act at h
  split at h
  · cases h
  · split at h
    · split at h
      · cases h
      · cases h
        rfl
    · split at h
      · cases h
      · cases h
      · cases h
        rfl

theorem isPlain_of_assign {o : Options} (h : (assign o s value).IsPlain) :
    o.IsPlain ∧ s ≠ .verbose ∧ s ≠ .quiet := by
  cases s with
  | verbose => cases h.left
  | quiet => cases h.right
  | _ => exact ⟨h, nofun, nofun⟩

theorem isPlain_of_act (h : act scope p s value = .ok q) (hq : q.options.IsPlain) :
    p.options.IsPlain ∧ s ≠ .verbose ∧ s ≠ .quiet := by
  rw [act_eq_ok h] at hq
  exact isPlain_of_assign hq

theorem isPlain_of_actAll {given : List (Switch × Option String)}
    (h : actAll scope p given = .ok q) (hq : q.options.IsPlain) : p.options.IsPlain := by
  induction given generalizing p with
  | nil =>
      cases h
      exact hq
  | cons first rest ih =>
      rcases exists_of_bind_eq_ok h with ⟨next, hnext, hrest⟩
      exact (isPlain_of_act hnext (ih hrest)).left

theorem act_before (v : Verbosity) (h : act scope p s value = .ok q) (hq : q.options.IsPlain) :
    act scope (v.before p) s value = .ok (v.before q) := by
  rcases isPlain_of_act h hq with ⟨_, hverbose, hquiet⟩
  unfold act at h ⊢
  cases hbad : badChoice? s value with
  | some name =>
      rw [hbad] at h
      cases h
  | none =>
      rw [hbad] at h
      cases s with
      | verbose => exact absurd rfl hverbose
      | quiet => exact absurd rfl hquiet
      | help => cases h
      | version => cases h
      | _ =>
          cases h
          rfl

theorem actAll_before (v : Verbosity) {given : List (Switch × Option String)}
    (h : actAll scope p given = .ok q) (hq : q.options.IsPlain) :
    actAll scope (v.before p) given = .ok (v.before q) := by
  induction given generalizing p with
  | nil =>
      cases h
      rfl
  | cons first rest ih =>
      rcases exists_of_bind_eq_ok h with ⟨next, hnext, hrest⟩
      have hplain := isPlain_of_actAll hrest hq
      rw [actAll, act_before v hnext hplain]
      exact ih hrest

/-- The steps of reading go on in the same way when the verbosity was read before. -/
theorem consume_before (v : Verbosity) {ts : List Token} (h : consume scope p ts = .ok q)
    (hq : q.options.IsPlain) :
    p.options.IsPlain ∧ consume scope (v.before p) ts = .ok (v.before q) := by
  fun_induction consume scope p ts with
  | case1 p =>
      cases h
      exact ⟨hq, rfl⟩
  | case2 p text rest ih =>
      rw [consume]
      exact ih h
  | case3 p rest ih =>
      rw [consume]
      exact ih h
  | case4 p text rest ih =>
      rw [consume]
      exact ih h
  | case5 p found rest e hdemand =>
      cases h
  | case6 p found rest d hdemand hawaiting ih =>
      rcases exists_of_bind_eq_ok h with ⟨next, hnext, hrest⟩
      rcases ih next hrest with ⟨hplain, hread⟩
      refine ⟨isPlain_of_actAll hnext hplain, ?_⟩
      rw [consume, hdemand]
      dsimp only
      rw [hawaiting]
      dsimp only
      rw [actAll_before v hnext hplain]
      exact hread
  | case7 p found d hdemand s hawaiting value others ih =>
      rcases exists_of_bind_eq_ok h with ⟨next, hnext, hrest⟩
      rcases ih next hrest with ⟨hplain, hread⟩
      refine ⟨isPlain_of_actAll hnext hplain, ?_⟩
      rw [consume, hdemand]
      dsimp only
      rw [hawaiting]
      dsimp only
      rw [actAll_before v hnext hplain]
      exact hread
  | case8 p found rest d hdemand s hawaiting hnone =>
      cases h

end

theorem adjust_plain {o : Options} (h : o.IsPlain) : Verbosity.plain.adjust o = o := by
  rcases o with ⟨root, settings, format, output, switches, force, verbose, quiet⟩
  rcases h with ⟨hverbose, hquiet⟩
  dsimp only at hverbose hquiet
  subst hverbose hquiet
  rfl

theorem before_plain {p : Progress} (h : p.options.IsPlain) : Verbosity.plain.before p = p := by
  unfold Verbosity.before
  rw [adjust_plain h]
  dsimp only [Verbosity.switches]
  rw [List.append_nil]

/-!
# Reading the command line
-/

theorem tokens_cons_eq_ok {scope : Scope} {argument : String} {rest : List String} {first : Token}
    {others : List Token} (hne : argument ≠ "--") (hfirst : classify scope argument = .ok first)
    (hothers : tokens scope rest = .ok others) :
    tokens scope (argument :: rest) = .ok (first :: others) := by
  rw [tokens, if_neg hne, hfirst, hothers]
  rfl

theorem exists_tokens_of_cons {scope : Scope} {argument : String} {rest : List String}
    {ts : List Token} (hne : argument ≠ "--") (h : tokens scope (argument :: rest) = .ok ts) :
    ∃ others, tokens scope rest = .ok others := by
  rw [tokens, if_neg hne] at h
  rcases exists_of_bind_eq_ok h with ⟨first, _, hrest⟩
  rcases exists_of_bind_eq_ok hrest with ⟨others, hothers, _⟩
  exact ⟨others, hothers⟩

theorem reads_flag (command : Command) {v : Verbosity} {flag : String} (h : v.flags = [flag]) :
    flag ≠ "--" ∧ classify .program flag = .ok (.unknown flag) ∧
      ∃ found, classify command.scope flag = .ok (.option found) ∧
        ∀ ts, consume command.scope {} (.option found :: ts) =
          consume command.scope (v.before {}) ts := by
  cases v with
  | plain =>
      cases h
  | verbose =>
      cases h
      refine ⟨by decide, by decide +kernel, ⟨.verbose, "-v", none⟩, ?_, fun ts => rfl⟩
      cases command with
      | check => decide +kernel
      | init => decide +kernel
  | quiet =>
      cases h
      refine ⟨by decide, by decide +kernel, ⟨.quiet, "-q", none⟩, ?_, fun ts => rfl⟩
      cases command with
      | check => decide +kernel
      | init => decide +kernel

theorem flags_eq (v : Verbosity) : v = .plain ∨ ∃ flag, v.flags = [flag] := by
  cases v with
  | verbose => exact Or.inr ⟨"-v", rfl⟩
  | plain => exact Or.inl rfl
  | quiet => exact Or.inr ⟨"-q", rfl⟩

theorem parseCommand_flags {command : Command} {rest : List String} {q : Progress}
    (h : parseCommand command rest = .ok q) (hq : q.options.IsPlain) (v : Verbosity) :
    parseCommand command (v.flags ++ rest) = .ok (v.before q) := by
  rcases flags_eq v with rfl | ⟨flag, hflag⟩
  · rw [before_plain hq]
    exact h
  · rcases reads_flag command hflag with ⟨hne, _, found, hfound, hconsume⟩
    rcases exists_of_bind_eq_ok h with ⟨ts, hts, hread⟩
    unfold parseCommand
    rw [hflag, List.singleton_append,
      tokens_cons_eq_ok hne hfound (eq_ok_of_mapError_eq_ok hts)]
    exact (hconsume ts).trans (consume_before v hread hq).right

theorem exists_tokens_flags {rest : List String} {others : List Token}
    (h : tokens .program rest = .ok others) (v : Verbosity) :
    ∃ ts, tokens .program (v.flags ++ rest) = .ok ts := by
  rcases flags_eq v with rfl | ⟨flag, hflag⟩
  · exact ⟨others, h⟩
  · rcases reads_flag .check hflag with ⟨hne, hunknown, _⟩
    rw [hflag]
    exact ⟨_, tokens_cons_eq_ok hne hunknown h⟩

theorem withDefaultCommand_name (command : Command) (rest : List String) :
    withDefaultCommand (command.name :: rest) = command.name :: rest := by
  cases command with
  | check => rfl
  | init => rfl

theorem parseFrom_name (command : Command) (rest : List String) :
    parseFrom (command.name :: rest) =
      (parseCommand command rest).bind fun p =>
        if p.leftover.isEmpty then .ok { command := command, options := p.options }
        else .error (.usage .program (.leftover p.leftover)) := by
  cases command with
  | check => rfl
  | init => rfl

theorem name_of_ofName? {text : String} {command : Command}
    (h : Command.ofName? text = some command) : text = command.name := by
  have hname := List.find?_some h
  exact (beq_iff_eq.mp hname).symm

theorem exists_withDefaultCommand {arguments : List String} {command : Command} {o : Options}
    (h : parse arguments = .ok ⟨command, o⟩) :
    ∃ rest, withDefaultCommand arguments = command.name :: rest := by
  unfold parse at h
  rcases exists_of_bind_eq_ok h with ⟨_, _, hfrom⟩
  cases hwhole : withDefaultCommand arguments with
  | nil =>
      rw [hwhole] at hfrom
      cases hfrom
  | cons first rest =>
      rw [hwhole, parseFrom] at hfrom
      split at hfrom
      · cases hfrom
      · cases hfrom
      · split at hfrom
        · cases hfrom
        · rename_i found hfound
          rcases exists_of_bind_eq_ok hfrom with ⟨p, _, hoptions⟩
          split at hoptions
          · cases hoptions
            exact ⟨rest, congrArg (· :: rest) (name_of_ofName? hfound)⟩
          · cases hoptions

/-- With an option for verbosity right behind the command, the same options are read, and it. -/
theorem parse_flags {arguments rest : List String} {command : Command} {o : Options}
    (hwhole : withDefaultCommand arguments = command.name :: rest)
    (hparse : parse arguments = .ok ⟨command, o⟩) (ho : o.IsPlain) (v : Verbosity) :
    parse (command.name :: (v.flags ++ rest)) = .ok ⟨command, v.adjust o⟩ := by
  have hname : command.name ≠ "--" ∧
      classify .program command.name = .ok (.plain command.name) := by
    cases command with
    | check => decide +kernel
    | init => decide +kernel
  unfold parse at hparse ⊢
  dsimp only at hparse ⊢
  rw [hwhole] at hparse
  rcases exists_of_bind_eq_ok hparse with ⟨ts, hts, hfrom⟩
  rcases exists_tokens_of_cons hname.left (eq_ok_of_mapError_eq_ok hts) with ⟨others, hothers⟩
  rcases exists_tokens_flags hothers v with ⟨all, hall⟩
  rw [parseFrom_name] at hfrom
  rcases exists_of_bind_eq_ok hfrom with ⟨p, hp, hoptions⟩
  split at hoptions
  · rename_i hleftover
    cases hoptions
    rw [withDefaultCommand_name, tokens_cons_eq_ok hname.left hname.right hall, parseFrom_name,
      parseCommand_flags hp ho v]
    exact if_pos hleftover
  · cases hoptions

/-!
# Running the command
-/

/-- How a run ends, but for its log: the disk, the standard output, what stands behind the log on
the standard error, and the status or why the run is broken off. -/
structure Ending where
  disk : Disk
  stdout : String := ""
  closing : String := ""
  conclusion : Except Breakdown Nat

def Ending.withLog (e : Ending) (log : String) : Except Broken Outcome :=
  match e.conclusion with
  | .ok status =>
      .ok { disk := e.disk, stdout := e.stdout, stderr := log ++ e.closing, status := status }
  | .error cause =>
      .error { disk := e.disk, cause := cause, stdout := e.stdout, stderr := log ++ e.closing }

def reportRecords (disk : Disk) (o : Options) (r : Results) : List Log.Record :=
  let output := o.output.getD ""
  if output = "" then []
  else
    match disk.opened output, reportBreakdown? (report? disk o r) with
    | .ok _, none => [⟨.info, Log.sourceName (some part), "Report written to " ++ output⟩]
    | _, _ => []

def recordsOf (disk : Disk) (command : Command) (o : Options) : List Log.Record :=
  match command, o.root with
  | .check, some root =>
      let traced := Audit.check disk root o.settings o.switches
      traced.records ++ traced.outcome.toOption.elim [] (reportRecords disk o)
  | _, _ => []

theorem logText_adjust (v : Verbosity) (o : Options) (records : List Log.Record) :
    logText (v.adjust o) records = Log.consoleText v.level records := by
  cases v with
  | verbose => rfl
  | plain => rfl
  | quiet => rfl

section

variable {disk : Disk} {o : Options}

theorem exists_ending_reportToFile (records : List Log.Record) (r : Results)
    (hne : o.output.getD "" ≠ "") :
    ∃ ending : Ending, ∀ v : Verbosity,
      reportToFile disk (v.adjust o) records r (o.output.getD "") =
        ending.withLog (Log.consoleText v.level (records ++ reportRecords disk o r)) := by
  have hreport : ∀ v : Verbosity, report? disk (v.adjust o) r = report? disk o r := fun _ => rfl
  unfold reportToFile reportRecords
  dsimp only
  simp only [hreport, Disk.write_eq, logText_adjust, if_neg hne]
  cases disk.opened (o.output.getD "") with
  | error e =>
      rw [List.append_nil]
      by_cases hfault : e.fault = .nullCharacter
      · refine ⟨{ disk := disk, conclusion := .error (.audit (.system e)) }, fun v => ?_⟩
        dsimp only [Except.map, Ending.withLog]
        rw [if_pos hfault, String.append_empty]
      · refine ⟨{ disk := disk
                  closing := "usecompass: could not write report: " ++ e.message ++ "\n"
                  conclusion := .ok 1 }, fun v => ?_⟩
        dsimp only [Except.map, Ending.withLog]
        rw [if_neg hfault, String.append_assoc, String.append_assoc, String.append_assoc]
  | ok target =>
      let written := disk.install target (.file (File.ofText (reportText (report? disk o r))))
      cases reportBreakdown? (report? disk o r) with
      | some cause =>
          refine ⟨{ disk := written, conclusion := .error cause }, fun v => ?_⟩
          dsimp only [Except.map, Ending.withLog]
          rw [List.append_nil, String.append_empty]
      | none =>
          refine ⟨{ disk := written, conclusion := .ok (statusOf r) }, fun v => ?_⟩
          dsimp only [Except.map, Ending.withLog]
          rw [String.append_empty]

theorem exists_ending_report (records : List Log.Record) (r : Results) :
    ∃ ending : Ending, ∀ v : Verbosity, report disk (v.adjust o) records r =
      ending.withLog (Log.consoleText v.level (records ++ reportRecords disk o r)) := by
  by_cases hempty : o.output.getD "" = ""
  · have hnone : reportRecords disk o r = [] := if_pos hempty
    have houtput : ∀ v : Verbosity, (v.adjust o).output = o.output := fun _ => rfl
    have hreport : ∀ v : Verbosity, report? disk (v.adjust o) r = report? disk o r := fun _ => rfl
    refine ⟨{ disk := disk
              stdout := reportText (report? disk o r)
              conclusion := (reportBreakdown? (report? disk o r)).elim (.ok (statusOf r)) .error },
      fun v => ?_⟩
    unfold report
    rw [houtput, hempty, hnone, List.append_nil]
    dsimp only [Ending.withLog]
    rw [hreport, logText_adjust, String.append_empty]
    cases reportBreakdown? (report? disk o r) with
    | some cause => rfl
    | none => rfl
  · have hfile : ∀ v : Verbosity, report disk (v.adjust o) records r =
        reportToFile disk (v.adjust o) records r (o.output.getD "") := fun _ =>
      report_of_output hempty
    simp only [hfile]
    exact exists_ending_reportToFile records r hempty

theorem exists_ending_runCheck :
    ∃ ending : Ending, ∀ v : Verbosity, runCheck disk (v.adjust o) =
      ending.withLog (Log.consoleText v.level (recordsOf disk .check o)) := by
  have hoption : ∀ v : Verbosity, (v.adjust o).root = o.root := fun _ => rfl
  unfold recordsOf runCheck
  simp only [hoption]
  cases o.root with
  | none =>
      exact ⟨{ disk := disk, conclusion := .error .noRoot }, fun v => rfl⟩
  | some root =>
      have hcheck : ∀ v : Verbosity,
          Audit.check disk root (v.adjust o).settings (v.adjust o).switches =
            Audit.check disk root o.settings o.switches := fun _ => rfl
      dsimp only
      unfold runCheckAt
      simp only [hcheck, logText_adjust]
      cases (Audit.check disk root o.settings o.switches).outcome with
      | ok r =>
          exact exists_ending_report _ r
      | error failure =>
          simp only [Except.toOption, Option.elim_none, List.append_nil]
          cases complaint? failure with
          | none =>
              refine ⟨{ disk := disk, conclusion := .error (.audit failure) }, fun v => ?_⟩
              dsimp only [Ending.withLog]
              rw [String.append_empty]
          | some text =>
              refine ⟨{ disk := disk, closing := text ++ "\n", conclusion := .ok 1 }, fun v => ?_⟩
              dsimp only [Ending.withLog]
              rw [String.append_assoc]

theorem exists_ending (ending : Except Broken Outcome) : ∃ e : Ending, ending = e.withLog "" := by
  cases ending with
  | ok outcome =>
      refine ⟨⟨outcome.disk, outcome.stdout, outcome.stderr, .ok outcome.status⟩, ?_⟩
      dsimp only [Ending.withLog]
      rw [String.empty_append]
  | error broken =>
      refine ⟨⟨broken.disk, broken.stdout, broken.stderr, .error broken.cause⟩, ?_⟩
      dsimp only [Ending.withLog]
      rw [String.empty_append]

theorem exists_ending_run {arguments rest : List String} {command : Command}
    (hwhole : withDefaultCommand arguments = command.name :: rest)
    (hparse : parse arguments = .ok ⟨command, o⟩) (ho : o.IsPlain) (input : String) :
    ∃ ending : Ending, ∀ v : Verbosity, run disk (command.name :: (v.flags ++ rest)) input =
      ending.withLog (Log.consoleText v.level (recordsOf disk command o)) := by
  have hparsed := parse_flags hwhole hparse ho
  unfold run
  simp only [hparsed]
  cases command with
  | check =>
      exact exists_ending_runCheck
  | init =>
      rcases exists_ending (runInit disk o input) with ⟨ending, hending⟩
      exact ⟨ending, fun _ => hending⟩

end

/-!
# The records that are shown
-/

def Verbosity.shown (v : Verbosity) (records : List Log.Record) : List Log.Record :=
  records.filter fun r => v.level.admits r.level

theorem filter_shown {v w : Verbosity} (h : ∀ level, w.level.admits level → v.level.admits level)
    (records : List Log.Record) :
    (v.shown records).filter (fun r => w.level.admits r.level) = w.shown records := by
  unfold Verbosity.shown
  rw [List.filter_filter]
  apply List.filter_congr
  intro r _
  cases hlevel : w.level.admits r.level with
  | false => rfl
  | true => exact h r.level hlevel

theorem fromProgram_reportRecords (disk : Disk) (o : Options) (r : Results) :
    Log.FromProgram (reportRecords disk o r) := by
  unfold reportRecords
  dsimp only
  split
  · exact fun _ h => absurd h List.not_mem_nil
  · split
    · intro record hrecord
      rw [List.mem_singleton.mp hrecord]
      exact ⟨part, by decide, rfl⟩
    · exact fun _ h => absurd h List.not_mem_nil

theorem fromProgram_recordsOf (disk : Disk) (command : Command) (o : Options) :
    Log.FromProgram (recordsOf disk command o) := by
  unfold recordsOf
  split
  · rename_i root _
    intro record hrecord
    rcases List.mem_append.mp hrecord with haudit | hfile
    · exact Audit.fromProgram_run _ _ record haudit
    · cases hoption : (Audit.check disk root o.settings o.switches).outcome.toOption with
      | none =>
          rw [hoption] at hfile
          cases hfile
      | some r =>
          rw [hoption] at hfile
          exact fromProgram_reportRecords disk o r record hfile
  · exact fun _ h => absurd h List.not_mem_nil

theorem skips_reportRecords (disk : Disk) (o : Options) (r : Results) :
    Log.skips (reportRecords disk o r) = [] := by
  unfold reportRecords
  dsimp only
  split
  · rfl
  · split
    · apply List.filter_cons_of_neg
      rw [Bool.not_eq_true]
      exact Log.starts_append_eq_false _ (by decide)
    · rfl

theorem skips_shown {records : List Log.Record}
    (h : ∀ r ∈ Log.skips records, r.level = .warning) (v : Verbosity) :
    Log.skips (v.shown records) = Log.skips records := by
  have hadmits : ∀ r ∈ Log.skips records, v.level.admits r.level = true := by
    intro r hr
    rw [h r hr]
    cases v with
    | verbose => rfl
    | plain => rfl
    | quiet => rfl
  calc
    Log.skips (v.shown records) = (Log.skips records).filter fun r => v.level.admits r.level :=
      List.filter_comm _ _ _
    _ = Log.skips records := List.filter_eq_self.mpr hadmits

theorem level_of_announced {records : List Log.Record} {warnings : List Warning}
    (h : List.Forall₂ Log.Record.Announces records warnings) :
    ∀ r ∈ records, r.level = .warning := by
  induction h with
  | nil =>
      exact fun _ hr => absurd hr List.not_mem_nil
  | cons hfirst _ ih =>
      intro r hr
      rcases List.mem_cons.mp hr with rfl | hrest
      · exact hfirst.left
      · exact ih r hrest

theorem announced_shown {disk : Disk} {o : Options} {root : String} {r : Results}
    (hroot : o.root = some root)
    (h : (Audit.check disk root o.settings o.switches).outcome = .ok r) (v : Verbosity) :
    List.Forall₂ Log.Record.Announces (Log.skips (v.shown (recordsOf disk .check o)))
      r.warnings := by
  have hskips : Log.skips (recordsOf disk .check o) =
      Log.skips (Audit.check disk root o.settings o.switches).records := by
    unfold recordsOf
    rw [hroot]
    dsimp only
    rw [h, Except.toOption, Option.elim_some, Log.skips_append, skips_reportRecords,
      List.append_nil]
  have hannounced := Audit.announced_run h
  rw [skips_shown (hskips ▸ level_of_announced hannounced) v, hskips]
  exact hannounced

/-- Verbosity only filters the log.  With an option for it right behind the command, the run ends
in the same way, and shows those records of the same list that are admitted.  Of the files that
could not be parsed a record is shown at every verbosity. -/
theorem run_verbosity {disk : Disk} {arguments : List String} {command : Command} {o : Options}
    (input : String) (hparse : parse arguments = .ok ⟨command, o⟩) (hverbose : o.verbose = false)
    (hquiet : o.quiet = false) :
    let records := recordsOf disk command o
    (∃ rest, withDefaultCommand arguments = command.name :: rest ∧
      run disk arguments input = run disk (command.name :: rest) input ∧
      ∃ ending : Ending, ∀ v : Verbosity, run disk (command.name :: (v.flags ++ rest)) input =
        ending.withLog (String.join ((v.shown records).map Log.Record.consoleLine))) ∧
    (∀ (v : Verbosity) (state : Log.State),
      Log.written state
          (.configure (v == .verbose) (v == .quiet) false :: records.map .record) =
        String.join ((v.shown records).map Log.Record.consoleLine)) ∧
    Verbosity.quiet.shown records =
      (Verbosity.plain.shown records).filter (fun r => Log.Level.warning.admits r.level) ∧
    Verbosity.plain.shown records =
      (Verbosity.verbose.shown records).filter (fun r => Log.Level.info.admits r.level) ∧
    ∀ root r, command = .check → o.root = some root →
      (Audit.check disk root o.settings o.switches).outcome = .ok r →
      ∀ v : Verbosity,
        List.Forall₂ Log.Record.Announces (Log.skips (v.shown records)) r.warnings := by
  intro records
  have hplain : o.IsPlain := ⟨hverbose, hquiet⟩
  rcases exists_withDefaultCommand hparse with ⟨rest, hwhole⟩
  have hsame : run disk arguments input = run disk (command.name :: rest) input := by
    have hread := parse_flags hwhole hparse hplain .plain
    rw [adjust_plain hplain] at hread
    unfold run
    rw [hparse, ← hread]
    rfl
  refine ⟨⟨rest, hwhole, hsame, exists_ending_run hwhole hparse hplain input⟩, ?_, ?_, ?_, ?_⟩
  · intro v state
    rw [Log.written_configure state _ _ (fromProgram_recordsOf disk command o)]
    exact logText_adjust v o records
  · exact (filter_shown (fun level => by cases level <;> decide) records).symm
  · exact (filter_shown (fun level => by cases level <;> decide) records).symm
  · intro root r hcheck hroot houtcome v
    subst hcheck
    exact announced_shown hroot houtcome v

/-- Three runs that end in the same way and show one, four and eight records, one of them of the
file that could not be parsed. -/
theorem run_verbosity_unreadableRake :
    ∃ (records : List Log.Record) (ending : Ending),
      (∀ v : Verbosity,
        run unreadableRakeDisk ("check" :: (v.flags ++ ["-r", "/", "-R", "-o", "/report"])) "" =
          ending.withLog (String.join ((v.shown records).map Log.Record.consoleLine)) ∧
        (Log.skips (v.shown records)).length = 1) ∧
      (Verbosity.quiet.shown records).length = 1 ∧
      (Verbosity.plain.shown records).length = 4 ∧
      (Verbosity.verbose.shown records).length = 8 := by
  let o : Options :=
    { root := some "/", output := some "/report", switches := { rakesOnly := true } }
  have hparse : parse ["-r", "/", "-R", "-o", "/report"] = .ok ⟨.check, o⟩ := by
    decide +kernel
  have hcheck : (Audit.check unreadableRakeDisk "/" none { rakesOnly := true }).outcome =
      .ok { rakes := some []
            rakeSpecs := some [⟨"lib/tasks/a.rake", "spec/lib/tasks/a_spec.rb"⟩]
            warnings := [⟨"lib/tasks/a.rake",
              "lib/tasks/a.rake: invalid UTF-8: invalid start byte"⟩] } := by
    decide +kernel
  rcases @run_verbosity unreadableRakeDisk _ _ _ "" hparse rfl rfl with
    ⟨⟨rest, hwhole, _, ending, hending⟩, _, _, _, hskips⟩
  have hrest : rest = ["-r", "/", "-R", "-o", "/report"] := (List.cons.inj hwhole).right.symm
  subst hrest
  refine ⟨recordsOf unreadableRakeDisk .check o, ending, fun v => ⟨hending v, ?_⟩, ?_, ?_, ?_⟩
  · exact (hskips "/" _ rfl rfl hcheck v).length_eq
  · decide +kernel
  · decide +kernel
  · decide +kernel

end CommandLine
end UsecaseAudit
