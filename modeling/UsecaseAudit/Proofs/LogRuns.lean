import Mathlib.Data.List.Infix
import Mathlib.Data.List.Lemmas
import UsecaseAudit.Log

/-!
# Logs over time

A log is configured again and again, and takes records in between.  After every call
it has one sink for the console and, if the last configuration opened a file, one for
that file, with the level of the last configuration, and passes nothing on to the
sinks around the program.  So a record is written once to each of its sinks, or not
at all if its level is too low.

That holds for the records of all parts whose name does not begin with a point.  A
name that begins with a point may stand outside of the program, and then its records
miss the sinks.
-/

namespace UsecaseAudit
namespace Log

/-!
# Parts that belong to the program
-/

/-- The whole program, or a part whose name does not begin with a point. -/
def IsPlain (part : Option String) : Prop :=
  ∀ name ∈ part, name.toList.head? ≠ some '.'

instance (part : Option String) : Decidable (IsPlain part) :=
  inferInstanceAs (Decidable (∀ name ∈ part, name.toList.head? ≠ some '.'))

/-- Behind a name that does not begin with a point the search comes upon the whole program: it passes
over the last point only if another one follows. -/
theorem rises_plain (known : List String) : ∀ {cs : List Char}, cs.getLast? ≠ some '.' →
    rises known (cs ++ '.' :: wholeName.toList.reverse) = true
  | [], _ => rfl
  | [c], h => by
      have hc : c ≠ '.' := fun hc => h (congrArg some hc)
      rw [List.singleton_append, rises, if_neg hc]
      rfl
  | c :: d :: cs, h => by
      have hlast : (d :: cs).getLast? ≠ some '.' := by
        rwa [List.getLast?_cons_cons] at h
      have hnext := rises_plain known hlast
      rw [List.cons_append, List.cons_append, rises]
      dsimp only
      split
      · split
        · rfl
        · split
          · exact hnext
          · cases cs with
            | nil => rfl
            | cons e cs =>
                rw [List.getLast?_cons_cons] at hlast
                exact rises_plain known hlast
      · exact hnext

theorem belongs_plain (known : List String) {part : Option String} (h : IsPlain part) :
    belongs known (sourceName part) = true := by
  unfold sourceName
  split
  · rw [belongs, beq_self_eq_true, Bool.true_or]
  · rw [belongs, beq_self_eq_true, Bool.true_or]
  · next name _ =>
    have hchars : (wholeName ++ "." ++ name).toList.reverse =
        name.toList.reverse ++ '.' :: wholeName.toList.reverse := by
      rw [String.toList_append, String.toList_append, List.reverse_append, List.reverse_append]
      rfl
    have hlast : name.toList.reverse.getLast? ≠ some '.' := by
      rw [List.getLast?_reverse]
      exact h name rfl
    rw [belongs, hchars, rises_plain known hlast, Bool.or_true]

/-!
# What taking a record changes
-/

namespace State

/-- A state that differs in the lines of files only, which have become more. -/
def Extends (s t : State) : Prop :=
  ∃ lines, t = { s with lines := lines } ∧ ∀ place, s.lines place <+: lines place

theorem Extends.refl (s : State) : s.Extends s :=
  ⟨s.lines, rfl, fun _ => List.prefix_refl _⟩

theorem Extends.trans {s t u : State} (h : s.Extends t) (h' : t.Extends u) : s.Extends u := by
  rcases h with ⟨lines, rfl, hlines⟩
  rcases h' with ⟨lines', rfl, hlines'⟩
  exact ⟨lines', rfl, fun place => (hlines place).trans (hlines' place)⟩

theorem extends_write (s : State) (r : Record) (sink : Sink) : s.Extends (s.write r sink).1 := by
  unfold write
  split
  · split
    · exact Extends.refl s
    · refine ⟨_, rfl, ?_⟩
      intro other
      split
      · next hplace => exact hplace ▸ List.prefix_append _ _
      · exact List.prefix_refl _
  · exact Extends.refl s

theorem extends_writeAll (s : State) (r : Record) (sinks : List Sink) :
    s.Extends (s.writeAll r sinks).1 := by
  induction sinks generalizing s with
  | nil => exact Extends.refl s
  | cons sink rest ih => exact (extends_write s r sink).trans (ih _)

theorem extends_emit (s : State) (r : Record) : s.Extends (s.emit r).1 := by
  unfold emit
  split
  · exact extends_write s r lastSink
  · exact extends_writeAll s r _

theorem extends_record (s : State) (r : Record) : (s.ask r).Extends (s.record r).1 := by
  unfold record
  dsimp only
  split
  · exact extends_emit (s.ask r) r
  · exact Extends.refl _

end State

/-!
# Configurations
-/

structure Configuration where
  verbose : Bool
  quiet : Bool
  file : Option String
  opens : Bool
  deriving DecidableEq, Repr

namespace Configuration

def call (c : Configuration) : Call :=
  .configure c.verbose c.quiet c.file c.opens

def level (c : Configuration) : Level :=
  Level.ofVerbosity c.verbose c.quiet

def opened (c : Configuration) : Option String :=
  if c.opens then c.file else none

def after (c : Configuration) : Call → Configuration
  | .configure verbose quiet file opens => ⟨verbose, quiet, file, opens⟩
  | .log _ _ _ => c

def latest (c : Configuration) (calls : List Call) : Configuration :=
  calls.foldl after c

end Configuration

namespace State

/-- The sinks of the last configuration, and no answer about a plain part that differs from what
its level says. -/
structure IsConfigured (s : State) (c : Configuration) : Prop where
  level_eq : s.level = c.level
  propagates_eq : s.propagates = false
  sinks_eq : ∃ first second, s.sinks = ⟨first, .console, c.level, .console⟩ ::
    (c.opened.map fun place => ⟨second, .file place, c.level, .file⟩).toList
  answers_eq : ∀ part level answer, IsPlain part →
    ((sourceName part, level), answer) ∈ s.answers → answer = c.level.admits level

theorem foldl_remove (s : State) {sinks : List Sink} (h : s.sinks = sinks) :
    sinks.foldl remove s = { s with sinks := [] } := by
  induction sinks generalizing s with
  | nil =>
      rw [List.foldl_nil, ← h]
  | cons sink rest ih =>
      have hrest : (s.remove sink).sinks = rest := by
        rw [remove, h, List.erase_cons_head]
      rw [List.foldl_cons, ih (s.remove sink) hrest]
      rfl

/-- However the log was before, a configuration puts its sinks in the place of all others.  It fails
only if the file is not opened. -/
theorem configure_eq (s : State) (c : Configuration) :
    ∃ made, s.configure c.verbose c.quiet c.file c.opens =
      ({ s with
          level := c.level
          propagates := false
          sinks := ⟨s.made, .console, c.level, .console⟩ ::
            (c.opened.map fun place => ⟨s.made + 1, .file place, c.level, .file⟩).toList
          made := made
          answers := [] },
        c.file.isNone || c.opens) := by
  rcases c with ⟨verbose, quiet, file, opens⟩
  unfold configure
  dsimp only
  rw [foldl_remove _ rfl]
  cases file with
  | none =>
      refine ⟨s.made + 1, ?_⟩
      cases opens with
      | false => rfl
      | true => rfl
  | some place =>
      cases opens with
      | false => exact ⟨s.made + 1, rfl⟩
      | true => exact ⟨s.made + 2, rfl⟩

theorem isConfigured_configure (s : State) (c : Configuration) :
    (s.configure c.verbose c.quiet c.file c.opens).1.IsConfigured c := by
  rcases configure_eq s c with ⟨made, hstate⟩
  rw [hstate]
  refine ⟨rfl, rfl, ⟨_, _, rfl⟩, ?_⟩
  intro part level answer _ hmem
  cases hmem

theorem IsConfigured.of_extends {s t : State} {c : Configuration} (h : s.IsConfigured c)
    (hst : s.Extends t) : t.IsConfigured c := by
  rcases hst with ⟨lines, rfl, _⟩
  exact ⟨h.level_eq, h.propagates_eq, h.sinks_eq, h.answers_eq⟩

theorem IsConfigured.letsIn_plain {s : State} {c : Configuration} (h : s.IsConfigured c)
    {part : Option String} (hpart : IsPlain part) (level : Level) (text : String) :
    s.letsIn ⟨level, sourceName part, text⟩ = c.level.admits level := by
  unfold letsIn
  split
  · next answer hanswer =>
    rcases List.lookup_eq_some_iff.mp hanswer with ⟨before, after, hanswers, _⟩
    refine h.answers_eq part level answer hpart ?_
    rw [hanswers]
    exact List.mem_append_right before List.mem_cons_self
  · rw [threshold, belongs_plain s.known hpart, if_pos rfl, h.level_eq]

theorem IsConfigured.ask {s : State} {c : Configuration} (h : s.IsConfigured c) (r : Record) :
    (s.ask r).IsConfigured c := by
  refine ⟨h.level_eq, h.propagates_eq, h.sinks_eq, ?_⟩
  intro part level answer hpart hmem
  rcases List.mem_cons.mp hmem with heq | hold
  · have hheard : ({ s with known := r.source :: s.known } : State).IsConfigured c :=
      ⟨h.level_eq, h.propagates_eq, h.sinks_eq, h.answers_eq⟩
    rcases r with ⟨level', source, text⟩
    cases heq
    exact hheard.letsIn_plain hpart _ text
  · exact h.answers_eq part level answer hpart hold

theorem IsConfigured.record {s : State} {c : Configuration} (h : s.IsConfigured c) (r : Record) :
    (s.record r).1.IsConfigured c :=
  (h.ask r).of_extends (extends_record s r)

/-- One call: a configuration becomes the last one, and a record leaves the last one in force. -/
theorem IsConfigured.perform {s : State} {c : Configuration} (h : s.IsConfigured c) (call : Call) :
    (s.perform call).1.IsConfigured (c.after call) := by
  cases call with
  | configure verbose quiet file opens =>
      exact isConfigured_configure s ⟨verbose, quiet, file, opens⟩
  | log part level text => exact h.record _

theorem IsConfigured.run {s : State} {c : Configuration} (h : s.IsConfigured c) (calls : List Call) :
    (s.run calls).IsConfigured (c.latest calls) := by
  induction calls generalizing s c with
  | nil => exact h
  | cons call rest ih => exact ih (h.perform call)

/-!
# What is written
-/

theorem write_of_not_admits {s : State} {r : Record} {sink : Sink}
    (h : sink.level.admits r.level = false) : s.write r sink = (s, "") := by
  rw [write, if_neg (Bool.eq_false_iff.mp h)]

theorem write_console {level : Level} {r : Record} (h : level.admits r.level = true) (s : State)
    (number : Nat) : s.write r ⟨number, .console, level, .console⟩ = (s, r.consoleLine) := by
  rw [write, if_pos h]
  rfl

theorem write_file {level : Level} {r : Record} (h : level.admits r.level = true) (s : State)
    (number : Nat) (file : String) :
    s.write r ⟨number, .file file, level, .file⟩ =
      ({ s with
          lines := fun place =>
            if place = file then s.lines file ++ [r.fileLine] else s.lines place }, "") := by
  rw [write, if_pos h]
  rfl

theorem IsConfigured.emit_of_belongs {s : State} {c : Configuration} (h : s.IsConfigured c)
    {r : Record} (hbelongs : belongs s.known r.source = true) :
    (s.emit r).2 = (if c.level.admits r.level then r.consoleLine else "") ∧
      ∀ place, (s.emit r).1.lines place = s.lines place ++
        if c.level.admits r.level = true ∧ c.opened = some place then [r.fileLine] else [] := by
  rcases h.sinks_eq with ⟨first, second, hsinks⟩
  have hreached : s.reached r.source = ⟨first, .console, c.level, .console⟩ ::
      (c.opened.map fun place => ⟨second, .file place, c.level, .file⟩).toList := by
    rw [reached, if_pos hbelongs, h.propagates_eq, if_neg Bool.false_ne_true, List.append_nil,
      hsinks]
  rw [emit, hreached]
  cases hlevel : c.level.admits r.level with
  | false =>
      cases c.opened with
      | none => simp [writeAll, write_of_not_admits, hlevel]
      | some file => simp [writeAll, write_of_not_admits, hlevel]
  | true =>
      cases c.opened with
      | none => simp [writeAll, write_console hlevel]
      | some file =>
          simp only [Option.map_some, Option.toList_some, writeAll, write_console hlevel,
            write_file hlevel]
          refine ⟨by simp, ?_⟩
          intro place
          by_cases hplace : place = file
          · simp [hplace]
          · simp [hplace, Ne.symm hplace]

theorem IsConfigured.record_plain {s : State} {c : Configuration} (h : s.IsConfigured c)
    {part : Option String} (hpart : IsPlain part) (level : Level) (text : String) :
    let r : Record := ⟨level, sourceName part, text⟩
    (s.record r).2 = (if c.level.admits level then r.consoleLine else "") ∧
      ∀ place, (s.record r).1.lines place = s.lines place ++
        if c.level.admits level = true ∧ c.opened = some place then [r.fileLine] else [] := by
  intro r
  have hasked := h.ask r
  have hletsIn : (s.ask r).letsIn r = c.level.admits level := hasked.letsIn_plain hpart level text
  have hbelongs : belongs (s.ask r).known r.source = true := belongs_plain _ hpart
  have hemit := hasked.emit_of_belongs hbelongs
  rw [State.record, hletsIn]
  cases hlevel : c.level.admits level with
  | false =>
      refine ⟨rfl, ?_⟩
      intro place
      simp only [Bool.false_eq_true, false_and, if_false, List.append_nil]
      rfl
  | true =>
      rw [show c.level.admits r.level = true from hlevel] at hemit
      exact hemit

/-- Where there are no sinks around the program, no record is written twice, whatever the part. -/
theorem IsConfigured.record_once {s : State} {c : Configuration} (h : s.IsConfigured c)
    (houter : s.outer = []) (r : Record) :
    ((s.record r).2 = "" ∨ (s.record r).2 = r.consoleLine ∨ (s.record r).2 = r.text ++ "\n") ∧
      ∀ place, (s.record r).1.lines place = s.lines place ∨
        (s.record r).1.lines place = s.lines place ++ [r.fileLine] := by
  rw [State.record]
  split
  · cases hbelongs : belongs (s.ask r).known r.source with
    | true =>
        rcases (h.ask r).emit_of_belongs hbelongs with ⟨hshown, hlines⟩
        constructor
        · rw [hshown]
          split
          · exact Or.inr (Or.inl rfl)
          · exact Or.inl rfl
        · intro place
          rw [hlines]
          split
          · exact Or.inr rfl
          · exact Or.inl (List.append_nil _)
    | false =>
        have hreached : (s.ask r).reached r.source = [] := by
          rw [reached, hbelongs, if_neg Bool.false_ne_true]
          exact houter
        rw [emit, hreached, write]
        dsimp only
        split
        · exact ⟨Or.inr (Or.inr rfl), fun _ => Or.inl rfl⟩
        · exact ⟨Or.inl rfl, fun _ => Or.inl rfl⟩
  · exact ⟨Or.inl rfl, fun _ => Or.inl rfl⟩

theorem lines_prefix_perform (s : State) (call : Call) (place : String) :
    s.lines place <+: (s.perform call).1.lines place := by
  cases call with
  | configure verbose quiet file opens =>
      rcases configure_eq s ⟨verbose, quiet, file, opens⟩ with ⟨made, hstate⟩
      show s.lines place <+: (s.configure verbose quiet file opens).1.lines place
      rw [hstate]
  | log part level text =>
      rcases extends_record s ⟨level, sourceName part, text⟩ with ⟨lines, hrecord, hlines⟩
      show s.lines place <+: (s.record ⟨level, sourceName part, text⟩).1.lines place
      rw [hrecord]
      exact hlines place

theorem outer_perform (s : State) (call : Call) : (s.perform call).1.outer = s.outer := by
  cases call with
  | configure verbose quiet file opens =>
      rcases configure_eq s ⟨verbose, quiet, file, opens⟩ with ⟨made, hstate⟩
      show (s.configure verbose quiet file opens).1.outer = s.outer
      rw [hstate]
  | log part level text =>
      rcases extends_record s ⟨level, sourceName part, text⟩ with ⟨lines, hrecord, _⟩
      show (s.record ⟨level, sourceName part, text⟩).1.outer = s.outer
      rw [hrecord]
      rfl

theorem outer_run (s : State) (calls : List Call) : (s.run calls).outer = s.outer := by
  induction calls generalizing s with
  | nil => rfl
  | cons call rest ih => exact (ih _).trans (outer_perform s call)

/-- Whatever calls follow on a configuration, the log has the sinks of the last one, and each of them
writes a record of a plain part once, or not at all if its level is too low.  A configuration writes
nothing, and no line is taken from a file. -/
theorem run_configured (start : State) (first : Configuration) (calls : List Call) :
    let s := start.run (first.call :: calls)
    let c := first.latest calls
    (s.sinks.map Sink.target = .console :: c.opened.toList.map .file ∧
      (∀ sink ∈ s.sinks, sink.level = s.level) ∧
      s.level = (if c.verbose then .debug else if c.quiet then .warning else .info) ∧
      s.propagates = false) ∧
    (∀ (part : Option String) (level : Level) (text : String), IsPlain part →
      let r : Record := ⟨level, sourceName part, text⟩
      let logged := s.perform (.log part level text)
      logged.2 = (if s.level.admits level then r.consoleLine else "") ∧
        ∀ place, logged.1.lines place = s.lines place ++
          if s.level.admits level = true ∧ c.opened = some place then [r.fileLine] else []) ∧
    (start.outer = [] → ∀ (part : Option String) (level : Level) (text : String),
      let r : Record := ⟨level, sourceName part, text⟩
      let logged := s.perform (.log part level text)
      (logged.2 = "" ∨ logged.2 = r.consoleLine ∨ logged.2 = r.text ++ "\n") ∧
        ∀ place, logged.1.lines place = s.lines place ∨
          logged.1.lines place = s.lines place ++ [r.fileLine]) ∧
    (∀ d : Configuration, (s.perform d.call).2 = "" ∧ (s.perform d.call).1.lines = s.lines ∧
      ((s.configure d.verbose d.quiet d.file d.opens).2 = true ↔ d.opened = d.file)) ∧
    ∀ (call : Call) (place : String), s.lines place <+: (s.perform call).1.lines place := by
  intro s c
  have hconfigured : s.IsConfigured c :=
    (isConfigured_configure start first).run calls
  have houter : s.outer = start.outer := outer_run start (first.call :: calls)
  refine ⟨⟨?_, ?_, hconfigured.level_eq, hconfigured.propagates_eq⟩, ?_, ?_, ?_,
    lines_prefix_perform s⟩
  · rcases hconfigured.sinks_eq with ⟨first, second, hsinks⟩
    rw [hsinks]
    cases c.opened with
    | none => rfl
    | some place => rfl
  · rcases hconfigured.sinks_eq with ⟨first, second, hsinks⟩
    rw [hsinks, hconfigured.level_eq]
    cases c.opened with
    | none => simp
    | some place => simp
  · intro part level text hpart
    rw [hconfigured.level_eq]
    exact hconfigured.record_plain hpart level text
  · intro hnone part level text
    exact hconfigured.record_once (houter.trans hnone) _
  · intro d
    rcases configure_eq s d with ⟨made, hstate⟩
    refine ⟨rfl, ?_, ?_⟩
    · show (s.configure d.verbose d.quiet d.file d.opens).1.lines = s.lines
      rw [hstate]
    · rw [hstate, Configuration.opened]
      cases d.opens with
      | true => simp
      | false => cases d.file <;> simp

/-- A quiet log with a file that takes a warning and is then configured for the console alone. -/
def reconfigured : State :=
  State.run {} [
    .configure false true (some "run.log") true,
    .log (some "cli") .warning "a",
    .configure true true none true]

theorem run_configured_again :
    reconfigured.sinks.map Sink.target = [.console] ∧ reconfigured.level = .debug ∧
      (reconfigured.perform (.log (some "cli") .debug "b")).2 = "[usecompass] DEBUG b\n" ∧
      (reconfigured.perform (.log (some "cli") .debug "b")).1.lines "run.log" =
        ["WARNING usecompass.cli: a"] ∧
      (reconfigured.perform (.log (some ".cli") .debug "b")).2 = "" := by
  rcases run_configured {} ⟨false, true, some "run.log", true⟩
    [.log (some "cli") .warning "a", .configure true true none true] with
    ⟨⟨hsinks, _, hlevel, _⟩, hplain, _⟩
  rcases hplain (some "cli") .debug "b" (by decide) with ⟨hshown, hlines⟩
  refine ⟨hsinks, hlevel, ?_, ?_, ?_⟩
  · exact hshown.trans (by decide +kernel)
  · exact (hlines "run.log").trans (by decide +kernel)
  · decide +kernel

end State
end Log
end UsecaseAudit
