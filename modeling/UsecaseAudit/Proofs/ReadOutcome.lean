import UsecaseAudit.Proofs.Conversion
import UsecaseAudit.Proofs.FirstFault

/-!
# How reading a source file ends

Reading fails on bytes that are no text, whatever the tree is.  On a text it
fails when the tree is flagged, and otherwise only when the tree is too deep,
which is to say that some chain of nodes, each read on the way from the one
before, takes more calls than the stack has room for.  In all other cases it
gives the whole code of the tree, the same that any larger stack gives.

A failure names the path, the line where one is known, and what went wrong.
-/

namespace UsecaseAudit
namespace Concrete

/-!
# Chains of nodes
-/

/-- Reading goes down a chain of nodes, to a child of a node, a child of that child, and so on, and
takes that much of the stack: all the calls of the nodes it goes on from, which stay open, and the
most that the calls of the last node take. -/
inductive Descends (stack : Stack) : Manner → Concrete → Nat → Prop where
  | here (m : Manner) (t : Concrete) : Descends stack m t (peak stack (t.calls m))
  | onward {m : Manner} {t : Concrete} {s : Step} {n : Nat} : s ∈ t.steps m →
      Descends stack s.manner s.child n → Descends stack m t ((t.calls m).length + n)

/-- There is room for a tree when there is room for every chain. -/
theorem frames_le_iff_descends {stack : Stack} {m : Manner} {t : Concrete} {room : Nat} :
    t.frames stack m ≤ room ↔ ∀ n, Descends stack m t n → n ≤ room := by
  constructor
  · intro hframes n hchain
    induction hchain generalizing room with
    | here m t =>
        exact (frames_le_iff.mp hframes).left
    | @onward m t s n hs _ ih =>
        have hroom := (frames_le_iff.mp hframes).right s hs
        have hbeyond := @ih (room - (t.calls m).length) (by omega)
        omega
  · intro hchains
    -- by recursion on the tree: a chain from a child is a chain from the node
    refine frames_le_iff.mpr ⟨hchains _ (.here m t), ?_⟩
    intro s hs
    have hlt := sizeOf_child_lt hs
    have hcalls := hchains _ (.onward hs (.here s.manner s.child))
    have hbeyond : s.child.frames stack s.manner ≤ room - (t.calls m).length := by
      refine frames_le_iff_descends.mpr ?_
      intro n hchain
      have hroom := hchains _ (.onward hs hchain)
      omega
    omega
termination_by sizeOf t

theorem frames_le_iff_not_exists {stack : Stack} {m : Manner} {t : Concrete} {room : Nat} :
    t.frames stack m ≤ room ↔ ¬ ∃ n, room < n ∧ Descends stack m t n := by
  rw [frames_le_iff_descends]
  constructor
  · rintro hchains ⟨n, hlong, hchain⟩
    exact Nat.not_lt.mpr (hchains n hchain) hlong
  · intro hnone n hchain
    exact Nat.not_lt.mp fun hlong => hnone ⟨n, hlong, hchain⟩

end Concrete

namespace ReadFailure

theorem message_eq (failure : ReadFailure) :
    failure.message = failure.path ++ failure.line.elim "" (fun n => ":" ++ toString n) ++ ": "
      ++ failure.cause.detail := by
  rcases failure with ⟨path, cause, _ | n⟩
  · simp [message, locate]
  · simp [message, locate, String.append_assoc]

end ReadFailure

namespace Source

/-!
# The conditions of reading, in their order
-/

def FailsWith (stack : Stack) (source : Source) (path detail : String) (line : Option Int) : Prop :=
  ∃ failure, source.read stack path = .error failure ∧ failure.path = path ∧
    failure.line = line ∧ failure.cause.detail = detail

section

variable {stack : Stack} {source : Source} (path : String)

theorem failsWith_of_read {path : String} {cause : ReadFailure.Cause} {line : Option Int}
    (h : source.read stack path = .error { path := path, cause := cause, line := line }) :
    source.FailsWith stack path cause.detail line :=
  ⟨_, h, rfl, rfl, rfl⟩

theorem failsWith_of_not_isText (h : ¬ Utf8.IsText source.bytes) :
    ∃ reason : Utf8.Reason,
      source.FailsWith stack path ("invalid UTF-8: " ++ reason.message) none := by
  cases hfault : Utf8.firstFault source.bytes with
  | none =>
      exact absurd (Utf8.firstFault_eq_none_iff.mp hfault) h
  | some fault =>
      have hread : source.read stack path =
          .error { path := path, cause := .invalidText fault.reason } := by
        rw [read, hfault]
      exact ⟨fault.reason, failsWith_of_read hread⟩

theorem failsWith_of_flagged (htext : Utf8.IsText source.bytes)
    (hflagged : source.tree.label.flagged = true) :
    (source.tree.SearchFits stack.room →
      source.FailsWith stack path "syntax error"
        (source.tree.firstTracked?.map fun p => p.node.line)) ∧
    (¬ source.tree.SearchFits stack.room →
      source.FailsWith stack path "syntax tree too deep" none) := by
  have hread := @read_of_flagged stack path _ htext hflagged
  rw [brokenFailure_eq] at hread
  constructor
  · intro hfits
    rw [if_pos hfits] at hread
    exact failsWith_of_read hread
  · intro hdeep
    rw [if_neg hdeep] at hread
    exact failsWith_of_read hread

theorem read_of_not_flagged (htext : Utf8.IsText source.bytes)
    (hflagged : source.tree.label.flagged = false) :
    source.read stack path =
      if source.tree.frames stack .whole ≤ stack.room then
        .ok (Code.convert source.bytes source.tree)
      else .error { path := path, cause := .tooDeep } := by
  rw [read, Utf8.firstFault_eq_none_iff.mpr htext]
  dsimp only
  rw [hflagged, if_neg Bool.false_ne_true, Code.read_eq]
  by_cases hdepth : source.tree.frames stack .whole ≤ stack.room
  · rw [if_pos hdepth, if_pos hdepth]
  · rw [if_neg hdepth, if_neg hdepth]

theorem detail_of_isText (htext : Utf8.IsText source.bytes) {detail : String} {line : Option Int}
    (h : source.FailsWith stack path detail line) :
    detail = "syntax error" ∨ detail = "syntax tree too deep" := by
  rcases h with ⟨failure, hread, -, -, rfl⟩
  cases hflagged : source.tree.label.flagged with
  | true =>
      rw [read_of_flagged path htext hflagged, brokenFailure_eq] at hread
      cases hread
      by_cases hfits : source.tree.SearchFits stack.room
      · rw [if_pos hfits]
        exact Or.inl rfl
      · rw [if_neg hfits]
        exact Or.inr rfl
  | false =>
      rw [read_of_not_flagged path htext hflagged] at hread
      by_cases hdepth : source.tree.frames stack .whole ≤ stack.room
      · rw [if_pos hdepth] at hread
        cases hread
      · rw [if_neg hdepth] at hread
        cases hread
        exact Or.inr rfl

theorem failsWith_invalid_iff : (∃ reason : Utf8.Reason,
    source.FailsWith stack path ("invalid UTF-8: " ++ reason.message) none) ↔
      ¬ Utf8.IsText source.bytes := by
  constructor
  · rintro ⟨reason, hfails⟩ htext
    rcases detail_of_isText path htext hfails with hdetail | hdetail
    · cases reason <;> exact absurd hdetail (by decide)
    · cases reason <;> exact absurd hdetail (by decide)
  · exact failsWith_of_not_isText path

theorem failsWith_tooDeep_iff (htext : Utf8.IsText source.bytes)
    (hflagged : source.tree.label.flagged = false) :
    source.FailsWith stack path "syntax tree too deep" none ↔
      ∃ n, stack.room < n ∧ source.tree.Descends stack .whole n := by
  have hread := @read_of_not_flagged stack _ path htext hflagged
  by_cases hdepth : source.tree.frames stack .whole ≤ stack.room
  · rw [if_pos hdepth] at hread
    refine iff_of_false ?_ (Concrete.frames_le_iff_not_exists.mp hdepth)
    rintro ⟨failure, hfailure, -⟩
    rw [hread] at hfailure
    cases hfailure
  · rw [if_neg hdepth] at hread
    refine iff_of_true (failsWith_of_read hread) ?_
    exact not_not.mp (mt Concrete.frames_le_iff_not_exists.mpr hdepth)

theorem read_of_shallow (htext : Utf8.IsText source.bytes)
    (hflagged : source.tree.label.flagged = false)
    (hshallow : ¬ ∃ n, stack.room < n ∧ source.tree.Descends stack .whole n) :
    source.read stack path = .ok (Code.convert source.bytes source.tree) ∧
      ∀ larger : Stack, larger.Exceeds stack → Code.read source.bytes larger source.tree =
        some (Code.convert source.bytes source.tree) := by
  have hdepth := Concrete.frames_le_iff_not_exists.mpr hshallow
  constructor
  · rw [read_of_not_flagged path htext hflagged, if_pos hdepth]
  · intro larger hlarger
    rw [Code.read_eq, if_pos]
    exact Nat.le_trans (Concrete.frames_le_of_exceeds hlarger .whole source.tree)
      (Nat.le_trans hdepth hlarger.room)

end

/-- How reading ends, by the first condition that does not hold. -/
theorem read_outcome (stack : Stack) (path : String) (source : Source) :
    ((∃ reason : Utf8.Reason,
        source.FailsWith stack path ("invalid UTF-8: " ++ reason.message) none) ↔
      ¬ Utf8.IsText source.bytes) ∧
    (Utf8.IsText source.bytes → source.tree.label.flagged = true →
      (source.tree.SearchFits stack.room → ∃ line, source.FailsWith stack path "syntax error" line) ∧
      (¬ source.tree.SearchFits stack.room →
        source.FailsWith stack path "syntax tree too deep" none)) ∧
    (Utf8.IsText source.bytes → source.tree.label.flagged = false →
      (source.FailsWith stack path "syntax tree too deep" none ↔
        ∃ n, stack.room < n ∧ source.tree.Descends stack .whole n) ∧
      (¬ source.FailsWith stack path "syntax tree too deep" none →
        ∃ code, source.read stack path = .ok code ∧ code = Code.convert source.bytes source.tree ∧
          ∀ larger : Stack, larger.Exceeds stack →
            Code.read source.bytes larger source.tree = some code)) ∧
    ∀ failure, source.read stack path = .error failure → failure.path = path ∧
      failure.message = path ++ failure.line.elim "" (fun n => ":" ++ toString n) ++ ": "
        ++ failure.cause.detail := by
  refine ⟨failsWith_invalid_iff path, ?_, ?_, ?_⟩
  · intro htext hflagged
    rcases failsWith_of_flagged path htext hflagged with ⟨hbroken, hdeep⟩
    exact ⟨fun hfits => ⟨_, hbroken hfits⟩, hdeep⟩
  · intro htext hflagged
    have hdeep := @failsWith_tooDeep_iff stack _ path htext hflagged
    refine ⟨hdeep, ?_⟩
    intro hnot
    rcases read_of_shallow path htext hflagged (mt hdeep.mpr hnot) with ⟨hread, hlarger⟩
    exact ⟨_, hread, rfl, hlarger⟩
  · intro failure hread
    have hpath := path_of_read hread
    refine ⟨hpath, ?_⟩
    rw [failure.message_eq, hpath]

def nested : Nat → Concrete
  | 0 => ⟨⟨"parenthesized_statements", none, true, false, false, 0, 1, 0⟩, []⟩
  | n + 1 => ⟨⟨"parenthesized_statements", none, true, false, false, 0, 1, 0⟩, [nested n]⟩

theorem label_nested (n : Nat) : (nested n).label =
    ⟨"parenthesized_statements", none, true, false, false, 0, 1, 0⟩ := by
  cases n with
  | zero => rfl
  | succ n => rfl

/-- Each pair of parentheses takes three calls. -/
theorem descends_nested (stack : Stack) (n : Nat) : (nested n).Descends stack .whole
    (3 * n + Concrete.peak stack [.dispatch, .other, .statements]) := by
  induction n with
  | zero =>
      rw [Nat.mul_zero, Nat.zero_add]
      exact .here .whole (nested 0)
  | succ n ih =>
      have hmanner : (nested n).manner = .whole := by
        rw [Concrete.manner, Concrete.isBody, Concrete.kind, label_nested]
        rfl
      have hstatement : (!(nested n).isSilent && !Concrete.standsIn [] (nested n)) = true := by
        rw [Concrete.isSilent, Concrete.standsIn, Concrete.kind, label_nested]
        rfl
      have hs : ⟨0, (nested n).manner, nested n⟩ ∈ (nested (n + 1)).steps .whole :=
        List.mem_map.mpr ⟨(nested n, 0),
          List.mem_filter.mpr ⟨List.mem_singleton_self _, hstatement⟩, rfl⟩
      rw [Nat.mul_succ, Nat.add_comm (3 * n), Nat.add_assoc]
      refine .onward hs ?_
      rw [hmanner]
      exact ih

theorem read_outcome_nested :
    let text := Utf8.encode "()"
    let stack : Stack := ⟨30, 3, 1⟩
    ¬ Utf8.IsText [0xED, 0xA0, 0x80] ∧ Utf8.IsText text ∧
      (∃ reason : Utf8.Reason, FailsWith stack ⟨[0xED, 0xA0, 0x80], nested 0⟩ "a.rb"
        ("invalid UTF-8: " ++ reason.message) none) ∧
      (∃ line, FailsWith stack ⟨text, Concrete.brokenCondition⟩ "a.rb" "syntax error" line) ∧
      FailsWith stack ⟨text, nested 10⟩ "a.rb" "syntax tree too deep" none ∧
      ∃ code, read stack "a.rb" ⟨text, nested 8⟩ = .ok code ∧
        code = Code.convert text (nested 8) := by
  intro text stack
  have hinvalid : ¬ Utf8.IsText [0xED, 0xA0, 0x80] := by
    rw [← Utf8.firstFault_eq_none_iff]
    decide +kernel
  have htext : Utf8.IsText text := ⟨"()".toList, by decide +kernel⟩
  have hbroken := (read_outcome stack "a.rb" ⟨text, Concrete.brokenCondition⟩).right.left htext rfl
  have hdeep := (read_outcome stack "a.rb" ⟨text, nested 10⟩).right.right.left htext rfl
  have hshallow := (read_outcome stack "a.rb" ⟨text, nested 8⟩).right.right.left htext rfl
  have hread : (read stack "a.rb" ⟨text, nested 8⟩).toOption.isSome = true := by
    decide +kernel
  have hfits : Concrete.brokenCondition.SearchFits stack.room := by
    decide +kernel
  refine ⟨hinvalid, htext, (read_outcome stack "a.rb" _).left.mpr hinvalid, hbroken.left hfits,
    hdeep.left.mpr ⟨_, by decide, descends_nested stack 10⟩, ?_⟩
  have hnot : ¬ FailsWith stack ⟨text, nested 8⟩ "a.rb" "syntax tree too deep" none := by
    rintro ⟨failure, hfailure, -⟩
    rw [hfailure] at hread
    cases hread
  rcases hshallow.right hnot with ⟨code, hcode, hconvert, -⟩
  exact ⟨code, hcode, hconvert⟩

end Source
end UsecaseAudit
