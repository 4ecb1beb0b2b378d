import UsecaseAudit.Proofs.IdleTasks
import UsecaseAudit.Proofs.UsecaseSearch

/-!
# Usecase calls in code that was read

A search leaves out the target of an assignment, and a walk leaves out nothing.
On code that was read from source both find the same usecase calls, because a
target is never a call and has nothing below it.  Nor does a search come upon an
obstacle there, on a stack with half the room: a scope takes one call to name
and two to read, and reading has given up before there are too many of them.

So a method is found idle exactly when no usecase call stands anywhere in it.
-/

namespace UsecaseAudit
namespace Concrete

/-!
# Room for a tree and for a name
-/

section

variable {stack : Stack}

theorem frames_child_lt {t : Concrete} {m : Manner} {s : Step} (hs : s ∈ t.steps m) :
    s.child.frames stack s.manner < t.frames stack m := by
  have hroom := (frames_le_iff.mp (Nat.le_refl (t.frames stack m))).right s hs
  have hcalls : 0 < (t.calls m).length := by
    cases m with
    | whole => exact Nat.succ_pos _
    | body => exact Nat.succ_pos _
  omega

theorem frames_lt_of_reaches {m : Manner} {t c : Concrete} {position : Position}
    (h : Reaches m t position c) : c.frames stack .whole < t.frames stack m := by
  induction h with
  | whole hs hmanner =>
      rw [← hmanner]
      exact frames_child_lt hs
  | body hs hmanner _ ih =>
      rw [← hmanner] at ih
      exact Nat.lt_trans ih (frames_child_lt hs)

theorem frames_le_of_visits {t n : Concrete} {position : Position} (h : Visits t position n) :
    n.frames stack .whole ≤ t.frames stack .whole := by
  induction h with
  | here t =>
      exact Nat.le_refl _
  | onward hreaches _ ih =>
      exact Nat.le_trans ih (Nat.le_of_lt (frames_lt_of_reaches hreaches))

theorem two_le_frames (t : Concrete) : 2 ≤ t.frames stack .whole := by
  have hpeak := (frames_le_iff.mp (Nat.le_refl (t.frames stack .whole))).left
  refine Nat.le_trans ?_ hpeak
  rw [calls]
  by_cases hform : t.form = .other
  · rw [if_pos hform, formCalls, hform, peak, peak]
    omega
  · rw [if_neg hform, peak, peak]
    omega

end

end Concrete

namespace Code

open Concrete Relation

section

variable {stack : Stack}

theorem nameLevels_le_of_scope_none {c : Code} (t : Concrete) (h : c.scope = none) :
    2 * c.nameLevels ≤ t.frames stack .whole := by
  rw [nameLevels_of_scope_none h]
  exact two_le_frames t

/-- The name of a constant is put together by half as many calls as reading it takes. -/
theorem nameLevels_convert_le (source : List UInt8) (t : Concrete) :
    2 * (convert source t).nameLevels ≤ t.frames stack .whole := by
  have ih : ∀ c, t.child? "scope" = some c →
      2 * (convert source c).nameLevels ≤ c.frames stack .whole := by
    intro c hc
    have hlt := sizeOf_lt_of_child? hc
    exact nameLevels_convert_le source c
  refine convert_cases (motive := fun c => 2 * c.nameLevels ≤ t.frames stack .whole) source t
    (fun _ => nameLevels_le_of_scope_none t rfl) (fun _ => nameLevels_le_of_scope_none t rfl)
    (fun _ => nameLevels_le_of_scope_none t rfl) (fun _ => nameLevels_le_of_scope_none t rfl)
    (fun _ => nameLevels_le_of_scope_none t rfl)
    (fun _ _ _ _ _ _ => nameLevels_le_of_scope_none t rfl)
    (fun _ _ _ _ _ => nameLevels_le_of_scope_none t rfl)
    (fun _ => nameLevels_le_of_scope_none t rfl) ?_
    (fun _ => nameLevels_le_of_scope_none t rfl)
  -- only a scope resolution has a scope, which is read beyond its own two calls
  intro name hkind hsteps
  rcases fieldSteps_cases .whole "scope" t with ⟨hscope, _⟩ | ⟨c, index, hscope, hstep⟩
  · rw [hscope]
    exact nameLevels_le_of_scope_none t rfl
  · have hs : ⟨index, .whole, c⟩ ∈ t.steps .whole := by
      rw [hsteps, hstep]
      exact List.mem_singleton_self _
    have hroom := (frames_le_iff.mp (Nat.le_refl (t.frames stack .whole))).right _ hs
    have hcalls : 2 ≤ (t.calls .whole).length := by
      have hform : t.form ≠ .other := by
        intro hform
        rw [kindOf, hform] at hkind
        cases hkind
      rw [calls, if_neg hform, List.length_cons, List.length_cons]
      omega
    have hc := ih c hscope
    have houter : (ofConstant t (name.text source) (some (convert source c))).scope =
        some (convert source c) := rfl
    dsimp only at hroom
    rw [hscope, Option.map_some, nameLevels_of_scope_some houter]
    split
    · omega
    · omega
termination_by sizeOf t

end

/-!
# Searches and walks
-/

section

variable {source : List UInt8} {t : Concrete} {stack : Stack} {levels : Nat}

/-- The two children of an assignment; the first of them is no call and has nothing below it. -/
theorem exists_target {n : Code} (hn : n ∈ (convert source t).walk)
    (hkind : n.kind = .assignment) :
    ∃ target value, n.children = [target, value] ∧ target.kind = .other ∧ target.children = [] := by
  rcases (isShaped_of_mem_walk hn).assignment hkind with
    ⟨_, _, _, target, value, _, _, _, _, hchildren, hother, hnothing, _⟩
  exact ⟨target, value, hchildren, hother, hnothing⟩

theorem meets_iff_exists_mem_walk {n : Code} (hn : n ∈ (convert source t).walk) :
    Meets IsUsecaseCall [n] ↔ ∃ c ∈ n.walk, c.IsUsecaseCall := by
  constructor
  · rintro ⟨m, hm, c, hreach, hc⟩
    rw [List.mem_singleton.mp hm] at hreach
    exact ⟨c, mem_walk_of_reaches hreach, hc⟩
  · rintro ⟨c, hwalk, hc⟩
    induction n using induction_on_children with
    | step n ih =>
        rcases mem_walk_iff.mp hwalk with rfl | ⟨d, hd, hwalk⟩
        · exact meets_cons.mpr (Or.inl hc)
        · have hbelow := ih d hd (mem_walk_trans hn (mem_walk_of_mem_children hd)) hwalk
          have hleads : Leads n d := by
            by_cases hkind : n.kind = .assignment
            · rcases exists_target hn hkind with ⟨target, value, hchildren, hother, hnothing⟩
              rw [hchildren] at hd
              rcases List.mem_pair.mp hd with rfl | rfl
              · -- the target itself would have to be the call
                rcases mem_walk_iff.mp hwalk with rfl | ⟨e, he, _⟩
                · exact absurd (hc.kind.symm.trans hother) (by decide)
                · rw [hnothing] at he
                  cases he
              · exact Leads.value hkind (by rw [hchildren]; rfl)
            · exact Leads.child hkind hd
          rcases hbelow with ⟨m, hm, e, hreach, he⟩
          rw [List.mem_singleton.mp hm] at hreach
          exact ⟨n, List.mem_singleton_self n, e, ReflTransGen.head hleads hreach, he⟩

theorem not_isObstacle {c : Code} (hlevels : t.frames stack .whole ≤ 2 * levels + 1)
    (hc : c ∈ (convert source t).walk) : ¬ c.IsObstacle levels := by
  rintro ⟨_, _, r, hreceiver, hconstant, hdeep⟩
  have hr : r ∈ (convert source t).walk :=
    mem_walk_trans hc (mem_walk_of_mem_children
      ((isShaped_of_mem_walk hc).mem_children (HasPart.receiver hreceiver)))
  rcases mem_walk_convert hr with ⟨position, s, hvisits, rfl⟩ | ⟨left, rfl⟩
  · have hname := @nameLevels_convert_le stack source s
    have hframes := @frames_le_of_visits stack _ _ _ hvisits
    omega
  · cases hconstant

theorem not_meets_isObstacle {n : Code} (hlevels : t.frames stack .whole ≤ 2 * levels + 1)
    (hn : n ∈ (convert source t).walk) : ¬ Meets (IsObstacle levels) [n] := by
  rintro ⟨m, hm, c, hreach, hc⟩
  rw [List.mem_singleton.mp hm] at hreach
  exact not_isObstacle hlevels (mem_walk_trans hn (mem_walk_of_reaches hreach)) hc

theorem delegates?_of_mem_walk {n : Code} (hlevels : t.frames stack .whole ≤ 2 * levels + 1)
    (hn : n ∈ (convert source t).walk) :
    delegates? levels (some n) = some (delegates (some n)) :=
  delegates?_of_no_obstacle (not_meets_isObstacle hlevels hn)

theorem delegates_iff_exists_mem_walk {n : Code} (hn : n ∈ (convert source t).walk) :
    delegates (some n) = true ↔ ∃ c ∈ n.walk, c.IsUsecaseCall := by
  rw [← meets_iff_exists_mem_walk hn]
  exact anyDelegates_iff_meets [n]

theorem delegates_target {target : Code} (hkind : target.kind = .other)
    (hnothing : target.children = []) : delegates (some target) = false := by
  have hne : ¬ target.kind = .assignment := by
    rw [hkind]
    decide
  rw [delegates_some, namesUsecase, hkind, searched, if_neg hne, hnothing]
  rfl

theorem delegates_assignment {n target value : Code} (hkind : n.kind = .assignment)
    (hchildren : n.children = [target, value]) :
    delegates (some n) = delegates (some value) := by
  rw [delegates_some, namesUsecase, hkind, searched, if_pos hkind, hchildren]
  exact Bool.or_false _

end

/-!
# Scans
-/

section

variable {source : List UInt8} {t : Concrete} {stack : Stack} {levels : Nat}

theorem mem_walk_of_mem_actions {c m : Code} {exclusions : Exclusions} {file : String}
    (hc : c ∈ (convert source t).walk) (hm : m ∈ c.actions exclusions file) :
    m ∈ (convert source t).walk :=
  mem_walk_trans hc (mem_walk_of_mem_children (List.mem_of_mem_filter hm))

theorem idleActions?_convert (hlevels : t.frames stack .whole ≤ 2 * levels + 1)
    (exclusions : Exclusions) (file : String) :
    (convert source t).idleActions? levels exclusions file =
      some ((convert source t).idleActions exclusions file) := by
  have hfindings : ∀ m ∈ ((convert source t).walk.filter isController).flatMap
      (actions exclusions file), actionFindings? levels file m =
        some (if !delegates (some m) then [⟨file, m.name.getD "", m.line⟩] else []) := by
    intro m hm
    rcases List.mem_flatMap.mp hm with ⟨c, hc, hm⟩
    have hwalk := mem_walk_of_mem_actions (List.mem_of_mem_filter hc) hm
    rw [actionFindings?, delegates?_of_mem_walk hlevels hwalk]
    cases delegates (some m) with
    | true => rfl
    | false => rfl
  rw [idleActions?, Lists.mapM_eq_some_map hfindings, Option.map_some, ← List.flatMap_def,
    List.flatMap_assoc, idleActions]
  refine congrArg some (List.flatMap_congr fun c _ => ?_)
  rw [idleActionsOf, List.map_eq_flatMap, Lists.flatMap_filter]

theorem delegates?_taskBody? {c : Code} (hlevels : t.frames stack .whole ≤ 2 * levels + 1)
    (hc : c ∈ (convert source t).walk) :
    delegates? levels c.taskBody? = some (delegates c.taskBody?) := by
  cases hbody : c.taskBody? with
  | none =>
      exact delegates?_of_no_obstacle not_meets_nil
  | some body =>
      apply delegates?_of_mem_walk hlevels
      apply mem_walk_trans hc
      rw [taskBody?_eq] at hbody
      cases hblock : c.block with
      | some block =>
          rw [hblock] at hbody
          cases hbody
          exact mem_walk_of_mem_children
            ((isShaped_of_mem_walk hc).mem_children (HasPart.block hblock))
      | none =>
          rw [hblock] at hbody
          exact mem_walk_of_mem_children (List.mem_of_find?_eq_some hbody)

theorem idleTasks?_convert (hlevels : t.frames stack .whole ≤ 2 * levels + 1)
    (exclusions : Exclusions) (file : String) :
    (convert source t).idleTasks? levels exclusions file =
      some ((convert source t).idleTasks exclusions file) := by
  have hfindings : ∀ c ∈ (convert source t).walk, taskFindings? levels exclusions file c =
      some (idleTask? exclusions file c).toList := by
    intro c hc
    rw [taskFindings?, idleTask?, delegates?_taskBody? hlevels hc]
    cases c.taskName? with
    | none =>
        rfl
    | some name =>
        dsimp only
        cases exclusions.excludesTask file name with
        | true =>
            rfl
        | false =>
            cases delegates c.taskBody? with
            | true => rfl
            | false => rfl
  rw [idleTasks?, Lists.mapM_eq_some_map hfindings, Option.map_some, ← List.flatMap_def, idleTasks,
    List.filterMap_eq_flatMap_toList]

theorem idleActions_eq_of_walk (exclusions : Exclusions) (file : String) :
    (convert source t).idleActions exclusions file =
      ((convert source t).walk.filter isController).flatMap fun c =>
        ((c.actions exclusions file).filter fun m => decide (∀ d ∈ m.walk, ¬ d.IsUsecaseCall)).map
          fun m => { file := file, action := m.name.getD "", line := m.line } := by
  unfold idleActions idleActionsOf
  refine List.flatMap_congr fun c hc => congrArg (List.map _) (List.filter_congr fun m hm => ?_)
  have hwalk := mem_walk_of_mem_actions (List.mem_of_mem_filter hc) hm
  rw [Bool.eq_iff_iff, Bool.not_eq_true', ← Bool.not_eq_true, delegates_iff_exists_mem_walk hwalk,
    decide_eq_true_iff]
  simp

end

/-- On code that was read, a search gives an answer at every node, and it is whether a walk from
there sees a usecase call.  An assignment is answered for by its value alone, whatever the text of
its target; and the idle actions are those in which a walk sees no usecase call at any depth. -/
theorem search_agrees_walk {source : List UInt8} {stack : Stack} {t : Concrete} {code : Code}
    (h : read source stack t = some code) {levels : Nat} (hlevels : stack.room ≤ 2 * levels + 1) :
    (∀ n ∈ code.walk, ∃ answer, delegates? levels (some n) = some answer ∧
      (answer = true ↔ ∃ c ∈ n.walk, c.IsUsecaseCall)) ∧
    (∀ n ∈ code.walk, n.kind = .assignment → ∃ target value, n.children = [target, value] ∧
      delegates? levels (some target) = some false ∧
      delegates? levels (some n) = delegates? levels (some value)) ∧
    ∀ exclusions file,
      code.idleActions? levels exclusions file = some (code.idleActions exclusions file) ∧
      code.idleActions exclusions file =
        (code.walk.filter isController).flatMap fun c =>
          ((c.actions exclusions file).filter fun m =>
            decide (∀ d ∈ m.walk, ¬ d.IsUsecaseCall)).map fun m =>
              { file := file, action := m.name.getD "", line := m.line } := by
  rw [read_eq] at h
  rcases Option.ite_none_right_eq_some.mp h with ⟨hroom, hcode⟩
  cases hcode
  have hlevels := Nat.le_trans hroom hlevels
  refine ⟨?_, ?_, ?_⟩
  · intro n hn
    exact ⟨delegates (some n), delegates?_of_mem_walk hlevels hn, delegates_iff_exists_mem_walk hn⟩
  · intro n hn hkind
    rcases exists_target hn hkind with ⟨target, value, hchildren, hother, hnothing⟩
    have hchild : ∀ d ∈ [target, value], d ∈ (convert source t).walk := by
      intro d hd
      rw [← hchildren] at hd
      exact mem_walk_trans hn (mem_walk_of_mem_children hd)
    refine ⟨target, value, hchildren, ?_, ?_⟩
    · rw [delegates?_of_mem_walk hlevels (hchild target List.mem_cons_self),
        delegates_target hother hnothing]
    · rw [delegates?_of_mem_walk hlevels hn, delegates_assignment hkind hchildren,
        delegates?_of_mem_walk hlevels (hchild value (by simp))]
  · intro exclusions file
    exact ⟨idleActions?_convert hlevels exclusions file, idleActions_eq_of_walk exclusions file⟩

def usecaseTarget : Concrete :=
  let node kind field start stop children : Concrete :=
    ⟨⟨kind, field, true, false, false, start, stop, 0⟩, children⟩
  node "assignment" none 0 19 [
    node "identifier" (some "left") 0 11 [],
    node "identifier" (some "right") 14 19 []]

/-- The text of the target refers to a usecase, and no usecase is called. -/
theorem search_agrees_walk_usecaseTarget :
    ∃ code, read (Utf8.encode "run_usecase = fetch") ⟨12, 3, 1⟩ usecaseTarget = some code ∧
      code.children.map Code.name = [some "run_usecase", some "fetch"] ∧
      delegates? 6 (some code) = some false ∧ ¬ ∃ c ∈ code.walk, c.IsUsecaseCall := by
  have hread : (read (Utf8.encode "run_usecase = fetch") ⟨12, 3, 1⟩ usecaseTarget).map
      (fun code => (code.children.map Code.name, delegates? 6 (some code))) =
      some ([some "run_usecase", some "fetch"], some false) := by
    decide +kernel
  rcases Option.map_eq_some_iff.mp hread with ⟨code, hcode, hpair⟩
  rcases Prod.mk.inj hpair with ⟨hnames, hfalse⟩
  have hsearch := (search_agrees_walk hcode (by decide : 12 ≤ 2 * 6 + 1)).left
  rcases hsearch code (mem_walk_self code) with ⟨answer, hanswer, hiff⟩
  refine ⟨code, hcode, hnames, hfalse, ?_⟩
  rw [← hiff, Option.some.inj (hanswer.symm.trans hfalse)]
  exact Bool.false_ne_true

end Code
end UsecaseAudit
