import UsecaseAudit.Delegation.Bounded
import UsecaseAudit.Proofs.CodeShape

/-!
# The search for a usecase

A search keeps the trees that wait to be looked at, takes one of them and puts
the children that it goes on to among the others.  However it chooses, it comes
to an end.  Its answer is whether a call that names a usecase can be reached
through children, of an assignment only through the last; and it is the same in
whatever order the trees are taken.

There is one exception.  A call whose receiver lies in too many scopes is an
obstacle: a search that comes upon it gives no answer.  Where an obstacle and a
usecase can both be reached, it depends on the order which of them is met first.
-/

namespace UsecaseAudit
namespace Code

open Relation

/-!
# Qualified names within a bound
-/

def nameLevels : Code → Nat
  | { scope := none, .. } => 1
  | c@{ scope := some outer, .. } => if c.constantName?.isSome then nameLevels outer + 1 else 1

theorem nameLevels_of_scope_none {c : Code} (h : c.scope = none) : c.nameLevels = 1 := by
  rcases c with ⟨kind, line, name, value, receiver, arguments, block, scope, children⟩
  cases h
  rw [nameLevels]

theorem nameLevels_of_scope_some {c outer : Code} (h : c.scope = some outer) :
    c.nameLevels = if c.constantName?.isSome then outer.nameLevels + 1 else 1 := by
  rcases c with ⟨kind, line, name, value, receiver, arguments, block, scope, children⟩
  cases h
  rw [nameLevels]

theorem nameLevels_pos (c : Code) : 0 < c.nameLevels := by
  cases hscope : c.scope with
  | none =>
      rw [nameLevels_of_scope_none hscope]
      exact Nat.one_pos
  | some outer =>
      rw [nameLevels_of_scope_some hscope]
      split
      · exact Nat.succ_pos _
      · exact Nat.one_pos

theorem nameWithin_eq (levels : Nat) (c : Code) :
    c.nameWithin levels = if c.nameLevels ≤ levels then some c.qualifiedName else none := by
  induction levels generalizing c with
  | zero =>
      rw [nameWithin, if_neg (Nat.not_le_of_gt c.nameLevels_pos)]
  | succ levels ih =>
      rw [nameWithin, qualifiedName_eq]
      cases hscope : c.scope with
      | none =>
          rw [nameLevels_of_scope_none hscope, if_pos (Nat.le_add_left 1 levels)]
          cases c.constantName? with
          | none => rfl
          | some name => rfl
      | some outer =>
          rw [nameLevels_of_scope_some hscope]
          cases c.constantName? with
          | none =>
              rw [Option.isSome_none, if_neg Bool.false_ne_true, if_pos (Nat.le_add_left 1 levels)]
          | some name =>
              rw [Option.isSome_some, if_pos rfl]
              simp only [Nat.add_le_add_iff_right, ih, Option.bind_some]
              split
              · rfl
              · rfl

/-!
# What one node says
-/

structure IsUsecaseCall (c : Code) : Prop where
  kind : c.kind = .call
  refers : Naming.refersToUsecase c.name = true ∨ ∃ r, c.receiver = some r ∧
    r.kind = .constantRef ∧ Naming.refersToUsecase r.qualifiedName = true

/-- A call that does not name a usecase itself, and whose receiver lies in too many scopes. -/
structure IsObstacle (levels : Nat) (c : Code) : Prop where
  kind : c.kind = .call
  name : Naming.refersToUsecase c.name = false
  receiver : ∃ r, c.receiver = some r ∧ r.kind = .constantRef ∧ levels < r.nameLevels

theorem receiverRefers_iff {c : Code} :
    c.receiverRefers = true ↔ ∃ r, c.receiver = some r ∧ r.kind = .constantRef ∧
      Naming.refersToUsecase r.qualifiedName = true := by
  rw [receiverRefers]
  cases c.receiver with
  | none => simp
  | some r => simp

theorem namesUsecase_iff {c : Code} : c.namesUsecase = true ↔ c.IsUsecaseCall := by
  rw [namesUsecase, Bool.and_eq_true, Bool.or_eq_true, beq_iff_eq, receiverRefers_iff]
  exact ⟨fun h => ⟨h.left, h.right⟩, fun h => ⟨h.kind, h.refers⟩⟩

instance : DecidablePred IsUsecaseCall :=
  fun _ => decidable_of_iff _ namesUsecase_iff

theorem receiverRefers?_eq (levels : Nat) (c : Code) :
    (c.receiverRefers? levels = none ∧ ∃ r, c.receiver = some r ∧ r.kind = .constantRef ∧
      levels < r.nameLevels) ∨
    (c.receiverRefers? levels = some c.receiverRefers ∧ ∀ r, c.receiver = some r →
      r.kind = .constantRef → r.nameLevels ≤ levels) := by
  rw [receiverRefers?, receiverRefers]
  cases c.receiver with
  | none =>
      refine Or.inr ⟨rfl, ?_⟩
      intro r hr
      cases hr
  | some r =>
      dsimp only
      rw [nameWithin_eq]
      by_cases hkind : r.kind = .constantRef
      · by_cases hlevels : r.nameLevels ≤ levels
        · right
          rw [if_pos hkind, if_pos hlevels, hkind]
          refine ⟨rfl, fun s hs _ => ?_⟩
          rw [← Option.some.inj hs]
          exact hlevels
        · left
          rw [if_pos hkind, if_neg hlevels]
          exact ⟨rfl, r, rfl, hkind, Nat.lt_of_not_le hlevels⟩
      · right
        rw [if_neg hkind, beq_eq_false_iff_ne.mpr hkind]
        refine ⟨rfl, fun s hs hs' => ?_⟩
        rw [← Option.some.inj hs] at hs'
        exact absurd hs' hkind

theorem namesUsecase?_eq (levels : Nat) (c : Code) :
    (c.namesUsecase? levels = none ∧ c.IsObstacle levels) ∨
      (c.namesUsecase? levels = some c.namesUsecase ∧ ¬ c.IsObstacle levels) := by
  rw [namesUsecase?, namesUsecase]
  by_cases hkind : c.kind = .call
  · rw [if_pos hkind, hkind]
    cases hname : Naming.refersToUsecase c.name with
    | true =>
        exact Or.inr ⟨rfl, fun h => absurd (hname.symm.trans h.name) (by decide)⟩
    | false =>
        rcases receiverRefers?_eq levels c with ⟨hnone, hdeep⟩ | ⟨hsome, hshallow⟩
        · exact Or.inl ⟨hnone, ⟨hkind, hname, hdeep⟩⟩
        · refine Or.inr ⟨hsome, ?_⟩
          rintro ⟨_, _, r, hr, hconstant, hlt⟩
          exact absurd (hshallow r hr hconstant) (Nat.not_le_of_gt hlt)
  · rw [if_neg hkind, beq_eq_false_iff_ne.mpr hkind]
    exact Or.inr ⟨rfl, fun h => hkind h.kind⟩

/-!
# Where a search goes
-/

/-- The steps of a search: from an assignment to its last child, else to every child. -/
inductive Leads (c d : Code) : Prop where
  | child : c.kind ≠ .assignment → d ∈ c.children → Leads c d
  | value : c.kind = .assignment → c.children.getLast? = some d → Leads c d

theorem mem_searched_iff {c d : Code} : d ∈ c.searched ↔ Leads c d := by
  rw [searched]
  constructor
  · intro h
    split at h
    · exact Leads.value ‹_› (Option.mem_toList.mp h)
    · exact Leads.child ‹_› h
  · intro h
    cases h with
    | child hkind hd =>
        rw [if_neg hkind]
        exact hd
    | value hkind hd =>
        rw [if_pos hkind]
        exact Option.mem_toList.mpr hd

def Meets (P : Code → Prop) (trees : List Code) : Prop :=
  ∃ c ∈ trees, ∃ d, ReflTransGen Leads c d ∧ P d

section Meets

variable {P : Code → Prop}

theorem not_meets_nil : ¬ Meets P [] := by
  rintro ⟨c, hc, _⟩
  cases hc

theorem meets_append {xs ys : List Code} : Meets P (xs ++ ys) ↔ Meets P xs ∨ Meets P ys := by
  simp only [Meets, List.mem_append, or_and_right, exists_or]

theorem meets_of_perm {xs ys : List Code} (h : xs.Perm ys) : Meets P xs ↔ Meets P ys := by
  simp only [Meets, h.mem_iff]

theorem meets_cons {c : Code} {rest : List Code} :
    Meets P (c :: rest) ↔ P c ∨ Meets P (c.searched ++ rest) := by
  have hfirst : (∃ d, ReflTransGen Leads c d ∧ P d) ↔ P c ∨ Meets P c.searched := by
    constructor
    · rintro ⟨d, hreach, hd⟩
      rcases ReflTransGen.cases_head hreach with rfl | ⟨e, hstep, hreach⟩
      · exact Or.inl hd
      · exact Or.inr ⟨e, mem_searched_iff.mpr hstep, d, hreach, hd⟩
    · rintro (hc | ⟨e, he, d, hreach, hd⟩)
      · exact ⟨c, ReflTransGen.refl, hc⟩
      · exact ⟨d, ReflTransGen.head (mem_searched_iff.mp he) hreach, hd⟩
  rw [meets_append, ← or_assoc, ← hfirst]
  simp only [Meets, List.mem_cons, or_and_right, exists_or, exists_eq_left]

end Meets

theorem anyDelegates_iff_meets (stack : List Code) :
    anyDelegates stack = true ↔ Meets IsUsecaseCall stack := by
  induction stack using anyDelegates.induct with
  | case1 =>
      rw [anyDelegates]
      exact iff_of_false Bool.false_ne_true not_meets_nil
  | case2 c rest ih =>
      rw [anyDelegates, Bool.or_eq_true, namesUsecase_iff, ih, meets_cons]

/-!
# Searches in any order
-/

/-- A search takes a tree that is neither a usecase call nor an obstacle from those that wait, and
goes on with the others and with the children that it leads to, in any order. -/
inductive Takes (levels : Nat) (pending more : List Code) : Prop where
  | take (c : Code) (rest : List Code) : pending.Perm (c :: rest) →
      c.namesUsecase? levels = some false → more.Perm (c.searched ++ rest) →
      Takes levels pending more

/-- The answers to which searches come that take the trees in any order. -/
inductive Answers (levels : Nat) : List Code → Option Bool → Prop where
  | clear : Answers levels [] (some false)
  | found {pending rest : List Code} (c : Code) : pending.Perm (c :: rest) →
      c.namesUsecase? levels = some true → Answers levels pending (some true)
  | stuck {pending rest : List Code} (c : Code) : pending.Perm (c :: rest) →
      c.namesUsecase? levels = none → Answers levels pending none
  | next {pending more : List Code} {answer : Option Bool} :
      Takes levels pending more → Answers levels more answer → Answers levels pending answer

section

variable {levels : Nat}

theorem Takes.sizeOf_lt {pending more : List Code} (h : Takes levels pending more) :
    sizeOf more < sizeOf pending := by
  rcases h with ⟨c, rest, hpending, _, hmore⟩
  have happend := sizeOf_append c.searched rest
  have hsearched := sizeOf_searched_lt c
  rw [sizeOf_perm hpending, sizeOf_perm hmore, List.cons.sizeOf_spec]
  omega

/-- No search goes on for ever. -/
theorem wellFounded_takes : WellFounded fun more pending => Takes levels pending more :=
  Subrelation.wf Takes.sizeOf_lt (measure (sizeOf : List Code → Nat)).wf

theorem answers_anyDelegates? (stack : List Code) :
    Answers levels stack (anyDelegates? levels stack) := by
  fun_induction anyDelegates? levels stack with
  | case1 =>
      exact Answers.clear
  | case2 c rest hnone =>
      exact Answers.stuck c (List.Perm.refl _) hnone
  | case3 c rest htrue =>
      exact Answers.found c (List.Perm.refl _) htrue
  | case4 c rest hfalse ih =>
      exact Answers.next (Takes.take c rest (List.Perm.refl _) hfalse
        (c.searched.reverse_perm.append_right rest)) ih

def Speaks (levels : Nat) (pending : List Code) : Option Bool → Prop
  | some true => Meets IsUsecaseCall pending
  | some false => ¬ Meets IsUsecaseCall pending ∧ ¬ Meets (IsObstacle levels) pending
  | none => Meets (IsObstacle levels) pending

theorem speaks_of_perm {xs ys : List Code} (h : xs.Perm ys) (answer : Option Bool) :
    Speaks levels xs answer ↔ Speaks levels ys answer := by
  unfold Speaks
  rw [meets_of_perm h, meets_of_perm h]

theorem Takes.speaks {pending more : List Code} (h : Takes levels pending more)
    {answer : Option Bool} (hmore : Speaks levels more answer) : Speaks levels pending answer := by
  rcases h with ⟨c, rest, hpending, hfalse, hperm⟩
  rw [speaks_of_perm hperm] at hmore
  rw [speaks_of_perm hpending]
  rcases namesUsecase?_eq levels c with ⟨hnone, _⟩ | ⟨hsome, hobstacle⟩
  · rw [hnone] at hfalse
    cases hfalse
  · have hcall : ¬ c.IsUsecaseCall := by
      rw [← namesUsecase_iff, Option.some.inj (hsome.symm.trans hfalse)]
      exact Bool.false_ne_true
    unfold Speaks at hmore ⊢
    rw [meets_cons, meets_cons, or_iff_right hcall, or_iff_right hobstacle]
    exact hmore

/-- Every answer is true, in whatever order the trees are taken. -/
theorem Answers.speaks {pending : List Code} {answer : Option Bool}
    (h : Answers levels pending answer) : Speaks levels pending answer := by
  induction h with
  | clear =>
      exact ⟨not_meets_nil, not_meets_nil⟩
  | found c hperm htrue =>
      rw [speaks_of_perm hperm]
      rcases namesUsecase?_eq levels c with ⟨hnone, _⟩ | ⟨hsome, _⟩
      · rw [hnone] at htrue
        cases htrue
      · have hcall := Option.some.inj (hsome.symm.trans htrue)
        exact meets_cons.mpr (Or.inl (namesUsecase_iff.mp hcall))
  | stuck c hperm hstuck =>
      rw [speaks_of_perm hperm]
      rcases namesUsecase?_eq levels c with ⟨_, hobstacle⟩ | ⟨hsome, _⟩
      · exact meets_cons.mpr (Or.inl hobstacle)
      · rw [hsome] at hstuck
        cases hstuck
  | next hstep _ ih =>
      exact hstep.speaks ih

/-- Without an obstacle every search comes to the answer of the search without a bound. -/
theorem Answers.eq_of_no_obstacle {pending : List Code} {answer : Option Bool}
    (h : Answers levels pending answer) (hfree : ¬ Meets (IsObstacle levels) pending) :
    answer = some (anyDelegates pending) := by
  have hspeaks := h.speaks
  cases answer with
  | none =>
      exact absurd hspeaks hfree
  | some found =>
      cases found with
      | true =>
          rw [(anyDelegates_iff_meets pending).mpr hspeaks]
      | false =>
          have hfalse := mt (anyDelegates_iff_meets pending).mp hspeaks.left
          rw [Bool.eq_false_iff.mpr hfalse]

theorem delegates?_of_no_obstacle {code : Option Code}
    (hfree : ¬ Meets (IsObstacle levels) code.toList) :
    delegates? levels code = some (delegates code) :=
  (answers_anyDelegates? code.toList).eq_of_no_obstacle hfree

end

/-- In whatever order the trees are taken, a search comes to an end with a true answer: that a
usecase call can be reached, that neither a usecase call nor an obstacle can, or, if it gives none,
that an obstacle can.  Where no obstacle can be reached, all searches give the same answer, and it
is whether a usecase call can be reached. -/
theorem search_exact (levels : Nat) (node : Option Code) :
    WellFounded (fun more pending => Takes levels pending more) ∧
    Answers levels node.toList (delegates? levels node) ∧
    (∀ answer, Answers levels node.toList answer → Speaks levels node.toList answer) ∧
    (¬ Meets (IsObstacle levels) node.toList → ∀ answer, Answers levels node.toList answer →
      answer = delegates? levels node ∧
        (answer = some true ↔ Meets IsUsecaseCall node.toList) ∧
        (answer = some false ↔ ¬ Meets IsUsecaseCall node.toList)) ∧
    delegates? levels none = some false := by
  refine ⟨wellFounded_takes, answers_anyDelegates? node.toList, fun _ h => h.speaks, ?_, ?_⟩
  · intro hfree answer hanswer
    rw [hanswer.eq_of_no_obstacle hfree, delegates?_of_no_obstacle hfree,
      ← anyDelegates_iff_meets, Bool.not_eq_true]
    exact ⟨rfl, Option.some_inj, Option.some_inj⟩
  · rw [delegates?, Option.toList_none, anyDelegates?]

/-!
# Code built by hand
-/

theorem mem_walk_of_reaches {c d : Code} (h : ReflTransGen Leads c d) : d ∈ c.walk := by
  induction h with
  | refl =>
      exact mem_walk_self c
  | tail _ hstep hmem =>
      refine mem_walk_trans hmem (mem_walk_of_mem_children ?_)
      cases hstep with
      | child _ hd => exact hd
      | value _ hd => exact List.mem_of_getLast? hd

theorem isObstacle_iff {levels : Nat} {c : Code} :
    c.IsObstacle levels ↔ c.namesUsecase? levels = none := by
  rcases namesUsecase?_eq levels c with ⟨hnone, hobstacle⟩ | ⟨hsome, hobstacle⟩
  · exact iff_of_true hobstacle hnone
  · rw [hsome]
    exact iff_of_false hobstacle (Option.some_ne_none _)

def nested : Nat → Code
  | 0 => { kind := .constantRef, name := some "A" }
  | n + 1 => { kind := .constantRef, name := some "A", scope := some (nested n) }

theorem nameLevels_nested (n : Nat) : (nested n).nameLevels = n + 1 := by
  induction n with
  | zero =>
      rfl
  | succ n ih =>
      have hscope : (nested (n + 1)).scope = some (nested n) := rfl
      have hname : (nested (n + 1)).constantName? = some "A" := by
        rw [constantName?]
        rfl
      rw [nameLevels_of_scope_some hscope, hname, ih]
      rfl

def namedCall : Code :=
  { kind := .call, name := some "run_usecase" }

def deepCall (levels : Nat) : Code :=
  { kind := .call, name := some "call", receiver := some (nested levels) }

/-- A usecase call beside an obstacle, which the search of a stack comes upon first. -/
def crossing (levels : Nat) : Code :=
  { kind := .other, children := [namedCall, deepCall levels] }

/-- A call on a constant that is not among its children, behind a target that is not searched. -/
def looseReceiver : Code :=
  { kind := .assignment
    children := [namedCall, {
      kind := .call
      receiver := some {
        kind := .constantRef, name := some "RunUsecase", scope := some (nested 0) } }] }

theorem namesUsecase?_deepCall (levels : Nat) :
    (deepCall levels).namesUsecase? levels = none := by
  have hname : Naming.refersToUsecase (some "call") = false := by
    decide +kernel
  have hkind : (nested levels).kind = .constantRef := by
    cases levels with
    | zero => rfl
    | succ n => rfl
  rw [← isObstacle_iff]
  refine ⟨rfl, hname, nested levels, rfl, hkind, ?_⟩
  rw [nameLevels_nested]
  exact Nat.lt_succ_self _

theorem search_exact_handBuilt :
    ¬ Meets (IsObstacle 5) [looseReceiver] ∧
      (∀ answer, Answers 5 [looseReceiver] answer → answer = some true) ∧
      delegates? 5 (some (crossing 5)) = none ∧ Answers 5 [crossing 5] (some true) := by
  have hfree : ¬ Meets (IsObstacle 5) [looseReceiver] := by
    rintro ⟨c, hc, d, hreach, hd⟩
    have hnone : ∀ d ∈ looseReceiver.walk, d.namesUsecase? 5 ≠ none := by
      decide +kernel
    rw [List.mem_singleton.mp hc] at hreach
    exact hnone d (mem_walk_of_reaches hreach) (isObstacle_iff.mp hd)
  have hcall : Meets IsUsecaseCall [looseReceiver] := by
    rw [← anyDelegates_iff_meets]
    decide +kernel
  refine ⟨hfree, ?_, ?_, ?_⟩
  · intro answer hanswer
    have hexact := (search_exact 5 (some looseReceiver)).right.right.right.left hfree answer hanswer
    exact hexact.right.left.mpr hcall
  · have hstack : delegates? 5 (some (crossing 5)) = anyDelegates? 5 [deepCall 5, namedCall] := by
      rw [delegates?, Option.toList_some, anyDelegates?]
      rfl
    rw [hstack, anyDelegates?, namesUsecase?_deepCall]
  · have hother : (crossing 5).namesUsecase? 5 = some false := rfl
    have hnamed : namedCall.namesUsecase? 5 = some true := by
      decide +kernel
    exact Answers.next (Takes.take (crossing 5) [] (List.Perm.refl _) hother (List.Perm.refl _))
      (Answers.found namedCall (List.Perm.refl _) hnamed)

end Code
end UsecaseAudit
