import Mathlib.Data.List.Find
import UsecaseAudit.Proofs.Utf8Text
import UsecaseAudit.Proofs.Visited
import UsecaseAudit.Source

/-!
# The first fault of a tree

A tree that does not fit the grammar is searched for a fault, down through the
children that are suspect and back up where nothing was found.  The search comes
to the places to which suspect children lead, in preorder, and ends at the first
of them that is a fault or too deep.  So it gives the first such fault, whatever
the flags are, unless a place before that fault lies too deep.

Where a flag marks exactly the nodes that are a fault or have one below them,
no fault is passed over, and the failure of a flagged tree names the line of the
first fault of all.
-/

namespace UsecaseAudit
namespace Concrete

/-!
# Tracked places
-/

/-- Whether every node on the way to a position is suspect, the root apart. -/
def isTracked : Concrete → Position → Bool
  | _, [] => true
  | t, index :: rest => t.children[index]?.any fun c => c.isSuspect && c.isTracked rest

def tracked (t : Concrete) : List Place :=
  t.places.filter fun p => t.isTracked p.position

def firstTracked? (t : Concrete) : Option Place :=
  t.tracked.find? fun p => p.node.isFault

def childTracked (c : Concrete × Nat) : List Place :=
  if c.1.isSuspect then c.1.tracked.map (Place.under [c.2]) else []

theorem filter_childPlaces {t : Concrete} {c : Concrete × Nat} (hc : c ∈ t.children.zipIdx) :
    (childPlaces c).filter (fun p => t.isTracked p.position) = childTracked c := by
  have htracked : ∀ p : Place, t.isTracked (Place.under [c.2] p).position =
      (c.1.isSuspect && c.1.isTracked p.position) := by
    intro p
    show t.isTracked (c.2 :: p.position) = _
    rw [isTracked, List.mem_zipIdx_iff_getElem?.mp hc]
    rfl
  rw [childPlaces, List.filter_map, childTracked]
  cases hsuspect : c.1.isSuspect with
  | true => simp [Function.comp_def, htracked, hsuspect, tracked]
  | false => simp [Function.comp_def, htracked, hsuspect]

theorem tracked_eq_cons (t : Concrete) :
    t.tracked = ⟨[], t⟩ :: t.children.zipIdx.flatMap childTracked := by
  rw [tracked, places_eq_cons, List.filter_cons_of_pos (by rw [isTracked]), innerPlaces,
    List.filter_flatMap]
  exact congrArg _ (List.flatMap_congr fun c hc => filter_childPlaces hc)

/-!
# The search as a scan

The search calls itself on children and falls back to the next child when the
answer is that all is clear.  The scan goes through a list of places instead.
Both end alike because the answers for the children, one after the other, are the
answer for the places of all children in a row.
-/

def scan (levels : Nat) : List Place → FaultSearch
  | [] => .clear
  | p :: rest =>
      if levels ≤ p.position.length then .tooDeep
      else if p.node.isFault then .found p.node
      else scan levels rest

def FaultSearch.orElse : FaultSearch → FaultSearch → FaultSearch
  | .clear, other => other
  | .tooDeep, _ => .tooDeep
  | .found fault, _ => .found fault

theorem searchEach_cons (search : Concrete → FaultSearch) (t : Concrete) (rest : List Concrete) :
    searchEach search (t :: rest) = (search t).orElse (searchEach search rest) := by
  rw [searchEach]
  cases search t with
  | tooDeep => rfl
  | found fault => rfl
  | clear => rfl

theorem scan_append (levels : Nat) (l r : List Place) :
    scan levels (l ++ r) = (scan levels l).orElse (scan levels r) := by
  induction l with
  | nil =>
      rfl
  | cons p l ih =>
      rw [List.cons_append, scan, scan, ih]
      split
      · rfl
      · split
        · rfl
        · rfl

theorem scan_under (levels index : Nat) (l : List Place) :
    scan (levels + 1) (l.map (Place.under [index])) = scan levels l := by
  induction l with
  | nil =>
      rfl
  | cons p l ih =>
      have hdeep : levels + 1 ≤ (Place.under [index] p).position.length ↔
          levels ≤ p.position.length := by
        simp [Place.under]
      rw [List.map_cons, scan, scan, ih]
      exact if_congr hdeep rfl rfl

theorem searchEach_firstFault_eq_scan {levels : Nat}
    (h : ∀ c : Concrete, firstFault levels c = scan levels c.tracked) (children : List Concrete)
    (index : Nat) :
    searchEach (firstFault levels) (children.filter isSuspect) =
      scan (levels + 1) ((children.zipIdx index).flatMap childTracked) := by
  induction children generalizing index with
  | nil =>
      rfl
  | cons c rest ih =>
      rw [List.zipIdx_cons, List.flatMap_cons, scan_append, ← ih, childTracked]
      cases hsuspect : c.isSuspect with
      | true =>
          rw [List.filter_cons_of_pos hsuspect, searchEach_cons, h c, if_pos rfl, scan_under]
      | false =>
          rw [List.filter_cons_of_neg (by simp [hsuspect])]
          simp [scan, FaultSearch.orElse]

theorem firstFault_eq_scan (levels : Nat) (t : Concrete) :
    firstFault levels t = scan levels t.tracked := by
  induction levels generalizing t with
  | zero =>
      rw [firstFault, tracked_eq_cons]
      rfl
  | succ levels ih =>
      have hroot : ¬ levels + 1 ≤ (⟨[], t⟩ : Place).position.length :=
        Nat.not_succ_le_zero levels
      rw [firstFault, tracked_eq_cons, scan, searchEach_firstFault_eq_scan ih t.children 0,
        if_neg hroot]

/-!
# The answer of a search
-/

def upToFault : List Place → List Place
  | [] => []
  | p :: rest => if p.node.isFault then [p] else p :: upToFault rest

/-- Whether the search for a fault stays within a number of levels: it comes to the tracked places
up to the first fault. -/
def SearchFits (levels : Nat) (t : Concrete) : Prop :=
  ∀ p ∈ upToFault t.tracked, p.position.length < levels

instance (levels : Nat) (t : Concrete) : Decidable (t.SearchFits levels) :=
  inferInstanceAs (Decidable (∀ p ∈ upToFault t.tracked, _))

def FaultSearch.ofFault? : Option Place → FaultSearch
  | none => .clear
  | some p => .found p.node

theorem mem_upToFault_head (p : Place) (l : List Place) : p ∈ upToFault (p :: l) := by
  rw [upToFault]
  split
  · exact List.mem_singleton_self p
  · exact List.mem_cons_self

theorem scan_eq (levels : Nat) (l : List Place) :
    scan levels l =
      if ∀ p ∈ upToFault l, p.position.length < levels then
        FaultSearch.ofFault? (l.find? fun p => p.node.isFault)
      else .tooDeep := by
  induction l with
  | nil =>
      rw [if_pos (by simp [upToFault])]
      rfl
  | cons p l ih =>
      by_cases hdeep : levels ≤ p.position.length
      · rw [scan, if_pos hdeep, if_neg]
        intro hall
        exact Nat.not_lt.mpr hdeep (hall p (mem_upToFault_head p l))
      · rw [scan, if_neg hdeep, ih, upToFault, List.find?_cons]
        cases p.node.isFault with
        | true => simp [FaultSearch.ofFault?, Nat.lt_of_not_le hdeep]
        | false => simp [Nat.lt_of_not_le hdeep]

/-- A search gives the first tracked fault unless it goes too deep on the way there. -/
theorem firstFault_eq (levels : Nat) (t : Concrete) :
    firstFault levels t =
      if t.SearchFits levels then FaultSearch.ofFault? t.firstTracked? else .tooDeep := by
  rw [firstFault_eq_scan]
  exact scan_eq levels t.tracked

theorem exists_searchFits (t : Concrete) : ∃ enough, ∀ levels, enough ≤ levels →
    t.SearchFits levels := by
  have hbound : ∀ l : List Place, ∃ enough, ∀ p ∈ l, p.position.length < enough := by
    intro l
    induction l with
    | nil =>
        exact ⟨0, fun p hp => absurd hp List.not_mem_nil⟩
    | cons q l ih =>
        rcases ih with ⟨enough, henough⟩
        refine ⟨max enough (q.position.length + 1), ?_⟩
        intro p hp
        rcases List.mem_cons.mp hp with rfl | hp
        · omega
        · have hlt := henough p hp
          omega
  rcases hbound (upToFault t.tracked) with ⟨enough, henough⟩
  refine ⟨enough, ?_⟩
  intro levels hle p hp
  exact Nat.lt_of_lt_of_le (henough p hp) hle

/-!
# Flags that a grammar sets
-/

/-- Flags that mark exactly the nodes that are a fault or have one below them. -/
def IsFlaggedRight (t : Concrete) : Prop :=
  ∀ p ∈ t.places, p.node.label.flagged = true ↔ ∃ q ∈ p.node.places, q.node.isFault = true

instance (t : Concrete) : Decidable t.IsFlaggedRight :=
  inferInstanceAs (Decidable (∀ p ∈ t.places, _ ↔ _))

theorem mem_places_self (t : Concrete) : ⟨[], t⟩ ∈ t.places :=
  mem_places_iff.mpr rfl

theorem isFlaggedRight_of_child {t c : Concrete} {index : Nat} (h : t.IsFlaggedRight)
    (hc : t.children[index]? = some c) : c.IsFlaggedRight := by
  intro p hp
  have hat : t.at? (index :: p.position) = some p.node := by
    rw [at?, hc]
    exact mem_places_iff.mp hp
  exact h ⟨index :: p.position, p.node⟩ (mem_places_iff.mpr hat)

theorem isTracked_of_isFault {t n : Concrete} {position : Position} (h : t.IsFlaggedRight)
    (hat : t.at? position = some n) (hfault : n.isFault = true) :
    t.isTracked position = true := by
  induction position generalizing t with
  | nil =>
      rw [isTracked]
  | cons index rest ih =>
      rw [at?] at hat
      rcases Option.bind_eq_some_iff.mp hat with ⟨c, hc, hrest⟩
      have hright := isFlaggedRight_of_child h hc
      have hflagged : c.label.flagged = true :=
        (hright _ c.mem_places_self).mpr ⟨⟨rest, n⟩, mem_places_iff.mpr hrest, hfault⟩
      rw [isTracked, hc, Option.any_some, isSuspect, hflagged]
      exact ih hright hrest

theorem firstTracked?_of_isFlaggedRight {t : Concrete} (h : t.IsFlaggedRight) :
    t.firstTracked? = t.places.find? fun p => p.node.isFault := by
  rw [firstTracked?, tracked, List.find?_filter]
  refine List.find?_congr ?_
  intro p hp
  cases hfault : p.node.isFault with
  | true =>
      have htracked := isTracked_of_isFault h (mem_places_iff.mp hp) hfault
      simp [htracked]
  | false =>
      simp

theorem exists_firstFault_of_flagged {t : Concrete} (h : t.IsFlaggedRight)
    (hflagged : t.label.flagged = true) :
    ∃ p, t.places.find? (fun p => p.node.isFault) = some p := by
  have hfault := (h _ t.mem_places_self).mp hflagged
  exact Option.isSome_iff_exists.mp (List.find?_isSome.mpr hfault)

end Concrete

/-!
# The failure of a flagged tree
-/

namespace Source

theorem brokenFailure_eq (stack : Stack) (path : String) (tree : Concrete) :
    brokenFailure stack path tree =
      if tree.SearchFits stack.room then
        { path := path
          cause := .brokenCode
          line := tree.firstTracked?.map fun p => p.node.line }
      else { path := path, cause := .tooDeep } := by
  rw [brokenFailure, Concrete.firstFault_eq]
  by_cases hfits : tree.SearchFits stack.room
  · rw [if_pos hfits, if_pos hfits]
    cases tree.firstTracked? with
    | none => rfl
    | some p => rfl
  · rw [if_neg hfits, if_neg hfits]

theorem read_of_flagged {stack : Stack} (path : String) {source : Source}
    (htext : Utf8.IsText source.bytes) (hflagged : source.tree.label.flagged = true) :
    source.read stack path = .error (brokenFailure stack path source.tree) := by
  rw [read, Utf8.firstFault_eq_none_iff.mpr htext]
  exact if_pos hflagged

end Source

namespace Concrete

/-- A search of enough levels gives the first fault in preorder to which suspect children lead, and
is clear when there is none.  A search of fewer levels gives the same unless it goes too deep on the
way.  Where the flags are right, the failure of a flagged tree has the line of its first fault. -/
theorem firstFault_exact (t : Concrete) :
    (∃ enough, ∀ levels, enough ≤ levels → t.SearchFits levels) ∧
    (∀ levels, t.SearchFits levels → firstFault levels t =
      .ofFault? (t.places.find? fun p => t.isTracked p.position && p.node.isFault)) ∧
    (∀ levels, ¬ t.SearchFits levels → firstFault levels t = .tooDeep) ∧
    ∀ (stack : Stack) (path : String) (bytes : List UInt8), Utf8.IsText bytes →
      t.IsFlaggedRight → t.label.flagged = true → t.SearchFits stack.room →
      ∃ p, t.places.find? (fun p => p.node.isFault) = some p ∧
        Source.read stack path ⟨bytes, t⟩ =
          .error { path := path, cause := .brokenCode, line := some (p.node.label.row + 1) } := by
  refine ⟨exists_searchFits t, ?_, ?_, ?_⟩
  · intro levels hfits
    rw [firstFault_eq, if_pos hfits, firstTracked?, tracked, List.find?_filter]
    simp
  · intro levels hdeep
    rw [firstFault_eq, if_neg hdeep]
  · intro stack path bytes htext hright hflagged hfits
    rcases exists_firstFault_of_flagged hright hflagged with ⟨p, hp⟩
    refine ⟨p, hp, ?_⟩
    rw [Source.read_of_flagged path htext hflagged, Source.brokenFailure_eq, if_pos hfits,
      firstTracked?_of_isFlaggedRight hright, hp]
    rfl

/-- The tree of `a` and `if b`, a broken `(` and an `end` that is missing, on rows of their own. -/
def brokenCondition : Concrete :=
  let node kind missing flagged start stop row children : Concrete :=
    ⟨⟨kind, none, true, missing, flagged, start, stop, row⟩, children⟩
  node "program" false true 0 8 0 [
    node "identifier" false false 0 1 0 [],
    node "if" false true 2 8 1 [
      node "identifier" false false 5 6 1 [],
      node "then" false true 7 8 2 [node "ERROR" false true 7 8 2 []],
      node "end" true true 8 8 2 []]]

theorem firstFault_brokenCondition :
    Utf8.IsText (Utf8.encode "a\nif b\n(") ∧ brokenCondition.IsFlaggedRight ∧
      brokenCondition.label.flagged = true ∧ brokenCondition.SearchFits 4 ∧
      ¬ brokenCondition.SearchFits 3 ∧ firstFault 3 brokenCondition = .tooDeep ∧
      Source.read ⟨4, 0, 0⟩ "a.rb" ⟨Utf8.encode "a\nif b\n(", brokenCondition⟩ =
        .error { path := "a.rb", cause := .brokenCode, line := some 3 } := by
  have htext : Utf8.IsText (Utf8.encode "a\nif b\n(") :=
    ⟨"a\nif b\n(".toList, by decide +kernel⟩
  have hright : brokenCondition.IsFlaggedRight := by
    decide +kernel
  have hfits : brokenCondition.SearchFits 4 := by
    decide +kernel
  have hdeep : ¬ brokenCondition.SearchFits 3 := by
    decide +kernel
  rcases firstFault_exact brokenCondition with ⟨-, -, htooDeep, hread⟩
  rcases hread ⟨4, 0, 0⟩ "a.rb" _ htext hright rfl hfits with ⟨p, hp, hfailure⟩
  have hrows : (brokenCondition.places.find? fun p => p.node.isFault).map
      (fun p => p.node.label.row) = some 2 := by
    decide +kernel
  rw [hp] at hrows
  have hrow : p.node.label.row = 2 := Option.some.inj hrows
  rw [hrow] at hfailure
  exact ⟨htext, hright, rfl, hfits, hdeep, htooDeep 3 hdeep, hfailure⟩

end Concrete
end UsecaseAudit
