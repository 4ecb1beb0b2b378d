import UsecaseAudit.Proofs.SpecConvention
import UsecaseAudit.Proofs.UsecaseSearch

/-!
# Qualified names and their segments

The qualified name of a constant joins the names of the constants around it, from
the outermost to the innermost.  The constants are those of the longest chain of
scopes that are constants with a name.

A usecase is looked for in the joined name.  That is the same as looking for it in
every segment, because what is looked for has no colon in it and so never lies
across the place where two segments are joined.

A name is given unless the chain is longer than a name may be put together from.
-/

namespace UsecaseAudit

/-!
# Parts of joined texts
-/

namespace Affix

theorem occursIn_iff {part text : List Char} : occursIn part text = true ↔ part <:+: text := by
  induction text with
  | nil =>
      rw [occursIn, List.isEmpty_iff, List.infix_nil]
  | cons c cs ih =>
      rw [occursIn, Bool.or_eq_true, ih, List.isPrefixOf_iff_prefix, List.infix_cons_iff]

theorem occurs_iff {text part : String} :
    occurs text part = true ↔ ∃ front rest, text = front ++ part ++ rest := by
  unfold occurs
  rw [occursIn_iff]
  constructor
  · rintro ⟨front, rest, htext⟩
    refine ⟨String.ofList front, String.ofList rest, ?_⟩
    rw [← String.toList_inj, String.toList_append, String.toList_append, String.toList_ofList,
      String.toList_ofList, htext]
  · rintro ⟨front, rest, rfl⟩
    exact ⟨front.toList, rest.toList, by rw [String.toList_append, String.toList_append]⟩

section

variable {mark : Char} {part first second : List Char}

theorem suffix_append_mark (h : mark ∉ part) :
    part <:+ first ++ mark :: second ↔ part <:+ second := by
  constructor
  · rintro ⟨front, hfront⟩
    rcases List.append_eq_append_iff.mp hfront with ⟨more, _, hpart⟩ | ⟨more, _, hmore⟩
    · exact absurd (hpart ▸ List.mem_append_right more List.mem_cons_self) h
    · cases more with
      | nil =>
          rw [List.nil_append] at hmore
          exact absurd (hmore ▸ List.mem_cons_self) h
      | cons c more =>
          exact ⟨more, (List.cons.inj hmore).right.symm⟩
  · intro hsecond
    exact hsecond.trans ⟨first ++ [mark], List.append_cons _ _ _ |>.symm⟩

theorem infix_append_mark (h : mark ∉ part) :
    part <:+: first ++ mark :: second ↔ part <:+: first ∨ part <:+: second := by
  constructor
  · rintro ⟨front, rest, hwhole⟩
    rcases List.append_eq_append_iff.mp hwhole with ⟨more, hfirst, _⟩ | ⟨more, hfront, hmore⟩
    · exact Or.inl ⟨front, more, hfirst.symm⟩
    · cases more with
      | nil =>
          rw [List.append_nil] at hfront
          exact Or.inl (hfront ▸ (List.suffix_append front part).isInfix)
      | cons c more =>
          rcases List.cons.inj hmore with ⟨rfl, rfl⟩
          have hsuffix := (suffix_append_mark h).mp ⟨front, hfront⟩
          exact Or.inr (hsuffix.isInfix.trans (List.prefix_append more rest).isInfix)
  · rintro (hfirst | hsecond)
    · exact hfirst.trans (List.prefix_append first _).isInfix
    · exact hsecond.trans ⟨first ++ [mark], [], by rw [List.append_nil, ← List.append_cons]⟩

end

theorem toList_joined (path name : String) :
    (path ++ "::" ++ name).toList = path.toList ++ ':' :: ([] ++ ':' :: name.toList) := by
  rw [String.toList_append, String.toList_append, List.append_assoc]
  rfl

section

variable {part : String}

theorem ends_joined (h : ':' ∉ part.toList) (path name : String) :
    ends (path ++ "::" ++ name) part = ends name part := by
  rw [Bool.eq_iff_iff, ends, ends, List.isSuffixOf_iff_suffix, List.isSuffixOf_iff_suffix,
    toList_joined, suffix_append_mark h, suffix_append_mark h]

theorem occurs_joined (h : ':' ∉ part.toList) (path name : String) :
    occurs (path ++ "::" ++ name) part = (occurs path part || occurs name part) := by
  have hnil : part.toList <:+: [] → part.toList <:+: name.toList := by
    intro hinfix
    rw [List.infix_nil.mp hinfix]
    exact List.nil_infix
  rw [Bool.eq_iff_iff, Bool.or_eq_true, occurs, occurs, occurs, occursIn_iff, occursIn_iff,
    occursIn_iff, toList_joined, infix_append_mark h, infix_append_mark h, or_iff_right_of_imp hnil]

end

end Affix

namespace Naming

theorem refersToUsecase_iff {name : String} :
    refersToUsecase (some name) = true ↔
      Affix.ends name "usecase" = true ∨ Affix.occurs name "Usecase" = true := by
  unfold refersToUsecase
  dsimp only
  split
  · next hempty =>
    rw [hempty]
    decide
  · rw [Bool.or_eq_true]

theorem ends_intercalate {segments : List String} (h : segments ≠ []) :
    Affix.ends ("::".intercalate segments) "usecase" = true ↔
      ∃ last, segments.getLast? = some last ∧ Affix.ends last "usecase" = true := by
  rcases List.eq_nil_or_concat' segments with rfl | ⟨front, last, rfl⟩
  · exact absurd rfl h
  · rw [List.getLast?_concat]
    simp only [Option.some_inj, exists_eq_left']
    by_cases hfront : front = []
    · rw [hfront, List.nil_append, String.intercalate_singleton]
    · rw [String.intercalate_append_of_ne_nil hfront (List.cons_ne_nil _ _),
        String.intercalate_singleton, Affix.ends_joined (by decide)]

theorem occurs_intercalate {segments : List String} (h : segments ≠ []) :
    Affix.occurs ("::".intercalate segments) "Usecase" = true ↔
      ∃ segment ∈ segments, Affix.occurs segment "Usecase" = true := by
  induction segments with
  | nil =>
      exact absurd rfl h
  | cons first rest ih =>
      by_cases hrest : rest = []
      · simp [hrest]
      · rw [String.intercalate_cons_of_ne_nil hrest, Affix.occurs_joined (by decide),
          Bool.or_eq_true, ih hrest]
        simp only [List.mem_cons, exists_eq_or_imp]

/-- A joined name refers to a usecase when its last segment ends in `usecase` or some segment
holds `Usecase`. -/
theorem refersToUsecase_intercalate {segments : List String} (h : segments ≠ []) :
    refersToUsecase (some ("::".intercalate segments)) = true ↔
      (∃ front, segments.getLast? = some (front ++ "usecase")) ∨
        ∃ front rest, front ++ "Usecase" ++ rest ∈ segments := by
  rw [refersToUsecase_iff, ends_intercalate h, occurs_intercalate h]
  simp only [Affix.ends_iff, Affix.occurs_iff]
  constructor
  · rintro (⟨_, hlast, front, rfl⟩ | ⟨_, hmem, front, rest, rfl⟩)
    · exact Or.inl ⟨front, hlast⟩
    · exact Or.inr ⟨front, rest, hmem⟩
  · rintro (⟨front, hlast⟩ | ⟨front, rest, hmem⟩)
    · exact Or.inl ⟨_, hlast, front, rfl⟩
    · exact Or.inr ⟨_, hmem, front, rest, rfl⟩

end Naming

/-!
# Chains of scopes
-/

namespace Code

def IsNamedConstant (c : Code) : Prop :=
  c.kind = .constantRef ∧ ∃ name, c.name = some name ∧ name ≠ ""

/-- Named constants from a node outwards, each the scope of the one before. -/
structure IsScopeChain (c : Code) (nodes : List Code) : Prop where
  first : nodes.head? = some c
  steps : nodes.IsChain fun inner outer => inner.scope = some outer
  named : ∀ d ∈ nodes, d.IsNamedConstant

def IsLongestChain (c : Code) (nodes : List Code) : Prop :=
  c.IsScopeChain nodes ∧ ∀ others, c.IsScopeChain others → others.length ≤ nodes.length

theorem constantName?_eq_some_iff {c : Code} {name : String} :
    c.constantName? = some name ↔ c.kind = .constantRef ∧ c.name = some name ∧ name ≠ "" := by
  unfold constantName?
  by_cases hkind : c.kind = .constantRef
  · rw [if_pos hkind]
    cases c.name with
    | none =>
        simp
    | some found =>
        by_cases hempty : found = ""
        · simp only [hempty, if_true, Option.some_inj]
          constructor
          · intro h
            cases h
          · rintro ⟨_, rfl, hne⟩
            exact absurd rfl hne
        · simp only [hempty, if_false, hkind, Option.some_inj, true_and]
          exact ⟨fun h => ⟨h, h ▸ hempty⟩, fun h => h.left⟩
  · simp [hkind]

theorem isNamedConstant_iff {c : Code} : c.IsNamedConstant ↔ c.constantName?.isSome = true := by
  rw [Option.isSome_iff_exists]
  simp only [constantName?_eq_some_iff, IsNamedConstant, exists_and_left]

instance : DecidablePred IsNamedConstant :=
  fun _ => decidable_of_iff _ isNamedConstant_iff.symm

theorem constantName?_eq_none_iff {c : Code} : c.constantName? = none ↔ ¬ c.IsNamedConstant := by
  rw [isNamedConstant_iff, Option.not_isSome_iff_eq_none]

def scopeChain : Code → List Code
  | c@{ scope := none, .. } => if c.constantName?.isSome then [c] else []
  | c@{ scope := some outer, .. } => if c.constantName?.isSome then c :: scopeChain outer else []

theorem scopeChain_eq (c : Code) :
    c.scopeChain = if c.constantName?.isSome then c :: c.scope.elim [] scopeChain else [] := by
  rcases c with ⟨kind, line, name, value, receiver, arguments, block, scope, children⟩
  cases scope with
  | none =>
      rw [scopeChain]
      rfl
  | some outer =>
      rw [scopeChain]
      rfl

theorem scopeChain_of_named {c : Code} (h : c.IsNamedConstant) :
    c.scopeChain = c :: c.scope.elim [] scopeChain := by
  rw [scopeChain_eq, if_pos (isNamedConstant_iff.mp h)]

theorem scopeChain_of_not_named {c : Code} (h : ¬ c.IsNamedConstant) : c.scopeChain = [] := by
  rw [scopeChain_eq, if_neg (mt isNamedConstant_iff.mpr h)]

theorem scope_induction {P : Code → Prop}
    (h : ∀ c, (∀ outer, c.scope = some outer → P outer) → P c) : ∀ c : Code, P c
  | ⟨_, _, _, _, _, _, _, none, _⟩ => by
      refine h _ ?_
      intro outer houter
      cases houter
  | ⟨_, _, _, _, _, _, _, some outer, _⟩ => by
      refine h _ ?_
      intro found hfound
      cases hfound
      exact scope_induction h outer

theorem isScopeChain_scopeChain (c : Code) (h : c.IsNamedConstant) :
    c.IsScopeChain c.scopeChain := by
  induction c using scope_induction with
  | h c ih =>
      have halone : c.IsScopeChain [c] :=
        ⟨rfl, List.IsChain.singleton c, fun d hd => List.mem_singleton.mp hd ▸ h⟩
      rw [scopeChain_of_named h]
      cases hscope : c.scope with
      | none =>
          exact halone
      | some outer =>
          rw [Option.elim_some]
          by_cases houter : outer.IsNamedConstant
          · have hchain := ih outer hscope houter
            refine ⟨rfl, ?_, ?_⟩
            · rw [scopeChain_of_named houter, List.isChain_cons_cons]
              exact ⟨hscope, scopeChain_of_named houter ▸ hchain.steps⟩
            · intro d hd
              rcases List.mem_cons.mp hd with rfl | hmem
              · exact h
              · exact hchain.named d hmem
          · rw [scopeChain_of_not_named houter]
            exact halone

/-- Every chain from a node is a beginning of the longest one. -/
theorem IsScopeChain.isPrefix {c : Code} {nodes : List Code} (h : c.IsScopeChain nodes) :
    nodes <+: c.scopeChain := by
  induction nodes generalizing c with
  | nil =>
      exact List.nil_prefix
  | cons d rest ih =>
      cases h.first
      rw [scopeChain_of_named (h.named d List.mem_cons_self), List.prefix_cons_inj]
      cases rest with
      | nil =>
          exact List.nil_prefix
      | cons outer more =>
          have hsteps := List.isChain_cons_cons.mp h.steps
          rw [hsteps.left, Option.elim_some]
          exact ih ⟨rfl, hsteps.right, fun e he => h.named e (List.mem_cons_of_mem d he)⟩

theorem isLongestChain_scopeChain {c : Code} (h : c.IsNamedConstant) :
    c.IsLongestChain c.scopeChain :=
  ⟨isScopeChain_scopeChain c h, fun _ hother => hother.isPrefix.length_le⟩

theorem IsLongestChain.eq_scopeChain {c : Code} {nodes : List Code} (h : c.IsLongestChain nodes)
    (hnamed : c.IsNamedConstant) : nodes = c.scopeChain :=
  h.left.isPrefix.eq_of_length_le (h.right _ (isScopeChain_scopeChain c hnamed))

/-!
# Names along a chain
-/

def segmentsOf (nodes : List Code) : List String :=
  (nodes.map fun d => d.name.getD "").reverse

theorem segmentsOf_eq_nil_iff {nodes : List Code} : segmentsOf nodes = [] ↔ nodes = [] := by
  rw [segmentsOf, List.reverse_eq_nil_iff, List.map_eq_nil_iff]

theorem segmentsOf_cons {c : Code} {name : String} (h : c.constantName? = some name)
    (nodes : List Code) : segmentsOf (c :: nodes) = segmentsOf nodes ++ [name] := by
  rw [segmentsOf, List.map_cons, List.reverse_cons, (constantName?_eq_some_iff.mp h).right.left]
  rfl

theorem qualifiedName_eq_intercalate (c : Code) :
    c.qualifiedName =
      if c.scopeChain = [] then none else some ("::".intercalate (segmentsOf c.scopeChain)) := by
  induction c using scope_induction with
  | h c ih =>
      rw [qualifiedName_eq]
      cases hname : c.constantName? with
      | none =>
          rw [if_pos (scopeChain_of_not_named (constantName?_eq_none_iff.mp hname))]
      | some name =>
          have hnamed : c.IsNamedConstant := by
            rw [isNamedConstant_iff, hname]
            rfl
          rw [scopeChain_of_named hnamed, if_neg (List.cons_ne_nil _ _), segmentsOf_cons hname]
          cases hscope : c.scope with
          | none =>
              rfl
          | some outer =>
              rw [Option.bind_some, Option.elim_some, ih outer hscope]
              by_cases hempty : outer.scopeChain = []
              · rw [if_pos hempty, hempty]
                rfl
              · rw [if_neg hempty, String.intercalate_append_of_ne_nil
                  (mt segmentsOf_eq_nil_iff.mp hempty) (List.cons_ne_nil _ _),
                  String.intercalate_singleton]

/-- How many nodes are looked at to name a chain: its own, and the scope at which it stops. -/
def nodesVisited (nodes : List Code) : Nat :=
  nodes.length + if (nodes.getLast?.bind Code.scope).isSome then 1 else 0

theorem nameLevels_of_not_named {c : Code} (h : ¬ c.IsNamedConstant) : c.nameLevels = 1 := by
  cases hscope : c.scope with
  | none =>
      exact nameLevels_of_scope_none hscope
  | some outer =>
      rw [nameLevels_of_scope_some hscope, if_neg (mt isNamedConstant_iff.mpr h)]

theorem nameLevels_eq_nodesVisited (c : Code) (h : c.IsNamedConstant) :
    c.nameLevels = nodesVisited c.scopeChain := by
  induction c using scope_induction with
  | h c ih =>
      rw [scopeChain_of_named h]
      cases hscope : c.scope with
      | none =>
          rw [nameLevels_of_scope_none hscope]
          simp [nodesVisited, hscope]
      | some outer =>
          rw [nameLevels_of_scope_some hscope, if_pos (isNamedConstant_iff.mp h), Option.elim_some]
          by_cases houter : outer.IsNamedConstant
          · rw [ih outer hscope houter, scopeChain_of_named houter, nodesVisited, nodesVisited,
              List.getLast?_cons_cons]
            simp only [List.length_cons]
            omega
          · rw [nameLevels_of_not_named houter, scopeChain_of_not_named houter]
            simp [nodesVisited, hscope]

/-- A constant with a name is named by the segments of its longest chain, joined, unless the chain
is too long, and the joined name refers to a usecase exactly if its segments do: the last by its
end or any by a part of it.  All other nodes, and no node, have no name. -/
theorem nameOf_segments (levels : Nat) (code : Option Code) :
    (0 < levels → (∀ c, code = some c → ¬ c.IsNamedConstant) →
      nameOf levels code = some none) ∧
    ∀ c, code = some c → c.IsNamedConstant →
      ∃ nodes, c.IsLongestChain nodes ∧ (∀ others, c.IsLongestChain others → others = nodes) ∧
        c.qualifiedName = some ("::".intercalate (segmentsOf nodes)) ∧
        (nodesVisited nodes ≤ levels →
          nameOf levels code = some (some ("::".intercalate (segmentsOf nodes)))) ∧
        (levels < nodesVisited nodes → nameOf levels code = none) ∧
        (Naming.refersToUsecase (some ("::".intercalate (segmentsOf nodes))) = true ↔
          (∃ front, (segmentsOf nodes).getLast? = some (front ++ "usecase")) ∨
            ∃ front rest, front ++ "Usecase" ++ rest ∈ segmentsOf nodes) := by
  constructor
  · intro hpos hother
    cases code with
    | none => rfl
    | some c =>
        have hc := hother c rfl
        have hname : c.qualifiedName = none := by
          rw [qualifiedName_eq_intercalate, if_pos (scopeChain_of_not_named hc)]
        rw [nameOf, nameWithin_eq, nameLevels_of_not_named hc, if_pos (show 1 ≤ levels from hpos),
          hname]
  · rintro c rfl hc
    have hne : c.scopeChain ≠ [] := by
      rw [scopeChain_of_named hc]
      exact List.cons_ne_nil _ _
    have hname : c.qualifiedName = some ("::".intercalate (segmentsOf c.scopeChain)) := by
      rw [qualifiedName_eq_intercalate, if_neg hne]
    refine ⟨c.scopeChain, isLongestChain_scopeChain hc, fun _ h => h.eq_scopeChain hc, hname,
      ?_, ?_, Naming.refersToUsecase_intercalate (mt segmentsOf_eq_nil_iff.mp hne)⟩
    · intro hshort
      rw [nameOf, nameWithin_eq, nameLevels_eq_nodesVisited c hc, if_pos hshort, hname]
    · intro hlong
      rw [nameOf, nameWithin_eq, nameLevels_eq_nodesVisited c hc, if_neg (Nat.not_le_of_gt hlong)]

/-- Two segments that spell `usecase` when they are put together, in a scope that is no constant. -/
def brokenWord : Code :=
  { kind := .constantRef
    name := some "case"
    scope := some {
      kind := .constantRef
      name := some "build_use"
      scope := some { kind := .call, name := some "Usecase" } } }

theorem nameOf_segments_brokenWord :
    nameOf 5 (some brokenWord) = some (some "build_use::case") ∧
      Naming.refersToUsecase (some "build_use::case") = false ∧
      (nested 5).IsNamedConstant ∧ nameOf 5 (some (nested 5)) = none ∧
      ¬ namedCall.IsNamedConstant ∧ nameOf 5 (some namedCall) = some none := by
  have hbroken : brokenWord.IsNamedConstant := by decide
  have hdeep : (nested 5).IsNamedConstant := ⟨rfl, "A", rfl, by decide⟩
  have hcall : ¬ namedCall.IsNamedConstant := by decide
  rcases (nameOf_segments 5 (some brokenWord)).right _ rfl hbroken with
    ⟨nodes, hlongest, _, _, hshort, _, hrefers⟩
  rcases (nameOf_segments 5 (some (nested 5))).right _ rfl hdeep with
    ⟨deepNodes, hdeepest, _, _, _, hlong, _⟩
  rw [hlongest.eq_scopeChain hbroken] at hshort hrefers
  rw [hdeepest.eq_scopeChain hdeep, ← nameLevels_eq_nodesVisited _ hdeep, nameLevels_nested] at hlong
  have hsegments : segmentsOf brokenWord.scopeChain = ["build_use", "case"] := by decide
  rw [hsegments] at hshort hrefers
  have hnamed : nameOf 5 (some namedCall) = some none := by
    refine (nameOf_segments 5 (some namedCall)).left (by decide) ?_
    rintro _ ⟨⟩
    exact hcall
  refine ⟨hshort (by decide), ?_, hdeep, hlong (Nat.lt_succ_self _), hcall, hnamed⟩
  rw [Bool.eq_false_iff]
  intro htrue
  rcases hrefers.mp htrue with ⟨front, hlast⟩ | ⟨front, rest, hmem⟩
  · have hends : Affix.ends "case" "usecase" = true :=
      Affix.ends_iff.mpr ⟨front, Option.some.inj hlast⟩
    exact absurd hends (by decide)
  · have hoccurs : Affix.occurs (front ++ "Usecase" ++ rest) "Usecase" = true :=
      Affix.occurs_iff.mpr ⟨front, rest, rfl⟩
    have hnone : ∀ segment ∈ ["build_use", "case"], Affix.occurs segment "Usecase" = false := by
      decide
    rw [hnone _ hmem] at hoccurs
    cases hoccurs

end Code
end UsecaseAudit
