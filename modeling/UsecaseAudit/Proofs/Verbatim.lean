import Mathlib.Data.List.Chain
import Mathlib.Data.List.Infix
import Mathlib.Data.List.TakeWhile
import UsecaseAudit.Proofs.Lists
import UsecaseAudit.Report.Console
import UsecaseAudit.Text.Blank

/-!
# Markup that shows a text verbatim

Escaping and rendering each cut a text into pieces.  A cut keeps the backslashes
at the end of the text apart, because only what follows the text can tell what
becomes of them.  The escaped pieces of a text, with anything after them that
does not close a tag, are cut again into the same pieces with more backslashes
before the tags; and these show the text itself.

What a console shows is then what it prints for the plain text.  A console that does
not wrap lines prints a text as it stands, but may drop blanks at the end of a line
that is wider than the console.
-/

namespace UsecaseAudit
namespace Markup

/-!
# Tags
-/

def OpensTag (cs : List Char) : Prop :=
  ∃ c body after, cs = c :: (body ++ ']' :: after) ∧ beginsTag c = true ∧ '[' ∉ body

theorem isBracket_of_beginsTag {c : Char} (h : beginsTag c = true) : isBracket c = false := by
  rw [isBracket, Bool.or_eq_false_iff, beq_eq_false_iff_ne, beq_eq_false_iff_ne]
  constructor
  · rintro rfl
    exact absurd h (by decide)
  · rintro rfl
    exact absurd h (by decide)

theorem isSome_tagBody?_cons {c : Char} {rest : List Char} :
    (tagBody? (c :: rest)).isSome = true ↔
      beginsTag c = true ∧ rest.find? isBracket = some ']' := by
  rw [tagBody?, List.find?_eq_head?_dropWhile_not]
  by_cases hbegins : beginsTag c
  · rw [if_pos hbegins]
    cases rest.dropWhile fun x => !isBracket x with
    | nil =>
        simp
    | cons x after =>
        by_cases hx : x = ']'
        · simp [hx, hbegins]
        · simp [hx]
  · rw [if_neg hbegins]
    simp [hbegins]

theorem opensTag_iff {cs : List Char} : OpensTag cs ↔ (tagBody? cs).isSome = true := by
  constructor
  · rintro ⟨c, body, after, rfl, hbegins, hbody⟩
    refine isSome_tagBody?_cons.mpr ⟨hbegins, ?_⟩
    rw [List.find?_append]
    cases hfind : body.find? isBracket with
    | none =>
        rfl
    | some x =>
        have hx := List.find?_some hfind
        rw [isBracket, Bool.or_eq_true, beq_iff_eq, beq_iff_eq] at hx
        rcases hx with rfl | rfl
        · exact absurd (List.mem_of_find?_eq_some hfind) hbody
        · rfl
  · intro h
    cases cs with
    | nil =>
        cases h
    | cons c rest =>
        rcases isSome_tagBody?_cons.mp h with ⟨hbegins, hfind⟩
        rcases List.find?_eq_some_iff_append.mp hfind with ⟨_, body, after, rfl, hbody⟩
        refine ⟨c, body, after, rfl, hbegins, fun hmem => ?_⟩
        exact absurd (hbody '[' hmem) (by decide)

instance : DecidablePred OpensTag :=
  fun _ => decidable_of_iff _ opensTag_iff.symm

theorem tagBody?_append {cs body after : List Char} (h : tagBody? cs = some (body, after))
    (rest : List Char) : tagBody? (body ++ ']' :: rest) = some (body, rest) := by
  cases cs with
  | nil =>
      cases h
  | cons c cs =>
      rw [tagBody?] at h
      by_cases hbegins : beginsTag c
      · rw [if_pos hbegins] at h
        split at h
        · cases h
          have htake : ∀ x ∈ cs.takeWhile fun x => !isBracket x, (!isBracket x) = true :=
            fun x hx => List.mem_takeWhile_imp (p := fun x => !isBracket x) hx
          rw [List.cons_append, tagBody?, if_pos hbegins,
            List.dropWhile_append_of_pos htake, List.takeWhile_append_of_pos htake]
          simp [isBracket]
        · cases h
      · rw [if_neg hbegins] at h
        cases h

theorem eq_append_of_tagBody? {cs body after : List Char} (h : tagBody? cs = some (body, after)) :
    cs = body ++ ']' :: after := by
  cases cs with
  | nil =>
      cases h
  | cons c cs =>
      rw [tagBody?] at h
      split at h
      · split at h
        · rename_i hdrop
          cases h
          rw [List.cons_append, ← hdrop, List.takeWhile_append_dropWhile]
        · cases h
      · cases h

/-!
# Pieces
-/

def rawPiece : Piece → List Char
  | .char c => [c]
  | .tag n body => slashes n ++ bracketed body

/-- The piece that an escaped piece is cut into again. -/
def shield : Piece → Piece
  | .char c => .char c
  | .tag n body => .tag (2 * n + 1) body

theorem flatMap_slashPieces {f : Piece → List Char} (hf : f (.char '\\') = ['\\']) (k : Nat) :
    (slashPieces k).flatMap f = slashes k := by
  induction k with
  | zero =>
      rfl
  | succ k ih =>
      rw [slashPieces, List.replicate_succ, List.flatMap_cons, hf, ← slashPieces, ih]
      rfl

theorem find?_slashes (k : Nat) : (slashes k).find? isBracket = none := by
  rw [List.find?_eq_none]
  intro c hc
  rw [(List.mem_replicate.mp hc).right]
  decide

theorem find?_slashes_append_ne (k : Nat) (rest : List Char) :
    (slashes k ++ '[' :: rest).find? isBracket ≠ some ']' := by
  rw [List.find?_append, find?_slashes, Option.none_or, List.find?_cons_of_pos (by decide)]
  decide

theorem piecesAfter_slashes (k n : Nat) (cs : List Char) :
    piecesAfter k (slashes n ++ cs) = piecesAfter (k + n) cs := by
  induction n generalizing k with
  | zero =>
      rfl
  | succ n ih =>
      rw [slashes, List.replicate_succ, List.cons_append, piecesAfter, if_pos rfl, ← slashes, ih,
        Nat.add_right_comm, Nat.add_assoc]

theorem piecesAfter_tag {rest body after : List Char} (h : tagBody? rest = some (body, after))
    (k : Nat) : piecesAfter k ('[' :: rest) = .tag k body :: piecesAfter 0 after := by
  rw [piecesAfter, if_neg (by decide), if_pos rfl]
  split
  · rename_i htag
    rw [h] at htag
    cases htag
    rfl
  · rename_i htag
    rw [h] at htag
    cases htag

theorem piecesAfter_opening {rest : List Char} (h : tagBody? rest = none) (k : Nat) :
    piecesAfter k ('[' :: rest) = slashPieces k ++ .char '[' :: piecesAfter 0 rest := by
  rw [piecesAfter, if_neg (by decide), if_pos rfl]
  split
  · rename_i htag
    rw [h] at htag
    cases htag
  · rfl

theorem piecesAfter_char {c : Char} (hslash : c ≠ '\\') (hopen : c ≠ '[') (rest : List Char)
    (k : Nat) : piecesAfter k (c :: rest) = slashPieces k ++ .char c :: piecesAfter 0 rest := by
  rw [piecesAfter, if_neg hslash, if_neg hopen]

/-!
# Cuts
-/

/-- A text, after some backslashes, is cut into pieces and the backslashes at its end. -/
inductive Cut : Nat → List Char → List Piece → Nat → Prop where
  | done (k : Nat) : Cut k [] [] k
  | slash {k j : Nat} {rest : List Char} {ps : List Piece} :
      Cut (k + 1) rest ps j → Cut k ('\\' :: rest) ps j
  | tag {k j : Nat} {rest body after : List Char} {ps : List Piece} :
      tagBody? rest = some (body, after) → Cut 0 after ps j →
      Cut k ('[' :: rest) (.tag k body :: ps) j
  | opening {k j : Nat} {rest : List Char} {ps : List Piece} :
      tagBody? rest = none → Cut 0 rest ps j →
      Cut k ('[' :: rest) (slashPieces k ++ .char '[' :: ps) j
  | char {k j : Nat} {c : Char} {rest : List Char} {ps : List Piece} :
      c ≠ '\\' → c ≠ '[' → Cut 0 rest ps j →
      Cut k (c :: rest) (slashPieces k ++ .char c :: ps) j

theorem exists_cut (k : Nat) (cs : List Char) : ∃ ps j, Cut k cs ps j := by
  induction k, cs using piecesAfter.induct with
  | case1 k =>
      exact ⟨[], k, Cut.done k⟩
  | case2 k rest ih =>
      rcases ih with ⟨ps, j, hcut⟩
      exact ⟨ps, j, hcut.slash⟩
  | case3 k rest body after htag _ ih =>
      rcases ih with ⟨ps, j, hcut⟩
      exact ⟨_, j, hcut.tag htag⟩
  | case4 k rest htag _ ih =>
      rcases ih with ⟨ps, j, hcut⟩
      exact ⟨_, j, hcut.opening htag⟩
  | case5 k c rest hslash hopen ih =>
      rcases ih with ⟨ps, j, hcut⟩
      exact ⟨_, j, hcut.char hslash hopen⟩

theorem Cut.piecesAfter_eq {k j : Nat} {cs : List Char} {ps : List Piece} (h : Cut k cs ps j) :
    piecesAfter k cs = ps ++ slashPieces j := by
  induction h with
  | done k =>
      rw [piecesAfter, List.nil_append]
  | slash _ ih =>
      rw [piecesAfter, if_pos rfl, ih]
  | tag htag _ ih =>
      rw [piecesAfter_tag htag, ih]
      rfl
  | opening htag _ ih =>
      rw [piecesAfter_opening htag, ih, List.append_assoc, List.cons_append]
  | char hslash hopen _ ih =>
      rw [piecesAfter_char hslash hopen, ih, List.append_assoc, List.cons_append]

theorem Cut.raw_eq {k j : Nat} {cs : List Char} {ps : List Piece} (h : Cut k cs ps j) :
    ps.flatMap rawPiece ++ slashes j = slashes k ++ cs := by
  induction h with
  | done k =>
      rw [List.append_nil]
      rfl
  | slash _ ih =>
      rw [ih, slashes, List.replicate_succ']
      simp [slashes]
  | tag htag _ ih =>
      rw [List.flatMap_cons, List.append_assoc, ih, eq_append_of_tagBody? htag]
      simp [rawPiece, bracketed, slashes]
  | opening _ _ ih =>
      rw [List.flatMap_append, flatMap_slashPieces rfl, List.flatMap_cons, List.append_assoc,
        List.append_assoc, ih]
      rfl
  | char _ _ _ ih =>
      rw [List.flatMap_append, flatMap_slashPieces rfl, List.flatMap_cons, List.append_assoc,
        List.append_assoc, ih]
      rfl

/-!
# Escaped text is cut into the same pieces
-/

def escaped (ps : List Piece) (j : Nat) : List Char :=
  ps.flatMap escapePiece ++ slashes j

theorem escaped_slashPieces_append (k : Nat) (c : Char) (ps : List Piece) (j : Nat) :
    escaped (slashPieces k ++ .char c :: ps) j = slashes k ++ c :: escaped ps j := by
  rw [escaped, List.flatMap_append, flatMap_slashPieces rfl, List.flatMap_cons, List.append_assoc,
    List.append_assoc]
  rfl

theorem escaped_tag (k : Nat) (body : List Char) (ps : List Piece) (j : Nat) :
    escaped (.tag k body :: ps) j = slashes (2 * k + 1) ++ '[' :: (body ++ ']' :: escaped ps j) := by
  simp [escaped, escapePiece, bracketed]

theorem Cut.find?_escaped {k j : Nat} {cs : List Char} {ps : List Piece} (h : Cut k cs ps j) :
    (escaped ps j).find? isBracket = cs.find? isBracket := by
  induction h with
  | done k =>
      exact find?_slashes k
  | slash _ ih =>
      rw [ih, List.find?_cons_of_neg (by decide)]
  | tag _ _ _ =>
      rw [escaped_tag, List.find?_append, find?_slashes]
      rfl
  | opening _ _ _ =>
      rw [escaped_slashPieces_append, List.find?_append, find?_slashes]
      rfl
  | char _ _ _ ih =>
      rw [escaped_slashPieces_append, List.find?_append, find?_slashes, Option.none_or,
        List.find?_cons, List.find?_cons, ih]

theorem Cut.exists_escaped_eq_cons {k j : Nat} {cs : List Char} {ps : List Piece}
    (h : Cut (k + 1) cs ps j) : ∃ rest, escaped ps j = '\\' :: rest := by
  generalize hsucc : k + 1 = n at h
  induction h generalizing k with
  | done n =>
      rw [← hsucc]
      exact ⟨slashes k, rfl⟩
  | slash _ ih =>
      exact ih rfl
  | tag _ _ _ =>
      rw [escaped_tag]
      exact ⟨_, rfl⟩
  | opening _ _ _ =>
      rw [escaped_slashPieces_append, ← hsucc]
      exact ⟨_, rfl⟩
  | char _ _ _ _ =>
      rw [escaped_slashPieces_append, ← hsucc]
      exact ⟨_, rfl⟩

/-- A bracket that opened no tag opens none after escaping, whatever follows, as long as that does
not close a tag. -/
theorem Cut.tagBody?_escaped {j : Nat} {cs rest : List Char} {ps : List Piece}
    (h : Cut 0 cs ps j) (hcs : tagBody? cs = none) (hrest : rest.find? isBracket ≠ some ']') :
    tagBody? (escaped ps j ++ rest) = none := by
  cases hall : escaped ps j ++ rest with
  | nil =>
      rfl
  | cons c tail =>
      rw [← Option.not_isSome_iff_eq_none, isSome_tagBody?_cons]
      rintro ⟨hbegins, hfind⟩
      have hclose : (escaped ps j ++ rest).find? isBracket = some ']' := by
        rw [hall, List.find?_cons_of_neg (Bool.eq_false_iff.mp (isBracket_of_beginsTag hbegins)),
          hfind]
      rw [List.find?_append, h.find?_escaped] at hclose
      have hfirst : cs.find? isBracket = some ']' := by
        rcases Option.or_eq_some_iff.mp hclose with hcs | ⟨_, hafter⟩
        · exact hcs
        · exact absurd hafter hrest
      -- the text itself begins with the same character, or with one that begins no tag
      cases h with
      | done =>
          cases hfirst
      | slash hcut =>
          rcases hcut.exists_escaped_eq_cons with ⟨u, hu⟩
          rw [hu] at hall
          cases hall
          exact absurd hbegins (by decide)
      | tag _ _ =>
          cases hfirst
      | opening _ _ =>
          cases hfirst
      | char _ _ hcut =>
          rw [escaped_slashPieces_append] at hall
          cases hall
          rw [List.find?_cons_of_neg (Bool.eq_false_iff.mp (isBracket_of_beginsTag hbegins))]
            at hfirst
          have hsome := isSome_tagBody?_cons.mpr ⟨hbegins, hfirst⟩
          rw [hcs] at hsome
          cases hsome

theorem Cut.pieces_escaped {k j : Nat} {cs rest : List Char} {ps : List Piece}
    (h : Cut k cs ps j) (hrest : rest.find? isBracket ≠ some ']') :
    pieces (escaped ps j ++ rest) = ps.map shield ++ piecesAfter j rest := by
  rw [pieces]
  induction h with
  | done k =>
      rw [escaped, List.flatMap_nil, List.nil_append, piecesAfter_slashes, Nat.zero_add]
      rfl
  | slash _ ih =>
      exact ih
  | tag htag _ ih =>
      rw [escaped_tag, List.append_assoc, piecesAfter_slashes, List.cons_append, List.append_assoc,
        List.cons_append, piecesAfter_tag (tagBody?_append htag _), ih, Nat.zero_add]
      rfl
  | opening htag hcut ih =>
      rw [escaped_slashPieces_append, List.append_assoc, piecesAfter_slashes, List.cons_append,
        piecesAfter_opening (hcut.tagBody?_escaped htag hrest), ih, Nat.zero_add]
      simp [slashPieces, shield]
  | char hslash hopen _ ih =>
      rw [escaped_slashPieces_append, List.append_assoc, piecesAfter_slashes, List.cons_append,
        piecesAfter_char hslash hopen, ih, Nat.zero_add]
      simp [slashPieces, shield]

/-!
# Shielded pieces show the text
-/

theorem showPieces_char {c : Char} {rest : List Piece}
    (h : c = '\\' → rest.head? ≠ some (.char '[')) :
    showPieces (.char c :: rest) = c :: showPieces rest := by
  rw [showPieces.eq_3]
  rintro others rfl rfl
  exact h rfl rfl

theorem showPieces_map_char {cs : List Char} (hslash : '\\' ∉ cs) (rest : List Piece) :
    showPieces (cs.map .char ++ rest) = cs ++ showPieces rest := by
  induction cs with
  | nil =>
      rfl
  | cons c cs ih =>
      rw [List.mem_cons, not_or] at hslash
      rw [List.map_cons, List.cons_append, showPieces_char fun hc => absurd hc.symm hslash.left,
        ih hslash.right, List.cons_append]

theorem showPieces_slashPieces (j : Nat) : showPieces (slashPieces j) = slashes j := by
  induction j with
  | zero =>
      rw [slashPieces, List.replicate_zero, showPieces]
      rfl
  | succ j ih =>
      rw [slashPieces, List.replicate_succ, showPieces_char, ← slashPieces, ih]
      · rfl
      · rintro -
        cases j with
        | zero => exact nofun
        | succ j => simp [List.replicate_succ]

/-- No backslash stands alone before an opening bracket. -/
def Tight (ps : List Piece) : Prop :=
  ps.IsChain fun a b => a = .char '\\' → b ≠ .char '['

theorem showPieces_shield {ps : List Piece} (htight : Tight ps)
    (hlast : ps.getLast? ≠ some (.char '\\')) (rest : List Piece) :
    showPieces (ps.map shield ++ rest) = ps.flatMap rawPiece ++ showPieces rest := by
  induction ps with
  | nil =>
      rfl
  | cons p ps ih =>
      have hlastTail : ps.getLast? ≠ some (.char '\\') := by
        cases ps with
        | nil => exact nofun
        | cons q qs => rwa [List.getLast?_cons_cons] at hlast
      rcases List.isChain_cons.mp htight with ⟨hhead, htightTail⟩
      have htail := ih htightTail hlastTail
      rw [List.map_cons, List.cons_append, List.flatMap_cons, List.append_assoc, ← htail]
      cases p with
      | tag n body =>
          have hhalf : (2 * n + 1) / 2 = n := by omega
          have hodd : (2 * n + 1) % 2 = 1 := by omega
          rw [shield, showPieces, hhalf, if_pos hodd]
          rfl
      | char c =>
          refine showPieces_char ?_
          rintro rfl
          cases ps with
          | nil =>
              exact absurd rfl hlast
          | cons q qs =>
              have hq := hhead q rfl rfl
              cases q with
              | char d => simpa [shield] using hq
              | tag n body => exact nofun

/-- Every opening bracket after a backslash opens a tag. -/
def BracketsOpenTags (cs : List Char) : Prop :=
  ∀ before rest, cs = before ++ '\\' :: '[' :: rest → OpensTag rest

def bracketOpensTag : List Char → Bool
  | '\\' :: '[' :: rest => decide (OpensTag rest)
  | _ => true

theorem bracketsOpenTags_iff {cs : List Char} :
    BracketsOpenTags cs ↔ ∀ s ∈ cs.tails, bracketOpensTag s = true := by
  constructor
  · intro h s hs
    rcases (List.mem_tails s cs).mp hs with ⟨before, rfl⟩
    unfold bracketOpensTag
    split
    · exact decide_eq_true (h before _ rfl)
    · rfl
  · rintro h before rest rfl
    have hplace := h ('\\' :: '[' :: rest) ((List.mem_tails _ _).mpr (List.suffix_append _ _))
    exact of_decide_eq_true hplace

instance : DecidablePred BracketsOpenTags :=
  fun _ => decidable_of_iff _ bracketsOpenTags_iff.symm

theorem BracketsOpenTags.of_suffix {cs rest : List Char} (h : BracketsOpenTags cs)
    (hsuffix : rest <:+ cs) : BracketsOpenTags rest := by
  rcases hsuffix with ⟨front, rfl⟩
  rintro before after rfl
  exact h (front ++ before) after (List.append_assoc _ _ _).symm

theorem tight_slashPieces_append {c : Char} (hslash : c ≠ '\\') (hopen : c ≠ '[') {ps : List Piece}
    (htight : Tight ps) (k : Nat) : Tight (slashPieces k ++ .char c :: ps) := by
  induction k with
  | zero =>
      refine List.isChain_cons.mpr ⟨?_, htight⟩
      intro p _ hp
      cases hp
      exact absurd rfl hslash
  | succ k ih =>
      rw [slashPieces, List.replicate_succ, List.cons_append, ← slashPieces]
      refine List.isChain_cons.mpr ⟨?_, ih⟩
      intro p hp _
      cases k with
      | zero =>
          cases hp
          intro heq
          cases heq
          exact hopen rfl
      | succ k =>
          cases hp
          exact nofun

theorem Cut.tight {k j : Nat} {cs : List Char} {ps : List Piece} (h : Cut k cs ps j)
    (hopens : BracketsOpenTags (slashes k ++ cs)) : Tight ps := by
  induction h with
  | done k =>
      exact List.isChain_nil
  | slash _ ih =>
      refine ih ?_
      rwa [slashes, List.replicate_succ', List.append_assoc]
  | tag htag _ ih =>
      refine List.isChain_cons.mpr ⟨?_, ih (hopens.of_suffix ?_)⟩
      · intro p _ hp
        cases hp
      · rw [eq_append_of_tagBody? htag]
        exact (((List.suffix_cons _ _).trans (List.suffix_append _ _)).trans
          (List.suffix_cons _ _)).trans (List.suffix_append _ _)
  | @opening k j rest ps htag _ ih =>
      cases k with
      | zero =>
          refine List.isChain_cons.mpr ⟨?_, ih (hopens.of_suffix (List.suffix_cons _ _))⟩
          intro p _ hp
          cases hp
      | succ k =>
          have htags : OpensTag rest := by
            refine hopens (slashes k) rest ?_
            rw [slashes, List.replicate_succ', List.append_assoc]
            rfl
          have hsome := opensTag_iff.mp htags
          rw [htag] at hsome
          cases hsome
  | char hslash hopen _ ih =>
      refine tight_slashPieces_append hslash hopen (ih (hopens.of_suffix ?_)) _
      exact (List.suffix_cons _ _).trans (List.suffix_append _ _)

theorem getLast?_append_cons_ne {p : Piece} (hp : p ≠ .char '\\') {ps : List Piece}
    (hps : ps.getLast? ≠ some (.char '\\')) (front : List Piece) :
    (front ++ p :: ps).getLast? ≠ some (.char '\\') := by
  rw [List.getLast?_append, List.getLast?_cons, Option.some_or]
  intro hlast
  cases hend : ps.getLast? with
  | none =>
      rw [hend] at hlast
      exact hp (Option.some.inj hlast)
  | some q =>
      rw [hend] at hlast
      exact hps (hend.trans hlast)

theorem Cut.getLast?_ne {k j : Nat} {cs : List Char} {ps : List Piece} (h : Cut k cs ps j) :
    ps.getLast? ≠ some (.char '\\') := by
  induction h with
  | done k =>
      exact nofun
  | slash _ ih =>
      exact ih
  | tag _ _ ih =>
      refine getLast?_append_cons_ne ?_ ih []
      exact nofun
  | opening _ _ ih =>
      refine getLast?_append_cons_ne ?_ ih _
      decide
  | char hslash _ _ ih =>
      refine getLast?_append_cons_ne ?_ ih _
      intro heq
      cases heq
      exact hslash rfl

/-!
# The backslashes at the end
-/

def lastChar : Piece → Char
  | .char c => c
  | .tag _ _ => ']'

theorem getLast?_rawPiece (p : Piece) : (rawPiece p).getLast? = some (lastChar p) := by
  cases p with
  | char c => rfl
  | tag n body => simp [rawPiece, bracketed, lastChar, List.getLast?_append, List.getLast?_cons]

theorem getLast?_escapePiece (p : Piece) : (escapePiece p).getLast? = some (lastChar p) := by
  cases p with
  | char c => rfl
  | tag n body => simp [escapePiece, bracketed, lastChar, List.getLast?_append, List.getLast?_cons]

theorem getLast?_flatMap_ne {f : Piece → List Char} (hf : ∀ p, (f p).getLast? = some (lastChar p))
    {ps : List Piece} (hps : ps.getLast? ≠ some (.char '\\')) :
    (ps.flatMap f).getLast? ≠ some '\\' := by
  rcases List.eq_nil_or_concat' ps with rfl | ⟨front, p, rfl⟩
  · exact nofun
  · rw [List.flatMap_append, List.flatMap_singleton, List.getLast?_append, hf, Option.some_or]
    intro hlast
    rw [List.getLast?_concat] at hps
    cases p with
    | char c =>
        cases hlast
        exact hps rfl
    | tag n body =>
        cases hlast

theorem head?_reverse_ne {cs : List Char} (h : cs.getLast? ≠ some '\\') (rest : List Char) :
    cs.reverse ≠ '\\' :: rest := by
  intro hreverse
  rw [← List.head?_reverse, hreverse] at h
  exact h rfl

theorem slashes_suffix_iff {cs : List Char} (h : cs.getLast? ≠ some '\\') {n j : Nat} :
    slashes n <:+ cs ++ slashes j ↔ n ≤ j := by
  rw [← List.reverse_prefix, List.reverse_append, slashes, slashes, List.reverse_replicate,
    List.reverse_replicate]
  induction j generalizing n with
  | zero =>
      cases n with
      | zero =>
          simp
      | succ n =>
          constructor
          · rintro ⟨rest, hrest⟩
            exact absurd hrest.symm (head?_reverse_ne h _)
          · exact nofun
  | succ j ih =>
      cases n with
      | zero =>
          simp
      | succ n =>
          rw [List.replicate_succ, List.replicate_succ, List.cons_append, List.cons_prefix_cons,
            Nat.succ_le_succ_iff, ← ih]
          exact and_iff_right rfl

theorem endsInOneSlash_append {cs : List Char} (h : cs.getLast? ≠ some '\\') (j : Nat) :
    endsInOneSlash (cs ++ slashes j) = decide (j = 1) := by
  rw [endsInOneSlash, List.reverse_append, slashes, List.reverse_replicate]
  cases hreverse : cs.reverse with
  | nil =>
      match j with
      | 0 => rfl
      | 1 => rfl
      | j + 2 => simp [List.replicate_succ]
  | cons c rest =>
      have hc : c ≠ '\\' := by
        rintro rfl
        exact head?_reverse_ne h rest hreverse
      match j with
      | 0 => simp [hc]
      | 1 => simp [hc]
      | j + 2 => simp [List.replicate_succ]

theorem Cut.escapeChars_eq {j : Nat} {cs : List Char} {ps : List Piece} (h : Cut 0 cs ps j) :
    escapeChars cs = escaped ps j ++ slashes (if j = 1 then 1 else 0) := by
  have hends := endsInOneSlash_append (getLast?_flatMap_ne getLast?_escapePiece h.getLast?_ne) j
  rw [escapeChars, pieces, h.piecesAfter_eq, List.flatMap_append, flatMap_slashPieces rfl,
    hends, escaped]
  by_cases hj : j = 1
  · rw [if_pos hj, if_pos (decide_eq_true hj)]
    rfl
  · rw [if_neg hj, if_neg (by rw [decide_eq_true_iff]; exact hj)]
    exact (List.append_nil _).symm

theorem Cut.slashes_suffix_iff {n j : Nat} {cs : List Char} {ps : List Piece}
    (h : Cut 0 cs ps j) : slashes n <:+ cs ↔ n ≤ j := by
  have hraw : ps.flatMap rawPiece ++ slashes j = cs := h.raw_eq
  rw [← hraw]
  exact Markup.slashes_suffix_iff (getLast?_flatMap_ne getLast?_rawPiece h.getLast?_ne)

theorem Cut.showPieces_escaped {j : Nat} {cs rest : List Char} {ps : List Piece}
    (h : Cut 0 cs ps j) (hopens : BracketsOpenTags cs)
    (hrest : rest.find? isBracket ≠ some ']') :
    showPieces (pieces (escaped ps j ++ rest)) =
      ps.flatMap rawPiece ++ showPieces (piecesAfter j rest) := by
  rw [h.pieces_escaped hrest, showPieces_shield (h.tight hopens) h.getLast?_ne]

/-!
# Lines of the console
-/

theorem pieces_plain_append {cs : List Char} (hslash : '\\' ∉ cs) (hopen : '[' ∉ cs)
    (rest : List Char) : pieces (cs ++ rest) = cs.map .char ++ pieces rest := by
  induction cs with
  | nil =>
      rfl
  | cons c cs ih =>
      rw [List.mem_cons, not_or] at hslash hopen
      rw [pieces, List.cons_append,
        piecesAfter_char (Ne.symm hslash.left) (Ne.symm hopen.left), ← pieces,
        ih hslash.right hopen.right]
      rfl

theorem piecesAfter_of_not_mem {cs : List Char} (h : '[' ∉ cs) (k : Nat) :
    piecesAfter k cs = slashPieces k ++ cs.map .char := by
  induction cs generalizing k with
  | nil =>
      rw [piecesAfter, List.map_nil, List.append_nil]
  | cons c cs ih =>
      rw [List.mem_cons, not_or] at h
      by_cases hc : c = '\\'
      · rw [piecesAfter, if_pos hc, ih h.right, slashPieces, List.replicate_succ', hc]
        simp [slashPieces]
      · rw [piecesAfter_char hc (Ne.symm h.left), ih h.right]
        rfl

theorem showPieces_pieces_of_not_mem {cs : List Char} (h : '[' ∉ cs) :
    showPieces (pieces cs) = cs := by
  rw [pieces, piecesAfter_of_not_mem h]
  show showPieces (cs.map .char) = cs
  induction cs with
  | nil =>
      rw [List.map_nil, showPieces]
  | cons c cs ih =>
      rw [List.mem_cons, not_or] at h
      rw [List.map_cons, showPieces_char, ih h.right]
      rintro - hhead
      rcases List.mem_map.mp (List.mem_of_head? hhead) with ⟨d, hd, heq⟩
      cases heq
      exact h.right hd

theorem renderChars_eq (cs : List Char) :
    renderChars cs = (showPieces (pieces cs)).filter fun c => !isControl c := by
  rw [renderChars]
  by_cases h : cs.contains '['
  · rw [if_pos h]
  · rw [if_neg h, showPieces_pieces_of_not_mem fun hmem => h (List.contains_iff_mem.mpr hmem)]

structure IsPrintable (cs : List Char) : Prop where
  noTab : '\t' ∉ cs
  noControl : ∀ c ∈ cs, c.toNat ∉ [7, 8, 11, 12, 13]
  opens : BracketsOpenTags cs

theorem IsPrintable.filter_append {cs : List Char} (h : IsPrintable cs) {front : List Char}
    (hfront : front.all fun c => !isControl c) :
    (front ++ cs).filter (fun c => !isControl c) = front ++ cs := by
  refine List.filter_eq_self.mpr fun c hc => ?_
  rcases List.mem_append.mp hc with hc | hc
  · exact List.all_eq_true.mp hfront c hc
  · simpa [isControl] using h.noControl c hc

theorem renderChars_indented {cs : List Char} (h : IsPrintable cs)
    (hend : ¬ slashes 1 <:+ cs ∨ slashes 2 <:+ cs) :
    renderChars ([' ', ' '] ++ escapeChars cs) = [' ', ' '] ++ cs := by
  rcases exists_cut 0 cs with ⟨ps, j, hcut⟩
  have hj : j ≠ 1 := by
    rw [hcut.slashes_suffix_iff, hcut.slashes_suffix_iff] at hend
    omega
  have hraw : ps.flatMap rawPiece ++ slashes j = cs := hcut.raw_eq
  have hshown : showPieces (pieces (escaped ps j ++ [])) = _ :=
    hcut.showPieces_escaped h.opens nofun
  rw [List.append_nil, piecesAfter, showPieces_slashPieces, hraw] at hshown
  rw [renderChars_eq, hcut.escapeChars_eq, if_neg hj, slashes, List.replicate_zero, List.append_nil,
    pieces_plain_append (by decide) (by decide), showPieces_map_char (by decide), hshown,
    h.filter_append (by decide)]

theorem showPieces_pieces_tag {body : List Char} (h : tagBody? (body ++ [']']) = some (body, []))
    (rest : List Char) :
    showPieces (pieces ('[' :: (body ++ ']' :: rest))) = showPieces (pieces rest) := by
  rw [pieces, piecesAfter_tag (tagBody?_append h rest), showPieces]
  rfl

theorem showPieces_piecesAfter_tag {body : List Char}
    (h : tagBody? (body ++ [']']) = some (body, []))
    (n : Nat) : showPieces (piecesAfter (2 * n) ('[' :: (body ++ [']']))) = slashes n := by
  have hhalf : 2 * n / 2 = n := by omega
  have heven : ¬ 2 * n % 2 = 1 := by omega
  rw [piecesAfter_tag h, showPieces, hhalf, if_neg heven, List.append_nil, piecesAfter]
  exact List.append_nil _

theorem renderChars_styled {cs : List Char} (h : IsPrintable cs) (hend : ¬ slashes 2 <:+ cs)
    {style closing front : List Char} (hstyle : tagBody? (style ++ [']']) = some (style, []))
    (hclosing : tagBody? (closing ++ [']']) = some (closing, []))
    (hslash : '\\' ∉ front) (hopen : '[' ∉ front) (hfront : front.all fun c => !isControl c) :
    renderChars ('[' :: (style ++ ']' :: (front ++
      (escapeChars cs ++ '[' :: (closing ++ [']']))))) = front ++ cs := by
  rcases exists_cut 0 cs with ⟨ps, j, hcut⟩
  have hj : j < 2 := by
    rw [hcut.slashes_suffix_iff] at hend
    omega
  have hraw : ps.flatMap rawPiece ++ slashes j = cs := hcut.raw_eq
  have hshown : showPieces (pieces (escapeChars cs ++ '[' :: (closing ++ [']']))) = cs := by
    -- escaping doubles a single backslash at the end, and the closing tag halves it again
    have hend : (if j = 1 then 1 else 0) = j := by
      split
      · omega
      · omega
    rw [hcut.escapeChars_eq, hend, List.append_assoc,
      hcut.showPieces_escaped h.opens (find?_slashes_append_ne j _), piecesAfter_slashes,
      ← Nat.two_mul, showPieces_piecesAfter_tag hclosing, hraw]
  rw [renderChars_eq, showPieces_pieces_tag hstyle, pieces_plain_append hslash hopen,
    showPieces_map_char hslash, hshown, h.filter_append hfront]

end Markup

namespace Report

/-!
# Lines of the console
-/

def endsInInk (line : String) : Bool :=
  line.toList.getLast?.all fun c => !Blank.isBlank c

/-- Every line of a text that is wider than the console ends in something other than a blank.  A
console without a width has room for every line. -/
def Fits (width : Option Nat) (text : String) : Prop :=
  ∀ columns, width = some columns →
    ∀ line ∈ Split.pieces '\n' text, line.length ≤ columns ∨ endsInInk line = true

/-- A console that does not wrap lines: what fits is printed as it stands. -/
def SoftWraps (width : Option Nat) (print : String → String) : Prop :=
  ∀ text, Fits width text → print text = text ++ "\n"

/-- A line without the blanks at its end, as far as it is wider than the console. -/
def cropLine (columns : Nat) (line : String) : String :=
  let blanks := (line.toList.reverse.takeWhile Blank.isBlank).length
  String.ofList (line.toList.take (line.length - min blanks (line.length - columns)))

def cropping (columns : Nat) (text : String) : String :=
  "\n".intercalate ((Split.pieces '\n' text).map (cropLine columns)) ++ "\n"

theorem cropLine_eq_self {columns : Nat} {line : String}
    (h : line.length ≤ columns ∨ endsInInk line = true) : cropLine columns line = line := by
  have hcut : min (line.toList.reverse.takeWhile Blank.isBlank).length
      (line.length - columns) = 0 := by
    rcases h with hnarrow | hink
    · rw [Nat.sub_eq_zero_of_le hnarrow, Nat.min_zero]
    · rw [endsInInk, ← List.head?_reverse] at hink
      cases hlast : line.toList.reverse with
      | nil =>
          rw [List.takeWhile_nil, List.length_nil, Nat.zero_min]
      | cons c rest =>
          rw [hlast, List.head?_cons, Option.all_some, Bool.not_eq_true'] at hink
          rw [List.takeWhile_cons_of_neg (Bool.eq_false_iff.mp hink), List.length_nil,
            Nat.zero_min]
  rw [cropLine, hcut, Nat.sub_zero, ← String.length_toList, List.take_length,
    String.ofList_toList]

theorem softWraps_cropping (columns : Nat) : SoftWraps (some columns) (cropping columns) := by
  intro text hfits
  have hlines : (Split.pieces '\n' text).map (cropLine columns) = Split.pieces '\n' text := by
    rw [List.map_congr_left fun line hline => cropLine_eq_self (hfits columns rfl line hline),
      List.map_id']
  rw [cropping, hlines]
  exact congrArg (· ++ "\n") (Split.intercalate_pieces '\n' text)

theorem render_finding {text : String} (h : Markup.IsPrintable text.toList)
    (hend : ¬ ['\\'] <:+ text.toList ∨ ['\\', '\\'] <:+ text.toList) :
    Markup.render ("  " ++ Markup.escape text) = "  " ++ text := by
  have hchars : ("  " ++ Markup.escape text).toList =
      [' ', ' '] ++ Markup.escapeChars text.toList := by
    simp [Markup.escape]
  rw [Markup.render, hchars, Markup.renderChars_indented h hend, String.ofList_append,
    String.ofList_toList]

theorem render_warning {text : String} (h : Markup.IsPrintable text.toList)
    (hend : ¬ ['\\', '\\'] <:+ text.toList) :
    Markup.render ("[yellow]Warning: could not parse " ++ Markup.escape text ++ "[/yellow]") =
      "Warning: could not parse " ++ text := by
  have hchars : ("[yellow]Warning: could not parse " ++ Markup.escape text ++
      "[/yellow]").toList =
      '[' :: ("yellow".toList ++ ']' :: ("Warning: could not parse ".toList ++
        (Markup.escapeChars text.toList ++ '[' :: ("/yellow".toList ++ [']'])))) := by
    simp [Markup.escape]
  rw [Markup.render, hchars,
    Markup.renderChars_styled h hend (by decide) (by decide) (by decide) (by decide) (by decide),
    String.ofList_append, String.ofList_toList, String.ofList_toList]

/-- A text with an escaped tag, a tag that would close the style of a warning, a bracket that is
never closed, and a backslash at its end. -/
def hardText : String :=
  "\\\\[/yellow]a[red]b[c\\[d]0]\\"

end Report
end UsecaseAudit
