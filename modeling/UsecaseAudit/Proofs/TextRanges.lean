import UsecaseAudit.Code.Reading
import UsecaseAudit.Proofs.Utf8Text

/-!
# Text within a range of bytes

A node covers a range of bytes, and nothing makes such a range begin or end
between two characters.  The text of a node is nevertheless made of characters
of the source alone: those whose bytes all lie in the range, in their order.

The bytes that a range leaves of a character at one of its edges give nothing.
At the left edge they are tail bytes, none of which can lead, so that reading
finds the next character again; at the right edge they are a sequence that
breaks off, which is a single fault up to the end of the range.
-/

namespace UsecaseAudit
namespace Utf8

/-!
# Placed characters
-/

structure Placed where
  char : Char
  offset : Nat
  deriving DecidableEq, Repr

namespace Placed

def stop (p : Placed) : Nat :=
  p.offset + (String.utf8EncodeChar p.char).length

def liesWithin (start stop : Nat) (p : Placed) : Bool :=
  decide (start ≤ p.offset) && decide (p.stop ≤ stop)

/-- The character stands at its offset in the source, between two texts. -/
def StandsIn (source : List UInt8) (p : Placed) : Prop :=
  ∃ before after : List Char,
    source = before.flatMap String.utf8EncodeChar ++ String.utf8EncodeChar p.char ++
      after.flatMap String.utf8EncodeChar ∧
    p.offset = (before.flatMap String.utf8EncodeChar).length

theorem liesWithin_iff {start stop : Nat} {p : Placed} :
    p.liesWithin start stop = true ↔ start ≤ p.offset ∧ p.stop ≤ stop := by
  simp [liesWithin]

end Placed

def placedFrom (offset : Nat) : List Char → List Placed
  | [] => []
  | c :: rest => ⟨c, offset⟩ :: placedFrom (offset + (String.utf8EncodeChar c).length) rest

theorem mem_placedFrom_iff {offset : Nat} {text : List Char} {p : Placed} :
    p ∈ placedFrom offset text ↔ ∃ before after, text = before ++ p.char :: after ∧
      p.offset = offset + (before.flatMap String.utf8EncodeChar).length := by
  induction text generalizing offset with
  | nil =>
      simp [placedFrom]
  | cons c text ih =>
      rw [placedFrom, List.mem_cons, ih]
      constructor
      · intro h
        rcases h with rfl | ⟨before, after, rfl, hoffset⟩
        · exact ⟨[], text, rfl, rfl⟩
        · rw [Nat.add_assoc, ← List.length_append, ← List.flatMap_cons] at hoffset
          exact ⟨c :: before, after, rfl, hoffset⟩
      · intro h
        rcases h with ⟨before, after, htext, hoffset⟩
        cases before with
        | nil =>
            cases htext
            exact Or.inl (congrArg (Placed.mk p.char) hoffset)
        | cons b before =>
            cases htext
            rw [List.flatMap_cons, List.length_append, ← Nat.add_assoc] at hoffset
            exact Or.inr ⟨before, after, rfl, hoffset⟩

theorem pairwise_placedFrom (offset : Nat) (text : List Char) :
    (placedFrom offset text).Pairwise fun p q => p.stop ≤ q.offset := by
  induction text generalizing offset with
  | nil =>
      exact List.Pairwise.nil
  | cons c text ih =>
      apply List.Pairwise.cons _ (ih _)
      intro q hq
      rcases mem_placedFrom_iff.mp hq with ⟨before, _, _, hoffset⟩
      rw [hoffset]
      exact Nat.le_add_right _ _

/-!
# Characters that are read

A character is read from its bytes, whatever follows them.  Tail bytes that no
lead byte stands before give no character, and neither does the beginning of a
character of which the rest is missing.
-/

theorem chars_nil : chars [] = [] := by
  rw [chars, steps]
  rfl

theorem chars_cons (lead : UInt8) (rest : List UInt8) :
    chars (lead :: rest) =
      (step lead rest).char?.toList ++ chars (rest.drop ((step lead rest).width - 1)) := by
  rw [chars, steps, List.filterMap_cons]
  cases (step lead rest).char? with
  | none => rfl
  | some c => rfl

theorem chars_encode_append (c : Char) (rest : List UInt8) :
    chars (String.utf8EncodeChar c ++ rest) = c :: chars rest := by
  rw [chars, steps_encode_append]
  rfl

theorem chars_text (text : List Char) : chars (text.flatMap String.utf8EncodeChar) = text := by
  induction text with
  | nil =>
      exact chars_nil
  | cons c text ih =>
      rw [List.flatMap_cons, chars_encode_append, ih]

theorem step_of_isTail {b : UInt8} (hb : isTail b = true) (rest : List UInt8) :
    step b rest = .fault .startByte 1 := by
  rw [isTail_iff] at hb
  have hcount : tailCount b = none := by
    rw [Option.eq_none_iff_forall_ne_some]
    intro n hn
    have hranges := tailCount_eq_some_iff.mp hn
    omega
  rw [step, hcount]

/-- Tail bytes without a lead byte are passed over one by one, up to the next character. -/
theorem chars_append_of_tails {orphans : List UInt8} (h : ∀ b ∈ orphans, isTail b = true)
    (rest : List UInt8) : chars (orphans ++ rest) = chars rest := by
  induction orphans with
  | nil =>
      rfl
  | cons b orphans ih =>
      rw [List.forall_mem_cons] at h
      rw [List.cons_append, chars_cons, step_of_isTail h.left]
      exact ih h.right

theorem isTail_of_mem_drop_encode {c : Char} {n : Nat} (hn : 0 < n) :
    ∀ b ∈ (String.utf8EncodeChar c).drop n, isTail b = true := by
  have htail : ∀ m, isTail (UInt8.ofNat (m % 64 + 128)) = true := by
    intro m
    have hbyte : (UInt8.ofNat (m % 64 + 128)).toNat = m % 64 + 128 :=
      toNat_ofNat_of_lt (by omega)
    rw [isTail_iff]
    omega
  intro b hb
  have hmem : b ∈ (String.utf8EncodeChar c).drop 1 :=
    (List.drop_sublist_drop_left _ hn).subset hb
  rw [String.utf8EncodeChar] at hmem
  split_ifs at hmem
  · simp at hmem
  · simp only [List.drop_succ_cons, List.drop_zero, List.mem_singleton] at hmem
    rw [hmem]
    exact htail _
  · simp only [List.drop_succ_cons, List.drop_zero, List.mem_cons, List.not_mem_nil,
      or_false] at hmem
    rcases hmem with rfl | rfl
    · exact htail _
    · exact htail _
  · simp only [List.drop_succ_cons, List.drop_zero, List.mem_cons, List.not_mem_nil,
      or_false] at hmem
    rcases hmem with rfl | rfl | rfl
    · exact htail _
    · exact htail _
    · exact htail _

/-- A sequence that would be read as a character is one fault where it breaks off. -/
theorem step_take_of_char {lead : UInt8} {tail : List UInt8} {c : Char} {w n : Nat}
    (h : step lead tail = .char c w) (hn : n + 1 < w) :
    step lead (tail.take n) = .fault .endOfData (n + 1) := by
  unfold step at h ⊢
  cases hcount : tailCount lead with
  | none =>
      rw [hcount] at h
      cases h
  | some count =>
      rw [hcount] at h
      rcases tailCount_eq_some_iff.mp hcount with ⟨rfl, _⟩ | ⟨rfl, _⟩ | ⟨rfl, _⟩ | ⟨rfl, _⟩
      · cases h
        omega
      · rcases stepTwo_eq_char_iff.mp h with ⟨b, rest, rfl, _, _, rfl⟩
        obtain rfl : n = 0 := by omega
        rfl
      · rcases stepThree_eq_char_iff.mp h with ⟨b, b', rest, rfl, hb, _, _, rfl⟩
        obtain rfl | rfl : n = 0 ∨ n = 1 := by omega
        · rfl
        · simp [stepThree, hb]
      · rcases stepFour_eq_char_iff.mp h with ⟨b, b', b'', rest, rfl, hb, hb', _, _, rfl⟩
        obtain rfl | rfl | rfl : n = 0 ∨ n = 1 ∨ n = 2 := by omega
        · rfl
        · simp [stepFour, hb]
        · simp [stepFour, hb, hb']

theorem chars_take_encode {c : Char} {n : Nat} (hn : n < (String.utf8EncodeChar c).length) :
    chars ((String.utf8EncodeChar c).take n) = [] := by
  rcases step_of_encode c [] with ⟨lead, tail, hencode, hstep⟩
  rw [List.append_nil] at hstep
  rw [hencode, List.length_cons] at hn
  cases n with
  | zero =>
      exact chars_nil
  | succ n =>
      have hfault := step_take_of_char hstep hn
      have hend : (tail.take n).drop n = [] :=
        List.drop_eq_nil_of_le (List.length_take_le n tail)
      rw [hencode, List.take_succ_cons, chars_cons, hfault]
      change chars ((tail.take n).drop n) = []
      rw [hend, chars_nil]

/-!
# Ranges
-/

theorem slice_append (start stop : Nat) (front rest : List UInt8) :
    slice start stop (front ++ rest) =
      slice start stop front ++ slice (start - front.length) (stop - front.length) rest := by
  rw [slice, List.take_append, List.drop_append, List.length_take]
  by_cases hstop : front.length ≤ stop
  · rw [Nat.min_eq_right hstop]
    rfl
  · have hrest : stop - front.length = 0 := by omega
    rw [slice, slice, hrest, List.take_zero, List.drop_nil, List.drop_nil]

/-- A range of a text holds the first character if it holds all its bytes, and of what follows the
same as the range that begins and ends as many bytes earlier. -/
theorem chars_slice_encode_append (start stop : Nat) (c : Char) (rest : List UInt8) :
    chars (slice start stop (String.utf8EncodeChar c ++ rest)) =
      (if start = 0 ∧ (String.utf8EncodeChar c).length ≤ stop then [c] else []) ++
        chars (slice (start - (String.utf8EncodeChar c).length)
          (stop - (String.utf8EncodeChar c).length) rest) := by
  rw [slice_append]
  by_cases hstart : start = 0
  · by_cases hstop : (String.utf8EncodeChar c).length ≤ stop
    · -- the range holds the whole character
      have hwhole : slice start stop (String.utf8EncodeChar c) = String.utf8EncodeChar c := by
        rw [hstart, slice, List.take_of_length_le hstop, List.drop_zero]
      rw [if_pos ⟨hstart, hstop⟩, hwhole, chars_encode_append]
      rfl
    · -- the range ends within the character, so that nothing of the rest is in it
      have hcut : slice start stop (String.utf8EncodeChar c) =
          (String.utf8EncodeChar c).take stop := by
        rw [hstart, slice, List.drop_zero]
      have hrest : slice (start - (String.utf8EncodeChar c).length)
          (stop - (String.utf8EncodeChar c).length) rest = [] := by
        have hnone : stop - (String.utf8EncodeChar c).length = 0 := by omega
        rw [hnone, slice, List.take_zero, List.drop_nil]
      rw [if_neg (fun h => hstop h.right), hcut, hrest, List.append_nil,
        chars_take_encode (Nat.lt_of_not_le hstop), chars_nil, List.append_nil]
  · -- the range begins behind the lead byte
    have htails : ∀ b ∈ slice start stop (String.utf8EncodeChar c), isTail b = true := by
      intro b hb
      rw [slice, List.drop_take] at hb
      exact isTail_of_mem_drop_encode (Nat.pos_of_ne_zero hstart) b (List.mem_of_mem_take hb)
    rw [if_neg (fun h => hstart h.left), chars_append_of_tails htails]
    rfl

theorem chars_slice_text (start stop offset : Nat) (text : List Char) :
    chars (slice (start - offset) (stop - offset) (text.flatMap String.utf8EncodeChar)) =
      ((placedFrom offset text).filter (Placed.liesWithin start stop)).map Placed.char := by
  induction text generalizing offset with
  | nil =>
      rw [List.flatMap_nil, slice, List.take_nil, List.drop_nil, chars_nil]
      rfl
  | cons c text ih =>
      have hpos : 0 < (String.utf8EncodeChar c).length := by
        rw [String.length_utf8EncodeChar]
        exact c.utf8Size_pos
      have hwithin : (start - offset = 0 ∧ (String.utf8EncodeChar c).length ≤ stop - offset) ↔
          Placed.liesWithin start stop ⟨c, offset⟩ = true := by
        simp only [Placed.liesWithin_iff, Placed.stop]
        omega
      rw [List.flatMap_cons, chars_slice_encode_append, Nat.sub_sub, Nat.sub_sub, ih, placedFrom]
      by_cases hc : Placed.liesWithin start stop ⟨c, offset⟩ = true
      · rw [if_pos (hwithin.mpr hc), List.filter_cons_of_pos hc]
        rfl
      · rw [if_neg (fun h => hc (hwithin.mp h)), List.filter_cons_of_neg hc]
        rfl

/-!
# The characters of a source
-/

theorem standsIn_text_iff {text : List Char} {p : Placed} :
    p.StandsIn (text.flatMap String.utf8EncodeChar) ↔ p ∈ placedFrom 0 text := by
  rw [mem_placedFrom_iff, Placed.StandsIn]
  have hsplit : ∀ before after : List Char,
      before.flatMap String.utf8EncodeChar ++ String.utf8EncodeChar p.char ++
        after.flatMap String.utf8EncodeChar =
        (before ++ p.char :: after).flatMap String.utf8EncodeChar := by
    intro before after
    rw [List.flatMap_append, List.flatMap_cons, List.append_assoc]
  simp only [hsplit, Nat.zero_add]
  constructor
  · intro h
    rcases h with ⟨before, after, hsource, hoffset⟩
    have htext := congrArg chars hsource
    rw [chars_text, chars_text] at htext
    exact ⟨before, after, htext, hoffset⟩
  · intro h
    rcases h with ⟨before, after, rfl, hoffset⟩
    exact ⟨before, after, rfl, hoffset⟩

end Utf8

namespace Concrete

open Utf8 (Placed placedFrom)

/-- In a source that is UTF-8, the text of a node is the sequence of the characters of the source
whose bytes all lie in the range of the node, wherever this range begins and ends. -/
theorem text_exact {source : List UInt8} (hsource : Utf8.firstFault source = none) (t : Concrete) :
    ∃ inside : List Placed,
      (t.text source).toList = inside.map Placed.char ∧
      (inside.Pairwise fun p q => p.stop ≤ q.offset) ∧
      ∀ p, p ∈ inside ↔
        p.StandsIn source ∧ t.label.start ≤ p.offset ∧ p.stop ≤ t.label.stop := by
  rcases Utf8.firstFault_eq_none_iff.mp hsource with ⟨text, rfl⟩
  refine ⟨(placedFrom 0 text).filter (Placed.liesWithin t.label.start t.label.stop), ?_, ?_, ?_⟩
  · rw [Concrete.text, Utf8.decodeLossy, String.toList_ofList]
    exact Utf8.chars_slice_text t.label.start t.label.stop 0 text
  · exact (Utf8.pairwise_placedFrom 0 text).filter _
  · intro p
    rw [List.mem_filter, Utf8.standsIn_text_iff, Placed.liesWithin_iff]

/-- A node that begins and ends in the middle of characters of the source `aé€😀b`. -/
def cutNode : Concrete :=
  { label :=
      { kind := "identifier", field := none, named := true, missing := false, flagged := false
        start := 2, stop := 9, row := 0 }
    children := [] }

theorem text_exact_cutNode :
    Utf8.firstFault (Utf8.encode "aé€😀b") = none ∧
      cutNode.text (Utf8.encode "aé€😀b") = "€" ∧
      ∃ inside : List Placed,
        inside.map Placed.char = ['€'] ∧
        ∀ p, p ∈ inside ↔ p.StandsIn (Utf8.encode "aé€😀b") ∧ 2 ≤ p.offset ∧ p.stop ≤ 9 := by
  have hsource : Utf8.firstFault (Utf8.encode "aé€😀b") = none := by decide +kernel
  have htext : cutNode.text (Utf8.encode "aé€😀b") = "€" := by decide +kernel
  rcases text_exact hsource cutNode with ⟨inside, hchars, _, hinside⟩
  rw [htext] at hchars
  exact ⟨hsource, htext, inside, hchars.symm, hinside⟩

end Concrete
end UsecaseAudit
