import Mathlib.Data.List.Basic
import UsecaseAudit.Text.Utf8

/-!
# Bytes that are text

Bytes are UTF-8 text when they are the encodings of some characters, one after
the other.  A step reads a character exactly where the encoding of that
character stands, so that bytes are free of faults exactly when they are text:
no overlong form, no surrogate, no value beyond the last character and no
sequence that breaks off gets through, and no character is turned away.
-/

namespace UsecaseAudit
namespace Utf8

/-!
# Byte classes as ranges of numbers
-/

theorem tailCount_eq_some_iff {b : UInt8} {n : Nat} : tailCount b = some n ↔
    (n = 0 ∧ b.toNat < 0x80) ∨ (n = 1 ∧ 0xC2 ≤ b.toNat ∧ b.toNat < 0xE0) ∨
      (n = 2 ∧ 0xE0 ≤ b.toNat ∧ b.toNat < 0xF0) ∨ (n = 3 ∧ 0xF0 ≤ b.toNat ∧ b.toNat < 0xF5) := by
  simp only [tailCount, UInt8.lt_iff_toNat_lt, UInt8.reduceToNat]
  split_ifs <;> simp <;> omega

theorem isTail_iff {b : UInt8} : isTail b = true ↔ 0x80 ≤ b.toNat ∧ b.toNat ≤ 0xBF := by
  simp [isTail, UInt8.le_iff_toNat_le]

theorem isSecond_iff {lead b : UInt8} : isSecond lead b = true ↔
    0x80 ≤ b.toNat ∧ b.toNat ≤ 0xBF ∧ (lead.toNat = 0xE0 → 0xA0 ≤ b.toNat) ∧
      (lead.toNat = 0xED → b.toNat ≤ 0x9F) ∧ (lead.toNat = 0xF0 → 0x90 ≤ b.toNat) ∧
      (lead.toNat = 0xF4 → b.toNat ≤ 0x8F) := by
  have hlead : ∀ byte : UInt8, lead = byte ↔ lead.toNat = byte.toNat :=
    fun _ => UInt8.toNat_inj.symm
  simp only [isSecond, secondRange, hlead, UInt8.reduceToNat]
  split_ifs <;> simp [UInt8.le_iff_toNat_le] <;> omega

/-!
# The encoding of the character that a step gives

A lead byte and its tail bytes determine a number, and the ranges of the bytes
keep this number within the characters that are encoded in as many bytes.
-/

theorem toNat_ofNat {n : Nat} (h : n < 0xD800 ∨ (0xDFFF < n ∧ n < 0x110000)) :
    (Char.ofNat n).toNat = n := by
  rw [Char.ofNat, dif_pos h]
  rfl

theorem encode_one {lead : UInt8} (hlead : lead.toNat < 0x80) :
    String.utf8EncodeChar (Char.ofNat lead.toNat) = [lead] := by
  have hvalue : (Char.ofNat lead.toNat).toNat = lead.toNat := toNat_ofNat (by omega)
  rw [String.utf8EncodeChar, Char.toNat_val, hvalue, if_pos (by omega)]
  simp

theorem encode_two {lead b : UInt8} (hlead : 0xC2 ≤ lead.toNat) (hlead' : lead.toNat < 0xE0)
    (hb : isSecond lead b = true) :
    String.utf8EncodeChar (Char.ofNat (lead.toNat % 32 * 64 + payload b)) = [lead, b] := by
  rw [isSecond_iff] at hb
  unfold payload
  generalize hn : lead.toNat % 32 * 64 + b.toNat % 64 = n
  have hvalue : (Char.ofNat n).toNat = n := toNat_ofNat (by omega)
  have hfirst : n / 64 % 32 + 192 = lead.toNat := by omega
  have hsecond : n % 64 + 128 = b.toNat := by omega
  rw [String.utf8EncodeChar, Char.toNat_val, hvalue, if_neg (by omega), if_pos (by omega), hfirst,
    hsecond]
  simp

theorem encode_three {lead b c : UInt8} (hlead : 0xE0 ≤ lead.toNat) (hlead' : lead.toNat < 0xF0)
    (hb : isSecond lead b = true) (hc : isTail c = true) :
    String.utf8EncodeChar
      (Char.ofNat (lead.toNat % 16 * 4096 + payload b * 64 + payload c)) = [lead, b, c] := by
  rw [isSecond_iff] at hb
  rw [isTail_iff] at hc
  unfold payload
  generalize hn : lead.toNat % 16 * 4096 + b.toNat % 64 * 64 + c.toNat % 64 = n
  have hvalid : n < 0xD800 ∨ (0xDFFF < n ∧ n < 0x110000) := by omega
  have hvalue : (Char.ofNat n).toNat = n := toNat_ofNat hvalid
  have hfirst : n / 4096 % 16 + 224 = lead.toNat := by omega
  have hsecond : n / 64 % 64 + 128 = b.toNat := by omega
  have hthird : n % 64 + 128 = c.toNat := by omega
  rw [String.utf8EncodeChar, Char.toNat_val, hvalue, if_neg (by omega), if_neg (by omega),
    if_pos (by omega), hfirst, hsecond, hthird]
  simp

theorem encode_four {lead b c d : UInt8} (hlead : 0xF0 ≤ lead.toNat) (hlead' : lead.toNat < 0xF5)
    (hb : isSecond lead b = true) (hc : isTail c = true) (hd : isTail d = true) :
    String.utf8EncodeChar
      (Char.ofNat (lead.toNat % 8 * 262144 + payload b * 4096 + payload c * 64 + payload d)) =
      [lead, b, c, d] := by
  rw [isSecond_iff] at hb
  rw [isTail_iff] at hc hd
  unfold payload
  generalize hn : lead.toNat % 8 * 262144 + b.toNat % 64 * 4096 + c.toNat % 64 * 64
    + d.toNat % 64 = n
  have hvalid : n < 0xD800 ∨ (0xDFFF < n ∧ n < 0x110000) := by omega
  have hvalue : (Char.ofNat n).toNat = n := toNat_ofNat hvalid
  have hfirst : n / 262144 % 8 + 240 = lead.toNat := by omega
  have hsecond : n / 4096 % 64 + 128 = b.toNat := by omega
  have hthird : n / 64 % 64 + 128 = c.toNat := by omega
  have hfourth : n % 64 + 128 = d.toNat := by omega
  rw [String.utf8EncodeChar, Char.toNat_val, hvalue, if_neg (by omega), if_neg (by omega),
    if_neg (by omega), hfirst, hsecond, hthird, hfourth]
  simp


/-!
# Steps and encodings
-/

theorem stepTwo_eq_char_iff {lead : UInt8} {rest : List UInt8} {c : Char} {w : Nat} :
    stepTwo lead rest = .char c w ↔ ∃ b tail, rest = b :: tail ∧ isSecond lead b = true ∧
      Char.ofNat (lead.toNat % 32 * 64 + payload b) = c ∧ 2 = w := by
  cases rest with
  | nil => simp [stepTwo]
  | cons b tail =>
      by_cases hb : isSecond lead b = true
      · simp [stepTwo, hb]
      · simp [stepTwo, hb]

theorem stepThree_eq_char_iff {lead : UInt8} {rest : List UInt8} {c : Char} {w : Nat} :
    stepThree lead rest = .char c w ↔ ∃ b b' tail, rest = b :: b' :: tail ∧
      isSecond lead b = true ∧ isTail b' = true ∧
      Char.ofNat (lead.toNat % 16 * 4096 + payload b * 64 + payload b') = c ∧ 3 = w := by
  cases rest with
  | nil => simp [stepThree]
  | cons b rest =>
      by_cases hb : isSecond lead b = true
      · cases rest with
        | nil => simp [stepThree, hb]
        | cons b' tail =>
            by_cases hb' : isTail b' = true
            · simp [stepThree, hb, hb']
            · simp [stepThree, hb, hb']
      · simp [stepThree, hb]

theorem stepFour_eq_char_iff {lead : UInt8} {rest : List UInt8} {c : Char} {w : Nat} :
    stepFour lead rest = .char c w ↔ ∃ b b' b'' tail, rest = b :: b' :: b'' :: tail ∧
      isSecond lead b = true ∧ isTail b' = true ∧ isTail b'' = true ∧
      Char.ofNat (lead.toNat % 8 * 262144 + payload b * 4096 + payload b' * 64 + payload b'') = c ∧
      4 = w := by
  cases rest with
  | nil => simp [stepFour]
  | cons b rest =>
      by_cases hb : isSecond lead b = true
      · cases rest with
        | nil => simp [stepFour, hb]
        | cons b' rest =>
            by_cases hb' : isTail b' = true
            · cases rest with
              | nil => simp [stepFour, hb, hb']
              | cons b'' tail =>
                  by_cases hb'' : isTail b'' = true
                  · simp [stepFour, hb, hb', hb'']
                  · simp [stepFour, hb, hb', hb'']
            · simp [stepFour, hb, hb']
      · simp [stepFour, hb]

theorem encode_of_step {lead : UInt8} {rest : List UInt8} {c : Char} {w : Nat}
    (h : step lead rest = .char c w) :
    lead :: rest = String.utf8EncodeChar c ++ rest.drop (w - 1) := by
  unfold step at h
  cases hcount : tailCount lead with
  | none =>
      rw [hcount] at h
      cases h
  | some n =>
      rw [hcount] at h
      rcases tailCount_eq_some_iff.mp hcount with ⟨rfl, hlead⟩ | ⟨rfl, hlow, hhigh⟩ |
        ⟨rfl, hlow, hhigh⟩ | ⟨rfl, hlow, hhigh⟩
      · cases h
        rw [encode_one hlead]
        rfl
      · rcases stepTwo_eq_char_iff.mp h with ⟨b, tail, rfl, hb, rfl, rfl⟩
        rw [encode_two hlow hhigh hb]
        rfl
      · rcases stepThree_eq_char_iff.mp h with ⟨b, b', tail, rfl, hb, hb', rfl, rfl⟩
        rw [encode_three hlow hhigh hb hb']
        rfl
      · rcases stepFour_eq_char_iff.mp h with ⟨b, b', b'', tail, rfl, hb, hb', hb'', rfl, rfl⟩
        rw [encode_four hlow hhigh hb hb' hb'']
        rfl

theorem toNat_ofNat_of_lt {n : Nat} (h : n < 256) : (UInt8.ofNat n).toNat = n :=
  UInt8.toNat_ofNat'.trans (Nat.mod_eq_of_lt h)

theorem step_of_encode (c : Char) (rest : List UInt8) :
    ∃ lead tail, String.utf8EncodeChar c = lead :: tail ∧
      step lead (tail ++ rest) = .char c (tail.length + 1) := by
  have hvalid : c.toNat < 0xD800 ∨ (0xDFFF < c.toNat ∧ c.toNat < 0x110000) := c.valid
  have hchar : ∀ n, n = c.toNat → Char.ofNat n = c := by
    intro n hn
    rw [hn, Char.ofNat_toNat]
  rw [String.utf8EncodeChar, Char.toNat_val]
  generalize c.toNat = n at hvalid hchar
  split_ifs with hone htwo hthree
  · have hlead : (UInt8.ofNat n).toNat = n := toNat_ofNat_of_lt (by omega)
    have hcount : tailCount (UInt8.ofNat n) = some 0 :=
      tailCount_eq_some_iff.mpr (by omega)
    refine ⟨_, _, rfl, ?_⟩
    rw [step, hcount, hlead]
    exact congrArg (Step.char · 1) (hchar n rfl)
  · have hlead : (UInt8.ofNat (n / 64 % 32 + 192)).toNat = n / 64 % 32 + 192 :=
      toNat_ofNat_of_lt (by omega)
    have hb : (UInt8.ofNat (n % 64 + 128)).toNat = n % 64 + 128 := toNat_ofNat_of_lt (by omega)
    have hcount : tailCount (UInt8.ofNat (n / 64 % 32 + 192)) = some 1 :=
      tailCount_eq_some_iff.mpr (by omega)
    refine ⟨_, _, rfl, ?_⟩
    rw [step, hcount]
    refine stepTwo_eq_char_iff.mpr ⟨_, _, rfl, isSecond_iff.mpr ?_, hchar _ ?_, rfl⟩
    · omega
    · unfold payload
      omega
  · have hlead : (UInt8.ofNat (n / 4096 % 16 + 224)).toNat = n / 4096 % 16 + 224 :=
      toNat_ofNat_of_lt (by omega)
    have hb : (UInt8.ofNat (n / 64 % 64 + 128)).toNat = n / 64 % 64 + 128 :=
      toNat_ofNat_of_lt (by omega)
    have hb' : (UInt8.ofNat (n % 64 + 128)).toNat = n % 64 + 128 := toNat_ofNat_of_lt (by omega)
    have hcount : tailCount (UInt8.ofNat (n / 4096 % 16 + 224)) = some 2 :=
      tailCount_eq_some_iff.mpr (by omega)
    refine ⟨_, _, rfl, ?_⟩
    rw [step, hcount]
    refine stepThree_eq_char_iff.mpr
      ⟨_, _, _, rfl, isSecond_iff.mpr ?_, isTail_iff.mpr ?_, hchar _ ?_, rfl⟩
    · omega
    · omega
    · unfold payload
      omega
  · have hlead : (UInt8.ofNat (n / 262144 % 8 + 240)).toNat = n / 262144 % 8 + 240 :=
      toNat_ofNat_of_lt (by omega)
    have hb : (UInt8.ofNat (n / 4096 % 64 + 128)).toNat = n / 4096 % 64 + 128 :=
      toNat_ofNat_of_lt (by omega)
    have hb' : (UInt8.ofNat (n / 64 % 64 + 128)).toNat = n / 64 % 64 + 128 :=
      toNat_ofNat_of_lt (by omega)
    have hb'' : (UInt8.ofNat (n % 64 + 128)).toNat = n % 64 + 128 := toNat_ofNat_of_lt (by omega)
    have hcount : tailCount (UInt8.ofNat (n / 262144 % 8 + 240)) = some 3 :=
      tailCount_eq_some_iff.mpr (by omega)
    refine ⟨_, _, rfl, ?_⟩
    rw [step, hcount]
    refine stepFour_eq_char_iff.mpr
      ⟨_, _, _, _, rfl, isSecond_iff.mpr ?_, isTail_iff.mpr ?_, isTail_iff.mpr ?_, hchar _ ?_, rfl⟩
    · omega
    · omega
    · omega
    · unfold payload
      omega

/-!
# Texts
-/

def IsText (bytes : List UInt8) : Prop :=
  ∃ text : List Char, bytes = text.flatMap String.utf8EncodeChar

theorem steps_encode_append (c : Char) (rest : List UInt8) :
    steps (String.utf8EncodeChar c ++ rest) =
      .char c (String.utf8EncodeChar c).length :: steps rest := by
  rcases step_of_encode c rest with ⟨lead, tail, hencode, hstep⟩
  rw [hencode, List.cons_append, steps, hstep, List.length_cons]
  simp [Step.width]

theorem faultAmong_eq_none_iff {bytes : List UInt8} {offset : Nat} {l : List Step} :
    faultAmong bytes offset l = none ↔ ∀ s ∈ l, ∃ c w, s = .char c w := by
  induction l generalizing bytes offset with
  | nil =>
      simp [faultAmong]
  | cons s l ih =>
      cases s with
      | char c w => simp [faultAmong, ih]
      | fault reason w => simp [faultAmong]

theorem isText_of_steps {bytes : List UInt8} (h : ∀ s ∈ steps bytes, ∃ c w, s = .char c w) :
    IsText bytes := by
  induction bytes using steps.induct with
  | case1 =>
      exact ⟨[], rfl⟩
  | case2 lead rest ih =>
      rw [steps, List.forall_mem_cons] at h
      rcases h with ⟨⟨c, w, hstep⟩, hrest⟩
      rcases ih hrest with ⟨text, htext⟩
      rw [hstep] at htext
      refine ⟨c :: text, ?_⟩
      rw [encode_of_step hstep, List.flatMap_cons, ← htext]
      rfl

/-- Bytes are free of faults exactly when they are the encoding of some text. -/
theorem firstFault_eq_none_iff {bytes : List UInt8} : firstFault bytes = none ↔ IsText bytes := by
  rw [firstFault, faultAmong_eq_none_iff]
  constructor
  · exact isText_of_steps
  · rintro ⟨text, rfl⟩
    induction text with
    | nil =>
        simp [steps]
    | cons c text ih =>
        rw [List.flatMap_cons, steps_encode_append, List.forall_mem_cons]
        exact ⟨⟨c, _, rfl⟩, ih⟩

end Utf8
end UsecaseAudit
