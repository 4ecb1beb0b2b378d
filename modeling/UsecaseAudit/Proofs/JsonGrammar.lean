import UsecaseAudit.Report.Json

/-!
# The grammar of JSON text

The rules of JSON text, each as a relation between a text and what is left of
it behind the part that the rule describes.  Every value that is written fits
the rules, whatever its strings and numbers are and however deep it goes.
-/

namespace UsecaseAudit
namespace Json
namespace Grammar

/-!
# Blanks and numbers
-/

def blanks : List Char :=
  [' ', '\t', '\n', '\r']

inductive Blanks : List Char → List Char → Prop where
  | nil (rest : List Char) : Blanks rest rest
  | cons {c : Char} {cs rest : List Char} : c ∈ blanks → Blanks cs rest → Blanks (c :: cs) rest

inductive Digits : List Char → List Char → Prop where
  | last {c : Char} {rest : List Char} : c.isDigit = true → Digits (c :: rest) rest
  | more {c : Char} {cs rest : List Char} :
      c.isDigit = true → Digits cs rest → Digits (c :: cs) rest

inductive Whole : List Char → List Char → Prop where
  | zero {rest : List Char} : Whole ('0' :: rest) rest
  | digits {c : Char} {cs rest : List Char} :
      c ≠ '0' → Digits (c :: cs) rest → Whole (c :: cs) rest

inductive Fraction : List Char → List Char → Prop where
  | none (rest : List Char) : Fraction rest rest
  | digits {cs rest : List Char} : Digits cs rest → Fraction ('.' :: cs) rest

inductive Exponent : List Char → List Char → Prop where
  | none (rest : List Char) : Exponent rest rest
  | plain {e : Char} {cs rest : List Char} :
      e ∈ ['e', 'E'] → Digits cs rest → Exponent (e :: cs) rest
  | signed {e sign : Char} {cs rest : List Char} :
      e ∈ ['e', 'E'] → sign ∈ ['+', '-'] → Digits cs rest → Exponent (e :: sign :: cs) rest

inductive Number : List Char → List Char → Prop where
  | plain {cs a b rest : List Char} :
      Whole cs a → Fraction a b → Exponent b rest → Number cs rest
  | negative {cs a b rest : List Char} :
      Whole cs a → Fraction a b → Exponent b rest → Number ('-' :: cs) rest

/-!
# Strings
-/

def shortEscapes : List (Char × Char) :=
  [('"', '"'), ('\\', '\\'), ('/', '/'), ('b', Char.ofNat 8), ('f', Char.ofNat 12), ('n', '\n'),
    ('r', '\r'), ('t', '\t')]

def hexDigits : List Char :=
  "0123456789abcdefABCDEF".toList

/-- The characters of a string behind its opening quote, and the closing quote. -/
inductive Characters : List Char → List Char → Prop where
  | close {rest : List Char} : Characters ('"' :: rest) rest
  | plain {c : Char} {cs rest : List Char} :
      c ≠ '"' → c ≠ '\\' → 32 ≤ c.toNat → Characters cs rest → Characters (c :: cs) rest
  | short {letter c : Char} {cs rest : List Char} :
      (letter, c) ∈ shortEscapes → Characters cs rest → Characters ('\\' :: letter :: cs) rest
  | code {digits cs rest : List Char} :
      digits.length = 4 → (∀ d ∈ digits, d ∈ hexDigits) → Characters cs rest →
      Characters ('\\' :: 'u' :: (digits ++ cs)) rest

/-!
# Values
-/

def words : List (List Char) :=
  ["null".toList, "true".toList, "false".toList]

mutual

inductive Value : List Char → List Char → Prop where
  | word {w rest : List Char} : w ∈ words → Value (w ++ rest) rest
  | number {cs rest : List Char} : Number cs rest → Value cs rest
  | text {cs rest : List Char} : Characters cs rest → Value ('"' :: cs) rest
  | emptyList {cs rest : List Char} : Blanks cs (']' :: rest) → Value ('[' :: cs) rest
  | list {cs a b rest : List Char} :
      Blanks cs a → Value a b → ItemTail b rest → Value ('[' :: cs) rest
  | emptyObject {cs rest : List Char} : Blanks cs ('\x7d' :: rest) → Value ('\x7b' :: cs) rest
  | object {cs a b rest : List Char} :
      Blanks cs a → Field a b → FieldTail b rest → Value ('\x7b' :: cs) rest

inductive ItemTail : List Char → List Char → Prop where
  | close {cs rest : List Char} : Blanks cs (']' :: rest) → ItemTail cs rest
  | more {cs a b c rest : List Char} :
      Blanks cs (',' :: a) → Blanks a b → Value b c → ItemTail c rest → ItemTail cs rest

inductive Field : List Char → List Char → Prop where
  | mk {cs a b c rest : List Char} :
      Characters cs a → Blanks a (':' :: b) → Blanks b c → Value c rest → Field ('"' :: cs) rest

inductive FieldTail : List Char → List Char → Prop where
  | close {cs rest : List Char} : Blanks cs ('\x7d' :: rest) → FieldTail cs rest
  | more {cs a b c rest : List Char} :
      Blanks cs (',' :: a) → Blanks a b → Field b c → FieldTail c rest → FieldTail cs rest

end

/-- A JSON text is one value with blanks around it. -/
def IsText (cs : List Char) : Prop :=
  ∃ a b, Blanks cs a ∧ Value a b ∧ Blanks b []

/-!
# Written numbers
-/

theorem digits_append {ds : List Char} (hne : ds ≠ []) (hdigits : ∀ d ∈ ds, d.isDigit = true)
    (rest : List Char) : Digits (ds ++ rest) rest := by
  induction ds with
  | nil =>
      exact absurd rfl hne
  | cons d ds ih =>
      have hd := hdigits d List.mem_cons_self
      cases ds with
      | nil =>
          exact Digits.last hd
      | cons e es =>
          apply Digits.more hd
          apply ih (List.cons_ne_nil e es)
          intro c hc
          exact hdigits c (List.mem_cons_of_mem d hc)

theorem isDigit_of_mem_toDigits {n : Nat} {c : Char} (h : c ∈ Nat.toDigits 10 n) :
    c.isDigit = true :=
  Nat.isDigit_of_mem_toDigits (by decide) (by decide) h

theorem toDigits_eq_cons_ne_zero (n : Nat) (hn : 0 < n) :
    ∃ c cs, Nat.toDigits 10 n = c :: cs ∧ c ≠ '0' := by
  by_cases hsmall : n < 10
  · refine ⟨n.digitChar, [], Nat.toDigits_of_lt_base hsmall, ?_⟩
    intro hzero
    rw [Nat.digitChar_eq_zero] at hzero
    omega
  · have hbase : 10 ≤ n := by omega
    rcases toDigits_eq_cons_ne_zero (n / 10) (by omega) with ⟨c, cs, hcons, hzero⟩
    refine ⟨c, cs ++ [(n % 10).digitChar], ?_, hzero⟩
    rw [Nat.toDigits_of_base_le (by decide) hbase, hcons, List.cons_append]
termination_by n

theorem whole_toDigits (n : Nat) (rest : List Char) :
    Whole (Nat.toDigits 10 n ++ rest) rest := by
  by_cases hn : 0 < n
  · rcases toDigits_eq_cons_ne_zero n hn with ⟨c, cs, hcons, hzero⟩
    have hdigits :=
      digits_append Nat.toDigits_ne_nil (fun d => isDigit_of_mem_toDigits (n := n)) rest
    rw [hcons] at hdigits ⊢
    exact Whole.digits hzero hdigits
  · have hzero : n = 0 := by omega
    rw [hzero, Nat.toDigits_zero]
    exact Whole.zero

theorem toList_toString_int (n : Int) :
    (toString n).toList =
      if 0 ≤ n then Nat.toDigits 10 n.toNat else '-' :: Nat.toDigits 10 (-n).toNat := by
  rw [Int.toString_eq_repr, Int.repr_eq_if]
  split
  · exact Nat.toList_repr
  · rw [String.toList_append, Nat.toList_repr]
    rfl

theorem number_toString (n : Int) (rest : List Char) :
    Number ((toString n).toList ++ rest) rest := by
  rw [toList_toString_int]
  split
  · exact Number.plain (whole_toDigits _ rest) (Fraction.none rest) (Exponent.none rest)
  · exact Number.negative (whole_toDigits _ rest) (Fraction.none rest) (Exponent.none rest)

/-!
# Written strings
-/

theorem hexDigit_mem : ∀ n < 16, Utf8.hexDigit n ∈ hexDigits := by
  decide

theorem length_hex (width n : Nat) : (Utf8.hex width n).length = width := by
  induction width generalizing n with
  | zero =>
      rfl
  | succ width ih =>
      rw [Utf8.hex, List.length_append, ih]
      rfl

theorem mem_hexDigits_of_mem_hex {width n : Nat} {d : Char} (h : d ∈ Utf8.hex width n) :
    d ∈ hexDigits := by
  induction width generalizing n with
  | zero =>
      cases h
  | succ width ih =>
      rw [Utf8.hex, List.mem_append] at h
      rcases h with hbefore | hlast
      · exact ih hbefore
      · rw [List.mem_singleton.mp hlast]
        exact hexDigit_mem _ (Nat.mod_lt n (by decide))

theorem escapeChar_cases (c : Char) :
    (∃ letter, (letter, c) ∈ shortEscapes ∧ escapeChar c = ['\\', letter]) ∨
    (c.toNat < 32 ∧ escapeChar c = '\\' :: 'u' :: Utf8.hex 4 c.toNat) ∨
    (c ≠ '"' ∧ c ≠ '\\' ∧ 32 ≤ c.toNat ∧ escapeChar c = [c]) := by
  unfold escapeChar
  split
  · exact Or.inl ⟨'"', by simp_all [shortEscapes], rfl⟩
  split
  · exact Or.inl ⟨'\\', by simp_all [shortEscapes], rfl⟩
  split
  · exact Or.inl ⟨'n', by simp_all [shortEscapes], rfl⟩
  split
  · exact Or.inl ⟨'r', by simp_all [shortEscapes], rfl⟩
  split
  · exact Or.inl ⟨'t', by simp_all [shortEscapes], rfl⟩
  split
  · exact Or.inl ⟨'f', by simp_all [shortEscapes], rfl⟩
  split
  · exact Or.inl ⟨'b', by simp_all [shortEscapes], rfl⟩
  split
  · rename_i hcontrol
    exact Or.inr (Or.inl ⟨hcontrol, rfl⟩)
  · rename_i hquote hslash _ _ _ _ _ hcontrol
    exact Or.inr (Or.inr ⟨hquote, hslash, Nat.le_of_not_lt hcontrol, rfl⟩)

theorem characters_escapeChar (c : Char) {cs rest : List Char} (h : Characters cs rest) :
    Characters (escapeChar c ++ cs) rest := by
  rcases escapeChar_cases c with
    ⟨letter, hletter, heq⟩ | ⟨_, heq⟩ | ⟨hquote, hslash, hplain, heq⟩
  · rw [heq]
    exact Characters.short hletter h
  · rw [heq]
    exact Characters.code (length_hex 4 c.toNat) (fun d => mem_hexDigits_of_mem_hex) h
  · rw [heq]
    exact Characters.plain hquote hslash hplain h

theorem characters_flatMap (s : List Char) (rest : List Char) :
    Characters (s.flatMap escapeChar ++ '"' :: rest) rest := by
  induction s with
  | nil =>
      exact Characters.close
  | cons c s ih =>
      rw [List.flatMap_cons, List.append_assoc]
      exact characters_escapeChar c ih

theorem quote_append (s : String) (rest : List Char) :
    quote s ++ rest = '"' :: (s.toList.flatMap escapeChar ++ '"' :: rest) := by
  simp [quote]

/-!
# Written values
-/

theorem blanks_newLine (level : Nat) (rest : List Char) :
    Blanks (newLine level ++ rest) rest := by
  have hspaces : ∀ n, Blanks (List.replicate n ' ' ++ rest) rest := by
    intro n
    induction n with
    | zero => exact Blanks.nil rest
    | succ n ih => exact Blanks.cons (by decide) ih
  exact Blanks.cons (by decide) (hspaces (2 * level))

theorem field_quote {cs rest : List Char} (key : String) (h : Value cs rest) :
    Field (quote key ++ ':' :: ' ' :: cs) rest := by
  rw [quote_append]
  exact Field.mk (characters_flatMap key.toList _) (Blanks.nil _)
    (Blanks.cons (by decide) (Blanks.nil cs)) h

mutual

/-- Whatever follows it, a written value stands in front as a value of the grammar. -/
theorem value_write (level : Nat) (v : Json) (rest : List Char) :
    Value (write level v ++ rest) rest := by
  cases v with
  | null =>
      rw [write]
      exact Value.word (by decide)
  | int n =>
      rw [write]
      exact Value.number (number_toString n rest)
  | text s =>
      rw [write, quote_append]
      exact Value.text (characters_flatMap s.toList rest)
  | list items =>
      cases items with
      | nil =>
          rw [write]
          exact Value.emptyList (Blanks.nil _)
      | cons item others =>
          have hitem := value_write (level + 1) item
            (writeItems level others ++ (newLine level ++ ']' :: rest))
          have htail := itemTail_writeItems level others rest
          have hblanks := blanks_newLine (level + 1)
            (write (level + 1) item ++ (writeItems level others ++ (newLine level ++ ']' :: rest)))
          simpa [write] using Value.list hblanks hitem htail
  | object fields =>
      cases fields with
      | nil =>
          rw [write]
          exact Value.emptyObject (Blanks.nil _)
      | cons first others =>
          rcases first with ⟨key, value⟩
          have hvalue := value_write (level + 1) value
            (writeFields level others ++ (newLine level ++ '\x7d' :: rest))
          have htail := fieldTail_writeFields level others rest
          have hblanks := blanks_newLine (level + 1)
            (quote key ++ ':' :: ' ' :: (write (level + 1) value ++
              (writeFields level others ++ (newLine level ++ '\x7d' :: rest))))
          simpa [write] using Value.object hblanks (field_quote key hvalue) htail

theorem itemTail_writeItems (level : Nat) (items : List Json) (rest : List Char) :
    ItemTail (writeItems level items ++ (newLine level ++ ']' :: rest)) rest := by
  cases items with
  | nil =>
      rw [writeItems]
      exact ItemTail.close (blanks_newLine level _)
  | cons item others =>
      have hitem := value_write (level + 1) item
        (writeItems level others ++ (newLine level ++ ']' :: rest))
      have htail := itemTail_writeItems level others rest
      have hblanks := blanks_newLine (level + 1)
        (write (level + 1) item ++ (writeItems level others ++ (newLine level ++ ']' :: rest)))
      simpa [writeItems] using ItemTail.more (Blanks.nil _) hblanks hitem htail

theorem fieldTail_writeFields (level : Nat) (fields : List (String × Json)) (rest : List Char) :
    FieldTail (writeFields level fields ++ (newLine level ++ '\x7d' :: rest)) rest := by
  cases fields with
  | nil =>
      rw [writeFields]
      exact FieldTail.close (blanks_newLine level _)
  | cons first others =>
      rcases first with ⟨key, value⟩
      have hvalue := value_write (level + 1) value
        (writeFields level others ++ (newLine level ++ '\x7d' :: rest))
      have htail := fieldTail_writeFields level others rest
      have hblanks := blanks_newLine (level + 1)
        (quote key ++ ':' :: ' ' :: (write (level + 1) value ++
          (writeFields level others ++ (newLine level ++ '\x7d' :: rest))))
      simpa [writeFields] using
        FieldTail.more (Blanks.nil _) hblanks (field_quote key hvalue) htail

end

end Grammar
end Json
end UsecaseAudit
