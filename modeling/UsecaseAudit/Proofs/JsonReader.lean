import UsecaseAudit.Proofs.JsonGrammar

/-!
# Reading JSON text back

A reader of JSON text for values with whole numbers.  The text is cut into
tokens, and a machine with a stack of open lists and objects takes the tokens
one by one.  What is written at any level is read back as the value it was
written from.
-/

namespace UsecaseAudit
namespace Json

inductive Token where
  | openList
  | closeList
  | openObject
  | closeObject
  | comma
  | colon
  | null
  | int (n : Int)
  | text (s : String)
  deriving DecidableEq, Repr

namespace Reader

open Grammar

/-!
# Strings
-/

def hexValue? (d : Char) : Option Nat :=
  (hexDigits.idxOf? d).map fun i => if i < 16 then i else i - 6

/-- The character with a code in hexadecimal digits; half a surrogate pair has none. -/
def codeChar? (digits : List Char) : Option Char :=
  (digits.mapM hexValue?).bind fun values =>
    let code := values.foldl (fun sum value => 16 * sum + value) 0
    if code.isValidChar then some (Char.ofNat code) else none

def readText : List Char → Option (List Char × List Char)
  | '"' :: rest => some ([], rest)
  | '\\' :: 'u' :: a :: b :: c :: d :: rest =>
      (codeChar? [a, b, c, d]).bind fun char =>
        (readText rest).map fun r => (char :: r.1, r.2)
  | '\\' :: letter :: rest =>
      (shortEscapes.lookup letter).bind fun char =>
        (readText rest).map fun r => (char :: r.1, r.2)
  | c :: rest =>
      if c.toNat < 32 then none else (readText rest).map fun r => (c :: r.1, r.2)
  | [] => none

theorem length_readText_lt {cs text rest : List Char} (h : readText cs = some (text, rest)) :
    rest.length < cs.length := by
  fun_induction readText cs generalizing text with
  | case1 after =>
      cases h
      exact Nat.lt_succ_self _
  | case2 a b c d after ih =>
      rcases Option.bind_eq_some_iff.mp h with ⟨char, _, hmap⟩
      rcases Option.map_eq_some_iff.mp hmap with ⟨r, hr, heq⟩
      cases heq
      have := ih hr
      simp only [List.length_cons]
      omega
  | case3 letter after _ ih =>
      rcases Option.bind_eq_some_iff.mp h with ⟨char, _, hmap⟩
      rcases Option.map_eq_some_iff.mp hmap with ⟨r, hr, heq⟩
      cases heq
      have := ih hr
      simp only [List.length_cons]
      omega
  | case4 c after _ _ _ hcontrol =>
      cases h
  | case5 c after _ _ _ hcontrol ih =>
      rcases Option.map_eq_some_iff.mp h with ⟨r, hr, heq⟩
      cases heq
      exact Nat.lt_succ_of_lt (ih hr)
  | case6 =>
      cases h

theorem lookup_shortEscapes :
    ∀ e ∈ shortEscapes, e.1 ≠ 'u' ∧ shortEscapes.lookup e.1 = some e.2 := by
  decide

theorem codeChar?_hex : ∀ n < 32, codeChar? (Utf8.hex 4 n) = some (Char.ofNat n) := by
  decide

theorem readText_escapeChar (c : Char) (cs : List Char) :
    readText (escapeChar c ++ cs) = (readText cs).map fun r => (c :: r.1, r.2) := by
  rcases escapeChar_cases c with
    ⟨letter, hletter, heq⟩ | ⟨hcontrol, heq⟩ | ⟨hquote, hslash, hplain, heq⟩
  · rcases lookup_shortEscapes _ hletter with ⟨hcode, hlookup⟩
    rw [heq, List.cons_append, List.singleton_append, readText, hlookup]
    · rfl
    · intro a b c d rest hu
      exact absurd hu hcode
  · rw [heq]
    show readText ('\\' :: 'u' :: (Utf8.hex 4 c.toNat ++ cs)) = _
    have hcode := codeChar?_hex c.toNat hcontrol
    rw [Char.ofNat_toNat] at hcode
    simp only [Utf8.hex, List.nil_append, List.cons_append, readText] at hcode ⊢
    rw [hcode]
    rfl
  · rw [heq, List.singleton_append, readText]
    · rw [if_neg (Nat.not_lt.mpr hplain)]
    · exact hquote
    · intro a b c d rest hc
      exact absurd hc hslash
    · intro letter rest hc
      exact absurd hc hslash

theorem readText_flatMap (s rest : List Char) :
    readText (s.flatMap escapeChar ++ '"' :: rest) = some (s, rest) := by
  induction s with
  | nil =>
      rfl
  | cons c s ih =>
      rw [List.flatMap_cons, List.append_assoc, readText_escapeChar, ih]
      rfl

/-!
# Numbers
-/

def readNat (cs : List Char) : Option (Nat × List Char) :=
  let digits := cs.takeWhile Char.isDigit
  if digits = [] ∨ digits.head? = some '0' ∧ 1 < digits.length then none
  else some (Nat.ofDigitChars 10 digits 0, cs.dropWhile Char.isDigit)

def readInt : List Char → Option (Int × List Char)
  | '-' :: cs => (readNat cs).map fun r => (-(r.1 : Int), r.2)
  | cs => (readNat cs).map fun r => ((r.1 : Int), r.2)

theorem length_readNat_lt {cs rest : List Char} {n : Nat} (h : readNat cs = some (n, rest)) :
    rest.length < cs.length := by
  unfold readNat at h
  dsimp only at h
  split at h
  · cases h
  · rename_i hdigits
    cases h
    have hsplit :=
      congrArg List.length (List.takeWhile_append_dropWhile (p := Char.isDigit) (l := cs))
    rw [List.length_append] at hsplit
    have hpos := List.length_pos_iff.mpr (fun hnil => hdigits (Or.inl hnil))
    omega

theorem length_readInt_lt {cs rest : List Char} {n : Int} (h : readInt cs = some (n, rest)) :
    rest.length < cs.length := by
  unfold readInt at h
  split at h
  · rcases Option.map_eq_some_iff.mp h with ⟨r, hr, heq⟩
    cases heq
    exact Nat.lt_succ_of_lt (length_readNat_lt hr)
  · rcases Option.map_eq_some_iff.mp h with ⟨r, hr, heq⟩
    cases heq
    exact length_readNat_lt hr

/-- A text that does not go on with a number that stands in front of it. -/
def EndsNumber (rest : List Char) : Prop :=
  ∀ c ∈ rest.head?, c.isDigit = false

theorem readNat_toDigits (n : Nat) {rest : List Char} (hrest : EndsNumber rest) :
    readNat (Nat.toDigits 10 n ++ rest) = some (n, rest) := by
  have hdigits : ∀ d ∈ Nat.toDigits 10 n, d.isDigit = true :=
    fun d => isDigit_of_mem_toDigits
  have hstop : rest.takeWhile Char.isDigit = [] ∧ rest.dropWhile Char.isDigit = rest := by
    cases rest with
    | nil =>
        exact ⟨rfl, rfl⟩
    | cons c cs =>
        have hc := hrest c rfl
        simp [hc]
  have hleading : ¬(Nat.toDigits 10 n = [] ∨
      (Nat.toDigits 10 n).head? = some '0' ∧ 1 < (Nat.toDigits 10 n).length) := by
    rintro (hnil | ⟨hzero, hlength⟩)
    · exact Nat.toDigits_ne_nil hnil
    · by_cases hn : 0 < n
      · rcases toDigits_eq_cons_ne_zero n hn with ⟨c, cs, hcons, hne⟩
        rw [hcons] at hzero
        exact hne (Option.some.inj hzero)
      · have hn' : n = 0 := by omega
        rw [hn', Nat.toDigits_zero] at hlength
        exact Nat.lt_irrefl 1 hlength
  unfold readNat
  rw [List.takeWhile_append_of_pos hdigits, List.dropWhile_append_of_pos hdigits, hstop.left,
    hstop.right, List.append_nil]
  dsimp only
  rw [if_neg hleading, Nat.ofDigitChars_ten_toDigits]

theorem toDigits_eq_cons (n : Nat) : ∃ d ds, Nat.toDigits 10 n = d :: ds ∧ d.isDigit = true := by
  cases hdigits : Nat.toDigits 10 n with
  | nil =>
      exact absurd hdigits Nat.toDigits_ne_nil
  | cons d ds =>
      exact ⟨d, ds, rfl, isDigit_of_mem_toDigits (hdigits ▸ List.mem_cons_self)⟩

theorem readInt_toString (n : Int) {rest : List Char} (hrest : EndsNumber rest) :
    readInt ((toString n).toList ++ rest) = some (n, rest) := by
  rw [toList_toString_int]
  split
  · rename_i hn
    have hplain : ∀ cs, Nat.toDigits 10 n.toNat ++ rest ≠ '-' :: cs := by
      intro cs hminus
      rcases toDigits_eq_cons n.toNat with ⟨d, ds, hcons, hd⟩
      rw [hcons] at hminus
      injection hminus with hhead
      rw [hhead] at hd
      exact absurd hd (by decide)
    rw [readInt, readNat_toDigits n.toNat hrest]
    · rw [Option.map_some, Int.toNat_of_nonneg hn]
    · exact hplain
  · rename_i hn
    rw [List.cons_append, readInt, readNat_toDigits _ hrest, Option.map_some,
      Int.toNat_of_nonneg (by omega), Int.neg_neg]

theorem toString_int_eq_cons (n : Int) :
    ∃ c cs, (toString n).toList = c :: cs ∧ (c = '-' ∨ c.isDigit = true) := by
  rw [toList_toString_int]
  split
  · rcases toDigits_eq_cons n.toNat with ⟨d, ds, hcons, hd⟩
    exact ⟨d, ds, hcons, Or.inr hd⟩
  · exact ⟨'-', _, rfl, Or.inl rfl⟩

/-!
# Tokens
-/

def marks : List (Char × Token) :=
  [('[', .openList), (']', .closeList), ('\x7b', .openObject), ('\x7d', .closeObject),
    (',', .comma), (':', .colon)]

def token? : List Char → Option (Token × List Char)
  | '"' :: rest => (readText rest).map fun r => (.text (String.ofList r.1), r.2)
  | 'n' :: 'u' :: 'l' :: 'l' :: rest => some (.null, rest)
  | c :: rest =>
      match marks.lookup c with
      | some mark => some (mark, rest)
      | none => (readInt (c :: rest)).map fun r => (.int r.1, r.2)
  | [] => none

theorem length_token?_lt {cs rest : List Char} {token : Token}
    (h : token? cs = some (token, rest)) : rest.length < cs.length := by
  unfold token? at h
  split at h
  · rcases Option.map_eq_some_iff.mp h with ⟨r, hr, heq⟩
    cases heq
    exact Nat.lt_succ_of_lt (length_readText_lt hr)
  · cases h
    simp only [List.length_cons]
    omega
  · split at h
    · cases h
      exact Nat.lt_succ_self _
    · rcases Option.map_eq_some_iff.mp h with ⟨r, hr, heq⟩
      cases heq
      exact length_readInt_lt hr
  · cases h

def tokens? : List Char → Option (List Token)
  | [] => some []
  | c :: cs =>
      if c ∈ blanks then tokens? cs
      else
        match _h : token? (c :: cs) with
        | none => none
        | some (token, rest) => (tokens? rest).map (token :: ·)
termination_by cs => cs.length
decreasing_by
  · exact Nat.lt_succ_self _
  · exact length_token?_lt _h

def Lexed (cs : List Char) (tokens : List Token) (rest : List Char) : Prop :=
  tokens? cs = (tokens? rest).map (tokens ++ ·)

theorem Lexed.refl (cs : List Char) : Lexed cs [] cs := by
  unfold Lexed
  simp

theorem Lexed.trans {cs mid rest : List Char} {first second : List Token}
    (hfirst : Lexed cs first mid) (hsecond : Lexed mid second rest) :
    Lexed cs (first ++ second) rest := by
  unfold Lexed at hfirst hsecond ⊢
  rw [hfirst, hsecond, Option.map_map]
  congr 1
  funext tokens
  exact (List.append_assoc first second tokens).symm

theorem lexed_blank {c : Char} (hc : c ∈ blanks) (rest : List Char) :
    Lexed (c :: rest) [] rest := by
  unfold Lexed
  rw [tokens?, if_pos hc]
  simp

theorem lexed_token {c : Char} {cs rest : List Char} {token : Token} (hc : c ∉ blanks)
    (h : token? (c :: cs) = some (token, rest)) : Lexed (c :: cs) [token] rest := by
  unfold Lexed
  rw [tokens?, if_neg hc]
  split
  · rename_i hnone
    rw [h] at hnone
    cases hnone
  · rename_i hsome
    rw [h] at hsome
    cases hsome
    rfl

theorem lexed_mark {c : Char} {mark : Token} (h : (c, mark) ∈ marks) (rest : List Char) :
    Lexed (c :: rest) [mark] rest := by
  have hmarks : ∀ e ∈ marks, e.1 ∉ blanks ∧ e.1 ≠ '"' ∧ e.1 ≠ 'n' ∧
      marks.lookup e.1 = some e.2 := by decide
  rcases hmarks _ h with ⟨hblank, hquote, hnull, hlookup⟩
  apply lexed_token hblank
  rw [token?]
  · rw [hlookup]
  · exact hquote
  · intro after hc
    exact absurd hc hnull

theorem lexed_newLine (level : Nat) (rest : List Char) : Lexed (newLine level ++ rest) [] rest := by
  have hspaces : ∀ n, Lexed (List.replicate n ' ' ++ rest) [] rest := by
    intro n
    induction n with
    | zero => exact Lexed.refl rest
    | succ n ih => exact (lexed_blank (by decide) _).trans ih
  exact (lexed_blank (by decide) _).trans (hspaces (2 * level))

theorem lexed_quote (s : String) (rest : List Char) : Lexed (quote s ++ rest) [.text s] rest := by
  rw [quote_append]
  apply lexed_token (by decide)
  rw [token?, readText_flatMap, Option.map_some, String.ofList_toList]

theorem lexed_int (n : Int) {rest : List Char} (hrest : EndsNumber rest) :
    Lexed ((toString n).toList ++ rest) [.int n] rest := by
  -- a number begins with a sign or a digit, and no other token does
  rcases toString_int_eq_cons n with ⟨c, cs, hcons, hc⟩
  have hother : ('"' :: 'n' :: blanks ++ marks.map Prod.fst).all
      (fun e => !e.isDigit && e != '-') = true := by
    decide
  have hnot : c ∉ '"' :: 'n' :: blanks ++ marks.map Prod.fst := by
    intro hmem
    have hplain := List.all_eq_true.mp hother c hmem
    rw [Bool.and_eq_true, Bool.not_eq_true', bne_iff_ne] at hplain
    rcases hplain with ⟨hdigit, hminus⟩
    rcases hc with hsign | hfirst
    · exact hminus hsign
    · rw [hdigit] at hfirst
      cases hfirst
  have hmark : marks.lookup c = none := by
    rw [List.lookup_eq_none_iff]
    intro e he
    have hne : c ≠ e.1 := fun heq => hnot (heq ▸ List.mem_append_right _ (List.mem_map_of_mem he))
    simpa using hne
  have hread := readInt_toString n hrest
  rw [hcons, List.cons_append] at hread ⊢
  apply lexed_token
  · intro hblank
    exact hnot (List.mem_append_left _ (List.mem_cons_of_mem _ (List.mem_cons_of_mem _ hblank)))
  · rw [token?]
    · rw [hmark]
      dsimp only
      rw [hread]
      rfl
    · intro hquote
      exact hnot (hquote ▸ List.mem_append_left _ List.mem_cons_self)
    · intro after hnull
      exact absurd (hnull ▸ List.mem_append_left _ (List.mem_cons_of_mem _ List.mem_cons_self)) hnot

/-!
# Tokens of a written value
-/

mutual

def tokensOf : Json → List Token
  | .null => [.null]
  | .int n => [.int n]
  | .text s => [.text s]
  | .list [] => [.openList, .closeList]
  | .list (item :: rest) => .openList :: (tokensOf item ++ (itemTokens rest ++ [.closeList]))
  | .object [] => [.openObject, .closeObject]
  | .object ((key, value) :: rest) =>
      .openObject :: .text key :: .colon ::
        (tokensOf value ++ (fieldTokens rest ++ [.closeObject]))

def itemTokens : List Json → List Token
  | [] => []
  | item :: rest => .comma :: (tokensOf item ++ itemTokens rest)

def fieldTokens : List (String × Json) → List Token
  | [] => []
  | (key, value) :: rest =>
      .comma :: .text key :: .colon :: (tokensOf value ++ fieldTokens rest)

end

theorem endsNumber_newLine (level : Nat) (rest : List Char) :
    EndsNumber (newLine level ++ rest) := by
  rintro c hc
  cases hc
  decide

theorem endsNumber_writeItems (level : Nat) (items : List Json) (rest : List Char) :
    EndsNumber (writeItems level items ++ (newLine level ++ rest)) := by
  cases items with
  | nil =>
      rw [writeItems]
      exact endsNumber_newLine level rest
  | cons item others =>
      rw [writeItems]
      rintro c hc
      cases hc
      decide

theorem endsNumber_writeFields (level : Nat) (fields : List (String × Json)) (rest : List Char) :
    EndsNumber (writeFields level fields ++ (newLine level ++ rest)) := by
  cases fields with
  | nil =>
      rw [writeFields]
      exact endsNumber_newLine level rest
  | cons first others =>
      rw [writeFields]
      rintro c hc
      cases hc
      decide

theorem lexed_field (key : String) {cs rest : List Char} {tokens : List Token}
    (h : Lexed cs tokens rest) :
    Lexed (quote key ++ ':' :: ' ' :: cs) (.text key :: .colon :: tokens) rest :=
  (lexed_quote key _).trans ((lexed_mark (by decide) _).trans
    ((lexed_blank (by decide) _).trans h))

mutual

theorem lexed_write (level : Nat) (v : Json) {rest : List Char} (hrest : EndsNumber rest) :
    Lexed (write level v ++ rest) (tokensOf v) rest := by
  cases v with
  | null =>
      rw [write, tokensOf]
      exact lexed_token (by decide) rfl
  | int n =>
      rw [write, tokensOf]
      exact lexed_int n hrest
  | text s =>
      rw [write, tokensOf]
      exact lexed_quote s rest
  | list items =>
      cases items with
      | nil =>
          rw [write, tokensOf]
          exact (lexed_mark (by decide) _).trans (lexed_mark (by decide) rest)
      | cons item others =>
          have hitem := lexed_write (level + 1) item
            (endsNumber_writeItems level others (']' :: rest))
          have hitems := lexed_writeItems level others (']' :: rest)
          have hclose := lexed_mark (by decide : (']', Token.closeList) ∈ marks) rest
          have hlist := (lexed_mark (by decide : ('[', Token.openList) ∈ marks) _).trans
            ((lexed_newLine (level + 1) _).trans (hitem.trans (hitems.trans hclose)))
          rw [tokensOf]
          simpa [write] using hlist
  | object fields =>
      cases fields with
      | nil =>
          rw [write, tokensOf]
          exact (lexed_mark (by decide) _).trans (lexed_mark (by decide) rest)
      | cons first others =>
          rcases first with ⟨key, value⟩
          have hvalue := lexed_write (level + 1) value
            (endsNumber_writeFields level others ('\x7d' :: rest))
          have hfields := lexed_writeFields level others ('\x7d' :: rest)
          have hclose := lexed_mark (by decide : ('\x7d', Token.closeObject) ∈ marks) rest
          have hobject := (lexed_mark (by decide : ('\x7b', Token.openObject) ∈ marks) _).trans
            ((lexed_newLine (level + 1) _).trans
              (lexed_field key (hvalue.trans (hfields.trans hclose))))
          rw [tokensOf]
          simpa [write] using hobject

theorem lexed_writeItems (level : Nat) (items : List Json) (rest : List Char) :
    Lexed (writeItems level items ++ (newLine level ++ rest)) (itemTokens items) rest := by
  cases items with
  | nil =>
      rw [writeItems, itemTokens]
      exact lexed_newLine level rest
  | cons item others =>
      have hitem := lexed_write (level + 1) item (endsNumber_writeItems level others rest)
      have hitems := lexed_writeItems level others rest
      have hall := (lexed_mark (by decide : (',', Token.comma) ∈ marks) _).trans
        ((lexed_newLine (level + 1) _).trans (hitem.trans hitems))
      rw [itemTokens]
      simpa [writeItems] using hall

theorem lexed_writeFields (level : Nat) (fields : List (String × Json)) (rest : List Char) :
    Lexed (writeFields level fields ++ (newLine level ++ rest)) (fieldTokens fields) rest := by
  cases fields with
  | nil =>
      rw [writeFields, fieldTokens]
      exact lexed_newLine level rest
  | cons first others =>
      rcases first with ⟨key, value⟩
      have hvalue := lexed_write (level + 1) value (endsNumber_writeFields level others rest)
      have hfields := lexed_writeFields level others rest
      have hall := (lexed_mark (by decide : (',', Token.comma) ∈ marks) _).trans
        ((lexed_newLine (level + 1) _).trans (lexed_field key (hvalue.trans hfields)))
      rw [fieldTokens]
      simpa [writeFields] using hall

end

/-!
# The machine

What is open around the place that was reached is kept in frames, the innermost
first; what a frame holds was read before that place, the last of it first.
-/

inductive Frame where
  | list (before : List Json)
  | object (before : List (String × Json)) (key : String)

inductive State where
  | value (frames : List Frame)
  | listOpened (frames : List Frame)
  | objectOpened (frames : List Frame)
  | key (before : List (String × Json)) (frames : List Frame)
  | colon (before : List (String × Json)) (key : String) (frames : List Frame)
  | completed (v : Json) (frames : List Frame)

def begin? (frames : List Frame) : Token → Option State
  | .null => some (.completed .null frames)
  | .int n => some (.completed (.int n) frames)
  | .text s => some (.completed (.text s) frames)
  | .openList => some (.listOpened frames)
  | .openObject => some (.objectOpened frames)
  | _ => none

def step? : State → Token → Option State
  | .value frames, token => begin? frames token
  | .listOpened frames, .closeList => some (.completed (.list []) frames)
  | .listOpened frames, token => begin? (.list [] :: frames) token
  | .objectOpened frames, .closeObject => some (.completed (.object []) frames)
  | .objectOpened frames, .text key => some (.colon [] key frames)
  | .key before frames, .text key => some (.colon before key frames)
  | .colon before key frames, .colon => some (.value (.object before key :: frames))
  | .completed v (.list before :: frames), .comma => some (.value (.list (v :: before) :: frames))
  | .completed v (.list before :: frames), .closeList =>
      some (.completed (.list (v :: before).reverse) frames)
  | .completed v (.object before key :: frames), .comma =>
      some (.key ((key, v) :: before) frames)
  | .completed v (.object before key :: frames), .closeObject =>
      some (.completed (.object ((key, v) :: before).reverse) frames)
  | _, _ => none

def Runs (start : State) (tokens : List Token) (stop : State) : Prop :=
  tokens.foldlM step? start = some stop

theorem Runs.trans {a b c : State} {first second : List Token} (hfirst : Runs a first b)
    (hsecond : Runs b second c) : Runs a (first ++ second) c := by
  unfold Runs at hfirst hsecond ⊢
  rw [List.foldlM_append, hfirst]
  exact hsecond

theorem Runs.single {a b : State} {token : Token} (h : step? a token = some b) :
    Runs a [token] b := by
  unfold Runs
  rw [List.foldlM_cons, h]
  rfl

theorem Runs.cons {a b c : State} {token : Token} {tokens : List Token}
    (h : step? a token = some b) (hrest : Runs b tokens c) : Runs a (token :: tokens) c :=
  (Runs.single h).trans hrest

theorem runs_listOpened (v : Json) {frames : List Frame} {stop : State}
    (h : Runs (.value (.list [] :: frames)) (tokensOf v) stop) :
    Runs (.listOpened frames) (tokensOf v) stop := by
  cases v with
  | null => exact h
  | int n => exact h
  | text s => exact h
  | list items =>
      cases items with
      | nil => exact h
      | cons item others => exact h
  | object fields =>
      cases fields with
      | nil => exact h
      | cons first others => exact h

mutual

/-- Over the tokens of a value the machine completes the value, whatever is open around it. -/
theorem runs_tokensOf (v : Json) (frames : List Frame) :
    Runs (.value frames) (tokensOf v) (.completed v frames) := by
  cases v with
  | null =>
      rw [tokensOf]
      exact Runs.single rfl
  | int n =>
      rw [tokensOf]
      exact Runs.single rfl
  | text s =>
      rw [tokensOf]
      exact Runs.single rfl
  | list items =>
      cases items with
      | nil =>
          rw [tokensOf]
          exact Runs.cons rfl (Runs.single rfl)
      | cons item others =>
          have hitem := runs_listOpened item (runs_tokensOf item (.list [] :: frames))
          have hitems := runs_itemTokens others item [] frames
          rw [tokensOf]
          exact Runs.cons rfl (hitem.trans hitems)
  | object fields =>
      cases fields with
      | nil =>
          rw [tokensOf]
          exact Runs.cons rfl (Runs.single rfl)
      | cons first others =>
          rcases first with ⟨key, value⟩
          have hvalue := runs_tokensOf value (.object [] key :: frames)
          have hfields := runs_fieldTokens others key value [] frames
          rw [tokensOf]
          exact Runs.cons rfl (Runs.cons rfl (Runs.cons rfl (hvalue.trans hfields)))

theorem runs_itemTokens (items : List Json) (v : Json) (before : List Json)
    (frames : List Frame) :
    Runs (.completed v (.list before :: frames)) (itemTokens items ++ [.closeList])
      (.completed (.list ((v :: before).reverse ++ items)) frames) := by
  cases items with
  | nil =>
      rw [itemTokens, List.append_nil]
      exact Runs.single rfl
  | cons item others =>
      have hitem := runs_tokensOf item (.list (v :: before) :: frames)
      have hitems := runs_itemTokens others item (v :: before) frames
      rw [List.reverse_cons, List.append_assoc, List.singleton_append] at hitems
      rw [itemTokens, List.cons_append, List.append_assoc]
      exact Runs.cons rfl (hitem.trans hitems)

theorem runs_fieldTokens (fields : List (String × Json)) (key : String) (v : Json)
    (before : List (String × Json)) (frames : List Frame) :
    Runs (.completed v (.object before key :: frames)) (fieldTokens fields ++ [.closeObject])
      (.completed (.object (((key, v) :: before).reverse ++ fields)) frames) := by
  cases fields with
  | nil =>
      rw [fieldTokens, List.append_nil]
      exact Runs.single rfl
  | cons first others =>
      rcases first with ⟨next, value⟩
      have hvalue := runs_tokensOf value (.object ((key, v) :: before) next :: frames)
      have hfields := runs_fieldTokens others next value ((key, v) :: before) frames
      rw [List.reverse_cons, List.append_assoc, List.singleton_append] at hfields
      rw [fieldTokens]
      simp only [List.cons_append, List.append_assoc]
      exact Runs.cons rfl (Runs.cons rfl (Runs.cons rfl (hvalue.trans hfields)))

end

/-!
# Reading
-/

def State.result? : State → Option Json
  | .completed v [] => some v
  | _ => none

/-- The value of a JSON text, if it is one with whole numbers only. -/
def read? (cs : List Char) : Option Json :=
  (tokens? cs).bind fun tokens => (tokens.foldlM step? (.value [])).bind State.result?

theorem read?_write (v : Json) : read? (write 0 v ++ ['\n']) = some v := by
  have hwritten := (lexed_write 0 v (endsNumber_newLine 0 [])).trans (lexed_newLine 0 [])
  have htokens : tokens? (write 0 v ++ ['\n']) = some (tokensOf v) := by
    simpa [Lexed, tokens?, newLine] using hwritten
  have hrun := runs_tokensOf v []
  unfold Runs at hrun
  unfold read?
  rw [htokens, Option.bind_some, hrun]
  rfl

end Reader
end Json
end UsecaseAudit
