import UsecaseAudit.Proofs.SettingsForm

/-!
# The schema of a settings document

A settings document has parts: sections, lists, entries and scalars.  The schema
says which keys a part has and what the items of a list are.

Each part is read in its own way.  What is read from a mapping depends only on what
is read under its documented keys, and what is read from a list only on what is read
from its items.  So a change anywhere in a document that leaves the reading of the
part around it as it was leaves the settings as they were.

Reading a part fails in one way only: a whole number with too many digits stands below
it where a text is asked for.
-/

namespace UsecaseAudit

/-!
# Scalars and their texts
-/

namespace Decimal

theorem toString_nat_ne_empty (n : Nat) : toString n ≠ "" :=
  Nat.repr_ne_empty

theorem positional_ne_empty (digits : String) (point : Int) : positional digits point ≠ "" := by
  unfold positional
  dsimp only
  split
  · simp
  · split
    · simp
    · simp

theorem scientific_ne_empty {digits : String} (h : digits ≠ "") (point : Int) :
    scientific digits point ≠ "" := by
  unfold scientific
  split
  · next hnil => exact absurd (String.toList_eq_nil_iff.mp hnil) h
  · simp
  · simp

theorem ofFloat_ne_empty (x : Float) : ofFloat x ≠ "" := by
  unfold ofFloat
  split
  · decide
  · simp
  · simp
  · next negative value _ =>
    have htext : text (shortest value) ≠ "" := by
      unfold text
      dsimp only
      split
      · exact positional_ne_empty _ _
      · exact scientific_ne_empty (toString_nat_ne_empty _) _
    simp [htext]

end Decimal

namespace Document

def IsScalar : Document → Prop
  | .text _ | .int _ | .real _ | .bool _ => True
  | _ => False

instance : DecidablePred IsScalar
  | .text _ | .int _ | .real _ | .bool _ => isTrue trivial
  | .null | .bytes _ | .date | .set | .list _ | .mapping _ => isFalse id

/-- Something that names nothing: it is missing, empty or no scalar. -/
def IsNameless (d : Document) : Prop :=
  d = .text "" ∨ ¬ d.IsScalar

def IsLong : Document → Prop
  | .int n => Whole.isShort n = false
  | _ => False

theorem scalar?_eq_none_iff {d : Document} : d.scalar? = .ok none ↔ ¬ d.IsScalar := by
  cases d with
  | bool b => cases b <;> simp [scalar?, IsScalar]
  | int n =>
      by_cases hn : Whole.isShort n = true
      · simp [scalar?, IsScalar, Whole.text, hn, Except.map]
      · simp [scalar?, IsScalar, Whole.text, hn, Except.map]
  | _ => simp [scalar?, IsScalar]

theorem scalar?_eq_error_iff {d : Document} {e : Whole.Refusal} :
    d.scalar? = .error e ↔ d.IsLong := by
  cases e with
  | tooManyDigits =>
      cases d with
      | bool b => cases b <;> simp [scalar?, IsLong]
      | int n =>
          by_cases hn : Whole.isShort n = true
          · simp [scalar?, IsLong, Whole.text, hn, Except.map]
          · simp [scalar?, IsLong, Whole.text, hn, Except.map]
      | _ => simp [scalar?, IsLong]

theorem toString_int_ne_empty (n : Int) : toString n ≠ "" := by
  cases n with
  | ofNat n => exact Nat.repr_ne_empty
  | negSucc n =>
      show "-" ++ Nat.repr (n + 1) ≠ ""
      simp

theorem scalar?_ne_empty {d : Document} (h : d ≠ .text "") : d.scalar? ≠ .ok (some "") := by
  cases d with
  | text s =>
      intro hs
      exact h (congrArg Document.text (Option.some.inj (Except.ok.inj hs)))
  | int n =>
      by_cases hn : Whole.isShort n = true
      · intro htext
        rw [scalar?, Whole.text, if_pos hn] at htext
        exact toString_int_ne_empty n (Option.some.inj (Except.ok.inj htext))
      · simp [scalar?, Whole.text, hn, Except.map]
  | real x =>
      intro hx
      exact Decimal.ofFloat_ne_empty x (Option.some.inj (Except.ok.inj hx))
  | bool b =>
      cases b with
      | false => simp [scalar?]
      | true => simp [scalar?]
  | _ =>
      simp [scalar?]

theorem name?_eq_none_iff {d : Document} : d.name? = .ok none ↔ d.IsNameless := by
  rw [name?_eq, IsNameless, ← scalar?_eq_none_iff]
  by_cases hd : d = .text ""
  · simp [hd, scalar?, Except.map, Option.filter]
  · cases hscalar : d.scalar? with
    | error e =>
        simp [hd, Except.map]
    | ok read =>
        cases read with
        | none => simp [Except.map]
        | some s =>
            have hs : s ≠ "" := fun hs => scalar?_ne_empty hd (hs ▸ hscalar)
            simp [Except.map, Option.filter, hs, hd]

theorem name?_eq_error_iff {d : Document} {e : Whole.Refusal} :
    d.name? = .error e ↔ d.IsLong := by
  rw [name?_eq, ← @scalar?_eq_error_iff d e]
  cases d.scalar? with
  | error other => simp [Except.map]
  | ok read => simp [Except.map]

theorem isText_iff {d : Document} {key : String} : d.isText key = true ↔ d = .text key := by
  cases d with
  | text s => simp [isText]
  | _ => simp [isText]

instance : DecidablePred IsNameless :=
  fun d => decidable_of_iff (d.isText "" = true ∨ ¬ d.IsScalar) (or_congr_left isText_iff)

/-!
# Keys of a mapping
-/

theorem get_of_not_mapping {d : Document} (h : d.isMapping = false) (key : String) :
    d.get key = .null := by
  cases d with
  | mapping fields => cases h
  | _ => rfl

def erase (d : Document) (key : String) : Document :=
  match d with
  | .mapping fields => .mapping (fields.filter fun f => !f.1.isText key)
  | _ => d

theorem isMapping_erase (d : Document) (key : String) : (d.erase key).isMapping = d.isMapping := by
  cases d with
  | mapping fields => rfl
  | _ => rfl

theorem get_erase_self (d : Document) (key : String) : (d.erase key).get key = .null := by
  cases d with
  | mapping fields =>
      have hnone : (fields.filter fun f => !f.1.isText key).find? (fun f => f.1.isText key) =
          none := by
        rw [List.find?_eq_none]
        intro f hf
        simpa using (List.mem_filter.mp hf).right
      rw [erase, get, hnone]
      rfl
  | _ => rfl

theorem get_erase_of_ne {key other : String} (d : Document) (h : other ≠ key) :
    (d.erase key).get other = d.get other := by
  cases d with
  | mapping fields =>
      have hsame : (fields.filter fun f => !f.1.isText key).find? (fun f => f.1.isText other) =
          fields.find? fun f => f.1.isText other := by
        rw [List.find?_filter]
        congr 1
        funext f
        by_cases hother : f.1.isText other = true
        · have hkey : f.1.isText key = false := by
            rw [isText_iff.mp hother]
            simp [isText, h]
          simp [hother, hkey]
        · simp [hother]
      rw [erase, get, hsame]
      rfl
  | _ => rfl

theorem get_append_of_not_isText {others : List (Document × Document)} {key : String}
    (h : ∀ f ∈ others, f.1.isText key = false) (before after : List (Document × Document)) :
    (mapping (before ++ others ++ after)).get key = (mapping (before ++ after)).get key := by
  have hnone : others.find? (fun f => f.1.isText key) = none := by
    rw [List.find?_eq_none]
    intro f hf
    rw [h f hf]
    exact Bool.false_ne_true
  rw [get, get, List.find?_append, List.find?_append, List.find?_append, hnone, Option.or_none]

theorem get_replace (key : String) (v w : Document) (before after : List (Document × Document))
    (other : String) :
    (mapping (before ++ (.text key, v) :: after)).get other =
        (mapping (before ++ (.text key, w) :: after)).get other ∨
      other = key ∧ (mapping (before ++ (.text key, v) :: after)).get other = v ∧
        (mapping (before ++ (.text key, w) :: after)).get other = w := by
  simp only [get, List.find?_append]
  cases before.find? fun f => f.1.isText other with
  | some f =>
      exact Or.inl rfl
  | none =>
      by_cases hkey : key = other
      · right
        simp [isText, hkey]
      · left
        simp [isText, hkey]

end Document

namespace Settings

open Document

/-!
# Parts of a settings document
-/

structure EntryKeys where
  owner : String
  names : String
  owner_ne_names : owner ≠ names := by decide

inductive Part where
  | whole
  | exclusions
  | specPlaces
  | texts
  | entries (keys : EntryKeys)
  | entry (keys : EntryKeys)
  | places (sourceKey : String)
  | place (sourceKey : String)
  | scalar

namespace Part

def actionKeys : EntryKeys := { owner := "controller", names := "actions" }

def taskKeys : EntryKeys := { owner := "rake_file", names := "tasks" }

def keys : Part → List (String × Part)
  | .whole => [("exclusions", .exclusions), ("custom_mappings", .specPlaces)]
  | .exclusions => [
      ("controllers", .texts),
      ("controller_actions", .entries actionKeys),
      ("usecase_specs", .texts),
      ("rake_files", .texts),
      ("rake_tasks", .entries taskKeys),
      ("rake_specs", .texts)]
  | .specPlaces => [("usecases", .places "usecase_file"), ("rakes", .places "rake_file")]
  | .entry keys => [(keys.owner, .scalar), (keys.names, .texts)]
  | .place sourceKey => [(sourceKey, .scalar), ("spec_file", .scalar)]
  | .texts | .entries _ | .places _ | .scalar => []

def under (part : Part) (key : String) : Option Part :=
  part.keys.lookup key

def item : Part → Option Part
  | .texts => some .scalar
  | .entries keys => some (.entry keys)
  | .places sourceKey => some (.place sourceKey)
  | _ => none

def Value : Part → Type
  | .whole => Option Settings
  | .exclusions => Exclusions
  | .specPlaces => SpecPlaces
  | .texts => List String
  | .entries _ => List NamedExclusion
  | .entry _ => Option NamedExclusion
  | .places _ => List SpecPlace
  | .place _ => Option SpecPlace
  | .scalar => Option String

def reading : (part : Part) → Document → Except Whole.Refusal part.Value
  | .whole => ofDocument?
  | .exclusions => exclusionsOf
  | .specPlaces => specPlacesOf
  | .texts => Document.texts
  | .entries keys => fun d => collect (namedExclusion? keys.owner keys.names) d.items
  | .entry keys => namedExclusion? keys.owner keys.names
  | .places sourceKey => fun d => collect (specPlace? sourceKey) d.items
  | .place sourceKey => specPlace? sourceKey
  | .scalar => scalar?

def Alike (part : Part) (d e : Document) : Prop :=
  part.reading d = part.reading e

theorem Alike.refl (part : Part) (d : Document) : part.Alike d d :=
  rfl

theorem under_owner (keys : EntryKeys) : (entry keys).under keys.owner = some .scalar := by
  simp [under, Part.keys]

theorem under_names (keys : EntryKeys) : (entry keys).under keys.names = some .texts := by
  simp [under, Part.keys, List.lookup_cons, beq_eq_false_iff_ne.mpr keys.owner_ne_names.symm]

theorem under_source (sourceKey : String) : (place sourceKey).under sourceKey = some .scalar := by
  simp [under, Part.keys]

theorem under_spec (sourceKey : String) :
    (place sourceKey).under "spec_file" = some .scalar := by
  cases h : "spec_file" == sourceKey with
  | false => simp [under, Part.keys, List.lookup_cons, h]
  | true => simp [under, Part.keys, List.lookup_cons, h]

/-- What is read from a mapping depends on what is read under its documented keys. -/
theorem alike_of_under {part : Part} {d e : Document} (hd : d.isMapping = true)
    (he : e.isMapping = true)
    (h : ∀ key inner, part.under key = some inner → inner.Alike (d.get key) (e.get key)) :
    part.Alike d e := by
  cases d with
  | mapping fields =>
      cases e with
      | mapping fields' =>
          cases part with
          | whole =>
              have hexclusions : exclusionsOf _ = exclusionsOf _ := h "exclusions" .exclusions rfl
              have hplaces : specPlacesOf _ = specPlacesOf _ := h "custom_mappings" .specPlaces rfl
              show ofDocument? (.mapping fields) = ofDocument? (.mapping fields')
              simp only [ofDocument?, hexclusions, hplaces]
          | exclusions =>
              have hcontrollers : Document.texts _ = Document.texts _ := h "controllers" .texts rfl
              have hactions : collect _ _ = collect _ _ :=
                h "controller_actions" (.entries actionKeys) rfl
              have husecaseSpecs : Document.texts _ = Document.texts _ :=
                h "usecase_specs" .texts rfl
              have hrakeFiles : Document.texts _ = Document.texts _ := h "rake_files" .texts rfl
              have htasks : collect _ _ = collect _ _ := h "rake_tasks" (.entries taskKeys) rfl
              have hrakeSpecs : Document.texts _ = Document.texts _ := h "rake_specs" .texts rfl
              simp only [actionKeys] at hactions
              simp only [taskKeys] at htasks
              show exclusionsOf _ = exclusionsOf _
              simp only [exclusionsOf, hcontrollers, hactions, husecaseSpecs, hrakeFiles, htasks,
                hrakeSpecs]
          | specPlaces =>
              have husecases : collect _ _ = collect _ _ :=
                h "usecases" (.places "usecase_file") rfl
              have hrakes : collect _ _ = collect _ _ := h "rakes" (.places "rake_file") rfl
              show specPlacesOf _ = specPlacesOf _
              simp only [specPlacesOf, husecases, hrakes]
          | entry keys =>
              have howner : scalar? _ = scalar? _ := h keys.owner .scalar (under_owner keys)
              have hnames : Document.texts _ = Document.texts _ :=
                h keys.names .texts (under_names keys)
              show namedExclusion? _ _ _ = namedExclusion? _ _ _
              simp only [namedExclusion?, isMapping, name?_eq, howner, hnames]
          | place sourceKey =>
              have hsource : scalar? _ = scalar? _ := h sourceKey .scalar (under_source sourceKey)
              have hspec : scalar? _ = scalar? _ := h "spec_file" .scalar (under_spec sourceKey)
              show specPlace? _ _ = specPlace? _ _
              simp only [specPlace?, isMapping, name?_eq, hsource, hspec]
          | texts => rfl
          | entries keys => rfl
          | places sourceKey => rfl
          | scalar => rfl
      | _ => cases he
  | _ => cases hd

theorem collect_replace {α β : Type} {read : α → Except Whole.Refusal (Option β)} {x y : α}
    (h : read x = read y) (before after : List α) :
    collect read (before ++ x :: after) = collect read (before ++ y :: after) := by
  rw [collect_append, collect_append, collect, collect, h]

theorem alike_of_item {part inner : Part} (hitem : part.item = some inner) {x y : Document}
    (h : inner.Alike x y) (before after : List Document) :
    part.Alike (.list (before ++ x :: after)) (.list (before ++ y :: after)) := by
  cases part with
  | texts =>
      cases hitem
      exact collect_replace h before after
  | entries keys =>
      cases hitem
      exact collect_replace h before after
  | places sourceKey =>
      cases hitem
      exact collect_replace h before after
  | _ => cases hitem

/-!
# Changes inside a document
-/

/-- A change of a document somewhere below a part: of the part itself, under a documented key, or in
an item of a list. -/
inductive Within (R : Part → Document → Document → Prop) : Part → Document → Document → Prop where
  | here {part : Part} {d e : Document} : R part d e → Within R part d e
  | field {part inner : Part} {key : String} {v w : Document}
      (before after : List (Document × Document)) : part.under key = some inner →
      Within R inner v w →
      Within R part (.mapping (before ++ (.text key, v) :: after))
        (.mapping (before ++ (.text key, w) :: after))
  | item {part inner : Part} {x y : Document} (before after : List Document) :
      part.item = some inner → Within R inner x y →
      Within R part (.list (before ++ x :: after)) (.list (before ++ y :: after))

/-- If the reading of the part that is changed stays as it was, so does that of all around it. -/
theorem Within.alike {R : Part → Document → Document → Prop}
    (hR : ∀ {part d e}, R part d e → part.Alike d e) {part : Part} {d e : Document}
    (h : Within R part d e) : part.Alike d e := by
  induction h with
  | here hchange =>
      exact hR hchange
  | @field part inner key v w before after hunder _ ih =>
      refine alike_of_under rfl rfl ?_
      intro other part' hother
      rcases get_replace key v w before after other with hsame | ⟨rfl, hv, hw⟩
      · rw [hsame]
        exact Alike.refl part' _
      · cases hunder.symm.trans hother
        rw [hv, hw]
        exact ih
  | item before after hitem _ ih =>
      exact alike_of_item hitem ih before after

/-!
# Numbers with too many digits
-/

/-- Whether the value under a key is looked at: the names of an entry are not without an owner. -/
def LooksAt : Part → Document → String → Prop
  | .entry keys, d, key => key = keys.names → ¬ (d.get keys.owner).IsNameless
  | _, _, _ => True

/-- Below a part, a whole number with too many digits stands where a text is asked for. -/
inductive Overlong : Part → Document → Prop where
  | scalar {d : Document} : d.IsLong → Overlong .scalar d
  | field {part inner : Part} {d : Document} {key : String} : part.under key = some inner →
      part.LooksAt d key → Overlong inner (d.get key) → Overlong part d
  | item {part inner : Part} {d x : Document} : part.item = some inner → x ∈ d.items →
      Overlong inner x → Overlong part d

theorem collect_eq_error_iff {α β : Type} {read : α → Except Whole.Refusal (Option β)}
    {xs : List α} {e : Whole.Refusal} :
    collect read xs = .error e ↔ ∃ x ∈ xs, read x = .error e := by
  induction xs with
  | nil =>
      simp [collect]
  | cons x rest ih =>
      rw [collect, List.exists_mem_cons_iff, ← ih]
      cases read x with
      | error other =>
          cases e
          cases other
          exact iff_of_true rfl (Or.inl rfl)
      | ok first =>
          cases collect read rest with
          | error other => simp [bind, Except.bind]
          | ok others => simp [bind, Except.bind, pure, Except.pure]

theorem texts_eq_error_iff {d : Document} {e : Whole.Refusal} :
    d.texts = .error e ↔ ∃ x ∈ d.items, x.IsLong := by
  cases d with
  | list xs =>
      simp only [Document.texts, collect_eq_error_iff, scalar?_eq_error_iff, items]
  | _ =>
      simp [Document.texts, items]

theorem mem_keys_of_under {part inner : Part} {key : String} (h : part.under key = some inner) :
    (key, inner) ∈ part.keys := by
  rcases List.lookup_eq_some_iff.mp h with ⟨before, after, hkeys, _⟩
  rw [hkeys]
  exact List.mem_append_right before List.mem_cons_self

theorem exists_reading_null (part : Part) : ∃ value, part.reading .null = .ok value := by
  cases part with
  | _ => exact ⟨_, rfl⟩

theorem ofDocument?_of_mapping {d : Document} (h : d.isMapping = true) :
    ofDocument? d =
      (exclusionsOf (d.get "exclusions")).bind fun exclusions =>
        (specPlacesOf (d.get "custom_mappings")).bind fun specPlaces =>
          .ok (some { exclusions := exclusions, specPlaces := specPlaces }) := by
  cases d with
  | mapping fields => rfl
  | _ => cases h

section

variable {d : Document} {e : Whole.Refusal}

theorem overlong_entry (keys : EntryKeys)
    (h : namedExclusion? keys.owner keys.names d = .error e) : (entry keys).Overlong d := by
  unfold namedExclusion? at h
  split at h
  · rcases bind_eq_error_iff.mp h with howner | ⟨owner?, howner, hrest⟩
    · exact .field (under_owner keys) (fun hkey => absurd hkey keys.owner_ne_names)
        (.scalar (name?_eq_error_iff.mp howner))
    · cases owner? with
      | none =>
          cases hrest
      | some owner =>
          have hnamed : ¬ (d.get keys.owner).IsNameless := by
            intro hnameless
            cases howner.symm.trans (name?_eq_none_iff.mpr hnameless)
          rcases bind_eq_error_iff.mp hrest with hnames | ⟨names, _, hdone⟩
          · rcases texts_eq_error_iff.mp hnames with ⟨x, hx, hlong⟩
            exact .field (under_names keys) (fun _ => hnamed) (.item rfl hx (.scalar hlong))
          · cases hdone
  · cases h

theorem overlong_place {sourceKey : String} (h : specPlace? sourceKey d = .error e) :
    (place sourceKey).Overlong d := by
  unfold specPlace? at h
  split at h
  · rcases bind_eq_error_iff.mp h with hsource | ⟨source?, _, hrest⟩
    · exact .field (under_source sourceKey) trivial (.scalar (name?_eq_error_iff.mp hsource))
    · rcases bind_eq_error_iff.mp hrest with hspec | ⟨spec?, _, hdone⟩
      · exact .field (under_spec sourceKey) trivial (.scalar (name?_eq_error_iff.mp hspec))
      · split at hdone
        · cases hdone
        · cases hdone
  · cases h

theorem overlong_entries {keys : EntryKeys}
    (h : collect (namedExclusion? keys.owner keys.names) d.items = .error e) :
    (entries keys).Overlong d := by
  rcases collect_eq_error_iff.mp h with ⟨x, hx, hread⟩
  exact .item rfl hx (overlong_entry keys hread)

theorem overlong_places {sourceKey : String}
    (h : collect (specPlace? sourceKey) d.items = .error e) :
    (places sourceKey).Overlong d := by
  rcases collect_eq_error_iff.mp h with ⟨x, hx, hread⟩
  exact .item rfl hx (overlong_place hread)

theorem overlong_texts (h : d.texts = .error e) : Overlong .texts d := by
  rcases texts_eq_error_iff.mp h with ⟨x, hx, hlong⟩
  exact .item rfl hx (.scalar hlong)

theorem overlong_exclusions (h : exclusionsOf d = .error e) : Overlong .exclusions d := by
  have hfield : ∀ {key inner}, exclusions.under key = some inner →
      inner.Overlong (d.get key) → Overlong .exclusions d :=
    fun hunder hinner => .field hunder trivial hinner
  rcases bind_eq_error_iff.mp h with h | ⟨_, _, h⟩
  · exact hfield (show _ = some .texts from rfl) (overlong_texts h)
  rcases bind_eq_error_iff.mp h with h | ⟨_, _, h⟩
  · exact hfield (show _ = some (.entries actionKeys) from rfl) (overlong_entries h)
  rcases bind_eq_error_iff.mp h with h | ⟨_, _, h⟩
  · exact hfield (show _ = some .texts from rfl) (overlong_texts h)
  rcases bind_eq_error_iff.mp h with h | ⟨_, _, h⟩
  · exact hfield (show _ = some .texts from rfl) (overlong_texts h)
  rcases bind_eq_error_iff.mp h with h | ⟨_, _, h⟩
  · exact hfield (show _ = some (.entries taskKeys) from rfl) (overlong_entries h)
  rcases bind_eq_error_iff.mp h with h | ⟨_, _, h⟩
  · exact hfield (show _ = some .texts from rfl) (overlong_texts h)
  · cases h

theorem overlong_specPlaces (h : specPlacesOf d = .error e) : Overlong .specPlaces d := by
  rcases bind_eq_error_iff.mp h with husecases | ⟨_, _, h⟩
  · exact .field (show _ = some (.places "usecase_file") from rfl) trivial
      (overlong_places husecases)
  · rcases bind_eq_error_iff.mp h with hrakes | ⟨_, _, h⟩
    · exact .field (show _ = some (.places "rake_file") from rfl) trivial (overlong_places hrakes)
    · cases h

theorem overlong_of_reading {part : Part} (h : part.reading d = .error e) : part.Overlong d := by
  cases part with
  | whole =>
      cases d with
      | mapping fields =>
          rcases bind_eq_error_iff.mp h with hexclusions | ⟨_, _, h⟩
          · exact .field (show _ = some .exclusions from rfl) trivial
              (overlong_exclusions hexclusions)
          · rcases bind_eq_error_iff.mp h with hplaces | ⟨_, _, h⟩
            · exact .field (show _ = some .specPlaces from rfl) trivial
                (overlong_specPlaces hplaces)
            · cases h
      | _ => cases h
  | exclusions => exact overlong_exclusions h
  | specPlaces => exact overlong_specPlaces h
  | texts => exact overlong_texts h
  | entries keys => exact overlong_entries h
  | entry keys => exact overlong_entry keys h
  | places sourceKey => exact overlong_places h
  | place sourceKey => exact overlong_place h
  | scalar => exact .scalar (scalar?_eq_error_iff.mp h)

theorem exists_reading_under_entry {keys : EntryKeys} {key : String} {inner : Part}
    (hd : d.isMapping = true) {value : Option NamedExclusion}
    (h : namedExclusion? keys.owner keys.names d = .ok value)
    (hkey : (key, inner) ∈ (entry keys).keys) (hlooks : (entry keys).LooksAt d key) :
    ∃ v, inner.reading (d.get key) = .ok v := by
  rw [namedExclusion?, if_pos hd] at h
  rcases exists_of_bind_eq_ok h with ⟨owner?, howner, hrest⟩
  simp only [Part.keys, List.mem_cons, List.not_mem_nil, or_false, Prod.mk.injEq] at hkey
  rcases hkey with ⟨rfl, rfl⟩ | ⟨rfl, rfl⟩
  · cases hread : (d.get keys.owner).scalar? with
    | ok read =>
        exact ⟨read, hread⟩
    | error e =>
        rw [scalar?_eq_error_iff, ← @name?_eq_error_iff _ e, howner] at hread
        cases hread
  · cases owner? with
    | none =>
        exact absurd (name?_eq_none_iff.mp howner) (hlooks rfl)
    | some owner =>
        rcases exists_of_bind_eq_ok hrest with ⟨names, hnames, _⟩
        exact ⟨names, hnames⟩

theorem exists_reading_under_place {sourceKey key : String} {inner : Part}
    (hd : d.isMapping = true) {value : Option SpecPlace} (h : specPlace? sourceKey d = .ok value)
    (hkey : (key, inner) ∈ (place sourceKey).keys) : ∃ v, inner.reading (d.get key) = .ok v := by
  have hscalar : ∀ {name?}, (d.get key).name? = .ok name? →
      ∃ read, (d.get key).scalar? = .ok read := by
    intro name? hname
    cases hread : (d.get key).scalar? with
    | ok read =>
        exact ⟨read, rfl⟩
    | error e =>
        rw [scalar?_eq_error_iff, ← @name?_eq_error_iff _ e, hname] at hread
        cases hread
  rw [specPlace?, if_pos hd] at h
  rcases exists_of_bind_eq_ok h with ⟨source?, hsource, hrest⟩
  rcases exists_of_bind_eq_ok hrest with ⟨spec?, hspec, _⟩
  simp only [Part.keys, List.mem_cons, List.not_mem_nil, or_false, Prod.mk.injEq] at hkey
  rcases hkey with ⟨rfl, rfl⟩ | ⟨rfl, rfl⟩
  · exact hscalar hsource
  · exact hscalar hspec

theorem exists_reading_under {part inner : Part} {key : String} {value : part.Value}
    (h : part.reading d = .ok value) (hunder : part.under key = some inner)
    (hlooks : part.LooksAt d key) : ∃ v, inner.reading (d.get key) = .ok v := by
  cases hd : d.isMapping with
  | false =>
      rw [get_of_not_mapping hd]
      exact exists_reading_null inner
  | true =>
      have hkey := mem_keys_of_under hunder
      cases part with
      | whole =>
          have hwhole := (ofDocument?_of_mapping hd).symm.trans h
          rcases exists_of_bind_eq_ok hwhole with ⟨exclusions, hexclusions, hrest⟩
          rcases exists_of_bind_eq_ok hrest with ⟨places, hplaces, _⟩
          simp only [Part.keys, List.mem_cons, List.not_mem_nil, or_false, Prod.mk.injEq] at hkey
          rcases hkey with ⟨rfl, rfl⟩ | ⟨rfl, rfl⟩
          · exact ⟨exclusions, hexclusions⟩
          · exact ⟨places, hplaces⟩
      | exclusions =>
          rcases exclusionsOf_eq_ok h with
            ⟨hcontrollers, hactions, husecaseSpecs, hrakeFiles, htasks, hrakeSpecs⟩
          simp only [Part.keys, List.mem_cons, List.not_mem_nil, or_false, Prod.mk.injEq] at hkey
          rcases hkey with
            ⟨rfl, rfl⟩ | ⟨rfl, rfl⟩ | ⟨rfl, rfl⟩ | ⟨rfl, rfl⟩ | ⟨rfl, rfl⟩ | ⟨rfl, rfl⟩
          · exact ⟨_, hcontrollers⟩
          · exact ⟨_, hactions⟩
          · exact ⟨_, husecaseSpecs⟩
          · exact ⟨_, hrakeFiles⟩
          · exact ⟨_, htasks⟩
          · exact ⟨_, hrakeSpecs⟩
      | specPlaces =>
          rcases specPlacesOf_eq_ok h with ⟨husecases, hrakes⟩
          simp only [Part.keys, List.mem_cons, List.not_mem_nil, or_false, Prod.mk.injEq] at hkey
          rcases hkey with ⟨rfl, rfl⟩ | ⟨rfl, rfl⟩
          · exact ⟨_, husecases⟩
          · exact ⟨_, hrakes⟩
      | entry keys => exact exists_reading_under_entry hd h hkey hlooks
      | place sourceKey => exact exists_reading_under_place hd h hkey
      | texts => cases hkey
      | entries keys => cases hkey
      | places sourceKey => cases hkey
      | scalar => cases hkey

/-- A part cannot be read exactly if a number with too many digits stands below it. -/
theorem reading_eq_error_iff {part : Part} : part.reading d = .error e ↔ part.Overlong d := by
  refine ⟨overlong_of_reading, ?_⟩
  intro h
  cases e with
  | tooManyDigits =>
      induction h with
      | scalar hlong =>
          exact scalar?_eq_error_iff.mpr hlong
      | @field part inner d key hunder hlooks _ ih =>
          cases hread : part.reading d with
          | error e =>
              cases e
              rfl
          | ok value =>
              rcases exists_reading_under hread hunder hlooks with ⟨v, hv⟩
              cases hv.symm.trans ih
      | @item part inner d x hitem hx _ ih =>
          cases part with
          | texts =>
              cases hitem
              exact texts_eq_error_iff.mpr ⟨x, hx, scalar?_eq_error_iff.mp ih⟩
          | entries keys =>
              cases hitem
              exact collect_eq_error_iff.mpr ⟨x, hx, ih⟩
          | places sourceKey =>
              cases hitem
              exact collect_eq_error_iff.mpr ⟨x, hx, ih⟩
          | _ => cases hitem

theorem exists_reading_iff {part : Part} :
    (∃ value, part.reading d = .ok value) ↔ ¬ part.Overlong d := by
  cases hread : part.reading d with
  | error e =>
      simp [reading_eq_error_iff.mp hread]
  | ok value =>
      refine iff_of_true ⟨value, rfl⟩ ?_
      intro hlong
      cases hread.symm.trans (@reading_eq_error_iff _ .tooManyDigits _ |>.mpr hlong)

end

end Part
end Settings
end UsecaseAudit
