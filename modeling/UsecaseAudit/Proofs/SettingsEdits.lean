import Mathlib.Data.List.Forall2
import Mathlib.Logic.Relation
import UsecaseAudit.Proofs.SettingsSchema

/-!
# Documents that load as the same settings

Settings do not change when an item that cannot be used is taken out of its list, or
when a key that the schema does not know comes, goes or gets another value.  There is
one exception: an entry for the place of a spec that cannot be used is still looked at,
so a number with too many digits in it makes loading fail.  The items that can be used
are loaded one by one in their order, so that the list of two lists put together is the
two loaded lists put together.

A value of the wrong type under a documented key counts as if the key were not there.
There is one exception: a byte string in place of a list of texts is loaded as the
list of the numbers in it.
-/

namespace UsecaseAudit
namespace Settings

open Document

namespace Part

/-!
# Items and keys that do not matter
-/

def Unusable : Part → Document → Prop
  | .texts, x => ¬ x.IsScalar
  | .entries keys, x => x.isMapping = false ∨ (x.get keys.owner).IsNameless
  | .places sourceKey, x =>
      x.isMapping = false ∨ (x.get sourceKey).IsNameless ∨ (x.get "spec_file").IsNameless
  | _, _ => False

instance (part : Part) : DecidablePred part.Unusable :=
  fun x =>
    match part with
    | .texts => inferInstanceAs (Decidable (¬ x.IsScalar))
    | .entries keys => inferInstanceAs (Decidable (_ ∨ (x.get keys.owner).IsNameless))
    | .places sourceKey =>
        inferInstanceAs (Decidable (_ ∨ (x.get sourceKey).IsNameless ∨ _))
    | .whole | .exclusions | .specPlaces | .entry _ | .place _ | .scalar =>
        inferInstanceAs (Decidable False)

def IsForeign (part : Part) (key : Document) : Prop :=
  ∀ text, key = .text text → part.under text = none

/-- A change that does not matter: an item that cannot be used and has no number with too many
digits is taken out, fields with foreign keys take the place of others, or a list changes where the
schema has none. -/
inductive Idle (part : Part) : Document → Document → Prop where
  | item {x : Document} (before after : List Document) : part.Unusable x →
      (∀ inner, part.item = some inner → ¬ inner.Overlong x) →
      Idle part (.list (before ++ x :: after)) (.list (before ++ after))
  | keys {others others' : List (Document × Document)} (before after : List (Document × Document)) :
      (∀ f ∈ others, part.IsForeign f.1) → (∀ f ∈ others', part.IsForeign f.1) →
      Idle part (.mapping (before ++ others ++ after)) (.mapping (before ++ others' ++ after))
  | outside (items items' : List Document) : part.item = none →
      Idle part (.list items) (.list items')

theorem namedExclusion?_eq_none_iff {ownerKey namesKey : String} {x : Document} :
    namedExclusion? ownerKey namesKey x = .ok none ↔
      x.isMapping = false ∨ (x.get ownerKey).IsNameless := by
  unfold namedExclusion?
  rw [← name?_eq_none_iff]
  cases x.isMapping with
  | false =>
      simp
  | true =>
      cases (x.get ownerKey).name? with
      | error e =>
          simp [bind, Except.bind]
      | ok owner? =>
          cases owner? with
          | none => simp [bind, Except.bind, pure, Except.pure]
          | some owner =>
              cases (x.get namesKey).texts with
              | error e => simp [bind, Except.bind]
              | ok names => simp [bind, Except.bind, pure, Except.pure]

theorem specPlace?_eq_none_iff {sourceKey : String} {x : Document} :
    specPlace? sourceKey x = .ok none ↔
      x.isMapping = false ∨
        ((x.get sourceKey).IsNameless ∨ (x.get "spec_file").IsNameless) ∧
          ¬ (x.get sourceKey).IsLong ∧ ¬ (x.get "spec_file").IsLong := by
  unfold specPlace?
  rw [← name?_eq_none_iff, ← name?_eq_none_iff, ← @name?_eq_error_iff _ .tooManyDigits,
    ← @name?_eq_error_iff _ .tooManyDigits]
  cases x.isMapping with
  | false =>
      simp
  | true =>
      cases (x.get sourceKey).name? with
      | error e =>
          cases e
          simp [bind, Except.bind]
      | ok source? =>
          cases (x.get "spec_file").name? with
          | error e =>
              cases e
              simp [bind, Except.bind]
          | ok spec? =>
              cases source? with
              | none => simp [bind, Except.bind, pure, Except.pure]
              | some source =>
                  cases spec? with
                  | none => simp [bind, Except.bind, pure, Except.pure]
                  | some spec => simp [bind, Except.bind, pure, Except.pure]

theorem overlong_place_iff {sourceKey : String} {x : Document} :
    (place sourceKey).Overlong x ↔ (x.get sourceKey).IsLong ∨ (x.get "spec_file").IsLong := by
  constructor
  · intro h
    cases h with
    | @field _ inner _ key hunder _ hinner =>
        have hkey := mem_keys_of_under hunder
        simp only [Part.keys, List.mem_cons, List.not_mem_nil, or_false, Prod.mk.injEq] at hkey
        rcases hkey with ⟨rfl, rfl⟩ | ⟨rfl, rfl⟩
        · exact Or.inl (scalar?_eq_error_iff.mp
            (@reading_eq_error_iff _ .tooManyDigits .scalar |>.mpr hinner))
        · exact Or.inr (scalar?_eq_error_iff.mp
            (@reading_eq_error_iff _ .tooManyDigits .scalar |>.mpr hinner))
    | item hitem _ _ => cases hitem
  · rintro (hsource | hspec)
    · exact .field (under_source sourceKey) trivial (.scalar hsource)
    · exact .field (under_spec sourceKey) trivial (.scalar hspec)

/-- Of the items that cannot be used, only an entry for the place of a spec can have a number with
too many digits where it is looked at. -/
theorem overlong_iff_of_unusable {part inner : Part} {x : Document}
    (hitem : part.item = some inner) (h : part.Unusable x) :
    inner.Overlong x ↔ ∃ sourceKey, part = .places sourceKey ∧
      ((x.get sourceKey).IsLong ∨ (x.get "spec_file").IsLong) := by
  cases part with
  | texts =>
      cases hitem
      refine iff_of_false ?_ (by simp)
      intro hlong
      have hread := @reading_eq_error_iff _ .tooManyDigits .scalar |>.mpr hlong
      cases hread.symm.trans (scalar?_eq_none_iff.mpr h)
  | entries keys =>
      cases hitem
      refine iff_of_false ?_ (by simp)
      intro hlong
      have hread := @reading_eq_error_iff _ .tooManyDigits (.entry keys) |>.mpr hlong
      cases hread.symm.trans (namedExclusion?_eq_none_iff.mpr h)
  | places sourceKey =>
      cases hitem
      simp [overlong_place_iff]
  | _ => cases hitem

theorem specPlace?_of_unusable {sourceKey : String} {x : Document}
    (h : (places sourceKey).Unusable x) (hshort : ¬ (place sourceKey).Overlong x) :
    specPlace? sourceKey x = .ok none := by
  rw [overlong_place_iff, not_or] at hshort
  rcases h with hmapping | hnameless
  · exact specPlace?_eq_none_iff.mpr (Or.inl hmapping)
  · exact specPlace?_eq_none_iff.mpr (Or.inr ⟨hnameless, hshort⟩)

theorem collect_remove {α β : Type} {read : α → Except Whole.Refusal (Option β)} {x : α}
    (h : read x = .ok none) (before after : List α) :
    collect read (before ++ x :: after) = collect read (before ++ after) := by
  have hafter : collect read (x :: after) = collect read after := by
    rw [collect, h]
    cases hrest : collect read after with
    | error e => simp [bind, Except.bind]
    | ok others => simp [bind, Except.bind, pure, Except.pure]
  rw [collect_append, collect_append, hafter]

theorem isText_eq_false_of_isForeign {part inner : Part} {key : Document} {text : String}
    (hkey : part.IsForeign key) (htext : part.under text = some inner) :
    key.isText text = false := by
  rw [Bool.eq_false_iff]
  intro h
  rw [hkey text (isText_iff.mp h)] at htext
  cases htext

theorem Idle.alike {part : Part} {d e : Document} (h : Idle part d e) : part.Alike d e := by
  cases h with
  | item before after hunusable hshort =>
      cases part with
      | texts => exact collect_remove (scalar?_eq_none_iff.mpr hunusable) before after
      | entries keys =>
          exact collect_remove (namedExclusion?_eq_none_iff.mpr hunusable) before after
      | places sourceKey =>
          exact collect_remove (specPlace?_of_unusable hunusable (hshort _ rfl)) before after
      | _ => exact hunusable.elim
  | keys before after hothers hothers' =>
      refine alike_of_under rfl rfl ?_
      intro key inner hkey
      rw [get_append_of_not_isText fun f hf => isText_eq_false_of_isForeign (hothers f hf) hkey,
        get_append_of_not_isText fun f hf => isText_eq_false_of_isForeign (hothers' f hf) hkey]
      exact Alike.refl inner _
  | outside items items' hpart =>
      cases part with
      | texts => cases hpart
      | entries keys => cases hpart
      | places sourceKey => cases hpart
      | _ => rfl

theorem alike_of_eqvGen {R : Part → Document → Document → Prop}
    (hR : ∀ {part d e}, R part d e → part.Alike d e) {part : Part} {d e : Document}
    (h : Relation.EqvGen (Within R part) d e) : part.Alike d e := by
  induction h with
  | rel d e hchange => exact hchange.alike hR
  | refl d => exact Alike.refl part d
  | symm d e _ ih => exact Eq.symm ih
  | trans d e f _ _ ih ih' => exact Eq.trans ih ih'

end Part

/-!
# Lists of settings
-/

inductive Listing where
  | controllers
  | controllerActions
  | usecaseSpecs
  | rakeFiles
  | rakeTasks
  | rakeSpecs
  | usecases
  | rakes
  deriving DecidableEq

inductive Loaded where
  | text (s : String)
  | entry (e : NamedExclusion)
  | place (p : SpecPlace)
  deriving DecidableEq

namespace Listing

def sectionKey : Listing → String
  | .usecases | .rakes => "custom_mappings"
  | _ => "exclusions"

def key : Listing → String
  | .controllers => "controllers"
  | .controllerActions => "controller_actions"
  | .usecaseSpecs => "usecase_specs"
  | .rakeFiles => "rake_files"
  | .rakeTasks => "rake_tasks"
  | .rakeSpecs => "rake_specs"
  | .usecases => "usecases"
  | .rakes => "rakes"

def part : Listing → Part
  | .controllers | .usecaseSpecs | .rakeFiles | .rakeSpecs => .texts
  | .controllerActions => .entries Part.actionKeys
  | .rakeTasks => .entries Part.taskKeys
  | .usecases => .places "usecase_file"
  | .rakes => .places "rake_file"

def value (l : Listing) (d : Document) : Document :=
  (d.get l.sectionKey).get l.key

end Listing

def listed (s : Settings) : Listing → List Loaded
  | .controllers => s.exclusions.controllers.map .text
  | .controllerActions => s.exclusions.controllerActions.map .entry
  | .usecaseSpecs => s.exclusions.usecaseSpecs.map .text
  | .rakeFiles => s.exclusions.rakeFiles.map .text
  | .rakeTasks => s.exclusions.rakeTasks.map .entry
  | .rakeSpecs => s.exclusions.rakeSpecs.map .text
  | .usecases => s.specPlaces.usecases.map .place
  | .rakes => s.specPlaces.rakes.map .place

namespace Part

def NamesIn (value : Document) (names : List String) : Prop :=
  ∀ items, value = .list items →
    List.Forall₂ (fun x name => x.scalar? = .ok (some name)) (items.filter fun x => x.IsScalar)
      names

def LoadedAs : Part → Document → Loaded → Prop
  | .texts, x, .text s => x.scalar? = .ok (some s)
  | .entries keys, x, .entry e =>
      (x.get keys.owner).scalar? = .ok (some e.file) ∧ NamesIn (x.get keys.names) e.names
  | .places sourceKey, x, .place p =>
      (x.get sourceKey).scalar? = .ok (some p.source) ∧
        (x.get "spec_file").scalar? = .ok (some p.spec)
  | _, _, _ => False

def loaded? : Part → Document → Except Whole.Refusal (Option Loaded)
  | .texts, x => x.scalar?.map (Option.map .text)
  | .entries keys, x => (namedExclusion? keys.owner keys.names x).map (Option.map .entry)
  | .places sourceKey, x => (specPlace? sourceKey x).map (Option.map .place)
  | _, _ => .ok none

def read : Part → Document → Except Whole.Refusal (List Loaded)
  | .texts, v => v.texts.map (List.map .text)
  | .entries keys, v =>
      (collect (namedExclusion? keys.owner keys.names) v.items).map (List.map .entry)
  | .places sourceKey, v => (collect (specPlace? sourceKey) v.items).map (List.map .place)
  | _, _ => .ok []

theorem map_collect {α β γ : Type} (read : α → Except Whole.Refusal (Option β)) (f : β → γ)
    (xs : List α) :
    (collect read xs).map (List.map f) = collect (fun x => (read x).map (Option.map f)) xs := by
  induction xs with
  | nil =>
      rfl
  | cons x rest ih =>
      rw [collect, collect, ← ih]
      cases read x with
      | error e =>
          rfl
      | ok first =>
          cases collect read rest with
          | error e => rfl
          | ok others =>
              cases first with
              | none => rfl
              | some y => rfl

theorem read_list {part : Part} (hpart : part.item.isSome = true) (items : List Document) :
    part.read (.list items) = collect part.loaded? items := by
  cases part with
  | texts => exact map_collect scalar? _ items
  | entries keys => exact map_collect _ _ items
  | places sourceKey => exact map_collect _ _ items
  | _ => cases hpart

theorem forall₂_collect {α β : Type} {read : α → Except Whole.Refusal (Option β)} {p : α → Prop}
    [DecidablePred p] {R : α → β → Prop} (hnone : ∀ x, read x = .ok none → ¬ p x)
    (hsome : ∀ x y, read x = .ok (some y) → p x ∧ R x y) {xs : List α} {ys : List β}
    (h : collect read xs = .ok ys) : List.Forall₂ R (xs.filter fun x => p x) ys := by
  induction xs generalizing ys with
  | nil =>
      cases h
      exact List.Forall₂.nil
  | cons x rest ih =>
      rcases exists_of_bind_eq_ok h with ⟨first, hfirst, hrest⟩
      rcases exists_of_bind_eq_ok hrest with ⟨others, hothers, hys⟩
      cases hys
      cases first with
      | none =>
          rw [List.filter_cons_of_neg (by simpa using hnone x hfirst)]
          exact ih hothers
      | some y =>
          rcases hsome x y hfirst with ⟨hx, hy⟩
          rw [List.filter_cons_of_pos (by simpa using hx)]
          exact List.Forall₂.cons hy (ih hothers)

theorem scalar?_of_name? {d : Document} {s : String} (h : d.name? = .ok (some s)) :
    d.scalar? = .ok (some s) := by
  rw [name?_eq] at h
  cases hread : d.scalar? with
  | error e =>
      rw [hread] at h
      cases h
  | ok read =>
      rw [hread] at h
      exact congrArg Except.ok (Option.filter_eq_some_iff.mp (Except.ok.inj h)).left

theorem namesIn_texts {value : Document} {names : List String} (h : value.texts = .ok names) :
    NamesIn value names := by
  rintro items rfl
  refine forall₂_collect ?_ ?_ h
  · intro x hx
    exact scalar?_eq_none_iff.mp hx
  · intro x name hname
    refine ⟨?_, hname⟩
    by_contra hscalar
    cases hname.symm.trans (scalar?_eq_none_iff.mpr hscalar)

theorem exists_of_map_eq_ok {ε α β : Type} {x : Except ε α} {f : α → β} {b : β}
    (h : x.map f = .ok b) : ∃ a, x = .ok a ∧ f a = b := by
  cases x with
  | error e => cases h
  | ok a => exact ⟨a, rfl, Except.ok.inj h⟩

theorem unusable_of_loaded? {part : Part} (hpart : part.item.isSome = true) {x : Document}
    (h : part.loaded? x = .ok none) : part.Unusable x := by
  cases part with
  | texts =>
      rcases exists_of_map_eq_ok h with ⟨read, hread, hnone⟩
      rw [Option.map_eq_none_iff.mp hnone] at hread
      exact scalar?_eq_none_iff.mp hread
  | entries keys =>
      rcases exists_of_map_eq_ok h with ⟨read, hread, hnone⟩
      rw [Option.map_eq_none_iff.mp hnone] at hread
      exact namedExclusion?_eq_none_iff.mp hread
  | places sourceKey =>
      rcases exists_of_map_eq_ok h with ⟨read, hread, hnone⟩
      rw [Option.map_eq_none_iff.mp hnone] at hread
      rcases specPlace?_eq_none_iff.mp hread with hmapping | ⟨hnameless, _⟩
      · exact Or.inl hmapping
      · exact Or.inr hnameless
  | _ => cases hpart

theorem loadedAs_entry {keys : EntryKeys} {x : Document} {e : NamedExclusion}
    (h : namedExclusion? keys.owner keys.names x = .ok (some e)) :
    ¬ (entries keys).Unusable x ∧ (entries keys).LoadedAs x (.entry e) := by
  refine ⟨?_, ?_⟩
  · intro hunusable
    cases h.symm.trans (namedExclusion?_eq_none_iff.mpr hunusable)
  · unfold namedExclusion? at h
    split at h
    · rcases exists_of_bind_eq_ok h with ⟨owner?, howner, hrest⟩
      cases owner? with
      | none =>
          cases hrest
      | some owner =>
          rcases exists_of_bind_eq_ok hrest with ⟨names, hnames, hentry⟩
          cases hentry
          exact ⟨scalar?_of_name? howner, namesIn_texts hnames⟩
    · cases h

theorem loadedAs_place {sourceKey : String} {x : Document} {p : SpecPlace}
    (h : specPlace? sourceKey x = .ok (some p)) :
    ¬ (places sourceKey).Unusable x ∧ (places sourceKey).LoadedAs x (.place p) := by
  refine ⟨?_, ?_⟩
  · intro hunusable
    have hshort : ¬ (place sourceKey).Overlong x :=
      exists_reading_iff.mp ⟨some p, h⟩
    cases h.symm.trans (specPlace?_of_unusable hunusable hshort)
  · unfold specPlace? at h
    split at h
    · rcases exists_of_bind_eq_ok h with ⟨source?, hsource, hrest⟩
      rcases exists_of_bind_eq_ok hrest with ⟨spec?, hspec, hplace⟩
      split at hplace
      · cases hplace
        exact ⟨scalar?_of_name? hsource, scalar?_of_name? hspec⟩
      · cases hplace
    · cases h

theorem loadedAs_of_loaded? {part : Part} {x : Document} {y : Loaded}
    (h : part.loaded? x = .ok (some y)) : ¬ part.Unusable x ∧ part.LoadedAs x y := by
  cases part with
  | texts =>
      rcases exists_of_map_eq_ok h with ⟨read, hread, hsome⟩
      rcases Option.map_eq_some_iff.mp hsome with ⟨s, rfl, rfl⟩
      refine ⟨?_, hread⟩
      intro hunusable
      cases hread.symm.trans (scalar?_eq_none_iff.mpr hunusable)
  | entries keys =>
      rcases exists_of_map_eq_ok h with ⟨read, hread, hsome⟩
      rcases Option.map_eq_some_iff.mp hsome with ⟨e, rfl, rfl⟩
      exact loadedAs_entry hread
  | places sourceKey =>
      rcases exists_of_map_eq_ok h with ⟨read, hread, hsome⟩
      rcases Option.map_eq_some_iff.mp hsome with ⟨p, rfl, rfl⟩
      exact loadedAs_place hread
  | _ => cases h

end Part

section

variable {d : Document} {s : Settings}

theorem read_value_eq (hd : d.isMapping = true) (h : ofDocument? d = .ok (some s))
    (l : Listing) : l.part.read (l.value d) = .ok (s.listed l) := by
  rcases ofDocument?_eq_some h with ⟨rfl, _⟩ | ⟨_, hexclusions, hplaces⟩
  · cases hd
  · rcases exclusionsOf_eq_ok hexclusions with
      ⟨hcontrollers, hactions, husecaseSpecs, hrakeFiles, htasks, hrakeSpecs⟩
    rcases specPlacesOf_eq_ok hplaces with ⟨husecases, hrakes⟩
    cases l with
    | controllers => exact congrArg (Except.map _) hcontrollers
    | controllerActions => exact congrArg (Except.map _) hactions
    | usecaseSpecs => exact congrArg (Except.map _) husecaseSpecs
    | rakeFiles => exact congrArg (Except.map _) hrakeFiles
    | rakeTasks => exact congrArg (Except.map _) htasks
    | rakeSpecs => exact congrArg (Except.map _) hrakeSpecs
    | usecases => exact congrArg (Except.map _) husecases
    | rakes => exact congrArg (Except.map _) hrakes

theorem Listing.isSome_item (l : Listing) : l.part.item.isSome = true := by
  cases l with
  | _ => rfl

theorem collect_value_eq (hd : d.isMapping = true) (h : ofDocument? d = .ok (some s))
    {l : Listing} {items : List Document} (hitems : l.value d = .list items) :
    collect l.part.loaded? items = .ok (s.listed l) := by
  rw [← Part.read_list l.isSome_item, ← hitems]
  exact read_value_eq hd h l

/-- The items that can be used are loaded one for one and in their order. -/
theorem forall₂_listed (hd : d.isMapping = true) (h : ofDocument? d = .ok (some s)) {l : Listing}
    {items : List Document} (hitems : l.value d = .list items) :
    List.Forall₂ l.part.LoadedAs (items.filter fun x => ¬ l.part.Unusable x) (s.listed l) := by
  refine Part.forall₂_collect ?_ ?_ (collect_value_eq hd h hitems)
  · intro x hx
    exact not_not.mpr (Part.unusable_of_loaded? l.isSome_item hx)
  · intro x y hy
    exact Part.loadedAs_of_loaded? hy

theorem listed_append {d₁ d₂ : Document} {s₁ s₂ : Settings} (hd : d.isMapping = true)
    (hd₁ : d₁.isMapping = true) (hd₂ : d₂.isMapping = true) (h : ofDocument? d = .ok (some s))
    (h₁ : ofDocument? d₁ = .ok (some s₁)) (h₂ : ofDocument? d₂ = .ok (some s₂)) {l : Listing}
    {items₁ items₂ : List Document} (hitems₁ : l.value d₁ = .list items₁)
    (hitems₂ : l.value d₂ = .list items₂) (hitems : l.value d = .list (items₁ ++ items₂)) :
    s.listed l = s₁.listed l ++ s₂.listed l := by
  have hlist := collect_value_eq hd h hitems
  rw [collect_append, collect_value_eq hd₁ h₁ hitems₁, collect_value_eq hd₂ h₂ hitems₂] at hlist
  exact (Except.ok.inj hlist).symm

theorem overlong_of_mem_value {l : Listing} {items : List Document}
    (hitems : l.value d = .list items) {x : Document} (hx : x ∈ items) {inner : Part}
    (hinner : l.part.item = some inner) (hlong : inner.Overlong x) : Part.whole.Overlong d := by
  have hmem : x ∈ (l.value d).items := by
    rw [hitems]
    exact hx
  have hlist : l.part.Overlong (l.value d) := .item hinner hmem hlong
  cases l with
  | usecases =>
      exact .field (show _ = some Part.specPlaces from rfl) trivial (.field rfl trivial hlist)
  | rakes =>
      exact .field (show _ = some Part.specPlaces from rfl) trivial (.field rfl trivial hlist)
  | _ => exact .field (show _ = some Part.exclusions from rfl) trivial (.field rfl trivial hlist)

end

end Settings

namespace LoadedSettings

open Settings Settings.Part

section

variable {disk : Disk} {path : Path} {d e : Document}

theorem load_of_mapping (hd : d.isMapping = true) (h : Holds disk path d) :
    (whole.Overlong d ∧ load disk path = .error (.number .tooManyDigits)) ∨
      ¬ whole.Overlong d ∧
        ∃ loaded, load disk path = .ok loaded ∧ ofDocument? d = .ok (some loaded.settings) := by
  rcases load_of_holds h with ⟨place, hload⟩
  by_cases hlong : whole.Overlong d
  · have hread : ofDocument? d = .error .tooManyDigits :=
      @reading_eq_error_iff _ .tooManyDigits whole |>.mpr hlong
    rw [hread] at hload
    exact Or.inl ⟨hlong, hload⟩
  · rcases exists_reading_iff.mpr hlong with ⟨settings?, hread⟩
    have hmapping := (ofDocument?_of_mapping hd).symm.trans hread
    rcases exists_of_bind_eq_ok hmapping with ⟨exclusions, _, hrest⟩
    rcases exists_of_bind_eq_ok hrest with ⟨places, _, hsettings⟩
    cases hsettings
    have hfound : ofDocument? d =
        .ok (some { exclusions := exclusions, specPlaces := places }) := hread
    rw [hfound] at hload
    exact Or.inr ⟨hlong, _, hload, hfound⟩

theorem map_load_of_alike {disk' : Disk} {path' : Path} (hd : d.isMapping = true)
    (halike : whole.Alike d e) (h : Holds disk path d) (h' : Holds disk' path' e) :
    (load disk' path').map LoadedSettings.settings =
      (load disk path).map LoadedSettings.settings := by
  have hsame : ofDocument? e = ofDocument? d := Eq.symm halike
  rcases load_of_mapping hd h with ⟨hlong, hload⟩ | ⟨_, loaded, hload, hsettings⟩
  · have hread : ofDocument? d = .error .tooManyDigits :=
      @reading_eq_error_iff _ .tooManyDigits whole |>.mpr hlong
    rcases load_of_holds h' with ⟨place, hload'⟩
    rw [hload', hsame, hread, hload]
    rfl
  · rcases (exists_load_iff_of_holds h').mpr (hsame.trans hsettings) with
      ⟨loaded', hload', hsettings'⟩
    rw [hload, hload']
    exact congrArg Except.ok hsettings'

end

/-- Keys that are not documented and items that cannot be used leave no trace, wherever they stand,
except for entries for the place of a spec.  Such an entry is looked at even if it cannot be used: a
number with too many digits in it makes loading fail, as it does wherever a text is asked for, and
nothing else does.  The items that can be used are loaded one for one and in their order, and lists
put together load as their loaded lists put together. -/
theorem load_passing_over {disk : Disk} {path : Path} {d : Document} (hd : d.isMapping = true)
    (h : Holds disk path d) :
    (∀ (disk' : Disk) (path' : Path) (e : Document), Relation.EqvGen (Within Idle whole) d e →
      Holds disk' path' e →
      (load disk' path').map LoadedSettings.settings =
        (load disk path).map LoadedSettings.settings) ∧
    (∀ (part inner : Part) (x : Document), part.item = some inner → part.Unusable x →
      (inner.Overlong x ↔ ∃ sourceKey, part = .places sourceKey ∧
        ((x.get sourceKey).IsLong ∨ (x.get "spec_file").IsLong))) ∧
    (load disk path = .error (.number .tooManyDigits) ↔ whole.Overlong d) ∧
    (¬ whole.Overlong d → ∃ loaded, load disk path = .ok loaded) ∧
    (∀ (l : Listing) (items : List Document), l.value d = .list items →
      (∀ x ∈ items, ∀ inner, l.part.item = some inner → inner.Overlong x →
        load disk path = .error (.number .tooManyDigits)) ∧
      ∀ loaded, load disk path = .ok loaded →
        List.Forall₂ l.part.LoadedAs (items.filter fun x => ¬ l.part.Unusable x)
          (loaded.settings.listed l)) ∧
    ∀ (disk₁ disk₂ : Disk) (path₁ path₂ : Path) (d₁ d₂ : Document)
      (loaded loaded₁ loaded₂ : LoadedSettings), d₁.isMapping = true → d₂.isMapping = true →
      Holds disk₁ path₁ d₁ → Holds disk₂ path₂ d₂ → load disk path = .ok loaded →
      load disk₁ path₁ = .ok loaded₁ → load disk₂ path₂ = .ok loaded₂ →
      ∀ (l : Listing) (items₁ items₂ : List Document), l.value d₁ = .list items₁ →
        l.value d₂ = .list items₂ → l.value d = .list (items₁ ++ items₂) →
        loaded.settings.listed l = loaded₁.settings.listed l ++ loaded₂.settings.listed l := by
  have hoverlong : (load disk path = .error (.number .tooManyDigits) ↔ whole.Overlong d) ∧
      (¬ whole.Overlong d → ∃ loaded, load disk path = .ok loaded) := by
    rcases load_of_mapping hd h with ⟨hlong, hload⟩ | ⟨hshort, loaded, hload, _⟩
    · exact ⟨iff_of_true hload hlong, fun hshort => absurd hlong hshort⟩
    · refine ⟨iff_of_false ?_ hshort, fun _ => ⟨loaded, hload⟩⟩
      intro hfails
      cases hload.symm.trans hfails
  refine ⟨?_, fun _ _ _ => overlong_iff_of_unusable, hoverlong.left, hoverlong.right, ?_, ?_⟩
  · intro disk' path' e hchanges h'
    exact map_load_of_alike hd (alike_of_eqvGen Idle.alike hchanges) h h'
  · intro l items hitems
    constructor
    · intro x hx inner hinner hlong
      exact hoverlong.left.mpr (overlong_of_mem_value hitems hx hinner hlong)
    · intro loaded hload
      exact forall₂_listed hd ((exists_load_iff_of_holds h).mp ⟨loaded, hload, rfl⟩) hitems
  · intro disk₁ disk₂ path₁ path₂ d₁ d₂ loaded loaded₁ loaded₂ hd₁ hd₂ h₁ h₂ hload hload₁ hload₂
      l items₁ items₂ hitems₁ hitems₂ hitems
    have hsettings := (exists_load_iff_of_holds h).mp ⟨loaded, hload, rfl⟩
    have hsettings₁ := (exists_load_iff_of_holds h₁).mp ⟨loaded₁, hload₁, rfl⟩
    have hsettings₂ := (exists_load_iff_of_holds h₂).mp ⟨loaded₂, hload₂, rfl⟩
    exact listed_append hd hd₁ hd₂ hsettings hsettings₁ hsettings₂ hitems₁ hitems₂ hitems

def actionsDocument (others : List (Document × Document)) (entries : List Document) : Document :=
  .mapping (others ++ [
    (.text "exclusions", .mapping [(.text "controller_actions", .list entries)])])

def actionsEntry (names : List Document) : Document :=
  .mapping [
    (.text "controller", .text "app/controllers/a.rb"),
    (.text "actions", .list names)]

def sourcelessDocument (n : Int) : Document :=
  .mapping [(.text "custom_mappings", .mapping [
    (.text "usecases", .list [.mapping [(.text "spec_file", .int n)]])])]

/-- A foreign key, an item that is no entry and a name that is no scalar leave no trace.  An entry
without a source makes loading fail. -/
theorem load_passing_over_actions :
    (load (diskHolding (actionsDocument [] [actionsEntry [.text "index"]]))
        (Path.ofText Starter.fileName)).map LoadedSettings.settings =
      (load (diskHolding (actionsDocument [(.text "owners", .date)]
          [actionsEntry [.null, .text "index"], .text "index"]))
        (Path.ofText Starter.fileName)).map LoadedSettings.settings ∧
    load (diskHolding (sourcelessDocument (Whole.leastLong)))
      (Path.ofText Starter.fileName) = .error (.number .tooManyDigits) := by
  have hinside : ∀ {entries entries' : List Document},
      Within Idle (.entries actionKeys) (.list entries) (.list entries') →
        Within Idle whole (actionsDocument [] entries) (actionsDocument [] entries') :=
    fun h => .field [] [] rfl (.field [] [] rfl h)
  have hforeign : ∀ f ∈ [(Document.text "owners", Document.date)], whole.IsForeign f.1 := by
    intro f hf text htext
    rw [List.mem_singleton.mp hf] at htext
    cases htext
    rfl
  have hidle : ∀ {part inner : Part} {x : Document} (before after : List Document),
      part.item = some inner → (∀ sourceKey, part ≠ .places sourceKey) → part.Unusable x →
      Idle part (.list (before ++ x :: after)) (.list (before ++ after)) := by
    intro part inner x before after hitem hplaces hunusable
    refine .item before after hunusable ?_
    intro other hother hlong
    rcases (overlong_iff_of_unusable hother hunusable).mp hlong with ⟨sourceKey, hpart, _⟩
    exact hplaces sourceKey hpart
  constructor
  · refine (load_passing_over rfl (holds_diskHolding _)).left _ _ _ ?_ (holds_diskHolding _)
    refine .trans _ (actionsDocument [] [actionsEntry [.null, .text "index"], .text "index"]) _ ?_
      (.trans _ (actionsDocument [] [actionsEntry [.null, .text "index"]]) _ ?_ ?_)
    · exact .rel _ _ (.here (.keys [] _ hforeign fun f hf => absurd hf List.not_mem_nil))
    · exact .rel _ _ (hinside (.here (hidle [_] [] rfl nofun (Or.inl rfl))))
    · exact .rel _ _ (hinside (.item [] [] rfl (.field [_] [] rfl
        (.here (hidle [] _ rfl nofun (show ¬ Document.null.IsScalar by decide))))))
  · have hlong : Whole.isShort (Whole.leastLong) = false := by decide +kernel
    rcases load_passing_over rfl (holds_diskHolding (sourcelessDocument (Whole.leastLong)))
      with ⟨_, _, _, _, hlisted, _⟩
    refine (hlisted .usecases _ rfl).left _ List.mem_cons_self _ rfl ?_
    exact overlong_place_iff.mpr (Or.inr hlong)

end LoadedSettings

/-!
# Values of the wrong type
-/

namespace Settings.Part

open Document

def Fits : Part → Document → Prop
  | .texts, d => (∃ items, d = .list items) ∨ ∃ s, d = .text s
  | .entries _, d | .places _, d => ∃ items, d = .list items
  | .scalar, d => d.IsScalar
  | .whole, d | .exclusions, d | .specPlaces, d | .entry _, d | .place _, d => d.isMapping = true

/-- A documented key is taken out under which a value has the wrong type, unless that is a byte
string with something in it in place of a list of texts. -/
inductive Mistyped (part : Part) : Document → Document → Prop where
  | erase {d : Document} {key : String} {inner : Part} : d.isMapping = true →
      part.under key = some inner → ¬ inner.Fits (d.get key) →
      (∀ content, inner = .texts → d.get key = .bytes content → content = []) →
      Mistyped part d (d.erase key)

theorem under_ne_whole (part : Part) (key : String) : part.under key ≠ some .whole := by
  intro h
  have hmem := mem_keys_of_under h
  cases part with
  | _ => simp [keys] at hmem

theorem exclusionsOf_of_not_mapping {d : Document} (h : d.isMapping = false) :
    exclusionsOf d = .ok {} := by
  simp only [exclusionsOf, get_of_not_mapping h]
  rfl

theorem specPlacesOf_of_not_mapping {d : Document} (h : d.isMapping = false) :
    specPlacesOf d = .ok {} := by
  simp only [specPlacesOf, get_of_not_mapping h]
  rfl

theorem alike_null {part : Part} {d : Document} (hpart : part ≠ .whole) (h : ¬ part.Fits d)
    (hbytes : ∀ content, part = .texts → d = .bytes content → content = []) :
    part.Alike d .null := by
  cases part with
  | whole => exact absurd rfl hpart
  | exclusions =>
      rw [Fits, Bool.not_eq_true] at h
      exact (exclusionsOf_of_not_mapping h).trans (exclusionsOf_of_not_mapping rfl).symm
  | specPlaces =>
      rw [Fits, Bool.not_eq_true] at h
      exact (specPlacesOf_of_not_mapping h).trans (specPlacesOf_of_not_mapping rfl).symm
  | texts =>
      cases d with
      | text s => exact absurd (Or.inr ⟨s, rfl⟩) h
      | list items => exact absurd (Or.inl ⟨items, rfl⟩) h
      | bytes content =>
          rw [hbytes content rfl rfl]
          rfl
      | _ => rfl
  | entries keys =>
      cases d with
      | list items => exact absurd ⟨items, rfl⟩ h
      | _ => rfl
  | places sourceKey =>
      cases d with
      | list items => exact absurd ⟨items, rfl⟩ h
      | _ => rfl
  | entry keys =>
      rw [Fits, Bool.not_eq_true] at h
      exact namedExclusion?_eq_none_iff.mpr (Or.inl h)
  | place sourceKey =>
      rw [Fits, Bool.not_eq_true] at h
      exact specPlace?_eq_none_iff.mpr (Or.inl h)
  | scalar => exact scalar?_eq_none_iff.mpr h

theorem Mistyped.alike {part : Part} {d e : Document} (h : Mistyped part d e) : part.Alike d e := by
  cases h with
  | @erase key inner hd hunder hfits hbytes =>
      refine alike_of_under hd ((isMapping_erase d key).trans hd) ?_
      intro other part' hother
      by_cases hkey : other = key
      · subst hkey
        cases hunder.symm.trans hother
        rw [get_erase_self]
        refine alike_null ?_ hfits hbytes
        intro hwhole
        exact under_ne_whole part other (hwhole ▸ hunder)
      · rw [get_erase_of_ne d hkey]
        exact Alike.refl part' _

end Settings.Part

namespace Settings

open Document

section

variable {d : Document} {s : Settings} {l : Listing} {content : List UInt8}

theorem listed_of_bytes (hd : d.isMapping = true) (h : ofDocument? d = .ok (some s))
    (hpart : l.part = .texts) (hvalue : l.value d = .bytes content) :
    s.listed l = content.map fun b => .text (toString b.toNat) := by
  have hread := read_value_eq hd h l
  rw [hpart, hvalue] at hread
  rw [← Except.ok.inj hread]
  exact List.map_map

theorem listed_of_null (hd : d.isMapping = true) (h : ofDocument? d = .ok (some s))
    (hpart : l.part = .texts) (hvalue : l.value d = .null) : s.listed l = [] := by
  have hread := read_value_eq hd h l
  rw [hpart, hvalue] at hread
  exact (Except.ok.inj hread).symm

theorem mem_of_collect {α β : Type} {read : α → Except Whole.Refusal (Option β)} {xs : List α}
    {ys : List β} (h : collect read xs = .ok ys) {x : α} (hx : x ∈ xs) {y : β}
    (hy : read x = .ok (some y)) : y ∈ ys := by
  rcases List.append_of_mem hx with ⟨before, after, rfl⟩
  rw [collect_append] at h
  rcases exists_of_bind_eq_ok h with ⟨first, _, hrest⟩
  rcases Part.exists_of_map_eq_ok hrest with ⟨second, hsecond, rfl⟩
  rcases exists_of_bind_eq_ok hsecond with ⟨found, hfound, hothers⟩
  rcases exists_of_bind_eq_ok hothers with ⟨others, _, hdone⟩
  cases hdone
  cases hfound.symm.trans hy
  exact List.mem_append_right first List.mem_cons_self

theorem mem_listed_of_bytes (hd : d.isMapping = true) (h : ofDocument? d = .ok (some s))
    {keys : EntryKeys} (hpart : l.part = .entries keys) {items : List Document}
    (hvalue : l.value d = .list items) {x : Document} (hx : x ∈ items)
    (hmapping : x.isMapping = true)
    {owner : String} (howner : (x.get keys.owner).name? = .ok (some owner))
    (hnames : x.get keys.names = .bytes content) :
    .entry ⟨owner, content.map fun b => toString b.toNat⟩ ∈ s.listed l := by
  refine mem_of_collect (collect_value_eq hd h hvalue) hx ?_
  rw [hpart, Part.loaded?, namedExclusion?, if_pos hmapping, howner, hnames]
  rfl

end

end Settings

namespace LoadedSettings

open Settings Settings.Part

/-- A documented key with a value of the wrong type loads as if it were not there, wherever it
stands, unless the value is a byte string in place of a list of texts.  From such a byte string the
numbers in it are loaded as texts, so that it makes a difference whenever it is not empty. -/
theorem load_mistyped {disk : Disk} {path : Path} {d : Document} (hd : d.isMapping = true)
    (h : Holds disk path d) :
    (∀ (disk' : Disk) (path' : Path) (e : Document), Relation.EqvGen (Within Mistyped whole) d e →
      Holds disk' path' e →
      (load disk' path').map LoadedSettings.settings =
        (load disk path).map LoadedSettings.settings) ∧
    (whole.Overlong d → load disk path = .error (.number .tooManyDigits)) ∧
    (¬ whole.Overlong d → ∃ loaded, load disk path = .ok loaded ∧
      (∀ (l : Listing) (content : List UInt8), l.part = .texts → l.value d = .bytes content →
        loaded.settings.listed l = content.map (fun b => .text (toString b.toNat)) ∧
        ∀ (disk' : Disk) (path' : Path) (e : Document), e.isMapping = true → l.value e = .null →
          Holds disk' path' e → ¬ whole.Overlong e →
          ∃ loaded', load disk' path' = .ok loaded' ∧
            (loaded'.settings.listed l = loaded.settings.listed l ↔ content = [])) ∧
      ∀ (l : Listing) (keys : EntryKeys) (items : List Document), l.part = .entries keys →
        l.value d = .list items → ∀ x ∈ items, x.isMapping = true →
        ∀ owner content, (x.get keys.owner).name? = .ok (some owner) →
          x.get keys.names = .bytes content →
          .entry ⟨owner, content.map fun b => toString b.toNat⟩ ∈ loaded.settings.listed l) := by
  refine ⟨?_, ?_, ?_⟩
  · intro disk' path' e hchanges h'
    exact map_load_of_alike hd (alike_of_eqvGen Mistyped.alike hchanges) h h'
  · intro hlong
    rcases load_of_mapping hd h with ⟨_, hload⟩ | ⟨hshort, _⟩
    · exact hload
    · exact absurd hlong hshort
  · intro hshort
    rcases load_of_mapping hd h with ⟨hlong, _⟩ | ⟨_, loaded, hload, hsettings⟩
    · exact absurd hlong hshort
    refine ⟨loaded, hload, ?_, ?_⟩
    · intro l content hpart hvalue
      have hlisted := listed_of_bytes hd hsettings hpart hvalue
      refine ⟨hlisted, ?_⟩
      intro disk' path' e he hnull h' hshort'
      rcases load_of_mapping he h' with ⟨hlong, _⟩ | ⟨_, loaded', hload', hsettings'⟩
      · exact absurd hlong hshort'
      refine ⟨loaded', hload', ?_⟩
      rw [listed_of_null he hsettings' hpart hnull, hlisted, eq_comm, List.map_eq_nil_iff]
    · intro l keys items hpart hvalue x hx hmapping owner content howner hnames
      exact mem_listed_of_bytes hd hsettings hpart hvalue hx hmapping howner hnames

def bytesDocument : Document :=
  .mapping [(.text "exclusions", .mapping [(.text "controllers", .bytes [104, 105])])]

def mistypedDocument : Document :=
  actionsDocument [(.text "custom_mappings", .int 3)]
    [.mapping [(.text "controller", .text "a.rb"), (.text "actions", .date)]]

/-- A number for a section and a date for names load as nothing, and two bytes as two texts. -/
theorem load_mistyped_actions :
    (∃ loaded loaded',
      load (diskHolding mistypedDocument) (Path.ofText Starter.fileName) = .ok loaded ∧
      load (diskHolding (actionsDocument [] [.mapping [(.text "controller", .text "a.rb")]]))
        (Path.ofText Starter.fileName) = .ok loaded' ∧
      loaded'.settings = loaded.settings) ∧
    ∃ loaded, load (diskHolding bytesDocument) (Path.ofText Starter.fileName) = .ok loaded ∧
      loaded.settings.listed .controllers = [.text "104", .text "105"] := by
  constructor
  · rcases @load_mistyped _ _ mistypedDocument rfl (holds_diskHolding _) with
      ⟨hsame, _, hloads⟩
    have hchanges : Relation.EqvGen (Within Mistyped whole) mistypedDocument
        (actionsDocument [] [.mapping [(.text "controller", .text "a.rb")]]) := by
      refine .trans _ (actionsDocument []
        [.mapping [(.text "controller", .text "a.rb"), (.text "actions", .date)]]) _ ?_ ?_
      · refine .rel _ _ (.here (@Mistyped.erase _ _ "custom_mappings" _ rfl rfl ?_ ?_))
        · exact Bool.false_ne_true
        · intro content hpart
          cases hpart
      · refine .rel _ _ (.field [] [] rfl (.field [] [] rfl (.item [] [] rfl (.here
          (@Mistyped.erase _ _ "actions" _ rfl rfl ?_ ?_)))))
        · rintro (⟨items, hitems⟩ | ⟨s, hs⟩)
          · cases hitems
          · cases hs
        · intro content _ hcontent
          cases hcontent
    rcases hloads (exists_reading_iff.mp ⟨_, rfl⟩) with ⟨loaded, hload, _⟩
    have hboth := hsame _ _ _ hchanges (holds_diskHolding _)
    rw [hload] at hboth
    rcases exists_of_map_eq_ok hboth with ⟨loaded', hload', hsettings⟩
    exact ⟨loaded, loaded', hload, hload', hsettings⟩
  · rcases @load_mistyped _ _ bytesDocument rfl (holds_diskHolding _) with ⟨_, _, hloads⟩
    rcases hloads (exists_reading_iff.mp ⟨_, rfl⟩) with ⟨loaded, hload, hbytes, _⟩
    exact ⟨loaded, hload, (hbytes .controllers [104, 105] rfl rfl).left⟩

end LoadedSettings
end UsecaseAudit
