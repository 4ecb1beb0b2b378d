import UsecaseAudit.Proofs.DiskShape

/-!
# Disks that grow

Where a path leads depends only on which locations hold a folder, a file or
nothing at all.  On a disk that keeps every entry of another one, as a folder
or as a file, paths lead at least as far.  Putting an entry at a location where
no folder stands gives such a disk: it changes the entry itself, makes the
folders on the way that are missing, and leaves all other locations alone.
-/

namespace UsecaseAudit

namespace Entry

theorem at?_nil (entry : Entry) : entry.at? [] = some entry := by
  cases entry with
  | file content => rfl
  | folder entries => rfl

theorem at?_append (entry : Entry) (place below : Location) :
    entry.at? (place ++ below) = (entry.at? place).bind fun inner => inner.at? below := by
  fun_induction at? entry place with
  | case1 entry =>
      rfl
  | case2 content name rest =>
      rfl
  | case3 entries name rest hnone =>
      rw [List.cons_append, at?, hnone]
      rfl
  | case4 entries name rest inner hinner ih =>
      rw [List.cons_append, at?, hinner]
      exact ih

end Entry

namespace Disk

/-!
# Kinds of entries
-/

/-- What stands at a location: a folder (`true`), a file (`false`), or nothing. -/
def kind? (d : Disk) (place : Location) : Option Bool :=
  (d.entry? place).map Entry.isFolder

section

variable {d e : Disk} {place : Location}

theorem kind?_eq_true_iff :
    d.kind? place = some true ↔ ∃ entries, d.entry? place = some (.folder entries) := by
  unfold kind?
  rw [Option.map_eq_some_iff]
  constructor
  · rintro ⟨entry, hentry, hkind⟩
    cases entry with
    | file content => cases hkind
    | folder entries => exact ⟨entries, hentry⟩
  · rintro ⟨entries, hentry⟩
    exact ⟨.folder entries, hentry, rfl⟩

theorem kind?_eq_none_iff : d.kind? place = none ↔ d.entry? place = none :=
  Option.map_eq_none_iff

theorem entry?_concat {entries : List (String × Entry)}
    (h : d.entry? place = some (.folder entries)) (name : String) :
    d.entry? (place ++ [name]) = Entry.find? entries name := by
  unfold entry? at h ⊢
  rw [Entry.at?_append, h, Option.bind_some, Entry.at?]
  cases Entry.find? entries name with
  | none => rfl
  | some entry => exact Entry.at?_nil entry

theorem kind?_above {below : Location} (hbelow : below ≠ [])
    (h : d.kind? (place ++ below) ≠ none) : d.kind? place = some true := by
  rw [Ne, kind?_eq_none_iff, entry?, Entry.at?_append] at h
  rw [kind?_eq_true_iff, entry?]
  cases hentry : (Entry.folder d.entries).at? place with
  | none =>
      rw [hentry] at h
      exact absurd rfl h
  | some entry =>
      cases entry with
      | folder entries =>
          exact ⟨entries, rfl⟩
      | file content =>
          rw [hentry] at h
          cases below with
          | nil => exact absurd rfl hbelow
          | cons name rest => exact absurd rfl h

theorem kind?_on_way {target : Location} (hway : place <+: target) (hne : place ≠ target)
    (h : d.kind? target ≠ none) : d.kind? place = some true := by
  rcases hway with ⟨below, rfl⟩
  apply kind?_above _ h
  rintro rfl
  exact hne (List.append_nil place).symm

end

/-!
# Following paths by kinds
-/

theorem follow_cons (d : Disk) (place : Location) (name : String) (rest : List String) :
    d.follow place (name :: rest) =
      if d.kind? place = some true then
        if name = "." then d.follow place rest
        else if name = ".." then d.follow place.dropLast rest
        else if isTooLong name then .error .nameTooLong
        else if d.kind? (place ++ [name]) = none then .error .notFound
        else d.follow (place ++ [name]) rest
      else .error .notFolder := by
  rw [follow]
  cases hentry : d.entry? place with
  | none =>
      have hkind : d.kind? place = none := kind?_eq_none_iff.mpr hentry
      rw [hkind]
      rfl
  | some entry =>
      cases entry with
      | file content =>
          have hkind : d.kind? place = some false := by
            rw [kind?, hentry]
            rfl
          rw [hkind]
          rfl
      | folder entries =>
          rw [if_pos (kind?_eq_true_iff.mpr ⟨entries, hentry⟩)]
          dsimp only
          cases hfind : Entry.find? entries name with
          | none =>
              rw [if_pos (kind?_eq_none_iff.mpr ((entry?_concat hentry name).trans hfind))]
          | some inner =>
              have hpresent : d.kind? (place ++ [name]) ≠ none := by
                rw [Ne, kind?_eq_none_iff, entry?_concat hentry, hfind]
                exact Option.some_ne_none inner
              rw [if_neg hpresent]

theorem follow_eq_of_kinds {d e : Disk} {place : Location} {names : List String}
    (hstraight : ∀ name ∈ names, name ≠ "." ∧ name ≠ "..")
    (hkinds : ∀ done, done <+: names → e.kind? (place ++ done) = d.kind? (place ++ done)) :
    e.follow place names = d.follow place names := by
  induction names generalizing place with
  | nil =>
      rfl
  | cons name rest ih =>
      rcases List.forall_mem_cons.mp hstraight with ⟨⟨hdot, hdots⟩, hrest⟩
      have hhere := hkinds [] List.nil_prefix
      rw [List.append_nil] at hhere
      have hnext := hkinds [name] (List.prefix_append [name] rest)
      have hbelow : e.follow (place ++ [name]) rest = d.follow (place ++ [name]) rest := by
        apply ih hrest
        intro done hdone
        rw [List.append_assoc, List.singleton_append]
        exact hkinds (name :: done) (List.cons_prefix_cons.mpr ⟨rfl, hdone⟩)
      rw [follow_cons, follow_cons, hhere, hnext, hbelow, if_neg hdot, if_neg hdots,
        if_neg hdot, if_neg hdots]

/-- Names without dots lead to the location that they spell exactly when something stands there
and no name is too long. -/
theorem follow_eq_ok_iff {d : Disk} {place : Location} {names : List String}
    (hstraight : ∀ name ∈ names, name ≠ "." ∧ name ≠ "..") :
    d.follow place names = .ok (place ++ names) ↔
      (∀ name ∈ names, isTooLong name = false) ∧
        (names = [] ∨ d.kind? (place ++ names) ≠ none) := by
  induction names generalizing place with
  | nil =>
      rw [follow, List.append_nil]
      exact iff_of_true rfl ⟨fun _ h => absurd h List.not_mem_nil, Or.inl rfl⟩
  | cons name rest ih =>
      rcases List.forall_mem_cons.mp hstraight with ⟨⟨hdot, hdots⟩, hrest⟩
      have hassoc : place ++ name :: rest = (place ++ [name]) ++ rest := by
        rw [List.append_assoc, List.singleton_append]
      rw [follow_cons, if_neg hdot, if_neg hdots, List.forall_mem_cons]
      constructor
      · intro h
        split at h
        · split at h
          · cases h
          · rename_i hshort
            split at h
            · cases h
            · rename_i hpresent
              rw [hassoc] at h
              rcases (ih hrest).mp h with ⟨hnames, hend⟩
              refine ⟨⟨Bool.eq_false_iff.mpr hshort, hnames⟩, Or.inr ?_⟩
              rw [hassoc]
              rcases hend with rfl | hend
              · rwa [List.append_nil]
              · exact hend
        · cases h
      · rintro ⟨⟨hshort, hnames⟩, hend⟩
        have hpresent : d.kind? (place ++ name :: rest) ≠ none :=
          hend.resolve_left (List.cons_ne_nil name rest)
        have hnext : d.kind? (place ++ [name]) ≠ none := by
          by_cases hlast : rest = []
          · rw [hlast] at hpresent
            exact hpresent
          · rw [hassoc] at hpresent
            rw [kind?_above hlast hpresent]
            exact Option.some_ne_none true
        rw [if_pos (kind?_above (List.cons_ne_nil name rest) hpresent), hshort,
          if_neg Bool.false_ne_true, if_neg hnext, hassoc]
        rw [hassoc] at hpresent
        exact (ih hrest).mpr ⟨hnames, Or.inr hpresent⟩

/-!
# Growing
-/

/-- The disk `e` keeps every entry of `d` as what it is, a folder or a file. -/
structure Grows (d e : Disk) : Prop where
  here : e.here = d.here
  host : e.host = d.host
  kept : ∀ place kind, d.kind? place = some kind → e.kind? place = some kind

namespace Grows

variable {d e f : Disk}

theorem refl (d : Disk) : Grows d d :=
  ⟨rfl, rfl, fun _ _ h => h⟩

theorem trans (hde : Grows d e) (hef : Grows e f) : Grows d f where
  here := hef.here.trans hde.here
  host := hef.host.trans hde.host
  kept place kind h := hef.kept place kind (hde.kept place kind h)

theorem kind?_ne_none (h : Grows d e) {place : Location} (hplace : d.kind? place ≠ none) :
    e.kind? place ≠ none := by
  rcases Option.ne_none_iff_exists'.mp hplace with ⟨kind, hkind⟩
  rw [h.kept place kind hkind]
  exact Option.some_ne_none kind

theorem follow_eq_ok (h : Grows d e) {place target : Location} {names : List String}
    (hfollow : d.follow place names = .ok target) : e.follow place names = .ok target := by
  induction names generalizing place with
  | nil =>
      exact hfollow
  | cons name rest ih =>
      rw [follow_cons] at hfollow ⊢
      by_cases hfolder : d.kind? place = some true
      · rw [if_pos hfolder] at hfollow
        rw [if_pos (h.kept place true hfolder)]
        split at hfollow
        · rename_i hdot
          rw [if_pos hdot]
          exact ih hfollow
        · rename_i hdot
          rw [if_neg hdot]
          split at hfollow
          · rename_i hdots
            rw [if_pos hdots]
            exact ih hfollow
          · rename_i hdots
            rw [if_neg hdots]
            split at hfollow
            · cases hfollow
            · rename_i hshort
              rw [if_neg hshort]
              split at hfollow
              · cases hfollow
              · rename_i hpresent
                rw [if_neg (h.kind?_ne_none hpresent)]
                exact ih hfollow
      · rw [if_neg hfolder] at hfollow
        cases hfollow

theorem start_eq (h : Grows d e) (p : Path) : e.start p = d.start p := by
  unfold start
  rw [h.here]

theorem isOk_lookup (h : Grows d e) {p : Path} (hlookup : (d.lookup p).isOk = true) :
    (e.lookup p).isOk = true := by
  unfold lookup at hlookup ⊢
  cases hrefusal : refusal? p.text with
  | some fault =>
      rw [hrefusal] at hlookup
      cases hlookup
  | none =>
      rw [hrefusal] at hlookup
      dsimp only at hlookup ⊢
      rw [h.start_eq]
      cases hfollow : d.follow (d.start p) p.parts with
      | error fault =>
          rw [hfollow] at hlookup
          cases hlookup
      | ok place =>
          rw [hfollow] at hlookup
          rw [h.follow_eq_ok hfollow]
          dsimp only at hlookup ⊢
          have hpresent : d.entry? place ≠ none := by
            intro hnone
            rw [hnone] at hlookup
            cases hlookup
          cases hentry : e.entry? place with
          | none =>
              exact absurd (kind?_eq_none_iff.mpr hentry)
                (h.kind?_ne_none (mt kind?_eq_none_iff.mp hpresent))
          | some entry =>
              rfl

end Grows

/-!
# Putting an entry at a location
-/

/-- The disk `e` is `d` with an entry put at a location, and with folders on the way to it where
nothing was.  All other locations hold what they held. -/
structure Placed (d e : Disk) (target : Location) (entry : Entry) : Prop where
  here : e.here = d.here
  host : e.host = d.host
  placed : e.entry? target = some entry
  above : ∀ place, place <+: target → place ≠ target →
    e.kind? place = some true ∧ d.kind? place ≠ some false
  elsewhere : ∀ place, ¬ place <+: target → e.entry? place = d.entry? place

end Disk

namespace Entry

def isLeaf : Entry → Bool
  | .file _ => true
  | .folder entries => entries.isEmpty

theorem at?_eq_none_of_isLeaf {entry : Entry} (h : entry.isLeaf = true) {below : Location}
    (hbelow : below ≠ []) : entry.at? below = none := by
  cases below with
  | nil =>
      exact absurd rfl hbelow
  | cons name rest =>
      cases entry with
      | file content =>
          rfl
      | folder entries =>
          cases List.isEmpty_iff.mp h
          rfl

def innerOf (entries : List (String × Entry)) (name : String) : List (String × Entry) :=
  match find? entries name with
  | some (.folder inner) => inner
  | _ => []

theorem install_cons_cons (entry : Entry) (name next : String) (rest : Location)
    (entries : List (String × Entry)) :
    install entry (name :: next :: rest) entries =
      put name (.folder (install entry (next :: rest) (innerOf entries name))) entries := by
  rw [install]
  · rfl
  · exact List.cons_ne_nil next rest

theorem at?_innerOf {entries : List (String × Entry)} {name : String}
    (h : ((Entry.folder entries).at? [name]).map isFolder ≠ some false) {below : Location}
    (hbelow : below ≠ []) :
    (Entry.folder (innerOf entries name)).at? below =
      (Entry.folder entries).at? (name :: below) := by
  have hroot : Disk.entry? { entries := entries } [] = some (.folder entries) := rfl
  have hfind : (Entry.folder entries).at? [name] = find? entries name :=
    Disk.entry?_concat hroot name
  rw [hfind] at h
  rw [at?, innerOf]
  cases hname : find? entries name with
  | none =>
      exact at?_eq_none_of_isLeaf rfl hbelow
  | some entry =>
      rw [hname] at h
      cases entry with
      | file content => exact absurd rfl h
      | folder inner => rfl

theorem at?_cons_eq_none {entries : List (String × Entry)} {name : String}
    (h : ((Entry.folder entries).at? [name]).map isFolder ≠ some true) {below : Location}
    (hbelow : below ≠ []) : (Entry.folder entries).at? (name :: below) = none := by
  rw [← List.singleton_append, at?_append]
  cases hold : (Entry.folder entries).at? [name] with
  | none =>
      rfl
  | some old =>
      rw [hold] at h
      cases old with
      | file content => exact at?_eq_none_of_isLeaf rfl hbelow
      | folder inner => exact absurd rfl h

theorem at?_put_elsewhere {entries : List (String × Entry)} {entry : Entry} {name : String}
    {way : Location}
    (h : ∀ below, ¬ below <+: way → entry.at? below = (Entry.folder entries).at? (name :: below))
    {place : Location} (hplace : ¬ place <+: name :: way) :
    (Entry.folder (put name entry entries)).at? place = (Entry.folder entries).at? place := by
  cases place with
  | nil =>
      exact absurd List.nil_prefix hplace
  | cons other below =>
      rw [at?_put]
      by_cases hname : name = other
      · subst hname
        rw [if_pos rfl]
        exact h below fun hway => hplace (List.cons_prefix_cons.mpr ⟨rfl, hway⟩)
      · rw [if_neg hname]

theorem ne_nil_of_not_way {place way : Location} (h : ¬ place <+: way) : place ≠ [] := by
  rintro rfl
  exact h List.nil_prefix

theorem install_leaf {entry : Entry} (hleaf : entry.isLeaf = true) {target : Location}
    {entries : List (String × Entry)} (hne : target ≠ [])
    (habove : ∀ place, place <+: target → place ≠ target →
      ((Entry.folder entries).at? place).map isFolder ≠ some false)
    (hfree : ((Entry.folder entries).at? target).map isFolder ≠ some true) :
    (Entry.folder (install entry target entries)).at? target = some entry ∧
    (∀ place, place <+: target → place ≠ target →
      ((Entry.folder (install entry target entries)).at? place).map isFolder = some true) ∧
    ∀ place, ¬ place <+: target →
      (Entry.folder (install entry target entries)).at? place =
        (Entry.folder entries).at? place := by
  induction target generalizing entries with
  | nil =>
      exact absurd rfl hne
  | cons name rest ih =>
      cases rest with
      | nil =>
          rw [install]
          refine ⟨?_, ?_, ?_⟩
          · rw [at?_put, if_pos rfl, at?_nil]
          · intro place hway hplace
            rcases List.prefix_cons_iff.mp hway with rfl | ⟨below, rfl, hbelow⟩
            · rfl
            · cases List.prefix_nil.mp hbelow
              exact absurd rfl hplace
          · intro place
            apply at?_put_elsewhere
            intro below hbelow
            have hnil := ne_nil_of_not_way hbelow
            rw [at?_eq_none_of_isLeaf hleaf hnil, at?_cons_eq_none hfree hnil]
      | cons next others =>
          have hname : ((Entry.folder entries).at? [name]).map isFolder ≠ some false := by
            apply habove
            · exact List.cons_prefix_cons.mpr ⟨rfl, List.nil_prefix⟩
            · exact fun heq => List.cons_ne_nil next others (List.cons.inj heq).right.symm
          have hstep : ∀ place, place <+: next :: others → place ≠ next :: others →
              ((Entry.folder (innerOf entries name)).at? place).map isFolder ≠ some false := by
            intro place hway hplace
            by_cases hnil : place = []
            · rw [hnil, at?_nil]
              exact fun heq => Bool.false_ne_true (Option.some.inj heq).symm
            · rw [at?_innerOf hname hnil]
              apply habove
              · exact List.cons_prefix_cons.mpr ⟨rfl, hway⟩
              · exact fun heq => hplace (List.cons.inj heq).right
          have hend : ((Entry.folder (innerOf entries name)).at? (next :: others)).map isFolder ≠
              some true := by
            rw [at?_innerOf hname (List.cons_ne_nil next others)]
            exact hfree
          rcases ih (List.cons_ne_nil next others) hstep hend with ⟨hplaced, hfolders, hrest⟩
          rw [install_cons_cons]
          refine ⟨?_, ?_, ?_⟩
          · rw [at?_put, if_pos rfl]
            exact hplaced
          · intro place hway hplace
            cases place with
            | nil =>
                rfl
            | cons other below =>
                rcases List.cons_prefix_cons.mp hway with ⟨rfl, hbelow⟩
                rw [at?_put, if_pos rfl]
                apply hfolders below hbelow
                rintro rfl
                exact hplace rfl
          · intro place
            apply at?_put_elsewhere
            intro below hbelow
            rw [hrest below hbelow, at?_innerOf hname (ne_nil_of_not_way hbelow)]

theorem put_same {name : String} {entry : Entry} {entries : List (String × Entry)}
    (hfind : find? entries name = some entry) : put name entry entries = entries := by
  induction entries with
  | nil =>
      cases hfind
  | cons first rest ih =>
      rcases first with ⟨key, inner⟩
      unfold find? at hfind ih
      rw [List.find?_cons] at hfind
      rw [put]
      by_cases hkey : key = name
      · rw [beq_iff_eq.mpr hkey] at hfind
        cases hfind
        rw [if_pos hkey, hkey]
      · rw [beq_eq_false_iff_ne.mpr hkey] at hfind
        rw [if_neg hkey, ih hfind]

theorem install_same {entry : Entry} {target : Location} {entries : List (String × Entry)}
    (hne : target ≠ []) (h : (Entry.folder entries).at? target = some entry) :
    install entry target entries = entries := by
  induction target generalizing entries with
  | nil =>
      exact absurd rfl hne
  | cons name rest ih =>
      rw [at?] at h
      cases hfind : find? entries name with
      | none =>
          rw [hfind] at h
          cases h
      | some inner =>
          rw [hfind] at h
          dsimp only at h
          cases rest with
          | nil =>
              rw [at?_nil] at h
              cases h
              rw [install]
              exact put_same hfind
          | cons next others =>
              cases inner with
              | file content =>
                  cases h
              | folder below =>
                  rw [install_cons_cons, innerOf, hfind]
                  dsimp only
                  rw [ih (List.cons_ne_nil next others) h]
                  exact put_same hfind

end Entry

namespace Disk

section

variable {d e : Disk} {target : Location} {entry : Entry}

theorem placed_install (hleaf : entry.isLeaf = true) (hne : target ≠ [])
    (habove : ∀ place, place <+: target → place ≠ target → d.kind? place ≠ some false)
    (hfree : d.kind? target ≠ some true) : Placed d (d.install target entry) target entry := by
  rcases Entry.install_leaf hleaf hne habove hfree with ⟨hplaced, hfolders, hrest⟩
  refine ⟨rfl, rfl, hplaced, ?_, hrest⟩
  intro place hway hplace
  exact ⟨hfolders place hway hplace, habove place hway hplace⟩

theorem install_same (hne : target ≠ []) (h : d.entry? target = some entry) :
    d.install target entry = d := by
  unfold install
  rw [Entry.install_same hne h]

namespace Placed

theorem kind?_eq (h : Placed d e target entry) : e.kind? target = some entry.isFolder := by
  unfold kind?
  rw [h.placed]
  rfl

theorem kind?_elsewhere (h : Placed d e target entry) {place : Location}
    (hplace : ¬ place <+: target) : e.kind? place = d.kind? place := by
  unfold kind?
  rw [h.elsewhere place hplace]

/-- A disk on which an entry was put in place of nothing, or a file in place of a file. -/
theorem grows (h : Placed d e target entry)
    (hkind : d.kind? target = none ∨ d.kind? target = some entry.isFolder) : Grows d e := by
  refine ⟨h.here, h.host, ?_⟩
  intro place kind hplace
  by_cases hway : place <+: target
  · by_cases heq : place = target
    · subst heq
      rcases hkind with hnone | hsome
      · rw [hnone] at hplace
        cases hplace
      · rw [h.kind?_eq, ← hsome, hplace]
    · rcases h.above place hway heq with ⟨hfolder, hfile⟩
      cases kind with
      | true => exact hfolder
      | false => exact absurd hplace hfile
  · rw [h.kind?_elsewhere hway]
    exact hplace

/-- An entry put into a folder that was made for it. -/
theorem trans {f : Disk} {folder : Location} {below : Location} {made : Entry}
    (hfolder : Placed d e folder made) (hnone : d.kind? folder = none)
    (hentry : Placed e f (folder ++ below) entry) :
    Placed d f (folder ++ below) entry where
  here := hentry.here.trans hfolder.here
  host := hentry.host.trans hfolder.host
  placed := hentry.placed
  above := by
    intro place hway hplace
    refine ⟨(hentry.above place hway hplace).left, ?_⟩
    by_cases hpath : place <+: folder
    · by_cases heq : place = folder
      · rw [heq, hnone]
        exact fun h => Option.some_ne_none false h.symm
      · exact (hfolder.above place hpath heq).right
    · rw [← hfolder.kind?_elsewhere hpath]
      exact (hentry.above place hway hplace).right
  elsewhere := by
    intro place hplace
    rw [hentry.elsewhere place hplace, hfolder.elsewhere place]
    exact fun hpath => hplace (hpath.trans (List.prefix_append folder below))

end Placed

end

end Disk
end UsecaseAudit
