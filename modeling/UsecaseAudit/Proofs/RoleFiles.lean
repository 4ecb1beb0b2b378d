import Mathlib.Order.MinMax
import UsecaseAudit.Proofs.DiskGrowth

/-!
# Which files play a role

The files of a role are told by their paths alone: a file stands at the path,
the path leads through a search place of the role, no folder behind that place
belongs to a tool, the folder that holds the file does not have too long a path to be
listed, and the last name has the ending of the place.  Discovery lists exactly these
files, in the order of their paths and each once.

Discovery fails, and lists nothing, where a search place itself has too long a path, or
where folders go further within one another than a walk can.

The order in which the folders of a disk list their entries does not matter, as
long as no two entries of a folder have the same name.
-/

namespace UsecaseAudit
namespace Entry

/-!
# Folders in which every name occurs once
-/

mutual

def hasUniqueNames : Entry → Bool
  | .file _ => true
  | .folder entries => haveUniqueNames entries

def haveUniqueNames : List (String × Entry) → Bool
  | [] => true
  | (name, entry) :: rest =>
      !(rest.map Prod.fst).contains name && entry.hasUniqueNames && haveUniqueNames rest

end

theorem haveUniqueNames_iff {entries : List (String × Entry)} :
    haveUniqueNames entries = true ↔
      (entries.map Prod.fst).Nodup ∧ ∀ e ∈ entries, e.2.hasUniqueNames = true := by
  induction entries with
  | nil =>
      simp [haveUniqueNames]
  | cons first rest ih =>
      rcases first with ⟨name, entry⟩
      rw [haveUniqueNames, Bool.and_eq_true, Bool.and_eq_true, ih, List.map_cons, List.nodup_cons,
        List.forall_mem_cons, Bool.not_eq_true', List.contains_eq_mem, decide_eq_false_iff_not]
      exact ⟨fun h => ⟨⟨h.1.1, h.2.1⟩, h.1.2, h.2.2⟩, fun h => ⟨⟨h.1.1, h.2.1⟩, h.1.2, h.2.2⟩⟩

theorem areProper_iff {entries : List (String × Entry)} :
    areProper entries = true ↔ ∀ e ∈ entries, isName e.1 = true ∧ e.2.isProper = true := by
  induction entries with
  | nil =>
      simp [areProper]
  | cons first rest ih =>
      rcases first with ⟨name, entry⟩
      rw [areProper, Bool.and_eq_true, Bool.and_eq_true, ih, List.forall_mem_cons]

theorem sizeOf_lt_of_mem {entries : List (String × Entry)} {e : String × Entry} (h : e ∈ entries) :
    sizeOf e.2 < sizeOf (Entry.folder entries) := by
  have hpair := List.sizeOf_lt_of_mem h
  rcases e with ⟨name, entry⟩
  simp only [Prod.mk.sizeOf_spec, Entry.folder.sizeOf_spec] at hpair ⊢
  omega

theorem mem_of_find? {entries : List (String × Entry)} {name : String} {entry : Entry}
    (h : find? entries name = some entry) : (name, entry) ∈ entries := by
  rcases Option.map_eq_some_iff.mp h with ⟨e, hfind, rfl⟩
  have hname := List.find?_some hfind
  rw [← beq_iff_eq.mp hname]
  exact List.mem_of_find?_eq_some hfind

theorem find?_isSome_iff {entries : List (String × Entry)} {name : String} :
    (find? entries name).isSome = true ↔ name ∈ entries.map Prod.fst := by
  rw [find?, Option.isSome_map, List.find?_isSome, List.mem_map]
  simp only [beq_iff_eq]

theorem find?_eq_some_iff {entries : List (String × Entry)}
    (hunique : (entries.map Prod.fst).Nodup) {name : String} {entry : Entry} :
    find? entries name = some entry ↔ (name, entry) ∈ entries := by
  refine ⟨mem_of_find?, fun hmem => ?_⟩
  have hsome := find?_isSome_iff.mpr (List.mem_map.mpr ⟨(name, entry), hmem, rfl⟩)
  rcases Option.isSome_iff_exists.mp hsome with ⟨found, hfound⟩
  have hpair := List.inj_on_of_nodup_map hunique (mem_of_find? hfound) hmem rfl
  cases hpair
  exact hfound

theorem hasUniqueNames_of_at? {entry found : Entry} {place : Location}
    (hunique : entry.hasUniqueNames = true) (h : entry.at? place = some found) :
    found.hasUniqueNames = true := by
  fun_induction at? entry place with
  | case1 entry =>
      cases h
      exact hunique
  | case2 =>
      cases h
  | case3 entries name rest hnone =>
      cases h
  | case4 entries name rest inner hinner ih =>
      rw [hasUniqueNames] at hunique
      exact ih ((haveUniqueNames_iff.mp hunique).right _ (mem_of_find? hinner)) h

theorem isName_of_at? {entry found : Entry} {place : Location} (hproper : entry.isProper = true)
    (h : entry.at? place = some found) : ∀ name ∈ place, isName name = true := by
  fun_induction at? entry place with
  | case1 entry =>
      exact List.forall_mem_nil _
  | case2 =>
      cases h
  | case3 entries name rest hnone =>
      cases h
  | case4 entries name rest inner hinner ih =>
      rw [isProper] at hproper
      have hlisted := areProper_iff.mp hproper _ (mem_of_find? hinner)
      exact List.forall_mem_cons.mpr ⟨hlisted.left, ih hlisted.right h⟩

/-!
# Entries listed in another order
-/

/-- The same entry, except that its folders list their entries in another order. -/
inductive Relisted : Entry → Entry → Prop where
  | file (content : File) : Relisted (.file content) (.file content)
  | folder {xs ys : List (String × Entry)} :
      (xs.map Prod.fst).Perm (ys.map Prod.fst) →
      (∀ name x y, find? xs name = some x → find? ys name = some y → Relisted x y) →
      Relisted (.folder xs) (.folder ys)

theorem Relisted.refl (x : Entry) : Relisted x x := by
  cases x with
  | file content =>
      exact Relisted.file content
  | folder entries =>
      refine Relisted.folder (List.Perm.refl _) ?_
      intro name x y hx hy
      have hlt : sizeOf x < sizeOf (Entry.folder entries) := sizeOf_lt_of_mem (mem_of_find? hx)
      rw [← Option.some.inj (hx.symm.trans hy)]
      exact Relisted.refl x
termination_by sizeOf x
decreasing_by
  exact hlt

theorem Relisted.of_perm {xs ys : List (String × Entry)} (hperm : xs.Perm ys)
    (hunique : (xs.map Prod.fst).Nodup) : Relisted (.folder xs) (.folder ys) := by
  have hnames := hperm.map Prod.fst
  refine Relisted.folder hnames ?_
  intro name x y hx hy
  have hmem := hperm.mem_iff.mp (mem_of_find? hx)
  cases ((find?_eq_some_iff (hnames.nodup_iff.mp hunique)).mpr hmem).symm.trans hy
  exact Relisted.refl x

theorem find?_of_perm {xs ys : List (String × Entry)}
    (hnames : (xs.map Prod.fst).Perm (ys.map Prod.fst)) (name : String) :
    (find? xs name = none ∧ find? ys name = none) ∨
      ∃ x y, find? xs name = some x ∧ find? ys name = some y := by
  have hsome : (find? xs name).isSome = (find? ys name).isSome := by
    rw [Bool.eq_iff_iff, find?_isSome_iff, find?_isSome_iff, hnames.mem_iff]
  cases hx : find? xs name with
  | none =>
      rw [hx, Option.isSome_none] at hsome
      exact Or.inl ⟨rfl, Option.not_isSome_iff_eq_none.mp (Bool.eq_false_iff.mp hsome.symm)⟩
  | some x =>
      rw [hx, Option.isSome_some] at hsome
      rcases Option.isSome_iff_exists.mp hsome.symm with ⟨y, hy⟩
      exact Or.inr ⟨x, y, rfl, hy⟩

theorem Relisted.isFolder_eq {x y : Entry} (h : Relisted x y) : y.isFolder = x.isFolder := by
  cases h with
  | file content => rfl
  | folder _ _ => rfl

theorem Relisted.at?_isFolder {x y : Entry} (h : Relisted x y) (place : Location) :
    (y.at? place).map isFolder = (x.at? place).map isFolder := by
  induction place generalizing x y with
  | nil =>
      rw [at?_nil, at?_nil, Option.map_some, Option.map_some, h.isFolder_eq]
  | cons name rest ih =>
      cases h with
      | file content =>
          rfl
      | folder hnames hbelow =>
          rw [at?, at?]
          rcases find?_of_perm hnames name with ⟨hx, hy⟩ | ⟨x, y, hx, hy⟩
          · rw [hx, hy]
          · rw [hx, hy]
            exact ih (hbelow name x y hx hy)

theorem exists_of_mem_relisted {xs ys : List (String × Entry)}
    (hnames : (xs.map Prod.fst).Perm (ys.map Prod.fst)) (hunique : (xs.map Prod.fst).Nodup)
    {e : String × Entry} (he : e ∈ ys) :
    ∃ x, (e.1, x) ∈ xs ∧ find? xs e.1 = some x ∧ find? ys e.1 = some e.2 := by
  have hy := (find?_eq_some_iff (hnames.nodup_iff.mp hunique)).mpr he
  rcases find?_of_perm hnames e.1 with ⟨_, hnone⟩ | ⟨x, y, hx, _⟩
  · rw [hy] at hnone
    cases hnone
  · exact ⟨x, mem_of_find? hx, hx, hy⟩

theorem Relisted.hasUniqueNames {x y : Entry} (h : Relisted x y)
    (hunique : x.hasUniqueNames = true) : y.hasUniqueNames = true := by
  induction h with
  | file content =>
      rfl
  | folder hnames hbelow ih =>
      rw [Entry.hasUniqueNames, haveUniqueNames_iff] at hunique ⊢
      refine ⟨hnames.nodup_iff.mp hunique.left, ?_⟩
      intro e he
      rcases exists_of_mem_relisted hnames hunique.left he with ⟨x, hmem, hx, hy⟩
      exact ih e.1 x e.2 hx hy (hunique.right _ hmem)

theorem Relisted.isProper {x y : Entry} (h : Relisted x y) (hunique : x.hasUniqueNames = true)
    (hproper : x.isProper = true) : y.isProper = true := by
  induction h with
  | file content =>
      rfl
  | folder hnames hbelow ih =>
      rw [Entry.hasUniqueNames, haveUniqueNames_iff] at hunique
      rw [Entry.isProper, areProper_iff] at hproper ⊢
      intro e he
      rcases exists_of_mem_relisted hnames hunique.left he with ⟨x, hmem, hx, hy⟩
      rcases hproper _ hmem with ⟨hname, hentry⟩
      exact ⟨hname, ih e.1 x e.2 hx hy (hunique.right _ hmem) hentry⟩

end Entry

namespace Disk

def hasUniqueNames (d : Disk) : Bool :=
  Entry.haveUniqueNames d.entries

structure Relisted (d e : Disk) : Prop where
  entries : Entry.Relisted (.folder d.entries) (.folder e.entries)
  here : e.here = d.here
  host : e.host = d.host

section

variable {d e : Disk}

theorem Relisted.kind?_eq (h : Relisted d e) (place : Location) : e.kind? place = d.kind? place :=
  h.entries.at?_isFolder place

theorem Relisted.hasUniqueNames (h : Relisted d e) (hunique : d.hasUniqueNames = true) :
    e.hasUniqueNames = true :=
  h.entries.hasUniqueNames hunique

theorem Relisted.isProper (h : Relisted d e) (hunique : d.hasUniqueNames = true)
    (hproper : d.isProper = true) : e.isProper = true := by
  rw [Disk.isProper, Bool.and_eq_true] at hproper ⊢
  rw [h.here]
  exact ⟨h.entries.isProper hunique hproper.left, hproper.right⟩

theorem kind?_eq_false_iff {place : Location} :
    d.kind? place = some false ↔ ∃ content, d.entry? place = some (.file content) := by
  rw [kind?, Option.map_eq_some_iff]
  constructor
  · rintro ⟨entry, hentry, hkind⟩
    cases entry with
    | file content => exact ⟨content, hentry⟩
    | folder entries => cases hkind
  · rintro ⟨content, hentry⟩
    exact ⟨.file content, hentry, rfl⟩

theorem Relisted.follow_eq (h : Relisted d e) (place : Location) (names : List String) :
    e.follow place names = d.follow place names := by
  induction names generalizing place with
  | nil =>
      rfl
  | cons name rest ih =>
      rw [follow_cons, follow_cons, h.kind?_eq, h.kind?_eq, ih, ih, ih]

theorem Relisted.start_eq (h : Relisted d e) (p : Path) : e.start p = d.start p := by
  rw [start, start, h.here]

theorem Relisted.asks_eq (h : Relisted d e) {question : Entry → Bool} (answer : Bool → Bool)
    (hquestion : ∀ entry : Entry, question entry = answer entry.isFolder) (p : Path) :
    e.asks question p = d.asks question p := by
  rw [asks, asks, lookup, lookup, h.start_eq, h.follow_eq]
  cases refusal? p.text with
  | some fault =>
      rfl
  | none =>
      cases d.follow (d.start p) p.parts with
      | error fault =>
          rfl
      | ok place =>
          have hkind := h.kind?_eq place
          rw [kind?, kind?] at hkind
          dsimp only
          cases hentry : d.entry? place with
          | none =>
              rw [hentry, Option.map_none, Option.map_eq_none_iff] at hkind
              rw [hkind]
          | some entry =>
              rw [hentry, Option.map_some, Option.map_eq_some_iff] at hkind
              rcases hkind with ⟨other, hother, hkind⟩
              rw [hother]
              dsimp only
              rw [hquestion, hquestion, hkind]

theorem Relisted.isPresent_eq (h : Relisted d e) (p : Path) : e.isPresent p = d.isPresent p :=
  h.asks_eq (fun _ => true) (fun _ => rfl) p

theorem Relisted.isFolder_eq (h : Relisted d e) (p : Path) : e.isFolder p = d.isFolder p :=
  h.asks_eq id (fun _ => rfl) p

theorem Relisted.rootOf_eq (h : Relisted d e) (text : String) :
    Discovery.rootOf e text = Discovery.rootOf d text := by
  have hresolve : ∀ p, e.resolve p = d.resolve p := by
    intro p
    rw [resolve, resolve, h.start_eq]
  unfold Discovery.rootOf
  simp only [h.host, hresolve, h.isPresent_eq, h.isFolder_eq]

theorem Relisted.isRoot (h : Relisted d e) {text : String} {root : Location}
    (hroot : Discovery.IsRoot d text root) : Discovery.IsRoot e text root :=
  Discovery.rootOf_eq_ok_iff.mp ((h.rootOf_eq text).trans (Discovery.rootOf_of_isRoot hroot))

theorem follow_ne_nameTooLong {place : Location} {names : List String}
    (hnames : ∀ name ∈ names, isTooLong name = false) :
    d.follow place names ≠ .error .nameTooLong := by
  induction names generalizing place with
  | nil =>
      rw [follow]
      intro h
      cases h
  | cons name rest ih =>
      rcases List.forall_mem_cons.mp hnames with ⟨hname, hrest⟩
      rw [follow_cons, hname, if_neg Bool.false_ne_true]
      split
      · split
        · exact ih hrest
        · split
          · exact ih hrest
          · split
            · intro h
              cases h
            · exact ih hrest
      · intro h
        cases h

end

end Disk

namespace Discovery

/-!
# The folders that a walk comes to
-/

/-- Every folder on the way from `path` to what is `below` can be listed. -/
def IsReached (root : Location) (path below : List String) : Prop :=
  ∀ way, way <+: below → way ≠ below → isListable root (path ++ way) = true

section

variable {root : Location} {path : List String}

theorem isReached_nil : IsReached root path [] := by
  intro way hway hne
  exact absurd (List.prefix_nil.mp hway) hne

theorem isReached_cons_iff {name : String} {rest : List String} :
    IsReached root path (name :: rest) ↔
      isListable root path = true ∧ IsReached root (path ++ [name]) rest := by
  constructor
  · intro h
    refine ⟨?_, fun way hway hne => ?_⟩
    · have hfirst := h [] List.nil_prefix (List.cons_ne_nil name rest).symm
      rwa [List.append_nil] at hfirst
    · have hnext := h (name :: way) (List.cons_prefix_cons.mpr ⟨rfl, hway⟩) fun heq =>
        hne (List.cons.inj heq).right
      rwa [← List.singleton_append, ← List.append_assoc] at hnext
  · rintro ⟨hfirst, hrest⟩ way hway hne
    cases way with
    | nil =>
        rwa [List.append_nil]
    | cons other more =>
        rcases List.cons_prefix_cons.mp hway with ⟨rfl, hmore⟩
        rw [← List.singleton_append, ← List.append_assoc]
        exact hrest more hmore fun heq => hne (congrArg (List.cons other) heq)

theorem isListable_of_prefix {way : List String} (hway : way <+: path)
    (h : isListable root path = true) : isListable root way = true := by
  rcases hway with ⟨more, rfl⟩
  rcases Path.exists_intercalate_append (root ++ way) more with ⟨rest, hrest⟩
  rw [isListable, Path.text_ofLocation, ← List.append_assoc, hrest, ← String.append_assoc,
    ← Path.text_ofLocation, String.utf8ByteSize_append, decide_eq_true_iff] at h
  rw [isListable, decide_eq_true_iff]
  exact Nat.le_trans (Nat.le_add_right _ _) h

theorem isReached_concat_iff {between : List String} {name : String} :
    IsReached root path (between ++ [name]) ↔ isListable root (path ++ between) = true := by
  constructor
  · intro h
    refine h between (List.prefix_append between [name]) fun heq => ?_
    exact List.cons_ne_nil name [] (List.self_eq_append_right.mp heq)
  · intro h way hway hne
    rcases List.prefix_concat_iff.mp hway with heq | hbetween
    · exact absurd heq hne
    · exact isListable_of_prefix ((List.prefix_append_right_inj path).mpr hbetween) h

theorem succ_le_depthIn_iff {entries : List (String × Entry)} {n : Nat} :
    n + 1 ≤ depthIn root path entries ↔ ∃ e ∈ entries, e.2.isFolder = true ∧
      e.1 ∉ toolFolders ∧ n ≤ depthOf root (path ++ [e.1]) e.2 := by
  induction entries with
  | nil =>
      simp [depthIn]
  | cons first rest ih =>
      rcases first with ⟨name, entry⟩
      rw [depthIn, le_max_iff, ih, List.exists_mem_cons_iff]
      refine or_congr_left ?_
      cases entry.isFolder with
      | false =>
          simp
      | true =>
          by_cases htool : name ∈ toolFolders
          · simp [htool]
          · simp [htool]

/-- A walk goes as far as there are folders, outside those of tools, that it comes to. -/
theorem le_depthOf_iff {n : Nat} {entries : List (String × Entry)}
    (hunique : Entry.haveUniqueNames entries = true) :
    n ≤ depthOf root path (.folder entries) ↔ ∃ way, n ≤ way.length ∧
      (∃ inner, (Entry.folder entries).at? way = some (.folder inner)) ∧
      (∀ name ∈ way, name ∉ toolFolders) ∧ IsReached root path way := by
  -- by induction on the depth: one more folder is one more name at the front of a way
  induction n generalizing path entries with
  | zero =>
      exact iff_of_true (Nat.zero_le _)
        ⟨[], Nat.zero_le _, ⟨entries, rfl⟩, List.forall_mem_nil _, isReached_nil⟩
  | succ n ih =>
      have hnames := Entry.haveUniqueNames_iff.mp hunique
      rw [depthOf]
      constructor
      · intro h
        split at h
        · rename_i hlistable
          rcases succ_le_depthIn_iff.mp h with ⟨⟨name, entry⟩, he, hfolder, htool, hdepth⟩
          cases entry with
          | file content =>
              cases hfolder
          | folder inner =>
              rcases (ih (hnames.right _ he)).mp hdepth with ⟨rest, hlength, hat, hopen, hreached⟩
              refine ⟨name :: rest, Nat.succ_le_succ hlength, ?_,
                List.forall_mem_cons.mpr ⟨htool, hopen⟩,
                isReached_cons_iff.mpr ⟨hlistable, hreached⟩⟩
              rw [Entry.at?, (Entry.find?_eq_some_iff hnames.left).mpr he]
              exact hat
        · cases h
      · rintro ⟨way, hlength, ⟨inner, hat⟩, hopen, hreached⟩
        cases way with
        | nil =>
            cases hlength
        | cons name rest =>
            rcases isReached_cons_iff.mp hreached with ⟨hlistable, hreached⟩
            rcases List.forall_mem_cons.mp hopen with ⟨htool, hopen⟩
            rw [Entry.at?] at hat
            rw [if_pos hlistable, succ_le_depthIn_iff]
            cases hfind : Entry.find? entries name with
            | none =>
                rw [hfind] at hat
                cases hat
            | some entry =>
                rw [hfind] at hat
                have he := Entry.mem_of_find? hfind
                cases entry with
                | file content =>
                    cases rest with
                    | nil => cases hat
                    | cons _ _ => cases hat
                | folder more =>
                    refine ⟨_, he, rfl, htool, (ih (hnames.right _ he)).mpr ?_⟩
                    exact ⟨rest, Nat.le_of_succ_le_succ hlength, ⟨inner, hat⟩, hopen, hreached⟩

end

/-!
# The files below a folder
-/

def isPassedOver (e : String × Entry) : Bool :=
  e.2.isFolder && toolFolders.contains e.1

theorem mem_filesIn_iff {root : Location} {path found : List String}
    {entries : List (String × Entry)} :
    found ∈ filesIn root path entries ↔
      ∃ e ∈ entries, isPassedOver e = false ∧ found ∈ filesOf root (path ++ [e.1]) e.2 := by
  induction entries with
  | nil =>
      simp [filesIn]
  | cons first rest ih =>
      rcases first with ⟨name, entry⟩
      rw [filesIn, List.mem_append, ih, List.exists_mem_cons_iff]
      refine or_congr_left ?_
      cases hpassed : isPassedOver (name, entry) with
      | true =>
          rw [isPassedOver] at hpassed
          rw [hpassed]
          simp
      | false =>
          rw [isPassedOver] at hpassed
          rw [hpassed]
          simp

theorem at?_folder_eq_file_iff {entries : List (String × Entry)}
    (hunique : (entries.map Prod.fst).Nodup) {below : List String} {content : File} :
    (Entry.folder entries).at? below = some (.file content) ↔
      ∃ e ∈ entries, ∃ rest, below = e.1 :: rest ∧ e.2.at? rest = some (.file content) := by
  constructor
  · intro hat
    cases below with
    | nil =>
        rw [Entry.at?_nil] at hat
        cases hat
    | cons name rest =>
        rw [Entry.at?] at hat
        cases hfind : Entry.find? entries name with
        | none =>
            rw [hfind] at hat
            cases hat
        | some inner =>
            rw [hfind] at hat
            exact ⟨(name, inner), Entry.mem_of_find? hfind, rest, rfl, hat⟩
  · rintro ⟨e, he, rest, rfl, hat⟩
    rw [Entry.at?, (Entry.find?_eq_some_iff hunique).mpr he]
    exact hat

def IsClear (path : List String) : Prop :=
  ∀ folder ∈ path.dropLast, folder ∉ toolFolders

theorem isClear_cons_iff {e : String × Entry} {below : List String} {content : File}
    (hat : e.2.at? below = some (.file content)) :
    IsClear (e.1 :: below) ↔ isPassedOver e = false ∧ IsClear below := by
  rcases e with ⟨name, entry⟩
  cases below with
  | nil =>
      rw [Entry.at?_nil] at hat
      cases hat
      exact iff_of_true (List.forall_mem_nil _) ⟨rfl, List.forall_mem_nil _⟩
  | cons next rest =>
      cases entry with
      | file content =>
          cases hat
      | folder entries =>
          rw [IsClear, List.dropLast_cons_cons, List.forall_mem_cons, isPassedOver, IsClear]
          simp [Entry.isFolder]

/-- A file is found in an entry when it stands somewhere below, behind no folder of a tool, and a
walk comes to it. -/
theorem mem_filesOf_iff {root : Location} {path found : List String} (entry : Entry)
    (hunique : entry.hasUniqueNames = true) :
    found ∈ filesOf root path entry ↔ ∃ below content, found = path ++ below ∧
      entry.at? below = some (.file content) ∧ IsClear below ∧ IsReached root path below := by
  cases entry with
  | file content =>
      rw [filesOf, List.mem_singleton]
      constructor
      · rintro rfl
        exact ⟨[], content, (List.append_nil _).symm, rfl, List.forall_mem_nil _, isReached_nil⟩
      · rintro ⟨below, content', rfl, hat, _⟩
        cases below with
        | nil => exact List.append_nil path
        | cons name rest => cases hat
  | folder entries =>
      rw [Entry.hasUniqueNames, Entry.haveUniqueNames_iff] at hunique
      rw [filesOf, List.mem_ite_nil_right, mem_filesIn_iff]
      constructor
      · rintro ⟨hlistable, e, he, hpassed, hfound⟩
        have hlt := Entry.sizeOf_lt_of_mem he
        rw [mem_filesOf_iff e.2 (hunique.right e he)] at hfound
        rcases hfound with ⟨rest, content, rfl, hat, hclear, hreached⟩
        refine ⟨e.1 :: rest, content, ?_, ?_, ?_, isReached_cons_iff.mpr ⟨hlistable, hreached⟩⟩
        · rw [List.append_assoc, List.singleton_append]
        · exact (at?_folder_eq_file_iff hunique.left).mpr ⟨e, he, rest, rfl, hat⟩
        · exact (isClear_cons_iff hat).mpr ⟨hpassed, hclear⟩
      · rintro ⟨below, content, rfl, hat, hclear, hreached⟩
        rcases (at?_folder_eq_file_iff hunique.left).mp hat with
          ⟨e, he, rest, rfl, hinner⟩
        have hlt := Entry.sizeOf_lt_of_mem he
        rcases (isClear_cons_iff hinner).mp hclear with ⟨hpassed, hrest⟩
        rcases isReached_cons_iff.mp hreached with ⟨hlistable, hreached⟩
        refine ⟨hlistable, e, he, hpassed, ?_⟩
        rw [mem_filesOf_iff e.2 (hunique.right e he)]
        refine ⟨rest, content, ?_, hinner, hrest, hreached⟩
        rw [List.append_assoc, List.singleton_append]
termination_by sizeOf entry

/-!
# Search places
-/

/-- Why a search place cannot be searched: its path is too long, or a walk comes to a folder in it
that lies further within others than it can go. -/
inductive Obstructs (disk : Disk) (root : Location) (place : SearchPlace) : Failure → Prop where
  | tooLong :
      isListable root place.folder = false →
      Obstructs disk root place (.tooLong (folderPath root place))
  | tooDeep {limit : Nat} {way : List String} :
      isListable root place.folder = true → disk.host.walk = some limit → limit < way.length →
      disk.kind? (root ++ place.folder ++ way) = some true →
      (∀ name ∈ way, name ∉ toolFolders) → IsReached root place.folder way →
      Obstructs disk root place .tooDeep

theorem isUsual_of_mem_folder {role : Role} {place : SearchPlace}
    (hplace : place ∈ role.searchPlaces) : ∀ name ∈ place.folder,
      (name ≠ "." ∧ name ≠ "..") ∧ Path.hasNull name = false ∧ Disk.isTooLong name = false := by
  revert place
  cases role with
  | controller => decide
  | usecase => decide
  | task => decide

section

variable {disk : Disk} {text : String} {root : Location} {role : Role} {place : SearchPlace}

theorem IsRoot.short (hroot : IsRoot disk text root)
    (hstraight : ∀ name ∈ root, name ≠ "." ∧ name ≠ "..") :
    Path.hasNull (Path.ofLocation root).text = false ∧
      ∀ name ∈ root, Disk.isTooLong name = false := by
  rcases hroot.folder with ⟨entries, hlookup⟩
  rw [Disk.lookup_ofLocation hstraight] at hlookup
  split at hlookup
  · cases hlookup
  · rename_i hrefusal
    refine ⟨(Disk.refusal?_eq_none_iff.mp hrefusal).left, ?_⟩
    split at hlookup
    · cases hlookup
    · rename_i target hfollow
      have htarget := Disk.follow_straight hstraight hfollow
      exact ((Disk.follow_eq_ok_iff hstraight).mp (htarget ▸ hfollow)).left

theorem isTooDeep_iff (hunique : disk.hasUniqueNames = true)
    (hfolder : disk.kind? (root ++ place.folder) = some true) :
    isTooDeep disk root place = true ↔ ∃ limit way, disk.host.walk = some limit ∧
      limit < way.length ∧ disk.kind? (root ++ place.folder ++ way) = some true ∧
      (∀ name ∈ way, name ∉ toolFolders) ∧ IsReached root place.folder way := by
  rcases Disk.kind?_eq_true_iff.mp hfolder with ⟨entries, hentry⟩
  have hdisk : (Entry.folder disk.entries).hasUniqueNames = true := hunique
  have hnames := Entry.hasUniqueNames_of_at? hdisk hentry
  rw [Entry.hasUniqueNames] at hnames
  have hbelow : ∀ way, disk.kind? (root ++ place.folder ++ way) = some true ↔
      ∃ inner, (Entry.folder entries).at? way = some (.folder inner) := by
    intro way
    rw [Disk.kind?_eq_true_iff, Disk.entry?, Entry.at?_append, ← Disk.entry?, hentry,
      Option.bind_some]
  rw [isTooDeep, hentry]
  cases disk.host.walk with
  | none =>
      simp
  | some limit =>
      simp only [decide_eq_true_iff, Option.some.injEq, hbelow]
      rw [← Nat.succ_le_iff, le_depthOf_iff hnames]
      constructor
      · rintro ⟨way, hlength, hrest⟩
        exact ⟨limit, way, rfl, hlength, hrest⟩
      · rintro ⟨_, way, rfl, hlength, hrest⟩
        exact ⟨way, hlength, hrest⟩

variable (hproper : disk.isProper = true) (hroot : IsRoot disk text root)
  (hplace : place ∈ role.searchPlaces)

include hproper hroot hplace

theorem lookup_folderPath :
    disk.lookup (folderPath root place) =
      if isListable root place.folder then
        match disk.follow [] (root ++ place.folder) with
        | .error fault => .error fault
        | .ok _ =>
            match disk.entry? (root ++ place.folder) with
            | none => .error .notFound
            | some entry => .ok entry
      else .error .nameTooLong := by
  have hstraight := straight_of_rootOf hproper (rootOf_of_isRoot hroot)
  have husual := isUsual_of_mem_folder hplace
  have hnull : Path.hasNull (folderPath root place).text = false :=
    Path.hasNull_text_append (hroot.short hstraight).left fun name hname =>
      (husual name hname).right.left
  rw [folderPath, Disk.lookup_ofLocation (List.forall_mem_append.mpr
    ⟨hstraight, fun name hname => (husual name hname).left⟩), ← folderPath, Disk.refusal?, hnull,
    if_neg Bool.false_ne_true]
  by_cases hlistable : isListable root place.folder = true
  · have hsize := of_decide_eq_true hlistable
    rewrite [if_pos hlistable, folderPath, if_neg (Nat.not_lt.mpr hsize)]
    rfl
  · have hsize := mt decide_eq_true hlistable
    rw [if_neg hlistable, folderPath, if_pos (Nat.lt_of_not_le hsize)]

theorem isTooLong_of_mem_folderPath :
    ∀ name ∈ root ++ place.folder, Disk.isTooLong name = false := by
  have hstraight := straight_of_rootOf hproper (rootOf_of_isRoot hroot)
  exact List.forall_mem_append.mpr ⟨(hroot.short hstraight).right,
    fun name hname => (isUsual_of_mem_folder hplace name hname).right.right⟩

theorem findsTooLong_folderPath :
    disk.findsTooLong (folderPath root place) = !isListable root place.folder := by
  have hshort := isTooLong_of_mem_folderPath hproper hroot hplace
  rw [Bool.eq_iff_iff, Disk.findsTooLong_iff, lookup_folderPath hproper hroot hplace]
  cases isListable root place.folder with
  | false =>
      exact iff_of_true rfl rfl
  | true =>
      refine iff_of_false ?_ Bool.false_ne_true
      rw [if_pos rfl]
      split
      · rename_i fault hfollow
        intro hfault
        cases hfault
        exact Disk.follow_ne_nameTooLong hshort hfollow
      · split
        · intro h
          cases h
        · intro h
          cases h

theorem answer_folderPath (hlistable : isListable root place.folder = true) :
    disk.answer Entry.isFolder (folderPath root place) =
      (disk.kind? (root ++ place.folder) == some true) := by
  have hstraight := straight_of_rootOf hproper (rootOf_of_isRoot hroot)
  have hnames : ∀ name ∈ root ++ place.folder, name ≠ "." ∧ name ≠ ".." :=
    List.forall_mem_append.mpr
      ⟨hstraight, fun name hname => (isUsual_of_mem_folder hplace name hname).left⟩
  rw [Disk.answer, lookup_folderPath hproper hroot hplace, if_pos hlistable, Disk.kind?]
  cases hentry : disk.entry? (root ++ place.folder) with
  | none =>
      cases disk.follow [] (root ++ place.folder) with
      | error fault => rfl
      | ok target => rfl
  | some entry =>
      have hkind : disk.kind? (root ++ place.folder) ≠ none := by
        rw [Ne, Disk.kind?_eq_none_iff, hentry]
        exact Option.some_ne_none entry
      have hfollow := (@Disk.follow_eq_ok_iff disk [] _ hnames).mpr
        ⟨isTooLong_of_mem_folderPath hproper hroot hplace, Or.inr hkind⟩
      rw [hfollow]
      cases entry with
      | file content => rfl
      | folder entries => rfl

theorem obstructs_iff (hunique : disk.hasUniqueNames = true) {failure : Failure} :
    Obstructs disk root place failure ↔ obstacle? disk root place = some failure := by
  rw [obstacle?, findsTooLong_folderPath hproper hroot hplace]
  cases hlistable : isListable root place.folder with
  | false =>
      rw [Bool.not_false, if_pos rfl, Option.some.injEq]
      constructor
      · intro h
        cases h with
        | tooLong _ => rfl
        | tooDeep hlisted => cases hlistable.symm.trans hlisted
      · rintro rfl
        exact .tooLong hlistable
  | true =>
      rw [Bool.not_true, if_neg Bool.false_ne_true, Option.ite_none_right_eq_some,
        Bool.and_eq_true, answer_folderPath hproper hroot hplace hlistable, beq_iff_eq,
        Option.some.injEq]
      constructor
      · intro h
        cases h with
        | tooLong hlong => cases hlistable.symm.trans hlong
        | tooDeep _ hwalk hlength hkind hopen hreached =>
            have hfolder : disk.kind? (root ++ place.folder) = some true := by
              refine Disk.kind?_above (List.ne_nil_of_length_pos (Nat.zero_lt_of_lt hlength)) ?_
              rw [hkind]
              exact Option.some_ne_none true
            exact ⟨⟨hfolder, (isTooDeep_iff hunique hfolder).mpr
              ⟨_, _, hwalk, hlength, hkind, hopen, hreached⟩⟩, rfl⟩
      · rintro ⟨⟨hfolder, hdeep⟩, rfl⟩
        rcases (isTooDeep_iff hunique hfolder).mp hdeep with
          ⟨limit, way, hwalk, hlength, hkind, hopen, hreached⟩
        exact .tooDeep hlistable hwalk hlength hkind hopen hreached

end

/-!
# The files of search places
-/

def filesBelow (disk : Disk) (root : Location) (places : List SearchPlace) : List ProjectPath :=
  merged (places.filterMap (found disk root))

/-- A file at any depth below a search place, outside the folders of tools, with the ending of the
place, in a folder whose path is not too long to be listed. -/
structure IsFileBelow (disk : Disk) (root : Location) (places : List SearchPlace)
    (path : ProjectPath) : Prop where
  file : ∃ content, disk.entry? (root ++ path) = some (.file content)
  listed : isListable root path.dropLast = true
  place : ∃ place ∈ places, ∃ between name, path = place.folder ++ between ++ [name] ∧
    (∀ folder ∈ between, folder ∉ toolFolders) ∧ Affix.ends name place.ending = true

def AreSearched (disk : Disk) (root : Location) (places : List SearchPlace) : Prop :=
  ∀ place ∈ places, disk.answer Entry.isFolder (folderPath root place) =
    (disk.kind? (root ++ place.folder) == some true)

section

variable {disk : Disk} {root : Location} {path : ProjectPath} {place : SearchPlace}
  {places : List SearchPlace}

theorem found_of_folder {entries : List (String × Entry)}
    (hsearched : AreSearched disk root [place])
    (h : disk.entry? (root ++ place.folder) = some (.folder entries)) :
    found disk root place =
      some ((filesOf root place.folder (.folder entries)).filter fun path =>
        Affix.ends (path.getLast?.getD "") place.ending) := by
  rw [found, hsearched place List.mem_cons_self, Disk.kind?_eq_true_iff.mpr ⟨entries, h⟩,
    filesAt_eq h]
  rfl

theorem found_eq_none (hsearched : AreSearched disk root [place])
    (h : disk.kind? (root ++ place.folder) ≠ some true) : found disk root place = none := by
  rw [found, hsearched place List.mem_cons_self]
  exact if_neg fun hfolder => h (beq_iff_eq.mp hfolder)

theorem entry?_below {entries : List (String × Entry)}
    (h : disk.entry? (root ++ place.folder) = some (.folder entries)) (below : List String) :
    disk.entry? (root ++ (place.folder ++ below)) = (Entry.folder entries).at? below := by
  rw [Disk.entry?] at h ⊢
  rw [← List.append_assoc, Entry.at?_append, h, Option.bind_some]

theorem isFileBelow_singleton_iff (hunique : disk.hasUniqueNames = true)
    (hsearched : AreSearched disk root [place]) :
    IsFileBelow disk root [place] path ↔
      ∃ paths, found disk root place = some paths ∧ path ∈ paths := by
  have hdisk : (Entry.folder disk.entries).hasUniqueNames = true := hunique
  constructor
  · rintro ⟨⟨content, hfile⟩, hlisted, _, hplace, between, name, rfl, hclear, hends⟩
    cases List.mem_singleton.mp hplace
    have hkind : disk.kind? (root ++ place.folder) = some true := by
      rw [List.append_assoc, ← List.append_assoc] at hfile
      have hbelow : between ++ [name] ≠ [] :=
        List.append_ne_nil_of_right_ne_nil between (List.cons_ne_nil name [])
      refine Disk.kind?_above hbelow ?_
      rw [Ne, Disk.kind?_eq_none_iff, hfile]
      exact Option.some_ne_none _
    rcases Disk.kind?_eq_true_iff.mp hkind with ⟨entries, hentry⟩
    refine ⟨_, found_of_folder hsearched hentry, List.mem_filter.mpr ⟨?_, ?_⟩⟩
    · rw [List.append_assoc, entry?_below hentry] at hfile
      rw [List.dropLast_concat] at hlisted
      rw [mem_filesOf_iff _ (Entry.hasUniqueNames_of_at? hdisk hentry)]
      refine ⟨between ++ [name], content, List.append_assoc _ _ _, hfile, ?_,
        isReached_concat_iff.mpr hlisted⟩
      rw [IsClear, List.dropLast_concat]
      exact hclear
    · rw [List.getLast?_concat]
      exact hends
  · rintro ⟨paths, hfound, hpath⟩
    by_cases hkind : disk.kind? (root ++ place.folder) = some true
    · rcases Disk.kind?_eq_true_iff.mp hkind with ⟨entries, hentry⟩
      rw [found_of_folder hsearched hentry] at hfound
      cases hfound
      rcases List.mem_filter.mp hpath with ⟨hpath, hends⟩
      rw [mem_filesOf_iff _ (Entry.hasUniqueNames_of_at? hdisk hentry)] at hpath
      rcases hpath with ⟨below, content, rfl, hat, hclear, hreached⟩
      have hfile := (entry?_below hentry below).trans hat
      rcases List.eq_nil_or_concat' below with rfl | ⟨between, name, rfl⟩
      · rw [Entry.at?_nil] at hat
        cases hat
      · rw [IsClear, List.dropLast_concat] at hclear
        rw [← List.append_assoc, List.getLast?_concat] at hends
        refine ⟨⟨content, hfile⟩, ?_, place, List.mem_singleton_self place, between, name,
          (List.append_assoc _ _ _).symm, hclear, hends⟩
        rw [← List.append_assoc, List.dropLast_concat]
        exact isReached_concat_iff.mp hreached
    · rw [found_eq_none hsearched hkind] at hfound
      cases hfound

theorem isFileBelow_iff_exists :
    IsFileBelow disk root places path ↔ ∃ place ∈ places, IsFileBelow disk root [place] path := by
  constructor
  · rintro ⟨hfile, hlisted, place, hplace, hpath⟩
    exact ⟨place, hplace, hfile, hlisted, place, List.mem_singleton_self place, hpath⟩
  · rintro ⟨place, hplace, hfile, hlisted, _, hsingle, hpath⟩
    cases List.mem_singleton.mp hsingle
    exact ⟨hfile, hlisted, place, hplace, hpath⟩

theorem mem_merged_iff {paths : List (List ProjectPath)}
    (htext : ∀ a ∈ paths.flatten, ∀ b ∈ paths.flatten, a.text = b.text → a = b) :
    path ∈ merged paths ↔ path ∈ paths.flatten := by
  refine ⟨mem_flatten_of_mem_merged, fun h => ?_⟩
  rcases Lists.exists_mem_eraseDupsBy ProjectPath.text h with ⟨b, hb, hsame⟩
  have hb' := (Lists.sublist_eraseDupsBy _ _).subset hb
  rw [merged, List.mem_mergeSort, ← htext b hb' path h hsame]
  exact hb

theorem AreSearched.single (h : AreSearched disk root places) (hplace : place ∈ places) :
    AreSearched disk root [place] := by
  intro other hother
  rw [List.mem_singleton.mp hother]
  exact h place hplace

theorem mem_flatten_found_iff (hunique : disk.hasUniqueNames = true)
    (hsearched : AreSearched disk root places) :
    path ∈ (places.filterMap (found disk root)).flatten ↔ IsFileBelow disk root places path := by
  simp only [List.mem_flatten, List.mem_filterMap]
  rw [isFileBelow_iff_exists]
  constructor
  · rintro ⟨paths, ⟨place, hplace, hfound⟩, hpath⟩
    exact ⟨place, hplace, (isFileBelow_singleton_iff hunique (hsearched.single hplace)).mpr
      ⟨paths, hfound, hpath⟩⟩
  · rintro ⟨place, hplace, hfile⟩
    rcases (isFileBelow_singleton_iff hunique (hsearched.single hplace)).mp hfile with
      ⟨paths, hfound, hpath⟩
    exact ⟨paths, ⟨place, hplace, hfound⟩, hpath⟩

theorem IsFileBelow.isName (h : IsFileBelow disk root places path)
    (hproper : disk.isProper = true) : path ≠ [] ∧ ∀ name ∈ path, Entry.isName name = true := by
  rcases h with ⟨⟨content, hfile⟩, _, place, _, between, name, rfl, _⟩
  have hdisk : (Entry.folder disk.entries).isProper = true := by
    rw [Entry.isProper]
    exact (Bool.and_eq_true_iff.mp hproper).left
  refine ⟨List.append_ne_nil_of_right_ne_nil _ (List.cons_ne_nil _ _), ?_⟩
  intro name hname
  exact Entry.isName_of_at? hdisk hfile name (List.mem_append_right root hname)

/-- The files below search places are those that their paths tell to be so. -/
theorem mem_filesBelow_iff (hproper : disk.isProper = true) (hunique : disk.hasUniqueNames = true)
    (hsearched : AreSearched disk root places) :
    path ∈ filesBelow disk root places ↔ IsFileBelow disk root places path := by
  rw [filesBelow, mem_merged_iff, mem_flatten_found_iff hunique hsearched]
  -- paths of proper names are told apart by their texts
  intro a ha b hb htext
  rcases ((mem_flatten_found_iff hunique hsearched).mp ha).isName hproper with ⟨hane, hanames⟩
  rcases ((mem_flatten_found_iff hunique hsearched).mp hb).isName hproper with ⟨hbne, hbnames⟩
  exact ProjectPath.text_injective hane hbne hanames hbnames htext

theorem eq_of_mem_iff {xs ys : List ProjectPath} (hxs : xs.Pairwise fun a b => a.text < b.text)
    (hys : ys.Pairwise fun a b => a.text < b.text) (h : ∀ path, path ∈ xs ↔ path ∈ ys) :
    xs = ys := by
  have hantisymm : Std.Antisymm fun a b : ProjectPath => a.text < b.text :=
    ⟨fun _ _ hab hba => absurd (String.lt_trans hab hba) (String.lt_irrefl _)⟩
  have hirrefl : Std.Irrefl fun a b : ProjectPath => a.text < b.text :=
    ⟨fun _ => String.lt_irrefl _⟩
  exact List.Pairwise.eq_of_mem_iff hxs hys h

theorem filesBelow_filter_folder (hsearched : AreSearched disk root places) :
    filesBelow disk root (places.filter fun place =>
        disk.kind? (root ++ place.folder) == some true) = filesBelow disk root places := by
  rw [filesBelow, filesBelow, List.filterMap_filter]
  congr 1
  refine List.filterMap_congr fun place hplace => ?_
  split
  · rfl
  · rename_i hkind
    rw [found_eq_none (hsearched.single hplace) (mt beq_iff_eq.mpr hkind)]

/-- A place within another one of the same ending adds nothing, unless a tool owns the way. -/
theorem filesBelow_of_within {fewer : List SearchPlace} (hproper : disk.isProper = true)
    (hunique : disk.hasUniqueNames = true) (hsearched : AreSearched disk root places)
    (hfewer : ∀ place ∈ fewer, place ∈ places)
    (hwithin : ∀ place ∈ places, ∃ outer ∈ fewer, ∃ way, place.folder = outer.folder ++ way ∧
      place.ending = outer.ending ∧ ∀ folder ∈ way, folder ∉ toolFolders) :
    filesBelow disk root fewer = filesBelow disk root places := by
  have hthese : AreSearched disk root fewer := fun place hplace =>
    hsearched place (hfewer place hplace)
  refine eq_of_mem_iff (pairwise_text_merged _) (pairwise_text_merged _) fun path => ?_
  rw [mem_filesBelow_iff hproper hunique hthese, mem_filesBelow_iff hproper hunique hsearched]
  constructor
  · rintro ⟨hfile, hlisted, place, hplace, hpath⟩
    exact ⟨hfile, hlisted, place, hfewer place hplace, hpath⟩
  · rintro ⟨hfile, hlisted, place, hplace, between, name, rfl, hclear, hends⟩
    rcases hwithin place hplace with ⟨outer, houter, way, hfolder, hending, hway⟩
    refine ⟨hfile, hlisted, outer, houter, way ++ between, name, ?_, ?_, hending ▸ hends⟩
    · rw [hfolder, List.append_assoc outer.folder]
    · intro folder hmem
      rcases List.mem_append.mp hmem with hmem | hmem
      · exact hway folder hmem
      · exact hclear folder hmem

end

theorem filesBelow_without_usecases {disk : Disk} {root : Location}
    (hproper : disk.isProper = true) (hunique : disk.hasUniqueNames = true) (role : Role)
    (hsearched : AreSearched disk root role.searchPlaces) :
    filesBelow disk root (role.searchPlaces.filter fun place =>
        place.folder != ["app", "usecases"]) = filesOfRole disk root role := by
  have hinner : ∀ place ∈ role.searchPlaces, ¬ (place.folder != ["app", "usecases"]) = true →
      role = .usecase ∧ place = ⟨["app", "usecases"], "_usecase.rb"⟩ := by
    cases role with
    | controller => decide
    | usecase => decide
    | task => decide
  refine filesBelow_of_within hproper hunique hsearched (fun place => List.mem_of_mem_filter) ?_
  intro place hplace
  by_cases hkept : (place.folder != ["app", "usecases"]) = true
  · exact ⟨place, List.mem_filter.mpr ⟨hplace, hkept⟩, [], (List.append_nil _).symm, rfl,
      List.forall_mem_nil _⟩
  · rcases hinner place hplace hkept with ⟨rfl, rfl⟩
    exact ⟨⟨["app"], "_usecase.rb"⟩, by decide, ["usecases"], rfl, rfl, by decide⟩

/-!
# Discovery
-/

def GivesUp (disk : Disk) (root : Location) (role : Role) (failure : Failure) : Prop :=
  ∃ before place after, role.searchPlaces = before ++ place :: after ∧
    Obstructs disk root place failure ∧ ∀ earlier ∈ before, ∀ e, ¬ Obstructs disk root earlier e

section

variable {disk : Disk} {text : String} {root : Location} {role : Role}

theorem outcome_find (hroot : IsRoot disk text root) (role : Role) :
    (find disk text role.name).outcome =
      (Traced.unlessStopped (unreachable? disk root role.searchPlaces)
        (filesOfRole disk root role)).map fun files => (root, files) := by
  have hname : Role.ofName? role.name = some role := by
    cases role with
    | controller => rfl
    | usecase => rfl
    | task => rfl
  rw [find, Traced.lift, rootOf_of_isRoot hroot, Traced.outcome_bind_ok rfl, hname]
  dsimp only
  rw [Traced.outcome_bind, outcome_inRoot]
  cases Traced.unlessStopped (unreachable? disk root role.searchPlaces)
      (filesOfRole disk root role) with
  | ok files => rfl
  | error failure => rfl

variable (hproper : disk.isProper = true) (hunique : disk.hasUniqueNames = true)
  (hroot : IsRoot disk text root)

include hproper hunique hroot

theorem obstacle?_eq_none_iff {place : SearchPlace} (hplace : place ∈ role.searchPlaces) :
    obstacle? disk root place = none ↔ ∀ e, ¬ Obstructs disk root place e := by
  simp only [obstructs_iff hproper hroot hplace hunique, Option.eq_none_iff_forall_ne_some, ne_eq]

theorem givesUp_iff {failure : Failure} :
    GivesUp disk root role failure ↔
      unreachable? disk root role.searchPlaces = some failure := by
  rw [unreachable?, List.findSome?_eq_some_iff, GivesUp]
  refine exists_congr fun before => exists_congr fun place => exists_congr fun after => ?_
  refine and_congr_right fun hplaces => ?_
  have hbefore : ∀ earlier ∈ before, earlier ∈ role.searchPlaces := fun earlier h =>
    hplaces ▸ List.mem_append_left _ h
  have hplace : place ∈ role.searchPlaces :=
    hplaces ▸ List.mem_append_right before List.mem_cons_self
  refine and_congr (obstructs_iff hproper hroot hplace hunique) (forall₂_congr fun earlier h => ?_)
  exact (obstacle?_eq_none_iff hproper hunique hroot (hbefore earlier h)).symm

theorem unreachable?_eq_none_iff_free :
    unreachable? disk root role.searchPlaces = none ↔
      ∀ place ∈ role.searchPlaces, ∀ e, ¬ Obstructs disk root place e := by
  rw [unreachable?_eq_none_iff]
  refine forall₂_congr fun place hplace => ?_
  exact obstacle?_eq_none_iff hproper hunique hroot hplace

omit hunique in
theorem areSearched_of_free
    (hfree : ∀ place ∈ role.searchPlaces, ∀ e, ¬ Obstructs disk root place e) :
    AreSearched disk root role.searchPlaces := by
  intro place hplace
  refine answer_folderPath hproper hroot hplace ?_
  by_contra hlong
  exact hfree place hplace _ (.tooLong (Bool.eq_false_iff.mpr hlong))

end

/-!
# Disks that list their folders in another order

Obstacles and files are told by what stands where, which does not change.
-/

section

variable {disk other : Disk} {text : String} {root : Location} {role : Role}

theorem Obstructs.of_kinds {place : SearchPlace} {failure : Failure}
    (hhost : other.host = disk.host)
    (hkinds : ∀ location, other.kind? location = disk.kind? location)
    (h : Obstructs disk root place failure) : Obstructs other root place failure := by
  cases h with
  | tooLong hlong =>
      exact .tooLong hlong
  | tooDeep hlisted hwalk hlength hkind hopen hreached =>
      exact .tooDeep hlisted (hhost ▸ hwalk) hlength ((hkinds _).trans hkind) hopen hreached

theorem Obstructs.relisted (h : Disk.Relisted disk other) {place : SearchPlace}
    {failure : Failure} :
    Obstructs other root place failure ↔ Obstructs disk root place failure :=
  ⟨Obstructs.of_kinds h.host.symm fun location => (h.kind?_eq location).symm,
    Obstructs.of_kinds h.host h.kind?_eq⟩

theorem IsFileBelow.relisted (h : Disk.Relisted disk other) {places : List SearchPlace}
    {path : ProjectPath} :
    IsFileBelow other root places path ↔ IsFileBelow disk root places path := by
  have hfile : (∃ content, other.entry? (root ++ path) = some (.file content)) ↔
      ∃ content, disk.entry? (root ++ path) = some (.file content) := by
    rw [← Disk.kind?_eq_false_iff, ← Disk.kind?_eq_false_iff, h.kind?_eq]
  exact ⟨fun hpath => ⟨hfile.mp hpath.file, hpath.listed, hpath.place⟩,
    fun hpath => ⟨hfile.mpr hpath.file, hpath.listed, hpath.place⟩⟩

theorem outcome_find_relisted (h : Disk.Relisted disk other) (hproper : disk.isProper = true)
    (hunique : disk.hasUniqueNames = true) (hroot : IsRoot disk text root) (role : Role) :
    (find other text role.name).outcome = (find disk text role.name).outcome := by
  have hproper' := h.isProper hunique hproper
  have hunique' := h.hasUniqueNames hunique
  have hroot' := h.isRoot hroot
  have hstop : unreachable? other root role.searchPlaces =
      unreachable? disk root role.searchPlaces := by
    refine Option.ext fun failure => ?_
    rw [← givesUp_iff hproper hunique hroot, ← givesUp_iff hproper' hunique' hroot']
    simp only [GivesUp, Obstructs.relisted h]
  rw [outcome_find hroot, outcome_find hroot', hstop]
  cases hnone : unreachable? disk root role.searchPlaces with
  | some failure =>
      rfl
  | none =>
      have hsearched := areSearched_of_free hproper hroot
        ((unreachable?_eq_none_iff_free hproper hunique hroot).mp hnone)
      have hsearched' := areSearched_of_free hproper' hroot'
        ((unreachable?_eq_none_iff_free hproper' hunique' hroot').mp (hstop.trans hnone))
      have hfiles : filesOfRole other root role = filesOfRole disk root role := by
        refine eq_of_mem_iff (pairwise_text_merged _) (pairwise_text_merged _) fun path => ?_
        have hthere := @mem_filesBelow_iff other root path _ hproper' hunique' hsearched'
        have hthese := @mem_filesBelow_iff disk root path _ hproper hunique hsearched
        exact hthere.trans ((IsFileBelow.relisted h).trans hthese.symm)
      rw [hfiles]

end

/-!
# The files of a role
-/

/-- Discovery below a root gives up exactly where a search place cannot be searched, and otherwise
gives exactly the files of a role, in the strict order of their paths.  A search place without a
folder then adds nothing, and neither does the folder of usecases beside that of the application.
The order in which folders list their entries does not matter. -/
theorem find_exact {disk : Disk} (hproper : disk.isProper = true)
    (hunique : disk.hasUniqueNames = true) {text : String} {root : Location}
    (hroot : IsRoot disk text root) (role : Role) :
    (∀ failure, (find disk text role.name).outcome = .error failure ↔
      GivesUp disk root role failure) ∧
    ((∀ place ∈ role.searchPlaces, ∀ e, ¬ Obstructs disk root place e) →
      ∃ files, (find disk text role.name).outcome = .ok (root, files) ∧
        files.Pairwise (fun a b => a.text < b.text) ∧
        (∀ path, path ∈ files ↔ IsFileBelow disk root role.searchPlaces path) ∧
        filesBelow disk root (role.searchPlaces.filter fun place =>
          disk.kind? (root ++ place.folder) == some true) = files ∧
        filesBelow disk root (role.searchPlaces.filter fun place =>
          place.folder != ["app", "usecases"]) = files) ∧
    ∀ other, Disk.Relisted disk other →
      (find other text role.name).outcome = (find disk text role.name).outcome := by
  refine ⟨?_, ?_, fun other h => outcome_find_relisted h hproper hunique hroot role⟩
  · intro failure
    rw [givesUp_iff hproper hunique hroot, outcome_find hroot]
    cases unreachable? disk root role.searchPlaces with
    | none => simp [Traced.unlessStopped, Except.map]
    | some other => simp [Traced.unlessStopped, Except.map]
  · intro hfree
    have hsearched := areSearched_of_free hproper hroot hfree
    have hnone := (unreachable?_eq_none_iff_free hproper hunique hroot).mpr hfree
    refine ⟨filesOfRole disk root role, ?_, pairwise_text_filesOfRole disk root role,
      fun _ => mem_filesBelow_iff hproper hunique hsearched, filesBelow_filter_folder hsearched,
      filesBelow_without_usecases hproper hunique role hsearched⟩
    rw [outcome_find hroot, hnone]
    rfl

/-- A project with usecases in two folders within each other, in a folder of a tool, and with a
file where a search place would be. -/
def usecaseDisk : Disk :=
  { entries := [
      ("app", .folder [
        ("usecases", .folder [("b_usecase.rb", .file ⟨[], none⟩), ("b.rb", .file ⟨[], none⟩)]),
        (".git", .folder [("c_usecase.rb", .file ⟨[], none⟩)]),
        ("a_usecase.rb", .file ⟨[], none⟩)]),
      ("layered", .file ⟨[], none⟩)]
    host := { walk := some 1 } }

def relistedDisk : Disk :=
  { entries := [
      ("layered", .file ⟨[], none⟩),
      ("app", .folder [
        ("a_usecase.rb", .file ⟨[], none⟩),
        ("usecases", .folder [("b_usecase.rb", .file ⟨[], none⟩), ("b.rb", .file ⟨[], none⟩)]),
        (".git", .folder [("c_usecase.rb", .file ⟨[], none⟩)])])]
    host := { walk := some 1 } }

theorem relisted_usecaseDisk : Disk.Relisted usecaseDisk relistedDisk := by
  refine ⟨Entry.Relisted.folder (by decide) ?_, rfl, rfl⟩
  intro name x y hx hy
  rcases List.mem_pair.mp (Entry.mem_of_find? hx) with hfirst | hsecond
  · cases hfirst
    cases hy
    refine Entry.Relisted.of_perm ?_ (by decide)
    show List.Perm ([_, _] ++ [_]) ([_] ++ [_, _])
    exact List.perm_append_comm
  · cases hsecond
    cases hy
    exact Entry.Relisted.refl _

/-- In the project that is listed in another order the same files are found, one folder deep. -/
theorem find_exact_usecaseDisk :
    usecaseDisk.isProper = true ∧ usecaseDisk.hasUniqueNames = true ∧ IsRoot usecaseDisk "/" [] ∧
      Disk.Relisted usecaseDisk relistedDisk ∧
      (find relistedDisk "/" "usecase").outcome =
        .ok ([], [["app", "a_usecase.rb"], ["app", "usecases", "b_usecase.rb"]]) := by
  have hproper : usecaseDisk.isProper = true := by decide +kernel
  have hunique : usecaseDisk.hasUniqueNames = true := by decide +kernel
  have hadmits : usecaseDisk.host.Admits (Path.ofText "/") (Path.ofText "/") :=
    ⟨.plain (by decide +kernel), by decide +kernel⟩
  have hroot : IsRoot usecaseDisk "/" [] :=
    ⟨⟨_, hadmits, by decide +kernel⟩, usecaseDisk.entries, rfl⟩
  have hfree : ∀ place ∈ Role.usecase.searchPlaces, obstacle? usecaseDisk [] place = none := by
    decide +kernel
  have hnone : ∀ place ∈ Role.usecase.searchPlaces, ∀ e, ¬ Obstructs usecaseDisk [] place e :=
    fun place hplace =>
      (obstacle?_eq_none_iff hproper hunique hroot hplace).mp (hfree place hplace)
  have hlisted : (Role.usecase.searchPlaces.filterMap (found usecaseDisk [])).flatten =
      [["app", "usecases", "b_usecase.rb"], ["app", "usecases", "b_usecase.rb"],
        ["app", "a_usecase.rb"]] := by
    decide +kernel
  rcases find_exact hproper hunique hroot .usecase with ⟨_, hfinds, hrelisted⟩
  rcases hfinds hnone with ⟨files, hfiles, hsorted, hmem, _⟩
  have hexact : files = [["app", "a_usecase.rb"], ["app", "usecases", "b_usecase.rb"]] := by
    refine eq_of_mem_iff hsorted (by decide +kernel) fun path => ?_
    rw [hmem, ← mem_flatten_found_iff hunique (areSearched_of_free hproper hroot hnone), hlisted]
    simp only [List.mem_cons, List.not_mem_nil, or_false, or_self_left]
    exact or_comm
  refine ⟨hproper, hunique, hroot, relisted_usecaseDisk, ?_⟩
  rw [← hexact]
  exact (hrelisted relistedDisk relisted_usecaseDisk).trans hfiles

end Discovery
end UsecaseAudit
