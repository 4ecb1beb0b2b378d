import UsecaseAudit.Proofs.Discovered

/-!
# Proper names

On a disk no entry has an empty name, a name of one or two dots, or a name with
a slash or a null character.  A path of proper names is the same as the text by
which it is shown, and it leads straight down: to the entry with those names
and to no other.
-/

namespace UsecaseAudit
namespace Entry

def isName (name : String) : Bool :=
  name != "" && name != "." && name != ".." && !name.toList.contains '/' && !Path.hasNull name

mutual

def isProper : Entry → Bool
  | .file _ => true
  | .folder entries => areProper entries

def areProper : List (String × Entry) → Bool
  | [] => true
  | (name, entry) :: rest => isName name && entry.isProper && areProper rest

end

end Entry

/-- A disk on which every entry has a proper name, also those on the way to the working folder. -/
def Disk.isProper (d : Disk) : Bool :=
  Entry.areProper d.entries && d.here.all Entry.isName

namespace Entry

theorem isName_iff {name : String} :
    isName name = true ↔
      (name ≠ "" ∧ name ≠ "." ∧ name ≠ "..") ∧ '/' ∉ name.toList ∧ Char.ofNat 0 ∉ name.toList := by
  unfold isName Path.hasNull
  simp only [Bool.and_eq_true, bne_iff_ne, Bool.not_eq_true', List.contains_eq_mem,
    decide_eq_false_iff_not, and_assoc]

theorem not_mem_toList_of_isName {name : String} (h : isName name = true) :
    '/' ∉ name.toList :=
  (isName_iff.mp h).right.left

theorem ne_of_isName {name : String} (h : isName name = true) :
    name ≠ "" ∧ name ≠ "." ∧ name ≠ ".." :=
  (isName_iff.mp h).left

theorem isProper_of_find? {entries : List (String × Entry)} {name : String} {entry : Entry}
    (hproper : areProper entries = true) (h : find? entries name = some entry) :
    entry.isProper = true := by
  induction entries with
  | nil =>
      cases h
  | cons first rest ih =>
      rcases first with ⟨other, old⟩
      rw [areProper, Bool.and_eq_true, Bool.and_eq_true] at hproper
      unfold find? at h
      rw [List.find?_cons] at h
      split at h
      · cases h
        exact hproper.1.2
      · exact ih hproper.2 h

theorem isProper_of_at? {entry found : Entry} {place : Location}
    (hproper : entry.isProper = true) (h : entry.at? place = some found) :
    found.isProper = true := by
  fun_induction at? entry place with
  | case1 entry =>
      cases h
      exact hproper
  | case2 =>
      cases h
  | case3 entries name rest hnone =>
      cases h
  | case4 entries name rest inner hinner ih =>
      rw [isProper] at hproper
      exact ih (isProper_of_find? hproper hinner) h

end Entry

namespace Discovery

mutual

theorem below_of_mem_filesOf {root : Location} {path file : List String} (entry : Entry)
    (hproper : entry.isProper = true) (h : file ∈ filesOf root path entry) :
    ∃ below, file = path ++ below ∧ ∀ name ∈ below, Entry.isName name = true := by
  cases entry with
  | file content =>
      rw [filesOf, List.mem_singleton] at h
      refine ⟨[], ?_, ?_⟩
      · rw [h, List.append_nil]
      · intro name hname
        cases hname
  | folder entries =>
      rw [filesOf] at h
      rw [Entry.isProper] at hproper
      split at h
      · exact below_of_mem_filesIn entries hproper h
      · cases h

theorem below_of_mem_filesIn {root : Location} {path file : List String}
    (entries : List (String × Entry)) (hproper : Entry.areProper entries = true)
    (h : file ∈ filesIn root path entries) :
    ∃ below, file = path ++ below ∧ ∀ name ∈ below, Entry.isName name = true := by
  cases entries with
  | nil =>
      cases h
  | cons first rest =>
      rcases first with ⟨name, entry⟩
      rw [Entry.areProper, Bool.and_eq_true, Bool.and_eq_true] at hproper
      rw [filesIn, List.mem_append] at h
      rcases h with hfirst | hrest
      · by_cases htool : (entry.isFolder && toolFolders.contains name) = true
        · rw [if_pos htool] at hfirst
          cases hfirst
        · rw [if_neg htool] at hfirst
          rcases below_of_mem_filesOf entry hproper.1.2 hfirst with ⟨below, hfile, hnames⟩
          refine ⟨name :: below, ?_, ?_⟩
          · rw [hfile, List.append_assoc, List.singleton_append]
          · exact List.forall_mem_cons.mpr ⟨hproper.1.1, hnames⟩
      · exact below_of_mem_filesIn rest hproper.2 hrest

end

theorem isName_of_mem_folder :
    ∀ role : Role, ∀ place ∈ role.searchPlaces, ∀ name ∈ place.folder, Entry.isName name = true := by
  intro role
  cases role with
  | controller => decide
  | usecase => decide
  | task => decide

theorem isName_of_mem_filesOfRole {disk : Disk} {root : Location} {role : Role}
    {path : ProjectPath} (hproper : disk.isProper = true) (h : path ∈ filesOfRole disk root role) :
    ∀ name ∈ path, Entry.isName name = true := by
  rcases exists_found_of_mem h with ⟨place, hplace, _, entry, hentry, hpath, _⟩
  have hdisk : (Entry.folder disk.entries).isProper = true := by
    rw [Entry.isProper]
    exact (Bool.and_eq_true_iff.mp hproper).left
  have hbelow := below_of_mem_filesOf entry (Entry.isProper_of_at? hdisk hentry) hpath
  rcases hbelow with ⟨below, rfl, hbelow⟩
  intro name hname
  rcases List.mem_append.mp hname with hfolder | hdeep
  · exact isName_of_mem_folder role place hplace name hfolder
  · exact hbelow name hdeep

end Discovery

/-!
# Texts of proper paths
-/

theorem Path.pieces_intercalate {names : List String} (hne : names ≠ [])
    (hnames : ∀ name ∈ names, '/' ∉ name.toList) : pieces ("/".intercalate names) = names := by
  unfold pieces
  rw [Split.pieces_eq, String.toList_intercalate]
  show (List.splitOn '/' (['/'].intercalate (names.map String.toList))).map String.ofList = names
  rw [List.splitOn_intercalate]
  · rw [List.map_map]
    simp
  · intro chars hchars
    rcases List.mem_map.mp hchars with ⟨name, hname, rfl⟩
    exact hnames name hname
  · simpa using hne

namespace ProjectPath

theorem pieces_text {path : ProjectPath} (hne : path ≠ [])
    (hnames : ∀ name ∈ path, Entry.isName name = true) : Path.pieces path.text = path :=
  Path.pieces_intercalate hne fun name hname => Entry.not_mem_toList_of_isName (hnames name hname)

theorem text_injective {a b : ProjectPath} (ha : a ≠ []) (hb : b ≠ [])
    (hanames : ∀ name ∈ a, Entry.isName name = true)
    (hbnames : ∀ name ∈ b, Entry.isName name = true) (h : a.text = b.text) : a = b := by
  rw [← pieces_text ha hanames, h, pieces_text hb hbnames]

theorem text_cons_eq_append (name : String) (rest : List String) :
    ∃ after, ProjectPath.text (name :: rest) = name ++ after := by
  unfold ProjectPath.text
  cases rest with
  | nil =>
      exact ⟨"", by simp⟩
  | cons next others =>
      exact ⟨"/" ++ "/".intercalate (next :: others), by
        rw [String.intercalate_cons_cons, String.append_assoc]⟩

theorem anchorOf_text {path : ProjectPath} (hnames : ∀ name ∈ path, Entry.isName name = true) :
    Path.anchorOf path.text = "" := by
  cases path with
  | nil =>
      rfl
  | cons name rest =>
      have hname := hnames name List.mem_cons_self
      rcases text_cons_eq_append name rest with ⟨after, hafter⟩
      cases hchars : name.toList with
      | nil =>
          exact absurd (String.toList_eq_nil_iff.mp hchars) (Entry.ne_of_isName hname).left
      | cons c cs =>
          have hslash : (c == '/') = false := by
            have hnot := Entry.not_mem_toList_of_isName hname
            rw [hchars] at hnot
            exact beq_eq_false_iff_ne.mpr (fun heq => hnot (heq ▸ List.mem_cons_self))
          unfold Path.anchorOf
          rw [hafter, String.toList_append, hchars, List.cons_append, List.takeWhile_cons, hslash]
          rfl

theorem ofText_text {path : ProjectPath} (hne : path ≠ [])
    (hnames : ∀ name ∈ path, Entry.isName name = true) :
    Path.ofText path.text = { anchor := "", parts := path } := by
  unfold Path.ofText
  rw [anchorOf_text hnames, pieces_text hne hnames, List.filter_eq_self.mpr]
  intro name hname
  rcases Entry.ne_of_isName (hnames name hname) with ⟨hempty, hdot, _⟩
  simp [hempty, hdot]

end ProjectPath

/-!
# Straight down
-/

namespace Disk

theorem follow_append (d : Disk) (place : Location) (first second : List String) :
    d.follow place (first ++ second) = (d.follow place first).bind fun reached =>
      d.follow reached second := by
  induction first generalizing place with
  | nil =>
      rfl
  | cons name rest ih =>
      rw [List.cons_append, follow, follow]
      cases d.entry? place with
      | none =>
          rfl
      | some entry =>
          cases entry with
          | file content =>
              rfl
          | folder entries =>
              dsimp only
              split
              · exact ih place
              split
              · exact ih place.dropLast
              split
              · rfl
              · cases Entry.find? entries name with
                | none => rfl
                | some inner => exact ih (place ++ [name])

/-- Names without dots lead to the location that they spell, or nowhere. -/
theorem follow_straight {d : Disk} {place target : Location} {names : List String}
    (hnames : ∀ name ∈ names, name ≠ "." ∧ name ≠ "..") (h : d.follow place names = .ok target) :
    target = place ++ names := by
  induction names generalizing place with
  | nil =>
      cases h
      exact (List.append_nil _).symm
  | cons name rest ih =>
      rcases List.forall_mem_cons.mp hnames with ⟨⟨hdot, hdots⟩, hrest⟩
      rw [follow] at h
      split at h
      · rw [if_neg hdot, if_neg hdots] at h
        split at h
        · cases h
        · split at h
          · cases h
          · have hreached := ih hrest h
            rwa [List.append_assoc, List.singleton_append] at hreached
      · cases h

/-!
# Locations without dots
-/

section

variable {d : Disk}

theorem lookup_ofLocation {place : Location}
    (hstraight : ∀ name ∈ place, name ≠ "." ∧ name ≠ "..") :
    d.lookup (Path.ofLocation place) =
      match refusal? (Path.ofLocation place).text with
      | some fault => .error fault
      | none =>
          match d.follow [] place with
          | .error fault => .error fault
          | .ok _ =>
              match d.entry? place with
              | none => .error .notFound
              | some entry => .ok entry := by
  unfold lookup
  cases refusal? (Path.ofLocation place).text with
  | some fault =>
      rfl
  | none =>
      have hpath : d.follow (d.start (Path.ofLocation place)) (Path.ofLocation place).parts =
          d.follow [] place := rfl
      rw [hpath]
      cases hfollow : d.follow [] place with
      | error fault => rfl
      | ok target =>
          rw [follow_straight hstraight hfollow]
          rfl

theorem straight_foldl {place : Location} {names : List String}
    (hplace : ∀ name ∈ place, name ≠ "." ∧ name ≠ "..") (hnames : ∀ name ∈ names, name ≠ ".") :
    ∀ name ∈ names.foldl resolveStep place, name ≠ "." ∧ name ≠ ".." := by
  induction names generalizing place with
  | nil =>
      exact hplace
  | cons first rest ih =>
      rcases List.forall_mem_cons.mp hnames with ⟨hfirst, hrest⟩
      apply ih _ hrest
      intro name hname
      unfold resolveStep at hname
      split at hname
      · exact hplace name (List.dropLast_subset place hname)
      · rename_i hdots
        rcases List.mem_append.mp hname with hold | hnew
        · exact hplace name hold
        · rw [List.mem_singleton.mp hnew]
          exact ⟨hfirst, hdots⟩

theorem straight_here (hproper : d.isProper = true) :
    ∀ name ∈ d.here, name ≠ "." ∧ name ≠ ".." := by
  intro name hname
  have hhere := (Bool.and_eq_true_iff.mp hproper).right
  exact (Entry.ne_of_isName (List.all_eq_true.mp hhere name hname)).right

theorem straight_meant (hproper : d.isProper = true) {p : Path}
    (hparts : ∀ name ∈ p.parts, name ≠ ".") : ∀ name ∈ d.meant p, name ≠ "." ∧ name ≠ ".." := by
  refine straight_foldl ?_ hparts
  unfold start
  split
  · exact straight_here hproper
  · intro name hname
    cases hname

end

end Disk

theorem Path.ne_dot_of_mem_ofText {text name : String} (h : name ∈ (Path.ofText text).parts) :
    name ≠ "." := by
  have hkept := (List.mem_filter.mp h).right
  intro heq
  rw [heq] at hkept
  exact absurd hkept (by decide)

/-- A path that begins at a home folder has no dots if what is written after the user has none. -/
theorem Host.Expands.ne_dot {host : Host} {p q : Path} (h : host.Expands p q)
    (hparts : ∀ name ∈ p.parts, name ≠ ".") : ∀ name ∈ q.parts, name ≠ "." := by
  cases h with
  | plain _ =>
      exact hparts
  | home _ _ _ hq =>
      rw [Path.eq_of_atHome? hq]
      exact List.forall_mem_append.mpr ⟨fun _ => Path.ne_dot_of_mem_ofText,
        fun name hname => hparts name (List.mem_of_mem_tail hname)⟩

theorem Path.ne_dot_of_mem_join {p q : Path} (hp : ∀ name ∈ p.parts, name ≠ ".")
    (hq : ∀ name ∈ q.parts, name ≠ ".") : ∀ name ∈ (p.join q).parts, name ≠ "." := by
  unfold Path.join
  split
  · exact List.forall_mem_append.mpr ⟨hp, hq⟩
  · exact hq

theorem LoadedSettings.straight_of_locate {disk : Disk} (hproper : disk.isProper = true)
    {path : Path} (hparts : ∀ name ∈ path.parts, name ≠ ".") {place : Location}
    (h : locate disk path = .ok place) : ∀ name ∈ place, name ≠ "." ∧ name ≠ ".." := by
  cases locate_eq_ok_iff.mp h with
  | inside hadmits _ =>
      exact Disk.straight_meant hproper (Path.ne_dot_of_mem_join (hadmits.expands.ne_dot hparts)
        fun _ => Path.ne_dot_of_mem_ofText)
  | file hadmits _ =>
      exact Disk.straight_meant hproper (hadmits.expands.ne_dot hparts)
  | nothing hadmits _ =>
      exact Disk.straight_meant hproper (hadmits.expands.ne_dot hparts)

theorem Discovery.straight_of_rootOf {disk : Disk} (hproper : disk.isProper = true) {path : String}
    {root : Location} (h : rootOf disk path = .ok root) :
    ∀ name ∈ root, name ≠ "." ∧ name ≠ ".." := by
  rcases (rootOf_eq_ok_iff.mp h).place with ⟨q, hadmits, rfl⟩
  exact Disk.straight_meant hproper
    (hadmits.expands.ne_dot fun _ => Path.ne_dot_of_mem_ofText)

end UsecaseAudit
