import UsecaseAudit.Audit
import UsecaseAudit.Proofs.ProperNames

/-!
# The shape of a disk

The shape of a disk is what is left of it when all files are emptied.  Whether
a path leads to an entry, where it leads, and which files play a role can be
told from the shape; only reading a file looks at its content.
-/

namespace UsecaseAudit
namespace Entry

mutual

/-- The entry with its files emptied. -/
def shape : Entry → Entry
  | .file _ => .file { bytes := [] }
  | .folder entries => .folder (shapes entries)

def shapes : List (String × Entry) → List (String × Entry)
  | [] => []
  | (name, entry) :: rest => (name, entry.shape) :: shapes rest

end

theorem isFolder_shape (entry : Entry) : entry.shape.isFolder = entry.isFolder := by
  cases entry with
  | file content => rfl
  | folder entries => rfl

theorem find?_shapes (entries : List (String × Entry)) (name : String) :
    find? (shapes entries) name = (find? entries name).map shape := by
  induction entries with
  | nil =>
      rfl
  | cons first rest ih =>
      rcases first with ⟨other, entry⟩
      unfold find? at ih ⊢
      rw [shapes, List.find?_cons, List.find?_cons]
      cases other == name with
      | true => rfl
      | false => exact ih

theorem at?_shape (entry : Entry) (place : Location) :
    entry.shape.at? place = (entry.at? place).map shape := by
  fun_induction at? entry place with
  | case1 entry =>
      rw [at?]
      rfl
  | case2 content name rest =>
      rfl
  | case3 entries name rest hnone =>
      rw [shape, at?, find?_shapes, hnone]
      rfl
  | case4 entries name rest inner hinner ih =>
      rw [shape, at?, find?_shapes, hinner]
      exact ih

end Entry

namespace Disk

def shape (d : Disk) : Disk :=
  { d with entries := Entry.shapes d.entries }

section

variable (d : Disk)

theorem entry?_shape (place : Location) : d.shape.entry? place = (d.entry? place).map Entry.shape :=
  Entry.at?_shape (.folder d.entries) place

theorem host_shape : d.shape.host = d.host :=
  rfl

theorem start_shape (p : Path) : d.shape.start p = d.start p :=
  rfl

theorem resolve_shape (p : Path) : d.shape.resolve p = d.resolve p :=
  rfl

theorem follow_shape (place : Location) (names : List String) :
    d.shape.follow place names = d.follow place names := by
  induction names generalizing place with
  | nil =>
      rfl
  | cons name rest ih =>
      rw [follow, follow, entry?_shape]
      cases d.entry? place with
      | none =>
          rfl
      | some entry =>
          cases entry with
          | file content =>
              rfl
          | folder entries =>
              rw [Option.map_some, Entry.shape]
              dsimp only
              -- after a dot, after two dots and after a name the rest is followed alike
              rw [ih, ih, ih, Entry.find?_shapes]
              cases Entry.find? entries name with
              | none => rfl
              | some inner => rfl

theorem lookup_shape (p : Path) : d.shape.lookup p = (d.lookup p).map Entry.shape := by
  unfold lookup
  cases refusal? p.text with
  | some fault =>
      rfl
  | none =>
      dsimp only
      rw [follow_shape, start_shape]
      cases d.follow (d.start p) p.parts with
      | error fault =>
          rfl
      | ok place =>
          dsimp only
          rw [entry?_shape]
          cases d.entry? place with
          | none => rfl
          | some entry => rfl

theorem findsTooLong_shape (p : Path) : d.shape.findsTooLong p = d.findsTooLong p := by
  unfold findsTooLong
  rw [lookup_shape]
  cases d.lookup p with
  | error fault => rfl
  | ok entry => rfl

theorem answer_shape {question : Entry → Bool}
    (h : ∀ entry : Entry, question entry.shape = question entry) (p : Path) :
    d.shape.answer question p = d.answer question p := by
  unfold answer
  rw [lookup_shape]
  cases d.lookup p with
  | error fault => rfl
  | ok entry => exact h entry

theorem asks_shape {question : Entry → Bool}
    (h : ∀ entry : Entry, question entry.shape = question entry) (p : Path) :
    d.shape.asks question p = d.asks question p := by
  rw [asks_eq, asks_eq, findsTooLong_shape, d.answer_shape h]

theorem isPresent_shape (p : Path) : d.shape.isPresent p = d.isPresent p :=
  d.asks_shape (fun _ => rfl) p

theorem isFolder_shape (p : Path) : d.shape.isFolder p = d.isFolder p :=
  d.asks_shape Entry.isFolder_shape p

end

end Disk

namespace Discovery

mutual

theorem filesOf_shape (root : Location) (path : List String) (entry : Entry) :
    filesOf root path entry.shape = filesOf root path entry := by
  cases entry with
  | file content =>
      rfl
  | folder entries =>
      rw [Entry.shape, filesOf, filesOf, filesIn_shapes root path entries]

theorem filesIn_shapes (root : Location) (path : List String) (entries : List (String × Entry)) :
    filesIn root path (Entry.shapes entries) = filesIn root path entries := by
  cases entries with
  | nil =>
      rfl
  | cons first rest =>
      rcases first with ⟨name, entry⟩
      rw [Entry.shapes, filesIn, filesIn, Entry.isFolder_shape, filesOf_shape root _ entry,
        filesIn_shapes root path rest]

end

theorem filesAt_shape (disk : Disk) (root : Location) (place : SearchPlace) :
    filesAt disk.shape root place = filesAt disk root place := by
  unfold filesAt
  rw [Disk.entry?_shape, Option.map_map]
  congr 3
  exact funext (filesOf_shape root place.folder)

theorem found_shape (disk : Disk) (root : Location) (place : SearchPlace) :
    found disk.shape root place = found disk root place := by
  rw [found, found, disk.answer_shape Entry.isFolder_shape, filesAt_shape]

theorem filesOfRole_shape (disk : Disk) (root : Location) (role : Role) :
    filesOfRole disk.shape root role = filesOfRole disk root role := by
  unfold filesOfRole
  rw [funext (found_shape disk root)]

mutual

theorem depthOf_shape (root : Location) (path : List String) (entry : Entry) :
    depthOf root path entry.shape = depthOf root path entry := by
  cases entry with
  | file content =>
      rfl
  | folder entries =>
      rw [Entry.shape, depthOf, depthOf, depthIn_shapes root path entries]

theorem depthIn_shapes (root : Location) (path : List String) (entries : List (String × Entry)) :
    depthIn root path (Entry.shapes entries) = depthIn root path entries := by
  cases entries with
  | nil =>
      rfl
  | cons first rest =>
      rcases first with ⟨name, entry⟩
      rw [Entry.shapes, depthIn, depthIn, Entry.isFolder_shape, depthOf_shape root _ entry,
        depthIn_shapes root path rest]

end

theorem isTooDeep_shape (disk : Disk) (root : Location) (place : SearchPlace) :
    isTooDeep disk.shape root place = isTooDeep disk root place := by
  unfold isTooDeep
  rw [Disk.host_shape, Disk.entry?_shape]
  cases disk.host.walk with
  | none =>
      rfl
  | some limit =>
      cases disk.entry? (root ++ place.folder) with
      | none => rfl
      | some entry => exact congrArg (fun depth => decide (limit < depth)) (depthOf_shape _ _ entry)

theorem unreachable?_shape (disk : Disk) (root : Location) (places : List SearchPlace) :
    unreachable? disk.shape root places = unreachable? disk root places := by
  have hsame : obstacle? disk.shape root = obstacle? disk root := by
    funext place
    rw [obstacle?, obstacle?, disk.findsTooLong_shape, disk.answer_shape Entry.isFolder_shape,
      isTooDeep_shape]
  rw [unreachable?, unreachable?, hsame]

theorem rootOf_shape (disk : Disk) (path : String) : rootOf disk.shape path = rootOf disk path := by
  unfold rootOf
  simp only [Disk.host_shape, Disk.resolve_shape, Disk.isPresent_shape, Disk.isFolder_shape]

end Discovery

theorem LoadedSettings.locate_shape (disk : Disk) (path : Path) :
    locate disk.shape path = locate disk path := by
  unfold locate
  simp only [Disk.host_shape, Disk.resolve_shape, Disk.isFolder_shape]

/-!
# Overwriting a file
-/

namespace Entry

theorem find?_put (name other : String) (entry : Entry) (entries : List (String × Entry)) :
    find? (put name entry entries) other =
      if name = other then some entry else find? entries other := by
  induction entries with
  | nil =>
      unfold put find?
      by_cases hname : name = other
      · simp [hname]
      · simp [hname]
  | cons first rest ih =>
      rcases first with ⟨key, old⟩
      unfold find? at ih ⊢
      rw [put]
      by_cases hkey : key = name
      · rw [if_pos hkey, List.find?_cons, List.find?_cons, hkey]
        by_cases hname : name = other
        · simp [hname]
        · rw [beq_eq_false_iff_ne.mpr hname, if_neg hname]
      · rw [if_neg hkey, List.find?_cons, List.find?_cons]
        by_cases hother : key = other
        · have hname : name ≠ other := fun heq => hkey (hother.trans heq.symm)
          simp [hother, hname]
        · rw [beq_eq_false_iff_ne.mpr hother]
          exact ih

theorem shapes_put {name : String} {entry old : Entry} {entries : List (String × Entry)}
    (hfind : find? entries name = some old) (hshape : entry.shape = old.shape) :
    shapes (put name entry entries) = shapes entries := by
  induction entries with
  | nil =>
      cases hfind
  | cons first rest ih =>
      rcases first with ⟨key, inner⟩
      unfold find? at hfind ih
      rw [List.find?_cons] at hfind
      rw [put]
      by_cases hkey : key = name
      · rw [beq_iff_eq.mpr hkey] at hfind
        cases hfind
        rw [if_pos hkey, shapes, shapes, hshape, hkey]
      · rw [beq_eq_false_iff_ne.mpr hkey] at hfind
        rw [if_neg hkey, shapes, shapes, ih hfind]

theorem at?_put (name other : String) (entry : Entry) (entries : List (String × Entry))
    (below : Location) :
    (Entry.folder (put name entry entries)).at? (other :: below) =
      if name = other then entry.at? below else (Entry.folder entries).at? (other :: below) := by
  rw [at?, at?, find?_put]
  by_cases hname : name = other
  · rw [if_pos hname, if_pos hname]
  · rw [if_neg hname, if_neg hname]

theorem at?_put_of_kept {name : String} {entry old : Entry} {entries : List (String × Entry)}
    {rest : Location} (hfind : find? entries name = some old)
    (hkept : ∀ place, place ≠ rest → ∀ file, old.at? place = some (.file file) →
      entry.at? place = some (.file file)) :
    ∀ place, place ≠ name :: rest → ∀ file, (Entry.folder entries).at? place = some (.file file) →
      (Entry.folder (put name entry entries)).at? place = some (.file file) := by
  intro place hplace file hfile
  cases place with
  | nil =>
      cases hfile
  | cons other below =>
      rw [at?_put]
      by_cases hname : name = other
      · rw [at?, ← hname, hfind] at hfile
        rw [if_pos hname]
        apply hkept below _ file hfile
        rintro rfl
        exact hplace (hname ▸ rfl)
      · rw [if_neg hname]
        exact hfile

theorem install_cons {name : String} {rest : Location} {entries inner : List (String × Entry)}
    (hrest : rest ≠ []) (hfind : find? entries name = some (.folder inner)) (entry : Entry) :
    install entry (name :: rest) entries =
      put name (.folder (install entry rest inner)) entries := by
  cases rest with
  | nil => exact absurd rfl hrest
  | cons next others =>
      rw [install, hfind]
      exact fun hnil => absurd hnil hrest

/-- Overwriting a file keeps the shape, and keeps the files at all other locations. -/
theorem install_file {f : Location} {entries : List (String × Entry)} {old : File}
    (content : File) (h : (Entry.folder entries).at? f = some (.file old)) :
    shapes (install (.file content) f entries) = shapes entries ∧
    ∀ place, place ≠ f → ∀ file, (Entry.folder entries).at? place = some (.file file) →
      (Entry.folder (install (.file content) f entries)).at? place = some (.file file) := by
  induction f generalizing entries with
  | nil =>
      cases h
  | cons name rest ih =>
      rw [at?] at h
      cases hfind : find? entries name with
      | none =>
          rw [hfind] at h
          cases h
      | some entry =>
          rw [hfind] at h
          cases entry with
          | file found =>
              cases rest with
              | cons next others =>
                  cases h
              | nil =>
                  rw [install]
                  refine ⟨shapes_put hfind rfl, at?_put_of_kept hfind ?_⟩
                  intro place hplace file hfile
                  cases place with
                  | nil => exact absurd rfl hplace
                  | cons other below => cases hfile
          | folder inner =>
              have hrest : rest ≠ [] := by
                rintro rfl
                cases h
              rcases ih h with ⟨hshape, hkept⟩
              rw [install_cons hrest hfind]
              refine ⟨shapes_put hfind ?_, at?_put_of_kept hfind hkept⟩
              rw [shape, shape, hshape]

end Entry
end UsecaseAudit
