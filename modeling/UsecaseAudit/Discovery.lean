import UsecaseAudit.Text.Affix
import UsecaseAudit.Traced

/-!
# Discovery

The files of a role stand at any depth below the folders of the role and have
names with the ending of the role.  Folders that belong to tools are passed
over, and so are folders whose whole path is too long to be listed.  Where there are
more folders within one another than a walk can go through, nothing is found at all.
The files come in the order of their paths, each once, although the folders of a role
may lie within one another.
-/

namespace UsecaseAudit

/-- A folder of a project in which files of a role are looked for, and the ending of their names. -/
structure SearchPlace where
  folder : List String
  ending : String
  deriving DecidableEq, Repr

def Role.searchPlaces : Role → List SearchPlace
  | .controller => [⟨["app", "controllers"], "_controller.rb"⟩]
  | .usecase =>
      [⟨["layered", "usecase"], "_usecase.rb"⟩, ⟨["app", "usecases"], "_usecase.rb"⟩,
        ⟨["app"], "_usecase.rb"⟩]
  | .task => [⟨["lib", "tasks"], ".rake"⟩]

abbrev ProjectPath := List String

def ProjectPath.text (path : ProjectPath) : String :=
  "/".intercalate path

namespace Discovery

def toolFolders : List String :=
  [".git", ".hg", ".svn", ".bundle", "node_modules"]

/-- Whether the entries of a folder can be listed: the whole path of it must not be too long. -/
def isListable (root : Location) (path : List String) : Bool :=
  decide ((Path.ofLocation (root ++ path)).text.utf8ByteSize ≤ Disk.longestPath)

mutual

/-- The paths of the files in an entry, whose own path is `path`.  A folder that cannot be listed
counts as empty. -/
def filesOf (root : Location) (path : List String) : Entry → List (List String)
  | .file _ => [path]
  | .folder entries => if isListable root path then filesIn root path entries else []

def filesIn (root : Location) (path : List String) : List (String × Entry) → List (List String)
  | [] => []
  | (name, entry) :: rest =>
      (if entry.isFolder && toolFolders.contains name then []
        else filesOf root (path ++ [name]) entry) ++ filesIn root path rest

end

mutual

/-- How many folders within one another a walk goes through below an entry, whose own path is
`path`. -/
def depthOf (root : Location) (path : List String) : Entry → Nat
  | .file _ => 0
  | .folder entries => if isListable root path then depthIn root path entries else 0

def depthIn (root : Location) (path : List String) : List (String × Entry) → Nat
  | [] => 0
  | (name, entry) :: rest =>
      max
        (if entry.isFolder && !toolFolders.contains name then
          depthOf root (path ++ [name]) entry + 1
        else 0)
        (depthIn root path rest)

end

/-- Whether the folders of a search place go further within one another than a walk can. -/
def isTooDeep (disk : Disk) (root : Location) (place : SearchPlace) : Bool :=
  match disk.host.walk, disk.entry? (root ++ place.folder) with
  | some limit, some entry => decide (limit < depthOf root place.folder entry)
  | _, _ => false

def foundIn (disk : Disk) (root : Location) (place : SearchPlace) :
    Except Failure (Option (List ProjectPath)) := do
  let folder := root ++ place.folder
  let present ← (disk.isFolder (Path.ofLocation folder)).mapError Failure.system
  if present then
    if isTooDeep disk root place then .error .tooDeep
    else
      let files := ((disk.entry? folder).map (filesOf root place.folder)).getD []
      return some (files.filter fun path => Affix.ends (path.getLast?.getD "") place.ending)
  else
    return none

def pathLE (a b : ProjectPath) : Bool :=
  Check.textLE a.text b.text

def pathBEq (a b : ProjectPath) : Bool :=
  a.text == b.text

def merged (found : List (List ProjectPath)) : List ProjectPath :=
  (found.flatten.eraseDupsBy pathBEq).mergeSort pathLE

/-!
# Discovery with a log
-/

def part : String := "repo_scanner"

def search (disk : Disk) (root : Location) (role : Role) :
    List SearchPlace → Traced (List (List ProjectPath))
  | [] => pure []
  | place :: rest => do
      match ← Traced.lift (foundIn disk root place) with
      | none =>
          Traced.note .debug part
            ("No " ++ role.name ++ " directory at "
              ++ (Path.ofLocation (root ++ place.folder)).text)
          search disk root role rest
      | some found =>
          let others ← search disk root role rest
          return found :: others

def rootOf (disk : Disk) (path : String) : Except Failure Location := do
  let given ← expandHome disk.host (Path.ofText path)
  let place ← (disk.resolve given).mapError Failure.system
  let absolute := Path.ofLocation place
  let present ← (disk.isPresent absolute).mapError Failure.system
  if !present then .error (.rootMissing path)
  let folder ← (disk.isFolder absolute).mapError Failure.system
  if !folder then .error (.rootNotFolder path)
  return place

def inRoot (disk : Disk) (root : Location) (role : Role) : Traced (List ProjectPath) := do
  let found ← search disk root role role.searchPlaces
  let files := merged found
  Traced.note .debug part
    ("Discovered " ++ toString files.length ++ " " ++ role.name ++ " files")
  return files

def find (disk : Disk) (path role : String) : Traced (Location × List ProjectPath) := do
  let root ← Traced.lift (rootOf disk path)
  match Role.ofName? role with
  | none => Traced.lift (.error (.unknownRole role))
  | some r =>
      let files ← inRoot disk root r
      return (root, files)

end Discovery
end UsecaseAudit
