import UsecaseAudit.Host
import UsecaseAudit.Path
import UsecaseAudit.Text.Quoted

/-!
# Disks

A disk is a tree of named entries with a folder in which the program works, and
with the host on which it runs.  A file holds bytes, and the concrete tree of them
where it is known.

Paths are followed name by name: every name but the last must lead to a folder,
and a double dot leads out of the folder that was reached, not out of the path
as it is written.
-/

namespace UsecaseAudit

structure File where
  bytes : List UInt8
  tree : Option Concrete := none

def File.ofText (text : String) : File :=
  { bytes := Utf8.encode text }

inductive Entry where
  | file (content : File)
  | folder (entries : List (String × Entry))

namespace Entry

def isFolder : Entry → Bool
  | .file _ => false
  | .folder _ => true

def find? (entries : List (String × Entry)) (name : String) : Option Entry :=
  (entries.find? fun e => e.1 == name).map Prod.snd

/-- Gives a name an entry in place of the one it had, or after all others. -/
def put (name : String) (entry : Entry) : List (String × Entry) → List (String × Entry)
  | [] => [(name, entry)]
  | (other, old) :: rest =>
      if other = name then (name, entry) :: rest else (other, old) :: put name entry rest

def at? : (entry : Entry) → Location → Option Entry
  | entry, [] => some entry
  | .file _, _ :: _ => none
  | .folder entries, name :: rest =>
      match find? entries name with
      | none => none
      | some entry => at? entry rest

/-- Puts an entry at a location, and folders on the way where there are none. -/
def install (entry : Entry) : Location → List (String × Entry) → List (String × Entry)
  | [], entries => entries
  | [name], entries => put name entry entries
  | name :: rest, entries =>
      let inner :=
        match find? entries name with
        | some (.folder inner) => inner
        | _ => []
      put name (.folder (install entry rest inner)) entries

def remove : Location → List (String × Entry) → List (String × Entry)
  | [], entries => entries
  | [name], entries => entries.filter fun e => e.1 != name
  | name :: rest, entries =>
      match find? entries name with
      | some (.folder inner) => put name (.folder (remove rest inner)) entries
      | _ => entries

end Entry

/-!
# Faults of the system
-/

inductive Fault where
  | notFound
  | alreadyExists
  | notFolder
  | isFolder
  | nameTooLong
  | nullCharacter
  | denied (d : Denial)
  deriving DecidableEq, Repr

structure SystemError where
  fault : Fault
  path : String
  deriving DecidableEq, Repr

namespace SystemError

def numbered (number : Nat) (text path : String) : String :=
  "[Errno " ++ toString number ++ "] " ++ text ++ ": " ++ Quoted.text path

def message (e : SystemError) : String :=
  match e.fault with
  | .notFound => numbered 2 "No such file or directory" e.path
  | .alreadyExists => numbered 17 "File exists" e.path
  | .notFolder => numbered 20 "Not a directory" e.path
  | .isFolder => numbered 21 "Is a directory" e.path
  | .nameTooLong => numbered 36 "File name too long" e.path
  | .nullCharacter => "embedded null byte"
  | .denied d => numbered d.number d.text e.path

end SystemError

structure Disk where
  entries : List (String × Entry) := []
  here : Location := []
  host : Host := {}

namespace Disk

/-!
# Following paths
-/

def longestName : Nat := 255

def isTooLong (name : String) : Bool :=
  decide (longestName < name.utf8ByteSize)

def longestPath : Nat := 4095

/-- Why a path is refused as it is written, before any name of it is followed. -/
def refusal? (path : String) : Option Fault :=
  if Path.hasNull path then some .nullCharacter
  else if longestPath < path.utf8ByteSize then some .nameTooLong
  else none

def entry? (d : Disk) (place : Location) : Option Entry :=
  (Entry.folder d.entries).at? place

def start (d : Disk) (p : Path) : Location :=
  if p.isRelative then d.here else []

def follow (d : Disk) : Location → List String → Except Fault Location
  | place, [] => .ok place
  | place, name :: rest =>
      match d.entry? place with
      | some (.folder entries) =>
          if name = "." then follow d place rest
          else if name = ".." then follow d place.dropLast rest
          else if isTooLong name then .error .nameTooLong
          else
            match Entry.find? entries name with
            | none => .error .notFound
            | some _ => follow d (place ++ [name]) rest
      | _ => .error .notFolder

def lookup (d : Disk) (p : Path) : Except Fault Entry :=
  match refusal? p.text with
  | some fault => .error fault
  | none =>
      match d.follow (d.start p) p.parts with
      | .error fault => .error fault
      | .ok place =>
          match d.entry? place with
          | none => .error .notFound
          | some entry => .ok entry

/-- Answers a question about the entry of a path; a path that leads nowhere is answered by no. -/
def asks (d : Disk) (question : Entry → Bool) (p : Path) : Except SystemError Bool :=
  match d.lookup p with
  | .ok entry => .ok (question entry)
  | .error .nameTooLong => .error ⟨.nameTooLong, p.text⟩
  | .error _ => .ok false

def isPresent (d : Disk) (p : Path) : Except SystemError Bool :=
  d.asks (fun _ => true) p

def isFolder (d : Disk) (p : Path) : Except SystemError Bool :=
  d.asks Entry.isFolder p

def read (d : Disk) (p : Path) : Except SystemError File :=
  match d.lookup p with
  | .error fault => .error ⟨fault, p.text⟩
  | .ok (.folder _) => .error ⟨.isFolder, p.text⟩
  | .ok (.file content) =>
      match d.host.denial p.text with
      | some denial => .error ⟨.denied denial, p.text⟩
      | none => .ok content

def resolveStep (place : Location) (name : String) : Location :=
  if name = ".." then place.dropLast else place ++ [name]

/-- The location that a path means as it is written, whether or not there is an entry. -/
def resolve (d : Disk) (p : Path) : Except SystemError Location :=
  if Path.hasNull p.text then .error ⟨.nullCharacter, p.text⟩
  else .ok (p.parts.foldl resolveStep (d.start p))

/-!
# Changing a disk
-/

def install (d : Disk) (place : Location) (entry : Entry) : Disk :=
  { d with entries := Entry.install entry place d.entries }

def remove (d : Disk) (place : Location) : Disk :=
  { d with entries := Entry.remove place d.entries }

def folderAt (d : Disk) (place : Location) : Except Fault (List (String × Entry)) :=
  match d.entry? place with
  | some (.folder entries) => .ok entries
  | _ => .error .notFolder

/-- Where a new entry of the given name would stand, and the entry that stands there now. -/
def slot (d : Disk) (place : Location) (names : List String) (name : String) :
    Except Fault (Location × Option Entry) := do
  let parent ← d.follow place names
  let entries ← d.folderAt parent
  if isTooLong name then .error .nameTooLong
  return (parent ++ [name], Entry.find? entries name)

def isDots (name : String) : Bool :=
  name == "." || name == ".."

/-- Where a file would be written; `trailing` says that a slash follows the last name. -/
def fileSlot (d : Disk) (place : Location) (names : List String) (trailing : Bool) :
    Except Fault Location :=
  match names.getLast? with
  | none => .error .isFolder
  | some name =>
      if isDots name || trailing then do
        let parent ← d.follow place names.dropLast
        let _ ← d.folderAt parent
        .error .isFolder
      else do
        let (target, old) ← d.slot place names.dropLast name
        match old with
        | some (.folder _) => .error .isFolder
        | _ => return target

def write (d : Disk) (path : String) (content : File) : Except SystemError Disk :=
  match refusal? path with
  | some fault => .error ⟨fault, path⟩
  | none =>
      if path = "" then .error ⟨.notFound, path⟩
      else
        let names := (Path.pieces path).filter (· != "")
        let place := if path.toList.head? == some '/' then [] else d.here
        let trailing := path.toList.getLast? == some '/'
        match d.fileSlot place names trailing with
        | .error fault => .error ⟨fault, path⟩
        | .ok target => .ok (d.install target (.file content))

def makeFolder (d : Disk) (p : Path) : Except Fault Disk :=
  match refusal? p.text with
  | some fault => .error fault
  | none =>
      match p.parts.getLast? with
      | none => .error .alreadyExists
      | some name =>
          if isDots name then do
            let parent ← d.follow (d.start p) p.parts.dropLast
            let _ ← d.folderAt parent
            .error .alreadyExists
          else do
            let (target, old) ← d.slot (d.start p) p.parts.dropLast name
            match old with
            | some _ => .error .alreadyExists
            | none => return d.install target (.folder [])

/-- A changed disk, and the error that stopped the change, if one did. -/
abbrev Change := Disk × Option SystemError

def ensureFolder (d : Disk) (p : Path) : Change :=
  match d.makeFolder p with
  | .ok changed => (changed, none)
  | .error fault =>
      match fault, d.isFolder p with
      | .nullCharacter, _ => (d, some ⟨.nullCharacter, p.text⟩)
      | .notFound, _ => (d, some ⟨.notFound, p.text⟩)
      | _, .ok true => (d, none)
      | _, .ok false => (d, some ⟨fault, p.text⟩)
      | _, .error e => (d, some e)

/-- Makes a folder and those above it; the names are given from the last to the first. -/
def ensureFoldersFrom (anchor : String) (d : Disk) : List String → Change
  | [] => d.ensureFolder ⟨anchor, []⟩
  | name :: above =>
      let p : Path := ⟨anchor, (name :: above).reverse⟩
      match d.makeFolder p with
      | .error .notFound =>
          match ensureFoldersFrom anchor d above with
          | (changed, none) => changed.ensureFolder p
          | failed => failed
      | _ => d.ensureFolder p

def ensureFolders (d : Disk) (p : Path) : Change :=
  ensureFoldersFrom p.anchor d p.parts.reverse

/-- How often the way goes up to the folder above before one can be made; the names are given from
the last to the first. -/
def climbFrom (anchor : String) (d : Disk) : List String → Nat
  | [] => 0
  | name :: above =>
      match d.makeFolder ⟨anchor, (name :: above).reverse⟩ with
      | .error .notFound => climbFrom anchor d above + 1
      | _ => 0

def climb (d : Disk) (p : Path) : Nat :=
  climbFrom p.anchor d p.parts.reverse

end Disk
end UsecaseAudit
