import UsecaseAudit.Disk
import UsecaseAudit.Source

/-!
# Source files on a disk

A file on a disk is read as source under the name by which it is shown.
-/

namespace UsecaseAudit

/-- A file as source, with the tree it comes with or the one that the host makes. -/
def File.source (host : Host) (file : File) : Source :=
  { bytes := file.bytes
    tree := file.tree.getD (host.grammar file.bytes) }

namespace SourceFile

def readAs (disk : Disk) (label : String) (path : Path) : Except ReadFailure Code :=
  match disk.read path with
  | .error e => .error { path := label, cause := .inaccessible e.message }
  | .ok file => (file.source disk.host).read disk.host.stack label

/-- Why a single file gives no code: its path is no path at all, or the reading failed. -/
inductive Refusal where
  | notPath (e : SystemError)
  | failed (f : ReadFailure)
  deriving DecidableEq, Repr

/-- Reads the file of a path, which is shown as itself unless a name to show is given. -/
def read (disk : Disk) (path : Path) (shown : Option String) : Except Refusal Code :=
  let label := if shown.getD "" = "" then path.text else shown.getD ""
  if Path.hasNull path.text then .error (.notPath ⟨.nullCharacter, path.text⟩)
  else (readAs disk label path).mapError .failed

end SourceFile
end UsecaseAudit
