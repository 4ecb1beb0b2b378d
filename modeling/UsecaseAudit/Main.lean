import UsecaseAudit.CommandLine.Run
import UsecaseAudit.Concrete.Rows

/-!
# The program

Loads the working folder, runs the command line on it and writes back what the
run has changed.  The grammar is a program of its own: what it makes of a
source file is read from a file beside it, whose name has `.tree` at the end.
-/

namespace UsecaseAudit
namespace Program

def treeEnding : String := ".tree"

def treeBeside (path : String) : IO (Option Concrete) := do
  try
    let text ← IO.FS.readFile (path ++ treeEnding)
    return Concrete.ofText? text
  catch _ =>
    return none

def loadFile (path : String) : IO File := do
  let bytes ← IO.FS.readBinFile path
  match ← treeBeside path with
  | none => return { bytes := bytes.toList }
  | some tree => return { bytes := bytes.toList, tree := some tree }

partial def loadFolder (names : List String) : IO (List (String × Entry)) := do
  let mut folder ← IO.currentDir
  for name in names do
    folder := folder / name
  let mut entries : List (String × Entry) := []
  for found in ← folder.readDir do
    let inner := names ++ [found.fileName]
    let entry ←
      if ← found.path.isDir then
        pure (Entry.folder (← loadFolder inner))
      else
        pure (Entry.file (← loadFile ("/".intercalate inner)))
    entries := entries ++ [(found.fileName, entry)]
  return entries

partial def saveFolder (old : Disk) (here : Location) (names : List String)
    (entries : List (String × Entry)) : IO Unit := do
  for (name, entry) in entries do
    let inner := names ++ [name]
    let path := "/".intercalate inner
    match entry, old.entry? (here ++ inner) with
    | .folder contents, _ =>
        IO.FS.createDirAll path
        saveFolder old here inner contents
    | .file new, some (.file before) =>
        if new.bytes != before.bytes then
          IO.FS.writeBinFile path (ByteArray.mk new.bytes.toArray)
    | .file new, _ => IO.FS.writeBinFile path (ByteArray.mk new.bytes.toArray)

/-- The host of a run: one home folder is known, and there is no reader of settings. -/
def loadHost : IO Host := do
  let home ← IO.getEnv "HOME"
  return {
    homes := fun user => if user = "" then home else none
    interpret := fun _ => .malformed "no reader of settings is at hand" }

def loadDisk : IO Disk := do
  let here := (Path.ofText (← IO.currentDir).toString).parts
  let entries ← loadFolder []
  let host ← loadHost
  return ({ here := here, host := host } : Disk).install here (.folder entries)

def saveDisk (old new : Disk) : IO Unit :=
  match new.entry? new.here with
  | some (.folder entries) => saveFolder old new.here [] entries
  | _ => pure ()

def answerTo (question : Option String) : IO String := do
  match question with
  | none => return ""
  | some text =>
      IO.print text
      (← IO.getStdout).flush
      (← IO.getStdin).getLine

def run (arguments : List String) : IO UInt32 := do
  let disk ← loadDisk
  let question := CommandLine.asks? disk arguments
  let input ← answerTo question
  match CommandLine.run disk arguments input with
  | .error broken =>
      IO.print (Affix.dropFirst broken.stdout (question.getD "").length)
      IO.eprint broken.stderr
      IO.eprintln broken.cause.message
      saveDisk disk broken.disk
      return 1
  | .ok outcome =>
      IO.print (Affix.dropFirst outcome.stdout (question.getD "").length)
      IO.eprint outcome.stderr
      saveDisk disk outcome.disk
      return UInt32.ofNat outcome.status

end Program
end UsecaseAudit

def main (arguments : List String) : IO UInt32 :=
  UsecaseAudit.Program.run arguments
