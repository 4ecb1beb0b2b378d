import UsecaseAudit.Failure
import UsecaseAudit.Settings.Load
import UsecaseAudit.Settings.Starter
import UsecaseAudit.Text.Blank

/-!
# The settings file of a project

Settings are loaded from a path: a folder stands for the settings file in it.
A file that does not exist gives the settings of a project without any, and a
file that exists must be readable, UTF-8 and a document with keys.
-/

namespace UsecaseAudit

structure LoadedSettings where
  settings : Settings := {}
  source : Option Location := none

namespace LoadedSettings

/-- The document in the text of a settings file; a blank text is not given to the reader. -/
def documentOf (host : Host) (name text : String) : Except Failure Document :=
  if Blank.allBlank text then .ok .null
  else
    match host.interpret text with
    | .document document => .ok document
    | .malformed explanation => .error (.settings (.malformed name explanation))
    | .broken e => .error (.reader e)

/-!
# Loading
-/

def ofFile (disk : Disk) (place : Location) : Except Failure Settings := do
  let path := Path.ofLocation place
  let name := place.getLast?.getD ""
  let file ←
    match disk.read path with
    | .ok file => Except.ok file
    | .error e => .error (.settings (.unreadable path.text e.message))
  let text ←
    match Utf8.decode file.bytes with
    | .ok text => Except.ok text
    | .error fault => .error (.settings (.unreadable path.text fault.message))
  let document ← documentOf disk.host name text
  match ← (Settings.ofDocument? document).mapError Failure.number with
  | some settings => .ok settings
  | none => .error (.settings (.notMapping name))

def locate (disk : Disk) (path : Path) : Except Failure Location := do
  let path ← expandHome disk.host path
  let inside ← (disk.isFolder path).mapError Failure.system
  let target := if inside then path.join (Path.ofText Starter.fileName) else path
  (disk.resolve target).mapError Failure.system

def load (disk : Disk) (path : Path) : Except Failure LoadedSettings := do
  let place ← locate disk path
  let present ← (disk.isPresent (Path.ofLocation place)).mapError Failure.system
  if present then
    let settings ← ofFile disk place
    return { settings := settings, source := some place }
  else
    return {}

end LoadedSettings
end UsecaseAudit
