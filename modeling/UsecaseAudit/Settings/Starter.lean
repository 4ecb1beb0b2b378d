import UsecaseAudit.Disk

/-!
# The starter settings

The settings file that `init` writes: every key with an explanation, and one
exclusion that most projects want.  The folders above it are made where they are
missing, unless there are too many of them in a row.
-/

namespace UsecaseAudit
namespace Starter

def fileName : String := "usecompass.yml"

def text : String :=
  "\n".intercalate [
    "# Configuration file for usecompass",
    "",
    "exclusions:",
    "  controllers:",
    "    # Controllers that don't need to call usecases",
    "    - \"app/controllers/application_controller.rb\"",
    "    # - \"app/controllers/admin/health_check_controller.rb\"",
    "",
    "  controller_actions:",
    "    # Specific controller actions that don't need to call usecases",
    "    # - controller: \"app/controllers/admin/dashboard_controller.rb\"",
    "    #   actions: [\"index\", \"show\"]",
    "",
    "  usecase_specs:",
    "    # Usecases that don't need specs (e.g., legacy code)",
    "    # - \"layered/usecase/legacy/migration_usecase.rb\"",
    "",
    "  rake_files:",
    "    # Rake files whose tasks don't need to call usecases",
    "    # - \"lib/tasks/maintenance.rake\"",
    "",
    "  rake_tasks:",
    "    # Specific rake tasks that don't need to call usecases",
    "    # - rake_file: \"lib/tasks/cleanup.rake\"",
    "    #   tasks: [\"purge_logs\"]",
    "",
    "  rake_specs:",
    "    # Rake files that don't need specs",
    "    # - \"lib/tasks/legacy/old_task.rake\"",
    "",
    "# Custom spec file mappings for non-standard naming",
    "custom_mappings:",
    "  rakes:",
    "    # - rake_file: \"lib/tasks/hoge_one.rake\"",
    "    #   spec_file: \"spec/lib/tasks/hoge_one_1_spec.rb\"",
    "",
    "  usecases:",
    "    # - usecase_file: \"layered/usecase/some_usecase.rb\"",
    "    #   spec_file: \"spec/layered/usecase/some_custom_spec.rb\""] ++ "\n"

def file : File :=
  File.ofText text

/-!
# Writing the starter settings
-/

inductive Failure where
  | present (path : String)
  | system (e : SystemError)
  | tooDeep
  deriving DecidableEq, Repr

def Failure.message : Failure → String
  | .present path => "Configuration file already exists at " ++ path
  | .system e => e.message
  | .tooDeep => "maximum recursion depth exceeded"

/-- Whether more folders in a row are missing above the settings than can be made. -/
def isTooFar (disk : Disk) (path : Path) : Bool :=
  disk.host.climb.any fun limit => limit < disk.climb path.parent

def writeFile (disk : Disk) (path : Path) : Disk × Except Failure Unit :=
  if isTooFar disk path then (disk, .error .tooDeep)
  else
    match disk.ensureFolders path.parent with
    | (changed, some e) => (changed, .error (.system e))
    | (changed, none) =>
        match changed.write path.text file with
        | .ok written => (written, .ok ())
        | .error e => (changed, .error (.system e))

/-- Writes the starter settings at a path; an entry that is present is only replaced on request. -/
def write (disk : Disk) (path : Path) (overwrite : Bool) : Disk × Except Failure Unit :=
  match disk.isPresent path with
  | .error e => (disk, .error (.system e))
  | .ok present =>
      if present && !overwrite then (disk, .error (.present path.text))
      else writeFile disk path

end Starter
end UsecaseAudit
