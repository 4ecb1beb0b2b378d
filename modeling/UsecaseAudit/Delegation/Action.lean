import UsecaseAudit.Delegation
import UsecaseAudit.Finding
import UsecaseAudit.Settings

/-!
# Idle actions

The actions of a controller are the methods that stand directly in the body of
its class.  An action that does not delegate is idle, unless the settings pass
over it.
-/

namespace UsecaseAudit
namespace Code

def isController (c : Code) : Bool :=
  c.kind == .classDef && Naming.isController c.name

def actions (exclusions : Exclusions) (file : String) (c : Code) : List Code :=
  c.children.filter fun m =>
    m.kind == .methodDef && Naming.isAction m.name
      && !exclusions.excludesAction file (m.name.getD "")

def idleActionsOf (exclusions : Exclusions) (file : String) (c : Code) : List IdleAction :=
  ((c.actions exclusions file).filter fun m => !delegates (some m)).map fun m =>
    { file := file, action := m.name.getD "", line := m.line }

def idleActions (exclusions : Exclusions) (file : String) (tree : Code) : List IdleAction :=
  (tree.walk.filter isController).flatMap (idleActionsOf exclusions file)

end Code
end UsecaseAudit
