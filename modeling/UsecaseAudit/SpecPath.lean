import UsecaseAudit.Settings
import UsecaseAudit.Text.Affix

/-!
# Places of specs

Where the spec of a file is expected follows from the path of the file and the
role it plays.  A place given in the settings comes first and is taken as it
stands; otherwise the convention of the role applies, which moves the file
below `spec/` and puts `_spec.rb` in place of its extension.
-/

namespace UsecaseAudit
namespace SpecPath

/-!
# Extensions

The extension of a path begins at the last dot of its last component.  Dots at
the very beginning of that component never begin an extension.
-/

def baseChars (path : List Char) : List Char :=
  (path.reverse.takeWhile (· != '/')).reverse

def folderChars (path : List Char) : List Char :=
  (path.reverse.dropWhile (· != '/')).reverse

/-- The characters before the last dot; a name without a dot has none. -/
def beforeLastDot (name : List Char) : List Char :=
  ((name.reverse.dropWhile (· != '.')).drop 1).reverse

def baseStem (base : List Char) : List Char :=
  let visible := base.dropWhile (· == '.')
  if visible.contains '.' then base.takeWhile (· == '.') ++ beforeLastDot visible else base

def stem (path : String) : String :=
  String.ofList (folderChars path.toList ++ baseStem (baseChars path.toList))

/-!
# Conventions
-/

def specName (path : String) : String :=
  stem path ++ "_spec.rb"

def usecaseSuffix : String := "_usecase.rb"

/-- A leading `app/` is left out below `spec/`; any other path is kept whole. -/
def belowSpec (path : String) : String :=
  if Affix.starts path "layered/" then "spec/layered/" ++ Affix.dropFirst path 8
  else if Affix.starts path "app/" then "spec/" ++ Affix.dropFirst path 4
  else "spec/" ++ path

def ofUsecase (path : String) : String :=
  let moved := belowSpec path
  if Affix.ends moved usecaseSuffix then
    Affix.dropLast moved usecaseSuffix.length ++ "_usecase_spec.rb"
  else
    specName moved

def ofTask (path : String) : String :=
  if Affix.starts path "lib/" then specName ("spec/lib/" ++ Affix.dropFirst path 4)
  else specName ("spec/" ++ path)

def convention? : Role → Option (String → String)
  | .controller => none
  | .usecase => some ofUsecase
  | .task => some ofTask

/-!
# Places given in the settings
-/

def given? (places : List SpecPlace) (path : String) : Option String :=
  (places.find? fun place => place.source == path).map SpecPlace.spec

def placesFor (places : SpecPlaces) : Role → List SpecPlace
  | .controller => []
  | .usecase => places.usecases
  | .task => places.rakes

def expected? (role : Role) (places : List SpecPlace) (path : String) : Option String :=
  (convention? role).map fun convention => (given? places path).getD (convention path)

/-- As `expected?`, for a role given by name; the error is the name of a role without convention. -/
def expectedFor (role : String) (places : List SpecPlace) (path : String) :
    Except String String :=
  match (Role.ofName? role).bind fun r => expected? r places path with
  | some place => .ok place
  | none => .error role

def noConventionMessage (role : String) : String :=
  "No spec convention for role: " ++ role

end SpecPath
end UsecaseAudit
