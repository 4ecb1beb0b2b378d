import UsecaseAudit.Text.Split

/-!
# Paths

A path is an anchor and the names after it.  Repeated slashes and single dots
say nothing and are left out; double dots are kept, since what they lead to
depends on the disk.  A location is a path from the top of the disk in which
every name is the name of an entry.
-/

namespace UsecaseAudit

/-- A path, with an empty anchor when it is relative. -/
structure Path where
  anchor : String
  parts : List String
  deriving DecidableEq, Repr

abbrev Location := List String

namespace Path

/-!
# Reading and writing paths
-/

def pieces (text : String) : List String :=
  Split.pieces '/' text

/-- Two slashes at the front make an anchor of their own; any other number of them is one. -/
def anchorOf (text : String) : String :=
  match (text.toList.takeWhile (· == '/')).length with
  | 0 => ""
  | 2 => "//"
  | _ => "/"

def ofText (text : String) : Path :=
  { anchor := anchorOf text
    parts := (pieces text).filter fun piece => piece != "" && piece != "." }

def text (p : Path) : String :=
  if p.anchor = "" ∧ p.parts = [] then "." else p.anchor ++ "/".intercalate p.parts

def ofLocation (place : Location) : Path :=
  { anchor := "/", parts := place }

/-!
# Parts of paths
-/

def isRelative (p : Path) : Bool :=
  p.anchor == ""

/-- The path of `q` seen from `p`; an anchored path does not depend on where it is seen from. -/
def join (p q : Path) : Path :=
  if q.isRelative then { p with parts := p.parts ++ q.parts } else q

def parent (p : Path) : Path :=
  { p with parts := p.parts.dropLast }

def user? (p : Path) : Option String :=
  if p.isRelative then
    match p.parts with
    | [] => none
    | first :: _ =>
        match first.toList with
        | '~' :: name => some (String.ofList name)
        | _ => none
  else
    none

/-- The folder that a text names as a home: slashes at its end say nothing. -/
def homeFolder (text : String) : String :=
  let trimmed := String.ofList (text.toList.reverse.dropWhile (· == '/')).reverse
  if trimmed = "" then "/" else trimmed

/-- A path that begins at the home folder of a user, with that folder in place of the user; nothing
if the folder is itself given by a user. -/
def atHome? (p : Path) (home : String) : Option Path :=
  if home.toList.head? == some '~' then none
  else
    let folder := ofText (homeFolder home)
    some { folder with parts := folder.parts ++ p.parts.tail }

def hasNull (text : String) : Bool :=
  text.toList.contains (Char.ofNat 0)

end Path
end UsecaseAudit
