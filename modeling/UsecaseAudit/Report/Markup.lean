/-!
# Markup

Console lines are written in a markup.  A tag is an opening bracket, one of the
characters `a` to `z`, `#`, `/` or `@`, and anything but an opening bracket up
to the next closing bracket.  A tag sets a style and shows nothing.  After an
odd number of backslashes a tag is shown as it stands, and every pair of
backslashes before a tag shows one.

Escaping a text makes its tags shown.  The two readings agree on what a tag is,
since both cut a text into the same pieces.
-/

namespace UsecaseAudit
namespace Markup

inductive Piece where
  | char (c : Char)
  | tag (slashes : Nat) (body : List Char)
  deriving DecidableEq, Repr

def beginsTag (c : Char) : Bool :=
  (decide ('a' ≤ c) && decide (c ≤ 'z')) || c == '#' || c == '/' || c == '@'

def isBracket (c : Char) : Bool :=
  c == '[' || c == ']'

/-- The body of a tag whose opening bracket was just read, and what follows the tag. -/
def tagBody? : List Char → Option (List Char × List Char)
  | [] => none
  | c :: rest =>
      if beginsTag c then
        match rest.dropWhile fun x => !isBracket x with
        | ']' :: after => some (c :: rest.takeWhile fun x => !isBracket x, after)
        | _ => none
      else
        none

theorem length_tagBody?_lt {cs body after : List Char}
    (h : tagBody? cs = some (body, after)) : after.length < cs.length := by
  cases cs with
  | nil =>
      cases h
  | cons c rest =>
      rw [tagBody?] at h
      have hle := (List.dropWhile_suffix (l := rest) fun x => !isBracket x).length_le
      split at h
      · split at h
        · rename_i heq
          rw [heq, List.length_cons] at hle
          cases h
          exact Nat.lt_succ_of_lt hle
        · cases h
      · cases h

def slashPieces (n : Nat) : List Piece :=
  List.replicate n (.char '\\')

/-- The pieces of a text, after a number of backslashes that belong to the first of them. -/
def piecesAfter (slashes : Nat) : List Char → List Piece
  | [] => slashPieces slashes
  | c :: rest =>
      if c = '\\' then piecesAfter (slashes + 1) rest
      else if c = '[' then
        match _h : tagBody? rest with
        | some (body, after) => .tag slashes body :: piecesAfter 0 after
        | none => slashPieces slashes ++ .char '[' :: piecesAfter 0 rest
      else slashPieces slashes ++ .char c :: piecesAfter 0 rest
termination_by cs => cs.length
decreasing_by
  · exact Nat.lt_succ_self _
  · exact Nat.lt_succ_of_lt (length_tagBody?_lt _h)
  · exact Nat.lt_succ_self _
  · exact Nat.lt_succ_self _

def pieces (cs : List Char) : List Piece :=
  piecesAfter 0 cs

/-!
# Escaping
-/

def bracketed (body : List Char) : List Char :=
  '[' :: body ++ [']']

def slashes (n : Nat) : List Char :=
  List.replicate n '\\'

/-- A tag is shown when its backslashes are doubled and one more is put before it. -/
def escapePiece : Piece → List Char
  | .char c => [c]
  | .tag n body => slashes (2 * n + 1) ++ bracketed body

def endsInOneSlash (cs : List Char) : Bool :=
  match cs.reverse with
  | ['\\'] => true
  | '\\' :: c :: _ => c != '\\'
  | _ => false

def escapeChars (cs : List Char) : List Char :=
  let escaped := (pieces cs).flatMap escapePiece
  if endsInOneSlash escaped then escaped ++ ['\\'] else escaped

def escape (text : String) : String :=
  String.ofList (escapeChars text.toList)

/-!
# Rendering
-/

/-- What the pieces of a markup show; a backslash before a bracket that opens no tag is lost. -/
def showPieces : List Piece → List Char
  | [] => []
  | .char '\\' :: .char '[' :: rest => '[' :: showPieces rest
  | .char c :: rest => c :: showPieces rest
  | .tag n body :: rest =>
      slashes (n / 2) ++ (if n % 2 = 1 then bracketed body else []) ++ showPieces rest

def isControl (c : Char) : Bool :=
  [7, 8, 11, 12, 13].contains c.toNat

def renderChars (cs : List Char) : List Char :=
  let shown := if cs.contains '[' then showPieces (pieces cs) else cs
  shown.filter fun c => !isControl c

def render (markup : String) : String :=
  String.ofList (renderChars markup.toList)

end Markup
end UsecaseAudit
