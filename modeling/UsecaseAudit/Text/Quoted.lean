import UsecaseAudit.Text.Printable
import UsecaseAudit.Text.Utf8

/-!
# Quoted text

Messages show a path or an argument between quotes.  Single quotes are used,
unless the text holds a single quote and no double quote.  The quote in use,
the backslash and the line controls are written with a backslash; any other
character that is not printable is written by its code point.
-/

namespace UsecaseAudit
namespace Quoted

def mark (cs : List Char) : Char :=
  if cs.contains '\'' && !cs.contains '"' then '"' else '\''

/-- A character written by its code point, as short as its size allows. -/
def byCode (n : Nat) : List Char :=
  if n < 0x100 then '\\' :: 'x' :: Utf8.hex 2 n
  else if n < 0x10000 then '\\' :: 'u' :: Utf8.hex 4 n
  else '\\' :: 'U' :: Utf8.hex 8 n

def char (quote c : Char) : List Char :=
  if c = quote ∨ c = '\\' then ['\\', c]
  else if c = '\t' then ['\\', 't']
  else if c = '\n' then ['\\', 'n']
  else if c = '\r' then ['\\', 'r']
  else if Printable.isPrintable c then [c]
  else byCode c.toNat

def text (s : String) : String :=
  let quote := mark s.toList
  String.ofList (quote :: s.toList.flatMap (char quote) ++ [quote])

end Quoted
end UsecaseAudit
