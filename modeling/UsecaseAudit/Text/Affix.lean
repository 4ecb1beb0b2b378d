/-!
# Beginnings, endings and parts of a text

The three tests on texts that the naming rules and the path conventions rest
on, said on the characters of a text.
-/

namespace UsecaseAudit
namespace Affix

def starts (text part : String) : Bool :=
  part.toList.isPrefixOf text.toList

def ends (text part : String) : Bool :=
  part.toList.isSuffixOf text.toList

def occursIn (part : List Char) : List Char → Bool
  | [] => part.isEmpty
  | c :: cs => part.isPrefixOf (c :: cs) || occursIn part cs

def occurs (text part : String) : Bool :=
  occursIn part.toList text.toList

def dropFirst (text : String) (n : Nat) : String :=
  String.ofList (text.toList.drop n)

def dropLast (text : String) (n : Nat) : String :=
  String.ofList (text.toList.take (text.toList.length - n))

end Affix
end UsecaseAudit
