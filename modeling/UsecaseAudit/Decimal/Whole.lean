/-!
# Whole numbers as text

A whole number is written with its decimal digits, but only when there are not too
many of them.  A number with more digits than that has no text at all.
-/

namespace UsecaseAudit
namespace Whole

/-- The most digits with which a whole number is written. -/
def mostDigits : Nat := 4300

/-- The least whole number that has more digits. -/
def leastLong : Nat := Nat.pow 10 mostDigits

def isShort (n : Int) : Bool :=
  decide (n.natAbs < leastLong)

inductive Refusal where
  | tooManyDigits
  deriving DecidableEq, Repr

def Refusal.message : Refusal → String
  | .tooManyDigits =>
      "Exceeds the limit (" ++ toString mostDigits ++ " digits) for integer string conversion; "
        ++ "use sys.set_int_max_str_digits() to increase the limit"

def text (n : Int) : Except Refusal String :=
  if isShort n then .ok (toString n) else .error .tooManyDigits

end Whole
end UsecaseAudit
