import UsecaseAudit.Decimal.Shortest
import UsecaseAudit.Decimal.Whole

/-!
# Documents

A settings file is read into a document: nested lists and mappings over
scalars.  The audit asks few things of a document: the value under a key, the
items of a list, and the text of a scalar.  A question that does not fit the
value has an empty answer rather than an error; only a whole number with too many
digits is refused where its text is asked for.

The keys of a mapping are documents too, such as numbers or dates.  The audit
only ever asks for a text, so that all other keys are passed over.
-/

namespace UsecaseAudit

inductive Document where
  | null
  | bool (b : Bool)
  | int (n : Int)
  | real (x : Float)
  | text (s : String)
  | bytes (content : List UInt8)
  | date
  | set
  | list (items : List Document)
  | mapping (fields : List (Document × Document))

namespace Document

def isText (text : String) : Document → Bool
  | .text s => s == text
  | _ => false

def get (d : Document) (key : String) : Document :=
  match d with
  | .mapping fields => ((fields.find? fun f => f.1.isText key).map Prod.snd).getD .null
  | _ => .null

def items : Document → List Document
  | .list xs => xs
  | _ => []

def scalar? : Document → Except Whole.Refusal (Option String)
  | .text s => .ok (some s)
  | .int n => (Whole.text n).map some
  | .real x => .ok (some (Decimal.ofFloat x))
  | .bool true => .ok (some "True")
  | .bool false => .ok (some "False")
  | _ => .ok none

def name? (d : Document) : Except Whole.Refusal (Option String) := do
  match ← d.scalar? with
  | none => return none
  | some s => return if s = "" then none else some s

def collect {α β : Type} (read : α → Except Whole.Refusal (Option β)) :
    List α → Except Whole.Refusal (List β)
  | [] => .ok []
  | x :: rest => do
      let first ← read x
      let others ← collect read rest
      return first.toList ++ others

/-- A list of texts: one text alone, the scalars of a list, or the numbers in a byte string. -/
def texts : Document → Except Whole.Refusal (List String)
  | .text s => .ok [s]
  | .list xs => collect scalar? xs
  | .bytes content => .ok (content.map fun b => toString b.toNat)
  | _ => .ok []

def isMapping : Document → Bool
  | .mapping _ => true
  | _ => false

end Document
end UsecaseAudit
