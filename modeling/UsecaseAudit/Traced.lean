import UsecaseAudit.Failure
import UsecaseAudit.Log

/-!
# Traced computations

A computation that keeps a log: it ends with a value or a failure, and the
records up to that end are kept either way.
-/

namespace UsecaseAudit

structure Traced (α : Type) where
  records : List Log.Record
  outcome : Except Failure α

namespace Traced

variable {α β : Type}

def bind (x : Traced α) (f : α → Traced β) : Traced β :=
  match x.outcome with
  | .error e => ⟨x.records, .error e⟩
  | .ok a =>
      let next := f a
      ⟨x.records ++ next.records, next.outcome⟩

instance : Monad Traced where
  pure a := ⟨[], .ok a⟩
  bind := bind

def note (level : Log.Level) (part text : String) : Traced Unit :=
  ⟨[⟨level, Log.sourceName (some part), text⟩], .ok ()⟩

def notes (records : List Log.Record) : Traced Unit :=
  ⟨records, .ok ()⟩

def lift (outcome : Except Failure α) : Traced α :=
  ⟨[], outcome⟩

end Traced
end UsecaseAudit
