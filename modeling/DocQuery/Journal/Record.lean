/-!
# Log records

The records that the library emits, and results that carry the records emitted on the way to them.
-/
namespace DocQuery

inductive Level where
  | error
  | warn
  | info
  | debug
  | trace
  deriving DecidableEq, Repr

namespace Level

def name : Level → String
  | .error => "ERROR"
  | .warn => "WARN"
  | .info => "INFO"
  | .debug => "DEBUG"
  | .trace => "TRACE"

/-- One for errors, up to five for traces. -/
def rank : Level → Nat
  | .error => 1
  | .warn => 2
  | .info => 3
  | .debug => 4
  | .trace => 5

end Level

structure Record where
  level : Level
  target : String
  message : String
  deriving DecidableEq, Repr

/-- The target of the lines that trace what was compiled. -/
def traceTarget : String := "docfilter::trace"

/-- A line of the developer's trace as a log record. -/
def Record.trace (line : String) : Record :=
  ⟨.trace, traceTarget, line⟩

/-- A result with the records that were emitted, oldest first. -/
structure Logged (α : Type) where
  value : α
  records : List Record

namespace Logged

instance : Monad Logged where
  pure a := ⟨a, []⟩
  bind x f :=
    let y := f x.value
    ⟨y.value, x.records ++ y.records⟩

def emit (r : Record) : Logged Unit :=
  ⟨(), [r]⟩

end Logged
end DocQuery
