import DocQuery.Journal.Record
import DocQuery.Text.Blank
/-!
# Thresholds

Up to which level records are kept.
-/
namespace DocQuery

inductive Threshold where
  | off
  | upTo (l : Level)
  deriving DecidableEq, Repr

namespace Threshold

def rank : Threshold → Nat
  | .off => 0
  | .upTo l => l.rank

def name : Threshold → String
  | .off => "OFF"
  | .upTo l => l.name

def admits (t : Threshold) (l : Level) : Bool :=
  l.rank ≤ t.rank

/-- The one that keeps more. -/
def max (s t : Threshold) : Threshold :=
  if s.rank < t.rank then t else s

/-- The threshold that a word names, in any case of its letters; without a known word it is
`info`. -/
def ofText (s : Option String) : Threshold :=
  match Text.lower (s.getD "info") with
  | "error" => .upTo .error
  | "warn" => .upTo .warn
  | "debug" => .upTo .debug
  | "trace" => .upTo .trace
  | "off" => .off
  | _ => .upTo .info

theorem admits_max (s t : Threshold) (l : Level) :
    (s.max t).admits l = (s.admits l || t.admits l) := by
  by_cases h : s.rank < t.rank
  · by_cases low : l.rank ≤ s.rank
    · simp [max, admits, h, low, Nat.le_trans low (Nat.le_of_lt h)]
    · simp [max, admits, h, low]
  · by_cases low : l.rank ≤ t.rank
    · simp [max, admits, h, low, Nat.le_trans low (Nat.not_lt.mp h)]
    · simp [max, admits, h, low]

end Threshold
end DocQuery
