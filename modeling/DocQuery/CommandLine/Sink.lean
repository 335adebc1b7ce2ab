import DocQuery.Failure
import DocQuery.Text.Bytes
/-!
# Sinks

Where output goes: a place with room for so many bytes, or for any number. A write that does not fit
fills the room and fails.
-/
namespace DocQuery

structure Sink where
  /-- How many more bytes are taken; without a number there is no limit. -/
  room : Option Nat := none
  /-- The bytes that were taken. -/
  taken : List UInt8 := []
  deriving DecidableEq, Repr

namespace Sink

/-- Takes the bytes as far as there is room, and fails if that is not all of them. -/
def write (k : Sink) (bytes : List UInt8) : Except Failure Unit × Sink :=
  match k.room with
  | none => (.ok (), { k with taken := k.taken ++ bytes })
  | some n =>
    let rest : Sink := { room := some (n - bytes.length), taken := k.taken ++ bytes.take n }
    if bytes.length ≤ n then (.ok (), rest) else (.error .io, rest)

/-- Writes the texts one after the other; after a failure nothing more is written. -/
def writeAll (k : Sink) : List String → Except Failure Unit × Sink
  | [] => (.ok (), k)
  | text :: rest =>
    match k.write (utf8 text) with
    | (.ok (), k) => k.writeAll rest
    | (.error e, k) => (.error e, k)

/-- Without a limit everything is taken. -/
theorem write_unbounded (taken bytes : List UInt8) :
    write ⟨none, taken⟩ bytes = (.ok (), ⟨none, taken ++ bytes⟩) := rfl

theorem write_of_fits {n : Nat} (taken : List UInt8) {bytes : List UInt8} (h : bytes.length ≤ n) :
    write ⟨some n, taken⟩ bytes = (.ok (), ⟨some (n - bytes.length), taken ++ bytes⟩) := by
  simp [write, h, List.take_of_length_le h]

theorem write_of_too_long {n : Nat} (taken : List UInt8) {bytes : List UInt8}
    (h : n < bytes.length) :
    write ⟨some n, taken⟩ bytes = (.error .io, ⟨some 0, taken ++ bytes.take n⟩) := by
  have full : n - bytes.length = 0 := by omega
  simp [write, Nat.not_le.mpr h, full]

/-- The text of the bytes that were taken, if they are one. -/
def text? (k : Sink) : Option String :=
  ofUtf8? k.taken

end Sink
end DocQuery
