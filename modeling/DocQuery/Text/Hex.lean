/-!
# Hexadecimal numerals

Writing gives small letters; reading takes letters of either case.
-/
namespace DocQuery.Hex

def digit (d : Nat) : Char :=
  if d < 10 then Char.ofNat (48 + d) else Char.ofNat (87 + d)

def digit? (c : Char) : Option Nat :=
  let n := c.toNat
  if 48 ≤ n ∧ n ≤ 57 then some (n - 48)
  else if 97 ≤ n ∧ n ≤ 102 then some (n - 87)
  else if 65 ≤ n ∧ n ≤ 70 then some (n - 55)
  else none

/-- The last `width` digits of `n` in base sixteen, most significant first. -/
def fixed : Nat → Nat → List Char
  | 0, _ => []
  | width + 1, n => fixed width (n / 16) ++ [digit (n % 16)]

/-- The number that the digits denote; `none` if one of them is no digit. -/
def read? (s : List Char) : Option Nat :=
  s.foldlM (fun n c => (digit? c).map (16 * n + ·)) 0

/-- The bytes that pairs of digits denote. -/
def bytes? : List Char → Option (List UInt8)
  | [] => some []
  | [_] => none
  | a :: b :: rest => do
    let high ← digit? a
    let low ← digit? b
    let bytes ← bytes? rest
    pure (UInt8.ofNat (16 * high + low) :: bytes)

/-- Two digits a byte. -/
def ofBytes (bytes : List UInt8) : List Char :=
  bytes.flatMap fun b => fixed 2 b.toNat

theorem length_fixed (width n : Nat) : (fixed width n).length = width := by
  induction width generalizing n with
  | zero => rfl
  | succ width ih => rw [fixed, List.length_append, ih, List.length_singleton]

theorem digit?_digit {d : Nat} (h : d < 16) : digit? (digit d) = some d := by
  have small : ∀ d : Fin 16, digit? (digit d.val) = some d.val := by decide
  exact small ⟨d, h⟩

theorem read?_append_singleton (s : List Char) (c : Char) :
    read? (s ++ [c]) = (read? s).bind fun n => (digit? c).map (16 * n + ·) := by
  rw [read?, List.foldlM_append]
  simp [read?]

/-- A number that has room in the width is the value of its digits. -/
theorem read?_fixed {width n : Nat} (room : n < Nat.pow 16 width) :
    read? (fixed width n) = some n := by
  induction width generalizing n with
  | zero =>
    have zero : n = 0 := by simpa using room
    rw [zero]
    rfl
  | succ width ih =>
    have digits : n < Nat.pow 16 width * 16 := room
    have front : n / 16 < Nat.pow 16 width := by omega
    rw [fixed, read?_append_singleton, ih front, Option.bind_some,
      digit?_digit (Nat.mod_lt n (by omega)), Option.map_some]
    congr 1
    omega

end DocQuery.Hex
