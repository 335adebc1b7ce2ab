/-!
# Decimal numerals

The digits of a natural number, most significant first and without leading zeros, and the number
that a list of digits denotes.
-/
namespace DocQuery.Decimal

def digitChar (d : Nat) : Char :=
  Char.ofNat (48 + d)

def isDigit (c : Char) : Bool :=
  48 ≤ c.toNat && c.toNat ≤ 57

def digitValue (c : Char) : Nat :=
  c.toNat - 48

/-- The numeral of `n`. -/
def digits (n : Nat) : List Char :=
  if n < 10 then [digitChar n] else digits (n / 10) ++ [digitChar (n % 10)]
termination_by n

/-- The number that `ds` denotes, read from the left. -/
def value (ds : List Char) : Nat :=
  ds.foldl (fun n c => 10 * n + digitValue c) 0

/-- The numeral of `n`, filled up with zeros on the left to at least `width` digits. -/
def padded (width n : Nat) : List Char :=
  List.replicate (width - (digits n).length) '0' ++ digits n

/-- A minus sign for what is below zero, then the numeral. -/
def signed (i : Int) : List Char :=
  if i < 0 then '-' :: digits i.natAbs else digits i.natAbs

def natText (n : Nat) : String :=
  String.ofList (digits n)

def intText (i : Int) : String :=
  String.ofList (signed i)

/-- Reads a list that holds digits only, and at least one. -/
def nat? (ds : List Char) : Option Nat :=
  if ds.isEmpty || !ds.all isDigit then none else some (value ds)

/-- Reads a number with an optional sign of either kind. -/
def int? : List Char → Option Int
  | '-' :: ds => (nat? ds).map fun n => -(n : Int)
  | '+' :: ds => (nat? ds).map fun n => (n : Int)
  | ds => (nat? ds).map fun n => (n : Int)

/-- The longest run of digits at the front, and what follows it. -/
def span (s : List Char) : List Char × List Char :=
  (s.takeWhile isDigit, s.dropWhile isDigit)

theorem toNat_digitChar {d : Nat} (h : d < 10) : (digitChar d).toNat = 48 + d := by
  have small : ∀ d : Fin 10, (digitChar d.val).toNat = 48 + d.val := by decide
  exact small ⟨d, h⟩

theorem digitValue_digitChar {d : Nat} (h : d < 10) : digitValue (digitChar d) = d := by
  rw [digitValue, toNat_digitChar h]
  omega

theorem isDigit_digitChar {d : Nat} (h : d < 10) : isDigit (digitChar d) = true := by
  simp only [isDigit, toNat_digitChar h, Bool.and_eq_true, decide_eq_true_eq]
  omega

theorem value_append_singleton (ds : List Char) (c : Char) :
    value (ds ++ [c]) = 10 * value ds + digitValue c := by
  rw [value, List.foldl_append]
  rfl

/-- A number is the value of its numeral. -/
theorem value_digits (n : Nat) : value (digits n) = n := by
  induction n using digits.induct with
  | case1 n h =>
    rw [digits, if_pos h]
    simpa [value] using digitValue_digitChar h
  | case2 n h ih =>
    rw [digits, if_neg h, value_append_singleton, ih,
      digitValue_digitChar (Nat.mod_lt n (by omega))]
    omega

theorem isDigit_of_mem_digits (n : Nat) : ∀ c ∈ digits n, isDigit c = true := by
  induction n using digits.induct with
  | case1 n h =>
    rw [digits, if_pos h]
    simpa using isDigit_digitChar h
  | case2 n h ih =>
    rw [digits, if_neg h]
    intro c member
    rcases List.mem_append.mp member with front | last
    · exact ih c front
    · rw [List.mem_singleton.mp last]
      exact isDigit_digitChar (Nat.mod_lt n (by omega))

theorem digits_ne_nil (n : Nat) : digits n ≠ [] := by
  rw [digits]
  split <;> simp

theorem digits_eq_toDigits (n : Nat) : digits n = Nat.toDigits 10 n := by
  have char {d : Nat} (h : d < 10) : digitChar d = d.digitChar := by
    have all : ∀ d : Fin 10, digitChar d.val = d.val.digitChar := by decide
    exact all ⟨d, h⟩
  induction n using digits.induct with
  | case1 n small => rw [digits, if_pos small, Nat.toDigits_of_lt_base small, char small]
  | case2 n large ih =>
    rw [digits, if_neg large, Nat.toDigits_of_base_le (by decide) (Nat.not_lt.mp large), ih,
      char (Nat.mod_lt n (by decide))]

theorem natText_eq_toString (n : Nat) : natText n = toString n := by
  rw [natText, digits_eq_toDigits, Nat.toString_eq_ofList_toDigits]

end DocQuery.Decimal
