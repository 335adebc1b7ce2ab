/-!
# Blank characters and trimming

The characters with the Unicode property `White_Space`, and the text that is left when a run of
them is cut from both ends.
-/
namespace DocQuery.Text

/-- The ranges of the property `White_Space`, first and last code point of each. -/
def blankRanges : List (Nat × Nat) :=
  [(0x09, 0x0D), (0x20, 0x20), (0x85, 0x85), (0xA0, 0xA0), (0x1680, 0x1680), (0x2000, 0x200A),
    (0x2028, 0x2029), (0x202F, 0x202F), (0x205F, 0x205F), (0x3000, 0x3000)]

def isBlank (c : Char) : Bool :=
  blankRanges.any fun (first, last) => first ≤ c.toNat && c.toNat ≤ last

/-- The text without the blanks at its two ends. -/
def trimList (s : List Char) : List Char :=
  ((s.dropWhile isBlank).reverse.dropWhile isBlank).reverse

def trim (s : String) : String :=
  String.ofList (trimList s.toList)

/-- The text with the letters `A` to `Z` made small and all else kept. -/
def lower (s : String) : String :=
  String.ofList (s.toList.map Char.toLower)

end DocQuery.Text
