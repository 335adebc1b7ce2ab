import DocQuery.Text.Decimal
import DocQuery.Text.Hex
/-!
# Writing TOML

Pairs of a key and a value, one to a line. A text takes the first form in which it needs no escape:
basic, literal, basic over several lines, literal over several lines; if there is none it is
escaped, over several lines if it has line breaks.
-/
namespace DocQuery.Toml

inductive StringForm where
  | basic
  | literal
  | multiBasic
  | multiLiteral
  deriving DecidableEq, Repr

/-- The length of the longest run of `c`. -/
def longestRun (c : Char) (s : List Char) : Nat :=
  (s.foldl (fun (best, run) d => if d = c then (max best (run + 1), run + 1) else (best, 0))
    (0, 0)).1

/-- Control characters other than tabs and line feeds. -/
def isControl (c : Char) : Bool :=
  (c.toNat ≤ 0x1F && c ≠ '\t' && c ≠ '\n') || c.toNat = 0x7F

def formOf (s : List Char) : StringForm :=
  let controls := s.any isControl
  let backslash := s.contains '\\'
  let lineFeed := s.contains '\n'
  let quotes := longestRun '"' s
  let apostrophes := longestRun '\'' s
  if !controls && !backslash && quotes = 0 && !lineFeed then .basic
  else if !controls && apostrophes = 0 && !lineFeed then .literal
  else if !controls && !backslash && quotes ≤ 2 then .multiBasic
  else if !controls && apostrophes ≤ 2 then .multiLiteral
  else if lineFeed then .multiBasic
  else .basic

/-- The escape of a character other than a quote, where it needs one. -/
def escaped? (multi : Bool) (c : Char) : Option (List Char) :=
  if c.toNat = 0x08 then some ['\\', 'b']
  else if c = '\t' then some ['\\', 't']
  else if c = '\n' then if multi then none else some ['\\', 'n']
  else if c.toNat = 0x0C then some ['\\', 'f']
  else if c = '\r' then some ['\\', 'r']
  else if c = '\\' then some ['\\', '\\']
  else if isControl c then
    some ('\\' :: 'u' :: (Hex.fixed 4 c.toNat).map Char.toUpper)
  else none

/-- Escapes what has to be escaped. So many quotes in a row may stand as they are; any escape starts
a new run. -/
def escapeAll (multi : Bool) (allowed : Nat) : Nat → List Char → List Char
  | _, [] => []
  | run, c :: rest =>
    if c = '"' then
      if allowed ≤ run then '\\' :: '"' :: escapeAll multi allowed 0 rest
      else '"' :: escapeAll multi allowed (run + 1) rest
    else match escaped? multi c with
      | some e => e ++ escapeAll multi allowed 0 rest
      | none => c :: escapeAll multi allowed 0 rest

/-- Over several lines a line break in front keeps the text's own first one. -/
def stringText (s : List Char) : List Char :=
  let firstBreak := if s.contains '\n' then ['\n'] else []
  let quotes := ['"', '"', '"']
  let apostrophes := ['\'', '\'', '\'']
  match formOf s with
  | .basic => '"' :: escapeAll false 0 0 s ++ ['"']
  | .literal => '\'' :: s ++ ['\'']
  | .multiBasic => quotes ++ firstBreak ++ escapeAll true 2 0 s ++ quotes
  | .multiLiteral => apostrophes ++ firstBreak ++ s ++ apostrophes

/-- One line, or none if there is no value. -/
def pairLine (key : String) : Option (List Char) → List Char
  | none => []
  | some value => key.toList ++ " = ".toList ++ value ++ ['\n']

end DocQuery.Toml
