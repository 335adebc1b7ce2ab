import DocQuery.Text.Hex
/-!
# Quoted text

A text between double quotes. Writing escapes the quote, the backslash and the characters below
U+0020 and nothing else. Reading takes every escape of RFC 8259; a pair of escaped surrogates is
one character, and half a pair denotes nothing. As bytes, what is quoted always has a value: each
half of a pair counts as the three bytes that a character with its number would have, and control
characters may stand as they are.
-/
namespace DocQuery.Quoted

/-- The written form of one character between the quotes. -/
def escape (c : Char) : List Char :=
  if c = '"' then ['\\', '"']
  else if c = '\\' then ['\\', '\\']
  else if c.toNat = 0x08 then ['\\', 'b']
  else if c = '\t' then ['\\', 't']
  else if c = '\n' then ['\\', 'n']
  else if c.toNat = 0x0C then ['\\', 'f']
  else if c = '\r' then ['\\', 'r']
  else if c.toNat < 0x20 then '\\' :: 'u' :: Hex.fixed 4 c.toNat
  else [c]

def encode (s : List Char) : List Char :=
  '"' :: s.flatMap escape ++ ['"']

/-- What stands between the quotes: a character, or the UTF-16 unit of a `\u` escape. -/
inductive Piece where
  | char (c : Char)
  | unit (n : Nat)
  /-- A character below U+0020 that is not escaped. The grammar has no place for it. -/
  | control (c : Char)
  deriving DecidableEq, Repr

def Piece.isControl : Piece → Bool
  | .control _ => true
  | _ => false

/-- The character after the backslash of a short escape. -/
def shortEscape? : Char → Option Char
  | '"' => some '"'
  | '\\' => some '\\'
  | '/' => some '/'
  | 'b' => some (Char.ofNat 0x08)
  | 'f' => some (Char.ofNat 0x0C)
  | 'n' => some '\n'
  | 'r' => some '\r'
  | 't' => some '\t'
  | _ => none

/-- The pieces up to the closing quote, which `s` must hold, and what follows the quote. -/
def pieces? : List Char → Option (List Piece × List Char)
  | [] => none
  | '"' :: rest => some ([], rest)
  | '\\' :: 'u' :: a :: b :: c :: d :: rest => do
    let n ← Hex.read? [a, b, c, d]
    let (ps, rest) ← pieces? rest
    pure (.unit n :: ps, rest)
  | '\\' :: e :: rest => do
    let c ← shortEscape? e
    let (ps, rest) ← pieces? rest
    pure (.char c :: ps, rest)
  | c :: rest =>
    if c = '\\' then none
    else do
      let (ps, rest) ← pieces? rest
      pure ((if c.toNat < 0x20 then .control c else .char c) :: ps, rest)

def isHighSurrogate (n : Nat) : Bool :=
  0xD800 ≤ n && n ≤ 0xDBFF

def isLowSurrogate (n : Nat) : Bool :=
  0xDC00 ≤ n && n ≤ 0xDFFF

/-- The number of the character that two halves of a pair stand for. -/
def pairCode (high low : Nat) : Nat :=
  0x10000 + (high - 0xD800) * 0x400 + (low - 0xDC00)

/-- The characters that the pieces denote; `none` if one is half of a surrogate pair or a control
character. -/
def join? : List Piece → Option (List Char)
  | [] => some []
  | .control _ :: _ => none
  | .char c :: rest => (join? rest).map (c :: ·)
  | .unit n :: .unit m :: rest =>
    if isHighSurrogate n then
      if isLowSurrogate m then
        (join? rest).map (Char.ofNat (pairCode n m) :: ·)
      else none
    else if isLowSurrogate n then none
    else (join? (.unit m :: rest)).map (Char.ofNat n :: ·)
  | .unit n :: rest =>
    if isHighSurrogate n || isLowSurrogate n then none
    else (join? rest).map (Char.ofNat n :: ·)

/-- The UTF-8 bytes of the character with the number `n`; also of a surrogate, by the same rule. -/
def codeBytes (n : Nat) : List UInt8 :=
  if n < 0x80 then [UInt8.ofNat n]
  else if n < 0x800 then [UInt8.ofNat (0xC0 + n / 0x40), UInt8.ofNat (0x80 + n % 0x40)]
  else if n < 0x10000 then
    [UInt8.ofNat (0xE0 + n / 0x1000), UInt8.ofNat (0x80 + n / 0x40 % 0x40),
      UInt8.ofNat (0x80 + n % 0x40)]
  else
    [UInt8.ofNat (0xF0 + n / 0x40000), UInt8.ofNat (0x80 + n / 0x1000 % 0x40),
      UInt8.ofNat (0x80 + n / 0x40 % 0x40), UInt8.ofNat (0x80 + n % 0x40)]

/-- The bytes that the pieces stand for. Two halves of a pair count as one character. -/
def bytes : List Piece → List UInt8
  | [] => []
  | .char c :: rest => codeBytes c.toNat ++ bytes rest
  | .control c :: rest => codeBytes c.toNat ++ bytes rest
  | .unit n :: .unit m :: rest =>
    if isHighSurrogate n && isLowSurrogate m then codeBytes (pairCode n m) ++ bytes rest
    else codeBytes n ++ bytes (.unit m :: rest)
  | .unit n :: rest => codeBytes n ++ bytes rest

/-- The pieces of a quoted text at the front of `s`. -/
def readPieces? : List Char → Option (List Piece × List Char)
  | '"' :: s => pieces? s
  | _ => none

/-- Reads a quoted text at the front of `s`. The inner `none` is a text that follows the grammar
and denotes nothing. -/
def read? (s : List Char) : Option (Option (List Char) × List Char) :=
  match readPieces? s with
  | some (ps, rest) => if ps.any Piece.isControl then none else some (join? ps, rest)
  | none => none

/-- Reads a text that is one quoted text and nothing more. -/
def decode? (s : List Char) : Option (List Char) :=
  match read? s with
  | some (some text, []) => some text
  | _ => none

end DocQuery.Quoted

namespace DocQuery

/-- The text between double quotes, escaped where it must be. -/
def quoted (s : String) : String :=
  String.ofList (Quoted.encode s.toList)

end DocQuery
