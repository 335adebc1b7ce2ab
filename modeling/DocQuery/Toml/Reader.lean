import DocQuery.Toml.Scalar
/-!
# Reading TOML

The grammar of TOML 1.1: keys, the four forms of strings, lists, inline tables, headers. Each reader
takes what it reads from the front of a list of characters and gives the rest. Fuel bounds calls
within calls; the length of the text is enough.
-/
namespace DocQuery.Toml

def isBlank (c : Char) : Bool :=
  c = ' ' || c = '\t'

def skipBlanks (s : List Char) : List Char :=
  s.dropWhile isBlank

/-- Characters that may stand in comments and strings as they are. -/
def isPlain (c : Char) : Bool :=
  c = '\t' || (0x20 ≤ c.toNat && c.toNat ≠ 0x7F)

/-- A line break at the front. -/
def lineBreak? : List Char → Option (List Char)
  | '\n' :: rest => some rest
  | '\r' :: '\n' :: rest => some rest
  | _ => none

/-- The end of a line, a comment before it included. -/
def lineEnd? (s : List Char) : Option (List Char) :=
  let s := skipBlanks s
  let s := match s with
    | '#' :: rest => rest.dropWhile isPlain
    | s => s
  if s.isEmpty then some [] else lineBreak? s

/-- What follows blanks, line breaks and comments. -/
def skipLines : Nat → List Char → Option (List Char)
  | 0, s => some s
  | fuel + 1, s =>
    match skipBlanks s with
    | [] => some []
    | c :: rest =>
      if c = '#' || c = '\n' || c = '\r' then (lineEnd? (c :: rest)).bind (skipLines fuel)
      else some (c :: rest)

/-- The value of so many hexadecimal digits at the front, as a character. -/
def hexChar? (width : Nat) (s : List Char) : Option (Char × List Char) := do
  let ds := s.take width
  if ds.length ≠ width then none
  let n ← Hex.read? ds
  if n.isValidChar then some (Char.ofNat n, s.drop width) else none

/-- The character of an escape, after the backslash. -/
def escape? : List Char → Option (Char × List Char)
  | '"' :: s => some ('"', s)
  | '\\' :: s => some ('\\', s)
  | 'b' :: s => some (Char.ofNat 0x08, s)
  | 't' :: s => some ('\t', s)
  | 'n' :: s => some ('\n', s)
  | 'f' :: s => some (Char.ofNat 0x0C, s)
  | 'r' :: s => some ('\r', s)
  | 'e' :: s => some (Char.ofNat 0x1B, s)
  | 'x' :: s => hexChar? 2 s
  | 'u' :: s => hexChar? 4 s
  | 'U' :: s => hexChar? 8 s
  | _ => none

/-- The text up to the closing quote, escapes resolved. -/
def basic? : Nat → List Char → Option (List Char × List Char)
  | 0, _ => none
  | _, [] => none
  | _, '"' :: rest => some ([], rest)
  | fuel + 1, '\\' :: rest => do
    let (c, rest) ← escape? rest
    let (text, rest) ← basic? fuel rest
    some (c :: text, rest)
  | fuel + 1, c :: rest =>
    if isPlain c then do
      let (text, rest) ← basic? fuel rest
      some (c :: text, rest)
    else none

/-- The text up to the closing apostrophe, taken as it is. -/
def literal? (s : List Char) : Option (List Char × List Char) :=
  let text := s.takeWhile fun c => isPlain c && c ≠ '\''
  match s.drop text.length with
  | '\'' :: rest => some (text, rest)
  | _ => none

/-- The first line break of a text over several lines does not count. -/
def skipFirstBreak (s : List Char) : List Char :=
  (lineBreak? s).getD s

/-- What follows a run of three to five quotes, with the quotes beyond the closing three. -/
def closing? (quote : Char) (s : List Char) : Option (List Char × List Char) :=
  let run := (s.takeWhile (· = quote)).length
  if run < 3 then none
  else
    let extra := min (run - 3) 2
    some (List.replicate extra quote, s.drop (extra + 3))

/-- What follows a backslash at the end of a line: the blanks and line breaks after it go. -/
def joinLines? (s : List Char) : Option (List Char) :=
  match lineBreak? (skipBlanks s) with
  | none => none
  | some rest =>
    let isGap (c : Char) : Bool := c = ' ' || c = '\t' || c = '\n' || c = '\r'
    let gap := rest.takeWhile isGap
    -- a carriage return counts only as part of a line break
    let rec complete : List Char → Bool
      | '\r' :: '\n' :: more => complete more
      | '\r' :: _ => false
      | _ :: more => complete more
      | [] => true
    if complete gap then some (rest.drop gap.length) else none

/-- The text up to three closing quotes, over several lines, escapes resolved. -/
def multiBasic? : Nat → List Char → Option (List Char × List Char)
  | 0, _ => none
  | _, [] => none
  | fuel + 1, '"' :: rest =>
    match closing? '"' ('"' :: rest) with
    | some found => some found
    | none => do
      let (text, rest) ← multiBasic? fuel rest
      some ('"' :: text, rest)
  | fuel + 1, '\\' :: rest =>
    match joinLines? rest with
    | some rest => multiBasic? fuel rest
    | none => do
      let (c, rest) ← escape? rest
      let (text, rest) ← multiBasic? fuel rest
      some (c :: text, rest)
  | fuel + 1, '\r' :: '\n' :: rest => do
    let (text, rest) ← multiBasic? fuel rest
    some ('\r' :: '\n' :: text, rest)
  | fuel + 1, c :: rest =>
    if isPlain c || c = '\n' then do
      let (text, rest) ← multiBasic? fuel rest
      some (c :: text, rest)
    else none

/-- The text up to three closing apostrophes, over several lines, taken as it is. -/
def multiLiteral? : Nat → List Char → Option (List Char × List Char)
  | 0, _ => none
  | _, [] => none
  | fuel + 1, '\'' :: rest =>
    match closing? '\'' ('\'' :: rest) with
    | some found => some found
    | none => do
      let (text, rest) ← multiLiteral? fuel rest
      some ('\'' :: text, rest)
  | fuel + 1, '\r' :: '\n' :: rest => do
    let (text, rest) ← multiLiteral? fuel rest
    some ('\r' :: '\n' :: text, rest)
  | fuel + 1, c :: rest =>
    if isPlain c || c = '\n' then do
      let (text, rest) ← multiLiteral? fuel rest
      some (c :: text, rest)
    else none

/-- A string of any form. -/
def string? (s : List Char) : Option (List Char × List Char) :=
  let fuel := s.length
  match s with
  | '"' :: '"' :: '"' :: rest => multiBasic? fuel (skipFirstBreak rest)
  | '"' :: rest => basic? fuel rest
  | '\'' :: '\'' :: '\'' :: rest => multiLiteral? fuel (skipFirstBreak rest)
  | '\'' :: rest => literal? rest
  | _ => none

def isBare (c : Char) : Bool :=
  c.isAlphanum || c = '_' || c = '-'

/-- One part of a key: bare, or a string on one line. -/
def simpleKey? (s : List Char) : Option (String × List Char) :=
  match s with
  | '"' :: rest => (basic? s.length rest).map fun (key, rest) => (String.ofList key, rest)
  | '\'' :: rest => (literal? rest).map fun (key, rest) => (String.ofList key, rest)
  | _ =>
    let key := s.takeWhile isBare
    if key.isEmpty then none else some (String.ofList key, s.drop key.length)

/-- A dotted key of so many parts at most. -/
def keyWithin? : Nat → List Char → Option (List String × String × List Char)
  | 0, _ => none
  | parts + 1, s => do
    let (key, s) ← simpleKey? (skipBlanks s)
    match skipBlanks s with
    | '.' :: s =>
      let (path, last, s) ← keyWithin? parts s
      some (key :: path, last, s)
    | s => some ([], key, s)

/-- How many parts a dotted key may have. -/
def maxKeyParts : Nat := 80

/-- The parts of a dotted key, the last one apart. -/
def key? (s : List Char) : Option (List String × String × List Char) :=
  keyWithin? maxKeyParts s

def isScalarChar (c : Char) : Bool :=
  c.isAlphanum || c = '_' || c = '-' || c = '+' || c = '.' || c = ':'

/-- A bare word. A blank between a date and a digit belongs to it. -/
def bareWord (s : List Char) : List Char × List Char :=
  let word := s.takeWhile isScalarChar
  let rest := s.drop word.length
  match rest with
  | ' ' :: c :: more =>
    if (Date.read? word).map (·.2) = some [] && Decimal.isDigit c then
      let time := (c :: more).takeWhile isScalarChar
      (word ++ ' ' :: time, (c :: more).drop time.length)
    else (word, rest)
  | _ => (word, rest)

/-- How deep lists and inline tables may lie in each other. -/
def maxNesting : Nat := 80

mutual

/-- A value at the front. -/
def value? : Nat → Nat → List Char → Option (Toml × List Char)
  | 0, _, _ => none
  | fuel + 1, nesting, s =>
    match s with
    | '"' :: _ => (string? s).map fun (text, rest) => (.string (String.ofList text), rest)
    | '\'' :: _ => (string? s).map fun (text, rest) => (.string (String.ofList text), rest)
    | '[' :: rest =>
      if nesting = 0 then none
      else (items? fuel (nesting - 1) rest).map fun (items, rest) => (.array items, rest)
    | '{' :: rest =>
      if nesting = 0 then none
      else (pairs? fuel (nesting - 1) [] rest).map fun (entries, rest) =>
        (.table .inline entries, rest)
    | _ =>
      let (word, rest) := bareWord s
      (scalar? word).map fun v => (v, rest)

/-- The items of a list up to its closing bracket. -/
def items? : Nat → Nat → List Char → Option (List Toml × List Char)
  | 0, _, _ => none
  | fuel + 1, nesting, s => do
    let s ← skipLines s.length s
    match s with
    | ']' :: rest => some ([], rest)
    | s =>
      let (v, s) ← value? fuel nesting s
      let s ← skipLines s.length s
      match s with
      | ',' :: s =>
        let (vs, s) ← items? fuel nesting s
        some (v :: vs, s)
      | ']' :: s => some ([v], s)
      | _ => none

/-- The pairs of an inline table up to its closing brace, added to `entries`. Lines may end anywhere
but inside a key. -/
def pairs? : Nat → Nat → Entries → List Char → Option (Entries × List Char)
  | 0, _, _, _ => none
  | fuel + 1, nesting, entries, s => do
    let s ← skipLines s.length s
    match s with
    | '}' :: rest => some (entries, rest)
    | s =>
      let (path, key, s) ← key? s
      let s ← skipLines s.length s
      match s with
      | '=' :: s =>
        let s ← skipLines s.length s
        let (v, s) ← value? fuel nesting s
        let entries ← addAt? path key v .inline entries
        let s ← skipLines s.length s
        match s with
        | ',' :: s => pairs? fuel nesting entries s
        | '}' :: s => some (entries, s)
        | _ => none
      | _ => none

end

/-- A document that is being read: the root and the path of the table that is open. -/
structure Draft where
  root : Entries
  current : List String

namespace Draft

def empty : Draft := ⟨[], []⟩

/-- Adds a value to the open table. -/
def add? (d : Draft) (path : List String) (key : String) (v : Toml) : Option Draft :=
  (descend? false (fun kind entries => addAt? path key v kind entries) d.current .header
    d.root).map fun root => { d with root }

def openTable? (d : Draft) (path : List String) (key : String) : Option Draft :=
  (Toml.openTable? path key d.root).map fun root => ⟨root, path ++ [key]⟩

def openElement? (d : Draft) (path : List String) (key : String) : Option Draft :=
  (Toml.openElement? path key d.root).map fun root => ⟨root, path ++ [key]⟩

end Draft

/-- One header or pair, up to the end of its line. -/
def expression? (d : Draft) (s : List Char) : Option (Draft × List Char) := do
  match s with
  | '[' :: '[' :: s =>
    let (path, key, s) ← key? s
    match s with
    | ']' :: ']' :: s =>
      let d ← d.openElement? path key
      let s ← lineEnd? s
      some (d, s)
    | _ => none
  | '[' :: s =>
    let (path, key, s) ← key? s
    match s with
    | ']' :: s =>
      let d ← d.openTable? path key
      let s ← lineEnd? s
      some (d, s)
    | _ => none
  | s =>
    let (path, key, s) ← key? s
    match s with
    | '=' :: s =>
      let (v, s) ← value? (s.length + 1) maxNesting (skipBlanks s)
      let d ← d.add? path key v
      let s ← lineEnd? s
      some (d, s)
    | _ => none

/-- The lines of a document, one after the other. -/
def lines? : Nat → Draft → List Char → Option Draft
  | 0, d, s => if s.isEmpty then some d else none
  | fuel + 1, d, s => do
    let s ← skipLines s.length s
    if s.isEmpty then some d
    else
      let (d, s) ← expression? d s
      lines? fuel d s

/-- The root table of a document. A byte order mark in front does not count. -/
def read? (s : String) : Option Entries :=
  let s := match s.toList with
    | c :: rest => if c.toNat = 0xFEFF then rest else c :: rest
    | [] => []
  (lines? (s.length + 1) .empty s).map (·.root)

end DocQuery.Toml
