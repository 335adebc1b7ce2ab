import DocQuery.Calendar.Instant
import DocQuery.Json.Basic
import DocQuery.Number.Numeral
import DocQuery.Text.Base64
import DocQuery.Value.Basic
/-!
# Values from JSON

Reading extended JSON. The members of an object are taken in turn; the first one with a marking
name, such as `$oid`, decides what the object is, and the members before it do not count. Each
level of arrays and objects takes one from a budget, and a value that goes deeper is refused.
-/
namespace DocQuery

/-- The names that mark an object as something else than a document. -/
inductive Marker where
  | oid
  | symbol
  | numberInt
  | numberLong
  | numberDouble
  | numberDecimal
  | numberDecimalBytes
  | binary
  | uuid
  | code
  | scope
  | timestamp
  | regularExpression
  | dbPointer
  | date
  | minKey
  | maxKey
  | undefined
  deriving DecidableEq, Repr

namespace Marker

def ofName? : String → Option Marker
  | "$oid" => some .oid
  | "$symbol" => some .symbol
  | "$numberInt" => some .numberInt
  | "$numberLong" => some .numberLong
  | "$numberDouble" => some .numberDouble
  | "$numberDecimal" => some .numberDecimal
  | "$numberDecimalBytes" => some .numberDecimalBytes
  | "$binary" => some .binary
  | "$uuid" => some .uuid
  | "$code" => some .code
  | "$scope" => some .scope
  | "$timestamp" => some .timestamp
  | "$regularExpression" => some .regularExpression
  | "$dbPointer" => some .dbPointer
  | "$date" => some .date
  | "$minKey" => some .minKey
  | "$maxKey" => some .maxKey
  | "$undefined" => some .undefined
  | _ => none

end Marker

namespace Json

def string? : Json → Option String
  | .string s => some s
  | _ => none

def int? : Json → Option Int
  | .int i => some i
  | _ => none

/-- An integer from `low` to `high`. -/
def intIn? (low high : Int) (j : Json) : Option Int := do
  let i ← j.int?
  if low ≤ i && i ≤ high then some i else none

def memberNamed? (name : String) (members : List (String × Json)) : Option Json :=
  (members.find? (·.1 == name)).map (·.2)

/-- The parts of an object that has exactly the given names, or of a list of as many items. -/
def parts? (names : List String) : Json → Option (List Json)
  | .array items => if items.length = names.length then some items else none
  | .object members =>
    if members.length = names.length then names.mapM fun name => memberNamed? name members
    else none
  | _ => none

end Json

def int32Range : Int × Int := (-2147483648, 2147483647)

def int64Range : Int × Int := (-9223372036854775808, 9223372036854775807)

def inRange (range : Int × Int) (i : Int) : Bool :=
  range.1 ≤ i && i ≤ range.2

namespace Value

/-- An integer as it stands in JSON: the narrowest width from zero on, sixty-four bits below. -/
def ofInt? (i : Int) : Option Value :=
  if 0 ≤ i && i ≤ int32Range.2 then some (.int32 (Int32.ofInt i))
  else if inRange int64Range i then some (.int64 (Int64.ofInt i))
  else none

/-- An integer within the range from the numeral that tells it. -/
def numeral? (range : Int × Int) (j : Json) : Option Int := do
  let s ← j.string?
  let i ← Decimal.int? s.toList
  if inRange range i then some i else none

def oid? (j : Json) : Option ObjectId := do
  let s ← j.string?
  ObjectId.ofText? s

def double? (j : Json) : Option Binary64 := do
  let s ← j.string?
  Binary64.ofText? s

def decimal? (j : Json) : Option Decimal128 := do
  let s ← j.string?
  Decimal128.ofText? s

/-- The bytes of what is quoted, or the numbers of a list. -/
def bytes? : Json → Option (List UInt8)
  | .string s => some s.toUTF8.data.toList
  | .rough pieces => some (Quoted.bytes pieces)
  | .array items => items.mapM fun j => (j.intIn? 0 255).map fun i => UInt8.ofNat i.toNat
  | _ => none

/-- The subtype has exactly two hexadecimal digits. -/
def binary? (j : Json) : Option Value := do
  match ← j.parts? ["base64", "subType"] with
  | [base64, subtype] =>
    let text ← base64.string?
    let bytes ← Base64.decode? text.toList
    let digits ← subtype.string?
    if digits.toList.length ≠ 2 then none
    let n ← Hex.read? digits.toList
    some (.binary (UInt8.ofNat n) bytes)
  | _ => none

/-- Removes the hyphens of the grouping 8-4-4-4-12. -/
def ungrouped? (s : List Char) : Option (List Char) :=
  let hyphens := [8, 13, 18, 23]
  if s.length = 36 && hyphens.all fun i => s[i]? = some '-' then
    some (s.take 8 ++ (s.drop 9).take 4 ++ (s.drop 14).take 4 ++ (s.drop 19).take 4 ++ s.drop 24)
  else none

/-- The digits of a universally unique identifier: bare, grouped, in braces or as a name, the first
words of which may be in letters of any case. -/
def uuidDigits? (s : List Char) : Option (List Char) :=
  if s.length = 32 then some s
  else if s.length = 38 then
    if s.head? = some '{' && s.getLast? = some '}' then ungrouped? ((s.drop 1).take 36) else none
  else if s.length = 45 then
    if (s.take 9).map Char.toLower = "urn:uuid:".toList then ungrouped? (s.drop 9) else none
  else ungrouped? s

def uuid? (j : Json) : Option Value := do
  let s ← j.string?
  let digits ← uuidDigits? s.toList
  let bytes ← Hex.bytes? digits
  some (.binary 4 bytes)

def timestamp? (j : Json) : Option Value := do
  match ← j.parts? ["t", "i"] with
  | [time, increment] =>
    let t ← time.intIn? 0 4294967295
    let i ← increment.intIn? 0 4294967295
    some (.timestamp (UInt32.ofNat t.toNat) (UInt32.ofNat i.toNat))
  | _ => none

/-- Neither the pattern nor the options may hold the character zero. -/
def regex? (j : Json) : Option Value := do
  match ← j.parts? ["pattern", "options"] with
  | [pattern, options] =>
    let p ← pattern.string?
    let o ← options.string?
    if p.toList.any (·.toNat = 0) || o.toList.any (·.toNat = 0) then none
    some (.regex p (orderedOptions o))
  | _ => none

def pointer? (j : Json) : Option Value := do
  match ← j.parts? ["$ref", "$id"] with
  | [ref, id] =>
    let collection ← ref.string?
    match ← id.parts? ["$oid"] with
    | [hex] => (oid? hex).map (.pointer collection)
    | _ => none
  | _ => none

/-- A text of RFC 3339, a count of milliseconds, or such a count as a numeral. -/
def date? (j : Json) : Option Value := do
  let ms ← match j with
    | .string s => Instant.read? s.toList
    | .int i => some i
    | j =>
      match ← j.parts? ["$numberLong"] with
      | [n] => numeral? int64Range n
      | _ => none
  if inRange int64Range ms then some (.date (Int64.ofInt ms)) else none

/-- The value of a marker with its payload; code and its scope are read elsewhere. -/
def marked? (m : Marker) (j : Json) : Option Value :=
  match m with
  | .oid => (oid? j).map .objectId
  | .symbol => j.string?.map .symbol
  | .numberInt => (numeral? int32Range j).map fun i => .int32 (Int32.ofInt i)
  | .numberLong => (numeral? int64Range j).map fun i => .int64 (Int64.ofInt i)
  | .numberDouble => (double? j).map .double
  | .numberDecimal => (decimal? j).map .decimal
  | .numberDecimalBytes => do
    let bytes ← bytes? j
    (Decimal128.ofBytes? bytes).map .decimal
  | .binary => binary? j
  | .uuid => uuid? j
  | .timestamp => timestamp? j
  | .regularExpression => regex? j
  | .dbPointer => pointer? j
  | .date => date? j
  | .minKey => (j.intIn? 1 1).map fun _ => .minKey
  | .maxKey => (j.intIn? 1 1).map fun _ => .maxKey
  | .undefined => match j with
    | .bool true => some .undefined
    | _ => none
  | .code => none
  | .scope => none

/-- Code, alone or with its scope behind or before it. The scope has to be a document. -/
def code? (read : Json → Option Value) : List (String × Json) → Option Value
  | [("$code", j)] => j.string?.map .code
  | [("$code", j), ("$scope", .object scope)] => do
    let s ← j.string?
    match ← read (.object scope) with
    | .document fields => some (.scopedCode s fields)
    | _ => none
  | [("$scope", .object scope), ("$code", j)] => do
    let s ← j.string?
    match ← read (.object scope) with
    | .document fields => some (.scopedCode s fields)
    | _ => none
  | _ => none

/-- The value that the members of an object denote, after the fields of `d`. Nothing may follow a
marker, and its payload may have `budget` levels. -/
def ofMembers? (budget : Nat) (read : Json → Option Value) (d : Document) :
    List (String × Json) → Option Value
  | [] => some (.document d)
  | (name, j) :: rest =>
    match Marker.ofName? name with
    | none => do
      let v ← read j
      ofMembers? budget read (d.insert name v) rest
    | some .code => code? read ((name, j) :: rest)
    | some .scope => code? read ((name, j) :: rest)
    | some m => if rest.isEmpty && j.depth ≤ budget then marked? m j else none

/-- Reads a value that has at most `budget` levels. -/
def ofJson? : Nat → Json → Option Value
  | _, .null => some .null
  | _, .bool b => some (.bool b)
  | _, .int i => ofInt? i
  | _, .double x => some (.double x)
  | _, .string s => some (.string s)
  | budget + 1, .array items => (items.mapM (ofJson? budget)).map .array
  | budget + 1, .object members => ofMembers? budget (ofJson? budget) Document.empty members
  | 0, .array _ => none
  | 0, .object _ => none
  | _, .rough _ => none
  | _, .unusable => none

end Value
end DocQuery
