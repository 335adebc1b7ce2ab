import DocQuery.Calendar.Instant
import DocQuery.Json.Sorted
import DocQuery.Text.Base64
import DocQuery.Value.Basic
/-!
# Values as JSON

Extended JSON: values that JSON lacks are objects with one or two names that start with `$`. Two
styles are in use. The relaxed one gives dates their text where it is usual and keeps doubles that
are no numbers apart; the stored one counts milliseconds, has `null` for such doubles and lists the
bytes of binary values that are of no special kind.
-/
namespace DocQuery

/-- What two ways of writing differ in. -/
structure JsonStyle where
  date : Int64 → Json
  double : Binary64 → Json
  binary : UInt8 → List UInt8 → Json

namespace JsonStyle

def dateNumber (ms : Int64) : Json :=
  .object [("$date", .object [("$numberLong", .string (Decimal.intText ms.toInt))])]

def binaryText (subtype : UInt8) (bytes : List UInt8) : Json :=
  .object [("$binary", .object
    [("base64", .string (String.ofList (Base64.encode bytes))),
      ("subType", .string (String.ofList (Hex.fixed 2 subtype.toNat)))])]

/-- The subtype of bytes that are of no special kind. -/
def genericSubtype : UInt8 := 0

/-- Dates from 1970 on have their text, earlier ones the count of milliseconds. -/
def relaxed : JsonStyle where
  date ms :=
    match Instant.briefText? ms.toInt with
    | some text => if ms.toInt < 0 then dateNumber ms else .object [("$date", .string text)]
    | none => dateNumber ms
  double x :=
    if x.isFinite then .double x
    else
      let sign := if x.isNegative then "-" else ""
      .object [("$numberDouble", .string (sign ++ if x.isNaN then "NaN" else "Infinity"))]
  binary := binaryText

def stored : JsonStyle where
  date := dateNumber
  double := .double
  binary subtype bytes :=
    if subtype = genericSubtype then .array (bytes.map fun b => .int (b.toNat : Int))
    else binaryText subtype bytes

end JsonStyle

namespace Value

def oidJson (id : ObjectId) : Json :=
  .object [("$oid", .string id.text)]

mutual

def toJson (style : JsonStyle) : Value → Json
  | .null => .null
  | .undefined => .object [("$undefined", .bool true)]
  | .minKey => .object [("$minKey", .int 1)]
  | .maxKey => .object [("$maxKey", .int 1)]
  | .bool b => .bool b
  | .int32 n => .int n.toInt
  | .int64 n => .int n.toInt
  | .double x => style.double x
  | .decimal d => .object [("$numberDecimal", .string d.text)]
  | .string s => .string s
  | .symbol s => .object [("$symbol", .string s)]
  | .code s => .object [("$code", .string s)]
  | .scopedCode s scope =>
    .object [("$code", .string s), ("$scope", .object (fieldsToJson style scope))]
  | .array items => .array (itemsToJson style items)
  | .document fields => .object (fieldsToJson style fields)
  | .date ms => style.date ms
  | .objectId id => oidJson id
  | .binary subtype bytes => style.binary subtype bytes
  | .regex pattern options =>
    .object [("$regularExpression", .object
      [("pattern", .string pattern), ("options", .string (orderedOptions options))])]
  | .timestamp time increment =>
    .object [("$timestamp", .object
      [("t", .int (time.toNat : Int)), ("i", .int (increment.toNat : Int))])]
  | .pointer collection id =>
    .object [("$dbPointer", .object [("$ref", .string collection), ("$id", oidJson id)])]

def itemsToJson (style : JsonStyle) : List Value → List Json
  | [] => []
  | v :: rest => toJson style v :: itemsToJson style rest

def fieldsToJson (style : JsonStyle) : List (String × Value) → List (String × Json)
  | [] => []
  | (name, v) :: rest => (name, toJson style v) :: fieldsToJson style rest

end

/-- Relaxed extended JSON, the members of every object in the order of their names. -/
def relaxedJson (v : Value) : Json :=
  (v.toJson .relaxed).sorted

/-- The form in which property bags hold values, fields in their own order. -/
def storedJson (v : Value) : Json :=
  v.toJson .stored

end Value
end DocQuery
