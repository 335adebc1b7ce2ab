import DocQuery.Json.Writer
import DocQuery.Value.ToJson
/-!
# Values as text

The text with which a value stands in a query. It always exists: what has no text of its own is
empty (null, undefined, dates before the year 0) or written as JSON.
-/
namespace DocQuery

namespace Value

def text : Value → String
  | .null => ""
  | .undefined => ""
  | .string s => s
  | .int32 n => Decimal.intText n.toInt
  | .int64 n => Decimal.intText n.toInt
  | .double x => x.plainText
  | .decimal d => d.text
  | .bool b => if b then "true" else "false"
  | .date ms => (Instant.briefText? ms.toInt).getD ""
  | .objectId id => id.text
  | v => v.relaxedJson.text

/-- The text of a value that may be absent, which is then empty. -/
def optionText (v : Option Value) : String :=
  (v.map text).getD ""

end Value

/-- The shell's literal for a date, with milliseconds where the year allows it. -/
def dateLiteral (ms : Int64) : String :=
  let text :=
    if Instant.hasMillisText ms.toInt then Instant.millisText ms.toInt
    else (Instant.briefText? ms.toInt).getD ""
  "ISODate(" ++ quoted text ++ ")"

end DocQuery
