import DocQuery.Filter.Check
import DocQuery.Journal.Record
import DocQuery.Value.Text
/-!
# The text of a filter

A filter is checked as a whole and then written from its root down. A leaf is
`{ "field" : { $op: literal } }`, a group `{ $op : [ a,b ] }`.
-/
namespace DocQuery

namespace Predicate

/-- The typed literal. Numbers, truth values and null stand bare under a number or a date, dates and
object identifiers as calls of the shell; all else is quoted, whatever the field type says. -/
def literal (p : Predicate) : String :=
  match p.fieldType, p.value with
  | _, .objectId id => "ObjectId(" ++ quoted id.text ++ ")"
  | .number, .date ms => dateLiteral ms
  | .dateTime, .date ms => dateLiteral ms
  | .dateTime, .string s => "ISODate(" ++ quoted s ++ ")"
  | .string, v => quoted v.text
  | _, .int32 n => (Value.int32 n).text
  | _, .int64 n => (Value.int64 n).text
  | _, .double x => (Value.double x).text
  | _, .decimal d => (Value.decimal d).text
  | _, .bool b => (Value.bool b).text
  | _, .null => Value.null.text
  | _, .undefined => Value.undefined.text
  | _, v => quoted v.text

/-- The operator with what it is applied to. -/
def body (p : Predicate) : String :=
  match p.comparison.token with
  | .scalar token => token ++ ": " ++ p.literal
  | .set token => token ++ ": " ++ p.value.text
  | .pattern shape =>
    "$regex: /" ++ shape.pattern p.value.text ++ "/, $options: '" ++ patternOptions ++ "'"

/-- The parameter is quoted, so no name can end the key early. -/
def render (p : Predicate) : String :=
  "\x7b " ++ quoted p.parameter ++ " : \x7b " ++ p.body ++ " \x7d \x7d"

end Predicate

def renderGroup (op : Connective) (children : String) : Except Failure String :=
  match op.token? with
  | some token => .ok ("\x7b " ++ token ++ " : [ " ++ children ++ " ] \x7d")
  | none => .error (.structural .noToken)

mutual

def Condition.render : Condition → Except Failure String
  | .leaf p => .ok p.render
  | .group op children => do
    let texts ← Condition.renderAll children
    renderGroup op (",".intercalate texts)

def Condition.renderAll : List Condition → Except Failure (List String)
  | [] => .ok []
  | c :: rest => do
    let text ← Condition.render c
    let texts ← Condition.renderAll rest
    .ok (text :: texts)

end

namespace Filter

def render : Filter → Except Failure String
  | .single c => c.render
  | .group op conditions => do
    let texts ← Condition.renderAll conditions
    renderGroup op (",".intercalate texts)

/-- The text of a filter whose shape is right. -/
def compile (f : Filter) : Except Failure String := do
  f.check
  f.render

def compileTarget : String := "docfilter::query::compile"

/-- The line of the trace for a text of so many bytes. -/
def traceLine (length : Nat) : String :=
  (Json.object [("op", .string "compile_filter"), ("length", .int length)]).text

theorem traceLine_eq (n : Nat) : traceLine n =
    "\x7b\"op\":\"compile_filter\",\"length\":" ++ Decimal.natText n ++ "\x7d" := by
  have front : "\x7b" ++ quoted "op" ++ ":" ++ quoted "compile_filter" ++ "," ++ quoted "length" ++
      ":" = "\x7b\"op\":\"compile_filter\",\"length\":" := by decide
  rw [traceLine, Json.text_counted, front]

/-- Compiling tells the text to the log and its length in bytes to the trace; a filter that fails
tells nothing. -/
def compileLogged (f : Filter) : Logged (Except Failure String) :=
  match f.compile with
  | .ok text =>
    ⟨.ok text, [⟨.debug, compileTarget, "compiled filter: " ++ text⟩,
      .trace (traceLine text.utf8ByteSize)]⟩
  | .error e => ⟨.error e, []⟩

end Filter
end DocQuery
