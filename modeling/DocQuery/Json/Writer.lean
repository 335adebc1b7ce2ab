import DocQuery.Json.Basic
import DocQuery.Number.Shortest
import DocQuery.Text.Quoted
/-!
# Writing JSON

The compact text: no blanks, members in the order in which they stand.
-/
namespace DocQuery.Json

mutual

def text : Json → String
  | .null => "null"
  | .bool b => if b then "true" else "false"
  | .int i => Decimal.intText i
  | .double x => x.jsonText
  | .string s => quoted s
  | .array items => "[" ++ ",".intercalate (itemTexts items) ++ "]"
  | .object members => "\x7b" ++ ",".intercalate (memberTexts members) ++ "\x7d"
  | .rough _ => "null"
  | .unusable => "null"

def itemTexts : List Json → List String
  | [] => []
  | j :: rest => text j :: itemTexts rest

def memberTexts : List (String × Json) → List String
  | [] => []
  | (name, j) :: rest => (quoted name ++ ":" ++ text j) :: memberTexts rest

end

theorem text_object_single (name : String) (j : Json) :
    text (.object [(name, j)]) = "\x7b" ++ quoted name ++ ":" ++ text j ++ "\x7d" := by
  simp [text, memberTexts, String.append_assoc]

theorem text_object_pair (name other : String) (j k : Json) :
    text (.object [(name, j), (other, k)]) =
      "\x7b" ++ quoted name ++ ":" ++ text j ++ "," ++ quoted other ++ ":" ++ text k ++ "\x7d" := by
  simp [text, memberTexts, String.append_assoc]

/-- The text of an object that tells the kind of some work and a number. -/
theorem text_counted (op key : String) (n : Nat) :
    text (.object [("op", .string op), (key, .int n)]) =
      "\x7b" ++ quoted "op" ++ ":" ++ quoted op ++ "," ++ quoted key ++ ":" ++ Decimal.natText n ++
        "\x7d" := by
  have numeral : Decimal.intText (n : Int) = Decimal.natText n := by
    have whole : ¬ (n : Int) < 0 := by omega
    rw [Decimal.intText, Decimal.signed, if_neg whole]
    rfl
  rw [text_object_pair, text, text, numeral]

end DocQuery.Json
