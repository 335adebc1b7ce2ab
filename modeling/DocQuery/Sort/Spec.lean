import DocQuery.Failure
import DocQuery.Sort.Field
import DocQuery.Text.Blank
/-!
# Sort fields as text

`field`, or `field:direction`, split at the last colon. Blanks around both do not count, nor does
the case of the direction.
-/
namespace DocQuery

/-- What stands before and after the last occurrence of `c`. -/
def splitLast? (c : Char) (s : List Char) : Option (List Char × List Char) :=
  match s.reverse.dropWhile (· != c) with
  | _ :: front => some (front.reverse, (s.reverse.takeWhile (· != c)).reverse)
  | [] => none

/-- The direction that a word in small letters names. -/
def Direction.ofWord? (word : String) : Option Direction :=
  if word = "asc" || word = "ascending" || word = "1" then some .ascending
  else if word = "desc" || word = "descending" || word = "-1" then some .descending
  else none

namespace SortField

def ofSpec (s : String) : Except Failure SortField :=
  let (field, direction) := match splitLast? ':' s.toList with
    | some (field, direction) =>
      (Text.trim (String.ofList field), Text.trim (String.ofList direction))
    | none => (Text.trim s, "asc")
  if field.isEmpty then .error (.structural (.sortFieldMissing s))
  else
    let word := Text.lower direction
    match Direction.ofWord? word with
    | some d => .ok ⟨field, d⟩
    | none => .error (.structural (.unknownDirection word))

/-- Reads all specs; the first bad one is reported. -/
def ofSpecs (specs : List String) : Except Failure (List SortField) :=
  specs.mapM ofSpec

end SortField
end DocQuery
