import DocQuery.Number.Binary64
import DocQuery.Number.Decimal128
import DocQuery.Text.Order
import DocQuery.Value.ObjectId
/-!
# Stored values and documents

The values that a document database stores. A document is a list of fields in the order of their
first insertion; inserting a name that is there already replaces its value and keeps its place.
-/
namespace DocQuery

inductive Value where
  | null
  | undefined
  | minKey
  | maxKey
  | bool (b : Bool)
  | int32 (n : Int32)
  | int64 (n : Int64)
  | double (x : Binary64)
  | decimal (d : Decimal128)
  | string (s : String)
  | symbol (s : String)
  | code (s : String)
  | scopedCode (s : String) (scope : List (String × Value))
  | array (items : List Value)
  | document (fields : List (String × Value))
  | date (millis : Int64)
  | objectId (id : ObjectId)
  | binary (subtype : UInt8) (bytes : List UInt8)
  | regex (pattern options : String)
  | timestamp (time increment : UInt32)
  | pointer (collection : String) (id : ObjectId)
  deriving Repr, Inhabited

namespace Value

/-- The options of a regular expression, which are a set, in the order of their letters. -/
def orderedOptions (options : String) : String :=
  String.ofList (sortBy (fun c d => c < d) options.toList)

end Value

abbrev Document := List (String × Value)

namespace Document

def empty : Document := []

def keys (d : Document) : List String :=
  d.map (·.1)

def contains (d : Document) (name : String) : Bool :=
  d.any (·.1 == name)

def get? (d : Document) (name : String) : Option Value :=
  (d.find? (·.1 == name)).map (·.2)

/-- Sets a field: in its place if it is there, at the end if not. -/
def insert : Document → String → Value → Document
  | [], name, v => [(name, v)]
  | (key, old) :: rest, name, v =>
    if key = name then (key, v) :: rest else (key, old) :: insert rest name v

/-- The document that inserting the pairs one after the other gives. -/
def ofPairs (pairs : List (String × Value)) : Document :=
  pairs.foldl (fun d (name, v) => d.insert name v) empty

theorem contains_eq_true_iff (d : Document) (name : String) :
    d.contains name = true ↔ name ∈ d.keys := by
  simp [contains, keys]

/-- Inserting adds a name at the end, or no name if it is there already. -/
theorem keys_insert (d : Document) (name : String) (v : Value) :
    (d.insert name v).keys = if name ∈ d.keys then d.keys else d.keys ++ [name] := by
  induction d with
  | nil => rfl
  | cons field rest ih =>
    obtain ⟨key, old⟩ := field
    by_cases h : key = name
    · simp [insert, keys, h]
    · have other : name ≠ key := fun e => h e.symm
      have step : keys (insert ((key, old) :: rest) name v) = key :: (insert rest name v).keys := by
        rw [insert, if_neg h]
        rfl
      have front : keys ((key, old) :: rest) = key :: keys rest := rfl
      rw [step, front, ih]
      by_cases member : name ∈ keys rest
      · rw [if_pos member, if_pos (List.mem_cons_of_mem key member)]
      · rw [if_neg member, if_neg (by simp [other, member])]
        rfl

theorem get?_insert_self (d : Document) (name : String) (v : Value) :
    (d.insert name v).get? name = some v := by
  induction d with
  | nil => simp [insert, get?]
  | cons field rest ih =>
    obtain ⟨key, old⟩ := field
    by_cases h : key = name
    · simp [insert, get?, h]
    · simpa [insert, get?, h] using ih

theorem get?_insert_of_ne (d : Document) {name other : String} (v : Value) (h : other ≠ name) :
    (d.insert name v).get? other = d.get? other := by
  induction d with
  | nil => simp [insert, get?, h.symm]
  | cons field rest ih =>
    obtain ⟨key, old⟩ := field
    by_cases same : key = name
    · simp [insert, get?, same, h.symm]
    · by_cases found : key = other
      · simp [insert, get?, found, h]
      · simpa [insert, get?, same, found] using ih

end Document
end DocQuery
