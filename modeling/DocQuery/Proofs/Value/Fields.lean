import DocQuery.Value.Basic
import Mathlib.Data.List.Induction
/-!
# Fields in the order of their first insertion

A document that is made by inserting pairs one after the other names each field once. A field keeps
the place of its first pair and the value of its last one. Lists of pairs are taken apart at the
end, where the last insertion stands.
-/
namespace DocQuery

theorem eraseDups_concat (names : List String) (name : String) :
    (names ++ [name]).eraseDups =
      if name ∈ names then names.eraseDups else names.eraseDups ++ [name] := by
  rw [List.eraseDups_append]
  by_cases known : name ∈ names
  · simp [List.removeAll, known]
  · simp [List.removeAll, known, List.eraseDups_cons]

theorem eraseDups_eq_nil_iff (names : List String) : names.eraseDups = [] ↔ names = [] := by
  cases names with
  | nil => simp
  | cons name rest => simp [List.eraseDups_cons]

namespace Document

theorem contains_eq_false_iff (d : Document) (name : String) :
    d.contains name = false ↔ name ∉ d.keys := by
  rw [← Bool.not_eq_true, contains_eq_true_iff]

theorem keys_eq_nil_iff (d : Document) : d.keys = [] ↔ d = [] :=
  List.map_eq_nil_iff

theorem get?_insert (d : Document) (name other : String) (v : Value) :
    (d.insert name v).get? other = if name = other then some v else d.get? other := by
  by_cases same : name = other
  · rw [if_pos same, ← same, get?_insert_self]
  · rw [if_neg same, get?_insert_of_ne d v (Ne.symm same)]

theorem ofPairs_concat (pairs : List (String × Value)) (pair : String × Value) :
    ofPairs (pairs ++ [pair]) = (ofPairs pairs).insert pair.1 pair.2 := by
  rw [ofPairs, List.foldl_append]
  rfl

/-- The names stand in the order in which they come first. -/
theorem keys_ofPairs (pairs : List (String × Value)) :
    (ofPairs pairs).keys = (pairs.map (·.1)).eraseDups := by
  induction pairs using List.reverseRecOn with
  | nil => rfl
  | append_singleton pairs pair ih =>
    rw [ofPairs_concat, keys_insert, ih, List.map_append, List.map_singleton, eraseDups_concat]
    simp only [List.mem_eraseDups]

/-- Each field has the value of the last pair that names it. -/
theorem get?_ofPairs (pairs : List (String × Value)) (name : String) :
    (ofPairs pairs).get? name = (pairs.reverse.find? (·.1 == name)).map (·.2) := by
  induction pairs using List.reverseRecOn with
  | nil => rfl
  | append_singleton pairs pair ih =>
    rw [ofPairs_concat, get?_insert, ih, List.reverse_append, List.reverse_singleton,
      List.singleton_append, List.find?_cons]
    by_cases same : pair.1 = name
    · simp [same]
    · have other : (pair.1 == name) = false := by simp [same]
      rw [if_neg same, other]

end Document
end DocQuery
