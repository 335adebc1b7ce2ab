import DocQuery.Proofs.Json.Sorted
import DocQuery.Sort.Clause
/-!
# Sort clauses in output

A clause names each field once and holds nothing but directions. As JSON it has the same fields, but
not in the order in which they decide: its members stand in the order of their names.
-/
namespace DocQuery

/-- A name that is new goes to the end. -/
theorem Document.insert_of_not_mem {d : Document} {name : String} (new : name ∉ d.keys)
    (v : Value) : d.insert name v = d ++ [(name, v)] := by
  induction d with
  | nil => rfl
  | cons field rest ih =>
    obtain ⟨key, old⟩ := field
    have other : key ≠ name := fun same => new (by simp [keys, same])
    have behind : name ∉ keys rest := fun member => new (List.mem_cons_of_mem key member)
    rw [insert, if_neg other, ih behind]
    rfl

namespace SortField

/-- Each field once, with a direction. -/
structure Clausal (d : Document) : Prop where
  distinct : d.keys.Nodup
  directed : ∀ f ∈ d, ∃ direction : Direction, f.2 = direction.value

theorem clausal_empty : Clausal Document.empty :=
  ⟨List.nodup_nil, List.forall_mem_nil _⟩

theorem Clausal.insert {d : Document} (h : Clausal d) {name : String} (new : name ∉ d.keys)
    (direction : Direction) : Clausal (d.insert name direction.value) := by
  have apart : ∀ key ∈ d.keys, ∀ last ∈ [name], key ≠ last := by
    rintro key member last single rfl
    exact new (List.mem_singleton.mp single ▸ member)
  refine ⟨?_, fun f member => ?_⟩
  · rw [Document.keys_insert, if_neg new]
    exact List.nodup_append.mpr ⟨h.distinct, by simp, apart⟩
  · rw [Document.insert_of_not_mem new] at member
    rcases List.mem_append.mp member with old | added
    · exact h.directed f old
    · exact ⟨direction, by rw [List.mem_singleton.mp added]⟩

/-- One field after the other keeps the document a clause. -/
theorem clausal_gather {d : Document} (h : Clausal d) (fields : List SortField) :
    Clausal (gather d fields).1 := by
  induction fields generalizing d with
  | nil => exact h
  | cons f rest ih =>
    rw [gather]
    split
    · exact ih h
    split
    · exact ih h
    next notThere =>
      have new : f.field ∉ d.keys := fun member =>
        notThere ((d.contains_eq_true_iff f.field).mpr member)
      exact ih (h.insert new f.direction)

theorem clausal_of_clause {fields : List SortField} {d : Document}
    (h : clause fields = some d) : Clausal d := by
  have gathered := clausal_gather clausal_empty fields
  unfold clause clauseLogged at h
  simp only at h
  split at h
  · cases h
  · cases h
    exact gathered

end SortField

theorem Direction.relaxedJson_value (direction : Direction) :
    direction.value.relaxedJson = .int 1 ∨ direction.value.relaxedJson = .int (-1) := by
  cases direction with
  | ascending => exact Or.inl rfl
  | descending => exact Or.inr rfl

end DocQuery
