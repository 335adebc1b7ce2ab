import DocQuery.Json.Sorted
import DocQuery.Value.ToJson
/-!
# Members in the order of their names

Sorting loses no member, and where no name is repeated the names come out strictly increasing. This
is how the fields of a document stand in its relaxed JSON.
-/
namespace DocQuery

section

variable {α : Type} {before : α → α → Bool}

/-- An element goes to its place among elements in order, if it has one. -/
theorem pairwise_insertBy (trans : ∀ a b c, before a b → before b c → before a c) {a : α}
    {as : List α} (apart : ∀ b ∈ as, before a b ∨ before b a)
    (ordered : as.Pairwise fun a b => before a b) :
    (insertBy before a as).Pairwise fun a b => before a b := by
  induction as with
  | nil => exact List.pairwise_singleton _ a
  | cons b rest ih =>
    obtain ⟨first, behind⟩ := List.pairwise_cons.mp ordered
    rw [insertBy]
    split
    next later =>
      refine List.pairwise_cons.mpr ⟨fun c member => ?_, ih (fun c member => ?_) behind⟩
      · rcases List.mem_cons.mp ((perm_insertBy before a rest).mem_iff.mp member) with rfl | old
        · exact later
        · exact first c old
      · exact apart c (List.mem_cons_of_mem b member)
    next notLater =>
      have earlier : before a b := (apart b List.mem_cons_self).resolve_right notLater
      refine List.pairwise_cons.mpr ⟨fun c member => ?_, ordered⟩
      rcases List.mem_cons.mp member with rfl | later
      · exact earlier
      · exact trans a b c earlier (first c later)

theorem pairwise_sortBy (trans : ∀ a b c, before a b → before b c → before a c) {as : List α}
    (apart : as.Pairwise fun a b => before a b ∨ before b a) :
    (sortBy before as).Pairwise fun a b => before a b := by
  induction as with
  | nil => exact List.Pairwise.nil
  | cons a rest ih =>
    obtain ⟨first, behind⟩ := List.pairwise_cons.mp apart
    have others : ∀ b ∈ sortBy before rest, before a b ∨ before b a := fun b member =>
      first b ((perm_sortBy before rest).mem_iff.mp member)
    exact pairwise_insertBy trans others (ih behind)

end

theorem lt_or_lt_of_ne {s t : String} (h : s ≠ t) : s < t ∨ t < s := by
  by_cases below : s < t
  · exact Or.inl below
  · by_cases above : t < s
    · exact Or.inr above
    · exact absurd (String.le_antisymm (String.not_lt.mp above) (String.not_lt.mp below)) h

namespace Json

theorem perm_sortMembers (members : List (String × Json)) : (sortMembers members).Perm members :=
  perm_sortBy _ members

theorem pairwise_sortMembers {members : List (String × Json)}
    (distinct : (members.map (·.1)).Nodup) :
    (sortMembers members).Pairwise fun m n => m.1 < n.1 := by
  have apart : members.Pairwise fun m n => decide (m.1 < n.1) ∨ decide (n.1 < m.1) := by
    refine (List.pairwise_map.mp distinct).imp fun {m n} different => ?_
    simpa using lt_or_lt_of_ne different
  have trans : ∀ m n p : String × Json, decide (m.1 < n.1) → decide (n.1 < p.1) →
      decide (m.1 < p.1) := by
    intro m n p first second
    simp only [decide_eq_true_eq] at first second ⊢
    exact String.lt_trans first second
  have ordered := pairwise_sortBy trans apart
  simpa only [decide_eq_true_eq, sortMembers] using ordered

theorem sortedMembers_eq_map (members : List (String × Json)) :
    sortedMembers members = members.map fun m => (m.1, m.2.sorted) := by
  induction members with
  | nil => rfl
  | cons m rest ih => rw [sortedMembers, ih, List.map_cons]

end Json

namespace Value

theorem fieldsToJson_eq_map (style : JsonStyle) (fields : List (String × Value)) :
    fieldsToJson style fields = fields.map fun f => (f.1, f.2.toJson style) := by
  induction fields with
  | nil => rfl
  | cons f rest ih => rw [fieldsToJson, ih, List.map_cons]

/-- The fields of a document, each as JSON, in the order of their names. -/
theorem relaxedJson_document (d : Document) :
    (Value.document d).relaxedJson =
      .object (Json.sortMembers (d.map fun f => (f.1, f.2.relaxedJson))) := by
  rw [relaxedJson, toJson, Json.sorted, Json.sortedMembers_eq_map, fieldsToJson_eq_map,
    List.map_map]
  rfl

end Value
end DocQuery
