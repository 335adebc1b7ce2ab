import DocQuery.Proofs.Bag.Acceptance
import DocQuery.Proofs.Update.Reading
import DocQuery.Proofs.Value.Fields
/-!
# What a history of building steps makes

A builder remembers of its history the last key, the last filter and all assignments in their order
(`UpdateBuilder.run_eq`). So the update that is built does not depend on how steps of different
kinds are interleaved, and reading an update from JSON builds what any history with the content of
the text does. Only a filter that is not well made is refused before, whether a key comes before it
or not.
-/
namespace DocQuery

namespace UpdateBuilder

/-- The key that a step gives. -/
def Step.key? : Step → Option String
  | .id key => some key
  | .filter _ => none
  | .set _ _ => none
  | .setAll _ => none

/-- The filter that a step gives. -/
def Step.filter? : Step → Option Filter
  | .id _ => none
  | .filter f => some f
  | .set _ _ => none
  | .setAll _ => none

/-- The assignments that a step adds. -/
def Step.assigns : Step → List Assignment
  | .id _ => []
  | .filter _ => []
  | .set field value => [⟨field, value⟩]
  | .setAll assignments => assignments

/-- What a history is aimed at: the last key, without one the last filter, without both all. -/
def lastTarget (steps : List Step) : Target :=
  match (steps.filterMap Step.key?).getLast?, (steps.filterMap Step.filter?).getLast? with
  | some key, _ => .id key
  | none, some f => .filter f
  | none, none => .all

theorem run_concat (steps : List Step) (s : Step) : run (steps ++ [s]) = (run steps).step s := by
  rw [run, List.foldl_append]
  rfl

/-- The last one of each kind counts, and assignments add up. -/
theorem run_eq (steps : List Step) :
    run steps =
      ⟨(steps.filterMap Step.key?).getLast?, (steps.filterMap Step.filter?).getLast?,
        steps.flatMap Step.assigns⟩ := by
  induction steps using List.reverseRecOn with
  | nil => rfl
  | append_singleton steps s ih =>
    rw [run_concat, ih]
    cases s with
    | id key => simp [step, id, Step.key?, Step.filter?, Step.assigns]
    | filter f => simp [step, filter, Step.key?, Step.filter?, Step.assigns]
    | set field value => simp [step, set, Step.key?, Step.filter?, Step.assigns]
    | setAll assignments => simp [step, setAll, Step.key?, Step.filter?, Step.assigns]

theorem build_eq_error_iff (b : UpdateBuilder) (e : Failure) :
    b.build = .error e ↔ b.assignments = [] ∧ e = .emptyUpdate := by
  unfold build
  split
  next none =>
    constructor
    · intro failed
      exact ⟨none, (Except.error.inj failed).symm⟩
    · rintro ⟨_, rfl⟩
      rfl
  next some =>
    constructor
    · intro failed
      cases failed
    · rintro ⟨none, _⟩
      exact absurd none some

/-- With an assignment a history becomes an update that keeps all it tells. -/
theorem build_run {steps : List Step} (some : steps.flatMap Step.assigns ≠ []) :
    ∃ u, (run steps).build = .ok u ∧ u.assignments = steps.flatMap Step.assigns ∧
      u.target = lastTarget steps := by
  have built : (run steps).build =
      .ok ⟨(steps.filterMap Step.key?).getLast?, (steps.filterMap Step.filter?).getLast?,
        steps.flatMap Step.assigns, some⟩ := by
    rw [run_eq, build, dif_neg some]
  exact ⟨_, built, rfl, rfl⟩

end UpdateBuilder

namespace Update

theorem keys_assigned (u : Update) :
    u.assigned.keys = (u.assignments.map (·.field)).eraseDups := by
  rw [assigned, Document.keys_ofPairs, List.map_map]
  rfl

theorem get?_assigned (u : Update) (name : String) :
    u.assigned.get? name = (u.assignments.reverse.find? (·.field == name)).map (·.value) := by
  rw [assigned, Document.get?_ofPairs, ← List.map_reverse, List.find?_map, Option.map_map]
  rfl

theorem assigned_ne_nil (u : Update) : u.assigned ≠ [] := by
  intro none
  have names : (u.assignments.map (·.field)).eraseDups = [] := by
    rw [← keys_assigned, none]
    rfl
  exact u.nonempty (List.map_eq_nil_iff.mp ((eraseDups_eq_nil_iff _).mp names))

end Update

namespace UpdateBag

open UpdateBuilder (Step run)

/-- An update is read as what its text tells. -/
theorem ofText_of_toldBy {text : String} {j : Json} {b : UpdateBag}
    (parsed : Json.read? text = some j) (told : b.ToldBy 124 j) :
    Update.ofText text = b.update := by
  have read := readText?_eq_ok_iff.mpr ⟨j, parsed, ofJson?_eq_some_iff.mpr told⟩
  rw [Update.ofText, read]
  rfl

theorem ofText_of_untold {text : String}
    (untold : ∀ (j : Json) (b : UpdateBag), Json.read? text = some j → ¬ b.ToldBy 124 j) :
    Update.ofText text = .error .json := by
  cases read : readText? ofJson? text with
  | ok b =>
    obtain ⟨j, parsed, shaped⟩ := readText?_eq_ok_iff.mp read
    exact absurd (ofJson?_eq_some_iff.mp shaped) (untold j b parsed)
  | error e =>
    rw [Update.ofText, read, readText?_error read]
    rfl

/-- The steps have the content of the bag: its key, its filter and its assignments. -/
structure Describes (b : UpdateBag) (steps : List Step) : Prop where
  keys : steps.filterMap Step.key? = b.filterId.toList
  filters : (steps.filterMap Step.filter?).map .ok = b.filter.toList.map FilterBag.filter
  assigns : steps.flatMap Step.assigns = b.fieldValues

/-- Any history with the content of the bag builds the update of the bag. -/
theorem update_of_describes {b : UpdateBag} {steps : List Step} (h : b.Describes steps) :
    b.update = (run steps).build := by
  have key : (steps.filterMap Step.key?).getLast? = b.filterId := by
    rw [h.keys]
    cases b.filterId <;> rfl
  rw [UpdateBuilder.run_eq, key, h.assigns]
  cases own : b.filter with
  | none =>
    have noFilter : steps.filterMap Step.filter? = [] := by simpa [own] using h.filters
    rw [update_eq_of_none own, noFilter]
    rfl
  | some d =>
    have filters := h.filters
    rw [own, Option.toList_some, List.map_singleton, List.map_eq_singleton_iff] at filters
    obtain ⟨f, only, converted⟩ := filters
    rw [update_eq_of_some own, ← converted, only]
    rfl

/-- A bag has a filter that is not well made, and is refused, or there are histories with its
content. -/
theorem refused_or_described (b : UpdateBag) :
    (∃ d e, b.filter = some d ∧ d.filter = .error e ∧ b.update = .error e) ∨
      ∃ steps, b.Describes steps := by
  have keys : (b.filterId.map Step.id).toList.filterMap Step.key? = b.filterId.toList := by
    cases b.filterId <;> rfl
  have noFilters : (b.filterId.map Step.id).toList.filterMap Step.filter? = [] := by
    cases b.filterId <;> rfl
  have noValues : (b.filterId.map Step.id).toList.flatMap Step.assigns = [] := by
    cases b.filterId <;> rfl
  cases own : b.filter with
  | none =>
    refine Or.inr ⟨.setAll b.fieldValues :: (b.filterId.map Step.id).toList, ?_, ?_, ?_⟩
    · rw [List.filterMap_cons_none rfl, keys]
    · rw [List.filterMap_cons_none rfl, noFilters, own]
      rfl
    · rw [List.flatMap_cons, noValues, List.append_nil]
      rfl
  | some d =>
    cases converted : d.filter with
    | error e =>
      refine Or.inl ⟨d, e, rfl, converted, ?_⟩
      rw [update_eq_of_some own, converted]
      rfl
    | ok f =>
      refine Or.inr ⟨.setAll b.fieldValues :: .filter f :: (b.filterId.map Step.id).toList,
        ?_, ?_, ?_⟩
      · rw [List.filterMap_cons_none rfl, List.filterMap_cons_none rfl, keys]
      · have itself : Step.filter? (.filter f) = some f := rfl
        rw [List.filterMap_cons_none rfl, List.filterMap_cons_some itself, noFilters, own,
          Option.toList_some, List.map_singleton, List.map_singleton, converted]
      · rw [List.flatMap_cons, List.flatMap_cons, noValues, List.append_nil]
        exact List.append_nil _

end UpdateBag

namespace UpdateBuilder

/-- A history builds an update exactly if it assigns something, and the update tells what the
history told: all assignments in their order, the last key, else the last filter, else all
documents. Its document sets each field once, in the order of the first assignments, to the value of
the last one. The short forms are histories. A text that tells no update is refused. What is read of
one that does is built as by any history with the same content; only a filter that is not well made
is refused first, whether or not there is a key. What is written of an update is a text that tells
it. -/
theorem build_tells_history :
    (∀ steps : List Step,
      ((run steps).build = .error .emptyUpdate ↔ ∀ s ∈ steps, s.assigns = []) ∧
      ((∃ s ∈ steps, s.assigns ≠ []) → ∃ (u : Update) (d : Document), (run steps).build = .ok u ∧
        u.assignments = steps.flatMap Step.assigns ∧ u.target = lastTarget steps ∧
        u.definition = [("$set", .document d)] ∧ d ≠ [] ∧
        d.map (·.1) = ((steps.flatMap Step.assigns).map (·.field)).eraseDups ∧
        ∀ name, (d.find? (·.1 == name)).map (·.2) =
          ((steps.flatMap Step.assigns).reverse.find? (·.field == name)).map (·.value))) ∧
    (∀ key assignments,
      Update.byId key assignments = (run [.id key, .setAll assignments]).build) ∧
    (∀ f assignments,
      Update.byFilter f assignments = (run [.filter f, .setAll assignments]).build) ∧
    (∀ assignments, Update.all assignments = (run [.setAll assignments]).build) ∧
    (∀ text, (∀ (j : Json) (b : UpdateBag), Json.read? text = some j → ¬ b.ToldBy 124 j) →
      Update.ofText text = .error .json) ∧
    (∀ text (j : Json) (b : UpdateBag), Json.read? text = some j → b.ToldBy 124 j →
      (∃ d e, b.filter = some d ∧ d.filter = .error e ∧ Update.ofText text = .error e) ∨
      (∃ steps, b.Describes steps) ∧
        ∀ steps, b.Describes steps → Update.ofText text = (run steps).build) ∧
    ∀ b : UpdateBag, b.isPlain = true → b.toJson.depth ≤ 127 →
      Json.read? b.toJson.text = some b.toJson ∧ b.resized.ToldBy 124 b.toJson := by
  refine ⟨fun steps => ⟨?_, ?_⟩, fun _ _ => rfl, fun _ _ => rfl, fun _ => rfl, ?_, ?_, ?_⟩
  · rw [run_eq, build_eq_error_iff, List.flatMap_eq_nil_iff]
    exact and_iff_left rfl
  · rintro ⟨s, member, some⟩
    have assigned : steps.flatMap Step.assigns ≠ [] := fun none =>
      some (List.flatMap_eq_nil_iff.mp none s member)
    obtain ⟨u, built, values, target⟩ := build_run assigned
    refine ⟨u, u.assigned, built, values, target, rfl, u.assigned_ne_nil, ?_, ?_⟩
    · rw [← values]
      exact u.keys_assigned
    · intro name
      rw [← values]
      exact u.get?_assigned name
  · intro text untold
    apply UpdateBag.ofText_of_untold
    exact untold
  · intro text j b parsed told
    have converted := UpdateBag.ofText_of_toldBy parsed told
    rcases b.refused_or_described with ⟨d, e, own, bad, refused⟩ | described
    · exact Or.inl ⟨d, e, own, bad, converted.trans refused⟩
    · exact Or.inr ⟨described, fun steps h => converted.trans (UpdateBag.update_of_describes h)⟩
  · intro b plain shallow
    exact ⟨UpdateBag.read?_toJson plain, UpdateBag.toldBy_toJson plain shallow⟩

/-- A text with a key, a filter and two assignments of one field, and a text with a key and a filter
that is not well made. -/
theorem text_builds_history :
    let steps : List Step := [.set "x" (.int32 1), .id "k",
      .filter (.single (.leaf ⟨"a", .string, .equal, .null⟩)), .set "x" (.bool true)]
    let text := "\x7b\"filterId\":\"k\",\"filter\":\x7b\"condition\":\x7b\"parameter\":\"a\"," ++
      "\"type\":\"String\",\"compare\":\"Equal\",\"value\":null,\"groupOperator\":\"AND\"," ++
      "\"groupConditions\":[]\x7d,\"groupOperator\":\"NONE\",\"groupConditions\":[]\x7d," ++
      "\"fieldValues\":[\x7b\"field\":\"x\",\"value\":1\x7d," ++
      "\x7b\"field\":\"x\",\"value\":true\x7d]\x7d"
    let bad := "\x7b\"filterId\":\"k\",\"filter\":\x7b\"condition\":null," ++
      "\"groupOperator\":\"NONE\",\"groupConditions\":[]\x7d," ++
      "\"fieldValues\":[\x7b\"field\":\"x\",\"value\":1\x7d]\x7d"
    Update.ofText text = (run steps).build ∧
    (∃ u, (run steps).build = .ok u ∧ u.target = .id "k" ∧
      u.definition = [("$set", .document [("x", .bool true)])]) ∧
    Update.ofText bad = .error (.structural (.neither .filter)) := by
  intro steps text bad
  obtain ⟨_, _, _, _, _, told, written⟩ := build_tells_history
  refine ⟨?_, ⟨_, rfl, rfl, rfl⟩, ?_⟩
  · let b : UpdateBag := ⟨some "k", some { condition := some { parameter := "a" } },
      [⟨"x", .int32 1⟩, ⟨"x", .bool true⟩]⟩
    obtain ⟨parsed, tells⟩ := written b (by decide) (by decide)
    have same : b.toJson.text = text := by decide +kernel
    rw [same] at parsed
    rcases told text _ _ parsed tells with ⟨d, e, own, refused, _⟩ | ⟨_, built⟩
    · cases own
      cases refused
    · exact built steps ⟨rfl, rfl, rfl⟩
  · let b : UpdateBag := ⟨some "k", some {}, [⟨"x", .int32 1⟩]⟩
    obtain ⟨parsed, tells⟩ := written b (by decide) (by decide)
    have same : b.toJson.text = bad := by decide +kernel
    rw [same] at parsed
    rcases told bad _ _ parsed tells with ⟨d, e, own, refused, found⟩ | ⟨⟨steps, described⟩, _⟩
    · cases own
      cases refused
      exact found
    · obtain ⟨f, _, made⟩ := List.map_eq_singleton_iff.mp described.filters
      cases made

end UpdateBuilder
end DocQuery
