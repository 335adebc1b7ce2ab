import DocQuery.Proofs.Bag.Acceptance
import DocQuery.Proofs.Filter.UniqueReading
import DocQuery.Proofs.Json.Bag
/-!
# What updates are aimed at

An update without a key and without a filter is aimed at all documents. The text that matches all
documents belongs to such updates alone: no filter has it (`Filter.compile_ne_matchAll`), whatever
its shape, and an update is aimed only by a step of its builder or by a property of its JSON form
that says so.
-/
namespace DocQuery

/-- Behind the brace and the blank a comparison goes on with a quote and a group with a dollar
sign. -/
theorem Condition.render_ne_matchAll (c : Condition) : c.render ≠ .ok matchAll := by
  intro written
  cases c with
  | leaf p =>
    have text : p.render.toList = matchAll.toList := congrArg String.toList (Except.ok.inj written)
    rw [Predicate.toList_render] at text
    exact absurd (List.cons.inj (List.cons.inj (List.cons.inj text).2).2).1 (by decide)
  | group op children =>
    obtain ⟨token, _, found, _, text⟩ := toList_render_group written
    obtain ⟨⟨name, dollar⟩, _⟩ := Connective.token_shape found
    rw [dollar] at text
    exact absurd (List.cons.inj (List.cons.inj (List.cons.inj text).2).2).1 (by decide)

theorem Filter.compile_ne_matchAll (f : Filter) : f.compile ≠ .ok matchAll := by
  intro compiled
  exact f.root.render_ne_matchAll ((compile_eq_ok_iff f matchAll).mp compiled).2

namespace Update

/-- The update is aimed at all documents. -/
def Unaimed (u : Update) : Prop :=
  u.id = none ∧ u.filter = none

theorem compileTarget_eq_matchAll_iff (u : Update) :
    u.compileTarget = .ok matchAll ↔ u.Unaimed := by
  unfold compileTarget target Unaimed
  cases u.id with
  | some key => simp [Target.filter?, Filter.compile_ne_matchAll]
  | none =>
    cases u.filter with
    | some f => simp [Target.filter?, Filter.compile_ne_matchAll]
    | none => simp [Target.filter?]

end Update

namespace UpdateBuilder

/-- The step gives a key or a filter. -/
def Step.Aims : Step → Prop
  | .id _ => True
  | .filter _ => True
  | .set _ _ => False
  | .setAll _ => False

def Unaimed (b : UpdateBuilder) : Prop :=
  b.id? = none ∧ b.filter? = none

theorem step_unaimed_iff (b : UpdateBuilder) (s : Step) :
    (b.step s).Unaimed ↔ b.Unaimed ∧ ¬ s.Aims := by
  cases s with
  | id key => simp [step, id, Unaimed, Step.Aims]
  | filter f => simp [step, filter, Unaimed, Step.Aims]
  | set field value => simp [step, set, Unaimed, Step.Aims]
  | setAll assignments => simp [step, setAll, Unaimed, Step.Aims]

theorem foldl_step_unaimed_iff (b : UpdateBuilder) (steps : List Step) :
    (steps.foldl step b).Unaimed ↔ b.Unaimed ∧ ∀ s ∈ steps, ¬ s.Aims := by
  induction steps generalizing b with
  | nil => simp
  | cons s rest ih => rw [List.foldl_cons, ih, step_unaimed_iff, List.forall_mem_cons, and_assoc]

/-- A builder has no aim exactly if none of its steps gave one. -/
theorem run_unaimed_iff (steps : List Step) : (run steps).Unaimed ↔ ∀ s ∈ steps, ¬ s.Aims := by
  have start : new.Unaimed := ⟨rfl, rfl⟩
  rw [run, foldl_step_unaimed_iff]
  exact and_iff_right start

theorem unaimed_of_build {b : UpdateBuilder} {u : Update} (h : b.build = .ok u) :
    u.Unaimed ↔ b.Unaimed := by
  obtain ⟨key, filter, _⟩ := b.build_ok u h
  rw [Update.Unaimed, Unaimed, key, filter]

end UpdateBuilder

/-- The bag of an update has no key or no filter exactly if its JSON form leaves them out. -/
theorem UpdateBag.ofJson?_lacks {budget : Nat} {j : Json} {b : UpdateBag}
    (h : ofJson? budget j = some b) :
    (b.filterId = none ↔ j.Lacks "filterId" 0) ∧ (b.filter = none ↔ j.Lacks "filter" 1) := by
  cases budget with
  | zero => cases h
  | succ budget =>
    simp only [ofJson?, Option.bind_eq_bind, Option.bind_eq_some_iff] at h
    obtain ⟨values, found, h⟩ := h
    split at h
    next filterId filter fieldValues =>
      simp only [Option.bind_eq_some_iff, Option.some.injEq] at h
      obtain ⟨key, readKey, target, readTarget, _, _, rfl⟩ := h
      have first := Json.bag?_absent_iff (i := 0) found rfl rfl
      have second := Json.bag?_absent_iff (i := 1) found rfl rfl
      exact ⟨(Json.nullable_eq_none_iff readKey).trans first,
        (Json.nullable_eq_none_iff readTarget).trans second⟩
    next => cases h

/-- An update that is read from JSON has no aim exactly if the text gives neither a key nor a
filter. -/
theorem Update.unaimed_of_ofText {s : String} {u : Update} (h : ofText s = .ok u) :
    ∃ j, Json.read? s = some j ∧ (u.Unaimed ↔ j.Lacks "filterId" 0 ∧ j.Lacks "filter" 1) := by
  obtain ⟨b, read, converted⟩ := bind_eq_ok_iff.mp h
  obtain ⟨j, parsed, shaped⟩ := readText?_eq_ok_iff.mp read
  refine ⟨j, parsed, ?_⟩
  obtain ⟨keyLacks, filterLacks⟩ := UpdateBag.ofJson?_lacks shaped
  obtain ⟨key, _, _, itsFilter⟩ := b.update_ok u converted
  have filters : u.filter = none ↔ b.filter = none := by
    rcases itsFilter with ⟨none, same⟩ | ⟨d, f, some, _, same⟩
    · simp [none, same]
    · simp [some, same]
  rw [Unaimed, key, filters, keyLacks, filterLacks]

end DocQuery
