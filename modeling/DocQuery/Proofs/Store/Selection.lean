import DocQuery.Proofs.Store.History
import DocQuery.Proofs.Update.Aim
/-!
# What calls select

The text that matches all documents is sent for what is meant for all documents, which are the reads
of everything and the updates without an aim, and for nothing else (`matchAll_only_where_asked`).
Whoever gives a filter, a key or an update with an aim never has all documents selected.
-/
namespace DocQuery

/-- The operation is meant for all documents. -/
def Operation.Unaimed {T : Type} : Operation T → Prop
  | .getAll => True
  | .updateSet u => u.Unaimed
  | _ => False

/-- The standard dialect selects the documents of an update by its target. -/
theorem Dialect.filter_standard_compileUpdate (u : Update) :
    (standard.compileUpdate u).value.map (·.filter) = u.compileTarget := by
  rw [← u.value_compileTargetLogged]
  simp only [standard, bind]
  cases u.compileTargetLogged.value <;> rfl

theorem Operation.unaimed_of_selector? {T : Type} {op : Operation T}
    (selects : op.selector? .standard = some (.ok matchAll)) : op.Unaimed := by
  have filters (f : Filter) : (Dialect.standard.compileFilter f).value ≠ .ok matchAll := by
    show f.compileLogged.value ≠ _
    rw [Filter.value_compileLogged]
    exact f.compile_ne_matchAll
  cases op with
  | insert _ | update _ | deleteById _ | deleteEntity _ | getAll => cases selects
  | delete f | isExistById f | isExist f | getById f | getAllFiltered f | getAllSorted f _
  | getAllSortedBy f _ | getPageData _ _ f _ | getCount f =>
    exact absurd (Option.some.inj selects) (filters _)
  | updateSet u =>
    have target := Option.some.inj selects
    rw [Dialect.filter_standard_compileUpdate] at target
    exact u.compileTarget_eq_matchAll_iff.mp target

namespace Repository

variable {σ T : Type} [Entity T] {r : Repository}

/-- What is meant for all documents has a plan, and its call selects them. -/
theorem plan_of_unaimed (dialect : r.dialect = .standard) {op : Operation T}
    (unaimed : op.Unaimed) :
    ∃ plan, (r.plan op).run.value = .ok plan ∧ plan.call.filter? = some matchAll := by
  cases op with
  | getAll => exact ⟨_, rfl, rfl⟩
  | updateSet u =>
    have written : (r.compiledUpdate u).run.value = .ok ⟨matchAll, u.definition⟩ := by
      show (r.dialect.compileUpdate u).value = _
      rw [dialect]
      exact Dialect.value_standard_compileUpdate u (u.compileTarget_eq_matchAll_iff.mpr unaimed)
    exact ⟨_, value_bind_of_ok written, rfl⟩
  | _ => cases unaimed

theorem selects_all_iff (dialect : r.dialect = .standard) (d : DualDriver σ T) (w : Way)
    (op : Operation T) (s : σ) :
    (∃ c ∈ (r.observation d w op s).calls, c.filter? = some matchAll) ↔ op.Unaimed := by
  rw [calls_observation]
  constructor
  · rintro ⟨c, made, asked⟩
    cases ready : (r.plan op).run.value with
    | error e =>
      rw [ready] at made
      cases made
    | ok plan =>
      rw [ready] at made
      obtain rfl := List.mem_singleton.mp made
      rcases plan_selects ready asked with selects | ⟨rfl, _⟩
      · rw [dialect] at selects
        exact op.unaimed_of_selector? selects
      · trivial
  · intro unaimed
    obtain ⟨plan, ready, asked⟩ := plan_of_unaimed dialect unaimed
    rw [ready]
    exact ⟨plan.call, List.mem_singleton_self _, asked⟩

end Repository

/-- No filter compiles to the text that matches all documents. An update that was built, or read
from JSON, has it as its target exactly if it was given neither a key nor a filter. A repository
with the standard dialect sends it, in every history, exactly for the operations that are meant for
all documents: reads of everything and updates of that kind. -/
theorem matchAll_only_where_asked :
    (∀ f : Filter, f.compile ≠ .ok matchAll) ∧
    (∀ steps u, (UpdateBuilder.run steps).build = .ok u →
      (u.compileTarget = .ok matchAll ↔ ∀ s ∈ steps, ¬ s.Aims)) ∧
    (∀ text u, Update.ofText text = .ok u → ∃ j, Json.read? text = some j ∧
      (u.compileTarget = .ok matchAll ↔ j.Lacks "filterId" 0 ∧ j.Lacks "filter" 1)) ∧
    ∀ {σ T : Type} [Entity T] (r : Repository), r.dialect = .standard →
      ∀ (d : DualDriver σ T) (steps : List (Way × Operation T)) (s : σ),
        ∀ o ∈ r.history d steps s,
          (∃ c ∈ o.calls, c.filter? = some matchAll) ↔ o.operation.Unaimed := by
  refine ⟨Filter.compile_ne_matchAll, ?built, ?read, ?sent⟩
  case built =>
    intro steps u built
    rw [u.compileTarget_eq_matchAll_iff, UpdateBuilder.unaimed_of_build built,
      UpdateBuilder.run_unaimed_iff]
  case read =>
    intro text u read
    obtain ⟨j, parsed, aim⟩ := Update.unaimed_of_ofText read
    exact ⟨j, parsed, u.compileTarget_eq_matchAll_iff.trans aim⟩
  case sent =>
    intro σ T _ r dialect d steps s o member
    obtain ⟨w, op, t, _, rfl⟩ := Repository.mem_history member
    exact Repository.selects_all_iff dialect d w op t

/-- What only assigns has no aim, whether it is built or read. To look for a key is to have one. -/
theorem matchAll_of_bare_assignment :
    let steps : List UpdateBuilder.Step := [.set "a" .null]
    let text := "\x7b\"fieldValues\":[\x7b\"field\":\"a\",\"value\":null\x7d]\x7d"
    let d : DualDriver (List String) String := ⟨Entity.inMemory, Entity.inMemory.deferred⟩
    let look := ({} : Repository).observation d .later (.isExistById "a") ["a"]
    (∃ u, (UpdateBuilder.run steps).build = .ok u ∧ u.compileTarget = .ok matchAll) ∧
    (∃ u j, Update.ofText text = .ok u ∧ Json.read? text = some j ∧
      u.compileTarget = .ok matchAll ∧ j.Lacks "filterId" 0 ∧ j.Lacks "filter" 1) ∧
    ¬ ∃ c ∈ look.calls, c.filter? = some matchAll := by
  intro steps text d look
  obtain ⟨_, built, readJson, sent⟩ := matchAll_only_where_asked
  refine ⟨⟨_, rfl, (built steps _ rfl).mpr ?_⟩, ?_, ?_⟩
  · simp [steps, UpdateBuilder.Step.Aims]
  · have bare : ((Update.ofText text).toOption.any fun u => u.id.isNone && u.filter.isNone) =
        true := by decide +kernel
    cases read : Update.ofText text with
    | error e =>
      rw [read] at bare
      cases bare
    | ok u =>
      rw [read] at bare
      have everything : u.compileTarget = .ok matchAll :=
        u.compileTarget_eq_matchAll_iff.mpr
          (by simpa [Except.toOption, Update.Unaimed] using bare)
      obtain ⟨j, parsed, aim⟩ := readJson text u read
      exact ⟨u, j, rfl, parsed, everything, aim.mp everything⟩
  · intro selected
    exact (sent {} rfl d [(.later, .isExistById "a")] ["a"] look List.mem_cons_self).mp selected

end DocQuery
