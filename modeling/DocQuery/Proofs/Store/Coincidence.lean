import DocQuery.Proofs.Sort.Precedence
import DocQuery.Proofs.Store.History
/-!
# Reads that come to the same

One read can be asked for by several methods: with a single sort field or a list of them, with no
sort field or fields that have no name, page by page with paging switched off, with a size of pages
or the default in its place. The standard dialect makes no difference between them
(`Repository.reads_coincide`): such operations have plans that differ in log records at most, and an
operation does what its plan says.
-/
namespace DocQuery

namespace SortField

/-- Fields without a name are left out of the document that the loop gathers. -/
theorem document_filter_named (d : Document) (fields : List SortField) :
    (gather d (fields.filter fun f => f.field ≠ "")).1 = (gather d fields).1 := by
  induction fields generalizing d with
  | nil => rfl
  | cons f rest ih =>
    by_cases unnamed : f.field = ""
    · have empty : f.field.isEmpty = true := by simp [unnamed]
      rw [List.filter_cons_of_neg (by simp [unnamed]), ih, gather, if_pos empty]
    · have some : ¬ f.field.isEmpty = true := by simp [unnamed]
      rw [List.filter_cons_of_pos (by simp [unnamed]), gather, gather, if_neg some, if_neg some]
      split
      · exact ih d
      · exact ih _

theorem clause_eq_ite (fields : List SortField) :
    clause fields = if (gather Document.empty fields).1.isEmpty then none
      else some (gather Document.empty fields).1 := by
  unfold clause clauseLogged
  dsimp only
  split <;> rfl

/-- Fields without a name make no difference to a clause. -/
theorem clause_filter_named (fields : List SortField) :
    clause (fields.filter fun f => f.field ≠ "") = clause fields := by
  rw [clause_eq_ite, clause_eq_ite, document_filter_named]

end SortField

/-- Two runs come to the same result and the same state, whatever they write to the log. -/
def Run.Alike {σ α : Type} (x y : Run σ α) : Prop :=
  x.result = y.result ∧ x.state = y.state

namespace Run.Alike

variable {σ α : Type} {x y z : Run σ α}

theorem symm (h : x.Alike y) : y.Alike x :=
  ⟨h.1.symm, h.2.symm⟩

theorem trans (first : x.Alike y) (second : y.Alike z) : x.Alike z :=
  ⟨first.1.trans second.1, first.2.trans second.2⟩

end Run.Alike

namespace Repository

variable {σ T α β : Type}

/-- What a plan comes to depends on its call and not on the log records before it. -/
theorem carryOut_alike (d : Driver σ T) {p q : Preparation (Plan T α)}
    (same : p.run.value = q.run.value) (s : σ) : (carryOut d p s).Alike (carryOut d q s) := by
  cases ready : p.run.value with
  | error e =>
    rw [carryOut_of_error ready, carryOut_of_error (same.symm.trans ready)]
    exact ⟨rfl, rfl⟩
  | ok plan =>
    rw [carryOut_of_ok ready, carryOut_of_ok (same.symm.trans ready)]
    exact ⟨rfl, rfl⟩

theorem value_bind_congr (x : Preparation α) {f g : α → Preparation β}
    (same : ∀ a, (f a).run.value = (g a).run.value) :
    (x >>= f).run.value = (x >>= g).run.value := by
  rcases x with ⟨e | a, records⟩
  · rfl
  · exact same a

/-- The plan that asks for rows and gives them as they come. -/
def finding (text : String) (o : FindOptions) : Plan T (List T) :=
  ⟨.find text o, fun rows => rows⟩

/-- The dialect writes the same clause for fields that differ in unnamed ones. -/
theorem value_listing {r : Repository} (dialect : r.dialect = .standard) (f : Filter)
    {sorts others : List SortField} (same : SortField.clause sorts = SortField.clause others) :
    (r.listing f sorts : Preparation (Plan T (List T))).run.value =
      (r.listing f others).run.value := by
  refine value_bind_congr _ fun text => ?_
  have clauses : (r.dialect.compileSort sorts).value = (r.dialect.compileSort others).value := by
    rw [dialect]
    exact same
  show Except.ok (finding text { sort := (r.dialect.compileSort sorts).value }) = _
  rw [clauses]
  rfl

theorem value_bind_of_error {x : Preparation α} {f : α → Preparation β} {e : Failure}
    (failed : x.run.value = .error e) : (x >>= f).run.value = .error e := by
  rcases x with ⟨d | a, records⟩ <;> cases failed
  rfl

variable [Entity T]

/-- An operation does what its plan says, whichever way it is done. -/
theorem run_alike_plan (r : Repository) (d : DualDriver σ T) (w : Way) (op : Operation T) (s : σ) :
    (r.run d w op s).Alike (carryOut (d.side w).recorded (r.plan op) (s, [])) := by
  have follows : (r.run d w op s).Agrees (fun _ => false) _ :=
    r.run_agrees (fun _ _ => rfl) d w op s
  exact ⟨follows.result, follows.state⟩

section Paging

variable {r : Repository}

theorem plan_getPageData (page size : UInt64) (f : Filter) (sorts : List SortField) :
    r.plan (T := T) (.getPageData page size f sorts) =
      (r.filterText f >>= fun text => r.sortClause sorts >>= fun clause =>
        pure (finding text ((FindOptions.sorted clause).paged page
          (if size = 0 then r.defaultPageSize.getD 0 else size)))) :=
  rfl

/-- Where page or size is zero nothing is skipped and there is no limit. -/
theorem plan_getPageData_of_unpaged {page size : UInt64}
    (unpaged : page = 0 ∨ size = 0 ∧ r.defaultPageSize.getD 0 = 0) (f : Filter)
    (sorts : List SortField) :
    r.plan (T := T) (.getPageData page size f sorts) = r.listing f sorts := by
  have whole (clause : Option Document) : (FindOptions.sorted clause).paged page
      (if size = 0 then r.defaultPageSize.getD 0 else size) = FindOptions.sorted clause := by
    rcases unpaged with rfl | ⟨rfl, none⟩
    · rfl
    · rw [if_pos rfl, none, FindOptions.paged]
      simp
  simp only [plan_getPageData, whole]
  rfl

/-- A size of zero stands for the default size. -/
theorem plan_getPageData_of_default {size : UInt64} (chosen : r.defaultPageSize = some size)
    (page : UInt64) (f : Filter) (sorts : List SortField) :
    r.plan (T := T) (.getPageData page 0 f sorts) = r.plan (.getPageData page size f sorts) := by
  simp only [plan_getPageData, chosen, Option.getD_some, if_pos, ite_self]

end Paging

/-- Whether something exists is told by the count. -/
theorem carryOut_isExist (r : Repository) (d : Driver σ T) (f : Filter) (s : σ) :
    (carryOut d (r.plan (.isExist f)) s).result =
        (carryOut d (r.plan (.getCount f)) s).result.map (fun n : UInt64 => decide (0 < n)) ∧
      (carryOut d (r.plan (.isExist f)) s).state = (carryOut d (r.plan (.getCount f)) s).state := by
  cases written : (r.filterText f).run.value with
  | error e =>
    have exists? : (r.plan (T := T) (.isExist f)).run.value = .error e := value_bind_of_error written
    have count : (r.plan (T := T) (.getCount f)).run.value = .error e := value_bind_of_error written
    rw [carryOut_of_error exists?, carryOut_of_error count]
    exact ⟨rfl, rfl⟩
  | ok text =>
    have exists? : (r.plan (T := T) (.isExist f)).run.value = _ := value_bind_of_ok written
    have count : (r.plan (T := T) (.getCount f)).run.value = _ := value_bind_of_ok written
    rw [carryOut_of_ok exists?, carryOut_of_ok count]
    refine ⟨?_, rfl⟩
    let counted : Except Failure UInt64 := (d.perform (.count text) s).result
    show counted.map (fun n => decide (0 < n)) = (counted.map fun n => n).map _
    cases counted <;> rfl

/-- Reads that ask for the same, in a repository with the standard dialect and any default size of
pages, over any store and in any of its states. Each pair makes the same calls, gets the same rows
or the same failure and leaves the same state: a single sort field and the list that holds it; no
sort field and fields without a name; paging that is switched off and no paging; a size of zero and
the default size. Whether something matches is whether more than nothing is counted. -/
theorem reads_coincide (configured : Option UInt64) (d : DualDriver σ T) (w : Way) (f : Filter)
    (s : σ) :
    let r := ({ dialect := .standard } : Repository).withDefaultPageSize configured
    (∀ sort, (r.run d w (.getAllSortedBy f sort) s).Alike
      (r.run d w (.getAllSorted f sort.toList) s)) ∧
    (∀ sorts : List SortField, (∀ field ∈ sorts, field.field = "") →
      (r.run d w (.getAllFiltered f) s).Alike (r.run d w (.getAllSorted f sorts) s)) ∧
    (∀ page size sorts, page = 0 ∨ size = 0 ∧ (∀ n, configured = some n → n = 0) →
      (r.run d w (.getPageData page size f sorts) s).Alike
        (r.run d w (.getAllSorted f sorts) s)) ∧
    (∀ page size sorts, configured = some size → 0 < size →
      (r.run d w (.getPageData page 0 f sorts) s).Alike
        (r.run d w (.getPageData page size f sorts) s)) ∧
    (r.run d w (.isExist f) s).result =
      (r.run d w (.getCount f) s).result.map (fun n : UInt64 => decide (0 < n)) ∧
    (r.run d w (.isExist f) s).state = (r.run d w (.getCount f) s).state := by
  intro r
  have does (op : Operation T) := r.run_alike_plan d w op s
  have listings {sorts others : List SortField}
      (same : SortField.clause sorts = SortField.clause others) :=
    carryOut_alike (d.side w).recorded (value_listing (r := r) (T := T) rfl f same) (s, [])
  refine ⟨?single, ?unnamed, ?unpaged, ?byDefault, ?_⟩
  case single =>
    intro sort
    have same := SortField.clause_filter_named sort.toList
    exact (does _).trans ((listings same).trans (does (.getAllSorted f sort.toList)).symm)
  case unnamed =>
    intro sorts blank
    have none : sorts.filter (fun x => x.field ≠ "") = [] := by simpa using blank
    have same := SortField.clause_filter_named sorts
    rw [none] at same
    exact (does _).trans ((listings same).trans (does (.getAllSorted f sorts)).symm)
  case unpaged =>
    intro page size sorts off
    have noSize : (∀ n, configured = some n → n = 0) → r.defaultPageSize.getD 0 = 0 := by
      intro zero
      cases configured with
      | none => rfl
      | some n =>
        obtain rfl := zero n rfl
        rfl
    have whole := does (.getPageData page size f sorts)
    rw [plan_getPageData_of_unpaged (off.imp_right (And.imp_right noSize))] at whole
    exact whole.trans (does (.getAllSorted f sorts)).symm
  case byDefault =>
    intro page size sorts given positive
    have chosen : r.defaultPageSize = some size := by
      show configured.filter (fun n => 0 < n) = some size
      rw [given]
      simp [positive]
    have page := does (.getPageData page 0 f sorts)
    rw [plan_getPageData_of_default chosen] at page
    exact page.trans (does _).symm
  · obtain ⟨exists?, left⟩ := does (.isExist f)
    obtain ⟨count, left'⟩ := does (.getCount f)
    obtain ⟨results, states⟩ := r.carryOut_isExist (d.side w).recorded f (s, [])
    rw [exists?, left, count, left']
    exact ⟨results, states⟩

/-- Three rows, two to a page if nothing else is said. -/
theorem reads_coincide_in_memory :
    let r := ({ dialect := .standard } : Repository).withDefaultPageSize (some 2)
    let d : DualDriver (List String) String := ⟨Entity.inMemory, Entity.inMemory.deferred⟩
    let run (w : Way) (op : Operation String) := r.run d w op ["a", "b", "c"]
    let unnamed : List SortField := [.asc "", .desc ""]
    (∀ field ∈ unnamed, field.field = "") ∧
    (run .later (.getAllFiltered (.byId "k"))).Alike
      (run .later (.getAllSorted (.byId "k") unnamed)) ∧
    (run .now (.getPageData 0 7 (.byId "k") [])).Alike (run .now (.getAllSorted (.byId "k") [])) ∧
    (run .now (.getPageData 2 0 (.byId "k") [])).Alike
      (run .now (.getPageData 2 2 (.byId "k") [])) := by
  intro r d run unnamed
  have blank : ∀ field ∈ unnamed, field.field = "" := by simp [unnamed, SortField.asc, SortField.desc]
  obtain ⟨_, noName, _⟩ := reads_coincide (some 2) d .later (.byId "k") ["a", "b", "c"]
  obtain ⟨_, _, unpaged, byDefault, _⟩ :=
    reads_coincide (some 2) d .now (.byId "k") ["a", "b", "c"]
  exact ⟨blank, noName unnamed blank, unpaged 0 7 [] (Or.inl rfl), byDefault 2 2 [] rfl (by decide)⟩

end Repository
end DocQuery
