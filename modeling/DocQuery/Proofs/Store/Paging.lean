import DocQuery.Proofs.Store.History
import DocQuery.Proofs.Store.Pages
import Mathlib.Data.List.Induction
/-!
# Options after any paging

Options may be paged again and again. The last step that asks for a page decides, whatever stands
before it, and steps with a page or a size of zero change nothing. What is skipped is the true
product as far as words go. A limit of zero never comes about, neither from such steps nor from the
default size of a repository, so the finds of a repository are limited and skip or do neither
(`paging_stays_coherent`).
-/
namespace DocQuery

namespace FindOptions

/-- Pages the options, each step being a page and a size. -/
def pagedAll (o : FindOptions) (steps : List (UInt64 × UInt64)) : FindOptions :=
  steps.foldl (fun o step => o.paged step.1 step.2) o

/-- The last step that asks for a page: neither its page nor its size is zero. -/
def lastPage? (steps : List (UInt64 × UInt64)) : Option (UInt64 × UInt64) :=
  (steps.filter fun step => step.1 ≠ 0 ∧ step.2 ≠ 0).getLast?

/-- Rows are skipped and limited to some number, or neither. -/
def Coherent (o : FindOptions) : Prop :=
  (o.skip = none ∧ o.limit = none) ∨
    ∃ skip limit, o.skip = some skip ∧ o.limit = some limit ∧ limit ≠ 0

/-- What the options are once a clause has been paged by the steps. The number of rows before a page
is counted in integers, where nothing is cut off. -/
structure PagedBy (clause : Option Document) (steps : List (UInt64 × UInt64)) (o : FindOptions) :
    Prop where
  sort : o.sort = clause
  limit : o.limit = (lastPage? steps).map (·.2)
  skip : o.skip.map (fun n => (n.toNat : Int)) = (lastPage? steps).map fun page =>
    min (((page.1.toNat : Int) - 1) * page.2.toNat) (UInt64.size - 1)
  positive : ∀ n, o.limit = some n → 1 ≤ n
  unpaged : o.limit = none ↔ ∀ step ∈ steps, step.1 = 0 ∨ step.2 = 0

theorem paged_of_zero {page size : UInt64} (none : page = 0 ∨ size = 0) (o : FindOptions) :
    o.paged page size = o := by
  have switchedOff : (page = 0 || size = 0) = true := by simpa using none
  rw [paged, if_pos switchedOff]

theorem paged_of_page {page size : UInt64} (counted : page ≠ 0) (sized : size ≠ 0)
    (o : FindOptions) : o.paged page size =
      { o with skip := some (boundedProduct (page - 1) size), limit := some size } := by
  have proper : ¬ (page = 0 || size = 0) = true := by simp [counted, sized]
  rw [paged, if_neg proper]

theorem pagedAll_concat (o : FindOptions) (steps : List (UInt64 × UInt64)) (page size : UInt64) :
    o.pagedAll (steps ++ [(page, size)]) = (o.pagedAll steps).paged page size := by
  simp [pagedAll]

theorem lastPage?_concat (steps : List (UInt64 × UInt64)) (page size : UInt64) :
    lastPage? (steps ++ [(page, size)]) =
      if page = 0 ∨ size = 0 then lastPage? steps else some (page, size) := by
  by_cases none : page = 0 ∨ size = 0
  · have dropped : ¬ (page ≠ 0 ∧ size ≠ 0) := by rwa [← not_or, not_not]
    rw [if_pos none, lastPage?, List.filter_append, List.filter_cons_of_neg (by simpa using dropped)]
    simp [lastPage?]
  · have kept : page ≠ 0 ∧ size ≠ 0 := not_or.mp none
    rw [if_neg none, lastPage?, List.filter_append, List.filter_cons_of_pos (by simpa using kept)]
    simp

theorem lastPage?_sized {steps : List (UInt64 × UInt64)} {page : UInt64 × UInt64}
    (last : lastPage? steps = some page) : page.1 ≠ 0 ∧ page.2 ≠ 0 := by
  have member := List.mem_filter.mp (List.mem_of_getLast? last)
  exact of_decide_eq_true member.2

theorem lastPage?_eq_none_iff (steps : List (UInt64 × UInt64)) :
    lastPage? steps = none ↔ ∀ step ∈ steps, step.1 = 0 ∨ step.2 = 0 := by
  simp only [lastPage?, List.getLast?_eq_none_iff, List.filter_eq_nil_iff, decide_eq_true_eq,
    ← not_or, not_not]

theorem one_le_of_ne_zero {n : UInt64} (h : n ≠ 0) : 1 ≤ n := by
  rw [UInt64.le_iff_toNat_le]
  rcases Nat.eq_zero_or_pos n.toNat with zero | positive
  · exact absurd (UInt64.toNat_inj.mp zero) h
  · exact positive

/-- One less than a page that there is, times a size, in integers. -/
theorem toInt_boundedProduct {page : UInt64} (counted : page ≠ 0) (size : UInt64) :
    ((boundedProduct (page - 1) size).toNat : Int) =
      min (((page.toNat : Int) - 1) * size.toNat) (UInt64.size - 1) := by
  have positive := one_le_of_ne_zero counted
  have before : (page - 1).toNat = page.toNat - 1 := UInt64.toNat_sub_of_le _ _ positive
  have exact : ((page.toNat - 1 : Nat) : Int) = (page.toNat : Int) - 1 :=
    Int.ofNat_sub (UInt64.le_iff_toNat_le.mp positive)
  have product : (((page.toNat - 1) * size.toNat : Nat) : Int) =
      ((page.toNat : Int) - 1) * size.toNat := by
    rw [Int.natCast_mul, exact]
  have words : 1 ≤ UInt64.size := by decide
  rw [toNat_boundedProduct, before]
  omega

/-- The last page decides about skip and limit; the clause stays. -/
theorem pagedBy_pagedAll (clause : Option Document) (steps : List (UInt64 × UInt64)) :
    PagedBy clause steps ((sorted clause).pagedAll steps) := by
  have fields : ((sorted clause).pagedAll steps).sort = clause ∧
      ((sorted clause).pagedAll steps).limit = (lastPage? steps).map (·.2) ∧
      ((sorted clause).pagedAll steps).skip =
        (lastPage? steps).map fun page => boundedProduct (page.1 - 1) page.2 := by
    induction steps using List.reverseRecOn with
    | nil => exact ⟨rfl, rfl, rfl⟩
    | append_singleton steps step ih =>
      obtain ⟨page, size⟩ := step
      rw [pagedAll_concat, lastPage?_concat]
      by_cases none : page = 0 ∨ size = 0
      · rw [paged_of_zero none, if_pos none]
        exact ih
      · obtain ⟨counted, sized⟩ := not_or.mp none
        rw [paged_of_page counted sized, if_neg none]
        exact ⟨ih.1, rfl, rfl⟩
  obtain ⟨sort, limit, skip⟩ := fields
  refine ⟨sort, limit, ?_, ?_, ?_⟩
  · rw [skip, Option.map_map]
    cases last : lastPage? steps with
    | none => rfl
    | some page =>
      exact congrArg some (toInt_boundedProduct (lastPage?_sized last).1 page.2)
  · intro n limited
    rw [limit] at limited
    obtain ⟨page, last, rfl⟩ := Option.map_eq_some_iff.mp limited
    exact one_le_of_ne_zero (lastPage?_sized last).2
  · rw [limit, Option.map_eq_none_iff, lastPage?_eq_none_iff]

theorem PagedBy.coherent {clause : Option Document} {steps : List (UInt64 × UInt64)}
    {o : FindOptions} (paged : PagedBy clause steps o) : o.Coherent := by
  cases last : lastPage? steps with
  | none =>
    have skip := paged.skip
    rw [last, Option.map_none, Option.map_eq_none_iff] at skip
    exact Or.inl ⟨skip, by rw [paged.limit, last, Option.map_none]⟩
  | some page =>
    have skip := paged.skip
    rw [last, Option.map_some] at skip
    obtain ⟨n, skipped, _⟩ := Option.map_eq_some_iff.mp skip
    exact Or.inr ⟨n, page.2, skipped, by rw [paged.limit, last, Option.map_some],
      (lastPage?_sized last).2⟩

end FindOptions

namespace Repository

/-- How a repository is made. -/
inductive Origin where
  | plain
  | settings (s : Settings)
  | dialect (d : Dialect)

def Origin.repository : Origin → Repository
  | .plain => {}
  | .settings s => .ofSettings s
  | .dialect d => { dialect := d }

theorem defaultPageSize_withDefaultPageSize (r : Repository) (size : Option UInt64) :
    (r.withDefaultPageSize size).defaultPageSize ≠ some 0 := by
  intro zero
  have kept := (Option.filter_eq_some_iff.mp zero).2
  exact absurd kept (by decide)

/-- Whatever sizes are set one after the other, the default is none or a size that is not zero. -/
theorem defaultPageSize_ne_zero (origin : Origin) (sizes : List (Option UInt64)) :
    (sizes.foldl withDefaultPageSize origin.repository).defaultPageSize ≠ some 0 := by
  induction sizes using List.reverseRecOn with
  | nil =>
    cases origin with
    | plain => exact nofun
    | settings s => exact defaultPageSize_withDefaultPageSize {} s.defaultPageSize
    | dialect _ => exact nofun
  | append_singleton sizes size _ =>
    rw [List.foldl_append]
    exact defaultPageSize_withDefaultPageSize _ size

variable {σ T : Type} [Entity T]

/-- The find of a page has the clause of the sort fields, paged once. -/
theorem calls_getPageData (r : Repository) (d : DualDriver σ T) (w : Way) (page size : UInt64)
    (f : Filter) (sorts : List SortField) (s : σ) :
    (r.observation d w (.getPageData page size f sorts) s).calls =
      (r.dialect.compileFilter f).value.toOption.toList.map fun text => .find text
        ((FindOptions.sorted (r.dialect.compileSort sorts).value).pagedAll
          [(page, if size = 0 then r.defaultPageSize.getD 0 else size)]) := by
  rw [calls_observation]
  cases written : (r.dialect.compileFilter f).value with
  | error e =>
    have failed := (r.plan_error_iff (.getPageData page size f sorts : Operation T) e).mpr
      (congrArg some written)
    rw [failed]
    rfl
  | ok text =>
    rw [r.value_plan_getPageData written page size sorts]
    rfl

end Repository

/-- After any steps of paging the options have the clause they started with, and the last step with
a page and a size that are not zero tells skip and limit: the limit is its size and the skip the
true number of rows before its page, or the greatest word. Without such a step there is neither. The
default size of a repository is never zero, however the repository is made and whatever sizes are
set, and a page that it asks for skips rows and limits them to some number, or does neither. -/
theorem paging_stays_coherent :
    (∀ (clause : Option Document) (steps : List (UInt64 × UInt64)),
      FindOptions.PagedBy clause steps ((FindOptions.sorted clause).pagedAll steps)) ∧
    ∀ (origin : Repository.Origin) (sizes : List (Option UInt64)),
      let r := sizes.foldl Repository.withDefaultPageSize origin.repository
      r.defaultPageSize ≠ some 0 ∧
      ∀ {σ T : Type} [Entity T] (d : DualDriver σ T) (w : Way) (page size : UInt64) (f : Filter)
        (sorts : List SortField) (s : σ), ∃ o : FindOptions, o.Coherent ∧
          (r.observation d w (.getPageData page size f sorts) s).calls =
            (r.dialect.compileFilter f).value.toOption.toList.map fun text => .find text o := by
  refine ⟨FindOptions.pagedBy_pagedAll, ?_⟩
  intro origin sizes r
  refine ⟨Repository.defaultPageSize_ne_zero origin sizes, ?_⟩
  intro σ T _ d w page size f sorts s
  exact ⟨_, (FindOptions.pagedBy_pagedAll _ _).coherent, r.calls_getPageData d w page size f sorts s⟩

end DocQuery
