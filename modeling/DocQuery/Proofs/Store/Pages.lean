import DocQuery.Proofs.Store.Operations
/-!
# Pages

The pages of one size share the result of a query out among them: each holds the rows between two
multiples of the size, and the first of them together hold the rows up to a multiple
(`Repository.pages_share_result`). The product that tells where a page begins is cut off at the
greatest word, and no result is so long that this makes a difference.
-/
namespace DocQuery

theorem toNat_boundedProduct (a b : UInt64) :
    (boundedProduct a b).toNat = min (a.toNat * b.toNat) (UInt64.size - 1) := by
  have below : min (a.toNat * b.toNat) (UInt64.size - 1) < UInt64.size := by
    have words : 0 < UInt64.size := by decide
    omega
  exact Nat.mod_eq_of_lt below

section

variable {T : Type} {rows : List T}

/-- Cut off or not, the product skips the same rows. -/
theorem drop_boundedProduct (fits : rows.length < UInt64.size) (a b : UInt64) :
    rows.drop (boundedProduct a b).toNat = rows.drop (a.toNat * b.toNat) := by
  rw [toNat_boundedProduct]
  rcases Nat.le_total (a.toNat * b.toNat) (UInt64.size - 1) with small | large
  · rw [Nat.min_eq_left small]
  · rw [Nat.min_eq_right large, List.drop_of_length_le (by omega),
      List.drop_of_length_le (by omega)]

theorem FindOptions.apply_paged (fits : rows.length < UInt64.size) (clause : Option Document)
    {page size : UInt64} (counted : 1 ≤ page) (sized : 0 < size) :
    ((sorted clause).paged page size).apply rows =
      (rows.drop ((page.toNat - 1) * size.toNat)).take size.toNat := by
  have proper : ¬ (page = 0 || size = 0) = true := by
    simp only [Bool.or_eq_true, decide_eq_true_eq, not_or]
    constructor
    · rintro rfl
      exact absurd counted (by decide)
    · rintro rfl
      exact absurd sized (by decide)
  have before : (page - 1).toNat = page.toNat - 1 := UInt64.toNat_sub_of_le _ _ counted
  rw [paged, if_neg proper, ← before, ← drop_boundedProduct fits]
  rfl

@[simp] theorem FindOptions.sort_paged (o : FindOptions) (page size : UInt64) :
    (o.paged page size).sort = o.sort := by
  unfold paged
  split <;> rfl

/-- What is taken from some place on is what stands between that place and a later one. -/
theorem extract_min_length (rows : List T) (start size : Nat) :
    rows.extract start (min rows.length (start + size)) = (rows.drop start).take size := by
  rw [List.extract_eq_take_drop, List.take_eq_take_iff, List.length_drop]
  omega

end

/-- Finds skip and limit the rows that the state holds for the filter and the clause, and they leave
these rows as they are. -/
structure Driver.Serves {σ T : Type} (d : Driver σ T)
    (rows : σ → String → Option Document → List T) : Prop where
  result : ∀ q o s, (d.perform (.find q o) s).result = .ok (o.apply (rows s q o.sort))
  kept : ∀ q o s, rows (d.perform (.find q o) s).state = rows s

theorem Entity.inMemory_serves {T : Type} [Entity T] :
    (inMemory : Driver (List T) T).Serves fun rows _ _ => rows :=
  ⟨fun _ _ _ => rfl, fun _ _ _ => rfl⟩

namespace Repository

variable {σ T : Type} [Entity T]

/-- Reads the pages up to a number and puts them together. -/
def firstPages (r : Repository) (d : Driver σ T) (size : UInt64) (f : Filter)
    (sorts : List SortField) : Nat → Action σ (List T)
  | 0 => pure []
  | k + 1 => do
    let earlier ← r.firstPages d size f sorts k
    let page ← r.getPageData d (UInt64.ofNat (k + 1)) size f sorts
    pure (earlier ++ page)

/-- The size that counts for a page: the given one, or the default where zero is given. -/
def PageSize (r : Repository) (size effective : UInt64) : Prop :=
  size = effective ∨ size = 0 ∧ r.defaultPageSize = some effective

theorem PageSize.getD {r : Repository} {size effective : UInt64} (h : r.PageSize size effective)
    (sized : 0 < effective) :
    (if size = 0 then r.defaultPageSize.getD 0 else size) = effective := by
  rcases h with rfl | ⟨rfl, default⟩
  · have given : size ≠ 0 := by
      rintro rfl
      exact absurd sized (by decide)
    rw [if_neg given]
  · rw [if_pos rfl, default]
    rfl

/-- Where the filter is written, a page is asked for with its text and the options of the page. -/
theorem value_plan_getPageData (r : Repository) {f : Filter} {text : String}
    (compiles : (r.dialect.compileFilter f).value = .ok text) (page size : UInt64)
    (sorts : List SortField) :
    (r.plan (T := T) (.getPageData page size f sorts)).run.value =
      .ok ⟨.find text ((FindOptions.sorted (r.dialect.compileSort sorts).value).paged page
        (if size = 0 then r.defaultPageSize.getD 0 else size)), fun rows => rows⟩ :=
  value_bind_of_ok compiles

section

variable {d : Driver σ T} {rows : σ → String → Option Document → List T} (serves : d.Serves rows)
  {r : Repository} {f : Filter} {text : String}
  (compiles : (r.dialect.compileFilter f).value = .ok text) {size effective : UInt64}
  (chosen : r.PageSize size effective) (sized : 0 < effective)
include serves compiles chosen sized

/-- A page is a part of the rows, which are still there when it has been read. -/
theorem getPageData_serves (sorts : List SortField) {s : σ} {found : List T}
    (held : rows s text (r.dialect.compileSort sorts).value = found)
    (fits : found.length < UInt64.size) {page : UInt64} (counted : 1 ≤ page) :
    let run := r.getPageData d page size f sorts s
    run.result = .ok ((found.drop ((page.toNat - 1) * effective.toNat)).take effective.toNat) ∧
      rows run.state = rows s := by
  intro run
  let options := (FindOptions.sorted (r.dialect.compileSort sorts).value).paged page effective
  have ready := r.value_plan_getPageData (T := T) compiles page size sorts
  rw [chosen.getD sized] at ready
  have follows : run.Agrees (fun _ => false) _ :=
    r.getPageData_agrees (fun _ _ => rfl) d page size f sorts s
  rw [carryOut_of_ok ready] at follows
  have sorting : options.sort = (r.dialect.compileSort sorts).value :=
    FindOptions.sort_paged _ page effective
  have part := FindOptions.apply_paged fits (r.dialect.compileSort sorts).value counted sized
  have answer : (d.perform (.find text options) s).result = .ok (options.apply found) := by
    rw [serves.result, sorting, held]
  constructor
  · refine follows.result.trans ?_
    show Except.map _ (d.perform (.find text options) s).result = _
    rw [answer, ← part]
    rfl
  · rw [follows.state]
    exact serves.kept text options s

/-- Page by page, no row is left out and none is read twice. -/
theorem firstPages_serves (sorts : List SortField) {s : σ} {found : List T}
    (held : rows s text (r.dialect.compileSort sorts).value = found)
    (fits : found.length < UInt64.size) (k : Nat) (counted : k < UInt64.size) :
    let run := r.firstPages d size f sorts k s
    run.result = .ok (found.take (k * effective.toNat)) ∧ rows run.state = rows s := by
  induction k with
  | zero => simp [firstPages, pure, Action.pure]
  | succ k ih =>
    obtain ⟨earlier, kept⟩ := ih (by omega)
    have number : (UInt64.ofNat (k + 1)).toNat = k + 1 := UInt64.toNat_ofNat_of_lt' counted
    have positive : 1 ≤ UInt64.ofNat (k + 1) := by
      rw [UInt64.le_iff_toNat_le, number]
      exact Nat.le_add_left 1 k
    -- The earlier pages have left the rows in place for the next one.
    obtain ⟨page, still⟩ := getPageData_serves serves compiles chosen sized sorts
      ((congrFun (congrFun kept text) _).trans held) fits positive
    rw [number, Nat.add_sub_cancel] at page
    have joined : found.take (k * effective.toNat) ++
        (found.drop (k * effective.toNat)).take effective.toNat =
          found.take ((k + 1) * effective.toNat) := by
      rw [← List.take_add, Nat.succ_mul]
    simp only [firstPages, bind, Action.bind, earlier, page, pure, Action.pure, joined]
    exact ⟨trivial, still.trans kept⟩

end

/-- Pages of one size share a result out among them, over a store whose finds skip and limit and
change nothing. A page holds the rows between two multiples of the size, the first pages together
hold the rows up to a multiple, and a page that begins behind the last row is empty. The multiples
are true products, also where they are beyond the words. -/
theorem pages_share_result {d : Driver σ T} {rows : σ → String → Option Document → List T}
    (serves : d.Serves rows) (r : Repository) {f : Filter} {text : String}
    (compiles : (r.dialect.compileFilter f).value = .ok text) (sorts : List SortField)
    {size effective : UInt64} (chosen : r.PageSize size effective) (sized : 0 < effective)
    {s : σ} {found : List T} (held : rows s text (r.dialect.compileSort sorts).value = found)
    (fits : found.length < UInt64.size) :
    (∀ page : UInt64, 1 ≤ page →
      (r.getPageData d page size f sorts s).result =
        .ok (found.extract ((page.toNat - 1) * effective.toNat)
          (min found.length (page.toNat * effective.toNat)))) ∧
    (∀ k, k < UInt64.size →
      (r.firstPages d size f sorts k s).result =
        .ok (found.take (min found.length (k * effective.toNat)))) ∧
    ∀ page : UInt64, 1 ≤ page → found.length ≤ (page.toNat - 1) * effective.toNat →
      (r.getPageData d page size f sorts s).result = .ok [] := by
  have each (page : UInt64) (counted : 1 ≤ page) :=
    (getPageData_serves serves compiles chosen sized sorts held fits counted).1
  refine ⟨?between, ?upTo, ?behind⟩
  case between =>
    intro page counted
    obtain ⟨k, number⟩ := Nat.exists_eq_add_of_le' (UInt64.le_iff_toNat_le.mp counted)
    rw [each page counted]
    rw [show page.toNat = k + 1 from number, Nat.add_sub_cancel, Nat.succ_mul, extract_min_length]
  case upTo =>
    intro k counted
    rw [(firstPages_serves serves compiles chosen sized sorts held fits k counted).1, Nat.min_comm,
      ← List.take_eq_take_min]
  case behind =>
    intro page counted behind
    rw [each page counted, List.drop_of_length_le behind, List.take_nil]

/-- Three rows on pages of two, the default here: the second page holds the third row, the last page
that there is holds none, and two pages hold all. -/
theorem pages_of_two_in_memory :
    let r := ({} : Repository).withDefaultPageSize (some 2)
    let rows := ["a", "b", "c"]
    let page (n : UInt64) := (r.getPageData Entity.inMemory n 0 (.byId "k") [] rows).result
    let first (k : Nat) := (r.firstPages Entity.inMemory 0 (.byId "k") [] k rows).result
    page 2 = .ok ["c"] ∧ page (UInt64.ofNat (UInt64.size - 1)) = .ok [] ∧
      first 2 = .ok rows := by
  intro r rows page first
  obtain ⟨text, written⟩ : ∃ text, (r.dialect.compileFilter (.byId "k")).value = .ok text :=
    ⟨_, rfl⟩
  obtain ⟨between, upTo, behind⟩ := pages_share_result (Entity.inMemory_serves (T := String)) r
    written [] (.inr ⟨rfl, rfl⟩) (by decide) (s := rows) rfl (by decide)
  exact ⟨between 2 (by decide), behind _ (by decide) (by decide), upTo 2 (by decide)⟩

end Repository
end DocQuery
