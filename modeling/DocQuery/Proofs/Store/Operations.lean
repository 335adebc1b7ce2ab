import DocQuery.Proofs.Store.Action
import DocQuery.Store.Deferred
/-!
# Operations and the calls they make

An operation is one method of a repository with its arguments. Its plan is the one call that the
store is to get and what is made of the answer; where a filter or an update has to be written first,
the plan may fail instead. Every method follows the plan of its operation, at once
(`Repository.answer_agrees`) and over a deferred store (`Repository.Later.await_answer`): a plan
that fails is reported and the store is left alone, any other is carried out by exactly one call
(`Repository.answer_one_call`).
-/
namespace DocQuery

/-- A text that is its own key is the smallest entity. -/
instance : Entity String where
  id key := key

inductive Operation (T : Type) where
  | insert (entity : T)
  | update (entity : T)
  | deleteById (key : String)
  | deleteEntity (entity : T)
  | delete (f : Filter)
  | isExistById (key : String)
  | isExist (f : Filter)
  | getById (key : String)
  | getAll
  | getAllFiltered (f : Filter)
  | getAllSorted (f : Filter) (sorts : List SortField)
  | getAllSortedBy (f : Filter) (sort : Option SortField)
  | getPageData (page size : UInt64) (f : Filter) (sorts : List SortField)
  | getCount (f : Filter)
  | updateSet (u : Update)

/-- What an operation is answered with. -/
abbrev Operation.Answer {T : Type} : Operation T → Type
  | insert _ => T
  | update _ => T
  | deleteById _ => UInt64
  | deleteEntity _ => UInt64
  | delete _ => UInt64
  | isExistById _ => Bool
  | isExist _ => Bool
  | getById _ => Option T
  | getAll => List T
  | getAllFiltered _ => List T
  | getAllSorted _ _ => List T
  | getAllSortedBy _ _ => List T
  | getPageData _ _ _ _ => List T
  | getCount _ => UInt64
  | updateSet _ => UInt64

/-- What the dialect gives for the text that selects the documents, if the operation needs one to be
written. -/
def Operation.selector? {T : Type} (dialect : Dialect) :
    Operation T → Option (Except Failure String)
  | delete f | isExist f | getAllFiltered f | getAllSorted f _ | getAllSortedBy f _ |
    getPageData _ _ f _ | getCount f => some (dialect.compileFilter f).value
  | isExistById key | getById key => some (dialect.compileFilter (.byId key)).value
  | updateSet u => some ((dialect.compileUpdate u).value.map (·.filter))
  | insert _ | update _ | deleteById _ | deleteEntity _ | getAll => none

/-- The text by which a call selects documents. -/
def Call.filter? {T : Type} : Call T → Option String
  | find text _ | count text | deleteMany text | updateMany text _ => some text
  | insertOne _ | replaceOne _ _ | deleteOne _ => none

/-- The call that an operation comes to, and what is made of the answer. -/
structure Plan (T α : Type) where
  call : Call T
  reply : call.Result → α

namespace Repository

section

variable {σ T : Type} [Entity T]

/-- The method that an operation stands for. -/
def answer (r : Repository) (d : Driver σ T) : (op : Operation T) → Action σ op.Answer
  | .insert e => insert d e
  | .update e => update d e
  | .deleteById key => deleteById d key
  | .deleteEntity e => deleteEntity d e
  | .delete f => r.delete d f
  | .isExistById key => r.isExistById d key
  | .isExist f => r.isExist d f
  | .getById key => r.getById d key
  | .getAll => getAll d
  | .getAllFiltered f => r.getAllFiltered d f
  | .getAllSorted f sorts => r.getAllSorted d f sorts
  | .getAllSortedBy f sort => r.getAllSortedBy d f sort
  | .getPageData page size f sorts => r.getPageData d page size f sorts
  | .getCount f => r.getCount d f
  | .updateSet u => r.updateSet d u

/-- The same method for a deferred store. -/
def Later.answer (r : Repository) (d : DeferredDriver σ T) :
    (op : Operation T) → Deferred σ op.Answer
  | .insert e => insert d e
  | .update e => update d e
  | .deleteById key => deleteById d key
  | .deleteEntity e => deleteEntity d e
  | .delete f => delete r d f
  | .isExistById key => isExistById r d key
  | .isExist f => isExist r d f
  | .getById key => getById r d key
  | .getAll => getAll d
  | .getAllFiltered f => getAllFiltered r d f
  | .getAllSorted f sorts => getAllSorted r d f sorts
  | .getAllSortedBy f sort => getAllSortedBy r d f sort
  | .getPageData page size f sorts => getPageData r d page size f sorts
  | .getCount f => getCount r d f
  | .updateSet u => updateSet r d u

end

/-- What is made ready before the store is asked: it may fail, and it may write to the log. -/
abbrev Preparation : Type → Type :=
  ExceptT Failure Logged

variable {σ T α β : Type}

def filterText (r : Repository) (f : Filter) : Preparation String :=
  ExceptT.mk (r.dialect.compileFilter f)

def sortClause (r : Repository) (sorts : List SortField) : Preparation (Option Document) :=
  ExceptT.mk ⟨.ok (r.dialect.compileSort sorts).value, (r.dialect.compileSort sorts).records⟩

def compiledUpdate (r : Repository) (u : Update) : Preparation CompiledUpdate :=
  ExceptT.mk (r.dialect.compileUpdate u)

/-- Reads all that a filter matches, with no row skipped and no limit. -/
def listing (r : Repository) (f : Filter) (sorts : List SortField) :
    Preparation (Plan T (List T)) := do
  let text ← r.filterText f
  let clause ← r.sortClause sorts
  pure ⟨.find text { sort := clause, skip := none, limit := none }, fun rows => rows⟩

/-- The one call of each operation. Reads by key are limited to one row; pages are the only other
reads that skip or limit, and a single sort field without a name counts as no field. -/
def plan [Entity T] (r : Repository) : (op : Operation T) → Preparation (Plan T op.Answer)
  | .insert e => pure ⟨.insertOne e, fun _ => e⟩
  | .update e => pure ⟨.replaceOne (Entity.id e) e, fun _ => e⟩
  | .deleteById key => pure ⟨.deleteOne key, fun n => n⟩
  | .deleteEntity e => pure ⟨.deleteOne (Entity.id e), fun n => n⟩
  | .delete f => do
    let text ← r.filterText f
    pure ⟨.deleteMany text, fun n => n⟩
  | .isExistById key => do
    let text ← r.filterText (.byId key)
    pure ⟨.count text, fun n : UInt64 => decide (0 < n)⟩
  | .isExist f => do
    let text ← r.filterText f
    pure ⟨.count text, fun n : UInt64 => decide (0 < n)⟩
  | .getById key => do
    let text ← r.filterText (.byId key)
    pure ⟨.find text { sort := none, skip := none, limit := some 1 }, List.head?⟩
  | .getAll => pure ⟨.find matchAll { sort := none, skip := none, limit := none }, fun rows => rows⟩
  | .getAllFiltered f => r.listing f []
  | .getAllSorted f sorts => r.listing f sorts
  | .getAllSortedBy f sort => r.listing f (sort.toList.filter fun s => s.field ≠ "")
  | .getPageData page size f sorts => do
    let text ← r.filterText f
    let clause ← r.sortClause sorts
    let size := if size = 0 then r.defaultPageSize.getD 0 else size
    pure ⟨.find text ((FindOptions.sorted clause).paged page size), fun rows => rows⟩
  | .getCount f => do
    let text ← r.filterText f
    pure ⟨.count text, fun n => n⟩
  | .updateSet u => do
    let compiled ← r.compiledUpdate u
    pure ⟨.updateMany compiled.filter compiled.update, fun n => n⟩

/-- Carries out a plan once it is ready: one call, or none if there is no plan. -/
def carryOut (d : Driver σ T) (p : Preparation (Plan T α)) : Action σ α :=
  (Action.ofLogged p.run).bind fun p => (d.perform p.call).bind fun a => Action.pure (p.reply a)

theorem carryOut_call (d : Driver σ T) (c : Call T) :
    carryOut d (pure ⟨c, fun a => a⟩) = d.perform c :=
  Action.bind_pure (d.perform c)

theorem ofLogged_bind (x : Preparation α) (f : α → Preparation β) :
    (Action.ofLogged (x >>= f).run : Action σ β) =
      (Action.ofLogged x.run).bind fun a => Action.ofLogged (f a).run := by
  rcases x with ⟨e | a, records⟩
  · show (fun s => (⟨.error e, s, records ++ []⟩ : Run σ β)) = _
    rw [List.append_nil]
    rfl
  · rfl

theorem carryOut_bind (d : Driver σ T) (x : Preparation β) (f : β → Preparation (Plan T α)) :
    carryOut d (x >>= f) = (Action.ofLogged x.run).bind fun b => carryOut d (f b) := by
  rw [carryOut, ofLogged_bind, Action.bind_assoc]
  rfl

/-- A plan that is not ready in the end is reported, and the store is not asked. -/
theorem carryOut_of_error {d : Driver σ T} {p : Preparation (Plan T α)} {e : Failure}
    (failed : p.run.value = .error e) (s : σ) :
    carryOut d p s = ⟨.error e, s, p.run.records⟩ := by
  simp [carryOut, Action.bind, Action.ofLogged, failed]

theorem carryOut_of_ok {d : Driver σ T} {p : Preparation (Plan T α)} {plan : Plan T α}
    (ready : p.run.value = .ok plan) (s : σ) :
    carryOut d p s =
      let answer := d.perform plan.call s
      ⟨answer.result.map plan.reply, answer.state, p.run.records ++ answer.records⟩ := by
  simp only [carryOut, Action.bind, Action.ofLogged, ready, Action.pure]
  cases d.perform plan.call s with
  | mk result t records => cases result <;> simp [Except.map]

section Agreement

variable {keep : Record → Bool}

/-- Drivers that agree carry out a plan in the same way. -/
theorem carryOut_agrees {d e : Driver σ T} (alike : ∀ c, (d.perform c).Agrees keep (e.perform c))
    (p : Preparation (Plan T α)) : (carryOut d p).Agrees keep (carryOut e p) :=
  .bind (.refl _) fun p => .bind (alike p.call) fun _ => .refl _

/-- A method that prepares something first agrees with a plan that does, if the rest agrees. -/
theorem agrees_prepared {d : Driver σ T} {x : Preparation β} {next : β → Action σ α}
    {p : β → Preparation (Plan T α)} (rest : ∀ b, (next b).Agrees keep (carryOut d (p b))) :
    ((Action.ofLogged x.run).bind next).Agrees keep (carryOut d (x >>= p)) := by
  rw [carryOut_bind]
  exact .bind (.refl _) rest

theorem agrees_call (d : Driver σ T) (c : Call T) :
    (d.perform c).Agrees keep (carryOut d (pure ⟨c, fun a => a⟩)) := by
  rw [carryOut_call]
  exact .refl _

end Agreement

theorem singleSort_eq (sort : Option SortField) :
    singleSort sort = sort.toList.filter fun s => s.field ≠ "" := by
  cases sort with
  | none => rfl
  | some s => by_cases unnamed : s.field = "" <;> simp [singleSort, unnamed]

theorem options_sortedOptions (r : Repository) (sorts : List SortField) :
    (options (r.sortedOptions sorts) : Action σ FindOptions) =
      (Action.ofLogged (r.sortClause sorts).run).bind fun clause =>
        Action.pure { sort := clause } :=
  rfl

theorem options_pageOptions (r : Repository) (sorts : List SortField) (page size : UInt64) :
    (options (r.pageOptions sorts page size) : Action σ FindOptions) =
      (Action.ofLogged (r.sortClause sorts).run).bind fun clause => Action.pure
        ((FindOptions.sorted clause).paged page
          (if size = 0 then r.defaultPageSize.getD 0 else size)) := by
  show Action.ofLogged ⟨.ok _, ((r.dialect.compileSort sorts).records ++ []) ++ []⟩ = _
  rw [List.append_nil]
  rfl

section Methods

variable {keep : Record → Bool} (quiet : ∀ r : Record, r.level = .debug → keep r = false)
include quiet

theorem getAllSorted_agrees (r : Repository) (d : Driver σ T) (f : Filter)
    (sorts : List SortField) :
    (r.getAllSorted d f sorts).Agrees keep (carryOut d (r.listing f sorts)) := by
  refine agrees_prepared fun text => .emit (quiet _ rfl) ?_
  show Action.Agrees keep (Action.bind _ _) _
  rw [options_sortedOptions, Action.bind_assoc]
  exact agrees_prepared fun clause => agrees_call d (.find text { sort := clause })

theorem getPageData_agrees (r : Repository) (d : Driver σ T) (page size : UInt64) (f : Filter)
    (sorts : List SortField) [Entity T] :
    (r.getPageData d page size f sorts).Agrees keep
      (carryOut d (r.plan (.getPageData page size f sorts))) := by
  refine agrees_prepared fun text => ?_
  show Action.Agrees keep (Action.bind _ _) _
  rw [options_pageOptions, Action.bind_assoc]
  exact agrees_prepared fun clause => .emit (quiet _ rfl) (agrees_call d _)

/-- A method that answers at once follows the plan of its operation; beyond that it writes debug
lines only. -/
theorem answer_agrees [Entity T] (r : Repository) (d : Driver σ T) (op : Operation T) :
    (r.answer d op).Agrees keep (carryOut d (r.plan op)) := by
  cases op with
  | insert e => exact .refl _
  | update e => exact .refl _
  | deleteById key => exact agrees_call d (.deleteOne key)
  | deleteEntity e => exact agrees_call d (.deleteOne (Entity.id e))
  | delete f =>
    exact agrees_prepared fun text => .emit (quiet _ rfl) (agrees_call d (.deleteMany text))
  | isExistById key => exact agrees_prepared fun text => .refl _
  | isExist f =>
    show Action.Agrees keep (((r.compileFilter f).bind _).bind _) _
    rw [Action.bind_assoc]
    exact agrees_prepared fun text => .refl _
  | getById key => exact agrees_prepared fun text => .refl _
  | getAll => exact agrees_call d (.find matchAll {})
  | getAllFiltered f => exact r.getAllSorted_agrees quiet d f []
  | getAllSorted f sorts => exact r.getAllSorted_agrees quiet d f sorts
  | getAllSortedBy f sort =>
    rw [plan, ← singleSort_eq]
    exact r.getAllSorted_agrees quiet d f (singleSort sort)
  | getPageData page size f sorts => exact r.getPageData_agrees quiet d page size f sorts
  | getCount f => exact agrees_prepared fun text => agrees_call d (.count text)
  | updateSet u => exact agrees_prepared fun compiled => .emit (quiet _ rfl) (agrees_call d _)

end Methods

/-- A preparation that cannot fail after its first step fails there. -/
theorem value_bind_error_iff {x : Preparation α} {f : α → Preparation β} {e : Failure}
    (rest : ∀ a d, (f a).run.value ≠ .error d) :
    (x >>= f).run.value = .error e ↔ x.run.value = .error e := by
  rcases x with ⟨d | a, records⟩
  · show (Except.error d : Except Failure β) = _ ↔ (Except.error d : Except Failure α) = _
    simp
  · exact ⟨fun failed => absurd failed (rest a e), nofun⟩

theorem value_filterText_bind_iff {r : Repository} {f : Filter} {p : String → Preparation α}
    {e : Failure} (rest : ∀ text d, (p text).run.value ≠ .error d) :
    (r.filterText f >>= p).run.value = .error e ↔
      some (r.dialect.compileFilter f).value = some (.error e) :=
  (value_bind_error_iff rest).trans Option.some_inj.symm

/-- A plan fails where the dialect does, with the same failure. -/
theorem plan_error_iff [Entity T] (r : Repository) (op : Operation T) (e : Failure) :
    (r.plan op).run.value = .error e ↔ op.selector? r.dialect = some (.error e) := by
  cases op with
  | insert _ | update _ | deleteById _ | deleteEntity _ | getAll => exact ⟨nofun, nofun⟩
  | delete f | isExistById f | isExist f | getById f | getAllFiltered f | getAllSorted f _
  | getAllSortedBy f _ | getPageData _ _ f _ | getCount f =>
    exact value_filterText_bind_iff fun _ _ => nofun
  | updateSet u =>
    refine Iff.trans (value_bind_error_iff fun _ _ => nofun) ?_
    show (r.dialect.compileUpdate u).value = _ ↔ some _ = _
    cases (r.dialect.compileUpdate u).value <;> simp [Except.map]

theorem value_bind_ok {x : Preparation α} {f : α → Preparation β} {b : β}
    (ready : (x >>= f).run.value = .ok b) :
    ∃ a, x.run.value = .ok a ∧ (f a).run.value = .ok b := by
  rcases x with ⟨d | a, records⟩
  · cases (ready : (Except.error d : Except Failure β) = .ok b)
  · exact ⟨a, rfl, ready⟩

theorem value_bind_of_ok {x : Preparation α} {f : α → Preparation β} {a : α}
    (ready : x.run.value = .ok a) : (x >>= f).run.value = (f a).run.value := by
  rcases x with ⟨d | b, records⟩ <;> cases ready
  rfl

/-- A call that selects documents by a text has the text from the dialect, except where all
documents are read. -/
theorem plan_selects [Entity T] {r : Repository} {op : Operation T} {plan : Plan T op.Answer}
    (ready : (r.plan op).run.value = .ok plan) {text : String}
    (asked : plan.call.filter? = some text) :
    op.selector? r.dialect = some (.ok text) ∨ op = .getAll ∧ text = matchAll := by
  cases op with
  | insert _ | update _ | deleteById _ | deleteEntity _ =>
    cases ready
    cases asked
  | getAll =>
    cases ready
    cases asked
    exact Or.inr ⟨rfl, rfl⟩
  | delete f | isExistById f | isExist f | getById f | getAllFiltered f | getAllSorted f _
  | getAllSortedBy f _ | getPageData _ _ f _ | getCount f =>
    obtain ⟨_, written, rest⟩ := value_bind_ok ready
    cases rest
    cases asked
    exact Or.inl (congrArg some written)
  | updateSet u =>
    obtain ⟨compiled, written, rest⟩ := value_bind_ok ready
    cases rest
    cases asked
    have compiles : (r.dialect.compileUpdate u).value = .ok compiled := written
    exact Or.inl (by rw [Operation.selector?, compiles]; rfl)

namespace Later

theorem await_prepared {d : Driver σ T} {x : Preparation β} {next : β → Deferred σ α}
    {p : β → Preparation (Plan T α)} (rest : ∀ b, (next b).await = carryOut d (p b)) :
    ((Deferred.ofLogged x.run).bind next).await = carryOut d (x >>= p) := by
  rw [Deferred.await_bind, Deferred.await_ofLogged, carryOut_bind]
  exact congrArg _ (funext rest)

theorem await_call (d : DeferredDriver σ T) (c : Call T) :
    (d.perform c).await = carryOut d.awaited (pure ⟨c, fun a => a⟩) :=
  (carryOut_call d.awaited c).symm

theorem await_options (o : Logged FindOptions) :
    (options o : Deferred σ FindOptions).await = Repository.options o :=
  Deferred.await_ofLogged _

theorem await_getAllSorted (r : Repository) (d : DeferredDriver σ T) (f : Filter)
    (sorts : List SortField) :
    (getAllSorted r d f sorts).await = carryOut d.awaited (r.listing f sorts) := by
  refine await_prepared fun text => ?_
  show (Deferred.bind _ _).await = _
  rw [Deferred.await_bind, await_options, options_sortedOptions, Action.bind_assoc, carryOut_bind]
  exact congrArg _ (funext fun clause => await_call d (.find text { sort := clause }))

theorem await_getPageData [Entity T] (r : Repository) (d : DeferredDriver σ T)
    (page size : UInt64) (f : Filter) (sorts : List SortField) :
    (getPageData r d page size f sorts).await =
      carryOut d.awaited (r.plan (.getPageData page size f sorts)) := by
  refine await_prepared fun text => ?_
  show (Deferred.bind _ _).await = _
  rw [Deferred.await_bind, await_options, options_pageOptions, Action.bind_assoc, carryOut_bind]
  exact congrArg _ (funext fun clause => await_call d (.find text _))

/-- A method over a deferred store is the plan of its operation and nothing else. -/
theorem await_answer [Entity T] (r : Repository) (d : DeferredDriver σ T) (op : Operation T) :
    (answer r d op).await = carryOut d.awaited (r.plan op) := by
  cases op with
  | insert e => exact Deferred.await_bind _ _
  | update e => exact Deferred.await_bind _ _
  | deleteById key => exact await_call d (.deleteOne key)
  | deleteEntity e => exact await_call d (.deleteOne (Entity.id e))
  | delete f => exact await_prepared fun text => await_call d (.deleteMany text)
  | isExistById key => exact await_prepared fun text => Deferred.await_bind _ _
  | isExist f =>
    show (((compileFilter r f).bind _).bind _).await = _
    rw [Deferred.await_bind, Deferred.await_bind, Action.bind_assoc, compileFilter,
      Deferred.await_ofLogged, plan, carryOut_bind]
    rfl
  | getById key => exact await_prepared fun text => Deferred.await_bind _ _
  | getAll => exact await_call d (.find matchAll {})
  | getAllFiltered f => exact await_getAllSorted r d f []
  | getAllSorted f sorts => exact await_getAllSorted r d f sorts
  | getAllSortedBy f sort =>
    rw [plan, ← singleSort_eq]
    exact await_getAllSorted r d f (singleSort sort)
  | getPageData page size f sorts => exact await_getPageData r d page size f sorts
  | getCount f => exact await_prepared fun text => await_call d (.count text)
  | updateSet u => exact await_prepared fun compiled => await_call d _

end Later

end Repository
end DocQuery
