import DocQuery.Failure
import DocQuery.Journal.Record
import DocQuery.Store.FindOptions
/-!
# Drivers

What a store can be asked, and the two ways in which it answers: at once, or after some waiting.
Both are computations over the state of the store. A computation at once gives its result, the new
state and the log records on the way; a deferred one is a chain of such steps, which gives other
work a place between them.
-/
namespace DocQuery

/-- One question to a store that keeps entities of type `T`. -/
inductive Call (T : Type) where
  | find (filter : String) (options : FindOptions)
  | count (filter : String)
  | deleteMany (filter : String)
  | updateMany (filter : String) (update : Document)
  | insertOne (entity : T)
  | replaceOne (id : String) (entity : T)
  | deleteOne (id : String)

namespace Call

def name {T : Type} : Call T → String
  | find _ _ => "find"
  | count _ => "count"
  | deleteMany _ => "delete_many"
  | updateMany _ _ => "update_many"
  | insertOne _ => "insert_one"
  | replaceOne _ _ => "replace_one"
  | deleteOne _ => "delete_one"

/-- What the answer is: rows, a number of documents, or nothing. -/
abbrev Result {T : Type} : Call T → Type
  | find _ _ => List T
  | count _ => UInt64
  | deleteMany _ => UInt64
  | updateMany _ _ => UInt64
  | insertOne _ => Unit
  | replaceOne _ _ => Unit
  | deleteOne _ => UInt64

end Call

/-- What a computation over the state `σ` comes to. -/
structure Run (σ α : Type) where
  result : Except Failure α
  state : σ
  records : List Record

/-- A computation that runs at once. -/
def Action (σ α : Type) : Type :=
  σ → Run σ α

namespace Action

variable {σ α β : Type}

def pure (a : α) : Action σ α := fun s => ⟨.ok a, s, []⟩

def bind (x : Action σ α) (f : α → Action σ β) : Action σ β := fun s =>
  let r := x s
  match r.result with
  | .ok a =>
    let t := f a r.state
    ⟨t.result, t.state, r.records ++ t.records⟩
  | .error e => ⟨.error e, r.state, r.records⟩

instance : Monad (Action σ) where
  pure := Action.pure
  bind := Action.bind

def fail (e : Failure) : Action σ α := fun s => ⟨.error e, s, []⟩

/-- What was found out without the store. -/
def ofLogged (x : Logged (Except Failure α)) : Action σ α := fun s => ⟨x.value, s, x.records⟩

def emit (r : Record) : Action σ Unit := fun s => ⟨.ok (), s, [r]⟩

end Action

/-- A computation that may wait. Waiting takes the state from where the computation left it to
where it finds it again. -/
inductive Deferred (σ α : Type) where
  | done (result : Except Failure α)
  | emit (r : Record) (rest : Deferred σ α)
  | wait (advance : σ → σ) (rest : σ → Deferred σ α)

namespace Deferred

variable {σ α β : Type}

def pure (a : α) : Deferred σ α := .done (.ok a)

def bind (x : Deferred σ α) (f : α → Deferred σ β) : Deferred σ β :=
  match x with
  | .done (.ok a) => f a
  | .done (.error e) => .done (.error e)
  | .emit r rest => .emit r (rest.bind f)
  | .wait advance rest => .wait advance fun s => (rest s).bind f

instance : Monad (Deferred σ) where
  pure := Deferred.pure
  bind := Deferred.bind

def fail (e : Failure) : Deferred σ α := .done (.error e)

/-- The computation with `records` emitted before it. -/
def after (records : List Record) (x : Deferred σ α) : Deferred σ α :=
  records.foldr .emit x

def ofLogged (x : Logged (Except Failure α)) : Deferred σ α :=
  after x.records (.done x.value)

/-- Runs to the end, with no other work in between. -/
def await : Deferred σ α → Action σ α
  | .done result, s => ⟨result, s, []⟩
  | .emit r rest, s =>
    let t := rest.await s
    { t with records := r :: t.records }
  | .wait advance rest, s => (rest (advance s)).await (advance s)

/-- Waiting for a chain is waiting for its links one after the other. -/
theorem await_bind (x : Deferred σ α) (f : α → Deferred σ β) :
    (x.bind f).await = Action.bind x.await fun a => (f a).await := by
  funext s
  induction x generalizing s with
  | done result => cases result <;> simp [Deferred.bind, await, Action.bind]
  | emit r rest ih =>
    rw [Deferred.bind, await, ih]
    simp only [Action.bind, await]
    cases (rest.await s).result <;> rfl
  | wait advance rest ih =>
    rw [Deferred.bind, await, ih]
    rfl

theorem await_after (records : List Record) (x : Deferred σ α) (s : σ) :
    (after records x).await s =
      { x.await s with records := records ++ (x.await s).records } := by
  induction records with
  | nil => rfl
  | cons r rest ih =>
    rw [after, List.foldr_cons, await, ← after, ih]
    rfl

end Deferred

/-- A store that answers at once. -/
structure Driver (σ T : Type) where
  perform : (c : Call T) → Action σ c.Result

/-- A store that answers after some waiting. -/
structure DeferredDriver (σ T : Type) where
  perform : (c : Call T) → Deferred σ c.Result

namespace Driver

variable {σ T : Type}

/-- The driver that waits once before each answer. -/
def deferred (d : Driver σ T) : DeferredDriver σ T where
  perform c := .wait (fun s => s) fun s =>
    let r := d.perform c s
    Deferred.after r.records (.wait (fun _ => r.state) fun _ => .done r.result)

/-- Nobody who waits can tell the deferred driver from the one behind it. -/
theorem await_deferred (d : Driver σ T) (c : Call T) :
    (d.deferred.perform c).await = d.perform c := by
  funext s
  simp [deferred, Deferred.await, Deferred.await_after]

/-- The driver that also keeps the calls that were made, oldest first. -/
def recorded (d : Driver σ T) : Driver (σ × List (Call T)) T where
  perform c := fun (s, calls) =>
    let r := d.perform c s
    ⟨r.result, (r.state, calls ++ [c]), r.records⟩

/-- The driver that refuses the calls of the given names, and all calls if `*` is one of them. -/
def refusing (names : List String) (d : Driver σ T) : Driver σ T where
  perform c :=
    if names.contains c.name || names.contains "*" then
      Action.fail (.driver (c.name ++ " refused"))
    else d.perform c

end Driver
end DocQuery
