import DocQuery.Proofs.Store.Operations
/-!
# Histories of a repository

A store may be asked in two ways, at once and deferred. A history is a run of operations, each done
in one of the two ways; of each operation it tells the answer, the calls that were made and the
state that it left. Where both sides of the store do the same, the ways can be exchanged anywhere in
a run (`Repository.history_eq_of_same_operations`).
-/
namespace DocQuery

/-- The computation where the state has a second part, which it leaves as it is. -/
def Deferred.beside {σ τ α : Type} : Deferred σ α → Deferred (σ × τ) α
  | .done result => .done result
  | .emit r rest => .emit r rest.beside
  | .wait advance rest => .wait (fun s => (advance s.1, s.2)) fun s => (rest s.1).beside

theorem Deferred.await_beside {σ τ α : Type} (x : Deferred σ α) (s : σ) (t : τ) :
    x.beside.await (s, t) =
      ⟨(x.await s).result, ((x.await s).state, t), (x.await s).records⟩ := by
  induction x generalizing s with
  | done result => rfl
  | emit r rest ih => simp [Deferred.beside, Deferred.await, ih]
  | wait advance rest ih => exact ih _ _

/-- The deferred driver that also keeps the calls that were made, oldest first. -/
def DeferredDriver.recorded {σ T : Type} (d : DeferredDriver σ T) :
    DeferredDriver (σ × List (Call T)) T where
  perform c := .wait (fun s => (s.1, s.2 ++ [c])) fun _ => (d.perform c).beside

theorem DeferredDriver.awaited_recorded {σ T : Type} (d : DeferredDriver σ T) :
    d.recorded.awaited = d.awaited.recorded := by
  have each (c : Call T) : (d.recorded.perform c).await = d.awaited.recorded.perform c := by
    funext ⟨s, calls⟩
    exact (d.perform c).await_beside s (calls ++ [c])
  exact congrArg Driver.mk (funext each)

/-- Drivers that agree still do when they keep their calls. -/
theorem Driver.recorded_agrees {σ T : Type} {keep : Record → Bool} {d e : Driver σ T}
    (alike : ∀ c, (d.perform c).Agrees keep (e.perform c)) (c : Call T) :
    (d.recorded.perform c).Agrees keep (e.recorded.perform c) := by
  rintro ⟨s, calls⟩
  obtain ⟨results, states, logs⟩ := alike c s
  refine ⟨results, ?_, logs⟩
  show ((d.perform c s).state, calls ++ [c]) = ((e.perform c s).state, calls ++ [c])
  rw [states]

/-- A store that answers at once and, if asked so, after some waiting. -/
structure DualDriver (σ T : Type) where
  now : Driver σ T
  later : DeferredDriver σ T

/-- Waiting for the deferred side comes to what the other side does, in results and states. The log
is left open. -/
def DualDriver.Alike {σ T : Type} (d : DualDriver σ T) : Prop :=
  ∀ c s, ((d.later.perform c).await s).result = (d.now.perform c s).result ∧
    ((d.later.perform c).await s).state = (d.now.perform c s).state

/-- A line of the log that is no debug line. -/
def Record.loud (r : Record) : Bool :=
  r.level ≠ .debug

/-- How an operation is done: at once, or deferred and waited for. -/
inductive Way where
  | now
  | later
  deriving DecidableEq, Repr

/-- The store as operations of one way see it. -/
def DualDriver.side {σ T : Type} (d : DualDriver σ T) : Way → Driver σ T
  | .now => d.now
  | .later => d.later.awaited

/-- What can be seen of an operation once it is answered. -/
structure Observation (σ T : Type) where
  operation : Operation T
  result : Except Failure operation.Answer
  /-- The calls of this operation. -/
  calls : List (Call T)
  state : σ

namespace Repository

variable {σ T : Type} [Entity T]

/-- Does an operation and keeps the calls that it makes. -/
def run (r : Repository) (d : DualDriver σ T) (w : Way) (op : Operation T) (s : σ) :
    Run (σ × List (Call T)) op.Answer :=
  match w with
  | .now => r.answer d.now.recorded op (s, [])
  | .later => (Later.answer r d.later.recorded op).await (s, [])

def observation (r : Repository) (d : DualDriver σ T) (w : Way) (op : Operation T) (s : σ) :
    Observation σ T :=
  let run := r.run d w op s
  ⟨op, run.result, run.state.2, run.state.1⟩

/-- The observations of operations that are done one after the other. -/
def history (r : Repository) (d : DualDriver σ T) :
    List (Way × Operation T) → σ → List (Observation σ T)
  | [], _ => []
  | (w, op) :: rest, s => r.observation d w op s :: history r d rest (r.observation d w op s).state

/-- What is written to the log meanwhile. -/
def historyLog (r : Repository) (d : DualDriver σ T) : List (Way × Operation T) → σ → List Record
  | [], _ => []
  | (w, op) :: rest, s =>
    (r.run d w op s).records ++ historyLog r d rest (r.observation d w op s).state

/-- Either way an operation comes down to its plan, debug lines aside. -/
theorem run_agrees {keep : Record → Bool} (r : Repository)
    (quiet : ∀ r : Record, r.level = .debug → keep r = false) (d : DualDriver σ T) (w : Way)
    (op : Operation T) (s : σ) :
    (r.run d w op s).Agrees keep (carryOut (d.side w).recorded (r.plan op) (s, [])) := by
  cases w with
  | now => exact r.answer_agrees quiet d.now.recorded op (s, [])
  | later =>
    have follows := congrFun (Later.await_answer r d.later.recorded op) (s, [])
    rw [DeferredDriver.awaited_recorded] at follows
    rw [run, follows]
    exact .refl _

/-- An operation makes the call of its plan, or none. -/
theorem calls_observation (r : Repository) (d : DualDriver σ T) (w : Way) (op : Operation T)
    (s : σ) :
    (r.observation d w op s).calls =
      match (r.plan op).run.value with
      | .ok plan => [plan.call]
      | .error _ => [] := by
  have follows : (r.run d w op s).Agrees (fun _ => false) _ :=
    r.run_agrees (fun _ _ => rfl) d w op s
  have states := follows.state
  show (r.run d w op s).state.2 = _
  cases found : (r.plan op).run.value with
  | error e => rw [states, carryOut_of_error found]
  | ok plan =>
    rw [states, carryOut_of_ok found]
    rfl

/-- What is seen in a history is seen of one of its steps. -/
theorem mem_history {r : Repository} {d : DualDriver σ T} {steps : List (Way × Operation T)}
    {s : σ} {o : Observation σ T} (member : o ∈ r.history d steps s) :
    ∃ w op t, (w, op) ∈ steps ∧ o = r.observation d w op t := by
  induction steps generalizing s with
  | nil => cases member
  | cons step rest ih =>
    obtain ⟨w, op⟩ := step
    rcases List.mem_cons.mp member with rfl | later
    · exact ⟨w, op, s, List.mem_cons_self, rfl⟩
    · obtain ⟨v, other, t, inside, same⟩ := ih later
      exact ⟨v, other, t, List.mem_cons_of_mem _ inside, same⟩

section Exchange

variable {keep : Record → Bool} (quiet : ∀ r : Record, r.level = .debug → keep r = false)
  {d : DualDriver σ T} (alike : ∀ c, (d.later.awaited.perform c).Agrees keep (d.now.perform c))
include quiet alike

/-- One operation may be done the other way. -/
theorem run_exchange (r : Repository) (w v : Way) (op : Operation T) (s : σ) :
    (r.run d w op s).Agrees keep (r.run d v op s) := by
  have sides (w : Way) : ∀ c, ((d.side w).perform c).Agrees keep (d.now.perform c) := by
    cases w with
    | now => exact fun c => .refl _
    | later => exact alike
  have down (w : Way) :
      (r.run d w op s).Agrees keep (carryOut d.now.recorded (r.plan op) (s, [])) :=
    (r.run_agrees quiet d w op s).trans
      (carryOut_agrees (Driver.recorded_agrees (sides w)) (r.plan op) (s, []))
  exact (down w).trans (down v).symm

theorem history_exchange (r : Repository) (steps others : List (Way × Operation T))
    (same : steps.map Prod.snd = others.map Prod.snd) (s : σ) :
    r.history d steps s = r.history d others s ∧
      (r.historyLog d steps s).filter keep = (r.historyLog d others s).filter keep := by
  induction steps generalizing others s with
  | nil =>
    obtain rfl := List.map_eq_nil_iff.mp same.symm
    exact ⟨rfl, rfl⟩
  | cons step rest ih =>
    obtain ⟨other, others, rfl, operation, following⟩ := List.map_eq_cons_iff.mp same.symm
    obtain ⟨w, op⟩ := step
    obtain ⟨v, p⟩ := other
    obtain rfl : p = op := operation
    obtain ⟨results, states, logs⟩ := run_exchange quiet alike r w v p s
    have observations : r.observation d w p s = r.observation d v p s := by
      simp only [observation, results, states]
    obtain ⟨histories, more⟩ := ih others following.symm (r.observation d v p s).state
    simp only [history, historyLog, observations, histories, List.filter_append, logs, more]
    exact ⟨trivial, trivial⟩

end Exchange

/-- Over a store whose two sides do the same, operations look the same whichever way each of them is
done: the same answers and failures, the same calls and the same states. The logs differ in debug
lines only, if those of the store itself do. -/
theorem history_eq_of_same_operations (r : Repository) (d : DualDriver σ T) (alike : d.Alike)
    (steps others : List (Way × Operation T)) (same : steps.map Prod.snd = others.map Prod.snd)
    (s : σ) :
    r.history d steps s = r.history d others s ∧
      ((∀ c s, ((d.later.perform c).await s).records.filter Record.loud =
          (d.now.perform c s).records.filter Record.loud) →
        (r.historyLog d steps s).filter Record.loud =
          (r.historyLog d others s).filter Record.loud) := by
  constructor
  · have nothing (records : List Record) : records.filter (fun _ => false) = [] := by simp
    have silent (c : Call T) :
        (d.later.awaited.perform c).Agrees (fun _ => false) (d.now.perform c) :=
      fun s => ⟨(alike c s).1, (alike c s).2, (nothing _).trans (nothing _).symm⟩
    exact (history_exchange (fun _ _ => rfl) silent r steps others same s).1
  · intro logs
    have quiet (r : Record) (debug : r.level = .debug) : r.loud = false := by
      simp [Record.loud, debug]
    have heard (c : Call T) : (d.later.awaited.perform c).Agrees Record.loud (d.now.perform c) :=
      fun s => ⟨(alike c s).1, (alike c s).2, logs c s⟩
    exact (history_exchange quiet heard r steps others same s).2

/-- Waiting for a store in memory changes nothing that can be seen. -/
theorem history_eq_in_memory :
    let d : DualDriver (List String) String := ⟨Entity.inMemory, Entity.inMemory.deferred⟩
    let mixed : List (Way × Operation String) :=
      [(.now, .insert "a"), (.later, .getById "a"), (.later, .getAllSorted (.byId "a") [])]
    let plain : List (Way × Operation String) :=
      [(.now, .insert "a"), (.now, .getById "a"), (.now, .getAllSorted (.byId "a") [])]
    d.Alike ∧ mixed.map Prod.snd = plain.map Prod.snd ∧
      ({} : Repository).history d mixed [] = ({} : Repository).history d plain [] := by
  intro d mixed plain
  have alike : d.Alike := by
    intro c s
    have same := congrFun (Driver.await_deferred (Entity.inMemory (T := String)) c) s
    exact ⟨congrArg Run.result same, congrArg Run.state same⟩
  exact ⟨alike, rfl, (history_eq_of_same_operations {} d alike mixed plain rfl []).1⟩

end Repository
end DocQuery
