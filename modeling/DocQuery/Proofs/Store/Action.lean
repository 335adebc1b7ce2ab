import DocQuery.Store.Driver
/-!
# Comparing actions

Chains of actions can be regrouped, and waiting for a deferred computation gives an action. Two
actions agree if they come to the same result and the same state from every state and write the same
to the log, as far as the lines count that are to be kept.
-/
namespace DocQuery

namespace Action

variable {σ α β γ : Type}

theorem bind_pure (x : Action σ α) : x.bind Action.pure = x := by
  funext s
  simp only [Action.bind, Action.pure]
  cases x s with
  | mk result t records => cases result <;> simp

theorem bind_assoc (x : Action σ α) (f : α → Action σ β) (g : β → Action σ γ) :
    (x.bind f).bind g = x.bind fun a => (f a).bind g := by
  funext s
  simp only [Action.bind]
  cases x s with
  | mk result t records =>
    cases result with
    | error e => rfl
    | ok a =>
      simp only
      cases f a t with
      | mk result u more => cases result <;> simp

end Action

/-- Two runs come to the same, and the lines of the log that are kept are the same. -/
structure Run.Agrees {σ α : Type} (keep : Record → Bool) (x y : Run σ α) : Prop where
  result : x.result = y.result
  state : x.state = y.state
  records : x.records.filter keep = y.records.filter keep

namespace Run.Agrees

variable {σ α : Type} {keep : Record → Bool} {x y z : Run σ α}

theorem refl (x : Run σ α) : x.Agrees keep x :=
  ⟨rfl, rfl, rfl⟩

theorem symm (h : x.Agrees keep y) : y.Agrees keep x :=
  ⟨h.result.symm, h.state.symm, h.records.symm⟩

theorem trans (first : x.Agrees keep y) (second : y.Agrees keep z) : x.Agrees keep z :=
  ⟨first.result.trans second.result, first.state.trans second.state,
    first.records.trans second.records⟩

end Run.Agrees

def Action.Agrees {σ α : Type} (keep : Record → Bool) (x y : Action σ α) : Prop :=
  ∀ s, (x s).Agrees keep (y s)

namespace Action.Agrees

variable {σ α β : Type} {keep : Record → Bool}

theorem refl (x : Action σ α) : x.Agrees keep x :=
  fun s => .refl (x s)

/-- Chains agree if their links do. -/
theorem bind {x y : Action σ α} {f g : α → Action σ β} (first : x.Agrees keep y)
    (rest : ∀ a, (f a).Agrees keep (g a)) : (x.bind f).Agrees keep (y.bind g) := by
  intro s
  obtain ⟨results, states, logs⟩ := first s
  simp only [Action.bind, ← results, ← states]
  cases (x s).result with
  | error e => exact ⟨rfl, rfl, logs⟩
  | ok a =>
    obtain ⟨results, states, more⟩ := rest a (x s).state
    refine ⟨results, states, ?_⟩
    simp only [List.filter_append, logs, more]

/-- A line that is not kept makes no difference. -/
theorem emit {r : Record} {x y : Action σ α} (dropped : keep r = false) (h : x.Agrees keep y) :
    ((Action.emit r).bind fun _ => x).Agrees keep y := by
  intro s
  obtain ⟨results, states, logs⟩ := h s
  refine ⟨results, states, ?_⟩
  simpa [Action.bind, Action.emit, dropped] using logs

end Action.Agrees

theorem Deferred.await_ofLogged {σ α : Type} (x : Logged (Except Failure α)) :
    (Deferred.ofLogged x).await = (Action.ofLogged x : Action σ α) := by
  funext s
  simp [Deferred.ofLogged, Deferred.await_after, Deferred.await, Action.ofLogged]

/-- The store behind a deferred driver as whoever waits for each answer sees it. -/
def DeferredDriver.awaited {σ T : Type} (d : DeferredDriver σ T) : Driver σ T where
  perform c := (d.perform c).await

end DocQuery
