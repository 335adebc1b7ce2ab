/-!
# Chains of steps that may fail

What the outcome of a chain says about its links, and the outcome of a walk that takes the same
step for each element of a list and stops at the first failure.
-/
namespace DocQuery

variable {ε α β : Type} {x : Except ε α} {f : α → Except ε β}

/-- A chain succeeds through a success of its first step. -/
theorem bind_eq_ok_iff {b : β} : (x >>= f) = .ok b ↔ ∃ a, x = .ok a ∧ f a = .ok b := by
  constructor
  · intro success
    cases x with
    | error e => cases success
    | ok a => exact ⟨a, rfl, success⟩
  · rintro ⟨a, rfl, second⟩
    exact second

theorem map_eq_ok_iff {g : α → β} {b : β} : x.map g = .ok b ↔ ∃ a, x = .ok a ∧ g a = b := by
  cases x <;> simp [Except.map]

/-- Two checks in a row pass if both do. -/
theorem check_then_eq_ok_iff {first : Except ε Unit} {b : β} {y : Except ε β} :
    (first >>= fun _ => y) = .ok b ↔ first = .ok () ∧ y = .ok b := by
  rw [bind_eq_ok_iff]
  constructor
  · rintro ⟨⟨⟩, passed, second⟩
    exact ⟨passed, second⟩
  · rintro ⟨passed, second⟩
    exact ⟨(), passed, second⟩

/-- A chain fails at its first step or behind it. -/
theorem bind_eq_error_iff {e : ε} :
    (x >>= f) = .error e ↔ x = .error e ∨ ∃ a, x = .ok a ∧ f a = .error e := by
  constructor
  · intro failed
    cases x with
    | error d =>
      cases failed
      exact Or.inl rfl
    | ok a => exact Or.inr ⟨a, rfl, failed⟩
  · rintro (rfl | ⟨a, rfl, second⟩)
    · rfl
    · exact second

section Walk

variable {step : α → Except ε β} (walk : List α → Except ε (List β))

/-- A walk succeeds if every step does, and lists the results. -/
theorem walk_eq_ok_iff (nil : walk [] = .ok [])
    (cons : ∀ a rest, walk (a :: rest) = do
      let b ← step a
      let bs ← walk rest
      .ok (b :: bs)) (as : List α) (bs : List β) :
    walk as = .ok bs ↔ as.map step = bs.map .ok := by
  induction as generalizing bs with
  | nil => cases bs <;> simp [nil]
  | cons a rest ih =>
    simp only [cons, bind_eq_ok_iff, Except.ok.injEq, ih]
    constructor
    · rintro ⟨b, first, others, following, rfl⟩
      simp [first, following]
    · intro h
      cases bs with
      | nil => simp at h
      | cons b others =>
        obtain ⟨first, following⟩ := List.cons.inj h
        exact ⟨b, first, others, following, rfl⟩

/-- A walk fails at the first step that fails. -/
theorem walk_eq_error_iff (nil : walk [] = .ok [])
    (cons : ∀ a rest, walk (a :: rest) = do
      let b ← step a
      let bs ← walk rest
      .ok (b :: bs)) (as : List α) (e : ε) :
    walk as = .error e ↔ ∃ front a rest, as = front ++ a :: rest ∧
      (∀ c ∈ front, ∃ b, step c = .ok b) ∧ step a = .error e := by
  induction as with
  | nil => simp [nil]
  | cons a rest ih =>
    rw [cons]
    constructor
    · intro failed
      rcases bind_eq_error_iff.mp failed with first | ⟨b, success, later⟩
      · exact ⟨[], a, rest, rfl, List.forall_mem_nil _, first⟩
      · rcases bind_eq_error_iff.mp later with following | ⟨_, _, last⟩
        · obtain ⟨front, c, behind, rfl, passed, bad⟩ := ih.mp following
          exact ⟨a :: front, c, behind, rfl, List.forall_mem_cons.mpr ⟨⟨b, success⟩, passed⟩, bad⟩
        · cases last
    · rintro ⟨front, c, behind, split, passed, bad⟩
      cases front with
      | nil =>
        obtain ⟨rfl, rfl⟩ := List.cons.inj split
        exact bind_eq_error_iff.mpr (Or.inl bad)
      | cons d front =>
        obtain ⟨rfl, rfl⟩ := List.cons.inj split
        obtain ⟨⟨b, success⟩, others⟩ := List.forall_mem_cons.mp passed
        have following := ih.mpr ⟨front, c, behind, rfl, others, bad⟩
        exact bind_eq_error_iff.mpr (Or.inr ⟨b, success, bind_eq_error_iff.mpr (Or.inl following)⟩)

/-- The failure of a walk is the failure of one of its steps. -/
theorem walk_error (nil : walk [] = .ok [])
    (cons : ∀ a rest, walk (a :: rest) = do
      let b ← step a
      let bs ← walk rest
      .ok (b :: bs)) (as : List α) (e : ε) (failed : walk as = .error e) :
    ∃ a ∈ as, step a = .error e := by
  obtain ⟨front, a, rest, rfl, _, bad⟩ := (walk_eq_error_iff walk nil cons as e).mp failed
  exact ⟨a, List.mem_append_right front List.mem_cons_self, bad⟩

/-- Steps that all succeed have a list of results. -/
theorem exists_results {as : List α} (each : ∀ a ∈ as, ∃ b, step a = .ok b) :
    ∃ bs : List β, as.map step = bs.map .ok := by
  induction as with
  | nil => exact ⟨[], rfl⟩
  | cons a rest ih =>
    obtain ⟨b, first⟩ := each a List.mem_cons_self
    obtain ⟨bs, following⟩ := ih fun d member => each d (List.mem_cons_of_mem a member)
    exact ⟨b :: bs, by rw [List.map_cons, List.map_cons, first, following]⟩

variable {as : List α} {bs : List β} (results : as.map step = bs.map .ok)
include results

/-- In a list of results each element has one. -/
theorem exists_result {a : α} (member : a ∈ as) : ∃ b ∈ bs, step a = .ok b := by
  have found : step a ∈ bs.map .ok := by
    rw [← results]
    exact List.mem_map_of_mem member
  obtain ⟨b, inside, same⟩ := List.mem_map.mp found
  exact ⟨b, inside, same.symm⟩

/-- In a list of results each is the result of an element. -/
theorem exists_origin {b : β} (member : b ∈ bs) : ∃ a ∈ as, step a = .ok b := by
  have found : .ok b ∈ as.map step := by
    rw [results]
    exact List.mem_map_of_mem member
  exact List.mem_map.mp found

end Walk

end DocQuery
