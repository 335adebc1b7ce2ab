import Mathlib.Data.List.TakeWhile
import DocQuery.Proofs.Toml.OneLine
/-!
# Texts of TOML over several lines

Between three quotes and three quotes at most two may stand in a row. Where a run of quotes is long
enough to close the text, the last three of it do, and those before them belong to the text.
-/
namespace DocQuery.Toml

/-- No more than `limit` of the quotes stand in a row, so many of them before the text. -/
def RunsWithin (quote : Char) (limit : Nat) : Nat → List Char → Prop
  | _, [] => True
  | run, c :: rest =>
    if c = quote then run < limit ∧ RunsWithin quote limit (run + 1) rest
    else RunsWithin quote limit 0 rest

section

variable {quote : Char} {limit run : Nat} {c : Char} {s : List Char}

theorem RunsWithin.head (h : RunsWithin quote limit run (quote :: s)) : run < limit := by
  rw [RunsWithin, if_pos rfl] at h
  exact h.1

theorem RunsWithin.behind_quote (h : RunsWithin quote limit run (quote :: s)) :
    RunsWithin quote limit (run + 1) s := by
  rw [RunsWithin, if_pos rfl] at h
  exact h.2

theorem runsWithin_cons_of_ne (other : c ≠ quote) :
    RunsWithin quote limit run (c :: s) ↔ RunsWithin quote limit 0 s := by
  rw [RunsWithin, if_neg other]

/-- The count of the longest run bounds all of them. -/
theorem runsWithin_of_foldl {best : Nat}
    (h : (s.foldl (fun (best, run) d => if d = quote then (max best (run + 1), run + 1)
      else (best, 0)) (best, run)).1 ≤ limit) : RunsWithin quote limit run s := by
  have grows : ∀ (s : List Char) (best run : Nat), best ≤ (s.foldl (fun (best, run) d =>
      if d = quote then (max best (run + 1), run + 1) else (best, 0)) (best, run)).1 := by
    intro s
    induction s with
    | nil => exact fun best _ => Nat.le_refl best
    | cons c s ih =>
      intro best run
      rw [List.foldl_cons]
      dsimp only
      split
      · exact Nat.le_trans (Nat.le_max_left best (run + 1)) (ih _ _)
      · exact ih _ _
  induction s generalizing best run with
  | nil => exact True.intro
  | cons c s ih =>
    rw [List.foldl_cons] at h
    rw [RunsWithin]
    dsimp only at h
    split at h
    next same =>
      rw [if_pos same]
      have longest : max best (run + 1) ≤ limit := Nat.le_trans (grows s _ _) h
      exact ⟨by omega, ih h⟩
    next other =>
      rw [if_neg other]
      exact ih h

theorem runsWithin_of_longestRun (h : longestRun quote s ≤ limit) : RunsWithin quote limit 0 s :=
  runsWithin_of_foldl h

/-- Where no quote may stand there is none. -/
theorem RunsWithin.not_mem (h : RunsWithin quote 0 run s) : quote ∉ s := by
  induction s generalizing run with
  | nil => exact List.not_mem_nil
  | cons c s ih =>
    by_cases same : c = quote
    · subst same
      exact absurd h.head (Nat.not_lt_zero run)
    · have behind := ih ((runsWithin_cons_of_ne same).mp h)
      simp [behind, Ne.symm same]

theorem RunsWithin.front_le (h : RunsWithin quote limit run s) (start : run ≤ limit) :
    (s.takeWhile (· = quote)).length + run ≤ limit := by
  induction s generalizing run with
  | nil => simpa using start
  | cons c s ih =>
    by_cases same : c = quote
    · subst same
      have room := h.head
      have behind := ih h.behind_quote room
      simp only [List.takeWhile_cons, decide_true, if_true, List.length_cons]
      omega
    · simpa [same] using start

end

section

variable {quote : Char} {s rest : List Char}

/-- Quotes in front of the closing ones are counted with them if nothing else is left. -/
theorem takeWhile_closing (apart : rest.head? ≠ some quote) :
    (s ++ quote :: quote :: quote :: rest).takeWhile (· = quote) = s.takeWhile (· = quote) ∨
    (∀ c ∈ s, c = quote) ∧ (s ++ quote :: quote :: quote :: rest).takeWhile (· = quote) =
      s ++ [quote, quote, quote] := by
  induction s with
  | nil =>
    have none : rest.takeWhile (· = quote) = [] := by
      cases rest with
      | nil => rfl
      | cons c rest =>
        have other : c ≠ quote := fun same => apart (by rw [same]; rfl)
        simp [other]
    right
    simp [none]
  | cons c s ih =>
    by_cases same : c = quote
    · subst same
      rcases ih with few | ⟨quotes, all⟩
      · left
        simp [few]
      · right
        simpa [all] using quotes
    · left
      simp [same]

/-- At few quotes of a text either nothing is closed, or the closing quotes are all that follows. -/
theorem closing?_append (few : (s.takeWhile (· = quote)).length ≤ 2)
    (apart : rest.head? ≠ some quote) :
    (s ≠ [] ∧ closing? quote (s ++ quote :: quote :: quote :: rest) = none) ∨
    (∀ c ∈ s, c = quote) ∧
      closing? quote (s ++ quote :: quote :: quote :: rest) = some (s, rest) := by
  unfold closing?
  rcases takeWhile_closing (s := s) apart with front | ⟨quotes, front⟩
  · left
    refine ⟨?_, ?_⟩
    · rintro rfl
      simp at front
    · rw [front, if_pos (by omega)]
  · right
    have same : s.takeWhile (· = quote) = s :=
      List.takeWhile_eq_self_iff.mpr (by simpa using quotes)
    rw [same] at few
    have extra : min ((s ++ [quote, quote, quote]).length - 3) 2 = s.length := by simp; omega
    have whole : List.replicate s.length quote = s :=
      (List.eq_replicate_iff.mpr ⟨rfl, quotes⟩).symm
    have behind : (s ++ quote :: quote :: quote :: rest).drop (s.length + 3) = rest := by
      rw [← List.drop_drop, List.drop_left]
      rfl
    refine ⟨quotes, ?_⟩
    rw [front, if_neg (by simp)]
    dsimp only
    rw [extra, behind, whole]

end

/-- The text up to three closing apostrophes. -/
theorem multiLiteral?_append {s rest : List Char} {run fuel : Nat}
    (plain : ∀ c ∈ s, c ≠ '\r' ∧ (isPlain c || c = '\n') = true)
    (within : RunsWithin '\'' 2 run s) (start : run ≤ 2) (apart : rest.head? ≠ some '\'')
    (enough : s.length < fuel) :
    multiLiteral? fuel (s ++ '\'' :: '\'' :: '\'' :: rest) = some (s, rest) := by
  induction s generalizing run fuel with
  | nil =>
    obtain ⟨fuel, rfl⟩ : ∃ k, fuel = k + 1 := ⟨fuel - 1, by omega⟩
    rcases closing?_append (s := []) (by simp) apart with ⟨impossible, _⟩ | ⟨_, closed⟩
    · exact absurd rfl impossible
    · rw [List.nil_append] at closed ⊢
      rw [multiLiteral?, closed]
  | cons c s ih =>
    rw [List.length_cons] at enough
    obtain ⟨fuel, rfl⟩ : ∃ k, fuel = k + 1 := ⟨fuel - 1, by omega⟩
    obtain ⟨⟨noReturn, visible⟩, others⟩ := List.forall_mem_cons.mp plain
    by_cases same : c = '\''
    · subst same
      have few := within.front_le start
      have behind : multiLiteral? fuel (s ++ '\'' :: '\'' :: '\'' :: rest) = some (s, rest) :=
        ih others within.behind_quote within.head (by omega)
      rcases closing?_append (s := '\'' :: s) (by omega) apart with ⟨_, opened⟩ | ⟨_, closed⟩
      · rw [List.cons_append] at opened ⊢
        rw [multiLiteral?, opened, behind]
        rfl
      · rw [List.cons_append] at closed ⊢
        rw [multiLiteral?, closed]
    · have behind : multiLiteral? fuel (s ++ '\'' :: '\'' :: '\'' :: rest) = some (s, rest) :=
        ih others ((runsWithin_cons_of_ne same).mp within) (by omega) (by omega)
      rw [List.cons_append, multiLiteral?, if_pos visible, behind]
      · rfl
      · exact same
      · rintro _ rfl
        exact absurd rfl noReturn

theorem takeWhile_escapeAll {run : Nat} (start : run ≤ 2) (s : List Char) :
    ((escapeAll true 2 run s).takeWhile (· = '"')).length + run ≤ 2 := by
  induction s generalizing run with
  | nil => simpa [escapeAll] using start
  | cons c s ih =>
    rcases escapeAll_cons true 2 run c s with ⟨_, room, shape⟩ | ⟨tail, shape, _⟩ | ⟨stands, shape⟩
    · have behind := @ih (run + 1) room
      rw [shape]
      simp only [List.takeWhile_cons, decide_true, if_true, List.length_cons]
      omega
    · simpa [shape] using start
    · simpa [shape, stands.noQuote] using start

/-- Only quotes are written as nothing but quotes. -/
theorem eq_of_escapeAll_quotes {run : Nat} {s : List Char}
    (quotes : ∀ c ∈ escapeAll true 2 run s, c = '"') : escapeAll true 2 run s = s := by
  induction s generalizing run with
  | nil => rfl
  | cons c s ih =>
    rcases escapeAll_cons true 2 run c s with ⟨quote, _, shape⟩ | ⟨tail, shape, _⟩ | ⟨stands, shape⟩
    · rw [shape] at quotes ⊢
      rw [quote, ih (List.forall_mem_cons.mp quotes).2]
    · rw [shape] at quotes
      exact absurd (quotes '\\' List.mem_cons_self) (by decide)
    · rw [shape] at quotes
      exact absurd (quotes c List.mem_cons_self) stands.noQuote

/-- The escaped text up to three closing quotes. -/
theorem multiBasic?_escapeAll {s rest : List Char} {run fuel : Nat} (start : run ≤ 2)
    (apart : rest.head? ≠ some '"') (enough : s.length < fuel) :
    multiBasic? fuel (escapeAll true 2 run s ++ '"' :: '"' :: '"' :: rest) = some (s, rest) := by
  induction s generalizing run fuel with
  | nil =>
    obtain ⟨fuel, rfl⟩ : ∃ k, fuel = k + 1 := ⟨fuel - 1, by omega⟩
    rcases closing?_append (s := []) (by simp) apart with ⟨impossible, _⟩ | ⟨_, closed⟩
    · exact absurd rfl impossible
    · rw [List.nil_append] at closed
      rw [escapeAll, List.nil_append, multiBasic?, closed]
  | cons c s ih =>
    rw [List.length_cons] at enough
    obtain ⟨fuel, rfl⟩ : ∃ k, fuel = k + 1 := ⟨fuel - 1, by omega⟩
    have fresh := @ih 0 fuel (by omega) (by omega)
    have few := takeWhile_escapeAll start (c :: s)
    rcases escapeAll_cons true 2 run c s with ⟨rfl, room, shape⟩ | ⟨tail, shape, read⟩ |
      ⟨stands, shape⟩
    · have behind := @ih (run + 1) fuel room (by omega)
      rcases closing?_append (s := escapeAll true 2 run ('"' :: s)) (by omega) apart with
        ⟨_, opened⟩ | ⟨quotes, closed⟩
      · rw [shape, List.cons_append] at opened ⊢
        rw [multiBasic?, opened, behind]
        rfl
      · rw [eq_of_escapeAll_quotes quotes, List.cons_append] at closed ⊢
        rw [multiBasic?, closed]
    · rw [shape, List.cons_append, List.append_assoc, multiBasic?, (read _).2, (read _).1]
      simp [fresh]
    · have visible : (isPlain c || c = '\n') = true := by simpa using stands.visible
      rw [shape, List.cons_append, multiBasic?, if_pos visible, fresh]
      · rfl
      · exact stands.noQuote
      · exact stands.noSlash
      · rintro _ rfl
        exact absurd rfl stands.noReturn

end DocQuery.Toml
