import DocQuery.Environment
import Mathlib.Data.List.TakeWhile
/-!
# References in the names of files

A reference to a variable starts with a dollar sign and has no slash in it. So what follows a slash
is left as it is when references are replaced, if it has no dollar sign (`expand_append_slash`).
-/
namespace DocQuery.Environment

variable {env : Environment} {old new s rest name : List Char}

/-- A text that has no slash does not reach over one. -/
theorem isPrefixOf_append_slash (h : '/' ∉ old) :
    old.isPrefixOf (s ++ '/' :: rest) = old.isPrefixOf s := by
  induction old generalizing s with
  | nil => simp
  | cons c old ih =>
    simp only [List.mem_cons, not_or] at h
    cases s with
    | nil => simp [List.isPrefixOf, Ne.symm h.1]
    | cons d s => simp [List.isPrefixOf, ih h.2]

theorem opening_eq : opening = ['$', 'E', 'N', 'V', '\x7b'] := by decide

theorem isNamePart_slash : isNamePart '/' = false := by decide +kernel

theorem takeWhile_append_slash :
    (s ++ '/' :: rest).takeWhile isNamePart = s.takeWhile isNamePart := by
  induction s with
  | nil => simp [isNamePart_slash]
  | cons c s ih => by_cases part : isNamePart c <;> simp [part, ih]

theorem reference?_append_slash : reference? (s ++ '/' :: rest) = reference? s := by
  rw [reference?, reference?, isPrefixOf_append_slash (by decide)]
  split
  next opened =>
    obtain ⟨s, rfl⟩ := List.isPrefixOf_iff_prefix.mp opened
    have inside : (s.takeWhile isNamePart).length ≤ s.length := (List.takeWhile_prefix isNamePart).length_le
    have closed : ((s ++ '/' :: rest).drop (s.takeWhile isNamePart).length).head? = some '}' ↔
        (s.drop (s.takeWhile isNamePart).length).head? = some '}' := by
      rw [List.drop_append_of_le_length inside]
      cases s.drop (s.takeWhile isNamePart).length <;> simp
    simp only [List.append_assoc, List.drop_left, takeWhile_append_slash, closed]
  · rfl

theorem reference?_of_noDollar (h : '$' ∉ s) : reference? s = none := by
  have unopened : ¬ opening.isPrefixOf s = true := by
    intro opened
    obtain ⟨rest, rfl⟩ := List.isPrefixOf_iff_prefix.mp opened
    simp [opening_eq] at h
  rw [reference?, if_neg unopened]

theorem noSlash_of_reference? (found : reference? s = some name) : '/' ∉ name := by
  simp only [reference?] at found
  split at found
  · split at found
    · cases found
      intro member
      exact absurd (List.mem_takeWhile_imp member) (by simp [isNamePart_slash])
    · cases found
  · cases found

theorem references_of_noDollar (h : '$' ∉ s) : references s = [] := by
  induction s with
  | nil => rfl
  | cons c s ih =>
    rw [references, reference?_of_noDollar h, ih fun member => h (List.mem_cons_of_mem c member)]
    rfl

theorem references_append_slash (h : '$' ∉ rest) :
    references (s ++ '/' :: rest) = references s := by
  induction s with
  | nil => exact references_of_noDollar (by simpa using h)
  | cons c s ih =>
    rw [List.cons_append, references, references, ih, ← List.cons_append, reference?_append_slash]

theorem noSlash_of_mem_references (member : name ∈ references s) : '/' ∉ name := by
  induction s with
  | nil => cases member
  | cons c s ih =>
    rw [references, List.mem_append] at member
    rcases member with here | later
    · exact noSlash_of_reference? (by simpa using here)
    · exact ih later

/-- Only what starts with the first character of `old` is replaced. -/
theorem replaceFrom_of_noDollar (h : '$' ∉ s) (opened : old.head? = some '$') :
    replaceFrom old new 0 s = s := by
  induction s with
  | nil => rfl
  | cons c s ih =>
    simp only [List.mem_cons, not_or] at h
    have other : ¬ old.isPrefixOf (c :: s) = true := by
      intro starts
      obtain ⟨rest, split⟩ := List.isPrefixOf_iff_prefix.mp starts
      cases old with
      | nil => cases opened
      | cons d old =>
        obtain rfl : d = '$' := by simpa using opened
        exact h.1 (List.cons.inj split).1
    rw [replaceFrom, if_neg other, ih h.2]

theorem replaceFrom_append_slash {passed : Nat} (within : passed ≤ s.length)
    (h : '$' ∉ rest) (opened : old.head? = some '$') (noSlash : '/' ∉ old) :
    replaceFrom old new passed (s ++ '/' :: rest) = replaceFrom old new passed s ++ '/' :: rest := by
  induction s generalizing passed with
  | nil =>
    obtain rfl : passed = 0 := by simpa using within
    exact replaceFrom_of_noDollar (by simpa using h) opened
  | cons c s ih =>
    cases passed with
    | succ passed =>
      rw [List.cons_append, replaceFrom, replaceFrom, ih (by simpa using within)]
    | zero =>
      have same : old.isPrefixOf (c :: (s ++ '/' :: rest)) = old.isPrefixOf (c :: s) :=
        isPrefixOf_append_slash (s := c :: s) noSlash
      rw [List.cons_append, replaceFrom, replaceFrom, same]
      split
      next starts =>
        obtain ⟨more, split⟩ := List.isPrefixOf_iff_prefix.mp starts
        have length := congrArg List.length split
        rw [ih (by simp at length; omega), List.append_assoc]
      · rw [ih (Nat.zero_le _), List.cons_append]

theorem expandName_append_slash (h : '$' ∉ rest) (noSlash : '/' ∉ name) :
    env.expandName (s ++ '/' :: rest) name = env.expandName s name ++ '/' :: rest := by
  rw [expandName, expandName]
  split
  · refine replaceFrom_append_slash (Nat.zero_le _) h ?_ ?_
    · simp [reference, opening_eq]
    · simpa [reference, opening_eq] using noSlash
  · rfl

/-- What follows a slash and has no dollar sign stays as it is. -/
theorem expand_append_slash (above : String) {below : String} (h : '$' ∉ below.toList) :
    env.expand (above ++ "/" ++ below) = env.expand above ++ "/" ++ below := by
  have folded : ∀ names : List (List Char), (∀ name ∈ names, '/' ∉ name) → ∀ s,
      names.foldl env.expandName (s ++ '/' :: below.toList) =
        names.foldl env.expandName s ++ '/' :: below.toList := by
    intro names noSlash
    induction names with
    | nil => exact fun s => rfl
    | cons name names ih =>
      intro s
      rw [List.foldl_cons, List.foldl_cons, expandName_append_slash h (noSlash name (by simp)),
        ih fun n member => noSlash n (List.mem_cons_of_mem name member)]
  have text : (above ++ "/" ++ below).toList = above.toList ++ '/' :: below.toList := by
    simp [String.toList_append]
  rw [expand, expand, text, references_append_slash h,
    folded _ fun name member => noSlash_of_mem_references member]
  simp [← String.toList_inj]

theorem expand_of_noDollar {s : String} (h : '$' ∉ s.toList) : env.expand s = s := by
  rw [expand, references_of_noDollar h]
  simp

end DocQuery.Environment
