import DocQuery.Proofs.Text.Quoted
/-!
# Texts that end at a separator

A text without the separator ends at the first one (`append_separator_inj`). Whatever stands in a
query between a colon and the blank behind it has no blank of its own except inside quotes. Such
texts are put together from bare characters and quoted texts; the first blank that is not quoted
tells where they end (`Solid.append_blank_inj`).
-/
namespace DocQuery

/-- What stands before the first separator is the same in equal texts. -/
theorem append_separator_inj {separator : Char} {s t r q : List Char} (left : separator ∉ s)
    (right : separator ∉ t) (h : s ++ separator :: r = t ++ separator :: q) : s = t ∧ r = q := by
  induction s generalizing t with
  | nil =>
    cases t with
    | nil => exact ⟨rfl, (List.cons.inj h).2⟩
    | cons d t => exact absurd (List.cons.inj h).1 (List.ne_of_not_mem_cons right)
  | cons c s ih =>
    cases t with
    | nil => exact absurd (List.cons.inj h).1.symm (List.ne_of_not_mem_cons left)
    | cons d t =>
      obtain ⟨heads, behind⟩ := List.cons.inj h
      obtain ⟨tails, after⟩ :=
        ih (List.not_mem_of_not_mem_cons left) (List.not_mem_of_not_mem_cons right) behind
      exact ⟨by rw [heads, tails], after⟩

/-- The character neither is a blank nor begins a quoted text. -/
def Bare (c : Char) : Prop :=
  c ≠ ' ' ∧ c ≠ '"'

instance (c : Char) : Decidable (Bare c) :=
  inferInstanceAs (Decidable (c ≠ ' ' ∧ c ≠ '"'))

inductive Solid : List Char → Prop where
  | nil : Solid []
  | bare {c : Char} {s : List Char} (visible : Bare c) (rest : Solid s) : Solid (c :: s)
  | quoted (q : List Char) {s : List Char} (rest : Solid s) : Solid (Quoted.encode q ++ s)

theorem solid_of_bare {s : List Char} (h : ∀ c ∈ s, Bare c) : Solid s := by
  induction s with
  | nil => exact .nil
  | cons c s ih =>
    obtain ⟨visible, rest⟩ := List.forall_mem_cons.mp h
    exact .bare visible (ih rest)

/-- Words that stand in the query language as they are. -/
theorem bare_word {word : List Char} (h : word.all (fun c => decide (Bare c)) = true) :
    ∀ c ∈ word, Bare c := by
  intro c member
  exact of_decide_eq_true (List.all_eq_true.mp h c member)

theorem solid_word {word : List Char} (h : word.all (fun c => decide (Bare c)) = true) :
    Solid word :=
  solid_of_bare (bare_word h)

theorem solid_quoted (s : String) : Solid (quoted s).toList := by
  have whole := Solid.quoted s.toList .nil
  rwa [List.append_nil, ← String.toList_ofList (l := Quoted.encode s.toList)] at whole

namespace Solid

theorem append {s t : List Char} (first : Solid s) (second : Solid t) : Solid (s ++ t) := by
  induction first with
  | nil => exact second
  | bare visible _ ih => exact .bare visible ih
  | quoted q _ ih =>
    rw [List.append_assoc]
    exact .quoted q ih

theorem intercalate {texts : List String} (each : ∀ t ∈ texts, Solid t.toList) :
    Solid (",".intercalate texts).toList := by
  induction texts with
  | nil =>
    rw [String.intercalate_nil]
    exact .nil
  | cons text rest ih =>
    obtain ⟨first, others⟩ := List.forall_mem_cons.mp each
    cases rest with
    | nil =>
      rw [String.intercalate_singleton]
      exact first
    | cons next rest =>
      rw [String.intercalate_cons_cons, String.toList_append, String.toList_append]
      exact (first.append (.bare (by decide) .nil)).append (ih others)

/-- Two such texts with a blank behind them are equal if what they begin is. -/
theorem append_blank_inj {s t r q : List Char} (left : Solid s) (right : Solid t)
    (h : s ++ ' ' :: r = t ++ ' ' :: q) : s = t ∧ r = q := by
  induction left generalizing t with
  | nil =>
    cases right with
    | nil => exact ⟨rfl, (List.cons.inj h).2⟩
    | bare visible _ => exact absurd (List.cons.inj h).1.symm visible.1
    | quoted p _ => exact absurd (List.cons.inj h).1 (by decide)
  | bare visible _ ih =>
    cases right with
    | nil => exact absurd (List.cons.inj h).1 visible.1
    | bare _ rest =>
      obtain ⟨heads, behind⟩ := List.cons.inj h
      obtain ⟨tails, after⟩ := ih rest behind
      exact ⟨by rw [heads, tails], after⟩
    | quoted p _ => exact absurd (List.cons.inj h).1 visible.2
  | quoted p _ ih =>
    cases right with
    | nil => exact absurd (List.cons.inj h).1 (by decide)
    | bare visible _ => exact absurd (List.cons.inj h).1.symm visible.2
    | quoted q rest =>
      rw [List.append_assoc, List.append_assoc] at h
      obtain ⟨texts, behind⟩ := Quoted.encode_append_inj h
      obtain ⟨tails, after⟩ := ih rest behind
      exact ⟨by rw [texts, tails], after⟩

end Solid
end DocQuery
