import DocQuery.Text.Blank
import Mathlib.Data.List.Forall2
import Mathlib.Data.List.TakeWhile
/-!
# Blanks around a text and the case of its letters

Trimming takes away exactly the blanks at both ends: what is left has none there, and blanks that
are added change nothing. A text in small letters is what is left of any text that differs from it
in the case of the letters `A` to `Z` alone.
-/
namespace DocQuery.Text

/-- Nothing but blanks. -/
def Blank (s : String) : Prop :=
  ∀ c ∈ s.toList, isBlank c = true

theorem blank_empty : Blank "" := by
  simp [Blank]

theorem trimList_append {front back : List Char} (before : ∀ c ∈ front, isBlank c = true)
    (s : List Char) (after : ∀ c ∈ back, isBlank c = true) :
    trimList (front ++ s ++ back) = trimList s := by
  have behind : ∀ c ∈ back.reverse, isBlank c = true := fun c member =>
    after c (List.mem_reverse.mp member)
  rw [trimList, trimList, List.append_assoc, List.dropWhile_append_of_pos before,
    List.dropWhile_append]
  by_cases all : s.dropWhile isBlank = []
  · have gone : back.dropWhile isBlank = [] := List.dropWhile_eq_nil_iff.mpr after
    simp [all, gone]
  · have some : (s.dropWhile isBlank).isEmpty = false := by simpa using all
    rw [some, if_neg Bool.false_ne_true, List.reverse_append,
      List.dropWhile_append_of_pos behind]

theorem exists_eq_append_trimList (s : List Char) : ∃ front back,
    (∀ c ∈ front, isBlank c = true) ∧ (∀ c ∈ back, isBlank c = true) ∧
      s = front ++ trimList s ++ back := by
  have blanks : ∀ l : List Char, ∀ c ∈ l.takeWhile isBlank, isBlank c = true := fun l _ member =>
    List.mem_takeWhile_imp member
  refine ⟨s.takeWhile isBlank, ((s.dropWhile isBlank).reverse.takeWhile isBlank).reverse,
    blanks s, ?_, ?_⟩
  · intro c member
    exact blanks _ c (List.mem_reverse.mp member)
  · rw [trimList, List.append_assoc, ← List.reverse_append, List.takeWhile_append_dropWhile,
      List.reverse_reverse, List.takeWhile_append_dropWhile]

theorem trimList_trimList (s : List Char) : trimList (trimList s) = trimList s := by
  obtain ⟨front, back, before, after, whole⟩ := exists_eq_append_trimList s
  have again := trimList_append before (trimList s) after
  rw [← whole] at again
  exact again.symm

theorem trimList_of_not_blank {s : List Char} (visible : ∀ c ∈ s, isBlank c = false) :
    trimList s = s := by
  have kept : ∀ l : List Char, (∀ c ∈ l, isBlank c = false) → l.dropWhile isBlank = l := by
    intro l all
    cases l with
    | nil => rfl
    | cons c l => simp [all c List.mem_cons_self]
  rw [trimList, kept s visible, kept s.reverse fun c member =>
    visible c (List.mem_reverse.mp member), List.reverse_reverse]

theorem trim_append {before after : String} (front : Blank before) (s : String)
    (back : Blank after) : trim (before ++ s ++ after) = trim s := by
  rw [trim, String.toList_append, String.toList_append, trimList_append front _ back]
  rfl

theorem trim_trim (s : String) : trim (trim s) = trim s := by
  rw [trim, trim, String.toList_ofList, trimList_trimList]

/-- A text is what is left of it, with blanks around. -/
theorem exists_eq_append_trim (s : String) :
    ∃ before after, Blank before ∧ Blank after ∧ s = before ++ trim s ++ after := by
  obtain ⟨front, back, before, after, whole⟩ := exists_eq_append_trimList s.toList
  refine ⟨String.ofList front, String.ofList back, by simpa [Blank] using before,
    by simpa [Blank] using after, ?_⟩
  apply String.toList_inj.mp
  simpa [trim] using whole

/-- The characters are the same, or the first is a small letter and the second its capital. -/
def SameLetter (c d : Char) : Prop :=
  d = c ∨ ∃ i < 26, c = Char.ofNat (97 + i) ∧ d = Char.ofNat (65 + i)

/-- The text is the word, with any of its letters `a` to `z` as capitals. -/
def InAnyCase (word s : String) : Prop :=
  List.Forall₂ SameLetter word.toList s.toList

theorem toLower_capital {i : Nat} (h : i < 26) :
    (Char.ofNat (65 + i)).toLower = Char.ofNat (97 + i) := by
  have table : ∀ i : Fin 26, (Char.ofNat (65 + i.val)).toLower = Char.ofNat (97 + i.val) := by
    decide
  exact table ⟨i, h⟩

theorem toLower_cases (d : Char) : d.toLower = d ∨ ∃ i < 26, d = Char.ofNat (65 + i) := by
  by_cases capital : d.val ≥ 'A'.val ∧ d.val ≤ 'Z'.val
  · have low : 65 ≤ d.toNat := UInt32.le_iff_toNat_le.mp capital.1
    have high : d.toNat ≤ 90 := UInt32.le_iff_toNat_le.mp capital.2
    refine Or.inr ⟨d.toNat - 65, by omega, ?_⟩
    rw [Nat.add_sub_cancel' low, Char.ofNat_toNat]
  · exact Or.inl (dif_neg capital)

theorem toLower_eq_iff {c : Char} (small : c.toLower = c) (d : Char) :
    d.toLower = c ↔ SameLetter c d := by
  constructor
  · intro lowered
    rcases toLower_cases d with same | ⟨i, h, rfl⟩
    · exact Or.inl (same.symm.trans lowered)
    · exact Or.inr ⟨i, h, lowered.symm.trans (toLower_capital h), rfl⟩
  · rintro (rfl | ⟨i, h, rfl, rfl⟩)
    · exact small
    · exact toLower_capital h

/-- Making letters small gives a word of small letters exactly if the text is the word in some
case. -/
theorem lower_eq_iff {word : String} (small : ∀ c ∈ word.toList, c.toLower = c) (s : String) :
    lower s = word ↔ InAnyCase word s := by
  have lists : ∀ w t : List Char, (∀ c ∈ w, c.toLower = c) →
      (t.map Char.toLower = w ↔ List.Forall₂ SameLetter w t) := by
    intro w t
    induction t generalizing w with
    | nil => cases w <;> simp
    | cons d t ih =>
      intro small
      cases w with
      | nil => simp
      | cons c w =>
        obtain ⟨first, others⟩ := List.forall_mem_cons.mp small
        rw [List.map_cons, List.cons.injEq, List.forall₂_cons, ih w others, toLower_eq_iff first]
  rw [lower, InAnyCase, ← lists word.toList s.toList small, ← String.toList_inj,
    String.toList_ofList]

theorem toLower_of_isBlank {c : Char} (blank : isBlank c = true) : c.toLower = c := by
  rcases toLower_cases c with same | ⟨i, h, rfl⟩
  · exact same
  · have visible : ∀ i : Fin 26, isBlank (Char.ofNat (65 + i.val)) = false := by decide
    rw [visible ⟨i, h⟩] at blank
    cases blank

end DocQuery.Text
