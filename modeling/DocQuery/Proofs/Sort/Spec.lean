import DocQuery.Proofs.Chain
import DocQuery.Proofs.Text.Trim
import DocQuery.Sort.Spec
/-!
# What a sort spec denotes

A spec is a name with blanks around it, or a name and a word for a direction, with blanks around
each and a colon between them. The name may hold colons, since only the last colon counts. The
reader accepts exactly such specs (`SortField.ofSpec_eq_ok_iff`), and what it reads can be written
as a spec again.
-/
namespace DocQuery

theorem splitLast?_append {c : Char} (front : List Char) {back : List Char} (last : c ∉ back) :
    splitLast? c (front ++ c :: back) = some (front, back) := by
  have other : ∀ d ∈ back.reverse, (d != c) = true := by
    intro d member
    have different : d ≠ c := fun same => last (same ▸ List.mem_reverse.mp member)
    simpa using different
  have turned : (front ++ c :: back).reverse = back.reverse ++ c :: front.reverse := by simp
  rw [splitLast?, turned, List.dropWhile_append_of_pos other, List.takeWhile_append_of_pos other]
  simp

theorem splitLast?_eq_none {c : Char} {s : List Char} (absent : c ∉ s) :
    splitLast? c s = none := by
  have other : ∀ d ∈ s.reverse, (d != c) = true := by
    intro d member
    have different : d ≠ c := fun same => absent (same ▸ List.mem_reverse.mp member)
    simpa using different
  have gone : s.reverse.dropWhile (· != c) = [] := List.dropWhile_eq_nil_iff.mpr other
  rw [splitLast?, gone]

/-- A text without the character, or one that stands around its last occurrence. -/
theorem exists_last_or_not_mem (c : Char) (s : List Char) :
    c ∉ s ∨ ∃ front back, s = front ++ c :: back ∧ c ∉ back := by
  by_cases member : c ∈ s
  · obtain ⟨front, back, split, last⟩ := List.eq_append_cons_of_mem (List.mem_reverse.mpr member)
    refine Or.inr ⟨back.reverse, front.reverse, ?_, by simpa using last⟩
    simpa using congrArg List.reverse split
  · exact Or.inl member

/-- The words for a direction, in small letters. -/
def Direction.words : Direction → List String
  | .ascending => ["asc", "ascending", "1"]
  | .descending => ["desc", "descending", "-1"]

theorem Direction.ofWord?_eq_some_iff (word : String) (direction : Direction) :
    ofWord? word = some direction ↔ word ∈ direction.words := by
  constructor
  · intro known
    rw [ofWord?] at known
    split at known
    next up =>
      cases known
      simpa [words, or_assoc] using up
    · split at known
      next down =>
        cases known
        simpa [words, or_assoc] using down
      · cases known
  · intro member
    cases direction with
    | ascending =>
      simp only [words, List.mem_cons, List.not_mem_nil, or_false] at member
      rcases member with rfl | rfl | rfl <;> rfl
    | descending =>
      simp only [words, List.mem_cons, List.not_mem_nil, or_false] at member
      rcases member with rfl | rfl | rfl <;> rfl

/-- The words are in small letters, without blanks and without colons. -/
theorem Direction.word_plain {direction : Direction} {word : String}
    (member : word ∈ direction.words) :
    ∀ c ∈ word.toList, c.toLower = c ∧ Text.isBlank c = false ∧ c ≠ ':' := by
  have table : (ascending.words ++ descending.words).all (fun word =>
      word.toList.all fun c => c.toLower == c && !Text.isBlank c && c != ':') = true := by decide
  have listed : word ∈ ascending.words ++ descending.words := by
    cases direction with
    | ascending => exact List.mem_append_left _ member
    | descending => exact List.mem_append_right _ member
  intro c inside
  have checked := List.all_eq_true.mp (List.all_eq_true.mp table word listed) c inside
  simpa [and_assoc] using checked

/-- The text is a word for the direction, in any case of its letters. -/
def Direction.Spelled (direction : Direction) (s : String) : Prop :=
  ∃ word ∈ direction.words, Text.InAnyCase word s

theorem Direction.ofWord?_lower_iff (direction : Direction) (s : String) :
    ofWord? (Text.lower s) = some direction ↔ direction.Spelled s := by
  rw [ofWord?_eq_some_iff]
  constructor
  · intro member
    have small := fun c inside => (word_plain member c inside).1
    exact ⟨Text.lower s, member, (Text.lower_eq_iff small s).mp rfl⟩
  · rintro ⟨word, member, anyCase⟩
    have small := fun c inside => (word_plain member c inside).1
    rwa [(Text.lower_eq_iff small s).mpr anyCase]

theorem Direction.spelled_of_word {direction : Direction} {word : String}
    (member : word ∈ direction.words) : direction.Spelled word :=
  ⟨word, member, List.forall₂_same.mpr fun _ _ => Or.inl rfl⟩

theorem Direction.Spelled.plain {direction : Direction} {s : String}
    (h : direction.Spelled s) : ∀ c ∈ s.toList, Text.isBlank c = false ∧ c ≠ ':' := by
  have member := (ofWord?_eq_some_iff _ _).mp ((ofWord?_lower_iff direction s).mpr h)
  intro c inside
  have lowered : c.toLower ∈ (Text.lower s).toList := by
    rw [Text.lower, String.toList_ofList]
    exact List.mem_map_of_mem inside
  obtain ⟨_, visible, noColon⟩ := word_plain member c.toLower lowered
  refine ⟨?_, ?_⟩
  · by_contra blank
    rw [Text.toLower_of_isBlank (by simpa using blank)] at visible
    exact blank visible
  · rintro rfl
    exact noColon rfl

namespace SortField

/-- What a spec denotes: a name alone sorts upwards. -/
inductive Denotes : String → SortField → Prop where
  | bare {field before after : String} (named : field ≠ "") (trimmed : Text.trim field = field)
    (noColon : ':' ∉ field.toList) (front : Text.Blank before) (back : Text.Blank after) :
    Denotes (before ++ field ++ after) ⟨field, .ascending⟩
  | directed {field before after : String} {direction : Direction} {word left right : String}
    (named : field ≠ "") (trimmed : Text.trim field = field) (spelled : direction.Spelled word)
    (front : Text.Blank before) (back : Text.Blank after)
    (leftBlank : Text.Blank left) (rightBlank : Text.Blank right) :
    Denotes (before ++ field ++ after ++ ":" ++ (left ++ word ++ right)) ⟨field, direction⟩

theorem ofSpec_of_no_colon {s : String} (absent : ':' ∉ s.toList) (f : SortField) :
    ofSpec s = .ok f ↔ Text.trim s ≠ "" ∧ f = ⟨Text.trim s, .ascending⟩ := by
  have known : Direction.ofWord? (Text.lower "asc") = some .ascending := by decide
  simp only [ofSpec, splitLast?_eq_none absent, known]
  by_cases none : Text.trim s = ""
  · simp [none]
  · rw [if_neg (by simpa using none), Except.ok.injEq, eq_comm]
    exact (and_iff_right none).symm

theorem ofSpec_of_colon (front : String) {back : String} (last : ':' ∉ back.toList)
    (f : SortField) :
    ofSpec (front ++ ":" ++ back) = .ok f ↔
      Text.trim front ≠ "" ∧ f.field = Text.trim front ∧ f.direction.Spelled (Text.trim back) := by
  have split : (front ++ ":" ++ back).toList = front.toList ++ ':' :: back.toList := by simp
  rw [← Direction.ofWord?_lower_iff]
  simp only [ofSpec, split, splitLast?_append front.toList last, String.ofList_toList]
  by_cases none : Text.trim front = ""
  · simp [none]
  · cases known : Direction.ofWord? (Text.lower (Text.trim back)) with
    | none => simp [none]
    | some direction =>
      rw [if_neg (by simpa using none), Except.ok.injEq]
      constructor
      · rintro rfl
        exact ⟨none, rfl, rfl⟩
      · rintro ⟨_, field, its⟩
        rw [← field, Option.some.inj its]

theorem colon_notMem_of_blank {s : String} (blank : Text.Blank s) : ':' ∉ s.toList := by
  intro member
  have colon : Text.isBlank ':' = false := by decide
  rw [blank ':' member] at colon
  cases colon

theorem trim_spelled {direction : Direction} {word : String} (spelled : direction.Spelled word) :
    Text.trim word = word := by
  rw [Text.trim, Text.trimList_of_not_blank fun c member => (spelled.plain c member).1,
    String.ofList_toList]

/-- The reader accepts exactly the specs that denote something, as what they denote. -/
theorem ofSpec_eq_ok_iff (s : String) (f : SortField) : ofSpec s = .ok f ↔ Denotes s f := by
  constructor
  · intro read
    rcases exists_last_or_not_mem ':' s.toList with absent | ⟨front, back, split, last⟩
    · obtain ⟨named, rfl⟩ := (ofSpec_of_no_colon absent f).mp read
      obtain ⟨before, after, blankBefore, blankAfter, whole⟩ := Text.exists_eq_append_trim s
      have noColon : ':' ∉ (Text.trim s).toList := by
        intro member
        rw [whole] at absent
        simp [member] at absent
      have denoted := Denotes.bare named (Text.trim_trim s) noColon blankBefore blankAfter
      rwa [← whole] at denoted
    · have whole : s = String.ofList front ++ ":" ++ String.ofList back := by
        apply String.toList_inj.mp
        simpa using split
      rw [whole, ofSpec_of_colon _ (by simpa using last)] at read
      obtain ⟨named, field, spelled⟩ := read
      obtain ⟨before, after, blankBefore, blankAfter, name⟩ :=
        Text.exists_eq_append_trim (String.ofList front)
      obtain ⟨left, right, blankLeft, blankRight, word⟩ :=
        Text.exists_eq_append_trim (String.ofList back)
      have denoted := Denotes.directed named (Text.trim_trim _) spelled blankBefore blankAfter
        blankLeft blankRight
      rw [← name, ← word, ← whole, ← field] at denoted
      exact denoted
  · intro denoted
    cases denoted with
    | @bare field before after named trimmed noColon front back =>
      have absent : ':' ∉ (before ++ field ++ after).toList := by
        simp [colon_notMem_of_blank front, noColon, colon_notMem_of_blank back]
      rw [ofSpec_of_no_colon absent, Text.trim_append front field back, trimmed]
      exact ⟨named, rfl⟩
    | @directed field before after direction word left right named trimmed spelled front back
        leftBlank rightBlank =>
      have noColon : ':' ∉ word.toList := fun member => (spelled.plain ':' member).2 rfl
      have last : ':' ∉ (left ++ word ++ right).toList := by
        simp [colon_notMem_of_blank leftBlank, noColon, colon_notMem_of_blank rightBlank]
      rw [ofSpec_of_colon _ last, Text.trim_append front field back, trimmed,
        Text.trim_append leftBlank word rightBlank, trim_spelled spelled]
      exact ⟨named, rfl, spelled⟩

example : ofSpec " a:1 : DESC\t" = .ok (desc "a:1") := by decide

example : ofSpec " : asc" = .error (.structural (.sortFieldMissing " : asc")) := by decide

theorem named_of_ofSpec {s : String} {f : SortField} (read : ofSpec s = .ok f) :
    f.field ≠ "" ∧ Text.trim f.field = f.field := by
  cases (ofSpec_eq_ok_iff s f).mp read with
  | bare named trimmed => exact ⟨named, trimmed⟩
  | directed named trimmed => exact ⟨named, trimmed⟩

/-- A field that was read can be written with a word for its direction, and is read again. -/
theorem ofSpec_of_word {s : String} {f : SortField} (read : ofSpec s = .ok f) {word : String}
    (member : word ∈ f.direction.words) : ofSpec (f.field ++ ":" ++ word) = .ok f := by
  obtain ⟨named, trimmed⟩ := named_of_ofSpec read
  have denoted := Denotes.directed named trimmed (Direction.spelled_of_word member)
    Text.blank_empty Text.blank_empty Text.blank_empty Text.blank_empty
  apply (ofSpec_eq_ok_iff _ f).mpr
  simpa using denoted

/-- What the reader has against a spec is its shape. -/
theorem ofSpec_error {s : String} {e : Failure} (failed : ofSpec s = .error e) :
    ∃ fault, e = .structural fault := by
  unfold ofSpec at failed
  split at failed
  next field direction parts =>
    split at failed
    · exact ⟨_, (Except.error.inj failed).symm⟩
    · cases known : Direction.ofWord? (Text.lower direction) with
      | some d =>
        simp only [known] at failed
        cases failed
      | none =>
        simp only [known] at failed
        exact ⟨_, (Except.error.inj failed).symm⟩

theorem ofSpecs_nil : ofSpecs [] = .ok [] :=
  rfl

theorem ofSpecs_cons (s : String) (rest : List String) :
    ofSpecs (s :: rest) = (do
      let f ← ofSpec s
      let fs ← ofSpecs rest
      .ok (f :: fs)) := by
  rw [ofSpecs, List.mapM_cons]
  rfl

/-- All specs are read, or the first bad one is reported. -/
theorem ofSpecs_eq_ok_iff (specs : List String) (fields : List SortField) :
    ofSpecs specs = .ok fields ↔ specs.map ofSpec = fields.map .ok :=
  walk_eq_ok_iff ofSpecs ofSpecs_nil ofSpecs_cons specs fields

theorem ofSpecs_eq_error_iff (specs : List String) (e : Failure) :
    ofSpecs specs = .error e ↔ ∃ good bad rest, specs = good ++ bad :: rest ∧
      (∀ s ∈ good, ∃ f, ofSpec s = .ok f) ∧ ofSpec bad = .error e :=
  walk_eq_error_iff ofSpecs ofSpecs_nil ofSpecs_cons specs e

end SortField
end DocQuery
