import DocQuery.Proofs.Toml.Scalar
import DocQuery.Proofs.Toml.Strings
/-!
# Documents of pairs read back

A document in which every line is a pair of a bare key and a value is read as the table of these
pairs in their order, if no key is repeated (`read?_pairs`). A key without a value has no line and
no entry.
-/
namespace DocQuery.Toml

/-- The text of a value, which is read back up to the end of its line. -/
structure Reads (text : List Char) (v : Toml) : Prop where
  visible : ∃ c rest, text = c :: rest ∧ isBlank c = false
  value (fuel nesting : Nat) (more : List Char) :
    value? (fuel + 1) nesting (text ++ '\n' :: more) = some (v, '\n' :: more)

theorem exists_head_stringText (s : List Char) :
    ∃ c rest, stringText s = c :: rest ∧ (c = '"' ∨ c = '\'') := by
  unfold stringText
  cases formOf s with
  | basic => exact ⟨'"', _, rfl, Or.inl rfl⟩
  | literal => exact ⟨'\'', _, rfl, Or.inr rfl⟩
  | multiBasic => exact ⟨'"', _, rfl, Or.inl rfl⟩
  | multiLiteral => exact ⟨'\'', _, rfl, Or.inr rfl⟩

theorem reads_stringText (s : String) : Reads (stringText s.toList) (.string s) := by
  obtain ⟨c, rest, shape, quote⟩ := exists_head_stringText s.toList
  refine ⟨⟨c, rest, shape, by rcases quote with rfl | rfl <;> rfl⟩, fun fuel nesting more => ?_⟩
  have read := string?_stringText s.toList more
  rw [shape, List.cons_append] at read ⊢
  rcases quote with rfl | rfl
  · rw [value?, read]
    simp
  · rw [value?, read]
    simp

theorem reads_digits {n : Nat} (room : n < Nat.pow 2 128) :
    Reads (Decimal.digits n) (.integer n) := by
  have digits := Decimal.isDigit_of_mem_digits n
  obtain ⟨d, rest, shape⟩ := List.exists_cons_of_ne_nil (Decimal.digits_ne_nil n)
  have first : Decimal.isDigit d = true := digits d (by rw [shape]; exact List.mem_cons_self)
  have apart {c : Char} (noDigit : Decimal.isDigit c = false) : d ≠ c := by
    rintro rfl
    rw [first] at noDigit
    cases noDigit
  have front {c : Char} {s t : List Char} (same : Decimal.digits n ++ s = c :: t) : d = c := by
    rw [shape] at same
    exact (List.cons.inj same).1
  refine ⟨⟨d, rest, shape, ?_⟩, fun fuel nesting more => ?_⟩
  · have space : d ≠ ' ' := apart (by decide)
    have tab : d ≠ '\t' := apart (by decide)
    simp [isBlank, space, tab]
  · unfold value?
    split
    next same => exact absurd (front same) (apart (by decide))
    next same => exact absurd (front same) (apart (by decide))
    next same => exact absurd (front same) (apart (by decide))
    next same => exact absurd (front same) (apart (by decide))
    next =>
      rw [bareWord_digits]
      dsimp only
      rw [scalar?_natural room]
      rfl

/-- A key that stands without quotes. -/
structure BareKey (key : String) : Prop where
  nonempty : key.toList ≠ []
  bare : ∀ c ∈ key.toList, isBare c = true

theorem BareKey.exists_head {key : String} (h : BareKey key) :
    ∃ c rest, key.toList = c :: rest ∧ isBare c = true := by
  obtain ⟨c, rest, shape⟩ := List.exists_cons_of_ne_nil h.nonempty
  exact ⟨c, rest, shape, h.bare c (by rw [shape]; exact List.mem_cons_self)⟩

theorem ne_of_bare {c d : Char} (bare : isBare c = true) (other : isBare d = false) : c ≠ d := by
  rintro rfl
  rw [bare] at other
  cases other

theorem skipBlanks_cons {c : Char} {rest : List Char} (visible : isBlank c = false) :
    skipBlanks (c :: rest) = c :: rest := by
  rw [skipBlanks, List.dropWhile_cons_of_neg (by simp [visible])]

theorem isBlank_of_bare {c : Char} (bare : isBare c = true) : isBlank c = false := by
  have space : c ≠ ' ' := ne_of_bare bare (by decide)
  have tab : c ≠ '\t' := ne_of_bare bare (by decide)
  simp [isBlank, space, tab]

/-- A bare key ends at the blank before the equals sign. -/
theorem key?_append {key : String} (bare : BareKey key) (s : List Char) :
    key? (key.toList ++ ' ' :: '=' :: s) = some ([], key, '=' :: s) := by
  have inside : (key.toList ++ ' ' :: '=' :: s).takeWhile isBare = key.toList := by
    rw [List.takeWhile_append_of_pos bare.bare]
    simp [isBare]
  obtain ⟨c, rest, shape, front⟩ := bare.exists_head
  have simple : simpleKey? (key.toList ++ ' ' :: '=' :: s) = some (key, ' ' :: '=' :: s) := by
    unfold simpleKey?
    split
    next same =>
      rw [shape] at same
      exact absurd (List.cons.inj same).1 (ne_of_bare front (by decide))
    next same =>
      rw [shape] at same
      exact absurd (List.cons.inj same).1 (ne_of_bare front (by decide))
    next =>
      rw [inside]
      simp [bare.nonempty]
  have start : skipBlanks (key.toList ++ ' ' :: '=' :: s) = key.toList ++ ' ' :: '=' :: s := by
    rw [shape]
    exact skipBlanks_cons (isBlank_of_bare front)
  show keyWithin? (79 + 1) _ = _
  rw [keyWithin?, start, simple]
  rfl

section

variable {key : String} {text more : List Char} {v : Toml} {root : Entries}

theorem change?_of_new {f : Option Toml → Option Toml} (new : key ∉ root.map (·.1)) :
    change? key f root = (f none).map fun v => root ++ [(key, v)] := by
  induction root with
  | nil => rfl
  | cons entry rest ih =>
    obtain ⟨k, old⟩ := entry
    have other : k ≠ key := fun same => new (by simp [same])
    have behind : key ∉ rest.map (·.1) := fun member => new (List.mem_cons_of_mem k member)
    rw [change?, if_neg other, ih behind]
    cases f none <;> rfl

theorem add?_of_new (new : key ∉ root.map (·.1)) :
    Draft.add? ⟨root, []⟩ [] key v = some ⟨root ++ [(key, v)], []⟩ := by
  have added : addNew? key v root = some (root ++ [(key, v)]) := change?_of_new new
  show ((addNew? key v root).map fun root => Draft.mk root []) = _
  rw [added]
  rfl

/-- A line adds its pair to the root. -/
theorem expression?_pairLine (bare : BareKey key) (reads : Reads text v)
    (new : key ∉ root.map (·.1)) :
    expression? ⟨root, []⟩ (pairLine key (some text) ++ more) =
      some (⟨root ++ [(key, v)], []⟩, more) := by
  have shape : pairLine key (some text) ++ more =
      key.toList ++ ' ' :: '=' :: ' ' :: (text ++ '\n' :: more) := by simp [pairLine]
  obtain ⟨c, rest, front, visible⟩ := reads.visible
  have start : skipBlanks (' ' :: (text ++ '\n' :: more)) = text ++ '\n' :: more := by
    rw [front]
    exact skipBlanks_cons visible
  have ending : lineEnd? ('\n' :: more) = some more := rfl
  obtain ⟨d, others, keyShape, bareFront⟩ := bare.exists_head
  have noTable : d ≠ '[' := ne_of_bare bareFront (by decide)
  rw [shape]
  unfold expression?
  split
  next same =>
    rw [keyShape] at same
    exact absurd (List.cons.inj same).1 noTable
  next same =>
    rw [keyShape] at same
    exact absurd (List.cons.inj same).1 noTable
  next =>
    rw [key?_append bare]
    simp only [Option.bind_eq_bind, Option.bind_some, start, reads.value, add?_of_new new, ending]

theorem skipLines_of_bare {c : Char} {rest : List Char} (bare : isBare c = true) (fuel : Nat) :
    skipLines fuel (c :: rest) = some (c :: rest) := by
  have comment : c ≠ '#' := ne_of_bare bare (by decide)
  have feed : c ≠ '\n' := ne_of_bare bare (by decide)
  have start : c ≠ '\r' := ne_of_bare bare (by decide)
  cases fuel with
  | zero => rfl
  | succ fuel =>
    rw [skipLines, skipBlanks_cons (isBlank_of_bare bare)]
    simp [comment, feed, start]

theorem lines?_pairLine (bare : BareKey key) (reads : Reads text v) (new : key ∉ root.map (·.1))
    (fuel : Nat) :
    lines? (fuel + 1) ⟨root, []⟩ (pairLine key (some text) ++ more) =
      lines? fuel ⟨root ++ [(key, v)], []⟩ more := by
  obtain ⟨c, rest, shape, front⟩ := bare.exists_head
  have start : pairLine key (some text) ++ more =
      c :: (rest ++ " = ".toList ++ text ++ ['\n'] ++ more) := by simp [pairLine, shape]
  have line : expression? ⟨root, []⟩ (pairLine key (some text) ++ more) =
      some (⟨root ++ [(key, v)], []⟩, more) := expression?_pairLine bare reads new
  rw [start] at line ⊢
  rw [lines?, skipLines_of_bare front]
  simp only [Option.bind_eq_bind, Option.bind_some, List.isEmpty_cons, Bool.false_eq_true, if_false,
    line]

end

/-- A key with its value, if it has one, and the text of the value. -/
abbrev Pair := String × Option (List Char × Toml)

def Pair.line (p : Pair) : List Char :=
  pairLine p.1 (p.2.map (·.1))

def Pair.entry? (p : Pair) : Option (String × Toml) :=
  p.2.map fun value => (p.1, value.2)

theorem lines?_pairs {pairs : List Pair} (bare : ∀ p ∈ pairs, BareKey p.1)
    (reads : ∀ p ∈ pairs, ∀ value ∈ p.2, Reads value.1 value.2) {root : Entries}
    (distinct : (root.map (·.1) ++ pairs.map (·.1)).Nodup) {fuel : Nat}
    (enough : (pairs.flatMap Pair.line).length ≤ fuel) :
    lines? fuel ⟨root, []⟩ (pairs.flatMap Pair.line) =
      some ⟨root ++ pairs.filterMap Pair.entry?, []⟩ := by
  induction pairs generalizing root fuel with
  | nil => cases fuel <;> simp [lines?, skipLines]
  | cons p rest ih =>
    obtain ⟨key, value⟩ := p
    obtain ⟨bareFirst, bareRest⟩ := List.forall_mem_cons.mp bare
    obtain ⟨readsFirst, readsRest⟩ := List.forall_mem_cons.mp reads
    rw [List.flatMap_cons] at enough ⊢
    cases value with
    | none =>
      have others : (root.map (·.1) ++ rest.map (·.1)).Nodup := by
        refine distinct.sublist (List.Sublist.append_left ?_ _)
        exact List.sublist_cons_self _ _
      exact ih bareRest readsRest others enough
    | some value =>
      obtain ⟨text, v⟩ := value
      have line : Pair.line (key, some (text, v)) = pairLine key (some text) := rfl
      have new : key ∉ root.map (·.1) := by
        intro member
        exact (List.nodup_append.mp distinct).2.2 key member key List.mem_cons_self rfl
      have others : ((root ++ [(key, v)]).map (·.1) ++ rest.map (·.1)).Nodup := by
        simpa using distinct
      have long : 1 ≤ (pairLine key (some text)).length := by
        simp only [pairLine, List.length_append, List.length_singleton]
        omega
      rw [line] at enough ⊢
      rw [List.length_append] at enough
      obtain ⟨fuel, rfl⟩ : ∃ k, fuel = k + 1 := ⟨fuel - 1, by omega⟩
      rw [lines?_pairLine bareFirst (readsFirst _ rfl) new, ih bareRest readsRest others (by omega),
        List.append_assoc]
      rfl

/-- A document of pairs begins with a key. -/
theorem head?_pairs {pairs : List Pair} (bare : ∀ p ∈ pairs, BareKey p.1) :
    ∀ c ∈ (pairs.flatMap Pair.line).head?, isBare c = true := by
  induction pairs with
  | nil => simp
  | cons p rest ih =>
    obtain ⟨key, value⟩ := p
    obtain ⟨bareFirst, bareRest⟩ := List.forall_mem_cons.mp bare
    rw [List.flatMap_cons]
    cases value with
    | none => exact ih bareRest
    | some value =>
      obtain ⟨c, others, shape, front⟩ := bareFirst.exists_head
      intro d first
      have same : c = d := by
        simpa [Pair.line, pairLine, shape] using first
      rw [← same]
      exact front

/-- A document that begins with a key has no mark in front. -/
theorem read?_of_bare {s : List Char} (front : ∀ c ∈ s.head?, isBare c = true) :
    read? (String.ofList s) = (lines? (s.length + 1) .empty s).map (·.root) := by
  unfold read?
  rw [String.toList_ofList]
  cases s with
  | nil => rfl
  | cons c rest =>
    have noMark : c.toNat ≠ 0xFEFF := by
      intro mark
      have bare := front c rfl
      rw [← Char.ofNat_toNat c, mark] at bare
      exact absurd bare (by decide)
    dsimp only
    rw [if_neg noMark]

/-- The document of pairs is the table of those that have a value. -/
theorem read?_pairs {pairs : List Pair} (bare : ∀ p ∈ pairs, BareKey p.1)
    (reads : ∀ p ∈ pairs, ∀ value ∈ p.2, Reads value.1 value.2)
    (distinct : (pairs.map (·.1)).Nodup) :
    read? (String.ofList (pairs.flatMap Pair.line)) = some (pairs.filterMap Pair.entry?) := by
  have found : lines? ((pairs.flatMap Pair.line).length + 1) .empty (pairs.flatMap Pair.line) =
      some ⟨pairs.filterMap Pair.entry?, []⟩ :=
    @lines?_pairs pairs bare reads [] distinct _ (Nat.le_succ _)
  rw [read?_of_bare (head?_pairs bare), found]
  rfl

end DocQuery.Toml
