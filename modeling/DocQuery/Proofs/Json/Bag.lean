import DocQuery.Json.Bag
import Mathlib.Data.List.Forall2
/-!
# Properties and what they are given

The properties of an object are read by their names, those of a list in the order of the names; what
is read for a property is what it is given (`bag?_found`), and something is read for all of them
unless one is repeated or there is too much (`exists_bag?_iff`). A property counts as left out if it
is missing or null.
-/
namespace DocQuery.Json

/-- The property of the given name, which stands at `place` among the names, is missing or null. -/
def Lacks (name : String) (place : Nat) : Json → Prop
  | .object members => ∀ j, (name, j) ∈ members → j = .null
  | .array items => ∀ j, items[place]? = some j → j = .null
  | _ => True

/-- The property of the given name, which stands at `place` among the names, has the value. A name
that is repeated may have several. -/
def Gives (name : String) (place : Nat) : Json → Json → Prop
  | .object members, value => (name, value) ∈ members
  | .array items, value => items[place]? = some value
  | _, _ => False

theorem lacks_iff (name : String) (place : Nat) (j : Json) :
    j.Lacks name place ↔ ∀ v, j.Gives name place v → v = .null := by
  cases j <;> simp [Lacks, Gives]

/-- The value that was found for a property is missing or null. -/
def Absent (found : Option Json) : Prop :=
  ∀ j, found = some j → j = .null

theorem nullable_eq_none_iff {α : Type} {read : Json → Option α} {found : Option Json}
    {value : Option α} (h : nullable read found = some value) : value = none ↔ Absent found := by
  cases found with
  | none =>
    cases h
    simp [Absent]
  | some j =>
    cases j with
    | null =>
      cases h
      simp [Absent]
    | _ =>
      obtain ⟨a, _, rfl⟩ := Option.map_eq_some_iff.mp h
      simp [Absent]

theorem getElem?_fill (names : List String) (items : List Json) (i : Nat)
    (inside : i < names.length) : (fill names items)[i]? = some items[i]? := by
  induction names generalizing items i with
  | nil => exact absurd inside (Nat.not_lt_zero i)
  | cons name names ih =>
    cases i with
    | zero => cases items <;> rfl
    | succ i =>
      have below : i < names.length := Nat.lt_of_succ_lt_succ inside
      cases items with
      | nil => simpa [fill] using ih [] i below
      | cons j rest => simpa [fill] using ih rest i below

theorem length_fill (names : List String) (items : List Json) :
    (fill names items).length = names.length := by
  induction names generalizing items with
  | nil => rfl
  | cons name names ih => cases items <;> simp [fill, ih]

theorem mapM_eq_some_iff {α β : Type} {f : α → Option β} {as : List α} {bs : List β} :
    as.mapM f = some bs ↔ List.Forall₂ (fun a b => f a = some b) as bs := by
  induction as generalizing bs with
  | nil => cases bs <;> simp
  | cons a rest ih =>
    simp only [List.mapM_cons, Option.pure_def, Option.bind_eq_bind, Option.bind_eq_some_iff,
      Option.some.injEq, List.forall₂_cons_left_iff, ih]
    constructor
    · rintro ⟨b, first, others, following, rfl⟩
      exact ⟨b, others, first, following, rfl⟩
    · rintro ⟨b, others, first, following, rfl⟩
      exact ⟨b, first, others, following, rfl⟩

theorem exists_mapM_iff {α β : Type} {f : α → Option β} {as : List α} :
    (∃ bs, as.mapM f = some bs) ↔ ∀ a ∈ as, ∃ b, f a = some b := by
  induction as with
  | nil => simp
  | cons a rest ih =>
    rw [List.forall_mem_cons, ← ih]
    simp only [mapM_eq_some_iff, List.forall₂_cons_left_iff]
    constructor
    · rintro ⟨_, b, others, first, following, rfl⟩
      exact ⟨⟨b, first⟩, others, following⟩
    · rintro ⟨⟨b, first⟩, others, following⟩
      exact ⟨b :: others, b, others, first, following, rfl⟩

/-- The results of a walk over a list stand at the places of its elements. -/
theorem getElem?_mapM {α β : Type} {f : α → Option β} {as : List α} {bs : List β}
    (h : as.mapM f = some bs) {i : Nat} {a : α} {b : β} (element : as[i]? = some a)
    (result : bs[i]? = some b) : f a = some b := by
  induction as generalizing bs i with
  | nil => cases element
  | cons c rest ih =>
    simp only [List.mapM_cons, Option.pure_def, Option.bind_eq_bind, Option.bind_eq_some_iff,
      Option.some.injEq] at h
    obtain ⟨d, first, others, following, rfl⟩ := h
    cases i with
    | zero =>
      cases element
      cases result
      exact first
    | succ i => exact ih following element result

/-- What is found under a name that is not repeated is its member, if it has one. -/
theorem memberOnce?_found {name : String} {members : List (String × Json)} {found : Option Json}
    (h : memberOnce? name members = some found) (v : Json) :
    found = some v ↔ (name, v) ∈ members := by
  have same : (name, v) ∈ members ↔ (name, v) ∈ members.filter (·.1 == name) := by simp
  rw [same]
  unfold memberOnce? at h
  split at h
  next none =>
    cases h
    simp [none]
  next key j one =>
    cases h
    have named : key = name := by
      have inside : (key, j) ∈ members.filter (·.1 == name) := by simp [one]
      simpa using (List.mem_filter.mp inside).2
    simp [one, named, eq_comm]
  next => cases h

theorem exists_memberOnce?_iff {name : String} {members : List (String × Json)} :
    (∃ found, memberOnce? name members = some found) ↔ (members.map (·.1)).count name ≤ 1 := by
  have counted : (members.map (·.1)).count name = (members.filter (·.1 == name)).length := by
    rw [List.count, List.countP_map, List.countP_eq_length_filter]
    rfl
  unfold memberOnce?
  rw [counted]
  generalize members.filter (·.1 == name) = found
  cases found with
  | nil => simp
  | cons m rest => cases rest <;> simp

/-- The object repeats none of the names, and what else it has follows the grammar; or the list is
no longer than the names. -/
def IsBag (names : List String) : Json → Prop
  | .object members =>
    (∀ m ∈ members, m.1 ∈ names ∨ m.2.isProper = true) ∧
      ∀ name ∈ names, (members.map (·.1)).count name ≤ 1
  | .array items => items.length ≤ names.length
  | _ => False

theorem exists_bag?_iff {names : List String} {j : Json} :
    (∃ values, bag? names j = some values) ↔ j.IsBag names := by
  cases j with
  | object members =>
    have proper : members.all (fun m => names.contains m.1 || m.2.isProper) = true ↔
        ∀ m ∈ members, m.1 ∈ names ∨ m.2.isProper = true := by simp
    rw [IsBag, ← proper]
    simp only [← exists_memberOnce?_iff, ← exists_mapM_iff]
    by_cases all : members.all (fun m => names.contains m.1 || m.2.isProper) = true
    · have walked : (Json.object members).bag? names =
          names.mapM fun name => memberOnce? name members := if_pos all
      rw [walked]
      exact (and_iff_right all).symm
    · have refused : (Json.object members).bag? names = none := if_neg all
      rw [refused]
      exact iff_of_false (fun found => by cases found.choose_spec) fun both => all both.1
  | array items => by_cases short : items.length ≤ names.length <;> simp [bag?, IsBag, short]
  | _ => simp [bag?, IsBag]

/-- What is read for a property is what the object or list gives for it. -/
theorem bag?_found {names : List String} {j : Json} {values : List (Option Json)}
    (h : bag? names j = some values) {i : Nat} {name : String} (named : names[i]? = some name)
    {found : Option Json} (value : values[i]? = some found) (v : Json) :
    found = some v ↔ j.Gives name i v := by
  cases j with
  | object members =>
    rw [bag?] at h
    split at h
    · exact memberOnce?_found (getElem?_mapM h named value) v
    · cases h
  | array items =>
    rw [bag?] at h
    split at h
    · cases h
      obtain ⟨inside, _⟩ := List.getElem?_eq_some_iff.mp named
      rw [getElem?_fill names items i inside] at value
      cases value
      exact Iff.rfl
    · cases h
  | _ => cases h

theorem length_bag? {names : List String} {j : Json} {values : List (Option Json)}
    (h : bag? names j = some values) : values.length = names.length := by
  cases j with
  | object members =>
    rw [bag?] at h
    split at h
    · exact (mapM_eq_some_iff.mp h).length_eq.symm
    · cases h
  | array items =>
    rw [bag?] at h
    split at h
    · cases h
      exact length_fill names items
    · cases h
  | _ => cases h

/-- A property that is read as absent is left out in the object or list, and the other way round. -/
theorem bag?_absent_iff {names : List String} {j : Json} {values : List (Option Json)}
    (h : bag? names j = some values) {i : Nat} {name : String} (named : names[i]? = some name)
    {found : Option Json} (value : values[i]? = some found) :
    Absent found ↔ j.Lacks name i := by
  simp only [Absent, lacks_iff, bag?_found h named value]

/-! ## What is told of one property -/

/-- What is told of a property that may be left out: nothing, or something in its place that may be
read. -/
inductive Told {α : Type} (name : String) (place : Nat) (reads : Json → α → Prop) (j : Json) :
    Option α → Prop where
  | leftOut (lacks : j.Lacks name place) : Told name place reads j none
  | given {v : Json} {a : α} (gives : j.Gives name place v) (there : v ≠ .null) (read : reads v a) :
    Told name place reads j (some a)

/-- What is told of a property that is a list and may be missing. -/
inductive Listed {α : Type} (name : String) (place : Nat) (reads : Json → α → Prop) (j : Json) :
    List α → Prop where
  | missing (lacks : ∀ v, ¬ j.Gives name place v) : Listed name place reads j []
  | given {items : List Json} {as : List α} (gives : j.Gives name place (.array items))
    (each : List.Forall₂ reads items as) : Listed name place reads j as

section

variable {α : Type} {read : Json → Option α} {found : Option Json} {name : String} {place : Nat}
  {j : Json}

theorem nullable_of_ne_null {v : Json} (there : v ≠ .null) :
    nullable read (some v) = (read v).map some := by
  cases v with
  | null => exact absurd rfl there
  | _ => rfl

theorem nullable_eq_some_iff {value : Option α}
    (stands : ∀ v, found = some v ↔ j.Gives name place v) :
    nullable read found = some value ↔ Told name place (fun v a => read v = some a) j value := by
  have nothing (none : ∀ v, j.Gives name place v → v = .null) :
      Told name place (fun v a => read v = some a) j value ↔ value = .none := by
    constructor
    · rintro (_ | ⟨gives, there, _⟩)
      · rfl
      · exact absurd (none _ gives) there
    · rintro rfl
      exact .leftOut ((lacks_iff name place j).mpr none)
  cases found with
  | none =>
    rw [nothing fun v gives => by cases (stands v).mpr gives]
    simp [nullable, eq_comm]
  | some v =>
    by_cases null : v = .null
    · subst null
      rw [nothing fun v gives => (Option.some.inj ((stands v).mpr gives)).symm]
      simp [nullable, eq_comm]
    · rw [nullable_of_ne_null null, Option.map_eq_some_iff]
      constructor
      · rintro ⟨a, value, rfl⟩
        exact .given ((stands v).mp rfl) null value
      · rintro (lacks | ⟨gives, _, value⟩)
        · exact absurd ((lacks_iff name place j).mp lacks v ((stands v).mp rfl)) null
        · cases (stands _).mpr gives
          exact ⟨_, value, rfl⟩

theorem list_eq_some_iff {budget : Nat} {as : List α}
    (stands : ∀ v, found = some v ↔ j.Gives name place v) :
    orDefault [] (list? (budget + 1) read) found = some as ↔
      Listed name place (fun v a => read v = some a) j as := by
  constructor
  · intro told
    cases found with
    | none =>
      cases told
      exact .missing fun v gives => by cases (stands v).mpr gives
    | some v =>
      cases v with
      | array items => exact .given ((stands _).mp rfl) (mapM_eq_some_iff.mp told)
      | _ => cases told
  · rintro (lacks | ⟨gives, each⟩)
    · cases found with
      | none => rfl
      | some v => exact absurd ((stands v).mp rfl) (lacks v)
    · rw [(stands _).mpr gives]
      exact mapM_eq_some_iff.mpr each

end

end DocQuery.Json
