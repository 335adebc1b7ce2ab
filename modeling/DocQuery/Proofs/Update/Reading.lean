import DocQuery.Proofs.Bag.Written
import DocQuery.Proofs.Json.Bag
/-!
# What the JSON of an update tells

An update may tell a key, a filter and a list of assignments, each of which names a field and gives
a value. Key and filter may be left out or null, the list may be missing, and nothing may be
repeated. The bag that is read is the one that is told, and if none is told nothing is read
(`UpdateBag.ofJson?_eq_some_iff`). What is written of a bag tells the bag, with integers in the
width of the reader (`UpdateBag.toldBy_toJson`).
-/
namespace DocQuery

theorem Json.string?_eq_some_iff {j : Json} {s : String} : j.string? = some s ↔ j = .string s := by
  cases j <;> simp [string?]

/-- The JSON names the field and gives the value, which may have so many levels. -/
structure Assignment.ToldBy (levels : Nat) (j : Json) (a : Assignment) : Prop where
  properties : j.IsBag ["field", "value"]
  field : j.Gives "field" 0 (.string a.field)
  value : ∃ v, j.Gives "value" 1 v ∧ Value.ofJson? levels v = some a.value

/-- The JSON tells the key, the filter and the assignments, the values of which may have so many
levels. -/
structure UpdateBag.ToldBy (levels : Nat) (j : Json) (b : UpdateBag) : Prop where
  properties : j.IsBag ["filterId", "filter", "fieldValues"]
  key : j.Told "filterId" 0 (fun v key => v = .string key) b.filterId
  filter : j.Told "filter" 1 (fun v d => FilterBag.ofJson? (levels + 2) v = some d) b.filter
  values : j.Listed "fieldValues" 2 (Assignment.ToldBy levels) b.fieldValues

variable {levels : Nat} {j : Json}

theorem Assignment.ofJson?_eq_some_iff {a : Assignment} :
    ofJson? (levels + 1) j = some a ↔ a.ToldBy levels j := by
  constructor
  · intro read
    simp only [ofJson?, Option.bind_eq_bind, Option.bind_eq_some_iff] at read
    obtain ⟨values, found, read⟩ := read
    have gives {i : Nat} {name : String} {v : Json} (named : names[i]? = some name)
        (there : values[i]? = some (some v)) : j.Gives name i v :=
      (Json.bag?_found found named there v).mp rfl
    split at read
    next field value =>
      simp only [Option.bind_eq_some_iff, Option.some.injEq] at read
      obtain ⟨name, text, stored, readValue, rfl⟩ := read
      rw [Json.string?_eq_some_iff] at text
      subst text
      exact ⟨Json.exists_bag?_iff.mp ⟨_, found⟩, gives rfl rfl, value, gives rfl rfl, readValue⟩
    next => cases read
  · rintro ⟨properties, field, value, gives, read⟩
    obtain ⟨values, found⟩ := Json.exists_bag?_iff.mpr properties
    obtain ⟨x, y, rfl⟩ := List.length_eq_two.mp (Json.length_bag? found)
    obtain rfl := (Json.bag?_found (i := 0) found rfl rfl _).mpr field
    obtain rfl := (Json.bag?_found (i := 1) found rfl rfl _).mpr gives
    have look : j.bag? names = some [some (.string a.field), some value] := found
    rw [ofJson?, look]
    simp only [Option.bind_eq_bind, Option.bind_some, Json.string?, read]

theorem UpdateBag.ofJson?_eq_some_iff {b : UpdateBag} :
    ofJson? (levels + 3) j = some b ↔ b.ToldBy levels j := by
  have texts : (fun v key => Json.string? v = some key) = fun v key => v = .string key := by
    funext v key
    exact propext Json.string?_eq_some_iff
  have assignments : (fun v a => Assignment.ofJson? (levels + 1) v = some a) =
      Assignment.ToldBy levels := by
    funext v a
    exact propext Assignment.ofJson?_eq_some_iff
  constructor
  · intro read
    simp only [ofJson?, Option.bind_eq_bind, Option.bind_eq_some_iff] at read
    obtain ⟨values, found, read⟩ := read
    split at read
    next filterId filter fieldValues =>
      simp only [Option.bind_eq_some_iff, Option.some.injEq] at read
      obtain ⟨key, readKey, target, readFilter, values, readValues, rfl⟩ := read
      refine ⟨Json.exists_bag?_iff.mp ⟨_, found⟩, ?_, ?_, ?_⟩
      · rw [← texts]
        exact (Json.nullable_eq_some_iff (Json.bag?_found (i := 0) found rfl rfl)).mp readKey
      · exact (Json.nullable_eq_some_iff (Json.bag?_found (i := 1) found rfl rfl)).mp readFilter
      · rw [← assignments]
        exact (Json.list_eq_some_iff (Json.bag?_found (i := 2) found rfl rfl)).mp readValues
    next => cases read
  · rintro ⟨properties, key, filter, values⟩
    rw [← texts] at key
    rw [← assignments] at values
    obtain ⟨found, look⟩ := Json.exists_bag?_iff.mpr properties
    obtain ⟨x, y, z, rfl⟩ := List.length_eq_three.mp (Json.length_bag? look)
    have readKey := (Json.nullable_eq_some_iff (Json.bag?_found (i := 0) look rfl rfl)).mpr key
    have readFilter :=
      (Json.nullable_eq_some_iff (Json.bag?_found (i := 1) look rfl rfl)).mpr filter
    have readValues : Json.orDefault []
        (Json.list? (levels + 2) (Assignment.ofJson? (levels + 2 - 1))) z = some b.fieldValues :=
      (Json.list_eq_some_iff (Json.bag?_found (i := 2) look rfl rfl)).mpr values
    have bag : j.bag? names = some [x, y, z] := look
    rw [ofJson?, bag]
    simp only [Option.bind_eq_bind, Option.bind_some, readKey, readFilter, readValues]

/-! ## Updates as they are written -/

theorem Json.depth_le_itemsDepth {items : List Json} {j : Json} (member : j ∈ items) :
    j.depth ≤ itemsDepth items := by
  induction items with
  | nil => cases member
  | cons k rest ih =>
    rw [itemsDepth]
    rcases List.mem_cons.mp member with rfl | later
    · exact Nat.le_max_left _ _
    · exact Nat.le_trans (ih later) (Nat.le_max_right _ _)

/-- What is written for a property, null for nothing, tells what is read from it. -/
theorem Json.told_optionJson {α β : Type} (write : α → Json) {reads : Json → β → Prop} {f : α → β}
    {name : String} {place : Nat} {value : Option α}
    (gives : ∀ v, j.Gives name place v ↔ v = optionJson write value)
    (read : ∀ a, value = some a → write a ≠ .null ∧ reads (write a) (f a)) :
    j.Told name place reads (value.map f) := by
  cases value with
  | none =>
    refine .leftOut ((lacks_iff name place j).mpr fun v given => ?_)
    exact (gives v).mp given
  | some a =>
    obtain ⟨there, reads⟩ := read a rfl
    exact .given ((gives (write a)).mpr rfl) there reads

/-- The assignment with its value as it is read. -/
def Assignment.resized (a : Assignment) : Assignment where
  field := a.field
  value := a.value.resized

theorem Assignment.toldBy_toJson {a : Assignment} (plain : a.value.isPlain = true)
    (shallow : a.toJson.depth ≤ levels + 1) : a.resized.ToldBy levels a.toJson := by
  have stored : a.value.storedJson.depth ≤ levels := by
    simp only [toJson, Json.depth, Json.membersDepth] at shallow
    omega
  refine ⟨?_, ?_, a.value.storedJson, ?_, Value.ofJson?_storedJson a.value levels plain stored⟩
  · simp [Json.IsBag, toJson]
  · simp [Json.Gives, toJson, resized]
  · simp [Json.Gives, toJson]

namespace UpdateBag

/-- All values in the bag are plain. -/
def isPlain (b : UpdateBag) : Bool :=
  b.filter.all FilterBag.isPlain && b.fieldValues.all fun a => a.value.isPlain

/-- The bag with its values as they are read. -/
def resized (b : UpdateBag) : UpdateBag where
  filterId := b.filterId
  filter := b.filter.map FilterBag.resized
  fieldValues := b.fieldValues.map Assignment.resized

theorem toldBy_toJson {b : UpdateBag} (plain : b.isPlain = true)
    (shallow : b.toJson.depth ≤ levels + 3) : b.resized.ToldBy levels b.toJson := by
  obtain ⟨plainFilter, plainValues⟩ := Bool.and_eq_true_iff.mp plain
  simp only [toJson, Json.depth, Json.membersDepth] at shallow
  constructor
  case properties => simp [Json.IsBag, toJson]
  case key =>
    have told : b.toJson.Told "filterId" 0 (fun v key => v = .string key) (b.filterId.map id) := by
      refine Json.told_optionJson .string (fun v => ?_) fun key _ => ⟨?_, rfl⟩
      · simp [Json.Gives, toJson]
      · intro null
        cases null
    rwa [Option.map_id] at told
  case filter =>
    refine Json.told_optionJson FilterBag.toJson (fun v => ?_) fun d some => ⟨?_, ?_⟩
    · simp [Json.Gives, toJson]
    · intro null
      cases null
    · rw [some] at plainFilter shallow
      have levels : d.toJson.depth ≤ levels + 2 := by
        simp only [optionJson] at shallow
        omega
      exact FilterBag.ofJson?_written d.written_toJson plainFilter levels
  case values =>
    have gives : b.toJson.Gives "fieldValues" 2 (.array (b.fieldValues.map Assignment.toJson)) := by
      simp [Json.Gives, toJson]
    refine .given gives ?_
    rw [resized, List.forall₂_map_left_iff, List.forall₂_map_right_iff, List.forall₂_same]
    intro a member
    have inside := Json.depth_le_itemsDepth (List.mem_map_of_mem (f := Assignment.toJson) member)
    exact Assignment.toldBy_toJson (List.all_eq_true.mp plainValues a member) (by omega)

theorem reread_toJson {b : UpdateBag} (plain : b.isPlain = true) : b.toJson.reread = b.toJson := by
  obtain ⟨plainFilter, plainValues⟩ := Bool.and_eq_true_iff.mp plain
  apply Json.reread_object
  simp only [List.forall_mem_cons]
  refine ⟨?_, ?_, ?_, List.forall_mem_nil _⟩
  · cases b.filterId <;> rfl
  · cases own : b.filter with
    | none => rfl
    | some d =>
      rw [own] at plainFilter
      exact FilterBag.reread_written d.written_toJson plainFilter
  · apply Json.reread_array
    intro j member
    obtain ⟨a, inside, rfl⟩ := List.mem_map.mp member
    apply Json.reread_object
    simp only [List.forall_mem_cons]
    have stored := a.value.reread_storedJson (List.all_eq_true.mp plainValues a inside)
    exact ⟨rfl, stored, List.forall_mem_nil _⟩

/-- The text of what is written tells the bag. -/
theorem read?_toJson {b : UpdateBag} (plain : b.isPlain = true) :
    Json.read? b.toJson.text = some b.toJson := by
  rw [Json.read?_text, reread_toJson plain]

end UpdateBag
end DocQuery
