import DocQuery.Proofs.Settings.Copy
/-!
# What a document sets

A document is read as a table, and what it sets stands under the keys of the table
(`Settings.SetBy`). Reading fails for tables only in which a setting has a value of another kind.
Lines that give the keys plain texts and numbers are such a document
(`Settings.exists_setBy_document`).
-/
namespace DocQuery

theorem lookup_eq_find? {α : Type} (entries : List (String × α)) (key : String) :
    entries.lookup key = (entries.find? (·.1 == key)).map (·.2) := by
  induction entries with
  | nil => rfl
  | cons entry rest ih =>
    obtain ⟨name, value⟩ := entry
    by_cases same : name = key
    · simp [same]
    · have other : (key == name) = false := by simpa using Ne.symm same
      simp [List.lookup_cons, same, other, ih]

namespace Settings

/-- The table sets these settings: each is the value under its key, and what is unset has no key. -/
structure SetBy (table : Toml.Entries) (s : Settings) : Prop where
  connectionString : table.lookup "connection_string" = s.connectionString.map .string
  databaseName : table.lookup "database_name" = s.databaseName.map .string
  collectionName : table.lookup "collection_name" = s.collectionName.map .string
  defaultPageSize : table.lookup "default_page_size" =
    s.defaultPageSize.map fun n => .integer (n.toNat : Int)
  logDir : table.lookup "log_dir" = s.logDir.map .string
  logLevel : table.lookup "log_level" = s.logLevel.map .string

theorem textOf?_eq_some_iff {table : Toml.Entries} {key : String} {value : Option String} :
    textOf? table key = some value ↔ table.lookup key = value.map .string := by
  have found : Toml.get? table key = table.lookup key := (lookup_eq_find? table key).symm
  unfold textOf?
  rw [found]
  cases table.lookup key with
  | none => cases value <;> simp
  | some t => cases t <;> cases value <;> simp

theorem wordOfInt?_eq_some_iff {i : Int} {n : UInt64} :
    wordOfInt? i = some n ↔ i = (n.toNat : Int) := by
  constructor
  · intro read
    rw [wordOfInt?] at read
    split at read
    next inside =>
      cases read
      simp only [Bool.and_eq_true, decide_eq_true_eq] at inside
      have small : i.toNat < UInt64.size := by
        rw [UInt64.size]
        omega
      rw [UInt64.toNat_ofNat_of_lt' small]
      omega
    next => cases read
  · rintro rfl
    exact wordOfInt?_toNat n

theorem wordOf?_eq_some_iff {table : Toml.Entries} {key : String} {value : Option UInt64} :
    wordOf? table key = some value ↔
      table.lookup key = value.map fun n => .integer (n.toNat : Int) := by
  have found : Toml.get? table key = table.lookup key := (lookup_eq_find? table key).symm
  unfold wordOf?
  rw [found]
  cases table.lookup key with
  | none => cases value <;> simp
  | some t => cases t <;> cases value <;> simp [wordOfInt?_eq_some_iff]

theorem ofEntries?_eq_some_iff {table : Toml.Entries} {s : Settings} :
    ofEntries? table = some s ↔ SetBy table s := by
  simp only [ofEntries?, Option.bind_eq_bind, Option.bind_eq_some_iff, textOf?_eq_some_iff,
    wordOf?_eq_some_iff, Option.some.injEq]
  constructor
  · rintro ⟨_, connectionString, _, databaseName, _, collectionName, _, defaultPageSize, _, logDir,
      _, logLevel, rfl⟩
    exact ⟨connectionString, databaseName, collectionName, defaultPageSize, logDir, logLevel⟩
  · rintro ⟨connectionString, databaseName, collectionName, defaultPageSize, logDir, logLevel⟩
    exact ⟨_, connectionString, _, databaseName, _, collectionName, _, defaultPageSize, _, logDir,
      _, logLevel, rfl⟩

theorem ofToml_eq_ok_iff {text : String} {s : Settings} :
    ofToml text = .ok s ↔ ∃ table, Toml.read? text = some table ∧ SetBy table s := by
  simp only [← ofEntries?_eq_some_iff, ← Option.bind_eq_some_iff, ofToml]
  cases (Toml.read? text).bind ofEntries? <;> simp

theorem ofToml_eq_error_iff {text : String} {e : Failure} :
    ofToml text = .error e ↔ e = .settings .unreadable ∧
      ∀ table, Toml.read? text = some table → ∀ s, ¬ SetBy table s := by
  have none_iff (table : Toml.Entries) : ofEntries? table = none ↔ ∀ s, ¬ SetBy table s := by
    simp only [Option.eq_none_iff_forall_ne_some, ne_eq, ofEntries?_eq_some_iff]
  simp only [← none_iff, ← Option.bind_eq_none_iff, ofToml]
  cases (Toml.read? text).bind ofEntries? <;> simp [eq_comm]

/-! ## Plain documents -/

/-- A text without quotes, backslashes and control characters. -/
def Plain (t : String) : Prop :=
  ∀ c ∈ t.toList, c ≠ '"' ∧ c ≠ '\\' ∧ 32 ≤ c.toNat ∧ c.toNat ≠ 127

/-- The line of a key, or none if it is unset. -/
def line (key : String) : Option String → String
  | none => ""
  | some value => key ++ " = " ++ value ++ "\n"

def quoted (t : String) : String :=
  "\"" ++ t ++ "\""

/-- The lines that set the settings, if the texts are plain. -/
def document (s : Settings) : String :=
  line "connection_string" (s.connectionString.map quoted) ++
    line "database_name" (s.databaseName.map quoted) ++
    line "collection_name" (s.collectionName.map quoted) ++
    line "default_page_size" (s.defaultPageSize.map fun n => toString n.toNat) ++
    line "log_dir" (s.logDir.map quoted) ++
    line "log_level" (s.logLevel.map quoted)

/-- The texts of the settings. -/
def texts (s : Settings) : List String :=
  s.connectionString.toList ++ s.databaseName.toList ++ s.collectionName.toList ++
    s.logDir.toList ++ s.logLevel.toList

theorem longestRun_of_notMem {c : Char} {s : List Char} (h : c ∉ s) : Toml.longestRun c s = 0 := by
  refine congrArg Prod.fst
    (List.foldlRecOn (motive := fun runs : Nat × Nat => runs = (0, 0)) s _ rfl ?_)
  rintro _ rfl d member
  have other : d ≠ c := ne_of_mem_of_not_mem member h
  simp [other]

theorem escapeAll_of_plain {s : List Char}
    (h : ∀ c ∈ s, c ≠ '"' ∧ Toml.escaped? false c = none) : Toml.escapeAll false 0 0 s = s := by
  induction s with
  | nil => rfl
  | cons c rest ih =>
    obtain ⟨noQuote, bare⟩ := h c List.mem_cons_self
    have others := ih fun d member => h d (List.mem_cons_of_mem c member)
    rw [Toml.escapeAll, if_neg noQuote, bare, others]

/-- A character that needs no escape. -/
theorem escaped?_eq_none {c : Char} (backslash : c ≠ '\\') (visible : 32 ≤ c.toNat)
    (noDelete : c.toNat ≠ 127) : Toml.escaped? false c = none := by
  have other {d : Char} (low : d.toNat < 32) : c ≠ d := by
    rintro rfl
    omega
  have noControl : Toml.isControl c = false := by
    simp only [Toml.isControl, Bool.or_eq_false_iff, Bool.and_eq_false_iff, decide_eq_false_iff_not]
    exact ⟨Or.inl (Or.inl (by omega)), noDelete⟩
  rw [Toml.escaped?, if_neg (by omega), if_neg (other (by decide)), if_neg (other (by decide)),
    if_neg (by omega), if_neg (other (by decide)), if_neg backslash, noControl]
  rfl

/-- A plain text stands between two quotes as it is. -/
theorem stringText_of_plain {t : String} (plain : Plain t) :
    String.ofList (Toml.stringText t.toList) = quoted t := by
  have noControl : t.toList.any Toml.isControl = false := by
    rw [List.any_eq_false]
    intro c member
    obtain ⟨_, _, visible, noDelete⟩ := plain c member
    simp only [Toml.isControl, Bool.or_eq_true, Bool.and_eq_true, decide_eq_true_eq]
    omega
  have noBackslash : '\\' ∉ t.toList := fun member => (plain _ member).2.1 rfl
  have noQuote : '"' ∉ t.toList := fun member => (plain _ member).1 rfl
  have noBreak : '\n' ∉ t.toList := fun member => absurd (plain _ member).2.2.1 (by decide)
  have basic : Toml.formOf t.toList = .basic := by
    simp [Toml.formOf, noControl, noBackslash, longestRun_of_notMem noQuote, noBreak]
  have same : Toml.escapeAll false 0 0 t.toList = t.toList := by
    refine escapeAll_of_plain fun c member => ?_
    obtain ⟨quote, backslash, visible, noDelete⟩ := plain c member
    exact ⟨quote, escaped?_eq_none backslash visible noDelete⟩
  rw [Toml.stringText, basic]
  dsimp only
  rw [same, quoted, ← String.toList_inj]
  simp [String.toList_append]

theorem pairLine_eq_line (key : String) (value : Option (List Char)) :
    Toml.pairLine key value = (line key (value.map String.ofList)).toList := by
  cases value with
  | none => rfl
  | some value => simp [Toml.pairLine, line, String.toList_append]

theorem stringValue_of_plain {t : Option String} (plain : ∀ v ∈ t, Plain v) :
    (stringValue t).map String.ofList = t.map quoted := by
  cases t with
  | none => rfl
  | some v => exact congrArg some (stringText_of_plain (plain v rfl))

theorem toToml_eq_document {s : Settings} (plain : ∀ t ∈ s.texts, Plain t) :
    s.toToml = s.document := by
  have size : (s.defaultPageSize.map fun n => Decimal.digits n.toNat).map String.ofList =
      s.defaultPageSize.map fun n => toString n.toNat := by
    rw [Option.map_map]
    exact congrArg (Option.map · s.defaultPageSize)
      (funext fun n => Decimal.natText_eq_toString n.toNat)
  simp only [texts, List.mem_append, Option.mem_toList, or_imp, forall_and] at plain
  obtain ⟨⟨⟨⟨connectionString, databaseName⟩, collectionName⟩, logDir⟩, logLevel⟩ := plain
  rw [toToml, document, ← String.toList_inj]
  simp only [pairLine_eq_line, stringValue_of_plain connectionString,
    stringValue_of_plain databaseName, stringValue_of_plain collectionName, size,
    stringValue_of_plain logDir, stringValue_of_plain logLevel, String.toList_ofList,
    String.toList_append]

/-- The lines of plain settings are read as a table that sets them. -/
theorem exists_setBy_document {s : Settings} (plain : ∀ t ∈ s.texts, Plain t) :
    ∃ table, Toml.read? s.document = some table ∧ SetBy table s := by
  rw [← toToml_eq_document plain]
  exact ofToml_eq_ok_iff.mp s.ofToml_toToml

end Settings
end DocQuery
