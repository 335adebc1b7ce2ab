import DocQuery.Proofs.CommandLine.Output
import DocQuery.Proofs.Json.Line
import DocQuery.Proofs.Toml.Document
/-!
# Settings that are shown

What the program shows of its settings is a copy of them in both formats: it is read back as the
same settings, whatever characters are in the texts, and what is unset stays apart from the empty
text (`Command.shown_settings_read_back`).
-/
namespace DocQuery

namespace Toml

theorem fst_mem_of_entry {pairs : List Pair} {e : String × Toml}
    (h : e ∈ pairs.filterMap Pair.entry?) : e.1 ∈ pairs.map (·.1) := by
  obtain ⟨p, member, shape⟩ := List.mem_filterMap.mp h
  obtain ⟨value, _, rfl⟩ := Option.map_eq_some_iff.mp shape
  exact List.mem_map.mpr ⟨p, member, rfl⟩

/-- In the table of a document of pairs each key has its value. -/
theorem get?_pairs {pairs : List Pair} (distinct : (pairs.map (·.1)).Nodup) {p : Pair}
    (member : p ∈ pairs) : get? (pairs.filterMap Pair.entry?) p.1 = p.2.map (·.2) := by
  induction pairs with
  | nil => cases member
  | cons q rest ih =>
    obtain ⟨key, value⟩ := q
    obtain ⟨fresh, others⟩ := List.nodup_cons.mp distinct
    rcases List.mem_cons.mp member with rfl | later
    · cases value with
      | none =>
        have missing : ∀ e ∈ rest.filterMap Pair.entry?, ¬(e.1 == key) = true := by
          intro e inside same
          exact fresh (beq_iff_eq.mp same ▸ fst_mem_of_entry inside)
        have lost := List.find?_eq_none.mpr missing
        show Option.map (·.2) ((rest.filterMap Pair.entry?).find? (·.1 == key)) = none
        rw [lost]
        rfl
      | some value => simp [get?, Pair.entry?]
    · have other : key ≠ p.1 := by
        rintro rfl
        exact fresh (List.mem_map.mpr ⟨p, later, rfl⟩)
      rw [← ih others later]
      cases value with
      | none => rfl
      | some value => simp [get?, Pair.entry?, other]

end Toml

namespace Settings

def textPair (key : String) (s : Option String) : Toml.Pair :=
  (key, s.map fun s => (Toml.stringText s.toList, .string s))

/-- The lines of settings as pairs. -/
def pairs (s : Settings) : List Toml.Pair :=
  [textPair "connection_string" s.connectionString,
    textPair "database_name" s.databaseName,
    textPair "collection_name" s.collectionName,
    ("default_page_size",
      s.defaultPageSize.map fun n => (Decimal.digits n.toNat, .integer (n.toNat : Int))),
    textPair "log_dir" s.logDir,
    textPair "log_level" s.logLevel]

theorem map_fst_pairs (s : Settings) : s.pairs.map (·.1) = names := rfl

theorem toToml_eq (s : Settings) :
    s.toToml = String.ofList (s.pairs.flatMap Toml.Pair.line) := by
  simp [toToml, pairs, textPair, Toml.Pair.line, stringValue, Function.comp_def]

theorem bareKey_of_mem_names {key : String} (h : key ∈ names) : Toml.BareKey key := by
  have all : names.all (fun key => !key.toList.isEmpty && key.toList.all Toml.isBare) = true := by
    decide
  obtain ⟨filled, bare⟩ := Bool.and_eq_true_iff.mp (List.all_eq_true.mp all key h)
  exact ⟨by simpa using filled, List.all_eq_true.mp bare⟩

theorem reads_textPair (key : String) (s : Option String) :
    ∀ value ∈ (textPair key s).2, Toml.Reads value.1 value.2 := by
  intro value member
  obtain ⟨t, _, rfl⟩ := Option.map_eq_some_iff.mp member
  exact Toml.reads_stringText t

theorem reads_pairs (s : Settings) : ∀ p ∈ s.pairs, ∀ value ∈ p.2, Toml.Reads value.1 value.2 := by
  intro p member
  simp only [pairs, List.mem_cons, List.not_mem_nil, or_false] at member
  rcases member with rfl | rfl | rfl | rfl | rfl | rfl
  · exact reads_textPair _ _
  · exact reads_textPair _ _
  · exact reads_textPair _ _
  · intro value size
    obtain ⟨n, _, rfl⟩ := Option.map_eq_some_iff.mp size
    have room : n.toNat < Nat.pow 2 128 := Nat.lt_of_lt_of_le n.toNat_lt (by decide)
    exact Toml.reads_digits room
  · exact reads_textPair _ _
  · exact reads_textPair _ _

theorem wordOfInt?_toNat (n : UInt64) : wordOfInt? n.toNat = some n := by
  have room := n.toNat_lt
  have inside : (0 ≤ (n.toNat : Int) && (n.toNat : Int) ≤ 18446744073709551615) = true := by
    simp only [Bool.and_eq_true, decide_eq_true_eq]
    omega
  rw [wordOfInt?, if_pos inside]
  simp

/-- The lines of settings are read as the settings. -/
theorem ofToml_toToml (s : Settings) : ofToml s.toToml = .ok s := by
  have distinct : (s.pairs.map (·.1)).Nodup := by
    rw [map_fst_pairs]
    decide
  have bare : ∀ p ∈ s.pairs, Toml.BareKey p.1 := fun p member =>
    bareKey_of_mem_names (s.map_fst_pairs ▸ List.mem_map_of_mem member)
  have read := Toml.read?_pairs bare s.reads_pairs distinct
  have text (key : String) (value : Option String) (member : textPair key value ∈ s.pairs) :
      textOf? (s.pairs.filterMap Toml.Pair.entry?) key = some value := by
    have found := Toml.get?_pairs distinct member
    unfold textOf?
    rw [show (textPair key value).1 = key from rfl] at found
    rw [found]
    cases value <;> rfl
  have size : wordOf? (s.pairs.filterMap Toml.Pair.entry?) "default_page_size" =
      some s.defaultPageSize := by
    have found := Toml.get?_pairs distinct (p := ("default_page_size", s.defaultPageSize.map
      fun n => (Decimal.digits n.toNat, .integer (n.toNat : Int)))) (by simp [pairs])
    unfold wordOf?
    rw [found]
    cases s.defaultPageSize with
    | none => rfl
    | some n => exact congrArg (Option.map some) (wordOfInt?_toNat n)
  rw [toToml_eq, ofToml, read]
  simp only [Option.bind_some, ofEntries?]
  rw [text "connection_string" s.connectionString (by simp [pairs]),
    text "database_name" s.databaseName (by simp [pairs]),
    text "collection_name" s.collectionName (by simp [pairs]), size,
    text "log_dir" s.logDir (by simp [pairs]), text "log_level" s.logLevel (by simp [pairs])]
  rfl

theorem nullable_text (s : Option String) :
    Json.nullable Json.string? (some (optionJson .string s)) = some s := by
  cases s <;> rfl

theorem nullable_word (n : Option UInt64) :
    Json.nullable (fun j => j.int?.bind wordOfInt?)
      (some (optionJson (fun n => .int (n.toNat : Int)) n)) = some n := by
  cases n with
  | none => rfl
  | some n => exact congrArg (Option.map some) (wordOfInt?_toNat n)

theorem ofJson?_toJson (s : Settings) (budget : Nat) : ofJson? (budget + 1) s.toJson = some s := by
  have members : s.toJson.bag? names = some
      [some (optionJson .string s.connectionString), some (optionJson .string s.databaseName),
        some (optionJson .string s.collectionName),
        some (optionJson (fun n => .int (n.toNat : Int)) s.defaultPageSize),
        some (optionJson .string s.logDir), some (optionJson .string s.logLevel)] := by
    rfl
  rw [ofJson?, members]
  simp only [Option.bind_eq_bind, Option.bind_some, nullable_text, nullable_word]

/-- No number of settings is beyond sixty-four bits. -/
theorem reread_toJson (s : Settings) : s.toJson.reread = s.toJson := by
  have text (t : Option String) :
      (optionJson Json.string t).reread = optionJson Json.string t := by
    cases t <;> rfl
  have word (n : Option UInt64) : (optionJson (fun n => Json.int (n.toNat : Int)) n).reread =
      optionJson (fun n => .int (n.toNat : Int)) n := by
    cases n with
    | none => rfl
    | some n =>
      have room := n.toNat_lt
      exact Json.reread_int (by omega) (by omega)
  apply Json.reread_object
  simp [text, word]

end Settings

/-- Settings that are shown are read back from what was written: from the lines of TOML, and from
the one line of JSON. -/
theorem Command.shown_settings_read_back (s : Settings) :
    (∃ lines : String,
      ((Command.showSettings s).run .plain {}).value = (.ok (), ⟨none, utf8 lines⟩) ∧
      Settings.ofToml lines = .ok s) ∧
    ∃ line : String,
      ((Command.showSettings s).run .json {}).value = (.ok (), ⟨none, utf8 (line ++ "\n")⟩) ∧
      '\n' ∉ line.toList ∧
      readText? Settings.ofJson? (line ++ "\n") = .ok s := by
  have blank : ∀ c ∈ ['\n'], Json.isSpace c = true := by simp [Json.isSpace]
  have read := Json.read?_text_append s.toJson blank
  rw [s.reread_toJson] at read
  have found : Settings.ofJson? maxLevels s.toJson = some s := s.ofJson?_toJson 126
  refine ⟨⟨s.toToml, ?_, s.ofToml_toToml⟩, s.toJson.text, ?_, Json.newline_notMem_text s.toJson, ?_⟩
  · rw [value_run, answer_showSettings, ← join_singleton s.toToml]
    rfl
  · rw [value_run, answer_showSettings, ← join_singleton (s.toJson.text ++ "\n")]
    rfl
  · unfold readText?
    rw [show "\n" = String.ofList ['\n'] from rfl, read, Option.bind_some, found]

end DocQuery
