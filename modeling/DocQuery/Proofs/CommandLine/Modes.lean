import DocQuery.Proofs.Chain
import DocQuery.Proofs.CommandLine.Output
import DocQuery.Proofs.Json.Line
import DocQuery.Proofs.Sort.Clause
/-!
# The two modes of output

A command finds its answer before anything is written, so both modes fail alike or write the same
answer: for people in plain text, for programs as an object on one line. Whatever characters the
texts hold, the object is read back with the very texts that stand in the plain output
(`Command.modes_carry_one_answer`). Only settings with a directory whose name is no text fail in
different ways. The order of a sort clause is lost: the members of an object are written in the
order of their names, in plain text as well (`Command.sort_writes_names_in_order`).
-/
namespace DocQuery

/-- What is written of a sort clause, and as which value. The fields stand in the order of their
names, which need not be the order in which they decide. -/
inductive SortField.Written : Option Document → String → Json → Prop where
  | none : Written none "none\n" .null
  | some {clause : Document} {members : List (String × Json)}
    (fields : members.Perm (clause.map fun f => (f.1, f.2.relaxedJson)))
    (byName : members.Pairwise fun m n => m.1 < n.1) :
    Written (some clause) ((Json.object members).text ++ "\n") (.object members)

namespace Command

/-- A plain output and an object that carry the same answer. -/
def Agree (plain : String) (j : Json) : Command → Prop
  | .compile _ => ∃ filter : String,
    j = .object [("filter", .string filter)] ∧ j.reread = j ∧ plain = filter ++ "\n"
  | .sort specs => ∃ (fields : List SortField) (clause : Json),
    SortField.ofSpecs specs = .ok fields ∧
    j = .object [("sort", clause)] ∧ j.reread = j ∧ (clause = .null ↔ plain = "none\n") ∧
    SortField.Written (SortField.clause fields) plain clause
  | .update _ => ∃ (filter : String) (update : Json),
    j = .object [("filter", .string filter), ("update", update)] ∧
    j.reread = .object [("filter", .string filter), ("update", update.reread)] ∧
    plain = "filter: " ++ filter ++ "\nupdate: " ++ update.text ++ "\n"
  | .showSettings s => ∃ t : Settings, s = t.named ∧ j = t.toJson ∧ plain = t.toToml

variable {mode : OutputMode}

theorem answer_compile {text : String} {a : Answer}
    (h : ((Command.compile text).answer mode).value = .ok a) : ∃ filter, a = .filter filter := by
  cases read : Filter.ofText text with
  | error e =>
    rw [answer_of_refused (c := .compile text) read] at h
    cases h
  | ok f =>
    rw [answer_compile_of_ok read] at h
    obtain ⟨filter, _, rfl⟩ := map_eq_ok_iff.mp h
    exact ⟨filter, rfl⟩

theorem answer_sort {specs : List String} {a : Answer}
    (h : ((Command.sort specs).answer mode).value = .ok a) :
    ∃ fields, SortField.ofSpecs specs = .ok fields ∧ a = .sort (SortField.clause fields) := by
  cases read : SortField.ofSpecs specs with
  | error e =>
    rw [answer_of_refused (c := .sort specs) read] at h
    cases h
  | ok fields =>
    rw [answer_sort_of_ok read] at h
    cases h
    exact ⟨fields, rfl, rfl⟩

theorem answer_update {text : String} {a : Answer}
    (h : ((Command.update text).answer mode).value = .ok a) : ∃ u, a = .update u := by
  cases read : Update.ofText text with
  | error e =>
    rw [answer_of_refused (c := .update text) read] at h
    cases h
  | ok u =>
    rw [answer_update_of_ok read] at h
    obtain ⟨update, _, rfl⟩ := map_eq_ok_iff.mp h
    exact ⟨update, rfl⟩

/-- Settings cannot be told by texts, or both modes have the same answer. -/
theorem untold_or_answer_eq (c : Command) :
    (∃ s, c = .showSettings s ∧ s.told? = none) ∨ ∀ mode, c.answer mode = c.answer .plain := by
  cases c with
  | compile text => exact Or.inr fun _ => rfl
  | sort specs => exact Or.inr fun _ => rfl
  | update text => exact Or.inr fun _ => rfl
  | showSettings s =>
    cases told : s.told? with
    | none => exact Or.inl ⟨s, rfl, told⟩
    | some t => exact Or.inr fun mode => by simp only [answer, told]

/-- The text of an object begins with a brace. -/
theorem text_object_ne (members : List (String × Json)) :
    (Json.object members).text ++ "\n" ≠ "none\n" := by
  intro same
  have front := congrArg String.toList same
  rw [String.toList_append, Json.toList_object, List.cons_append] at front
  exact absurd (List.cons.inj front).1 (by decide)

/-- Nothing but directions is in a clause, so its values are read back as they are. -/
theorem reread_clause {clause : Document} (clausal : SortField.Clausal clause)
    {members : List (String × Json)}
    (fields : members.Perm (clause.map fun f => (f.1, f.2.relaxedJson))) :
    (Json.object members).reread = .object members := by
  apply Json.reread_object
  intro m member
  obtain ⟨f, inside, rfl⟩ := List.mem_map.mp (fields.mem_iff.mp member)
  obtain ⟨direction, shape⟩ := clausal.directed f inside
  dsimp only
  rw [shape]
  rcases direction.relaxedJson_value with up | down
  · rw [up]
    exact Json.reread_int (by decide) (by decide)
  · rw [down]
    exact Json.reread_int (by decide) (by decide)

/-- The two outputs of a clause carry the same answer. -/
theorem agree_sort {specs : List String} {fields : List SortField}
    (read : SortField.ofSpecs specs = .ok fields) :
    Agree ((Answer.sort (SortField.clause fields)).text .plain)
      (Answer.sort (SortField.clause fields)).json (.sort specs) := by
  cases found : SortField.clause fields with
  | none =>
    refine ⟨fields, .null, read, rfl, rfl, ⟨fun _ => rfl, fun _ => rfl⟩, ?_⟩
    rw [found]
    exact .none
  | some clause =>
    have clausal := SortField.clausal_of_clause found
    let members := Json.sortMembers (clause.map fun f => (f.1, f.2.relaxedJson))
    have shape : Answer.documentJson clause = .object members := Value.relaxedJson_document clause
    have kept : members.Perm (clause.map fun f => (f.1, f.2.relaxedJson)) :=
      Json.perm_sortMembers _
    have distinct : ((clause.map fun f => (f.1, f.2.relaxedJson)).map (·.1)).Nodup := by
      rw [List.map_map]
      exact clausal.distinct
    have plain : (Answer.sort (some clause)).text .plain =
        (Json.object members).text ++ "\n" := by
      show String.join [(Answer.documentJson clause).text ++ "\n"] = _
      rw [shape, join_singleton]
    have same : (Answer.sort (some clause)).json = .object [("sort", .object members)] := by
      show Json.object [("sort", Answer.documentJson clause)] = _
      rw [shape]
    rw [plain, same]
    refine ⟨fields, .object members, read, rfl, ?_, ?_, ?_⟩
    · apply Json.reread_object
      intro m member
      rw [List.mem_singleton.mp member]
      exact reread_clause clausal kept
    · exact ⟨fun null => (by cases null), fun none => absurd none (text_object_ne members)⟩
    · rw [found]
      exact .some kept (Json.pairwise_sortMembers distinct)

/-- The plain text and the object of an answer carry the same. -/
theorem agree_of_answer {c : Command} {a : Answer} (h : (c.answer mode).value = .ok a) :
    Agree (a.text .plain) a.json c := by
  cases c with
  | compile text =>
    obtain ⟨filter, rfl⟩ := answer_compile h
    exact ⟨filter, rfl, rfl, join_singleton (filter ++ "\n")⟩
  | sort specs =>
    obtain ⟨fields, read, rfl⟩ := answer_sort h
    exact agree_sort read
  | update text =>
    obtain ⟨u, rfl⟩ := answer_update h
    refine ⟨u.filter, Answer.documentJson u.update, rfl, rfl, ?_⟩
    show String.join ["filter: " ++ u.filter ++ "\n",
      "update: " ++ (Answer.documentJson u.update).text ++ "\n"] = _
    rw [String.join_cons, join_singleton]
    simp only [String.append_assoc]
    rfl
  | showSettings s =>
    cases told : s.told? with
    | none =>
      rw [answer_of_refused (refused_showSettings_iff.mpr ⟨told, rfl⟩)] at h
      cases h
    | some t =>
      obtain rfl := Settings.told?_eq_some_iff.mp told
      rw [answer_showSettings] at h
      cases h
      exact ⟨t, rfl, rfl, join_singleton t.toToml⟩

/-- Into a place without limit, either both modes fail with the same error and write nothing, or
both succeed and what they write carries the same answer. In the one mode that is a plain text, in
the other an object on one line, which is read back with its numbers taken anew. Settings with a
directory whose name is no text fail in both modes, but each mode tells it in its own way. -/
theorem modes_carry_one_answer (c : Command) (taken : List UInt8) :
    (∃ e, ∀ mode, (c.run mode ⟨none, taken⟩).value = (.error e, ⟨none, taken⟩)) ∨
    (∃ s d, c = .showSettings s ∧ s.logDir = some d ∧ (∀ t : String, d.bytes ≠ utf8 t) ∧
      (c.run .plain ⟨none, taken⟩).value = (.error (.settings .unwritable), ⟨none, taken⟩) ∧
      (c.run .json ⟨none, taken⟩).value = (.error .json, ⟨none, taken⟩)) ∨
    ∃ (plain : String) (j : Json),
      (c.run .plain ⟨none, taken⟩).value = (.ok (), ⟨none, taken ++ utf8 plain⟩) ∧
      (c.run .json ⟨none, taken⟩).value = (.ok (), ⟨none, taken ++ utf8 (j.text ++ "\n")⟩) ∧
      '\n' ∉ j.text.toList ∧
      Json.read? (j.text ++ "\n") = some j.reread ∧
      c.Agree plain j := by
  rcases c.untold_or_answer_eq with ⟨s, rfl, untold⟩ | same
  · obtain ⟨d, named, foreign⟩ := Settings.told?_eq_none_iff.mp untold
    refine Or.inr (Or.inl ⟨s, d, rfl, named, foreign, ?_, ?_⟩)
    · rw [value_run, answer_of_refused (refused_showSettings_iff.mpr ⟨untold, rfl⟩)]
      rfl
    · rw [value_run, answer_of_refused (refused_showSettings_iff.mpr ⟨untold, rfl⟩)]
      rfl
  · cases found : (c.answer .plain).value with
    | error e =>
      refine Or.inl ⟨e, fun mode => ?_⟩
      rw [value_run, same, found]
    | ok a =>
      have line : a.text .json = a.json.text ++ "\n" := join_singleton (a.json.text ++ "\n")
      have blank : ∀ c ∈ ['\n'], Json.isSpace c = true := by simp [Json.isSpace]
      refine Or.inr (Or.inr ⟨a.text .plain, a.json, ?_, ?_, ?_, ?_, ?_⟩)
      · rw [value_run, found]
      · rw [value_run, same, found, ← line]
      · exact Json.newline_notMem_text a.json
      · exact Json.read?_text_append a.json blank
      · exact agree_of_answer found

/-- A clause that is to sort by the name and then by the age is written with the age in front. -/
theorem sort_writes_names_in_order :
    (SortField.ofSpecs ["name", "age"]).toOption.bind SortField.clause =
      some [("name", Direction.ascending.value), ("age", Direction.ascending.value)] ∧
    ((Command.sort ["name", "age"]).run .json {}).value =
      (.ok (), ⟨none, utf8 "\x7b\"sort\":\x7b\"age\":1,\"name\":1\x7d\x7d\n"⟩) := by
  have text : String.join [(Json.object [("sort", .object [("age", .int 1),
      ("name", .int 1)])]).text ++ "\n"] =
      "\x7b\"sort\":\x7b\"age\":1,\"name\":1\x7d\x7d\n" := by decide +kernel
  refine ⟨rfl, ?_⟩
  rw [← text]
  exact value_run (.sort ["name", "age"]) .json []

end Command
end DocQuery
