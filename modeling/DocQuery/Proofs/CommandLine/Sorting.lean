import DocQuery.Proofs.CommandLine.Modes
import DocQuery.Proofs.Sort.Precedence
import DocQuery.Proofs.Sort.Spec
/-!
# Specs on the command line

A sort command reads its specs one after the other. A bad one ends it before anything is written;
else each spec has a name, so none is left out for want of one, and there is a clause exactly if
there is a spec.
-/
namespace DocQuery.Command

theorem plain_sort_eq_none_iff (clause : Option Document) :
    (Answer.sort clause).text .plain = "none\n" ↔ clause = none := by
  cases clause with
  | none => exact ⟨fun _ => rfl, fun _ => rfl⟩
  | some d =>
    have written : (Answer.sort (some d)).text .plain = (Answer.documentJson d).text ++ "\n" :=
      join_singleton _
    constructor
    · intro same
      rw [written, Answer.documentJson, Value.relaxedJson_document] at same
      exact absurd same (text_object_ne _)
    · intro none
      cases none

/-- A clause is read back as an object, and no clause as null. -/
theorem json_sort_eq_null_iff (clause : Option Document) :
    (Answer.sort clause).text .json = "\x7b\"sort\":null\x7d\n" ↔ clause = none := by
  have blank : ∀ c ∈ ['\n'], Json.isSpace c = true := by simp [Json.isSpace]
  have null : (Answer.sort none).text .json = "\x7b\"sort\":null\x7d\n" := by decide +kernel
  rw [← null]
  constructor
  · intro same
    cases clause with
    | none => rfl
    | some d =>
      have written : ∀ j : Json, String.join [j.text ++ "\n"] = j.text ++ String.ofList ['\n'] :=
        fun j => join_singleton _
      have texts : (Answer.sort (some d)).json.text ++ String.ofList ['\n'] =
          (Answer.sort none).json.text ++ String.ofList ['\n'] := by
        rw [← written, ← written]
        exact same
      have read := congrArg Json.read? texts
      rw [Json.read?_text_append _ blank, Json.read?_text_append _ blank] at read
      have shape : (Answer.sort (some d)).json =
          .object [("sort", .object (Json.sortMembers (d.map fun f => (f.1, f.2.relaxedJson))))] := by
        show Json.object [("sort", (Value.document d).relaxedJson)] = _
        rw [Value.relaxedJson_document]
      have noClause : (Answer.sort none).json = .object [("sort", .null)] := rfl
      rw [shape, noClause] at read
      simp [Json.reread, Json.rereadMembers] at read
  · rintro rfl
    rfl

theorem clause_eq_none_iff_of_ofSpecs {specs : List String} {fields : List SortField}
    (read : specs.map SortField.ofSpec = fields.map .ok) :
    SortField.clause fields = none ↔ specs = [] := by
  rw [SortField.clause_eq_none_iff]
  constructor
  · intro blank
    cases fields with
    | nil => exact List.map_eq_nil_iff.mp read
    | cons f rest =>
      obtain ⟨s, _, origin⟩ := exists_origin read (List.mem_cons_self (a := f) (l := rest))
      exact absurd (blank f List.mem_cons_self) (SortField.named_of_ofSpec origin).1
  · rintro rfl
    have none : fields = [] := by simpa using read
    rw [none]
    exact List.forall_mem_nil _

/-- A spec denotes a field exactly as the reader takes it: a name, in which colons are allowed,
alone or with a word for a direction behind a last colon, and with blanks around both. The field
that is read has a name without blanks at its ends, and is read again from that name and any word
for its direction. So a sort command fails with what is wrong with its first bad spec, and writes
and reports nothing else, or it makes a clause of all its specs, is never told that a name is
missing, and has no clause exactly if it has no specs. -/
theorem sort_takes_specs_as_denoted :
    (∀ s f, SortField.ofSpec s = .ok f ↔ SortField.Denotes s f) ∧
    (∀ s, ':' ∉ s.toList → Text.trim s ≠ "" →
      SortField.ofSpec s = .ok ⟨Text.trim s, .ascending⟩) ∧
    (∀ s f, SortField.ofSpec s = .ok f → f.field ≠ "" ∧ Text.trim f.field = f.field ∧
      ∀ word ∈ f.direction.words, SortField.ofSpec (f.field ++ ":" ++ word) = .ok f) ∧
    ∀ specs,
      (∃ good bad rest e, specs = good ++ bad :: rest ∧
        (∀ s ∈ good, ∃ f, SortField.ofSpec s = .ok f) ∧ SortField.ofSpec bad = .error e ∧
        ∀ mode k, (Command.sort specs).run mode k = ⟨(.error e, k), []⟩) ∨
      ∃ (fields : List SortField) (output : OutputMode → String),
        specs.map SortField.ofSpec = fields.map .ok ∧
        (∀ mode k, SortField.warning "skipping sort entry with empty field name" ∉
          ((Command.sort specs).run mode k).records) ∧
        (∀ mode taken, ((Command.sort specs).run mode ⟨none, taken⟩).value =
          (.ok (), ⟨none, taken ++ utf8 (output mode)⟩)) ∧
        (SortField.clause fields = none ↔ specs = []) ∧
        (output .plain = "none\n" ↔ specs = []) ∧
        (output .json = "\x7b\"sort\":null\x7d\n" ↔ specs = []) := by
  refine ⟨SortField.ofSpec_eq_ok_iff, ?_, ?_, ?_⟩
  · intro s absent named
    exact (SortField.ofSpec_of_no_colon absent _).mpr ⟨named, rfl⟩
  · intro s f read
    obtain ⟨named, trimmed⟩ := SortField.named_of_ofSpec read
    exact ⟨named, trimmed, fun word member => SortField.ofSpec_of_word read member⟩
  · intro specs
    cases outcome : SortField.ofSpecs specs with
    | error e =>
      obtain ⟨good, bad, rest, split, passed, failed⟩ :=
        (SortField.ofSpecs_eq_error_iff specs e).mp outcome
      refine Or.inl ⟨good, bad, rest, e, split, passed, failed, fun mode k => ?_⟩
      have refused : (Command.sort specs).Refused mode e := outcome
      have answered := answer_of_refused refused
      rw [run_of_error (congrArg Logged.value answered), answered]
    | ok fields =>
      have read := (SortField.ofSpecs_eq_ok_iff specs fields).mp outcome
      have found (mode : OutputMode) :
          ((Command.sort specs).answer mode).value = .ok (.sort (SortField.clause fields)) := by
        rw [answer_sort_of_ok outcome]
      have empty := clause_eq_none_iff_of_ofSpecs read
      refine Or.inr ⟨fields, (Answer.sort (SortField.clause fields)).text, read, ?_, ?_, empty,
        (plain_sort_eq_none_iff _).trans empty, (json_sort_eq_null_iff _).trans empty⟩
      · intro mode k
        rw [run_of_answer (found mode), answer_sort_of_ok outcome]
        apply SortField.blank_warning_notMem
        intro f member
        obtain ⟨s, _, origin⟩ := exists_origin read member
        exact (SortField.named_of_ofSpec origin).1
      · intro mode taken
        rw [run_of_answer (found mode), Sink.write_unbounded]

end DocQuery.Command
