import DocQuery.CommandLine.Command
/-!
# What a command writes

A command writes either its whole answer, as far as there is room, or nothing. The answer goes out
in pieces, but it does not matter where they are cut (`Sink.writeAll_eq_write`).
-/
namespace DocQuery

theorem join_singleton (s : String) : String.join [s] = s := by
  rw [String.join_cons, String.join_nil, String.append_empty]

namespace Sink

/-- Behind bytes that fit there is the room that they leave. -/
theorem write_append_of_fits {n : Nat} (taken : List UInt8) {bytes : List UInt8}
    (fits : bytes.length ≤ n) (rest : List UInt8) :
    write ⟨some n, taken⟩ (bytes ++ rest) =
      write ⟨some (n - bytes.length), taken ++ bytes⟩ rest := by
  have whole : (bytes ++ rest).length ≤ n ↔ rest.length ≤ n - bytes.length := by
    rw [List.length_append]
    omega
  by_cases all : rest.length ≤ n - bytes.length
  · rw [write_of_fits taken (whole.mpr all), write_of_fits (taken ++ bytes) all]
    simp [Nat.sub_sub, List.append_assoc]
  · have long : n < (bytes ++ rest).length := Nat.not_le.mp (mt whole.mp all)
    rw [write_of_too_long taken long, write_of_too_long (taken ++ bytes) (Nat.not_le.mp all)]
    simp [List.take_append, List.take_of_length_le fits]

/-- Behind bytes that do not fit nothing is taken. -/
theorem write_append_of_too_long {n : Nat} (taken : List UInt8) {bytes : List UInt8}
    (long : n < bytes.length) (rest : List UInt8) :
    write ⟨some n, taken⟩ (bytes ++ rest) = write ⟨some n, taken⟩ bytes := by
  have whole : n < (bytes ++ rest).length := by
    rw [List.length_append]
    omega
  rw [write_of_too_long taken whole, write_of_too_long taken long,
    List.take_append_of_le_length (Nat.le_of_lt long)]

/-- Texts that are written one after the other are taken as their joined text is. -/
theorem writeAll_eq_write (k : Sink) (texts : List String) :
    k.writeAll texts = k.write (utf8 (String.join texts)) := by
  induction texts generalizing k with
  | nil =>
    obtain ⟨room, taken⟩ := k
    cases room <;> simp [writeAll, write, utf8, String.join]
  | cons text rest ih =>
    rw [writeAll, String.join_cons, utf8_append]
    obtain ⟨room, taken⟩ := k
    cases room with
    | none =>
      rw [write_unbounded, write_unbounded, ← List.append_assoc, ← write_unbounded]
      exact ih _
    | some n =>
      by_cases fits : (utf8 text).length ≤ n
      · rw [write_of_fits taken fits, write_append_of_fits taken fits]
        exact ih _
      · have long := Nat.not_le.mp fits
        rw [write_append_of_too_long taken long, write_of_too_long taken long]

end Sink

namespace Command

/-- What is wrong with a command: its text or its specs cannot be read, or the name of a directory
is no text and so cannot be written. -/
def Refused : Command → OutputMode → Failure → Prop
  | .compile text, _, e => Filter.ofText text = .error e
  | .sort specs, _, e => SortField.ofSpecs specs = .error e
  | .update text, _, e => Update.ofText text = .error e
  | .showSettings s, .plain, e =>
    (∃ d, s.logDir = some d ∧ ∀ t : String, d.bytes ≠ utf8 t) ∧ e = .settings .unwritable
  | .showSettings s, .json, e =>
    (∃ d, s.logDir = some d ∧ ∀ t : String, d.bytes ≠ utf8 t) ∧ e = .json

variable {c : Command} {mode : OutputMode} {a : Answer} {e : Failure}

theorem refused_showSettings_iff {s : Settings DirectoryName} :
    (Command.showSettings s).Refused mode e ↔ s.told? = none ∧ e = mode.unwritable := by
  rw [Settings.told?_eq_none_iff]
  cases mode <;> exact Iff.rfl

theorem answer_of_refused (refused : c.Refused mode e) : c.answer mode = ⟨.error e, []⟩ := by
  cases c with
  | compile text =>
    have failed : Filter.ofText text = .error e := refused
    simp only [answer, failed]
    rfl
  | sort specs =>
    have failed : SortField.ofSpecs specs = .error e := refused
    simp only [answer, failed]
    rfl
  | update text =>
    have failed : Update.ofText text = .error e := refused
    simp only [answer, failed]
    rfl
  | showSettings s =>
    obtain ⟨untold, rfl⟩ := refused_showSettings_iff.mp refused
    simp only [answer, untold]
    rfl

theorem answer_compile_of_ok {text : String} {f : Filter} (read : Filter.ofText text = .ok f) :
    ((Command.compile text).answer mode).value =
      (Dialect.standard.compileFilter f).value.map .filter := by
  simp only [answer, read]
  rfl

theorem answer_sort_of_ok {specs : List String} {fields : List SortField}
    (read : SortField.ofSpecs specs = .ok fields) :
    (Command.sort specs).answer mode =
      ⟨.ok (.sort (SortField.clause fields)), (SortField.clauseLogged fields).records⟩ := by
  have whole : (Command.sort specs).answer mode =
      ⟨.ok (.sort (SortField.clause fields)), (SortField.clauseLogged fields).records ++ []⟩ := by
    simp only [answer, read]
    rfl
  rw [whole, List.append_nil]

theorem answer_update_of_ok {text : String} {u : Update} (read : Update.ofText text = .ok u) :
    ((Command.update text).answer mode).value =
      (Dialect.standard.compileUpdate u).value.map .update := by
  simp only [answer, read]
  rfl

theorem answer_showSettings (s : Settings) :
    (Command.showSettings s).answer mode = ⟨.ok (.settings s), []⟩ := by
  simp only [answer, s.told?_named]
  rfl

theorem run_of_answer (found : (c.answer mode).value = .ok a) (k : Sink) :
    c.run mode k = ⟨k.write (utf8 (a.text mode)), (c.answer mode).records⟩ := by
  have shape : c.answer mode = ⟨.ok a, (c.answer mode).records⟩ := by rw [← found]
  have whole : c.run mode k = ⟨k.writeAll (a.pieces mode), (c.answer mode).records ++ []⟩ := by
    rw [run, shape]
    rfl
  rw [whole, List.append_nil, Sink.writeAll_eq_write]
  rfl

theorem run_of_error (failed : (c.answer mode).value = .error e) (k : Sink) :
    c.run mode k = ⟨(.error e, k), (c.answer mode).records⟩ := by
  have shape : c.answer mode = ⟨.error e, (c.answer mode).records⟩ := by rw [← failed]
  have whole : c.run mode k = ⟨(.error e, k), (c.answer mode).records ++ []⟩ := by
    rw [run, shape]
    rfl
  rw [whole, List.append_nil]

theorem value_run (c : Command) (mode : OutputMode) (taken : List UInt8) :
    (c.run mode ⟨none, taken⟩).value = match (c.answer mode).value with
      | .ok a => (.ok (), ⟨none, taken ++ utf8 (a.text mode)⟩)
      | .error e => (.error e, ⟨none, taken⟩) := by
  cases found : (c.answer mode).value with
  | ok a => rw [run_of_answer found, Sink.write_unbounded]
  | error e => rw [run_of_error found]

end Command
end DocQuery
