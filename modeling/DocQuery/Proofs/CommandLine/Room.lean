import DocQuery.Proofs.CommandLine.Output
import DocQuery.Proofs.Sort.Spec
import DocQuery.Proofs.Update.Building
/-!
# Output into limited room

What is wrong with a command lies in what it is given, and is found before anything is written. A
command that is in order has one output in each mode (`Command.Prints`). It writes all of it or
reports that there was no room for it, in which case the room is full: whatever room there is, the
bytes that are taken are the first ones of the output (`Command.writes_whole_answer_or_reports`).
-/
namespace DocQuery

/-- The whole output of a command that is in order. For people there is the text itself, for
programs an object on one line. -/
inductive Command.Prints : Command → OutputMode → String → Prop where
  | filter {text compiled : String} {f : Filter} (read : Filter.ofText text = .ok f)
    (written : f.compile = .ok compiled) : Prints (.compile text) .plain (compiled ++ "\n")
  | filterObject {text compiled : String} {f : Filter} (read : Filter.ofText text = .ok f)
    (written : f.compile = .ok compiled) :
    Prints (.compile text) .json ("\x7b\"filter\":" ++ quoted compiled ++ "\x7d\n")
  | clause {specs : List String} {fields : List SortField} {d : Document}
    (read : SortField.ofSpecs specs = .ok fields) (made : SortField.clause fields = some d) :
    Prints (.sort specs) .plain ((Value.document d).relaxedJson.text ++ "\n")
  | clauseObject {specs : List String} {fields : List SortField} {d : Document}
    (read : SortField.ofSpecs specs = .ok fields) (made : SortField.clause fields = some d) :
    Prints (.sort specs) .json
      ("\x7b\"sort\":" ++ (Value.document d).relaxedJson.text ++ "\x7d\n")
  | noClause {specs : List String} {fields : List SortField}
    (read : SortField.ofSpecs specs = .ok fields) (none : SortField.clause fields = none) :
    Prints (.sort specs) .plain "none\n"
  | noClauseObject {specs : List String} {fields : List SortField}
    (read : SortField.ofSpecs specs = .ok fields) (none : SortField.clause fields = none) :
    Prints (.sort specs) .json "\x7b\"sort\":null\x7d\n"
  | update {text target : String} {u : Update} (read : Update.ofText text = .ok u)
    (written : u.compileTarget = .ok target) :
    Prints (.update text) .plain ("filter: " ++ target ++ "\nupdate: " ++
      (Value.document u.definition).relaxedJson.text ++ "\n")
  | updateObject {text target : String} {u : Update} (read : Update.ofText text = .ok u)
    (written : u.compileTarget = .ok target) :
    Prints (.update text) .json ("\x7b\"filter\":" ++ quoted target ++ ",\"update\":" ++
      (Value.document u.definition).relaxedJson.text ++ "\x7d\n")
  | settings (s : Settings) : Prints (.showSettings s) .plain s.toToml
  | settingsObject (s : Settings) : Prints (.showSettings s) .json (s.toJson.text ++ "\n")

/-- The failure is one that is found in what a command is given. -/
def Failure.OfInput : Failure → Prop
  | .structural _ => True
  | .emptyUpdate => True
  | .json => True
  | .settings _ => True
  | .driver _ => False
  | .io => False

theorem Filter.ofInput_of_ofText {s : String} {e : Failure} (failed : ofText s = .error e) :
    e.OfInput := by
  rcases bind_eq_error_iff.mp failed with unread | ⟨b, _, refused⟩
  · rw [readText?_error unread]
    trivial
  · obtain ⟨fault, rfl⟩ := b.filter_error e refused
    trivial

theorem SortField.ofInput_of_ofSpecs {specs : List String} {e : Failure}
    (failed : ofSpecs specs = .error e) : e.OfInput := by
  obtain ⟨_, _, _, _, _, bad⟩ := (ofSpecs_eq_error_iff specs e).mp failed
  obtain ⟨fault, rfl⟩ := ofSpec_error bad
  trivial

theorem Update.ofInput_of_ofText {s : String} {e : Failure} (failed : ofText s = .error e) :
    e.OfInput := by
  rcases bind_eq_error_iff.mp failed with unread | ⟨b, _, refused⟩
  · rw [readText?_error unread]
    trivial
  · rcases b.refused_or_described with ⟨d, e', _, bad, same⟩ | ⟨steps, described⟩
    · rw [same] at refused
      cases refused
      obtain ⟨fault, rfl⟩ := d.filter_error e bad
      trivial
    · rw [UpdateBag.update_of_describes described, UpdateBuilder.build_eq_error_iff] at refused
      rw [refused.2]
      trivial

namespace Command

variable {mode : OutputMode}

theorem ofInput_of_refused {c : Command} {e : Failure} (h : c.Refused mode e) : e.OfInput := by
  cases c with
  | compile text => exact Filter.ofInput_of_ofText h
  | sort specs => exact SortField.ofInput_of_ofSpecs h
  | update text => exact Update.ofInput_of_ofText h
  | showSettings s =>
    obtain ⟨_, rfl⟩ := refused_showSettings_iff.mp h
    cases mode <;> trivial

theorem text_json (a : Answer) : a.text .json = a.json.text ++ "\n" :=
  join_singleton _

/-- The text of a line with an object of one member. -/
theorem line_object_single {name front : String} (member : "\x7b" ++ quoted name ++ ":" = front)
    (j : Json) : (Json.object [(name, j)]).text ++ "\n" = front ++ j.text ++ "\x7d\n" := by
  rw [Json.text_object_single, member, String.append_assoc]
  rfl

variable {text : String} {specs : List String}

theorem prints_filter {compiled : String} {f : Filter} (read : Filter.ofText text = .ok f)
    (written : f.compile = .ok compiled) :
    (Command.compile text).Prints mode ((Answer.filter compiled).text mode) := by
  cases mode with
  | plain =>
    have whole : (Answer.filter compiled).text .plain = compiled ++ "\n" := join_singleton _
    rw [whole]
    exact .filter read written
  | json =>
    have front : "\x7b" ++ quoted "filter" ++ ":" = "\x7b\"filter\":" := by decide
    rw [text_json, Answer.json, line_object_single front]
    exact .filterObject read written

theorem prints_clause {fields : List SortField} (read : SortField.ofSpecs specs = .ok fields) :
    (Command.sort specs).Prints mode ((Answer.sort (SortField.clause fields)).text mode) := by
  cases made : SortField.clause fields with
  | none =>
    cases mode with
    | plain => exact .noClause read made
    | json =>
      have whole : (Answer.sort none).text .json = "\x7b\"sort\":null\x7d\n" := by decide +kernel
      rw [whole]
      exact .noClauseObject read made
  | some d =>
    cases mode with
    | plain =>
      have whole : (Answer.sort (some d)).text .plain = (Answer.documentJson d).text ++ "\n" :=
        join_singleton _
      rw [whole]
      exact .clause read made
    | json =>
      have front : "\x7b" ++ quoted "sort" ++ ":" = "\x7b\"sort\":" := by decide
      rw [text_json, Answer.json, line_object_single front]
      exact .clauseObject read made

theorem prints_update {target : String} {u : Update} (read : Update.ofText text = .ok u)
    (written : u.compileTarget = .ok target) :
    (Command.update text).Prints mode ((Answer.update ⟨target, u.definition⟩).text mode) := by
  cases mode with
  | plain =>
    have whole : (Answer.update ⟨target, u.definition⟩).text .plain = "filter: " ++ target ++
        "\nupdate: " ++ (Value.document u.definition).relaxedJson.text ++ "\n" := by
      show String.join ["filter: " ++ target ++ "\n",
        "update: " ++ (Answer.documentJson u.definition).text ++ "\n"] = _
      rw [String.join_cons, join_singleton]
      simp only [String.append_assoc]
      rfl
    rw [whole]
    exact .update read written
  | json =>
    have front : "\x7b" ++ quoted "filter" ++ ":" = "\x7b\"filter\":" := by decide
    have middle : "," ++ quoted "update" ++ ":" = ",\"update\":" := by decide
    have whole : (Answer.update ⟨target, u.definition⟩).text .json = "\x7b\"filter\":" ++
        quoted target ++ ",\"update\":" ++ (Value.document u.definition).relaxedJson.text ++
        "\x7d\n" := by
      rw [text_json, Answer.json, Json.text_object_pair, front, ← middle]
      simp only [String.append_assoc]
      rfl
    rw [whole]
    exact .updateObject read written

theorem prints_settings (s : Settings) :
    (Command.showSettings s).Prints mode ((Answer.settings s).text mode) := by
  cases mode with
  | plain =>
    have whole : (Answer.settings s).text .plain = s.toToml := join_singleton _
    rw [whole]
    exact .settings s
  | json =>
    rw [text_json]
    exact .settingsObject s

/-- A command that can be read has an answer, which is printed as it should be. -/
theorem refused_or_answered (c : Command) (mode : OutputMode) :
    (∃ e, c.Refused mode e) ∨ (∀ e, ¬ c.Refused mode e) ∧
      ∃ a, (c.answer mode).value = .ok a ∧ c.Prints mode (a.text mode) := by
  cases c with
  | compile text =>
    cases read : Filter.ofText text with
    | error e => exact Or.inl ⟨e, read⟩
    | ok f =>
      obtain ⟨_, compiled, written⟩ := Filter.compile_of_ofText text f read
      have value : (Dialect.standard.compileFilter f).value = .ok compiled :=
        (Filter.value_compileLogged f).trans written
      refine Or.inr ⟨by simp [Refused, read], .filter compiled, ?_, ?_⟩
      · rw [answer_compile_of_ok read, value]
        rfl
      · exact prints_filter read written
  | sort specs =>
    cases read : SortField.ofSpecs specs with
    | error e => exact Or.inl ⟨e, read⟩
    | ok fields =>
      refine Or.inr ⟨by simp [Refused, read], .sort (SortField.clause fields), ?_, ?_⟩
      · rw [answer_sort_of_ok read]
      · exact prints_clause read
  | update text =>
    cases read : Update.ofText text with
    | error e => exact Or.inl ⟨e, read⟩
    | ok u =>
      obtain ⟨_, filter, written, value⟩ := Update.compile_of_ofText text u read
      refine Or.inr ⟨by simp [Refused, read], .update ⟨filter, u.definition⟩, ?_, ?_⟩
      · rw [answer_update_of_ok read, value]
        rfl
      · exact prints_update read written
  | showSettings s =>
    cases told : s.told? with
    | none => exact Or.inl ⟨_, refused_showSettings_iff.mpr ⟨told, rfl⟩⟩
    | some t =>
      obtain rfl := Settings.told?_eq_some_iff.mp told
      refine Or.inr ⟨by simp [refused_showSettings_iff, told], .settings t, ?_, ?_⟩
      · rw [answer_showSettings]
      · exact prints_settings t

end Command

/-- Bytes are taken as far as there is room, and a failure tells if that is not all of them. -/
theorem Sink.exists_write_bounded (n : Nat) (taken bytes : List UInt8) :
    ∃ result, write ⟨some n, taken⟩ bytes =
        (result, ⟨some (n - bytes.length), taken ++ bytes.take (min n bytes.length)⟩) ∧
      (result = .ok () ↔ bytes.length ≤ n) ∧ (result = .error .io ↔ n < bytes.length) := by
  by_cases fits : bytes.length ≤ n
  · refine ⟨.ok (), ?_, by simp [fits], by simp [fits]⟩
    rw [write_of_fits taken fits, Nat.min_eq_right fits, List.take_length]
  · have long := Nat.not_le.mp fits
    refine ⟨.error .io, ?_, by simp [fits], by simp [long]⟩
    rw [write_of_too_long taken long, Nat.min_eq_left (Nat.le_of_lt long),
      Nat.sub_eq_zero_of_le (Nat.le_of_lt long)]

/-- If something is wrong with what a command is given, it fails with just that and writes nothing,
whatever room there is. Else it has an output. Where there is room for it the command succeeds and
takes up so much of the room; where there is not it fails and fills the room; the bytes that are
taken are in both cases the first ones of the output. It is the same for every way of cutting the
output into pieces. -/
theorem Command.writes_whole_answer_or_reports (c : Command) (mode : OutputMode) :
    (∃ e, c.Refused mode e ∧ e.OfInput ∧ ∀ k, (c.run mode k).value = (.error e, k)) ∨
    (∀ e, ¬ c.Refused mode e) ∧ ∃ output : String, c.Prints mode output ∧
      (∀ taken, (c.run mode ⟨none, taken⟩).value = (.ok (), ⟨none, taken ++ utf8 output⟩)) ∧
      ∀ room taken, ∃ result after, (c.run mode ⟨some room, taken⟩).value = (result, after) ∧
        (result = .ok () ↔ (utf8 output).length ≤ room) ∧
        (result = .error .io ↔ room < (utf8 output).length) ∧
        after.room = some (room - (utf8 output).length) ∧
        after.taken = taken ++ (utf8 output).take (min room (utf8 output).length) ∧
        ∀ pieces, String.join pieces = output →
          Sink.writeAll ⟨some room, taken⟩ pieces = (result, after) := by
  rcases c.refused_or_answered mode with ⟨e, refused⟩ | ⟨accepted, a, found, printed⟩
  · refine Or.inl ⟨e, refused, ofInput_of_refused refused, fun k => ?_⟩
    rw [run_of_error (congrArg Logged.value (answer_of_refused refused))]
  · refine Or.inr ⟨accepted, a.text mode, printed, ?_, ?_⟩
    · intro taken
      rw [run_of_answer found, Sink.write_unbounded]
    · intro room taken
      obtain ⟨result, wrote, ok, io⟩ := Sink.exists_write_bounded room taken (utf8 (a.text mode))
      rw [run_of_answer found]
      refine ⟨result, _, wrote, ok, io, rfl, rfl, ?_⟩
      intro pieces same
      rw [Sink.writeAll_eq_write, same, wrote]

/-- Three bytes of room for a clause of no names, and settings with a directory whose name is no
text. -/
theorem Command.writes_front_of_none :
    let foreign : Settings DirectoryName := { logDir := some ⟨[255]⟩ }
    (Command.sort []).Prints .plain "none\n" ∧
      ((Command.sort []).run .plain ⟨some 3, []⟩).value = (.error .io, ⟨some 0, utf8 "non"⟩) ∧
      Sink.writeAll ⟨some 3, []⟩ ["no", "ne\n"] = (.error .io, ⟨some 0, utf8 "non"⟩) ∧
      ∀ k, ((Command.showSettings foreign).run .json k).value = (.error .json, k) := by
  intro foreign
  have printed {output : String} (h : (Command.sort []).Prints .plain output) :
      output = "none\n" := by
    cases h with
    | clause read made =>
      cases read
      cases made
    | noClause _ _ => rfl
  have size : (utf8 "none\n").length = 5 := by decide
  have front : (utf8 "none\n").take 3 = utf8 "non" := by decide
  have noText : foreign.told? = none := by decide
  refine ⟨.noClause rfl rfl, ?_⟩
  rcases (Command.sort []).writes_whole_answer_or_reports .plain with
    ⟨e, refused, _⟩ | ⟨_, output, prints, _, bounded⟩
  · cases refused
  · obtain rfl := printed prints
    obtain ⟨result, ⟨room, taken⟩, ran, _, full, left, first, cut⟩ := bounded 3 []
    have failed : result = .error .io := full.mpr (by omega)
    have filled : (⟨room, taken⟩ : Sink) = ⟨some 0, utf8 "non"⟩ := by
      simp only [size] at left first
      rw [left, first, ← front]
      rfl
    rw [failed, filled] at ran cut
    refine ⟨ran, cut ["no", "ne\n"] (by decide), fun k => ?_⟩
    rcases (Command.showSettings foreign).writes_whole_answer_or_reports .json with
      ⟨e, refused, _, told⟩ | ⟨accepted, _⟩
    · obtain ⟨_, rfl⟩ := refused
      exact told k
    · exact absurd (refused_showSettings_iff.mpr ⟨noText, rfl⟩) (accepted .json)

end DocQuery
