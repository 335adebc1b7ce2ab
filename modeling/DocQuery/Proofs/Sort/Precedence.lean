import DocQuery.Proofs.Sort.Clause
import DocQuery.Proofs.Value.Fields
import Mathlib.Data.List.Basic
/-!
# The first field of each name decides

A sort clause has the names that are given, each at its first place and with its first direction.
Every field is accounted for: it is in the clause, or there is a warning that says why it is not.
The fields are taken apart at the end of the list, where the last step of the loop stands, so each
statement is about what one more field adds.
-/
namespace DocQuery.SortField

/-- The names to sort by, in the order in which they come first. -/
def firstNames (fields : List SortField) : List String :=
  ((fields.map (·.field)).filter (· ≠ "")).eraseDups

/-- What is told of a field behind `before`, if it is left out. -/
def complaint? (before : List SortField) (f : SortField) : Option Record :=
  if f.field = "" then
    some ⟨.warn, "docfilter::query::sort", "skipping sort entry with empty field name"⟩
  else if f.field ∈ before.map (·.field) then
    some ⟨.warn, "docfilter::query::sort", "duplicate sort field ignored: " ++ f.field⟩
  else none

/-- What is told of the fields that are left out, in their order. -/
def complaints (fields : List SortField) : List Record :=
  fields.zipIdx.filterMap fun entry => complaint? (fields.take entry.2) entry.1

/-- The names to sort by, each with `1` or `-1` by the direction of the first field that has it. -/
def firstFields (fields : List SortField) : List (String × Value) :=
  (firstNames fields).filterMap fun name =>
    (fields.find? (·.field == name)).map fun f =>
      (name, if f.direction = .ascending then .int32 1 else .int32 (-1))

/-- The clause as a document, which is empty where there is no clause. -/
def clauseDocument (fields : List SortField) : Document :=
  (clause fields).getD Document.empty

theorem gather_append (d : Document) (fields more : List SortField) :
    gather d (fields ++ more) =
      ((gather (gather d fields).1 more).1,
        (gather d fields).2 ++ (gather (gather d fields).1 more).2) := by
  induction fields generalizing d with
  | nil => rfl
  | cons f rest ih =>
    rw [List.cons_append, gather, gather]
    split
    · rw [ih]
      rfl
    split
    · rw [ih]
      rfl
    · exact ih _

theorem complaints_concat (fields : List SortField) (f : SortField) :
    complaints (fields ++ [f]) = complaints fields ++ (complaint? fields f).toList := by
  have earlier : ∀ entry ∈ fields.zipIdx,
      complaint? ((fields ++ [f]).take entry.2) entry.1 =
        complaint? (fields.take entry.2) entry.1 := by
    intro entry member
    have inside := List.snd_lt_of_mem_zipIdx member
    rw [List.take_append_of_le_length (by omega)]
  have last : ([f].zipIdx (0 + fields.length)).filterMap
      (fun entry => complaint? ((fields ++ [f]).take entry.2) entry.1) =
        (complaint? fields f).toList := by
    cases told : complaint? fields f with
    | none => simp [told]
    | some r => simp [told]
  rw [complaints, List.zipIdx_append, List.filterMap_append, List.filterMap_congr earlier, last]
  rfl

theorem firstNames_concat (fields : List SortField) (f : SortField) :
    firstNames (fields ++ [f]) =
      if f.field = "" ∨ f.field ∈ firstNames fields then firstNames fields
      else firstNames fields ++ [f.field] := by
  by_cases blank : f.field = ""
  · simp [firstNames, blank]
  · have known : f.field ∈ firstNames fields ↔
        f.field ∈ (fields.map (·.field)).filter (· ≠ "") := List.mem_eraseDups
    simp only [known, blank, false_or]
    simp [firstNames, blank, eraseDups_concat]

/-- One more field is left out for want of a name, left out because its name is there, or added. -/
theorem gather_concat_cases (d : Document) (fields : List SortField) (f : SortField) :
    (f.field = "" ∧ gather d (fields ++ [f]) = ((gather d fields).1, (gather d fields).2 ++
      [warning "skipping sort entry with empty field name"])) ∨
    (f.field ≠ "" ∧ f.field ∈ (gather d fields).1.keys ∧
      gather d (fields ++ [f]) = ((gather d fields).1, (gather d fields).2 ++
        [warning ("duplicate sort field ignored: " ++ f.field)])) ∨
    (f.field ≠ "" ∧ f.field ∉ (gather d fields).1.keys ∧
      gather d (fields ++ [f]) =
        ((gather d fields).1.insert f.field f.direction.value, (gather d fields).2)) := by
  rw [gather_append]
  by_cases blank : f.field = ""
  · exact Or.inl ⟨blank, by simp [gather, blank]⟩
  · by_cases known : f.field ∈ (gather d fields).1.keys
    · have found := (Document.contains_eq_true_iff _ _).mpr known
      exact Or.inr (Or.inl ⟨blank, known, by simp [gather, blank, found]⟩)
    · have new := (Document.contains_eq_false_iff _ _).mpr known
      exact Or.inr (Or.inr ⟨blank, known, by simp [gather, blank, new]⟩)

theorem mem_firstNames_iff (fields : List SortField) (name : String) :
    name ∈ firstNames fields ↔ name ≠ "" ∧ ∃ f ∈ fields, f.field = name := by
  simp [firstNames, and_comm]

theorem firstNames_eq_nil_iff (fields : List SortField) :
    firstNames fields = [] ↔ ∀ f ∈ fields, f.field = "" := by
  simp [firstNames, eraseDups_eq_nil_iff]

theorem keys_gather (fields : List SortField) :
    (gather Document.empty fields).1.keys = firstNames fields := by
  induction fields using List.reverseRecOn with
  | nil => rfl
  | append_singleton fields f ih =>
    rw [firstNames_concat, ← ih]
    rcases gather_concat_cases Document.empty fields f with
      ⟨blank, step⟩ | ⟨named, known, step⟩ | ⟨named, new, step⟩
    · rw [step, if_pos (Or.inl blank)]
    · rw [step, if_pos (Or.inr known)]
    · rw [step, if_neg (by simp [named, new]), Document.keys_insert, if_neg new]

/-- The warnings of the loop are those that each field calls for by what stands before it. -/
theorem warnings_gather (fields : List SortField) :
    (gather Document.empty fields).2 = complaints fields := by
  induction fields using List.reverseRecOn with
  | nil => rfl
  | append_singleton fields f ih =>
    have known_iff : f.field ≠ "" →
        (f.field ∈ (gather Document.empty fields).1.keys ↔ f.field ∈ fields.map (·.field)) := by
      intro named
      rw [keys_gather, mem_firstNames_iff, List.mem_map]
      exact and_iff_right named
    rw [complaints_concat, ← ih]
    rcases gather_concat_cases Document.empty fields f with
      ⟨blank, step⟩ | ⟨named, known, step⟩ | ⟨named, new, step⟩
    · rw [step, complaint?, if_pos blank]
      rfl
    · rw [step, complaint?, if_neg named, if_pos ((known_iff named).mp known)]
      rfl
    · rw [step, complaint?, if_neg named, if_neg fun known => new ((known_iff named).mpr known)]
      simp

theorem find?_field_isSome_iff {fields : List SortField} {name : String} :
    (fields.find? (·.field == name)).isSome ↔ ∃ f ∈ fields, f.field = name := by
  simp

theorem firstFields_concat (fields : List SortField) (f : SortField) :
    firstFields (fields ++ [f]) =
      if f.field = "" ∨ f.field ∈ firstNames fields then firstFields fields
      else firstFields fields ++ [(f.field, f.direction.value)] := by
  have kept : (firstNames fields).filterMap (fun name =>
      ((fields ++ [f]).find? (·.field == name)).map fun f =>
        (name, if f.direction = .ascending then Value.int32 1 else .int32 (-1))) =
      firstFields fields := by
    refine List.filterMap_congr fun name member => ?_
    have found := find?_field_isSome_iff.mpr ((mem_firstNames_iff fields name).mp member).2
    rw [List.find?_append, Option.or_of_isSome found]
  rw [firstFields, firstNames_concat]
  split
  · exact kept
  next new =>
    have unknown : fields.find? (·.field == f.field) = none := by
      rw [← Option.not_isSome_iff_eq_none, find?_field_isSome_iff]
      intro known
      have named : f.field ≠ "" := fun blank => new (Or.inl blank)
      exact new (Or.inr ((mem_firstNames_iff fields f.field).mpr ⟨named, known⟩))
    rw [List.filterMap_append, kept]
    cases way : f.direction <;> simp [unknown, way, Direction.value]

/-- The document has the first field of each name and no other. -/
theorem document_gather (fields : List SortField) :
    (gather Document.empty fields).1 = firstFields fields := by
  induction fields using List.reverseRecOn with
  | nil => rfl
  | append_singleton fields f ih =>
    rw [firstFields_concat, ← keys_gather, ← ih]
    rcases gather_concat_cases Document.empty fields f with
      ⟨blank, step⟩ | ⟨named, known, step⟩ | ⟨named, new, step⟩
    · rw [step, if_pos (Or.inl blank)]
    · rw [step, if_pos (Or.inr known)]
    · rw [step, if_neg (by simp [named, new]), Document.insert_of_not_mem new]

/-- Each field is either in the document or has its warning. -/
theorem length_gather (fields : List SortField) :
    (gather Document.empty fields).1.length + (gather Document.empty fields).2.length =
      fields.length := by
  induction fields using List.reverseRecOn with
  | nil => rfl
  | append_singleton fields f ih =>
    rw [List.length_append, List.length_singleton, ← ih]
    rcases gather_concat_cases Document.empty fields f with
      ⟨blank, step⟩ | ⟨named, known, step⟩ | ⟨named, new, step⟩
    · simp [step, Nat.add_assoc]
    · simp [step, Nat.add_assoc]
    · simp only [step, Document.insert_of_not_mem new, List.length_append, List.length_singleton]
      omega

theorem document_concat (d : Document) (fields : List SortField) (f : SortField) :
    (gather d (fields ++ [f])).1 =
      if f.field = "" ∨ f.field ∈ (gather d fields).1.keys then (gather d fields).1
      else (gather d fields).1 ++ [(f.field, f.direction.value)] := by
  rcases gather_concat_cases d fields f with
    ⟨blank, step⟩ | ⟨named, known, step⟩ | ⟨named, new, step⟩
  · rw [step, if_pos (Or.inl blank)]
  · rw [step, if_pos (Or.inr known)]
  · rw [step, if_neg (by simp [named, new]), Document.insert_of_not_mem new]

/-- Fields that are added change nothing about those that are there. -/
theorem document_append (fields more : List SortField) :
    (gather Document.empty (fields ++ more)).1 =
      (gather Document.empty fields).1 ++ (gather Document.empty more).1.filter
        fun entry => entry.1 ∉ (gather Document.empty fields).1.keys := by
  induction more using List.reverseRecOn with
  | nil => simp [gather, Document.empty]
  | append_singleton more f ih =>
    have joined : f.field ∈ (gather Document.empty (fields ++ more)).1.keys ↔
        f.field ∈ (gather Document.empty fields).1.keys ∨
          f.field ∈ (gather Document.empty more).1.keys := by
      simp only [keys_gather, mem_firstNames_iff, List.mem_append, or_and_right, exists_or,
        and_or_left]
    rw [← List.append_assoc, document_concat, document_concat, ih]
    rw [ih] at joined
    by_cases blank : f.field = ""
    · rw [if_pos (Or.inl blank), if_pos (Or.inl blank)]
    by_cases known : f.field ∈ (gather Document.empty more).1.keys
    · rw [if_pos (Or.inr (joined.mpr (Or.inr known))), if_pos (Or.inr known)]
    · rw [if_neg (not_or.mpr ⟨blank, known⟩), List.filter_append]
      -- The clause of `more` grows by `f`; the whole grows by it if the name is new there too.
      by_cases before : f.field ∈ (gather Document.empty fields).1.keys
      · rw [if_pos (Or.inr (joined.mpr (Or.inl before)))]
        simp [before]
      · rw [if_neg (not_or.mpr ⟨blank, fun there => (joined.mp there).elim before known⟩)]
        simp [before]

theorem clauseLogged_of_empty {fields : List SortField}
    (none : (gather Document.empty fields).1 = []) :
    clauseLogged fields = ⟨.none, (gather Document.empty fields).2⟩ := by
  simp [clauseLogged, none]

theorem clauseLogged_of_ne {fields : List SortField}
    (some : (gather Document.empty fields).1 ≠ []) :
    clauseLogged fields = ⟨.some (gather Document.empty fields).1,
      (gather Document.empty fields).2 ++
        [.trace (traceLine (gather Document.empty fields).1.length)]⟩ := by
  have kept : (gather Document.empty fields).1.isEmpty = false := by simpa using some
  simp [clauseLogged, kept]

theorem clauseDocument_eq (fields : List SortField) :
    clauseDocument fields = (gather Document.empty fields).1 := by
  by_cases none : (gather Document.empty fields).1 = []
  · rw [clauseDocument, clause, clauseLogged_of_empty none, none]
    rfl
  · rw [clauseDocument, clause, clauseLogged_of_ne none]
    rfl

theorem clause_eq_none_iff (fields : List SortField) :
    clause fields = none ↔ ∀ f ∈ fields, f.field = "" := by
  rw [← firstNames_eq_nil_iff, ← keys_gather, Document.keys_eq_nil_iff]
  by_cases none : (gather Document.empty fields).1 = []
  · simp [clause, clauseLogged_of_empty none, none]
  · simp [clause, clauseLogged_of_ne none, none]

theorem records_clauseLogged (fields : List SortField) :
    (clauseLogged fields).records = complaints fields ++
      ((clause fields).map fun d => Record.trace (traceLine d.length)).toList := by
  rw [← warnings_gather]
  by_cases none : (gather Document.empty fields).1 = []
  · simp [clause, clauseLogged_of_empty none]
  · simp [clause, clauseLogged_of_ne none]

/-- Where every field has a name nothing is told of a name that is missing. -/
theorem blank_warning_notMem {fields : List SortField} (named : ∀ f ∈ fields, f.field ≠ "") :
    warning "skipping sort entry with empty field name" ∉ (clauseLogged fields).records := by
  rw [records_clauseLogged, List.mem_append, not_or]
  constructor
  · intro told
    obtain ⟨entry, member, complaint⟩ := List.mem_filterMap.mp told
    have inside : entry.1 ∈ fields := List.fst_mem_of_mem_zipIdx member
    rw [complaint?, if_neg (named entry.1 inside)] at complaint
    split at complaint
    · have message := congrArg (fun r => r.message.toList) (Option.some.inj complaint)
      simp only [warning, String.toList_append] at message
      exact absurd (List.cons.inj message).1 (by decide)
    · cases complaint
  · intro traced
    obtain ⟨d, _, same⟩ := Option.map_eq_some_iff.mp (Option.mem_toList.mp traced)
    cases congrArg Record.level same

/-- There is no clause exactly if no field has a name. Else it has the names in the order in which
they come first, each with `1` or `-1` by the direction of its first field. Each field that is left
out has its warning, in the order of the fields, and only a clause is traced, with the number of its
names. Fields that are added go behind those that are there and change nothing about them. -/
theorem clause_takes_first_of_each_name (fields : List SortField) :
    (clause fields = none ↔ ∀ f ∈ fields, f.field = "") ∧
    clauseDocument fields = firstFields fields ∧
    (clauseDocument fields).map (·.1) = firstNames fields ∧
    (clauseLogged fields).records = complaints fields ++
      ((clause fields).map fun d => (⟨.trace, "docfilter::trace",
        "\x7b\"op\":\"compile_sort\",\"keys\":" ++ toString d.length ++ "\x7d"⟩ :
          Record)).toList ∧
    (clauseDocument fields).length + (complaints fields).length = fields.length ∧
    ∀ more, clauseDocument (fields ++ more) =
      clauseDocument fields ++ (clauseDocument more).filter
        fun entry => entry.1 ∉ (clauseDocument fields).map (·.1) := by
  refine ⟨clause_eq_none_iff fields, ?_, ?_, ?_, ?_, ?_⟩
  · rw [clauseDocument_eq, document_gather]
  · rw [clauseDocument_eq]
    exact keys_gather fields
  · simp only [records_clauseLogged, Record.trace, traceTarget, traceLine_eq,
      Decimal.natText_eq_toString]
  · rw [clauseDocument_eq, ← warnings_gather]
    exact length_gather fields
  · intro more
    simp only [clauseDocument_eq]
    exact document_append fields more

end DocQuery.SortField
