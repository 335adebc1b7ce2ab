import DocQuery.Dialect
import DocQuery.Proofs.Bag.Conversion
import DocQuery.Proofs.Filter.Rendering
import DocQuery.Proofs.Json.Reading
/-!
# Conversion and check agree

A filter has one root or group, and a bag may have both or neither, so the rule about the shape of
filters stands twice in the library. Here the two are compared. What a bag is converted to passes
the check (`FilterBag.wellFormed_of_filter`), so that whatever is read from JSON can be compiled;
and the bag of a filter is converted exactly if the filter passes the check, back to the filter
itself (`Filter.filter_bag_eq_ok_iff`).
-/
namespace DocQuery

namespace ConditionBag

theorem wellFormed_of_condition (b : ConditionBag) (c : Condition) (h : b.condition = .ok c) :
    c.WellFormed := by
  induction b using treeInduction generalizing c with
  | node b ih =>
    rcases (condition_eq_ok_iff b c).mp h with ⟨named, _, rfl⟩ | ⟨_, group, cs, read, rfl⟩
    · exact (Condition.wellFormed_leaf b.predicate).mpr named
    · refine (Condition.wellFormed_group b.groupOperator cs).mpr ⟨⟨group.2, ?_⟩, ?_⟩
      · intro empty
        rw [empty] at read
        exact group.1 (List.map_eq_nil_iff.mp read)
      · intro c member
        obtain ⟨d, child, readChild⟩ := exists_origin read member
        exact ih d child c readChild

end ConditionBag

/-- A filter that comes from a bag passes the check. -/
theorem FilterBag.wellFormed_of_filter (b : FilterBag) (f : Filter) (h : b.filter = .ok f) :
    f.root.WellFormed := by
  rcases (filter_eq_ok_iff b f).mp h with ⟨d, c, _, _, read, rfl⟩ | ⟨_, group, cs, read, rfl⟩
  · exact d.wellFormed_of_condition c read
  · -- The group at the root is the group of a node without a parameter.
    refine ConditionBag.wellFormed_of_condition
      { groupOperator := b.groupOperator, groupConditions := b.groupConditions } _ ?_
    exact (ConditionBag.condition_eq_ok_iff _ _).mpr (Or.inr ⟨rfl, group, cs, read, rfl⟩)

namespace Condition

mutual

/-- The bag that tells the condition and nothing else. -/
def bag : Condition → ConditionBag
  | .leaf p =>
    { parameter := p.parameter, fieldType := p.fieldType, compare := p.comparison,
      value := some p.value }
  | .group op children => { groupOperator := op, groupConditions := bags children }

def bags : List Condition → List ConditionBag
  | [] => []
  | c :: rest => bag c :: bags rest

end

theorem bags_eq_map (cs : List Condition) : bags cs = cs.map bag := by
  induction cs with
  | nil => rfl
  | cons c rest ih => rw [bags, List.map_cons, ih]

theorem bags_eq_nil_iff (cs : List Condition) : bags cs = [] ↔ cs = [] := by
  rw [bags_eq_map, List.map_eq_nil_iff]

/-- Bags of conditions that are each read back are read back as a list. -/
theorem map_condition_bags_iff {cs ds : List Condition}
    (each : ∀ c ∈ cs, ∀ d, c.bag.condition = .ok d ↔ c.WellFormed ∧ d = c) :
    (bags cs).map ConditionBag.condition = ds.map .ok ↔
      (∀ c ∈ cs, c.WellFormed) ∧ ds = cs := by
  rw [bags_eq_map]
  induction cs generalizing ds with
  | nil => cases ds <;> simp
  | cons c rest ih =>
    cases ds with
    | nil => simp
    | cons d others =>
      have first := each c List.mem_cons_self d
      have following := @ih others fun e member => each e (List.mem_cons_of_mem c member)
      simp only [List.map_cons, List.cons.injEq, first, following, List.forall_mem_cons]
      exact and_and_and_comm

theorem condition_bag_eq_ok_iff (c d : Condition) :
    c.bag.condition = .ok d ↔ c.WellFormed ∧ d = c := by
  induction c using treeInduction generalizing d with
  | leaf p =>
    rw [ConditionBag.condition_eq_ok_iff, wellFormed_leaf]
    simp [bag, ConditionBag.predicate]
  | group op children ih =>
    rw [ConditionBag.condition_eq_ok_iff, wellFormed_group]
    constructor
    · rintro (⟨named, _⟩ | ⟨_, ⟨some, real⟩, cs, read, rfl⟩)
      · exact absurd rfl named
      · obtain ⟨below, rfl⟩ := (map_condition_bags_iff ih).mp read
        exact ⟨⟨⟨real, mt (bags_eq_nil_iff cs).mpr some⟩, below⟩, rfl⟩
    · rintro ⟨⟨⟨real, some⟩, below⟩, rfl⟩
      exact Or.inr ⟨rfl, ⟨mt (bags_eq_nil_iff children).mp some, real⟩, children,
        (map_condition_bags_iff ih).mpr ⟨below, rfl⟩, rfl⟩

end Condition

namespace Filter

/-- The bag that tells the filter and nothing else. -/
def bag : Filter → FilterBag
  | .single c => { condition := some c.bag }
  | .group op conditions => { groupOperator := op, groupConditions := Condition.bags conditions }

theorem filter_bag_eq_ok_iff (f g : Filter) :
    f.bag.filter = .ok g ↔ f.check = .ok () ∧ g = f := by
  rw [FilterBag.filter_eq_ok_iff, check_eq_ok_iff]
  cases f with
  | single c => simp [bag, root, Condition.condition_bag_eq_ok_iff, and_assoc]
  | group op conditions =>
    have each : ∀ c ∈ conditions, ∀ d, c.bag.condition = .ok d ↔ c.WellFormed ∧ d = c :=
      fun c _ d => c.condition_bag_eq_ok_iff d
    rw [root, Condition.wellFormed_group]
    constructor
    · rintro (⟨_, _, own, _⟩ | ⟨_, ⟨some, real⟩, cs, read, rfl⟩)
      · cases own
      · obtain ⟨below, rfl⟩ := (Condition.map_condition_bags_iff each).mp read
        exact ⟨⟨⟨real, mt (Condition.bags_eq_nil_iff cs).mpr some⟩, below⟩, rfl⟩
    · rintro ⟨⟨⟨real, some⟩, below⟩, rfl⟩
      exact Or.inr ⟨rfl, ⟨mt (Condition.bags_eq_nil_iff conditions).mp some, real⟩, conditions,
        (Condition.map_condition_bags_iff each).mpr ⟨below, rfl⟩, rfl⟩

/-- What is read from JSON can be compiled. -/
theorem compile_of_ofText (s : String) (f : Filter) (h : ofText s = .ok f) :
    f.check = .ok () ∧ ∃ text, f.compile = .ok text := by
  obtain ⟨b, _, read⟩ := bind_eq_ok_iff.mp h
  have formed := b.wellFormed_of_filter f read
  exact ⟨(check_eq_ok_iff f).mpr formed, (exists_compile_iff f).mpr formed⟩

theorem wellFormed_byId (key : String) : (byId key).root.WellFormed := by
  unfold byId
  split <;> exact (Condition.wellFormed_leaf _).mpr (by simp [idField])

theorem value_compileLogged (f : Filter) : f.compileLogged.value = f.compile := by
  unfold compileLogged
  split
  next text success => exact success.symm
  next e failed => exact failed.symm

end Filter

theorem UpdateBuilder.build_ok (b : UpdateBuilder) (u : Update) (h : b.build = .ok u) :
    u.id = b.id? ∧ u.filter = b.filter? ∧ u.assignments = b.assignments ∧ b.assignments ≠ [] := by
  rw [build] at h
  split at h
  · cases h
  next some =>
    cases h
    exact ⟨rfl, rfl, rfl, some⟩

namespace UpdateBag

/-- The filter of the bag is converted before anything is built. -/
theorem update_eq_of_none {b : UpdateBag} (none : b.filter = none) :
    b.update = (UpdateBuilder.mk b.filterId .none b.fieldValues).build := by
  obtain ⟨key, filter, values⟩ := b
  subst none
  cases key <;> rfl

theorem update_eq_of_some {b : UpdateBag} {d : FilterBag} (some : b.filter = some d) :
    b.update = d.filter >>= fun f =>
      (UpdateBuilder.mk b.filterId (.some f) b.fieldValues).build := by
  obtain ⟨key, filter, values⟩ := b
  subst some
  cases converted : d.filter with
  | error e => cases key <;> simp [update, converted, bind, Except.bind]
  | ok f => cases key <;> simp [update, converted, bind, Except.bind] <;> rfl

/-- What an update takes over from the bag. -/
theorem update_ok (b : UpdateBag) (u : Update) (h : b.update = .ok u) :
    u.id = b.filterId ∧ u.assignments = b.fieldValues ∧ b.fieldValues ≠ [] ∧
      ((b.filter = none ∧ u.filter = none) ∨
        ∃ d f, b.filter = some d ∧ d.filter = .ok f ∧ u.filter = some f) := by
  cases own : b.filter with
  | none =>
    rw [update_eq_of_none own] at h
    obtain ⟨id, noFilter, assignments, some⟩ := UpdateBuilder.build_ok _ u h
    exact ⟨id, assignments, some, Or.inl ⟨rfl, noFilter⟩⟩
  | some d =>
    rw [update_eq_of_some own] at h
    obtain ⟨f, read, built⟩ := bind_eq_ok_iff.mp h
    obtain ⟨id, itsFilter, assignments, some⟩ := UpdateBuilder.build_ok _ u built
    exact ⟨id, assignments, some, Or.inr ⟨d, f, rfl, read, itsFilter⟩⟩

end UpdateBag

namespace Update

/-- An update that can be aimed can be written. -/
theorem exists_compileTarget (u : Update) (formed : ∀ f, u.filter = some f → f.root.WellFormed) :
    ∃ text, u.compileTarget = .ok text := by
  unfold compileTarget target
  cases u.id with
  | some key => exact (Filter.exists_compile_iff _).mpr (Filter.wellFormed_byId key)
  | none =>
    cases chosen : u.filter with
    | some f => exact (Filter.exists_compile_iff f).mpr (formed f chosen)
    | none => exact ⟨matchAll, rfl⟩

theorem value_compileTargetLogged (u : Update) :
    u.compileTargetLogged.value = u.compileTarget := by
  unfold compileTargetLogged compileTarget
  split
  · exact Filter.value_compileLogged _
  · rfl

end Update

/-- The standard dialect writes an update around the text of its target. -/
theorem Dialect.value_standard_compileUpdate (u : Update) {text : String}
    (written : u.compileTarget = .ok text) :
    (Dialect.standard.compileUpdate u).value = .ok ⟨text, u.definition⟩ := by
  have target := (u.value_compileTargetLogged).trans written
  simp only [standard, bind, target]
  rfl

namespace Update

/-- An update that is read from JSON has the assignments of the text, at least one, and its target
can be compiled. -/
theorem compile_of_ofText (s : String) (u : Update) (h : ofText s = .ok u) :
    (∃ b, readText? UpdateBag.ofJson? s = .ok b ∧ u.assignments = b.fieldValues ∧
      b.fieldValues ≠ []) ∧
    ∃ text, u.compileTarget = .ok text ∧
      (Dialect.standard.compileUpdate u).value = .ok ⟨text, u.definition⟩ := by
  obtain ⟨b, read, converted⟩ := bind_eq_ok_iff.mp h
  obtain ⟨_, assignments, some, itsFilter⟩ := b.update_ok u converted
  refine ⟨⟨b, read, assignments, some⟩, ?_⟩
  have formed : ∀ f, u.filter = .some f → f.root.WellFormed := by
    intro f chosen
    rcases itsFilter with ⟨_, none⟩ | ⟨d, g, _, filterRead, same⟩
    · rw [none] at chosen
      cases chosen
    · rw [same] at chosen
      cases chosen
      exact d.wellFormed_of_filter f filterRead
  obtain ⟨text, written⟩ := u.exists_compileTarget formed
  exact ⟨text, written, Dialect.value_standard_compileUpdate u written⟩

end Update

/-- Whatever filter is read from JSON passes the check and compiles; whatever update is read has an
assignment and a target that compiles, in the dialect as well; and a filter passes the check exactly
if its bag is converted, which gives the filter back. -/
theorem reading_agrees_with_check :
    (∀ s f, Filter.ofText s = .ok f → f.check = .ok () ∧ ∃ text, f.compile = .ok text) ∧
    (∀ s u, Update.ofText s = .ok u →
      (∃ b, readText? UpdateBag.ofJson? s = .ok b ∧ u.assignments = b.fieldValues ∧
        b.fieldValues ≠ []) ∧
      ∃ text, u.compileTarget = .ok text ∧
        (Dialect.standard.compileUpdate u).value = .ok ⟨text, u.definition⟩) ∧
    (∀ f g : Filter, f.bag.filter = .ok g ↔ f.check = .ok () ∧ g = f) :=
  ⟨Filter.compile_of_ofText, Update.compile_of_ofText, Filter.filter_bag_eq_ok_iff⟩

/-- A filter with a group in a group, an update by key, and what becomes of the same groups with an
operator and without. -/
theorem nested_group_passes_check :
    let j : Json := .object [("groupOperator", .string "OR"), ("groupConditions", .array
      [.object [("parameter", .string "a"), ("value", .bool true)],
        .object [("groupOperator", .string "NOR"), ("groupConditions", .array
          [.object [("parameter", .string "b"), ("compare", .string "NotEqual")]])]])]
    let groups (inner : Connective) : Filter := .group .or
      [.leaf ⟨"a", .string, .equal, .bool true⟩,
        .group inner [.leaf ⟨"b", .string, .notEqual, .null⟩]]
    let text := "\x7b $or : [ \x7b \"a\" : \x7b $eq: \"true\" \x7d \x7d,\x7b $nor : [ " ++
      "\x7b \"b\" : \x7b $ne: \"\" \x7d \x7d ] \x7d ] \x7d"
    let k : Json := .object [("filterId", .string "k"), ("fieldValues", .array
      [.object [("field", .string "a"), ("value", .null)]])]
    let target := "\x7b \"_id\" : \x7b $eq: \"k\" \x7d \x7d"
    (∃ f, Filter.ofText j.text = .ok f ∧ f.check = .ok () ∧ f.compile = .ok text) ∧
    (∃ u, Update.ofText k.text = .ok u ∧ u.compileTarget = .ok target ∧
      (Dialect.standard.compileUpdate u).value = .ok ⟨target, u.definition⟩) ∧
    (groups .nor).bag.filter = .ok (groups .nor) ∧
    (groups .none).bag.filter ≠ .ok (groups .none) := by
  intro j groups text k target
  obtain ⟨filters, updates, converted⟩ := reading_agrees_with_check
  have filterRead : Json.read? j.text = some j := j.read?_text
  have updateRead : Json.read? k.text = some k := k.read?_text
  have read : ((Filter.ofText j.text).toOption.bind fun f => f.compile.toOption) = some text := by
    rw [Filter.ofText, readText?, filterRead]
    decide +kernel
  have updated : ((Update.ofText k.text).toOption.bind fun u => u.compileTarget.toOption) =
      some target := by
    rw [Update.ofText, readText?, updateRead]
    decide +kernel
  refine ⟨?_, ?_, (converted _ _).mpr ⟨rfl, rfl⟩, fun same => ?_⟩
  · cases found : Filter.ofText j.text with
    | error e =>
      rw [found] at read
      cases read
    | ok f =>
      obtain ⟨checked, written, compiled⟩ := filters _ f found
      have same : some written = some text := by
        rw [← read, found]
        simp [Except.toOption, compiled]
      exact ⟨f, rfl, checked, Option.some_inj.mp same ▸ compiled⟩
  · cases found : Update.ofText k.text with
    | error e =>
      rw [found] at updated
      cases updated
    | ok u =>
      obtain ⟨_, written, compiled, handed⟩ := updates _ u found
      have same : some written = some target := by
        rw [← updated, found]
        simp [Except.toOption, compiled]
      obtain rfl := Option.some_inj.mp same
      exact ⟨u, rfl, compiled, handed⟩
  · cases ((converted _ _).mp same).1

end DocQuery
