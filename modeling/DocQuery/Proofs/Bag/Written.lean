import DocQuery.Bag.Tree
import DocQuery.Bag.Writer
import DocQuery.Proofs.Value.Resized
/-!
# Bags as they may be written

In an object that stands for a bag, members that hold the defaults may be left out, and the others
may stand in any order, also in the objects inside. All of these objects are read as the same bag,
with integers in the width of the reader (`FilterBag.ofJson?_written`). The two kinds of object
differ in one default: a group below the root joins by `and` if nothing else is said, the root by
nothing.
-/
namespace DocQuery

namespace Json

/-- Members that may stand for the full list: those that are left out are defaults, and the order is
free. -/
def MayStandFor (defaults full members : List (String × Json)) : Prop :=
  ∃ kept : List (String × Json), kept.Sublist full ∧
    (∀ m ∈ full, m ∉ kept → m ∈ defaults) ∧ members.Perm kept

section

variable {defaults full members : List (String × Json)} {name : String} {j : Json}

theorem mayStandFor_self (defaults full : List (String × Json)) : MayStandFor defaults full full :=
  ⟨full, List.Sublist.refl full, fun _ member left => absurd member left, List.Perm.refl full⟩

theorem memberOnce?_eq_some (distinct : (members.map (·.1)).Nodup) (here : (name, j) ∈ members) :
    memberOnce? name members = some (some j) := by
  have only : members.filter (·.1 == name) = [(name, j)] := by
    induction members with
    | nil => cases here
    | cons m rest ih =>
      obtain ⟨fresh, others⟩ := List.nodup_cons.mp distinct
      rcases List.mem_cons.mp here with rfl | later
      · have none : rest.filter (·.1 == name) = [] := by
          rw [List.filter_eq_nil_iff]
          intro n member same
          exact fresh (List.mem_map.mpr ⟨n, member, beq_iff_eq.mp same⟩)
        simp [none]
      · have other : m.1 ≠ name := by
          intro same
          exact fresh (List.mem_map.mpr ⟨(name, j), later, same.symm⟩)
        rw [List.filter_cons_of_neg (by simpa using other), ih others later]
  unfold memberOnce?
  rw [only]

/-- What stands under one name is one value. -/
theorem eq_of_mem_of_mem {k : Json} (distinct : (members.map (·.1)).Nodup)
    (here : (name, j) ∈ members) (there : (name, k) ∈ members) : j = k := by
  have same := (memberOnce?_eq_some distinct here).symm.trans (memberOnce?_eq_some distinct there)
  exact Option.some.inj (Option.some.inj same)

theorem memberOnce?_eq_none (missing : name ∉ members.map (·.1)) :
    memberOnce? name members = some none := by
  have none : members.filter (·.1 == name) = [] := by
    rw [List.filter_eq_nil_iff]
    intro m member same
    exact missing (List.mem_map.mpr ⟨m, member, beq_iff_eq.mp same⟩)
  unfold memberOnce?
  rw [none]

/-- A member of the full list is there once, or it is left out and held the default. -/
theorem MayStandFor.memberOnce? (h : MayStandFor defaults full members)
    (distinct : (full.map (·.1)).Nodup) (here : (name, j) ∈ full) :
    Json.memberOnce? name members = some (some j) ∨
    Json.memberOnce? name members = some none ∧ (name, j) ∈ defaults := by
  obtain ⟨kept, part, left, order⟩ := h
  have keptDistinct : (kept.map (·.1)).Nodup := distinct.sublist (part.map _)
  have apart : (members.map (·.1)).Nodup := (order.map _).nodup_iff.mpr keptDistinct
  by_cases stays : (name, j) ∈ kept
  · exact Or.inl (memberOnce?_eq_some apart (order.mem_iff.mpr stays))
  · refine Or.inr ⟨memberOnce?_eq_none fun member => ?_, left _ here stays⟩
    obtain ⟨⟨_, k⟩, inside, rfl⟩ := List.mem_map.mp member
    have stayed := order.mem_iff.mp inside
    rw [eq_of_mem_of_mem distinct here (part.subset stayed)] at stays
    exact stays stayed

/-- What reads the property at one place of the list does not see whether its default is left
out. -/
theorem MayStandFor.exists_found {α : Type} {k : Json} (h : MayStandFor defaults full members)
    (distinct : (full.map (·.1)).Nodup) (alike : defaults.map (·.1) = full.map (·.1)) (i : Nat)
    (here : full[i]? = some (name, j)) (default : defaults[i]? = some (name, k))
    (read : Option Json → α) (neutral : read none = read (some k)) :
    ∃ found, Json.memberOnce? name members = some found ∧ read found = read (some j) := by
  rcases h.memberOnce? distinct (List.mem_of_getElem? here) with there | ⟨missing, left⟩
  · exact ⟨some j, there, rfl⟩
  · rw [← alike] at distinct
    obtain rfl := eq_of_mem_of_mem distinct left (List.mem_of_getElem? default)
    exact ⟨none, missing, neutral⟩

theorem MayStandFor.bag? {names : List String} (h : MayStandFor defaults full members)
    (same : full.map (·.1) = names) :
    (Json.object members).bag? names = names.mapM fun name => Json.memberOnce? name members := by
  obtain ⟨kept, part, _, order⟩ := h
  have known : members.all (fun m => names.contains m.1 || m.2.isProper) = true := by
    rw [List.all_eq_true]
    intro m member
    have named : m.1 ∈ names := by
      rw [← same]
      exact List.mem_map.mpr ⟨m, part.subset (order.mem_iff.mp member), rfl⟩
    simp [named]
  exact if_pos known

/-- Members that are read as they are written stay so in any order. -/
theorem MayStandFor.reread (h : MayStandFor defaults full members)
    (each : ∀ m ∈ full, m.2.reread = m.2) : (Json.object members).reread = .object members := by
  obtain ⟨kept, part, _, order⟩ := h
  exact reread_object fun m member => each m (part.subset (order.mem_iff.mp member))

end

end Json

theorem FieldType.ofJson?_name (budget : Nat) (t : FieldType) :
    FieldType.ofJson? budget (.string t.name) = some t := by
  cases t <;> rfl

theorem Comparison.ofJson?_name (budget : Nat) (c : Comparison) :
    Comparison.ofJson? budget (.string c.name) = some c := by
  cases c <;> rfl

theorem Connective.ofJson?_name (budget : Nat) (op : Connective) :
    Connective.ofJson? budget (.string op.name) = some op := by
  cases op <;> rfl

/-- A value that may be left out, in the width in which it is read; null is as good as nothing. -/
def Value.resizedOption : Option Value → Option Value
  | none => none
  | some .null => none
  | some v => some v.resized

namespace ConditionBag

/-- All members of the object of a bag, the children being written as `items`. -/
def members (b : ConditionBag) (items : List Json) : List (String × Json) :=
  [("parameter", .string b.parameter), ("type", .string b.fieldType.name),
    ("compare", .string b.compare.name), ("value", optionJson Value.storedJson b.value),
    ("groupOperator", .string b.groupOperator.name), ("groupConditions", .array items)]

/-- The members of the bag in which nothing is said. -/
def defaults : List (String × Json) :=
  members {} []

mutual

/-- The objects as which a bag below the root may be written. -/
inductive Written : ConditionBag → Json → Prop where
  | intro {b : ConditionBag} {items : List Json} {members : List (String × Json)}
    (children : AllWritten b.groupConditions items)
    (stands : Json.MayStandFor defaults (b.members items) members) : Written b (.object members)

inductive AllWritten : List ConditionBag → List Json → Prop where
  | nil : AllWritten [] []
  | cons {b : ConditionBag} {rest : List ConditionBag} {j : Json} {items : List Json}
    (first : Written b j) (others : AllWritten rest items) : AllWritten (b :: rest) (j :: items)

end

mutual

/-- All values in the bag are plain. -/
def isPlain : ConditionBag → Bool
  | ⟨_, _, _, value, _, children⟩ => value.all Value.isPlain && allArePlain children

def allArePlain : List ConditionBag → Bool
  | [] => true
  | b :: rest => isPlain b && allArePlain rest

end

mutual

/-- The bag with its values as they are read. -/
def resized : ConditionBag → ConditionBag
  | ⟨parameter, fieldType, compare, value, op, children⟩ =>
    ⟨parameter, fieldType, compare, Value.resizedOption value, op, allResized children⟩

def allResized : List ConditionBag → List ConditionBag
  | [] => []
  | b :: rest => resized b :: allResized rest

end

theorem map_fst_members (b : ConditionBag) (items : List Json) :
    (b.members items).map (·.1) = names := rfl

theorem distinct_names : names.Nodup := by decide

/-- A value is read as it is stored, null as nothing. -/
theorem nullable_storedJson {value : Option Value} {budget : Nat}
    (plain : value.all Value.isPlain = true)
    (shallow : (optionJson Value.storedJson value).depth ≤ budget) :
    Json.nullable (Value.ofJson? budget) (some (optionJson Value.storedJson value)) =
      some (Value.resizedOption value) := by
  cases value with
  | none => rfl
  | some v =>
    have read := Value.ofJson?_storedJson v budget plain shallow
    cases v with
    | null => rfl
    | bool _ | int32 _ | int64 _ | string _ | array _ => exact congrArg (Option.map some) read
    | _ => cases plain

/-- An object that may stand for a bag is read as its members tell. -/
theorem ofJson?_of_stands {b : ConditionBag} {items : List Json} {members : List (String × Json)}
    (stands : Json.MayStandFor defaults (b.members items) members) {budget : Nat}
    {value : Option Value} (readValue : Json.nullable (Value.ofJson? (budget + 1))
      (some (optionJson Value.storedJson b.value)) = some value)
    {children : List ConditionBag} (readChildren : items.mapM (ofJson? budget) = some children) :
    ofJson? (budget + 2) (.object members) =
      some { b with value := value, groupConditions := children } := by
  obtain ⟨parameter, lookParameter, readParameter⟩ := stands.exists_found distinct_names rfl
    0 rfl rfl (Json.orDefault "" Json.string?) rfl
  obtain ⟨fieldType, lookType, readType⟩ := stands.exists_found distinct_names rfl
    1 rfl rfl (Json.orDefault .string (FieldType.ofJson? (budget + 1))) rfl
  obtain ⟨compare, lookCompare, readCompare⟩ := stands.exists_found distinct_names rfl
    2 rfl rfl (Json.orDefault .equal (Comparison.ofJson? (budget + 1))) rfl
  obtain ⟨stored, lookValue, readStored⟩ := stands.exists_found distinct_names rfl
    3 rfl rfl (Json.nullable (Value.ofJson? (budget + 1))) rfl
  obtain ⟨op, lookOperator, readOperator⟩ := stands.exists_found distinct_names rfl
    4 rfl rfl (Json.orDefault .and (Connective.ofJson? (budget + 1))) rfl
  obtain ⟨group, lookChildren, readGroup⟩ := stands.exists_found distinct_names rfl
    5 rfl rfl (Json.orDefault [] (Json.list? (budget + 1) (ofJson? budget))) rfl
  have look : (Json.object members).bag? names =
      some [parameter, fieldType, compare, stored, op, group] := by
    rw [stands.bag? (map_fst_members b items)]
    simp [names, lookParameter, lookType, lookCompare, lookValue, lookOperator, lookChildren]
  have parameterIs : Json.orDefault "" Json.string? parameter = some b.parameter := readParameter
  have typeIs := readType.trans (FieldType.ofJson?_name (budget + 1) b.fieldType)
  have compareIs := readCompare.trans (Comparison.ofJson?_name (budget + 1) b.compare)
  have valueIs := readStored.trans readValue
  have operatorIs := readOperator.trans (Connective.ofJson?_name (budget + 1) b.groupOperator)
  have list : Json.list? (budget + 1) (ofJson? budget) (.array items) = some children := by
    rw [Json.list?, if_neg (Nat.succ_ne_zero budget), readChildren]
  have childrenAre := readGroup.trans list
  rw [ofJson?, look]
  simp only [Option.bind_eq_bind, Option.bind_some, parameterIs, typeIs, compareIs, valueIs,
    operatorIs, childrenAre]

/-- The levels that a bag needs: one for its object, one for the list of its children. -/
theorem depth_toJson (b : ConditionBag) :
    ∃ below, b.toJson.depth = below + 2 ∧
      (optionJson Value.storedJson b.value).depth ≤ below + 1 ∧
      Json.itemsDepth (listToJson b.groupConditions) ≤ below := by
  obtain ⟨parameter, fieldType, compare, value, op, children⟩ := b
  simp only [toJson, Json.depth, Json.membersDepth]
  refine ⟨max (optionJson Value.storedJson value).depth
    (Json.itemsDepth (listToJson children) + 1) - 1, ?_, ?_, ?_⟩ <;> omega

mutual

/-- Whatever object a bag is written as, it is read as the bag. -/
theorem ofJson?_written : ∀ (b : ConditionBag) {j : Json} {budget : Nat}, Written b j →
    b.isPlain = true → b.toJson.depth ≤ budget → ofJson? budget j = some b.resized
  | ⟨parameter, fieldType, compare, value, op, children⟩, _, budget, .intro inside stands, plain,
      shallow => by
    obtain ⟨plainValue, plainChildren⟩ := Bool.and_eq_true_iff.mp plain
    obtain ⟨below, levels, valueLevels, childLevels⟩ :=
      depth_toJson ⟨parameter, fieldType, compare, value, op, children⟩
    obtain ⟨rest, rfl⟩ : ∃ rest, budget = rest + 2 := ⟨budget - 2, by omega⟩
    have readChildren := mapM_written children inside plainChildren
      (Nat.le_trans childLevels (show below ≤ rest by omega))
    exact ofJson?_of_stands stands
      (nullable_storedJson plainValue (Nat.le_trans valueLevels (by omega))) readChildren

theorem mapM_written : ∀ (bs : List ConditionBag) {items : List Json} {budget : Nat},
    AllWritten bs items → allArePlain bs = true → Json.itemsDepth (listToJson bs) ≤ budget →
      items.mapM (ofJson? budget) = some (allResized bs)
  | [], _, _, .nil, _, _ => rfl
  | b :: rest, _, budget, .cons first others, plain, shallow => by
    obtain ⟨plainFirst, plainRest⟩ := Bool.and_eq_true_iff.mp plain
    have bound : max b.toJson.depth (Json.itemsDepth (listToJson rest)) ≤ budget := shallow
    have readFirst := ofJson?_written b first plainFirst (show b.toJson.depth ≤ budget by omega)
    have readRest := mapM_written rest others plainRest
      (show Json.itemsDepth (listToJson rest) ≤ budget by omega)
    rw [List.mapM_cons, readFirst, readRest]
    rfl

end

mutual

/-- The text of whatever object a bag is written as is read as this object. -/
theorem reread_written : ∀ (b : ConditionBag) {j : Json}, Written b j → b.isPlain = true →
    j.reread = j
  | ⟨parameter, fieldType, compare, value, op, children⟩, _, .intro inside stands, plain => by
    obtain ⟨plainValue, plainChildren⟩ := Bool.and_eq_true_iff.mp plain
    have stored : (optionJson Value.storedJson value).reread =
        optionJson Value.storedJson value := by
      cases value with
      | none => rfl
      | some v => exact v.reread_storedJson plainValue
    have list := Json.reread_array (reread_allWritten children inside plainChildren)
    apply stands.reread
    simp only [ConditionBag.members, List.forall_mem_cons]
    exact ⟨rfl, rfl, rfl, stored, rfl, list, List.forall_mem_nil _⟩

theorem reread_allWritten : ∀ (bs : List ConditionBag) {items : List Json}, AllWritten bs items →
    allArePlain bs = true → ∀ j ∈ items, j.reread = j
  | [], _, .nil, _ => List.forall_mem_nil _
  | b :: rest, _, .cons first others, plain => by
    obtain ⟨plainFirst, plainRest⟩ := Bool.and_eq_true_iff.mp plain
    exact List.forall_mem_cons.mpr
      ⟨reread_written b first plainFirst, reread_allWritten rest others plainRest⟩

end

mutual

/-- The whole object, with nothing left out, is among those that may be written. -/
theorem written_toJson : ∀ b : ConditionBag, Written b b.toJson
  | ⟨_, _, _, _, _, children⟩ => .intro (allWritten_toJson children) (Json.mayStandFor_self _ _)

theorem allWritten_toJson : ∀ bs : List ConditionBag, AllWritten bs (listToJson bs)
  | [] => .nil
  | b :: rest => .cons (written_toJson b) (allWritten_toJson rest)

end

/-- The objects as which the bag of a single condition may be written, which is null if there is
none. -/
inductive WrittenOption : Option ConditionBag → Json → Prop where
  | none : WrittenOption none .null
  | some {b : ConditionBag} {j : Json} (written : Written b j) : WrittenOption (some b) j

end ConditionBag

namespace FilterBag

open ConditionBag (AllWritten WrittenOption)

/-- All members of the object of a bag, what is inside being written as given. -/
def members (b : FilterBag) (condition : Json) (items : List Json) : List (String × Json) :=
  [("condition", condition), ("groupOperator", .string b.groupOperator.name),
    ("groupConditions", .array items)]

/-- The members of the bag in which nothing is said. -/
def defaults : List (String × Json) :=
  members {} .null []

/-- The objects as which a bag may be written. -/
inductive Written : FilterBag → Json → Prop where
  | intro {b : FilterBag} {condition : Json} {items : List Json} {members : List (String × Json)}
    (inside : WrittenOption b.condition condition) (children : AllWritten b.groupConditions items)
    (stands : Json.MayStandFor defaults (b.members condition items) members) :
    Written b (.object members)

/-- All values in the bag are plain. -/
def isPlain (b : FilterBag) : Bool :=
  b.condition.all ConditionBag.isPlain && ConditionBag.allArePlain b.groupConditions

/-- The bag with its values as they are read. -/
def resized (b : FilterBag) : FilterBag where
  condition := b.condition.map ConditionBag.resized
  groupOperator := b.groupOperator
  groupConditions := ConditionBag.allResized b.groupConditions

theorem map_fst_members (b : FilterBag) (condition : Json) (items : List Json) :
    (b.members condition items).map (·.1) = names := rfl

theorem distinct_names : names.Nodup := by decide

theorem written_toJson (b : FilterBag) : b.Written b.toJson := by
  have inside : WrittenOption b.condition (optionJson ConditionBag.toJson b.condition) := by
    cases b.condition with
    | none => exact .none
    | some c => exact .some c.written_toJson
  exact .intro inside (ConditionBag.allWritten_toJson _) (Json.mayStandFor_self _ _)

/-- The levels that a bag needs: one for its object, one for the list of its conditions. -/
theorem depth_toJson (b : FilterBag) :
    ∃ below, b.toJson.depth = below + 2 ∧
      (optionJson ConditionBag.toJson b.condition).depth ≤ below + 1 ∧
      Json.itemsDepth (ConditionBag.listToJson b.groupConditions) ≤ below := by
  simp only [toJson, Json.depth, Json.membersDepth]
  refine ⟨max (optionJson ConditionBag.toJson b.condition).depth
    (Json.itemsDepth (ConditionBag.listToJson b.groupConditions) + 1) - 1, ?_, ?_, ?_⟩ <;> omega

theorem nullable_written {c : Option ConditionBag} {j : Json} {budget : Nat}
    (written : WrittenOption c j) (plain : c.all ConditionBag.isPlain = true)
    (shallow : (optionJson ConditionBag.toJson c).depth ≤ budget) :
    Json.nullable (ConditionBag.ofJson? budget) (some j) =
      some (c.map ConditionBag.resized) := by
  cases written with
  | none => rfl
  | some written =>
    have read := ConditionBag.ofJson?_written _ written plain shallow
    cases written with
    | intro _ _ => exact congrArg (Option.map some) read

/-- An object that may stand for a bag is read as its members tell. -/
theorem ofJson?_of_stands {b : FilterBag} {inside : Json} {items : List Json}
    {members : List (String × Json)}
    (stands : Json.MayStandFor defaults (b.members inside items) members) {budget : Nat}
    {c : Option ConditionBag}
    (readInside : Json.nullable (ConditionBag.ofJson? (budget + 1)) (some inside) = some c)
    {children : List ConditionBag}
    (readChildren : items.mapM (ConditionBag.ofJson? budget) = some children) :
    ofJson? (budget + 2) (.object members) =
      some { b with condition := c, groupConditions := children } := by
  obtain ⟨condition, lookCondition, readCondition⟩ := stands.exists_found distinct_names rfl
    0 rfl rfl (Json.nullable (ConditionBag.ofJson? (budget + 1))) rfl
  obtain ⟨op, lookOperator, readOperator⟩ := stands.exists_found distinct_names rfl
    1 rfl rfl (Json.orDefault .none (Connective.ofJson? (budget + 1))) rfl
  obtain ⟨group, lookChildren, readGroup⟩ := stands.exists_found distinct_names rfl
    2 rfl rfl (Json.orDefault [] (Json.list? (budget + 1) (ConditionBag.ofJson? budget))) rfl
  have look : (Json.object members).bag? names = some [condition, op, group] := by
    rw [stands.bag? (map_fst_members b inside items)]
    simp [names, lookCondition, lookOperator, lookChildren]
  have conditionIs := readCondition.trans readInside
  have operatorIs := readOperator.trans (Connective.ofJson?_name (budget + 1) b.groupOperator)
  have list : Json.list? (budget + 1) (ConditionBag.ofJson? budget) (.array items) =
      some children := by
    rw [Json.list?, if_neg (Nat.succ_ne_zero budget), readChildren]
  have childrenAre := readGroup.trans list
  rw [ofJson?, look]
  simp only [Option.bind_eq_bind, Option.bind_some, conditionIs, operatorIs, Nat.add_sub_cancel,
    childrenAre]

/-- Whatever object a bag is written as, it is read as the bag. -/
theorem ofJson?_written {b : FilterBag} {j : Json} {budget : Nat} (written : b.Written j)
    (plain : b.isPlain = true) (shallow : b.toJson.depth ≤ budget) :
    ofJson? budget j = some b.resized := by
  obtain ⟨inside, children, stands⟩ := written
  obtain ⟨plainCondition, plainChildren⟩ := Bool.and_eq_true_iff.mp plain
  obtain ⟨below, levels, conditionLevels, childLevels⟩ := b.depth_toJson
  obtain ⟨rest, rfl⟩ : ∃ rest, budget = rest + 2 := ⟨budget - 2, by omega⟩
  have readInside := nullable_written inside plainCondition
    (Nat.le_trans conditionLevels (show below + 1 ≤ rest + 1 by omega))
  have readChildren := ConditionBag.mapM_written _ children plainChildren
    (Nat.le_trans childLevels (show below ≤ rest by omega))
  exact ofJson?_of_stands stands readInside readChildren

/-- The text of whatever object a bag is written as is read as this object. -/
theorem reread_written {b : FilterBag} {j : Json} (written : b.Written j)
    (plain : b.isPlain = true) : j.reread = j := by
  obtain ⟨inside, children, stands⟩ := written
  obtain ⟨plainCondition, plainChildren⟩ := Bool.and_eq_true_iff.mp plain
  have list := Json.reread_array (ConditionBag.reread_allWritten _ children plainChildren)
  apply stands.reread
  simp only [FilterBag.members, List.forall_mem_cons]
  refine ⟨?_, rfl, list, List.forall_mem_nil _⟩
  generalize b.condition = c at inside plainCondition
  cases inside with
  | none => rfl
  | some written => exact ConditionBag.reread_written _ written plainCondition

end FilterBag
end DocQuery
