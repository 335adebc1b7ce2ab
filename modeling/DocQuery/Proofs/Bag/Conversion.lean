import DocQuery.Bag.Tree
import DocQuery.Proofs.Filter.Shape
/-!
# What becomes of the conditions in a bag

A bag is to be read without loss: each node that names a parameter becomes a leaf, in the order of
the document, and a node with the content of a leaf and of a group is refused. The conversion asks
for an operator before it takes children for a group, so children under the operator `none` do not
count: beside a parameter, or beside the root's own condition, they vanish without a report. Such a
node is called muted. `filter_keeps_named_iff` says that this is the only loss and the only way in
which an overfull node gets through.
-/
namespace DocQuery

namespace ConditionBag

/-- Induction over bags: a node may assume the statement of its children. -/
@[elab_as_elim]
theorem treeInduction {motive : ConditionBag → Prop}
    (node : ∀ b : ConditionBag, (∀ d ∈ b.groupConditions, motive d) → motive b) : ∀ b, motive b
  | ⟨parameter, fieldType, compare, value, op, children⟩ =>
    node ⟨parameter, fieldType, compare, value, op, children⟩ fun d member =>
      have _ := List.sizeOf_lt_of_mem member
      treeInduction node d

mutual

/-- The node and all nodes below it in the order of the document. -/
def nodes : ConditionBag → List ConditionBag
  | ⟨parameter, fieldType, compare, value, op, children⟩ =>
    ⟨parameter, fieldType, compare, value, op, children⟩ :: nodesOf children

def nodesOf : List ConditionBag → List ConditionBag
  | [] => []
  | b :: rest => nodes b ++ nodesOf rest

end

/-- The comparison that the node tells; a value that is missing counts as null. -/
def predicate (b : ConditionBag) : Predicate :=
  ⟨b.parameter, b.fieldType, b.compare, b.value.getD .null⟩

def predicate? (b : ConditionBag) : Option Predicate :=
  if b.parameter = "" then none else some b.predicate

/-- The comparisons of all nodes that name a parameter. -/
def named (b : ConditionBag) : List Predicate :=
  b.nodes.filterMap predicate?

/-- The node has the content of a leaf and children as well. -/
def Overfull (b : ConditionBag) : Prop :=
  b.parameter ≠ "" ∧ b.groupConditions ≠ []

/-- The node has children beside its parameter, and no operator for them. -/
def Muted (b : ConditionBag) : Prop :=
  b.Overfull ∧ b.groupOperator = .none

/-- The node has the content of either a leaf or a group. Children without an operator do not make a
group. -/
def Definite (b : ConditionBag) : Prop :=
  b.parameter ≠ "" ↔ ¬ (b.groupConditions ≠ [] ∧ b.groupOperator ≠ .none)

instance (b : ConditionBag) : Decidable b.Overfull :=
  inferInstanceAs (Decidable (b.parameter ≠ "" ∧ b.groupConditions ≠ []))

instance (b : ConditionBag) : Decidable b.Muted :=
  inferInstanceAs (Decidable (b.Overfull ∧ b.groupOperator = .none))

mutual

/-- The nodes that are not below a muted one. -/
def reached : ConditionBag → List ConditionBag
  | ⟨parameter, fieldType, compare, value, op, children⟩ =>
    ⟨parameter, fieldType, compare, value, op, children⟩ ::
      if Muted ⟨parameter, fieldType, compare, value, op, children⟩ then [] else reachedOf children

def reachedOf : List ConditionBag → List ConditionBag
  | [] => []
  | b :: rest => reached b ++ reachedOf rest

end

/-- There is a comparison among the nodes below a muted one. -/
def Hides (b : ConditionBag) : Prop :=
  b.Muted ∧ b.groupConditions.flatMap named ≠ []

/-- A comparison of the bag is not reached by the conversion. -/
def Drops (b : ConditionBag) : Prop :=
  ∃ n ∈ b.nodes, n.Hides

theorem muted_of_leaf {b : ConditionBag} (named : b.parameter ≠ "")
    (children : b.groupConditions ≠ [])
    (noGroup : ¬ (b.groupConditions ≠ [] ∧ b.groupOperator ≠ .none)) : b.Muted :=
  ⟨⟨named, children⟩, Decidable.byContradiction fun real => noGroup ⟨children, real⟩⟩

/-- Of the nodes with the content of both kinds only a muted one passes for a leaf. -/
theorem definite_iff_muted {b : ConditionBag} (both : b.Overfull) : b.Definite ↔ b.Muted := by
  constructor
  · intro definite
    exact muted_of_leaf both.1 both.2 (definite.mp both.1)
  · intro muted
    exact ⟨fun _ group => group.2 muted.2, fun _ => both.1⟩

theorem nodes_eq (b : ConditionBag) : b.nodes = b :: nodesOf b.groupConditions := by
  cases b
  rfl

theorem nodesOf_eq_flatMap (bs : List ConditionBag) : nodesOf bs = bs.flatMap nodes := by
  induction bs with
  | nil => rfl
  | cons b rest ih => rw [nodesOf, List.flatMap_cons, ih]

theorem mem_nodes {n b : ConditionBag} :
    n ∈ b.nodes ↔ n = b ∨ ∃ d ∈ b.groupConditions, n ∈ d.nodes := by
  rw [nodes_eq, nodesOf_eq_flatMap, List.mem_cons, List.mem_flatMap]

theorem reached_eq (b : ConditionBag) :
    b.reached = b :: if b.Muted then [] else reachedOf b.groupConditions := by
  cases b
  rfl

theorem reachedOf_eq_flatMap (bs : List ConditionBag) : reachedOf bs = bs.flatMap reached := by
  induction bs with
  | nil => rfl
  | cons b rest ih => rw [reachedOf, List.flatMap_cons, ih]

/-- Lists of nodes that are each reached as a whole are reached as a whole. -/
theorem reachedOf_eq_nodesOf {bs : List ConditionBag} (each : ∀ d ∈ bs, d.reached = d.nodes) :
    reachedOf bs = nodesOf bs := by
  rw [reachedOf_eq_flatMap, nodesOf_eq_flatMap, List.flatMap_def, List.flatMap_def,
    List.map_congr_left each]

/-- Where no node is muted all nodes are reached. -/
theorem reached_eq_nodes {b : ConditionBag} (loud : ∀ n ∈ b.nodes, ¬ n.Muted) :
    b.reached = b.nodes := by
  induction b using treeInduction with
  | node b ih =>
    have self : ¬ b.Muted := loud b (mem_nodes.mpr (Or.inl rfl))
    have below : reachedOf b.groupConditions = nodesOf b.groupConditions :=
      reachedOf_eq_nodesOf fun d child =>
        ih d child fun n inside => loud n (mem_nodes.mpr (Or.inr ⟨d, child, inside⟩))
    rw [reached_eq, nodes_eq, if_neg self, below]

theorem named_eq (b : ConditionBag) :
    b.named = b.predicate?.toList ++ b.groupConditions.flatMap named := by
  have below : (nodesOf b.groupConditions).filterMap predicate? =
      b.groupConditions.flatMap named := by
    rw [nodesOf_eq_flatMap, List.filterMap_flatMap]
    rfl
  rw [named, nodes_eq, List.filterMap_cons, below]
  cases b.predicate? <;> rfl

theorem drops_iff (b : ConditionBag) :
    b.Drops ↔ b.Hides ∨ ∃ d ∈ b.groupConditions, d.Drops := by
  constructor
  · rintro ⟨n, member, hides⟩
    rcases mem_nodes.mp member with rfl | ⟨d, child, below⟩
    · exact Or.inl hides
    · exact Or.inr ⟨d, child, n, below, hides⟩
  · rintro (hides | ⟨d, child, n, below, hides⟩)
    · exact ⟨b, mem_nodes.mpr (Or.inl rfl), hides⟩
    · exact ⟨n, mem_nodes.mpr (Or.inr ⟨d, child, below⟩), hides⟩

/-- Where nothing is compared nothing can be lost. -/
theorem named_ne_nil_of_drops {b : ConditionBag} (drops : b.Drops) : b.named ≠ [] := by
  obtain ⟨n, member, ⟨⟨named, _⟩, _⟩, _⟩ := drops
  have found : n.predicate ∈ b.named :=
    List.mem_filterMap.mpr ⟨n, member, by rw [predicate?, if_neg named]⟩
  exact List.ne_nil_of_mem found

theorem not_drops_of_named_nil {bs : List ConditionBag} (none : bs.flatMap named = []) :
    ∀ d ∈ bs, ¬ d.Drops := by
  intro d member drops
  exact named_ne_nil_of_drops drops (List.flatMap_eq_nil_iff.mp none d member)

end ConditionBag

/-- Two parts that are each within another's part make up the whole only if both are complete. -/
theorem append_eq_append_iff_of_sublist {α : Type} {part whole rest all : List α}
    (first : part.Sublist whole) (second : rest.Sublist all) :
    part ++ rest = whole ++ all ↔ part = whole ∧ rest = all := by
  constructor
  · intro same
    have total := congrArg List.length same
    rw [List.length_append, List.length_append] at total
    have shorter := first.length_le
    have shorter' := second.length_le
    exact ⟨first.eq_of_length (by omega), second.eq_of_length (by omega)⟩
  · rintro ⟨rfl, rfl⟩
    rfl

theorem isGroup_eq_true_iff (op : Connective) (children : List ConditionBag) :
    isGroup op children = true ↔ children ≠ [] ∧ op ≠ .none := by
  simp [isGroup]

namespace ConditionBag

theorem conditions_eq_ok_iff (bs : List ConditionBag) (cs : List Condition) :
    conditions bs = .ok cs ↔ bs.map condition = cs.map .ok :=
  walk_eq_ok_iff conditions rfl (fun _ _ => rfl) bs cs

/-- A node is read either as a leaf, whatever stands under it without an operator, or as a group. -/
theorem condition_eq_ok_iff (b : ConditionBag) (c : Condition) :
    b.condition = .ok c ↔
      (b.parameter ≠ "" ∧ ¬ (b.groupConditions ≠ [] ∧ b.groupOperator ≠ .none) ∧
        c = .leaf b.predicate) ∨
      (b.parameter = "" ∧ (b.groupConditions ≠ [] ∧ b.groupOperator ≠ .none) ∧
        ∃ cs, b.groupConditions.map condition = cs.map .ok ∧ c = .group b.groupOperator cs) := by
  obtain ⟨parameter, fieldType, compare, value, op, children⟩ := b
  rw [← isGroup_eq_true_iff, condition]
  by_cases unnamed : parameter = ""
  · have noLeaf : (!parameter.isEmpty) = false := by simp [unnamed]
    rw [noLeaf]
    cases isGroup op children with
    | false => simp [unnamed]
    | true => simp [unnamed, bind_eq_ok_iff, conditions_eq_ok_iff, @eq_comm _ c]
  · have isLeaf : (!parameter.isEmpty) = true := by simp [unnamed]
    rw [isLeaf]
    cases isGroup op children with
    | false => simp [unnamed, predicate, @eq_comm _ c]
    | true => simp [unnamed]

theorem conditions_error (bs : List ConditionBag) (e : Failure)
    (failed : conditions bs = .error e) : ∃ b ∈ bs, b.condition = .error e :=
  walk_error conditions rfl (fun _ _ => rfl) bs e failed

/-- What the conversion has against a node is its shape. -/
theorem condition_error (b : ConditionBag) (e : Failure) (failed : b.condition = .error e) :
    ∃ fault, e = .structural fault := by
  induction b using treeInduction with
  | node b ih =>
    obtain ⟨parameter, fieldType, compare, value, op, children⟩ := b
    rw [condition] at failed
    split at failed
    · exact ⟨_, (Except.error.inj failed).symm⟩
    · exact ⟨_, (Except.error.inj failed).symm⟩
    · cases failed
    · rcases bind_eq_error_iff.mp failed with below | ⟨_, _, last⟩
      · obtain ⟨d, member, same⟩ := conditions_error children e below
        exact ih d member same
      · cases last

theorem flatMap_leaves_sublist {bs : List ConditionBag} {cs : List Condition}
    (read : bs.map condition = cs.map .ok)
    (each : ∀ b ∈ bs, ∀ c, b.condition = .ok c → c.leaves.Sublist b.named) :
    (cs.flatMap Condition.leaves).Sublist (bs.flatMap named) := by
  induction bs generalizing cs with
  | nil => cases cs <;> simp_all
  | cons b rest ih =>
    cases cs with
    | nil => cases read
    | cons c others =>
      obtain ⟨first, following⟩ := List.cons.inj read
      rw [List.flatMap_cons, List.flatMap_cons]
      exact (each b List.mem_cons_self c first).append
        (ih following fun d member => each d (List.mem_cons_of_mem b member))

/-- What comes out of a node is found in it, in the same order. -/
theorem leaves_sublist_named (b : ConditionBag) (c : Condition) (h : b.condition = .ok c) :
    c.leaves.Sublist b.named := by
  induction b using treeInduction generalizing c with
  | node b ih =>
    rw [named_eq]
    rcases (condition_eq_ok_iff b c).mp h with ⟨named, _, rfl⟩ | ⟨unnamed, _, cs, below, rfl⟩
    · rw [Condition.leaves_leaf, predicate?, if_neg named]
      exact List.sublist_append_left _ _
    · rw [Condition.leaves_group, predicate?, if_pos unnamed]
      exact flatMap_leaves_sublist below ih

theorem flatMap_leaves_eq_iff {bs : List ConditionBag} {cs : List Condition}
    (read : bs.map condition = cs.map .ok)
    (each : ∀ b ∈ bs, ∀ c, b.condition = .ok c → (c.leaves = b.named ↔ ¬ b.Drops)) :
    cs.flatMap Condition.leaves = bs.flatMap named ↔ ¬ ∃ b ∈ bs, b.Drops := by
  induction bs generalizing cs with
  | nil => cases cs <;> simp_all
  | cons b rest ih =>
    cases cs with
    | nil => cases read
    | cons c others =>
      obtain ⟨first, following⟩ := List.cons.inj read
      have within := flatMap_leaves_sublist following fun d _ e => leaves_sublist_named d e
      have tail := ih following fun d member => each d (List.mem_cons_of_mem b member)
      rw [List.flatMap_cons, List.flatMap_cons,
        append_eq_append_iff_of_sublist (leaves_sublist_named b c first) within, tail,
        each b List.mem_cons_self c first]
      simp

/-- A node that is read gives all of its comparisons unless one stands below a muted node. -/
theorem leaves_eq_named_iff (b : ConditionBag) (c : Condition) (h : b.condition = .ok c) :
    c.leaves = b.named ↔ ¬ b.Drops := by
  induction b using treeInduction generalizing c with
  | node b ih =>
    rw [named_eq, drops_iff]
    rcases (condition_eq_ok_iff b c).mp h with ⟨named, noGroup, rfl⟩ | ⟨unnamed, _, cs, below, rfl⟩
    · rw [Condition.leaves_leaf, predicate?, if_neg named]
      by_cases none : b.groupConditions.flatMap ConditionBag.named = []
      · have silent := not_drops_of_named_nil none
        simpa [none, Hides] using silent
      · have children : b.groupConditions ≠ [] := by
          intro empty
          exact none (by rw [empty]; rfl)
        have muted := muted_of_leaf named children noGroup
        simp [none, Hides, muted]
    · have heard : ¬ b.Hides := fun hides => hides.1.1.1 unnamed
      rw [Condition.leaves_group, predicate?, if_pos unnamed]
      simpa [heard] using flatMap_leaves_eq_iff below ih

/-- A list of nodes is read if everything that is reached in it is definite. -/
theorem exists_conditions_iff {bs : List ConditionBag}
    (each : ∀ d ∈ bs, (∃ c, d.condition = .ok c) ↔ ∀ n ∈ d.reached, n.Definite) :
    (∃ cs : List Condition, bs.map condition = cs.map .ok) ↔
      ∀ n ∈ reachedOf bs, n.Definite := by
  rw [reachedOf_eq_flatMap]
  constructor
  · rintro ⟨cs, read⟩ n member
    obtain ⟨d, child, inside⟩ := List.mem_flatMap.mp member
    obtain ⟨c, _, readChild⟩ := exists_result read child
    exact (each d child).mp ⟨c, readChild⟩ n inside
  · intro definite
    refine exists_results fun d child => (each d child).mpr fun n inside => ?_
    exact definite n (List.mem_flatMap.mpr ⟨d, child, inside⟩)

/-- A node is read exactly if the nodes that are reached from it are definite. -/
theorem exists_condition_iff (b : ConditionBag) :
    (∃ c, b.condition = .ok c) ↔ ∀ n ∈ b.reached, n.Definite := by
  induction b using treeInduction with
  | node b ih =>
    have below := exists_conditions_iff ih
    rw [reached_eq, List.forall_mem_cons]
    constructor
    · rintro ⟨c, h⟩
      rcases (condition_eq_ok_iff b c).mp h with
        ⟨named, noGroup, _⟩ | ⟨unnamed, group, cs, read, _⟩
      · refine ⟨⟨fun _ => noGroup, fun _ => named⟩, ?_⟩
        by_cases children : b.groupConditions = []
        · simp [children, reachedOf]
        · simp [muted_of_leaf named children noGroup]
      · have loud : ¬ b.Muted := fun muted => muted.1.1 unnamed
        rw [if_neg loud]
        exact ⟨⟨fun named => absurd unnamed named, fun noGroup => absurd group noGroup⟩,
          below.mp ⟨cs, read⟩⟩
    · rintro ⟨self, others⟩
      by_cases unnamed : b.parameter = ""
      · have group : b.groupConditions ≠ [] ∧ b.groupOperator ≠ .none :=
          Decidable.byContradiction fun noGroup => self.mpr noGroup unnamed
        have loud : ¬ b.Muted := fun muted => muted.1.1 unnamed
        rw [if_neg loud] at others
        obtain ⟨cs, read⟩ := below.mpr others
        exact ⟨_, (condition_eq_ok_iff b _).mpr (Or.inr ⟨unnamed, group, cs, read, rfl⟩)⟩
      · exact ⟨_, (condition_eq_ok_iff b _).mpr (Or.inl ⟨unnamed, self.mp unnamed, rfl⟩)⟩

end ConditionBag

namespace FilterBag

/-- The nodes at the top: the root's own condition, then the children of the root. -/
def tops (b : FilterBag) : List ConditionBag :=
  b.condition.toList ++ b.groupConditions

/-- All nodes in the order of the document. -/
def nodes (b : FilterBag) : List ConditionBag :=
  ConditionBag.nodesOf b.tops

/-- The comparisons of all nodes that name a parameter. -/
def named (b : FilterBag) : List Predicate :=
  b.nodes.filterMap ConditionBag.predicate?

/-- The root has a condition of its own and children as well. -/
def RootOverfull (b : FilterBag) : Prop :=
  b.condition ≠ none ∧ b.groupConditions ≠ []

def RootMuted (b : FilterBag) : Prop :=
  b.RootOverfull ∧ b.groupOperator = .none

/-- The root has the content of either a single filter or a group. -/
def RootDefinite (b : FilterBag) : Prop :=
  b.condition ≠ none ↔ ¬ (b.groupConditions ≠ [] ∧ b.groupOperator ≠ .none)

def RootHides (b : FilterBag) : Prop :=
  b.RootMuted ∧ b.groupConditions.flatMap ConditionBag.named ≠ []

instance (b : FilterBag) : Decidable b.RootMuted :=
  inferInstanceAs
    (Decidable ((b.condition ≠ none ∧ b.groupConditions ≠ []) ∧ b.groupOperator = .none))

/-- The nodes that are not below a muted one, the root included. -/
def reached (b : FilterBag) : List ConditionBag :=
  ConditionBag.reachedOf (if b.RootMuted then b.condition.toList else b.tops)

/-- A comparison stands below a muted node. -/
def Drops (b : FilterBag) : Prop :=
  b.RootHides ∨ ∃ n ∈ b.nodes, n.Hides

theorem rootMuted_of_single {b : FilterBag} (both : b.RootOverfull)
    (noGroup : ¬ (b.groupConditions ≠ [] ∧ b.groupOperator ≠ .none)) : b.RootMuted :=
  ⟨both, Decidable.byContradiction fun real => noGroup ⟨both.2, real⟩⟩

theorem rootDefinite_iff_rootMuted {b : FilterBag} (both : b.RootOverfull) :
    b.RootDefinite ↔ b.RootMuted := by
  constructor
  · intro definite
    exact rootMuted_of_single both (definite.mp both.1)
  · intro muted
    exact ⟨fun _ group => group.2 muted.2, fun _ => both.1⟩

theorem mem_nodes {n : ConditionBag} {b : FilterBag} : n ∈ b.nodes ↔ ∃ d ∈ b.tops, n ∈ d.nodes := by
  rw [nodes, ConditionBag.nodesOf_eq_flatMap, List.mem_flatMap]

theorem named_eq (b : FilterBag) : b.named = b.tops.flatMap ConditionBag.named := by
  rw [named, nodes, ConditionBag.nodesOf_eq_flatMap, List.filterMap_flatMap]
  rfl

theorem drops_iff (b : FilterBag) : b.Drops ↔ b.RootHides ∨ ∃ d ∈ b.tops, d.Drops := by
  have below : (∃ n ∈ b.nodes, n.Hides) ↔ ∃ d ∈ b.tops, d.Drops := by
    constructor
    · rintro ⟨n, member, hides⟩
      obtain ⟨d, top, inside⟩ := mem_nodes.mp member
      exact ⟨d, top, n, inside, hides⟩
    · rintro ⟨d, top, n, inside, hides⟩
      exact ⟨n, mem_nodes.mpr ⟨d, top, inside⟩, hides⟩
  rw [Drops, below]

theorem filter_eq_ok_iff (b : FilterBag) (f : Filter) :
    b.filter = .ok f ↔
      (∃ d c, b.condition = some d ∧ ¬ (b.groupConditions ≠ [] ∧ b.groupOperator ≠ .none) ∧
        d.condition = .ok c ∧ f = .single c) ∨
      (b.condition = none ∧ (b.groupConditions ≠ [] ∧ b.groupOperator ≠ .none) ∧
        ∃ cs, b.groupConditions.map ConditionBag.condition = cs.map .ok ∧
          f = .group b.groupOperator cs) := by
  obtain ⟨condition, op, children⟩ := b
  rw [← isGroup_eq_true_iff, filter]
  cases condition with
  | none =>
    cases isGroup op children with
    | false => simp
    | true => simp [bind_eq_ok_iff, ConditionBag.conditions_eq_ok_iff, @eq_comm _ f]
  | some d =>
    cases isGroup op children with
    | false => simp [bind_eq_ok_iff, @eq_comm _ f]
    | true => simp

/-- What the conversion has against a bag is its shape. -/
theorem filter_error (b : FilterBag) (e : Failure) (failed : b.filter = .error e) :
    ∃ fault, e = .structural fault := by
  rw [filter] at failed
  split at failed
  · exact ⟨_, (Except.error.inj failed).symm⟩
  · exact ⟨_, (Except.error.inj failed).symm⟩
  next c _ _ =>
    rcases bind_eq_error_iff.mp failed with below | ⟨_, _, last⟩
    · exact c.condition_error e below
    · cases last
  · rcases bind_eq_error_iff.mp failed with below | ⟨_, _, last⟩
    · obtain ⟨d, _, same⟩ := ConditionBag.conditions_error b.groupConditions e below
      exact d.condition_error e same
    · cases last

theorem leaves_sublist_named (b : FilterBag) (f : Filter) (h : b.filter = .ok f) :
    f.leaves.Sublist b.named := by
  rw [named_eq, tops]
  rcases (filter_eq_ok_iff b f).mp h with ⟨d, c, own, _, read, rfl⟩ | ⟨none, _, cs, read, rfl⟩
  · rw [own, Option.toList_some, List.singleton_append, List.flatMap_cons]
    exact (d.leaves_sublist_named c read).trans (List.sublist_append_left _ _)
  · rw [none, Filter.leaves, Filter.root, Condition.leaves_group]
    exact ConditionBag.flatMap_leaves_sublist read fun d _ => d.leaves_sublist_named

theorem leaves_eq_named_iff (b : FilterBag) (f : Filter) (h : b.filter = .ok f) :
    f.leaves = b.named ↔ ¬ b.Drops := by
  rw [named_eq, drops_iff, tops]
  rcases (filter_eq_ok_iff b f).mp h with
    ⟨d, c, own, noGroup, read, rfl⟩ | ⟨none, _, cs, read, rfl⟩
  · have parts := append_eq_append_iff_of_sublist (d.leaves_sublist_named c read)
      (List.nil_sublist (b.groupConditions.flatMap ConditionBag.named))
    rw [List.append_nil, d.leaves_eq_named_iff c read] at parts
    rw [own, Option.toList_some, List.singleton_append, List.flatMap_cons]
    refine parts.trans ?_
    by_cases none : b.groupConditions.flatMap ConditionBag.named = []
    · have silent := ConditionBag.not_drops_of_named_nil none
      simp only [none, RootHides]
      simpa using fun _ => silent
    · have children : b.groupConditions ≠ [] := by
        intro empty
        exact none (by rw [empty]; rfl)
      have muted := rootMuted_of_single ⟨by simp [own], children⟩ noGroup
      simp [none, RootHides, muted, eq_comm]
  · have heard : ¬ b.RootHides := fun hides => hides.1.1.1 none
    rw [none, Filter.leaves, Filter.root, Condition.leaves_group]
    simpa [heard] using ConditionBag.flatMap_leaves_eq_iff read fun d _ => d.leaves_eq_named_iff

/-- A bag is accepted exactly if its root and the nodes that are reached are definite. -/
theorem exists_filter_iff (b : FilterBag) :
    (∃ f, b.filter = .ok f) ↔ b.RootDefinite ∧ ∀ n ∈ b.reached, n.Definite := by
  have single {d : ConditionBag} (own : b.condition = some d)
      (noGroup : ¬ (b.groupConditions ≠ [] ∧ b.groupOperator ≠ .none)) : b.reached = d.reached := by
    have first : ConditionBag.reachedOf [d] = d.reached := by
      rw [ConditionBag.reachedOf_eq_flatMap, List.flatMap_singleton]
    by_cases children : b.groupConditions = []
    · simp [reached, tops, own, children, first]
    · have muted := rootMuted_of_single ⟨by simp [own], children⟩ noGroup
      simp [reached, muted, own, first]
  have group (none : b.condition = none) :
      b.reached = ConditionBag.reachedOf b.groupConditions := by
    have loud : ¬ b.RootMuted := fun muted => muted.1.1 none
    rw [reached, if_neg loud, tops, none]
    rfl
  have each : ∀ d ∈ b.groupConditions,
      (∃ c, d.condition = .ok c) ↔ ∀ n ∈ d.reached, n.Definite := fun d _ => d.exists_condition_iff
  have below := ConditionBag.exists_conditions_iff each
  constructor
  · rintro ⟨f, h⟩
    rcases (filter_eq_ok_iff b f).mp h with
      ⟨d, c, own, noGroup, read, _⟩ | ⟨none, isGroup, cs, read, _⟩
    · rw [single own noGroup]
      exact ⟨⟨fun _ => noGroup, fun _ => by simp [own]⟩, d.exists_condition_iff.mp ⟨c, read⟩⟩
    · rw [group none]
      exact ⟨⟨fun own => absurd none own, fun noGroup => absurd isGroup noGroup⟩,
        below.mp ⟨cs, read⟩⟩
  · rintro ⟨root, others⟩
    cases own : b.condition with
    | none =>
      have isGroup : b.groupConditions ≠ [] ∧ b.groupOperator ≠ .none :=
        Decidable.byContradiction fun noGroup => root.mpr noGroup own
      rw [group own] at others
      obtain ⟨cs, read⟩ := below.mpr others
      exact ⟨_, (filter_eq_ok_iff b _).mpr (Or.inr ⟨own, isGroup, cs, read, rfl⟩)⟩
    | some d =>
      have noGroup := root.mp (by simp [own])
      rw [single own noGroup] at others
      obtain ⟨c, read⟩ := d.exists_condition_iff.mpr others
      exact ⟨_, (filter_eq_ok_iff b _).mpr (Or.inl ⟨d, c, own, noGroup, read, rfl⟩)⟩

/-- Where neither the root nor a node is muted all nodes are reached. -/
theorem reached_eq_nodes (b : FilterBag) (root : ¬ b.RootMuted) (loud : ∀ n ∈ b.nodes, ¬ n.Muted) :
    b.reached = b.nodes := by
  rw [reached, if_neg root, nodes]
  refine ConditionBag.reachedOf_eq_nodesOf fun d top => ConditionBag.reached_eq_nodes ?_
  intro n inside
  exact loud n (mem_nodes.mpr ⟨d, top, inside⟩)

/-- The leaves of a filter that comes from a bag are found in the bag in the same order, and they
are all of its comparisons exactly if none stands below a muted node. A bag is accepted exactly if
the root and all nodes that are reached are definite, and refused for its shape if not; of the nodes
with the content of both kinds only muted ones are definite. Without a muted node all nodes are
reached, so that nothing is lost and every node with both contents is reported. -/
theorem filter_keeps_named_iff (b : FilterBag) :
    (∀ f, b.filter = .ok f → f.leaves.Sublist b.named ∧ (f.leaves = b.named ↔ ¬ b.Drops)) ∧
    ((∃ f, b.filter = .ok f) ↔ b.RootDefinite ∧ ∀ n ∈ b.reached, n.Definite) ∧
    (∀ e, b.filter = .error e → ∃ fault, e = .structural fault) ∧
    (b.RootOverfull → (b.RootDefinite ↔ b.RootMuted)) ∧
    (∀ n : ConditionBag, n.Overfull → (n.Definite ↔ n.Muted)) ∧
    (¬ b.RootMuted → (∀ n ∈ b.nodes, ¬ n.Muted) → b.reached = b.nodes ∧ ¬ b.Drops) := by
  refine ⟨?_, exists_filter_iff b, filter_error b, rootDefinite_iff_rootMuted,
    fun n => ConditionBag.definite_iff_muted, ?_⟩
  · intro f h
    exact ⟨leaves_sublist_named b f h, leaves_eq_named_iff b f h⟩
  · intro root loud
    refine ⟨reached_eq_nodes b root loud, ?_⟩
    rintro (hides | ⟨n, member, hides⟩)
    · exact root hides.1
    · exact loud n member hides.1

/-- The root has a condition of its own, children and no operator. It is accepted, and the
comparison among the children is gone. -/
theorem filter_loses_muted_children :
    let b : FilterBag :=
      { condition := some { parameter := "a" }, groupConditions := [{ parameter := "b" }] }
    b.RootOverfull ∧ ∃ f, b.filter = .ok f ∧
      f.leaves.map (·.parameter) = ["a"] ∧ b.named.map (·.parameter) = ["a", "b"] := by
  refine ⟨⟨by simp, by simp⟩, .single (.leaf ⟨"a", .string, .equal, .null⟩), rfl, rfl, rfl⟩

end FilterBag
end DocQuery
