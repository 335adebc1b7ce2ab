import DocQuery.Filter.Check
import DocQuery.Proofs.Chain
/-!
# The shape of filters

The nodes of a condition and what each of them has to have: a leaf a parameter, a group an operator
and a child. The check walks the tree and stops at the first bad node; here it is compared with the
statement about all nodes at once (`check_eq_ok_iff`), and a failed check is traced to the place of
the node (`check_error`, `Filter.check_error`).
-/
namespace DocQuery

namespace Condition

/-- Induction over conditions: a group may assume the statement of its children. -/
@[elab_as_elim]
theorem treeInduction {motive : Condition → Prop} (leaf : ∀ p, motive (.leaf p))
    (group : ∀ op children, (∀ c ∈ children, motive c) → motive (.group op children)) :
    ∀ c, motive c
  | .leaf p => leaf p
  | .group op children => group op children fun c member =>
      have _ := List.sizeOf_lt_of_mem member
      treeInduction leaf group c

mutual

/-- The condition and all conditions below it, each before its children. -/
def nodes : Condition → List Condition
  | .leaf p => [.leaf p]
  | .group op children => .group op children :: nodesOf children

def nodesOf : List Condition → List Condition
  | [] => []
  | c :: rest => nodes c ++ nodesOf rest

end

def leaf? : Condition → Option Predicate
  | .leaf p => some p
  | .group _ _ => none

/-- The comparisons of the condition from left to right. -/
def leaves (c : Condition) : List Predicate :=
  c.nodes.filterMap leaf?

/-- The node by itself is in order. -/
def Usable : Condition → Prop
  | .leaf p => p.parameter ≠ ""
  | .group op children => op ≠ .none ∧ children ≠ []

instance : ∀ c : Condition, Decidable c.Usable
  | .leaf p => inferInstanceAs (Decidable (p.parameter ≠ ""))
  | .group op children => inferInstanceAs (Decidable (op ≠ .none ∧ children ≠ []))

/-- Every node is in order. -/
def WellFormed (c : Condition) : Prop :=
  ∀ n ∈ c.nodes, n.Usable

instance (c : Condition) : Decidable c.WellFormed :=
  inferInstanceAs (Decidable (∀ n ∈ c.nodes, n.Usable))

theorem mem_nodesOf {n : Condition} {cs : List Condition} :
    n ∈ nodesOf cs ↔ ∃ c ∈ cs, n ∈ c.nodes := by
  induction cs with
  | nil => simp [nodesOf]
  | cons c rest ih => simp [nodesOf, ih]

theorem nodesOf_eq_flatMap (cs : List Condition) : nodesOf cs = cs.flatMap nodes := by
  induction cs with
  | nil => rfl
  | cons c rest ih => rw [nodesOf, List.flatMap_cons, ih]

theorem leaves_leaf (p : Predicate) : (Condition.leaf p).leaves = [p] := by
  simp [leaves, nodes, leaf?]

theorem leaves_group (op : Connective) (children : List Condition) :
    (Condition.group op children).leaves = children.flatMap leaves := by
  rw [leaves, nodes, List.filterMap_cons_none rfl, nodesOf_eq_flatMap, List.filterMap_flatMap]
  rfl

theorem wellFormed_leaf (p : Predicate) :
    (Condition.leaf p).WellFormed ↔ p.parameter ≠ "" := by
  simp [WellFormed, nodes, Usable]

theorem wellFormed_group (op : Connective) (children : List Condition) :
    (Condition.group op children).WellFormed ↔
      (op ≠ .none ∧ children ≠ []) ∧ ∀ c ∈ children, c.WellFormed := by
  constructor
  · intro h
    have self : (Condition.group op children).Usable :=
      h _ (by rw [nodes]; exact List.mem_cons_self)
    refine ⟨self, ?_⟩
    intro c member n below
    exact h n (List.mem_cons_of_mem _ (mem_nodesOf.mpr ⟨c, member, below⟩))
  · rintro ⟨self, below⟩ n member
    rcases List.mem_cons.mp (by simpa only [nodes] using member) with rfl | deeper
    · exact self
    · obtain ⟨c, child, inside⟩ := mem_nodesOf.mp deeper
      exact below c child n inside

/-- The nodes below a node are nodes of the whole. -/
theorem nodes_trans {c n m : Condition} (upper : n ∈ c.nodes) (lower : m ∈ n.nodes) :
    m ∈ c.nodes := by
  induction c using treeInduction with
  | leaf p =>
    have same : n = .leaf p := by simpa [nodes] using upper
    rwa [same] at lower
  | group op children ih =>
    rw [nodes] at upper
    rcases List.mem_cons.mp upper with rfl | deeper
    · exact lower
    · obtain ⟨c, child, inside⟩ := mem_nodesOf.mp deeper
      have found := mem_nodesOf.mpr ⟨c, child, ih c child inside⟩
      rw [nodes]
      exact List.mem_cons_of_mem _ found

theorem WellFormed.node {c n : Condition} (h : c.WellFormed) (member : n ∈ c.nodes) :
    n.WellFormed :=
  fun m lower => h m (nodes_trans member lower)

end Condition

theorem checkGroup_eq_ok_iff (place : Place) (op : Connective) (children : List Condition) :
    checkGroup place op children = .ok () ↔ op ≠ .none ∧ children ≠ [] := by
  unfold checkGroup
  split
  next bad =>
    have : ¬ (op ≠ .none ∧ children ≠ []) := by simpa [Classical.or_iff_not_imp_left] using bad
    simp [this]
  next good =>
    have : op ≠ .none ∧ children ≠ [] := by simpa using good
    simp [this]

theorem checkGroup_error (place : Place) (op : Connective) (children : List Condition)
    (bad : ¬ (op ≠ .none ∧ children ≠ [])) :
    checkGroup place op children = .error (.structural (.unusable place)) := by
  have split : op = .none ∨ children = [] := by
    simpa [Classical.or_iff_not_imp_left] using bad
  simp [checkGroup, split]

namespace Condition

theorem checkAll_eq_ok_iff (cs : List Condition) :
    checkAll cs = .ok () ↔ ∀ c ∈ cs, c.check = .ok () := by
  induction cs with
  | nil => simp [checkAll]
  | cons c rest ih => simp [checkAll, check_then_eq_ok_iff, ih]

/-- The check accepts the conditions of which every node is in order. -/
theorem check_eq_ok_iff (c : Condition) : c.check = .ok () ↔ c.WellFormed := by
  induction c using treeInduction with
  | leaf p => simp [check, wellFormed_leaf]
  | group op children ih =>
    have below : (∀ c ∈ children, c.check = .ok ()) ↔ ∀ c ∈ children, c.WellFormed :=
      forall₂_congr ih
    simp [check, check_then_eq_ok_iff, checkGroup_eq_ok_iff, checkAll_eq_ok_iff, wellFormed_group,
      below]

theorem checkAll_error (cs : List Condition) (e : Failure) (failed : checkAll cs = .error e) :
    ∃ c ∈ cs, c.check = .error e := by
  induction cs with
  | nil => cases failed
  | cons c rest ih =>
    rw [checkAll] at failed
    rcases bind_eq_error_iff.mp failed with first | ⟨_, _, later⟩
    · exact ⟨c, List.mem_cons_self, first⟩
    · obtain ⟨d, member, same⟩ := ih later
      exact ⟨d, List.mem_cons_of_mem c member, same⟩

/-- Whatever node of a condition is bad, the report speaks of a condition. -/
theorem check_error (c : Condition) (e : Failure) (failed : c.check = .error e) :
    e = .structural (.unusable .condition) := by
  induction c using treeInduction with
  | leaf p =>
    rw [check] at failed
    split at failed
    · cases failed
      rfl
    · cases failed
  | group op children ih =>
    rw [check] at failed
    rcases bind_eq_error_iff.mp failed with self | ⟨_, _, below⟩
    · by_cases usable : op ≠ .none ∧ children ≠ []
      · rw [(checkGroup_eq_ok_iff _ _ _).mpr usable] at self
        cases self
      · rw [checkGroup_error _ _ _ usable] at self
        cases self
        rfl
    · obtain ⟨d, member, same⟩ := checkAll_error children e below
      exact ih d member same

end Condition

namespace Filter

/-- The root as a condition: a group at the root is a group like any other. -/
def root : Filter → Condition
  | .single c => c
  | .group op conditions => .group op conditions

def leaves (f : Filter) : List Predicate :=
  f.root.leaves

/-- The root is a group of the filter itself and lacks an operator or a child. -/
def RootUnusable : Filter → Prop
  | .single _ => False
  | .group op conditions => ¬ (op ≠ .none ∧ conditions ≠ [])

instance : ∀ f : Filter, Decidable f.RootUnusable
  | .single _ => inferInstanceAs (Decidable False)
  | .group op conditions => inferInstanceAs (Decidable (¬ (op ≠ .none ∧ conditions ≠ [])))

theorem check_eq_ok_iff (f : Filter) : f.check = .ok () ↔ f.root.WellFormed := by
  cases f with
  | single c => exact c.check_eq_ok_iff
  | group op conditions =>
    have below : (∀ c ∈ conditions, c.check = .ok ()) ↔ ∀ c ∈ conditions, c.WellFormed :=
      forall₂_congr fun c _ => c.check_eq_ok_iff
    simp [check, root, check_then_eq_ok_iff, checkGroup_eq_ok_iff, Condition.checkAll_eq_ok_iff,
      Condition.wellFormed_group, below]

/-- A report names the filter if its root is a bad group, and a condition in every other case. -/
theorem check_error (f : Filter) (e : Failure) (failed : f.check = .error e) :
    e = .structural (.unusable (if f.RootUnusable then .filter else .condition)) := by
  cases f with
  | single c => simpa [RootUnusable] using c.check_error e failed
  | group op conditions =>
    rw [check] at failed
    by_cases usable : op ≠ .none ∧ conditions ≠ []
    · have sound : ¬ (Filter.group op conditions).RootUnusable := fun bad => bad usable
      rw [(checkGroup_eq_ok_iff _ _ _).mpr usable] at failed
      obtain ⟨c, _, same⟩ := Condition.checkAll_error conditions e failed
      rw [if_neg sound]
      exact c.check_error e same
    · have bad : (Filter.group op conditions).RootUnusable := usable
      rw [checkGroup_error _ _ _ usable] at failed
      cases failed
      rw [if_pos bad]

end Filter
end DocQuery
