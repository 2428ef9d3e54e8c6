import DeclTree.Proofs.DeclarationCourse
import DeclTree.Proofs.NodeLayout
import DeclTree.Walk.Basic
import Mathlib.Data.List.Nodup
import Mathlib.Logic.Relation

/-!
# Document order

The nodes of a parsed unit form one tree below its translation unit: every other node stands in
exactly one node, and that node was started before it.  So whatever goes inward from a node ends
after fewer steps than there are nodes, and a list of all that is inside, each node before what
stands in it, has every node once.
-/

namespace DeclTree

namespace Tree

def Holds (tree : Tree) (outer inner : NodeId) : Prop :=
  inner ∈ tree.children outer

theorem children_eq {tree : Tree} {id : NodeId} {node : Node} (found : tree.get? id = some node) :
    tree.children id = node.children := by
  simp [children, found]

theorem holds_iff {tree : Tree} {id child : NodeId} {node : Node}
    (found : tree.get? id = some node) : tree.Holds id child ↔ child ∈ node.children := by
  rw [Holds, children_eq found]

/-- Whether a node stands inside another one, at whatever depth. -/
def Surrounds (tree : Tree) : NodeId → NodeId → Prop :=
  Relation.TransGen tree.Holds

/-- Whether the nodes of a tree hang together below the translation unit: each other node stands
in exactly one node, which was started before it, and of the nodes in one those started later
stand later. -/
structure Rooted (tree : Tree) : Prop where
  root : tree.Has root
  around : ∀ id, tree.Has id → id ≠ Tree.root → ∃ outer, tree.Holds outer id
  unique : ∀ inner outer other, tree.Holds outer inner → tree.Holds other inner → outer = other
  inward : ∀ outer inner, tree.Holds outer inner →
    outer.index < inner.index ∧ tree.Has inner
  ordered : ∀ id, (tree.children id).Pairwise fun first second => first.index < second.index

/-- The nodes inside a node in document order, at most `bound` levels deep. -/
def insideTo (tree : Tree) : Nat → NodeId → List NodeId
  | 0, _ => []
  | bound + 1, id => (tree.children id).flatMap fun child => child :: tree.insideTo bound child

def inside (tree : Tree) (id : NodeId) : List NodeId :=
  tree.insideTo tree.size id

/-- Some nodes in document order, each with the nodes inside it. -/
def listing (tree : Tree) (ids : List NodeId) : List NodeId :=
  ids.flatMap fun id => id :: tree.inside id

@[simp] theorem listing_nil (tree : Tree) : tree.listing [] = [] :=
  rfl

theorem listing_cons (tree : Tree) (id : NodeId) (rest : List NodeId) :
    tree.listing (id :: rest) = id :: (tree.inside id ++ tree.listing rest) := by
  simp [listing]

/-- A walk counts the nodes that the list of them has. -/
theorem countInside_eq (tree : Tree) (bound : Nat) (id : NodeId) :
    Walk.countInside tree bound id = (tree.insideTo bound id).length := by
  induction bound generalizing id with
  | zero => rfl
  | succ bound inductionHypothesis =>
      change ((tree.children id).map fun child => 1 + Walk.countInside tree bound child).sum = _
      simp only [insideTo, List.length_flatMap, List.length_cons]
      congr 1
      apply List.map_congr_left
      intro child _
      rw [inductionHypothesis child, Nat.add_comm]

namespace Rooted

variable {tree : Tree}

/-- What holds of a node if it holds of the nodes in it, holds of all nodes. -/
theorem induction_inward (rooted : tree.Rooted) {motive : NodeId → Prop}
    (step : ∀ id, (∀ child, tree.Holds id child → motive child) → motive id) (id : NodeId) :
    motive id := by
  -- The room behind a node gets smaller inward.
  induction room : tree.size - id.index using Nat.strongRecOn generalizing id with
  | ind room inductionHypothesis =>
      apply step
      intro child held
      obtain ⟨later, present⟩ := rooted.inward id child held
      have within : child.index < tree.size := present
      exact inductionHypothesis (tree.size - child.index) (by omega) child rfl

/-- With a bound that leaves room for all nodes behind a node, one more level shows nothing
more. -/
theorem insideTo_succ (rooted : tree.Rooted) {bound : Nat} {id : NodeId}
    (room : tree.size - id.index ≤ bound) :
    tree.insideTo (bound + 1) id = tree.insideTo bound id := by
  induction bound generalizing id with
  | zero =>
      have nothing : tree.children id = [] := by
        apply List.eq_nil_iff_forall_not_mem.2
        intro child held
        have present : id.index < tree.size := tree.has_of_mem_children held
        omega
      simp [insideTo, nothing]
  | succ bound inductionHypothesis =>
      rw [insideTo, insideTo]
      apply List.flatMap_congr
      intro child held
      have later := (rooted.inward id child held).1
      rw [inductionHypothesis (by omega)]

theorem inside_eq (rooted : tree.Rooted) (id : NodeId) :
    tree.inside id = tree.listing (tree.children id) := by
  have room : tree.size - id.index ≤ tree.size := Nat.sub_le _ _
  unfold inside
  rw [← rooted.insideTo_succ room]
  rfl

theorem mem_inside (rooted : tree.Rooted) {outer inner : NodeId} :
    inner ∈ tree.inside outer ↔ tree.Surrounds outer inner := by
  induction outer using rooted.induction_inward with
  | step outer inductionHypothesis =>
      rw [rooted.inside_eq, listing, List.mem_flatMap]
      constructor
      · rintro ⟨child, held, member⟩
        rcases List.mem_cons.1 member with rfl | deeper
        · exact .single held
        · exact .head held ((inductionHypothesis child held).1 deeper)
      · intro surrounds
        obtain ⟨child, held, reaches⟩ := Relation.TransGen.head'_iff.1 surrounds
        refine ⟨child, held, ?_⟩
        rcases Relation.reflTransGen_iff_eq_or_transGen.1 reaches with rfl | deeper
        · exact List.mem_cons_self
        · exact List.mem_cons_of_mem _ ((inductionHypothesis child held).2 deeper)

theorem index_lt (rooted : tree.Rooted) {outer inner : NodeId}
    (surrounds : tree.Surrounds outer inner) : outer.index < inner.index := by
  induction surrounds with
  | single held => exact (rooted.inward _ _ held).1
  | tail _ held before => exact Nat.lt_trans before (rooted.inward _ _ held).1

theorem not_mem_inside (rooted : tree.Rooted) (id : NodeId) : id ∉ tree.inside id := by
  intro member
  exact Nat.lt_irrefl _ (rooted.index_lt (rooted.mem_inside.1 member))

theorem mem_cons_inside (rooted : tree.Rooted) {outer inner : NodeId} :
    inner ∈ outer :: tree.inside outer ↔ Relation.ReflTransGen tree.Holds outer inner := by
  rw [List.mem_cons, rooted.mem_inside, Relation.reflTransGen_iff_eq_or_transGen]
  rfl

/-- Nothing stands inside two nodes of which neither is inside the other, so nothing stands
inside two nodes of one. -/
theorem disjoint_siblings (rooted : tree.Rooted) {id first second : NodeId}
    (held : tree.Holds id first) (other : tree.Holds id second)
    (before : first.index < second.index) :
    (first :: tree.inside first).Disjoint (second :: tree.inside second) := by
  intro inner member memberOther
  have outward : Relator.RightUnique (Function.swap tree.Holds) :=
    fun inner outer other => rooted.unique inner outer other
  have reaches := Relation.reflTransGen_swap.2 (rooted.mem_cons_inside.1 member)
  have reachesOther := Relation.reflTransGen_swap.2 (rooted.mem_cons_inside.1 memberOther)
  have above {sibling : NodeId} (stands : tree.Holds id sibling) : id.index < sibling.index :=
    (rooted.inward id sibling stands).1
  -- Both are on the one way outward from the node, so the later one is inside the earlier.
  rcases Relation.ReflTransGen.total_of_right_unique outward reaches reachesOther with
    inwards | inwards
  · rcases Relation.reflTransGen_iff_eq_or_transGen.1 (Relation.reflTransGen_swap.1 inwards) with
      rfl | surrounds
    · exact Nat.lt_irrefl _ before
    · exact Nat.lt_asymm before (rooted.index_lt surrounds)
  · rcases Relation.ReflTransGen.cases_tail (Relation.reflTransGen_swap.1 inwards) with
      rfl | ⟨outer, reached, stands⟩
    · exact Nat.lt_irrefl _ before
    · obtain rfl := rooted.unique second outer id stands other
      rcases Relation.reflTransGen_iff_eq_or_transGen.1 reached with rfl | surrounds
      · exact Nat.lt_irrefl _ (above held)
      · exact Nat.lt_asymm (above held) (rooted.index_lt surrounds)

theorem nodup_inside (rooted : tree.Rooted) (id : NodeId) : (tree.inside id).Nodup := by
  induction id using rooted.induction_inward with
  | step id inductionHypothesis =>
      rw [rooted.inside_eq, listing, List.nodup_flatMap]
      constructor
      · intro child held
        exact List.nodup_cons.2 ⟨rooted.not_mem_inside child, inductionHypothesis child held⟩
      · apply (rooted.ordered id).imp_of_mem
        intro first second held other before
        exact rooted.disjoint_siblings held other before

theorem nodup_listing_root (rooted : tree.Rooted) : (tree.listing [Tree.root]).Nodup := by
  rw [listing_cons, listing_nil, List.append_nil, List.nodup_cons]
  exact ⟨rooted.not_mem_inside _, rooted.nodup_inside _⟩

theorem has_of_surrounds (rooted : tree.Rooted) {outer inner : NodeId}
    (surrounds : tree.Surrounds outer inner) : tree.Has inner := by
  cases surrounds with
  | single held => exact (rooted.inward _ _ held).2
  | tail _ held => exact (rooted.inward _ _ held).2

/-- The nodes inside the translation unit, and the translation unit, are all nodes. -/
theorem mem_listing_root (rooted : tree.Rooted) {id : NodeId} :
    id ∈ tree.listing [Tree.root] ↔ tree.Has id := by
  rw [listing_cons, listing_nil, List.append_nil]
  constructor
  · intro member
    rcases List.mem_cons.1 member with rfl | deeper
    · exact rooted.root
    · exact rooted.has_of_surrounds (rooted.mem_inside.1 deeper)
  · intro present
    rw [rooted.mem_cons_inside]
    -- Outward the handles get smaller, down to that of the translation unit.
    induction place : id.index using Nat.strongRecOn generalizing id with
    | ind place inductionHypothesis =>
        by_cases top : id = Tree.root
        · exact top ▸ .refl
        · obtain ⟨outer, held⟩ := rooted.around id present top
          have earlier := (rooted.inward outer id held).1
          have reached := inductionHypothesis outer.index (place ▸ earlier)
            (tree.has_of_mem_children held) rfl
          exact reached.tail held

theorem perm_listing_root (rooted : tree.Rooted) :
    (tree.listing [Tree.root]).Perm tree.ids := by
  apply (List.perm_ext_iff_of_nodup rooted.nodup_listing_root ?_).2
  · intro id
    rw [rooted.mem_listing_root]
    simp only [ids, List.mem_map, List.mem_range]
    constructor
    · exact fun present => ⟨id.index, present, rfl⟩
    · rintro ⟨index, present, rfl⟩
      exact present
  · exact List.nodup_range.map fun _ _ same => congrArg NodeId.index same

theorem length_listing_root (rooted : tree.Rooted) :
    (tree.listing [Tree.root]).length = tree.size := by
  rw [rooted.perm_listing_root.length_eq, ids, List.length_map, List.length_range]

section Walking

variable {σ : Type} {visitor : Visitor σ} {policy : FaultPolicy} {id : NodeId} {node : Node}

/-- With a bound that leaves room for all nodes behind a node, a walk does not go deeper with
one more level. -/
theorem visit_succ (rooted : tree.Rooted) {bound : Nat} (room : tree.size - id.index ≤ bound)
    (walk : Walk σ) :
    Walk.visit tree visitor policy (bound + 1) id walk =
      Walk.visit tree visitor policy bound id walk := by
  induction bound generalizing id walk with
  | zero =>
      have missing : tree.get? id = none := by
        apply Array.getElem?_eq_none
        exact Nat.le_of_sub_eq_zero (Nat.le_zero.1 room)
      simp only [Walk.visit, missing]
  | succ bound inductionHypothesis =>
      rw [Walk.visit, Walk.visit]
      cases found : tree.get? id with
      | none => rfl
      | some node =>
          have deeper (entered : Walk σ) :
              node.children.foldl (fun walk child =>
                  Walk.visit tree visitor policy (bound + 1) child walk) entered =
                node.children.foldl (fun walk child =>
                  Walk.visit tree visitor policy bound child walk) entered := by
            apply List.foldl_ext
            intro walk child member
            have later := (rooted.inward id child ((holds_iff found).2 member)).1
            exact inductionHypothesis (by omega) walk
          simp only [deeper]

theorem visit_leaf (rooted : tree.Rooted) (found : tree.get? id = some node)
    (plain : node.kind.isScope = false) (walk : Walk σ) :
    Walk.visit tree visitor policy tree.size id walk =
      (walk.deliver tree visitor .accept id node).2 := by
  rw [← rooted.visit_succ (Nat.sub_le _ _)]
  simp [Walk.visit, found, plain]

theorem visit_scope (rooted : tree.Rooted) (found : tree.get? id = some node)
    (scope : node.kind.isScope = true) (walk : Walk σ) :
    Walk.visit tree visitor policy tree.size id walk =
      let entered := walk.deliver tree visitor .enter id node
      let inside :=
        if entered.1 && policy == .skipSubtree then
          { entered.2 with
            report := entered.2.report.addSkipped (Walk.countInside tree tree.size id) }
        else
          node.children.foldl
            (fun walk child => Walk.visit tree visitor policy tree.size child walk) entered.2
      (inside.deliver tree visitor .exit id node).2 := by
  rw [← rooted.visit_succ (Nat.sub_le _ _)]
  simp [Walk.visit, found, scope]

end Walking

end Rooted

section Holding

variable {tree : Tree} {length : Nat} {outer inner : NodeId} {around node : Node}

theorem ne_root_of_holds (rooted : tree.Rooted) (held : tree.Holds outer inner) :
    inner ≠ root := by
  rintro rfl
  exact Nat.not_lt_zero _ (rooted.inward outer root held).1

/-- A node covers what the nodes in it cover. -/
theorem within_of_holds (rooted : tree.Rooted) (nested : tree.Nested length)
    (held : tree.Holds outer inner) (covers : tree.get? outer = some around)
    (found : tree.get? inner = some node) : node.range.Within around.range := by
  obtain ⟨parent, other, _, there, member, within⟩ :=
    nested.parent inner node found (ne_root_of_holds rooted held)
  obtain rfl := rooted.unique inner parent outer ((holds_iff there).2 member) held
  obtain rfl := Option.some.inj (there.symm.trans covers)
  exact within

end Holding

/-- What nodes and the nodes around them agree on gives a tree, where nodes are started before
the nodes in them. -/
theorem rooted_of_family {tree : Tree} (family : Family tree.kin?) (present : tree.Has root)
    (below : ∀ id node parent, tree.get? id = some node → node.parent = some parent →
      parent.index < id.index) : tree.Rooted := by
  have kin {id : NodeId} {node : Node} (found : tree.get? id = some node) :
      tree.kin? id = some ⟨node.parent, node.children⟩ := by
    simp [kin?, found]
  have held {outer inner : NodeId} (holds : tree.Holds outer inner) : ∃ node,
      tree.get? inner = some node ∧ node.parent = some outer := by
    obtain ⟨around, found⟩ := exists_get? (tree.has_of_mem_children holds)
    obtain ⟨_, there, parent⟩ :=
      family.children outer _ (kin found) inner ((holds_iff found).1 holds)
    obtain ⟨node, foundInner, rfl⟩ := Option.map_eq_some_iff.1 there
    exact ⟨node, foundInner, parent⟩
  constructor
  case root => exact present
  case around =>
    intro id has inner
    obtain ⟨node, found⟩ := exists_get? has
    obtain ⟨parent, _, _, there, member⟩ := family.parent id _ (kin found) inner
    obtain ⟨around, foundAround, rfl⟩ := Option.map_eq_some_iff.1 there
    exact ⟨parent, (holds_iff foundAround).2 member⟩
  case unique =>
    intro inner outer other holds holdsOther
    obtain ⟨node, found, parent⟩ := held holds
    obtain ⟨same, foundSame, parentOther⟩ := held holdsOther
    obtain rfl := Option.some.inj (found.symm.trans foundSame)
    exact Option.some.inj (parent.symm.trans parentOther)
  case inward =>
    intro outer inner holds
    obtain ⟨node, found, parent⟩ := held holds
    exact ⟨below inner node outer found parent, has_of_get? found⟩
  case ordered =>
    intro id
    unfold children
    cases found : tree.get? id with
    | none => exact .nil
    | some node => exact family.ordered id _ (kin found)

end Tree

/-- The nodes of a parsed unit form a tree, and lie in its source as they stand in each
other. -/
theorem rooted_parseUnit (options : ParseOptions) {table : SymbolTable}
    (reached : table.Reachable) (unit : UnitId) (source : String) :
    (parseUnit options table unit source).tree.Rooted ∧
      (parseUnit options table unit source).tree.Nested source.utf8ByteSize := by
  have since := reached.framesSince
  obtain ⟨final, settled, finished, run⟩ :=
    ParseState.exists_run options reached since (Nat.zero_le _) unit source
  have ready := ParseState.ready_startStage options reached since (Nat.zero_le _) unit source
  have arranged := run.arranged ready (ParseState.arranged_startStage options table unit source)
  have ends : final.cursor.peek.span.offset = source.utf8ByteSize := by
    have last := arranged.cursor.final
    simpa [Cursor.peek, Cursor.ahead, finished.unread] using last
  have present := finished.sound.tree.has_root
  simp only [parseUnit, ParseState.parsed, ParseState.finish_eq finished]
  rw [ends]
  refine ⟨Tree.rooted_of_family (Tree.family_finishRoot arranged.family) ?_ ?_,
    Tree.nested_finishRoot arranged.layout arranged.family present
      arranged.settled.spaced.le_limit⟩
  · unfold Tree.Has Tree.finishRoot
    rwa [Tree.size_update]
  · intro id node parent found around
    rcases Tree.finishRoot_cases arranged.layout found with ⟨_, top, _⟩ | ⟨_, spot⟩
    · cases top.symm.trans around
    · exact arranged.layout.below id _ parent spot around

end DeclTree
