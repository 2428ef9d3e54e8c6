import DeclTree.Proofs.Displacement
import DeclTree.Proofs.TreeGrowth

/-!
# Trees of joined sources

The tree of a source that stands behind another one has the nodes of that one in front, apart from
the translation unit, which both share.  It grows as the tree of the source on its own does.  At
first there is nothing but what stands in front.
-/

namespace DeclTree

theorem Displacement.move_kind_of_plain (displacement : Displacement) {kind : NodeKind}
    (plain : kind.templateDecl? = none) : displacement.move kind = kind := by
  cases kind with
  | template declaration => cases plain
  | _ => rfl

/-- What the translation unit of joined sources has of that of the second source, where the
children from before are given. -/
structure Node.JoinsRoot (displacement : Displacement) (earlier : List NodeId)
    (own joined : Node) : Prop where
  kind : joined.kind = own.kind
  plain : own.kind.templateDecl? = none
  parent : joined.parent = own.parent
  children : joined.children = earlier ++ displacement.move own.children

namespace Tree

/-- Whether a tree holds the nodes of another one behind those that stand in front. -/
structure Joins (displacement : Displacement) (front own joined : Tree) : Prop where
  unit : joined.unit = own.unit
  size : joined.size = own.size + displacement.nodes
  kept : ∀ id, id ≠ root → id.index ≤ displacement.nodes → joined.get? id = front.get? id
  inner : ∀ id, id ≠ root →
    joined.get? (displacement.move id) = (own.get? id).map displacement.move
  root : ∃ first unit, own.get? root = some first ∧ joined.get? root = some unit ∧
    first.JoinsRoot displacement (front.children root) unit

variable {displacement : Displacement} {front own joined : Tree}

theorem get?_eq_none {tree : Tree} {id : NodeId} (outside : tree.size ≤ id.index) :
    tree.get? id = none :=
  Array.getElem?_eq_none outside

namespace Joins

variable (joins : Joins displacement front own joined)

include joins

theorem size_pos : 0 < own.size := by
  obtain ⟨first, unit, found, _⟩ := joins.root
  exact (Array.getElem?_eq_some_iff.1 found).choose

/-- The handle of the next node. -/
theorem move_next : displacement.move (⟨own.size⟩ : NodeId) = ⟨joined.size⟩ := by
  have positive := joins.size_pos
  rw [Displacement.move_of_ne_root displacement fun same =>
    absurd (congrArg NodeId.index same) (by simp only [Tree.root]; omega), joins.size]

/-- A change of a node that is the same change wherever the node stands. -/
theorem update {change further : Node → Node} (id : NodeId)
    (moves : ∀ node, further (displacement.move node) = displacement.move (change node))
    (roots : ∀ first unit, first.JoinsRoot displacement (front.children Tree.root) unit →
      (change first).JoinsRoot displacement (front.children Tree.root) (further unit)) :
    Joins displacement front (own.update id change)
      (joined.update (displacement.move id) further) where
  unit := joins.unit
  size := by
    unfold Tree.size Tree.update
    rw [Array.size_modify, Array.size_modify]
    exact joins.size
  kept other inner early := by
    have apart : displacement.move id ≠ other := by
      rintro rfl
      have here : id ≠ Tree.root := fun same => inner (same ▸ Displacement.move_root displacement)
      have positive : id.index ≠ 0 := fun zero => here (congrArg NodeId.mk zero)
      rw [Displacement.move_of_ne_root displacement here] at early
      have behind : id.index + displacement.nodes ≤ displacement.nodes := early
      omega
    rw [get?_update, if_neg apart]
    exact joins.kept other inner early
  inner other inner := by
    rw [get?_update, get?_update, joins.inner other inner]
    simp only [Displacement.move_node_inj]
    split
    · rw [Option.map_map, Option.map_map]
      exact congrArg (fun change => (own.get? other).map change) (funext moves)
    · rfl
  root := by
    obtain ⟨first, unit, found, there, shared⟩ := joins.root
    rw [get?_update, get?_update, found, there]
    by_cases same : id = Tree.root
    · have moved : displacement.move id = Tree.root := by
        rw [same, Displacement.move_root]
      rw [if_pos same, if_pos moved]
      exact ⟨_, _, rfl, rfl, roots first unit shared⟩
    · rw [if_neg same, if_neg (Displacement.move_ne_root displacement same)]
      exact ⟨first, unit, rfl, rfl, shared⟩

theorem push (node : Node) : Joins displacement front { own with nodes := own.nodes.push node }
    { joined with nodes := joined.nodes.push (displacement.move node) } where
  unit := joins.unit
  size := by
    unfold Tree.size
    rw [Array.size_push, Array.size_push]
    have sizes : joined.nodes.size = own.nodes.size + displacement.nodes := joins.size
    omega
  kept other inner early := by
    have positive := joins.size_pos
    have whole := joins.size
    rw [get?_push, if_neg (by omega)]
    exact joins.kept other inner early
  inner other inner := by
    have whole := joins.size
    rw [get?_push, get?_push, joins.inner other inner,
      Displacement.move_of_ne_root displacement inner]
    by_cases last : other.index = own.size
    · rw [if_pos last, if_pos (by simp only; omega)]
      rfl
    · rw [if_neg last, if_neg (by simp only; omega)]
  root := by
    have positive := joins.size_pos
    have whole := joins.size
    obtain ⟨first, unit, found, there, shared⟩ := joins.root
    rw [get?_push, get?_push, if_neg (by simp only [Tree.root]; omega),
      if_neg (by simp only [Tree.root]; omega)]
    exact ⟨first, unit, found, there, shared⟩

theorem add (kind : NodeKind) (parent : NodeId) (start : Span) :
    Joins displacement front (own.add kind parent start).2
      (joined.add (displacement.move kind) (displacement.move parent)
        (displacement.move start)).2 := by
  have started : displacement.move (fresh kind parent start) =
      fresh (displacement.move kind) (displacement.move parent) (displacement.move start) := by
    have range := displacement.move_setStart start.offset start.line
    unfold fresh
    simp only [Displacement.move, Displaceable.displaced] at range ⊢
    exact congrArg (Node.mk _ _ _) range
  have pushed := joins.push (fresh kind parent start)
  rw [started] at pushed
  refine pushed.update parent (fun node => ?_) fun first unit shared => ?_
  · rw [← joins.move_next]
    simp [Displacement.move, Displaceable.displaced]
  · rw [← joins.move_next]
    exact {
      kind := shared.kind
      plain := shared.plain
      parent := shared.parent
      children := by simp [shared.children, Displacement.move, Displaceable.displaced] }

theorem finish (id : NodeId) (last : Span) : Joins displacement front (own.finish id last)
    (joined.finish (displacement.move id) (displacement.move last)) := by
  refine joins.update id (fun node => ?_) fun first unit shared => ?_
  · have ended := displacement.move_setEnd node.range last.stop last.line
    rw [displacement.stop_move]
    change (if node.range.sealed then _ else _) = _
    split
    · rfl
    · exact congrArg (Node.mk _ _ _) ended.symm
  · have same (node : Node) (range : SourceRange) :
        (if node.range.sealed then node else { node with range := range }).kind = node.kind ∧
          (if node.range.sealed then node else { node with range := range }).parent =
            node.parent ∧
          (if node.range.sealed then node else { node with range := range }).children =
            node.children := by
      split <;> exact ⟨rfl, rfl, rfl⟩
    exact {
      kind := (same unit _).1.trans (shared.kind.trans (same first _).1.symm)
      plain := (congrArg NodeKind.templateDecl? (same first _).1).trans shared.plain
      parent := (same unit _).2.1.trans (shared.parent.trans (same first _).2.1.symm)
      children := by
        rw [(same unit _).2.2, (same first _).2.2]
        exact shared.children }

theorem updateTemplate {change further : TemplateDecl → TemplateDecl} (id : NodeId)
    (moves : ∀ declaration,
      further (displacement.move declaration) = displacement.move (change declaration)) :
    Joins displacement front (own.updateTemplate id change)
      (joined.updateTemplate (displacement.move id) further) := by
  refine joins.update id (fun node => ?_) fun first unit shared => ?_
  · obtain ⟨kind, parent, children, range⟩ := node
    cases kind with
    | template declaration =>
        exact congrArg (fun kind => Node.mk (.template kind) _ _ _) (moves declaration)
    | _ => rfl
  · obtain ⟨kind, parent, children, range⟩ := first
    obtain ⟨other, unitParent, unitChildren, unitRange⟩ := unit
    obtain rfl : other = kind := shared.kind
    cases other with
    | template declaration => cases shared.plain
    | _ => exact shared

/-! ## What is read from a tree -/

/-- A node is of the same kind. -/
theorem kind_get? (id : NodeId) : (joined.get? (displacement.move id)).map Node.kind =
    (own.get? id).map fun node => displacement.move node.kind := by
  by_cases inner : id = Tree.root
  · obtain ⟨first, unit, found, there, shared⟩ := joins.root
    rw [inner, Displacement.move_root, found, there]
    exact congrArg some (shared.kind.trans (displacement.move_kind_of_plain shared.plain).symm)
  · rw [joins.inner id inner, Option.map_map]
    rfl

theorem children_move {id : NodeId} (inner : id ≠ Tree.root) :
    joined.children (displacement.move id) = displacement.move (own.children id) := by
  unfold children
  rw [joins.inner id inner]
  cases own.get? id <;> rfl

theorem templateDecl?_get? (id : NodeId) :
    ((joined.get? (displacement.move id)).bind fun found => found.kind.templateDecl?) =
      displacement.move ((own.get? id).bind fun found => found.kind.templateDecl?) := by
  have same := congrArg (fun kind : Option NodeKind => kind.bind NodeKind.templateDecl?)
    (joins.kind_get? id)
  simp only [Option.bind_map] at same
  refine same.trans ?_
  cases own.get? id with
  | none => rfl
  | some node => exact displacement.templateDecl?_move node.kind

/-- A template owns the same symbol. -/
theorem ownedSymbol?_move {id : NodeId} (inner : id ≠ Tree.root) :
    ParseM.ownedSymbol? joined (displacement.move id) = ParseM.ownedSymbol? own id := by
  have kinds (nodes : List NodeId) :
      ((displacement.move nodes).filterMap joined.get?).map Node.kind =
        ((nodes.filterMap own.get?).map Node.kind).map displacement.move := by
    induction nodes with
    | nil => rfl
    | cons node rest ih =>
        have kind := joins.kind_get? node
        change ((displacement.move node :: displacement.move rest).filterMap joined.get?).map
          Node.kind = _
        simp only [List.filterMap_cons]
        cases found : own.get? node with
        | none =>
            rw [found] at kind
            rw [Option.map_eq_none_iff.1 kind]
            exact ih
        | some first =>
            rw [found] at kind
            obtain ⟨unit, there, same⟩ := Option.map_eq_some_iff.1 kind
            rw [there]
            exact (congrArg (· :: _) same).trans (congrArg _ ih)
  have owned (tree : Tree) (node : NodeId) : ParseM.ownedSymbol? tree node =
      (((((tree.children node).reverse.filterMap tree.get?).map Node.kind).find? fun kind =>
        !kind.isTemplateParameter).bind NodeKind.symbol?) := by
    unfold ParseM.ownedSymbol?
    rw [List.find?_map]
    simp only [Function.comp_def]
    cases List.find? (fun child => !child.kind.isTemplateParameter)
      ((tree.children node).reverse.filterMap tree.get?) <;> rfl
  have reversed : (displacement.move (own.children id)).reverse =
      displacement.move (own.children id).reverse := List.map_reverse.symm
  rw [owned, owned, joins.children_move inner, reversed, kinds, List.find?_map]
  simp only [Function.comp_def, Displacement.isTemplateParameter_move]
  generalize List.find? _ _ = kind
  cases kind with
  | none => rfl
  | some kind => exact displacement.symbol?_move kind

end Joins

end Tree

/-! ## Trees of units -/

/-- Whether a tree belongs to a unit and starts with its translation unit. -/
structure Tree.IsOf (tree : Tree) (unit : UnitId) : Prop where
  same : tree.unit = unit
  root : ∃ node, tree.get? root = some node ∧ node.kind = .translationUnit unit SymbolTable.root ∧
    node.parent = none

namespace Tree.IsOf

variable {tree : Tree} {unit : UnitId}

theorem update (isOf : tree.IsOf unit) (id : NodeId) {change : Node → Node}
    (kind : ∀ node, node.kind.templateDecl? = none → (change node).kind = node.kind)
    (parent : ∀ node, (change node).parent = node.parent) : (tree.update id change).IsOf unit where
  same := isOf.same
  root := by
    obtain ⟨node, found, unitKind, outermost⟩ := isOf.root
    rw [get?_update, found]
    by_cases here : id = Tree.root
    · rw [if_pos here]
      refine ⟨_, rfl, ?_, (parent node).trans outermost⟩
      exact (kind node (by rw [unitKind]; rfl)).trans unitKind
    · rw [if_neg here]
      exact ⟨node, rfl, unitKind, outermost⟩

theorem add (isOf : tree.IsOf unit) (kind : NodeKind) (parent : NodeId) (start : Span) :
    (tree.add kind parent start).2.IsOf unit := by
  obtain ⟨node, found, known⟩ := isOf.root
  have present : Tree.root.index < tree.size := (Array.getElem?_eq_some_iff.1 found).choose
  have grown :
      ({ tree with nodes := tree.nodes.push (fresh kind parent start) } : Tree).IsOf unit := by
    refine ⟨isOf.same, node, ?_, known⟩
    rw [get?_push, if_neg (Nat.ne_of_lt present)]
    exact found
  exact grown.update parent (fun _ _ => rfl) fun _ => rfl

theorem finish (isOf : tree.IsOf unit) (id : NodeId) (last : Span) :
    (tree.finish id last).IsOf unit :=
  isOf.update id (fun node _ => by split <;> rfl) fun node => by split <;> rfl

theorem updateTemplate (isOf : tree.IsOf unit) (id : NodeId)
    (change : TemplateDecl → TemplateDecl) : (tree.updateTemplate id change).IsOf unit := by
  refine isOf.update id (fun node plain => ?_) fun node => by split <;> rfl
  obtain ⟨kind, parent, children, range⟩ := node
  cases kind with
  | template declaration => cases plain
  | _ => rfl

end Tree.IsOf

theorem Tree.isOf_empty (unit : UnitId) : (Tree.empty unit).IsOf unit :=
  ⟨rfl, _, rfl, rfl, rfl⟩

/-- Behind a tree nothing has been added yet. -/
theorem Tree.IsOf.joins_empty {front : Tree} {unit : UnitId} (isOf : front.IsOf unit)
    {displacement : Displacement} (nodes : displacement.nodes + 1 = front.size) :
    Joins displacement front (.empty unit) front where
  unit := isOf.same
  size := by
    change front.size = 1 + displacement.nodes
    omega
  kept _ _ _ := rfl
  inner id inner := by
    have positive : id.index ≠ 0 := fun zero => inner (congrArg NodeId.mk zero)
    have outside : (Tree.empty unit).size ≤ id.index := Nat.one_le_iff_ne_zero.2 positive
    have behind : front.size ≤ (displacement.move id).index := by
      rw [Displacement.move_of_ne_root displacement inner]
      simp only
      omega
    rw [get?_eq_none behind, get?_eq_none outside]
    rfl
  root := by
    obtain ⟨node, found, kind, outermost⟩ := isOf.root
    refine ⟨_, node, rfl, found, kind, rfl, outermost, ?_⟩
    unfold children
    rw [found]
    exact (List.append_nil _).symm

theorem Tree.IsOf.joins_zero {tree : Tree} {unit : UnitId} (isOf : tree.IsOf unit) :
    Joins .zero (.empty unit) tree tree where
  unit := rfl
  size := rfl
  kept id inner early := absurd (congrArg NodeId.mk (Nat.le_zero.1 early)) inner
  inner id inner := by
    rw [Displacement.zero_move_id]
    cases tree.get? id with
    | none => rfl
    | some node => exact congrArg some (Displacement.zero_move_node node).symm
  root := by
    obtain ⟨node, found, kind, outermost⟩ := isOf.root
    exact ⟨node, node, found, found, rfl, by rw [kind]; rfl, rfl,
      (Displacement.zero_move_list Displacement.zero_move_id node.children).symm⟩

/-- A tree behind nothing is the same one, up to what its translation unit covers. -/
theorem Tree.Joins.behind {displacement : Displacement} {front nothing own middle joined : Tree}
    (joins : Joins displacement front own middle) (same : Joins .zero nothing middle joined)
    (bare : nothing.children Tree.root = []) : Joins displacement front own joined where
  unit := same.unit.trans joins.unit
  size := same.size.trans joins.size
  kept id inner early := by
    have found := same.inner id inner
    rw [Displacement.zero_move_id] at found
    rw [found, joins.kept id inner early]
    cases front.get? id with
    | none => rfl
    | some node => exact congrArg some (Displacement.zero_move_node node)
  inner id inner := by
    have found := same.inner (displacement.move id) (Displacement.move_ne_root _ inner)
    rw [Displacement.zero_move_id] at found
    rw [found, joins.inner id inner]
    cases own.get? id with
    | none => rfl
    | some node => exact congrArg some (Displacement.zero_move_node _)
  root := by
    obtain ⟨first, unit, found, there, shared⟩ := joins.root
    obtain ⟨_, last, again, known, further⟩ := same.root
    obtain rfl := Option.some.inj (there.symm.trans again)
    refine ⟨first, last, found, known, further.kind.trans shared.kind, shared.plain,
      further.parent.trans shared.parent, ?_⟩
    rw [further.children, bare, Displacement.zero_move_list Displacement.zero_move_id,
      shared.children]
    rfl

end DeclTree
