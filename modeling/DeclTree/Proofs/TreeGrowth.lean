import DeclTree.Node.Tree

/-!
# How a tree grows

Nodes are added to a tree and changed in place, never removed, so a handle that
stands for a node stands for it ever after.  While a unit is being read, its
translation unit node is not finished.
-/

namespace DeclTree

namespace Tree

/-- Whether a handle stands for a node of the tree. -/
def Has (tree : Tree) (id : NodeId) : Prop :=
  id.index < tree.size

/-- Whether the translation unit is open and all nodes inside others exist. -/
structure Sound (tree : Tree) : Prop where
  root : ∃ node, tree.get? root = some node ∧ node.range.sealed = false
  children : ∀ id, ∀ child ∈ tree.children id, tree.Has child

theorem Has.mono {tree after : Tree} {id : NodeId} (present : tree.Has id)
    (grows : tree.size ≤ after.size) : after.Has id :=
  Nat.lt_of_lt_of_le present grows

theorem Sound.has_root {tree : Tree} (sound : tree.Sound) : tree.Has Tree.root := by
  obtain ⟨node, found, _⟩ := sound.root
  exact (Array.getElem?_eq_some_iff.1 found).1

theorem sound_empty (unit : UnitId) : (empty unit).Sound where
  root := ⟨_, rfl, rfl⟩
  children id child member := by
    rcases id with ⟨_ | index⟩ <;> simp [children, get?, empty] at member

@[simp] theorem size_update (tree : Tree) (id : NodeId) (change : Node → Node) :
    (tree.update id change).size = tree.size := by
  simp [update, size]

theorem children_update (tree : Tree) (id other : NodeId) {change : Node → Node}
    (same : ∀ node, (change node).children = node.children) :
    (tree.update id change).children other = tree.children other := by
  unfold children
  rw [get?_update]
  split
  · cases tree.get? other with
    | none => rfl
    | some node => simp [same node]
  · rfl

/-- A change of one node keeps the tree in order if it leaves the node's children
alone and does not finish the translation unit. -/
theorem Sound.update {tree : Tree} (sound : tree.Sound) {id : NodeId} {change : Node → Node}
    (children : ∀ node, (change node).children = node.children)
    (range : id = Tree.root → ∀ node, (change node).range = node.range) :
    (tree.update id change).Sound where
  root := by
    obtain ⟨node, found, unfinished⟩ := sound.root
    rw [get?_update, found]
    split
    · rename_i same
      exact ⟨change node, rfl, by rw [range same, unfinished]⟩
    · exact ⟨node, rfl, unfinished⟩
  children other child member := by
    rw [children_update tree id other children] at member
    unfold Has
    rw [size_update]
    exact sound.children other child member

theorem Sound.finish {tree : Tree} (sound : tree.Sound) {id : NodeId} (inner : id ≠ Tree.root)
    (last : Span) : (tree.finish id last).Sound := by
  apply sound.update
  · intro node
    split <;> rfl
  · intro same
    exact absurd same inner

theorem Sound.updateTemplate {tree : Tree} (sound : tree.Sound) (id : NodeId)
    (change : TemplateDecl → TemplateDecl) : (tree.updateTemplate id change).Sound := by
  apply sound.update
  · intro node
    split <;> rfl
  · intro _ node
    split <;> rfl

theorem get?_push (tree : Tree) (node : Node) (id : NodeId) :
    ({ tree with nodes := tree.nodes.push node } : Tree).get? id =
      if id.index = tree.size then some node else tree.get? id := by
  unfold get? size
  rw [Array.getElem?_push]

/-- The node a tree is given at the start of a declaration. -/
def fresh (kind : NodeKind) (parent : NodeId) (start : Span) : Node where
  kind := kind
  parent := some parent
  range := ({} : SourceRange).setStart start.offset start.line

theorem get?_add (tree : Tree) (kind : NodeKind) (parent : NodeId) (start : Span) (id : NodeId) :
    (tree.add kind parent start).2.get? id =
      ((if id.index = tree.size then some (fresh kind parent start) else tree.get? id).map
        fun node => if parent = id then { node with children := node.children ++ [⟨tree.size⟩] }
          else node) := by
  simp only [add, get?_update, get?_push]
  by_cases same : parent = id
  · simp only [same, if_true]
    rfl
  · simp only [same, if_false, Option.map_id_fun', id_eq]
    rfl

theorem Sound.push {tree : Tree} (sound : tree.Sound) {node : Node}
    (childless : node.children = []) :
    ({ tree with nodes := tree.nodes.push node } : Tree).Sound where
  root := by
    obtain ⟨first, found, unfinished⟩ := sound.root
    have other : Tree.root.index ≠ tree.size := Nat.ne_of_lt sound.has_root
    rw [get?_push, if_neg other]
    exact ⟨first, found, unfinished⟩
  children id child member := by
    unfold Tree.children at member
    rw [get?_push] at member
    split at member
    · simp [childless] at member
    · apply (sound.children id child member).mono
      simp [size]

theorem Sound.adopt {tree : Tree} (sound : tree.Sound) {child : NodeId}
    (present : tree.Has child) (parent : NodeId) :
    (tree.update parent fun node =>
      { node with children := node.children ++ [child] }).Sound where
  root := by
    obtain ⟨first, found, unfinished⟩ := sound.root
    rw [get?_update, found]
    split
    · exact ⟨_, rfl, unfinished⟩
    · exact ⟨first, rfl, unfinished⟩
  children id other member := by
    unfold Has
    rw [size_update]
    unfold Tree.children at member
    rw [get?_update] at member
    split at member
    · cases found : tree.get? id with
      | none => simp [found] at member
      | some node =>
          simp only [found, Option.map_some, Option.getD_some, List.mem_append,
            List.mem_singleton] at member
          rcases member with member | rfl
          · exact sound.children id other (by simpa [Tree.children, found] using member)
          · exact present
    · exact sound.children id other member

/-- A new node is inside the node it was added to. -/
theorem Sound.add {tree : Tree} (sound : tree.Sound) (kind : NodeKind) (parent : NodeId)
    (start : Span) : (tree.add kind parent start).2.Sound := by
  apply Sound.adopt (sound.push rfl)
  simp [Has, size]

theorem has_of_get? {tree : Tree} {id : NodeId} {node : Node} (found : tree.get? id = some node) :
    tree.Has id :=
  (Array.getElem?_eq_some_iff.1 found).1

theorem exists_get? {tree : Tree} {id : NodeId} (present : tree.Has id) :
    ∃ node, tree.get? id = some node :=
  ⟨_, Array.getElem?_eq_some_iff.2 ⟨present, rfl⟩⟩

end Tree

/-- How a node stands among the others: the node around it, and the nodes in it. -/
structure Kin where
  parent : Option NodeId
  children : List NodeId

/-- A node with one more node in it, if it is the one to take it in. -/
def Kin.adopt (kin : Kin) (takesIn : Prop) [Decidable takesIn] (child : NodeId) : Kin :=
  if takesIn then { kin with children := kin.children ++ [child] } else kin

/-- Whether nodes and the nodes around them agree, and of the nodes in one those started
later stand later. -/
structure Family (kins : NodeId → Option Kin) : Prop where
  parent : ∀ id kin, kins id = some kin → id ≠ Tree.root → ∃ parent around,
    kin.parent = some parent ∧ kins parent = some around ∧ id ∈ around.children
  children : ∀ id kin, kins id = some kin → ∀ child ∈ kin.children, ∃ inner,
    kins child = some inner ∧ inner.parent = some id
  ordered : ∀ id kin, kins id = some kin →
    kin.children.Pairwise fun first second => first.index < second.index

namespace Kin

variable {kin : Kin} {takesIn : Prop} [Decidable takesIn] {child : NodeId}

theorem parent_adopt : (kin.adopt takesIn child).parent = kin.parent := by
  unfold adopt
  split <;> rfl

theorem mem_adopt {other : NodeId} : other ∈ (kin.adopt takesIn child).children ↔
    other ∈ kin.children ∨ (takesIn ∧ other = child) := by
  unfold adopt
  split <;> simp_all

end Kin

/-- A new node is the last in the node it was added to. -/
theorem Family.add {kins : NodeId → Option Kin} (family : Family kins) {node parent : NodeId}
    {around : Kin} (last : ∀ id kin, kins id = some kin → id.index < node.index)
    (present : kins parent = some around) :
    Family fun id => if id = node then some ⟨some parent, []⟩
      else (kins id).map fun kin => kin.adopt (id = parent) node := by
  have other {id : NodeId} {kin : Kin} (found : kins id = some kin) : id ≠ node := by
    rintro rfl
    exact absurd (last id kin found) (Nat.lt_irrefl _)
  have kept {id : NodeId} {kin : Kin} (found : kins id = some kin) :
      (if id = node then some ⟨some parent, []⟩
        else (kins id).map fun kin => kin.adopt (id = parent) node) =
          some (kin.adopt (id = parent) node) := by
    rw [if_neg (other found), found]
    rfl
  constructor
  · intro id kin found inner
    split at found
    · rename_i same
      obtain rfl := Option.some.inj found
      exact ⟨parent, _, rfl, kept present, Kin.mem_adopt.2 (.inr ⟨rfl, same⟩)⟩
    · obtain ⟨old, there, rfl⟩ := Option.map_eq_some_iff.1 found
      obtain ⟨outer, place, known, foundOuter, member⟩ := family.parent id old there inner
      exact ⟨outer, _, Kin.parent_adopt.trans known, kept foundOuter,
        Kin.mem_adopt.2 (.inl member)⟩
  · intro id kin found child member
    split at found
    · obtain rfl := Option.some.inj found
      cases member
    · obtain ⟨old, there, rfl⟩ := Option.map_eq_some_iff.1 found
      rcases Kin.mem_adopt.1 member with inside | ⟨rfl, rfl⟩
      · obtain ⟨inner, known, belongs⟩ := family.children id old there child inside
        exact ⟨_, kept known, Kin.parent_adopt.trans belongs⟩
      · exact ⟨_, if_pos rfl, rfl⟩
  · intro id kin found
    split at found
    · obtain rfl := Option.some.inj found
      exact .nil
    · obtain ⟨old, there, rfl⟩ := Option.map_eq_some_iff.1 found
      have ordered := family.ordered id old there
      unfold Kin.adopt
      split
      · refine List.pairwise_append.2 ⟨ordered, List.pairwise_singleton _ _, ?_⟩
        intro first member second same
        obtain rfl := List.mem_singleton.1 same
        obtain ⟨inner, known, _⟩ := family.children id old there first member
        exact last first inner known
      · exact ordered

namespace Tree

/-- How the node behind a handle stands among the others. -/
def kin? (tree : Tree) (id : NodeId) : Option Kin :=
  (tree.get? id).map fun node => ⟨node.parent, node.children⟩

theorem family_empty (unit : UnitId) : Family (empty unit).kin? := by
  have only {id : NodeId} {kin : Kin} (found : (empty unit).kin? id = some kin) :
      id = root ∧ kin.children = [] := by
    rcases id with ⟨_ | index⟩
    · cases found
      exact ⟨rfl, rfl⟩
    · simp [kin?, get?, empty] at found
  constructor
  · intro id kin found inner
    exact absurd (only found).1 inner
  · intro id kin found child member
    simp [(only found).2] at member
  · intro id kin found
    simp [(only found).2]

/-- A change of one node that leaves its place in the tree alone. -/
theorem kin?_update (tree : Tree) (id : NodeId) {change : Node → Node}
    (parent : ∀ node, (change node).parent = node.parent)
    (children : ∀ node, (change node).children = node.children) :
    (tree.update id change).kin? = tree.kin? := by
  funext other
  unfold kin?
  rw [get?_update]
  split
  · simp [Function.comp_def, parent, children]
  · rfl

theorem kin?_add (tree : Tree) (kind : NodeKind) {parent : NodeId} (present : tree.Has parent)
    (start : Span) : (tree.add kind parent start).2.kin? = fun id =>
      if id = ⟨tree.size⟩ then some ⟨some parent, []⟩
      else (tree.kin? id).map fun kin => kin.adopt (id = parent) ⟨tree.size⟩ := by
  funext id
  unfold kin?
  rw [get?_add]
  by_cases new : id = ⟨tree.size⟩
  · subst new
    have other : parent ≠ ⟨tree.size⟩ := by
      rintro rfl
      exact absurd present (Nat.lt_irrefl _)
    simp [other, fresh]
  · have old : id.index ≠ tree.size := fun same => new (congrArg NodeId.mk same)
    rw [if_neg old, if_neg new]
    simp only [Option.map_map]
    congr 1
    funext node
    by_cases same : id = parent
    · simp [Kin.adopt, same]
    · simp [Kin.adopt, same, Ne.symm same]

theorem family_add {tree : Tree} (family : Family tree.kin?) (kind : NodeKind) {parent : NodeId}
    (present : tree.Has parent) (start : Span) : Family (tree.add kind parent start).2.kin? := by
  obtain ⟨around, found⟩ := exists_get? present
  have known : tree.kin? parent = some ⟨around.parent, around.children⟩ := by simp [kin?, found]
  have last (id : NodeId) (kin : Kin) (there : tree.kin? id = some kin) :
      id.index < (⟨tree.size⟩ : NodeId).index := by
    obtain ⟨node, foundNode, _⟩ := Option.map_eq_some_iff.1 there
    exact has_of_get? foundNode
  rw [kin?_add tree kind present start]
  exact family.add last known

end Tree

end DeclTree
