import DeclTree.Proofs.AppendOnly

/-!
# What a tree shows of its nodes

What the nodes of a tree declare, what is in them, and what a template takes for its
declaration.  A tree that grows keeps all of it; finishing a node or changing the template
declaration of one leaves the rest as it is.
-/

namespace DeclTree

/-- Whether a node is a declaration that a template can be made for: it gets its symbol from
the scope it stands in. -/
def NodeKind.isEntity : NodeKind → Bool
  | .classType _ | .enumType _ | .function _ | .var _ | .typedef _ => true
  | _ => false

def NodeKind.amend (change : TemplateDecl → TemplateDecl) : NodeKind → NodeKind
  | .template declaration => .template (change declaration)
  | kind => kind

namespace Tree

def kindAt (tree : Tree) (id : NodeId) : Option NodeKind :=
  (tree.get? id).map Node.kind

/-- What the choice of an owned declaration looks at: whether a node is a template parameter,
and its symbol. -/
def faceAt (tree : Tree) (id : NodeId) : Option (Bool × Option SymbolId) :=
  (tree.kindAt id).map fun kind => (kind.isTemplateParameter, kind.symbol?)

section Views

variable (tree : Tree)

theorem has_of_kindAt {id : NodeId} {kind : NodeKind} (found : tree.kindAt id = some kind) :
    tree.Has id := by
  obtain ⟨node, there, _⟩ := Option.map_eq_some_iff.1 found
  exact has_of_get? there

theorem kindAt_update {id : NodeId} {change : Node → Node}
    (same : ∀ node, (change node).kind = node.kind) (other : NodeId) :
    (tree.update id change).kindAt other = tree.kindAt other := by
  unfold kindAt
  rw [get?_update]
  split
  · cases tree.get? other <;> simp [same]
  · rfl

theorem kindAt_finish (id other : NodeId) (last : Span) :
    (tree.finish id last).kindAt other = tree.kindAt other := by
  apply kindAt_update
  intro node
  split <;> rfl

theorem children_finish (id other : NodeId) (last : Span) :
    (tree.finish id last).children other = tree.children other := by
  apply children_update
  intro node
  split <;> rfl

theorem kindAt_add (kind : NodeKind) (parent : NodeId) (start : Span) (id : NodeId) :
    (tree.add kind parent start).2.kindAt id =
      if id.index = tree.size then some kind else tree.kindAt id := by
  unfold kindAt
  rw [get?_add]
  by_cases new : id.index = tree.size
  · rw [if_pos new, if_pos new]
    simp only [Option.map_some, Option.some.injEq]
    split <;> rfl
  · rw [if_neg new, if_neg new]
    cases tree.get? id with
    | none => rfl
    | some node =>
        simp only [Option.map_some, Option.some.injEq]
        split <;> rfl

theorem kindAt_add_new (kind : NodeKind) (parent : NodeId) (start : Span) :
    (tree.add kind parent start).2.kindAt ⟨tree.size⟩ = some kind := by
  rw [kindAt_add, if_pos rfl]

theorem kindAt_add_of_has (kind : NodeKind) (parent : NodeId) (start : Span) {id : NodeId}
    (present : tree.Has id) : (tree.add kind parent start).2.kindAt id = tree.kindAt id := by
  rw [kindAt_add, if_neg (Nat.ne_of_lt present)]

theorem kindAt_add_of_some (kind : NodeKind) (parent : NodeId) (start : Span) {id : NodeId}
    {other : NodeKind} (found : tree.kindAt id = some other) :
    (tree.add kind parent start).2.kindAt id = some other := by
  rw [tree.kindAt_add_of_has kind parent start (tree.has_of_kindAt found), found]

theorem kindAt_add_cases {kind other : NodeKind} {parent id : NodeId} {start : Span}
    (found : (tree.add kind parent start).2.kindAt id = some other) :
    tree.kindAt id = some other ∨ id = ⟨tree.size⟩ ∧ other = kind := by
  rw [kindAt_add] at found
  split at found
  · rename_i new
    exact .inr ⟨congrArg NodeId.mk new, (Option.some.inj found).symm⟩
  · exact .inl found

theorem children_add (kind : NodeKind) {parent : NodeId} (present : tree.Has parent)
    (start : Span) (id : NodeId) : (tree.add kind parent start).2.children id =
      tree.children id ++ if id = parent then [⟨tree.size⟩] else [] := by
  unfold children
  rw [get?_add]
  by_cases new : id.index = tree.size
  · have missing : tree.get? id = none := by
      cases found : tree.get? id with
      | none => rfl
      | some node =>
          have within : id.index < tree.size := has_of_get? found
          omega
    have apart : parent ≠ id := by
      rintro rfl
      exact absurd present (by unfold Has; omega)
    rw [if_pos new, missing]
    simp [apart, Ne.symm apart, fresh]
  · rw [if_neg new]
    by_cases same : id = parent
    · subst same
      obtain ⟨node, found⟩ := exists_get? present
      simp [found]
    · have apart : parent ≠ id := Ne.symm same
      cases tree.get? id <;> simp [same, apart]

theorem mem_children_add (kind : NodeKind) {parent : NodeId} (present : tree.Has parent)
    (start : Span) {id child : NodeId} : child ∈ (tree.add kind parent start).2.children id ↔
      child ∈ tree.children id ∨ id = parent ∧ child = ⟨tree.size⟩ := by
  rw [tree.children_add kind present, List.mem_append]
  split <;> simp_all

theorem has_of_mem_children {id child : NodeId} (member : child ∈ tree.children id) :
    tree.Has id := by
  unfold children at member
  cases found : tree.get? id with
  | none => simp [found] at member
  | some node => exact has_of_get? found

theorem kindAt_updateTemplate (id other : NodeId) (change : TemplateDecl → TemplateDecl) :
    (tree.updateTemplate id change).kindAt other =
      if id = other then (tree.kindAt other).map (NodeKind.amend change)
      else tree.kindAt other := by
  unfold kindAt updateTemplate
  rw [get?_update]
  split
  · cases tree.get? other with
    | none => rfl
    | some node =>
        obtain ⟨kind, parent, children, range⟩ := node
        cases kind <;> rfl
  · rfl

theorem children_updateTemplate (id other : NodeId) (change : TemplateDecl → TemplateDecl) :
    (tree.updateTemplate id change).children other = tree.children other := by
  apply children_update
  intro node
  split <;> rfl

end Views

/-- Whether nodes keep their place and their symbol, and what is in them, while the tree
grows. -/
structure Keeps (before after : Tree) : Prop where
  unit : after.unit = before.unit
  templates : ∀ node declaration, before.kindAt node = some (.template declaration) →
    ∃ changed, after.kindAt node = some (.template changed) ∧
      changed.template = declaration.template
  children : ∀ node child, child ∈ before.children node → child ∈ after.children node
  faces : ∀ node face, before.faceAt node = some face → after.faceAt node = some face

namespace Keeps

theorem refl (tree : Tree) : tree.Keeps tree :=
  ⟨rfl, fun _ declaration found => ⟨declaration, found, rfl⟩, fun _ _ member => member,
    fun _ _ known => known⟩

theorem ref {before after : Tree} (keeps : before.Keeps after) (id : NodeId) :
    after.ref id = before.ref id := by
  simp [Tree.ref, keeps.unit]

theorem add (tree : Tree) (kind : NodeKind) {parent : NodeId} (present : tree.Has parent)
    (start : Span) : tree.Keeps (tree.add kind parent start).2 := by
  have old {id : NodeId} {other : NodeKind} (found : tree.kindAt id = some other) :=
    tree.kindAt_add_of_some kind parent start found
  refine ⟨rfl, fun node declaration found => ⟨declaration, old found, rfl⟩, ?_, ?_⟩
  · intro node child member
    exact (tree.mem_children_add kind present start).2 (.inl member)
  · intro node face known
    obtain ⟨other, found, same⟩ := Option.map_eq_some_iff.1 known
    rw [faceAt, old found, Option.map_some, same]

end Keeps

/-- Whether a tree differs from another one in the template declaration of a node at most. -/
structure Amends (before after : Tree) (node : NodeId) (change : TemplateDecl → TemplateDecl) :
    Prop where
  unit : after.unit = before.unit
  size : after.size = before.size
  children : ∀ id, after.children id = before.children id
  kinds : ∀ id, after.kindAt id =
    if node = id then (before.kindAt id).map (NodeKind.amend change) else before.kindAt id

namespace Amends

variable {tree later : Tree} {node : NodeId} {change : TemplateDecl → TemplateDecl}

theorem of_eq (unit : later.unit = tree.unit) (size : later.size = tree.size)
    (children : ∀ id, later.children id = tree.children id)
    (kinds : ∀ id, later.kindAt id = tree.kindAt id) (node : NodeId) :
    tree.Amends later node id := by
  refine ⟨unit, size, children, fun other => ?_⟩
  rw [kinds]
  split
  · cases tree.kindAt other with
    | none => rfl
    | some kind => cases kind <;> rfl
  · rfl

theorem finish (tree : Tree) (node : NodeId) (last : Span) :
    tree.Amends (tree.finish node last) node id := by
  apply of_eq
  · rfl
  · exact Tree.size_update _ _ _
  · exact (tree.children_finish node · last)
  · exact (tree.kindAt_finish node · last)

theorem finishRoot (tree : Tree) (offset line : Nat) :
    tree.Amends (tree.finishRoot offset line) root id := by
  apply of_eq
  · rfl
  · exact Tree.size_update _ _ _
  · intro other
    apply children_update
    exact fun _ => rfl
  · intro other
    apply kindAt_update
    exact fun _ => rfl

theorem updateTemplate (tree : Tree) (node : NodeId) (change : TemplateDecl → TemplateDecl) :
    tree.Amends (tree.updateTemplate node change) node change :=
  ⟨rfl, Tree.size_update _ _ _, (tree.children_updateTemplate node · change),
    (tree.kindAt_updateTemplate node · change)⟩

/-- The template declaration that a node was. -/
theorem exists_template (amends : tree.Amends later node change) {id : NodeId}
    {changed : TemplateDecl} (found : later.kindAt id = some (.template changed)) :
    ∃ declaration, tree.kindAt id = some (.template declaration) ∧
      changed = if node = id then change declaration else declaration := by
  rw [amends.kinds] at found
  split at found
  · obtain ⟨kind, before, same⟩ := Option.map_eq_some_iff.1 found
    cases kind with
    | template declaration =>
        rename_i here
        exact ⟨declaration, before, by rw [if_pos here]; exact (NodeKind.template.inj same).symm⟩
    | _ => cases same
  · rename_i elsewhere
    exact ⟨changed, found, (if_neg elsewhere).symm⟩

theorem kindAt_template (amends : tree.Amends later node change) {id : NodeId}
    {declaration : TemplateDecl} (found : tree.kindAt id = some (.template declaration)) :
    later.kindAt id =
      some (.template (if node = id then change declaration else declaration)) := by
  rw [amends.kinds, found]
  split <;> rfl

/-- A node that is no template stays as it is. -/
theorem kindAt_plain (amends : tree.Amends later node change) {id : NodeId} {kind : NodeKind}
    (plain : kind.templateDecl? = none) :
    later.kindAt id = some kind ↔ tree.kindAt id = some kind := by
  rw [amends.kinds]
  split
  · cases tree.kindAt id with
    | none => simp
    | some other =>
        cases other <;> cases kind <;> simp_all [NodeKind.amend, NodeKind.templateDecl?]
  · rfl

section Same

variable (amends : tree.Amends later node change)
  (same : ∀ declaration, tree.kindAt node = some (.template declaration) →
    (change declaration).template = declaration.template)

include amends same

theorem faceAt (id : NodeId) : later.faceAt id = tree.faceAt id := by
  unfold Tree.faceAt
  rw [amends.kinds]
  split
  · rename_i here
    subst here
    cases found : tree.kindAt node with
    | none => rfl
    | some kind =>
        cases kind with
        | template declaration =>
            simp [NodeKind.amend, NodeKind.isTemplateParameter, NodeKind.symbol?,
              same declaration found]
        | _ => rfl
  · rfl

theorem keeps : tree.Keeps later where
  unit := amends.unit
  templates id declaration found := by
    refine ⟨_, amends.kindAt_template found, ?_⟩
    split
    · rename_i here
      exact same declaration (here ▸ found)
    · rfl
  children id child member := amends.children id ▸ member
  faces id face known := by
    rw [amends.faceAt same]
    exact known

end Same

end Amends

end Tree

namespace ParseM

theorem ownedSymbol?_eq (tree : Tree) (node : NodeId) : ownedSymbol? tree node =
    (((tree.children node).reverse.filterMap tree.faceAt).find? fun face => !face.1) >>=
      Prod.snd := by
  have faces : (tree.children node).reverse.filterMap tree.faceAt =
      ((tree.children node).reverse.filterMap tree.get?).map fun child =>
        (child.kind.isTemplateParameter, child.kind.symbol?) := by
    rw [List.map_filterMap]
    apply List.filterMap_congr
    intro child _
    cases found : tree.get? child <;> simp [Tree.faceAt, Tree.kindAt, found]
  unfold ownedSymbol?
  rw [faces, List.find?_map]
  simp only [Function.comp_def]
  cases ((tree.children node).reverse.filterMap tree.get?).find?
    fun child => !child.kind.isTemplateParameter <;> rfl

/-- The declaration that a template owns depends on the faces of the nodes in it only. -/
theorem ownedSymbol?_congr {before after : Tree} {node : NodeId}
    (children : after.children node = before.children node)
    (faces : ∀ child ∈ before.children node, after.faceAt child = before.faceAt child) :
    ownedSymbol? after node = ownedSymbol? before node := by
  rw [ownedSymbol?_eq, ownedSymbol?_eq, children]
  congr 2
  apply List.filterMap_congr
  intro child member
  exact faces child (List.mem_reverse.1 member)

end ParseM

end DeclTree
