import DeclTree.Proofs.TreeFaces

/-!
# Which nodes stand in which

Declarations stand in the translation unit, in namespaces, linkage blocks, classes and
templates; parameters, template parameters and enumerators in what they belong to, and nothing
stands in a leaf.  Amending a template declaration changes nothing about this, and a new node keeps
to it where it is started in one that it fits in.
-/

namespace DeclTree

namespace NodeKind

/-- Whether a node is one that declarations stand in. -/
def isHost : NodeKind → Bool
  | .translationUnit .. | .namespaceScope _ | .linkage _ | .classType _ | .template _ => true
  | _ => false

/-- Whether a node may stand in another one. -/
def fitsIn (inner outer : NodeKind) : Bool :=
  match inner with
  | .translationUnit .. => false
  | .enumerator _ => (outer matches .enumType _)
  | .parameter _ => (outer matches .function _)
  | .templateParameter _ => (outer matches .template _)
  | _ => outer.isHost

theorem isScope_of_fitsIn {inner outer : NodeKind} (fits : inner.fitsIn outer = true) :
    outer.isScope = true := by
  cases inner <;> cases outer <;> first | rfl | cases fits

@[simp] theorem isHost_amend (kind : NodeKind) (change : TemplateDecl → TemplateDecl) :
    (kind.amend change).isHost = kind.isHost := by
  cases kind <;> rfl

@[simp] theorem fitsIn_amend (inner outer : NodeKind) (change : TemplateDecl → TemplateDecl) :
    inner.fitsIn (outer.amend change) = inner.fitsIn outer := by
  cases inner <;> cases outer <;> rfl

@[simp] theorem amend_fitsIn (inner outer : NodeKind) (change : TemplateDecl → TemplateDecl) :
    (inner.amend change).fitsIn outer = inner.fitsIn outer := by
  cases inner <;> rfl

@[simp] theorem amend_id (kind : NodeKind) : kind.amend id = kind := by
  cases kind <;> rfl

@[simp] theorem amend_amend (kind : NodeKind) (first second : TemplateDecl → TemplateDecl) :
    (kind.amend first).amend second = kind.amend (second ∘ first) := by
  cases kind <;> rfl

end NodeKind

namespace Tree

/-- Whether every node in another one may stand there. -/
def Housed (tree : Tree) : Prop :=
  ∀ outer inner, inner ∈ tree.children outer → ∃ around kind,
    tree.kindAt outer = some around ∧ tree.kindAt inner = some kind ∧ kind.fitsIn around = true

/-- Nothing stands in a leaf. -/
theorem Housed.children_leaf {tree : Tree} (housed : tree.Housed) {id : NodeId} {node : Node}
    (found : tree.get? id = some node) (plain : node.kind.isScope = false) :
    tree.children id = [] := by
  apply List.eq_nil_iff_forall_not_mem.2
  intro child held
  obtain ⟨around, kind, known, _, fits⟩ := housed id child held
  have same : node.kind = around := by simpa [kindAt, found] using known
  rw [← same] at fits
  simp [NodeKind.isScope_of_fitsIn fits] at plain

/-- Whether a node is there and is one that declarations stand in. -/
def Hosts (tree : Tree) (id : NodeId) : Prop :=
  ∃ kind, tree.kindAt id = some kind ∧ kind.isHost = true

/-- Whether a node is there and is one that another may stand in. -/
def Takes (tree : Tree) (id : NodeId) (inner : NodeKind) : Prop :=
  ∃ around, tree.kindAt id = some around ∧ inner.fitsIn around = true

variable {tree later : Tree}

theorem Hosts.has {id : NodeId} (hosts : tree.Hosts id) : tree.Has id := by
  obtain ⟨kind, found, _⟩ := hosts
  exact tree.has_of_kindAt found

theorem Takes.has {id : NodeId} {inner : NodeKind} (takes : tree.Takes id inner) : tree.Has id := by
  obtain ⟨around, found, _⟩ := takes
  exact tree.has_of_kindAt found

/-- What may stand wherever declarations do may stand in any such node. -/
theorem Hosts.takes {id : NodeId} (hosts : tree.Hosts id) {inner : NodeKind}
    (fits : ∀ around : NodeKind, around.isHost = true → inner.fitsIn around = true) :
    tree.Takes id inner := by
  obtain ⟨around, found, host⟩ := hosts
  exact ⟨around, found, fits around host⟩

theorem Amends.exists_amend {node : NodeId} {change : TemplateDecl → TemplateDecl}
    (amends : tree.Amends later node change) {other : NodeId} {kind : NodeKind}
    (found : tree.kindAt other = some kind) :
    ∃ further, later.kindAt other = some (kind.amend further) := by
  rw [amends.kinds, found]
  split
  · exact ⟨change, rfl⟩
  · exact ⟨id, by rw [NodeKind.amend_id]⟩

theorem Housed.amends (housed : tree.Housed) {node : NodeId}
    {change : TemplateDecl → TemplateDecl} (amends : tree.Amends later node change) :
    later.Housed := by
  intro outer inner member
  rw [amends.children] at member
  obtain ⟨around, kind, foundOuter, foundInner, fits⟩ := housed outer inner member
  obtain ⟨first, knownOuter⟩ := amends.exists_amend foundOuter
  obtain ⟨second, knownInner⟩ := amends.exists_amend foundInner
  exact ⟨_, _, knownOuter, knownInner, by simpa using fits⟩

theorem Housed.add (housed : tree.Housed) {kind : NodeKind} {parent : NodeId}
    (takes : tree.Takes parent kind) (start : Span) : (tree.add kind parent start).2.Housed := by
  obtain ⟨around, known, fits⟩ := takes
  have old {id : NodeId} {other : NodeKind} (found : tree.kindAt id = some other) :=
    tree.kindAt_add_of_some kind parent start found
  intro outer inner member
  rcases (tree.mem_children_add kind (tree.has_of_kindAt known) start).1 member with
    earlier | ⟨rfl, rfl⟩
  · obtain ⟨there, other, foundOuter, foundInner, fitsThere⟩ := housed outer inner earlier
    exact ⟨there, other, old foundOuter, old foundInner, fitsThere⟩
  · exact ⟨around, kind, old known, tree.kindAt_add_new kind outer start, fits⟩

theorem housed_empty (unit : UnitId) : (empty unit).Housed := by
  intro outer inner member
  rcases outer with ⟨_ | index⟩ <;> simp [children, get?, empty] at member

end Tree

end DeclTree
