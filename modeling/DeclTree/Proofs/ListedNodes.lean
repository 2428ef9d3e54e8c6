import DeclTree.Proofs.TreeFaces

/-!
# What nodes list

The nodes of a tree tell some of what the symbol table lists: a using directive or an inline
namespace makes a scope visible where it stands, and a template node lists the nodes of its
parameters, which stand in it.  Most changes of a tree leave all of this alone.
-/

namespace DeclTree

namespace NodeKind

/-- The scope that a node makes visible where it stands: the target of a using directive, and an
inline namespace. -/
def link? : NodeKind → Option SymbolId
  | .usingDirective declaration => declaration.target
  | .namespaceScope declaration =>
      if declaration.isInline then some declaration.symbol else none
  | _ => none

/-- The symbol of a template node and the nodes that it lists as parameters. -/
def signature? : NodeKind → Option (SymbolId × List NodeId)
  | .template declaration => some (declaration.template, declaration.parameters)
  | _ => none

/-- Whether a node of a kind lists nothing and is listed nowhere. -/
structure Bare (kind : NodeKind) : Prop where
  link : kind.link? = none
  signature : kind.signature? = none
  parameter : kind.isTemplateParameter = false

theorem link?_amend (kind : NodeKind) (change : TemplateDecl → TemplateDecl) :
    (kind.amend change).link? = kind.link? := by
  cases kind <;> rfl

theorem isTemplateParameter_amend (kind : NodeKind) (change : TemplateDecl → TemplateDecl) :
    (kind.amend change).isTemplateParameter = kind.isTemplateParameter := by
  cases kind <;> rfl

end NodeKind

namespace Tree

/-- The scope that a node makes visible where it stands. -/
def link? (tree : Tree) (id : NodeId) : Option SymbolId :=
  tree.kindAt id >>= NodeKind.link?

/-- The symbol of a template node and the nodes that it lists as parameters. -/
def signature? (tree : Tree) (id : NodeId) : Option (SymbolId × List NodeId) :=
  tree.kindAt id >>= NodeKind.signature?

def isTemplateParameter (tree : Tree) (id : NodeId) : Bool :=
  (tree.kindAt id).any NodeKind.isTemplateParameter

def parametersIn (tree : Tree) (id : NodeId) : List NodeId :=
  (tree.children id).filter tree.isTemplateParameter

variable {before after later tree : Tree}

section Update

variable (tree : Tree) (node : NodeId) (change : TemplateDecl → TemplateDecl) (id : NodeId)

/-- A template declaration makes nothing visible, however it is amended. -/
theorem link?_updateTemplate : (tree.updateTemplate node change).link? id = tree.link? id := by
  unfold link?
  rw [kindAt_updateTemplate]
  split
  · cases tree.kindAt id with
    | none => rfl
    | some kind => exact kind.link?_amend change
  · rfl

theorem signature?_updateTemplate : (tree.updateTemplate node change).signature? id =
    if node = id then tree.kindAt id >>= fun kind => (kind.amend change).signature?
    else tree.signature? id := by
  unfold signature?
  rw [kindAt_updateTemplate]
  split
  · cases tree.kindAt id <;> rfl
  · rfl

theorem parametersIn_updateTemplate :
    (tree.updateTemplate node change).parametersIn id = tree.parametersIn id := by
  have same : (tree.updateTemplate node change).isTemplateParameter =
      tree.isTemplateParameter := by
    funext id
    unfold isTemplateParameter
    rw [kindAt_updateTemplate]
    split
    · cases tree.kindAt id with
      | none => rfl
      | some kind => exact kind.isTemplateParameter_amend change
    · rfl
  rw [parametersIn, children_updateTemplate, same, parametersIn]

end Update

/-- Whether the nodes of a tree list what they listed, and new ones nothing. -/
structure KeepsLists (before after : Tree) : Prop where
  link : ∀ id, after.link? id = before.link? id
  signature : ∀ id, after.signature? id = before.signature? id
  parameters : ∀ id, after.parametersIn id = before.parametersIn id

namespace KeepsLists

theorem refl (tree : Tree) : KeepsLists tree tree :=
  ⟨fun _ => rfl, fun _ => rfl, fun _ => rfl⟩

/-- A change that leaves the nodes what they are, and where. -/
theorem of_eq (kinds : ∀ id, after.kindAt id = before.kindAt id)
    (children : ∀ id, after.children id = before.children id) : KeepsLists before after where
  link id := by rw [link?, kinds, link?]
  signature id := by rw [signature?, kinds, signature?]
  parameters id := by
    have same : after.isTemplateParameter = before.isTemplateParameter :=
      funext fun id => by rw [isTemplateParameter, kinds, isTemplateParameter]
    rw [parametersIn, children, same, parametersIn]

theorem finish (tree : Tree) (id : NodeId) (last : Span) : KeepsLists tree (tree.finish id last) :=
  of_eq (tree.kindAt_finish id · last) (tree.children_finish id · last)

/-- A template declaration that is amended, and keeps its symbol and its parameters. -/
theorem updateTemplate (tree : Tree) (node : NodeId) {change : TemplateDecl → TemplateDecl}
    (same : ∀ declaration, tree.kindAt node = some (.template declaration) →
      (change declaration).template = declaration.template ∧
        (change declaration).parameters = declaration.parameters) :
    KeepsLists tree (tree.updateTemplate node change) where
  link := tree.link?_updateTemplate node change
  signature id := by
    rw [signature?_updateTemplate]
    split
    · rename_i here
      subst here
      unfold signature?
      cases found : tree.kindAt node with
      | none => rfl
      | some kind =>
          cases kind with
          | template declaration =>
              obtain ⟨template, parameters⟩ := same declaration found
              change some (_, _) = some (_, _)
              rw [template, parameters]
          | _ => rfl
    · rfl
  parameters := tree.parametersIn_updateTemplate node change

end KeepsLists

/-! ## New nodes -/

section Add

variable (tree) (kind : NodeKind) {parent : NodeId} (present : tree.Has parent) (start : Span)

theorem link?_add (parent : NodeId) (id : NodeId) : (tree.add kind parent start).2.link? id =
    if id.index = tree.size then kind.link? else tree.link? id := by
  unfold link?
  rw [kindAt_add]
  split <;> rfl

theorem signature?_add (parent : NodeId) (id : NodeId) :
    (tree.add kind parent start).2.signature? id =
      if id.index = tree.size then kind.signature? else tree.signature? id := by
  unfold signature?
  rw [kindAt_add]
  split <;> rfl

/-- A new node is a parameter if that is its kind. -/
theorem isTemplateParameter_add (parent : NodeId) (id : NodeId) :
    (tree.add kind parent start).2.isTemplateParameter id =
      if id.index = tree.size then kind.isTemplateParameter else tree.isTemplateParameter id := by
  unfold isTemplateParameter
  rw [kindAt_add]
  split <;> rfl

theorem exists_kindAt {tree : Tree} {id : NodeId} (present : tree.Has id) :
    ∃ kind, tree.kindAt id = some kind := by
  obtain ⟨node, found⟩ := exists_get? present
  exact ⟨node.kind, by rw [kindAt, found]; rfl⟩

/-- The next node is not there yet. -/
theorem kindAt_fresh : tree.kindAt ⟨tree.size⟩ = none := by
  cases found : tree.kindAt ⟨tree.size⟩ with
  | none => rfl
  | some kind => exact absurd (tree.has_of_kindAt found) (Nat.lt_irrefl tree.size)

include present in
/-- A new node goes behind the parameters of the one it stands in if it is one itself. -/
theorem parametersIn_add (sound : ∀ id, ∀ child ∈ tree.children id, tree.Has child)
    (id : NodeId) : (tree.add kind parent start).2.parametersIn id =
      tree.parametersIn id ++
        if id = parent ∧ kind.isTemplateParameter = true then [⟨tree.size⟩] else [] := by
  have old : ∀ child ∈ tree.children id,
      (tree.add kind parent start).2.isTemplateParameter child =
        tree.isTemplateParameter child := by
    intro child member
    rw [isTemplateParameter_add, if_neg (Nat.ne_of_lt (sound id child member))]
  have new : (tree.add kind parent start).2.isTemplateParameter ⟨tree.size⟩ =
      kind.isTemplateParameter := by
    rw [isTemplateParameter_add, if_pos rfl]
  rw [parametersIn, children_add _ _ present, List.filter_append, List.filter_congr old]
  congr 1
  by_cases here : id = parent
  · simp [here, List.filter_cons, new]
  · simp [here]

include present in
/-- A new node that is no parameter leaves the parameters in every node as they were. -/
theorem parametersIn_add_plain (plain : kind.isTemplateParameter = false) (id : NodeId) :
    (tree.add kind parent start).2.parametersIn id = tree.parametersIn id := by
  have same : (tree.add kind parent start).2.isTemplateParameter = tree.isTemplateParameter := by
    funext other
    rw [isTemplateParameter_add]
    split
    · rename_i new
      obtain rfl : other = ⟨tree.size⟩ := congrArg NodeId.mk new
      rw [plain, isTemplateParameter, kindAt_fresh, Option.any_none]
    · rfl
  have new : tree.isTemplateParameter ⟨tree.size⟩ = false := by
    rw [isTemplateParameter, kindAt_fresh, Option.any_none]
  rw [parametersIn, same, children_add _ _ present, List.filter_append, parametersIn]
  split <;> simp [new]

/-- A new node that makes nothing visible. -/
theorem link?_add_plain (plain : kind.link? = none) (parent : NodeId) (id : NodeId) :
    (tree.add kind parent start).2.link? id = tree.link? id := by
  rw [link?_add]
  split
  · rename_i new
    obtain rfl : id = ⟨tree.size⟩ := congrArg NodeId.mk new
    rw [plain, link?, kindAt_fresh]
    rfl
  · rfl

/-- A new node that lists no parameters. -/
theorem signature?_add_plain (plain : kind.signature? = none) (parent : NodeId) (id : NodeId) :
    (tree.add kind parent start).2.signature? id = tree.signature? id := by
  rw [signature?_add]
  split
  · rename_i new
    obtain rfl : id = ⟨tree.size⟩ := congrArg NodeId.mk new
    rw [plain, signature?, kindAt_fresh]
    rfl
  · rfl

include present in
/-- A new node that lists nothing. -/
theorem KeepsLists.add (bare : kind.Bare) :
    KeepsLists tree (tree.add kind parent start).2 where
  link := tree.link?_add_plain kind start bare.link parent
  signature := tree.signature?_add_plain kind start bare.signature parent
  parameters := tree.parametersIn_add_plain kind present start bare.parameter

end Add

end Tree

end DeclTree
