import DeclTree.Node.Basic

/-!
# The tree of a unit

The nodes of a unit stand in one array, the translation unit first and every
node behind the node around it.  A node is started when its declaration is
recognised and finished when its last token is read.
-/

namespace DeclTree

/-- The declarations of one unit. -/
structure Tree where
  unit : UnitId
  nodes : Array Node
  deriving DecidableEq

namespace Tree

def root : NodeId := ⟨0⟩

def empty (unit : UnitId) : Tree where
  unit := unit
  nodes := #[{ kind := .translationUnit unit SymbolTable.root }]

def size (tree : Tree) : Nat :=
  tree.nodes.size

def get? (tree : Tree) (id : NodeId) : Option Node :=
  tree.nodes[id.index]?

def ids (tree : Tree) : List NodeId :=
  (List.range tree.size).map NodeId.mk

/-- The node behind a handle across units. -/
def resolve? (tree : Tree) (reference : NodeRef) : Option Node :=
  if reference.unit = tree.unit then tree.get? reference.node else none

def ref (tree : Tree) (id : NodeId) : NodeRef :=
  ⟨tree.unit, id⟩

def children (tree : Tree) (id : NodeId) : List NodeId :=
  ((tree.get? id).map Node.children).getD []

def get (tree : Tree) (id : NodeId) : Except TreeError Node :=
  match tree.get? id with
  | some node => .ok node
  | none => .error .notFound

def declarations (tree : Tree) (id : NodeId) : Except TreeError (List NodeId) := do
  (← tree.get id).declarations

def templateDecl (tree : Tree) (id : NodeId) : Except TreeError TemplateDecl := do
  (← tree.get id).templateDecl

def templateDecls (tree : Tree) : List NodeId :=
  tree.ids.filter fun id => (tree.get? id).any fun node => node.kind.templateDecl?.isSome

/-- The node of the declaration that a template declaration owns. -/
def ownedDeclaration (tree : Tree) (table : SymbolTable) (id : NodeId) :
    Except TreeError (Option NodeRef) := do
  return (← tree.templateDecl id).ownedDeclaration table

/-- Whether the node behind a handle covers a byte offset. -/
def covers (tree : Tree) (offset : Nat) (id : NodeId) : Bool :=
  (tree.get? id).any fun node => node.range.contains offset

/-- All nodes that cover a byte offset, in order of creation. -/
def covering (tree : Tree) (offset : Nat) : List NodeId :=
  tree.ids.filter (tree.covers offset)

/-- Go down at most `bound` times to the first node inside that covers an
offset. -/
def descend (tree : Tree) (offset : Nat) : Nat → NodeId → NodeId
  | 0, current => current
  | bound + 1, current =>
      match (tree.children current).find? (tree.covers offset) with
      | some child => tree.descend offset bound child
      | none => current

/-- The innermost node that covers a byte offset. -/
def nodeAt? (tree : Tree) (offset : Nat) : Option NodeId :=
  if tree.covers offset root then some (tree.descend offset tree.size root) else none

def update (tree : Tree) (id : NodeId) (change : Node → Node) : Tree :=
  { tree with nodes := tree.nodes.modify id.index change }

@[simp] theorem get?_update (tree : Tree) (id other : NodeId) (change : Node → Node) :
    (tree.update id change).get? other =
      if id = other then (tree.get? other).map change else tree.get? other := by
  cases id
  cases other
  simp [get?, update, Array.getElem?_modify]

/-- Start a node inside another one. -/
def add (tree : Tree) (kind : NodeKind) (parent : NodeId) (start : Span) : NodeId × Tree :=
  let id : NodeId := ⟨tree.size⟩
  let node : Node :=
    { kind := kind
      parent := some parent
      range := ({} : SourceRange).setStart start.offset start.line }
  let extended : Tree := { tree with nodes := tree.nodes.push node }
  (id, extended.update parent fun node => { node with children := node.children ++ [id] })

@[simp] theorem size_add (tree : Tree) (kind : NodeKind) (parent : NodeId) (start : Span) :
    (tree.add kind parent start).2.size = tree.size + 1 := by
  simp [add, update, size]

/-- Finish a node at the end of a span.  A finished node stays as it is. -/
def finish (tree : Tree) (id : NodeId) (last : Span) : Tree :=
  tree.update id fun node =>
    if node.range.sealed then node
    else { node with range := (node.range.setEnd last.stop last.line).finalize }

/-- Let the translation unit cover the whole source. -/
def finishRoot (tree : Tree) (offset line : Nat) : Tree :=
  tree.update root fun node =>
    { node with range := ((node.range.setStart 0 1).setEnd offset line).finalize }

/-- Change the template declaration that a node is; other nodes stay. -/
def updateTemplate (tree : Tree) (id : NodeId) (change : TemplateDecl → TemplateDecl) : Tree :=
  tree.update id fun node =>
    match node.kind with
    | .template declaration => { node with kind := .template (change declaration) }
    | _ => node

/-- Finish the template declaration that a node is, if it is not finished. -/
def finalizeNode (node : Node) : Node :=
  match node.kind with
  | .template declaration =>
      match declaration.finalize with
      | .ok finished => { node with kind := .template finished }
      | .error _ => node
  | _ => node

def finalizeTemplates (tree : Tree) : Tree :=
  { tree with nodes := tree.nodes.map finalizeNode }

/-- The number of template declarations that are not finished. -/
def openTemplates (tree : Tree) : Nat :=
  tree.nodes.toList.countP fun node =>
    node.kind.templateDecl?.any fun declaration => declaration.phase != .sealed

end Tree

end DeclTree
