import DeclTree.Handle

/-!
# The scopes around the cursor

A parser keeps the scopes it is inside, innermost first.  There is always one,
the translation unit.  Each says which node receives declarations, where names
are looked up first, and how declarations are entered into the symbol table.
-/

namespace DeclTree

/-- Where declarations made in a scope are entered: in its symbol, through the
open templates of a factory into a container, or nowhere, when the one
declaration of a template has been made. -/
inductive DeclareTarget
  | container
  | template (factory : FactoryId) (container : SymbolId)
  | consumed
  deriving DecidableEq

/-- The kind of a scope; that of a class has the name by which constructors are
recognised. -/
inductive FrameKind
  | translationUnit
  | namespaceScope
  | linkage
  | classBody (name : String)
  | template
  deriving DecidableEq

/-- A scope around the cursor. -/
structure ScopeFrame where
  node : NodeId
  symbol : SymbolId
  target : DeclareTarget
  kind : FrameKind
  deriving DecidableEq

/-- Mark the templates at the front of some scopes as done with. -/
def consumeFrames : List ScopeFrame → List ScopeFrame
  | [] => []
  | frame :: outer =>
      if frame.kind = .template then
        { frame with target := .consumed } :: consumeFrames outer
      else frame :: outer

/-- The scopes around the cursor. -/
structure ScopeStack where
  inner : ScopeFrame
  outer : List ScopeFrame := []
  deriving DecidableEq

namespace ScopeStack

def frames (stack : ScopeStack) : List ScopeFrame :=
  stack.inner :: stack.outer

def depth (stack : ScopeStack) : Nat :=
  stack.outer.length + 1

def push (stack : ScopeStack) (frame : ScopeFrame) : ScopeStack :=
  ⟨frame, stack.frames⟩

/-- Leave the innermost scope; the translation unit is never left. -/
def pop (stack : ScopeStack) : ScopeStack :=
  match stack.outer with
  | [] => stack
  | frame :: outer => ⟨frame, outer⟩

/-- Mark the innermost templates as done with. -/
def consume (stack : ScopeStack) : ScopeStack :=
  if stack.inner.kind = .template then
    ⟨{ stack.inner with target := .consumed }, consumeFrames stack.outer⟩
  else stack

/-- The name of the class whose body is being read, also from inside the
prefix of a member template. -/
def className? (stack : ScopeStack) : Option String :=
  match stack.frames.find? fun frame => frame.kind ≠ .template with
  | some { kind := .classBody name, .. } => some name
  | _ => none

end ScopeStack

end DeclTree
