/-!
# Errors of the tree

Queries that a node does not answer, steps that a template declaration does not
allow, and handles without a node.
-/

namespace DeclTree

/-- How far a template declaration has come: its declaration is not known yet,
it is known, or nothing changes any more. -/
inductive TemplatePhase
  | opened
  | bound
  | sealed
  deriving DecidableEq

def TemplatePhase.text : TemplatePhase → String
  | .opened => "open"
  | .bound => "bound"
  | .sealed => "sealed"

/-- What can be asked of a node. -/
inductive NodeOperation
  | declarations
  | templateDeclaration
  | enterScope
  | exitScope
  | accept
  deriving DecidableEq

def NodeOperation.text : NodeOperation → String
  | .declarations => "declarations"
  | .templateDeclaration => "template_declaration"
  | .enterScope => "enter_scope"
  | .exitScope => "exit_scope"
  | .accept => "accept"

/-- Why something asked of a tree is refused. -/
inductive TreeError
  /-- Nodes of this kind do not answer the question. -/
  | unsupported (operation : NodeOperation) (nodeKind : String)
  /-- A template declaration cannot go from one phase to the other. -/
  | invalidTransition (source target : TemplatePhase)
  /-- There is no such node. -/
  | notFound
  deriving DecidableEq

def TreeError.message : TreeError → String
  | .unsupported operation nodeKind =>
      operation.text ++ " is not supported by " ++ nodeKind ++ " nodes"
  | .invalidTransition source target =>
      "invalid transition from " ++ source.text ++ " to " ++ target.text
  | .notFound => "node not found"

end DeclTree
