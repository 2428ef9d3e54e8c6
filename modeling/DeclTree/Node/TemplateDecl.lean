import DeclTree.Node.Error
import DeclTree.Symbol.Template

/-!
# Template declarations

A template declaration is opened by its prefix, bound once the declaration
behind the prefix is known, and sealed at the end of the session.  One that
never got a declaration is sealed from where it is.
-/

namespace DeclTree

/-- What a tree records of a template declaration: its symbol, the node around
it, its parameters, the declaration it owns, the factory that shapes it while
it is not released, its phase, and whether it is exported. -/
structure TemplateDecl where
  template : SymbolId
  scopeNode : NodeId
  parameters : List NodeId := []
  owned : Option SymbolId := none
  factory : Option FactoryId := none
  phase : TemplatePhase := .opened
  exported : Bool := false
  deriving DecidableEq

namespace TemplateDecl

/-- A template declaration at its prefix. -/
def start (template : SymbolId) (scopeNode : NodeId) (factory : FactoryId)
    (exported : Bool) : TemplateDecl where
  template := template
  scopeNode := scopeNode
  factory := some factory
  exported := exported

def addParameter (declaration : TemplateDecl) (parameter : NodeId) : TemplateDecl :=
  { declaration with parameters := declaration.parameters ++ [parameter] }

/-- Attach the declaration behind the prefix, while none is attached. -/
def bind (declaration : TemplateDecl) (owned : SymbolId) : Except TreeError TemplateDecl :=
  if declaration.phase = .opened then
    .ok { declaration with owned := some owned, phase := .bound }
  else
    .error (.invalidTransition declaration.phase .bound)

def release (declaration : TemplateDecl) : TemplateDecl :=
  { declaration with factory := none }

/-- Finish a declaration that is not finished yet. -/
def finalize (declaration : TemplateDecl) : Except TreeError TemplateDecl :=
  if declaration.phase = .sealed then
    .error (.invalidTransition .sealed .sealed)
  else
    .ok { declaration.release with phase := .sealed }

/-- The node that introduced a symbol. -/
def originOf (table : SymbolTable) (symbol : SymbolId) : Option NodeRef :=
  table.get? symbol >>= Symbol.origin

/-- The node of the declaration behind the prefix.  An open declaration has
none; otherwise the attached declaration counts if it has a node, and else what
the template symbol wraps. -/
def ownedDeclaration (declaration : TemplateDecl) (table : SymbolTable) : Option NodeRef :=
  if declaration.phase = .opened then none
  else
    match declaration.owned >>= originOf table with
    | some node => some node
    | none => table.templated? declaration.template >>= originOf table

end TemplateDecl

end DeclTree
