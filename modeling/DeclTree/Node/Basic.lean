import DeclTree.Node.Specifier
import DeclTree.Node.TemplateDecl
import DeclTree.Source.Range

/-!
# Nodes

The nodes of a unit's tree are the declarations found in its source.  Some
nodes are scopes that hold further declarations; the others are leaves.
-/

namespace DeclTree

/-- A type as it is written, and the symbol its name stands for where that is
known. -/
structure TypeRef where
  text : String
  symbol : Option SymbolId := none
  deriving DecidableEq

/-- A namespace; an anonymous one has the empty name. -/
structure NamespaceDecl where
  name : String
  isInline : Bool
  symbol : SymbolId
  deriving DecidableEq

/-- A class with its body; an anonymous one has the empty name. -/
structure ClassDecl where
  name : String
  key : ClassKey
  bases : List TypeRef
  symbol : SymbolId
  specialization : Bool
  isFinal : Bool
  deriving DecidableEq

structure EnumDecl where
  name : String
  isScoped : Bool
  underlying : Option TypeRef
  symbol : SymbolId
  deriving DecidableEq

/-- An enumerator, with or without a value of its own. -/
structure EnumeratorDecl where
  name : String
  symbol : SymbolId
  hasValue : Bool
  deriving DecidableEq

/-- A function.  The qualifier is that of a definition outside its class, and
constructors, destructors and conversions have no return type. -/
structure FunctionDecl where
  name : String
  qualifier : Option String
  returnType : Option TypeRef
  specifiers : Specifiers
  symbol : SymbolId
  isDefinition : Bool
  deriving DecidableEq

/-- A parameter of a function; the dots at the end of a parameter list are a
parameter without a name. -/
structure ParameterDecl where
  name : Option String
  type : TypeRef
  symbol : Option SymbolId
  hasDefault : Bool
  isVariadic : Bool
  deriving DecidableEq

/-- A variable or data member. -/
structure VariableDecl where
  name : String
  qualifier : Option String
  type : TypeRef
  specifiers : Specifiers
  symbol : SymbolId
  hasInitializer : Bool
  deriving DecidableEq

structure TypedefDecl where
  name : String
  type : TypeRef
  symbol : SymbolId
  deriving DecidableEq

/-- A using directive and the namespace it names, if that is declared. -/
structure UsingDecl where
  path : String
  target : Option SymbolId
  deriving DecidableEq

/-- A template parameter; only those that stand for a value have a type. -/
structure TemplateParameterDecl where
  name : Option String
  kind : ParameterKind
  type : Option TypeRef
  symbol : Option SymbolId
  hasDefault : Bool
  isVariadic : Bool
  deriving DecidableEq

/-- What a node declares. -/
inductive NodeKind
  | translationUnit (unit : UnitId) (symbol : SymbolId)
  | namespaceScope (declaration : NamespaceDecl)
  | linkage (language : String)
  | classType (declaration : ClassDecl)
  | enumType (declaration : EnumDecl)
  | enumerator (declaration : EnumeratorDecl)
  | function (declaration : FunctionDecl)
  | parameter (declaration : ParameterDecl)
  | var (declaration : VariableDecl)
  | typedef (declaration : TypedefDecl)
  | usingDirective (declaration : UsingDecl)
  | template (declaration : TemplateDecl)
  | templateParameter (declaration : TemplateParameterDecl)
  deriving DecidableEq

namespace NodeKind

def text : NodeKind → String
  | .translationUnit .. => "translation unit"
  | .namespaceScope _ => "namespace"
  | .linkage _ => "linkage specification"
  | .classType _ => "class"
  | .enumType _ => "enum"
  | .enumerator _ => "enumerator"
  | .function _ => "function"
  | .parameter _ => "parameter"
  | .var _ => "variable"
  | .typedef _ => "typedef"
  | .usingDirective _ => "using directive"
  | .template _ => "template declaration"
  | .templateParameter _ => "template parameter"

def name? : NodeKind → Option String
  | .namespaceScope declaration => some declaration.name
  | .classType declaration => some declaration.name
  | .enumType declaration => some declaration.name
  | .enumerator declaration => some declaration.name
  | .function declaration => some declaration.name
  | .parameter declaration => declaration.name
  | .var declaration => some declaration.name
  | .typedef declaration => some declaration.name
  | .templateParameter declaration => declaration.name
  | .translationUnit .. | .linkage _ | .usingDirective _ | .template _ => none

def symbol? : NodeKind → Option SymbolId
  | .translationUnit _ symbol => some symbol
  | .namespaceScope declaration => some declaration.symbol
  | .classType declaration => some declaration.symbol
  | .enumType declaration => some declaration.symbol
  | .enumerator declaration => some declaration.symbol
  | .function declaration => some declaration.symbol
  | .parameter declaration => declaration.symbol
  | .var declaration => some declaration.symbol
  | .typedef declaration => some declaration.symbol
  | .template declaration => some declaration.template
  | .templateParameter declaration => declaration.symbol
  | .linkage _ | .usingDirective _ => none

/-- Whether a node is a scope: it is entered and left on a walk. -/
def isScope : NodeKind → Bool
  | .translationUnit .. | .namespaceScope _ | .linkage _ | .classType _ | .enumType _
  | .function _ | .template _ => true
  | _ => false

/-- Whether a node keeps a list of member declarations. -/
def hasDeclarations : NodeKind → Bool
  | .translationUnit .. | .namespaceScope _ | .linkage _ | .classType _ | .enumType _ => true
  | _ => false

def templateDecl? : NodeKind → Option TemplateDecl
  | .template declaration => some declaration
  | _ => none

def isTemplateParameter : NodeKind → Bool
  | .templateParameter _ => true
  | _ => false

end NodeKind

/-- A node of a tree: what it declares, the node around it, the nodes in it in
order, and the source it covers. -/
structure Node where
  kind : NodeKind
  parent : Option NodeId := none
  children : List NodeId := []
  range : SourceRange := {}
  deriving DecidableEq

namespace Node

/-- The refusal of an operation that nodes of this kind do not answer. -/
def unsupported (node : Node) (operation : NodeOperation) : TreeError :=
  .unsupported operation node.kind.text

/-- The member declarations of a node that keeps them. -/
def declarations (node : Node) : Except TreeError (List NodeId) :=
  if node.kind.hasDeclarations then .ok node.children
  else .error (node.unsupported .declarations)

def templateDecl (node : Node) : Except TreeError TemplateDecl :=
  match node.kind.templateDecl? with
  | some declaration => .ok declaration
  | none => .error (node.unsupported .templateDeclaration)

end Node

end DeclTree
