import DeclTree.Parse.Name

/-!
# What the rules of the grammar yield

The intermediate results of a declaration, and the rules that call one another
across nesting: class bodies hold declarations, parameters have declarators,
templates wrap declarations.  A rule calls another one through `Rules` only
behind a token it has read, so that a parse never nests deeper than it reads.
-/

namespace DeclTree

/-- Where specifiers stand: at the start of a declaration, where class and enum
bodies are allowed, in front of a parameter, or in a type alone. -/
inductive SpecifierMode
  | declaration
  | parameter
  | typeOnly
  deriving DecidableEq

/-- What a class or enum specifier introduces. -/
inductive TagKind
  | classTag (key : ClassKey)
  | enumTag (isScoped : Bool)
  deriving DecidableEq

def TagKind.symbolKind : TagKind → SymbolKind
  | .classTag key => .classType key
  | .enumTag isScoped => .enumType isScoped

/-- A class or enum that is named without a body. -/
structure ForwardTag where
  path : NamePath
  kind : TagKind

/-- What the specifiers of a declaration say: the tokens of the type, the other
specifiers, whether the declaration names a type, whether there is a type at
all, the symbol of the type, and a class or enum named without a body. -/
structure DeclSpecs where
  tokens : List Token := []
  specifiers : Specifiers := {}
  isTypedef : Bool := false
  hasType : Bool := false
  typeSymbol : Option SymbolId := none
  forward : Option ForwardTag := none

/-- The scope part of a declared name, and how it is written. -/
structure Qualifier where
  isGlobal : Bool
  segments : List String
  text : String

structure DeclaratorId where
  qualifier : Option Qualifier
  name : String
  span : Span
  hasArguments : Bool

/-- A function parameter before it is declared. -/
structure ParsedParameter where
  name : Option String
  type : TypeRef
  hasDefault : Bool
  isVariadic : Bool
  start : Span
  last : Span

/-- Whether a declarator has to have a name, may have one, or has none. -/
inductive DeclaratorMode
  | named
  | parameter
  | abstract
  deriving DecidableEq

/-- A declarator: its name, the tokens it adds to the type, the parameters of a
function, whether it is a pack, and whether an initialiser in parentheses
follows. -/
structure Declarator where
  id : Option DeclaratorId := none
  tokens : List Token := []
  parameters : Option (List ParsedParameter) := none
  isPack : Bool := false
  isDirectInit : Bool := false

/-- The rules that are used inside others. -/
structure Rules where
  specifiers : SpecifierMode → ParseM DeclSpecs
  declarator : DeclaratorMode → ParseM Declarator
  declaration : ParseM Unit
  templateDeclaration : Span → Bool → ParseM Unit
  declarations : Bool → ParseM Unit

/-- The type that specifiers and a declarator spell together. -/
def DeclSpecs.typeRef (specs : DeclSpecs) (declarator : Declarator) : TypeRef where
  text := spell (specs.tokens ++ declarator.tokens)
  symbol := specs.typeSymbol

end DeclTree
