import DeclTree.Handle

/-!
# Symbols

A symbol is one declared entity.  Symbols of some kinds introduce a scope and
then hold members: the symbols they own, in order of declaration, together with
an index of those that can be found by name.
-/

namespace DeclTree

/-- The word that introduces a class. -/
inductive ClassKey
  | classKey
  | structKey
  | unionKey
  deriving DecidableEq

def ClassKey.text : ClassKey → String
  | .classKey => "class"
  | .structKey => "struct"
  | .unionKey => "union"

/-- What a template parameter stands for. -/
inductive ParameterKind
  | type
  | nonType
  | template
  deriving DecidableEq

/-- What a template knows: its parameters in order and, once it is recognised,
the declaration it wraps. -/
structure TemplateInfo where
  parameters : List SymbolId := []
  templated : Option SymbolId := none
  deriving DecidableEq

/-- What a symbol denotes. -/
inductive SymbolKind
  | translationUnit
  | namespaceScope
  | classType (key : ClassKey)
  | enumType (isScoped : Bool)
  | enumerator
  | function
  | var
  | parameter
  | typedef
  | templateParameter (kind : ParameterKind)
  | template (info : TemplateInfo)
  deriving DecidableEq

namespace SymbolKind

def isContainer : SymbolKind → Bool
  | .translationUnit | .namespaceScope | .classType _ | .enumType _ | .function
  | .template _ => true
  | _ => false

/-- Whether several symbols of a kind may share a name in one scope. -/
def isOverloadable : SymbolKind → Bool
  | .function => true
  | _ => false

def text : SymbolKind → String
  | .translationUnit => "translation unit"
  | .namespaceScope => "namespace"
  | .classType key => key.text
  | .enumType _ => "enum"
  | .enumerator => "enumerator"
  | .function => "function"
  | .var => "variable"
  | .parameter => "parameter"
  | .typedef => "typedef"
  | .templateParameter _ => "template parameter"
  | .template _ => "template"

def templateInfo? : SymbolKind → Option TemplateInfo
  | .template info => some info
  | _ => none

def mapTemplate (change : TemplateInfo → TemplateInfo) : SymbolKind → SymbolKind
  | .template info => .template (change info)
  | kind => kind

end SymbolKind

/-- The members of a scope: all of them in order of declaration, and the names
under which they are entered, in order of entry. -/
structure Members where
  order : List SymbolId := []
  names : List (String × SymbolId) := []
  deriving DecidableEq

namespace Members

/-- Enter a name for a symbol unless the symbol has it already. -/
def register (members : Members) (name : String) (symbol : SymbolId) : Members :=
  if (name, symbol) ∈ members.names then members
  else { members with names := members.names ++ [(name, symbol)] }

/-- Add a member.  A member without a name is not entered under any. -/
def insert (members : Members) (name : String) (symbol : SymbolId) : Members where
  order := members.order ++ [symbol]
  names := if name = "" then members.names else members.names ++ [(name, symbol)]

def erase (members : Members) (symbol : SymbolId) : Members where
  order := members.order.filter (· ≠ symbol)
  names := members.names.filter (·.2 ≠ symbol)

/-- The members entered under a name, in order of entry. -/
def named (members : Members) (name : String) : List SymbolId :=
  (members.names.filter (·.1 = name)).map (·.2)

end Members

/-- What a new symbol is to be.  Definitions may clash with one another where
mere declarations do not, and explicit specializations never clash. -/
structure SymbolRequest where
  name : String
  kind : SymbolKind
  defined : Bool := true
  specialization : Bool := false
  unit : Option UnitId := none
  deriving DecidableEq

/-- Put a symbol into an ascending list, in front of the first one that is not older. -/
def SymbolId.insertAscending (id : SymbolId) : List SymbolId → List SymbolId
  | [] => [id]
  | other :: rest =>
      if id.index ≤ other.index then id :: other :: rest else other :: id.insertAscending rest

def SymbolId.sortAscending (ids : List SymbolId) : List SymbolId :=
  ids.foldr SymbolId.insertAscending []

/-- A declared entity: what was requested, the node that introduced it, the
scope that owns it, its members if it is a scope, the scopes its using
directives name, the latest first and each of them once, and its template
factory if one is in use. -/
structure Symbol where
  name : String
  kind : SymbolKind
  defined : Bool
  specialization : Bool
  unit : Option UnitId
  origin : Option NodeRef := none
  owner : Option SymbolId := none
  members : Option Members := none
  directives : List SymbolId := []
  factory : Option FactoryId := none
  deriving DecidableEq

namespace Symbol

/-- The symbol that a request describes, owned by a scope. -/
def ofRequest (owner : Option SymbolId) (request : SymbolRequest) : Symbol where
  name := request.name
  kind := request.kind
  defined := request.defined
  specialization := request.specialization
  unit := request.unit
  owner := owner
  members := if request.kind.isContainer then some {} else none

def isAnonymous (symbol : Symbol) : Bool :=
  symbol.name == ""

/-- The scopes whose members a symbol makes visible, in ascending order. -/
def uses (symbol : Symbol) : List SymbolId :=
  SymbolId.sortAscending symbol.directives

def isContainer (symbol : Symbol) : Bool :=
  symbol.members.isSome

def isTemplate (symbol : Symbol) : Bool :=
  symbol.kind.templateInfo?.isSome

/-- A symbol's name, or a placeholder where it has none. -/
def displayName (symbol : Symbol) : String :=
  if symbol.isAnonymous then "(anonymous)" else symbol.name

/-- Whether members of a symbol are visible in the scope around it: those of
unscoped enums and of anonymous namespaces are. -/
def isTransparent (symbol : Symbol) : Bool :=
  match symbol.kind with
  | .enumType isScoped => !isScoped
  | .namespaceScope => symbol.isAnonymous
  | _ => false

def mapMembers (change : Members → Members) (symbol : Symbol) : Symbol :=
  { symbol with members := symbol.members.map change }

end Symbol

end DeclTree
