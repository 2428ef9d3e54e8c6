import DeclTree.Symbol.Table

/-!
# Which declarations may share a name

Two declarations of one name in one scope are compared by what they declare,
whether they define it, whether they are templates, and the unit they come
from.  Each unit may bring its own definition of a class or variable.
-/

namespace DeclTree

/-- The grouping of entities by which names are compared.  Classes and enums
share the tags. -/
inductive NameClass
  | namespaceName
  | tag
  | function
  | object
  | other
  deriving DecidableEq

/-- The group a kind of symbol belongs to. -/
def SymbolKind.nameClass : SymbolKind → NameClass
  | .namespaceScope => .namespaceName
  | .classType _ | .enumType _ => .tag
  | .function => .function
  | .var => .object
  | _ => .other

structure Profile where
  nameClass : NameClass
  defined : Bool
  specialization : Bool
  isTemplate : Bool
  unit : Option UnitId
  deriving DecidableEq

namespace Profile

def ofRequest (request : SymbolRequest) (isTemplate : Bool) : Profile where
  nameClass := request.kind.nameClass
  defined := request.defined
  specialization := request.specialization
  isTemplate := isTemplate
  unit := request.unit

/-- The profile of a declared symbol.  A template is grouped by the kind of the
declaration it wraps. -/
def ofSymbol (table : SymbolTable) (symbol : Symbol) : Profile where
  nameClass :=
    match symbol.kind with
    | .template info =>
        match info.templated >>= table.get? with
        | some templated => templated.kind.nameClass
        | none => .other
    | kind => kind.nameClass
  defined := symbol.defined
  specialization := symbol.specialization
  isTemplate := symbol.isTemplate
  unit := symbol.unit

/-- Whether a declaration may not join an existing one of the same name. -/
def conflicts (existing incoming : Profile) : Bool :=
  if existing.specialization || incoming.specialization then false
  else
    match existing.nameClass, incoming.nameClass with
    | .namespaceName, .namespaceName => false
    | .namespaceName, _ | _, .namespaceName => true
    | .function, .function => false
    | .tag, .tag | .object, .object =>
        existing.isTemplate != incoming.isTemplate ||
          (existing.defined && incoming.defined && existing.unit == incoming.unit)
    | .tag, _ | _, .tag => false
    | first, second => existing.unit == incoming.unit || first != second

end Profile

namespace SymbolTable

/-- Whether a symbol of the table stands in the way of a new declaration. -/
def clashes (table : SymbolTable) (incoming : Profile) (id : SymbolId) : Bool :=
  (table.get? id).any fun symbol => (Profile.ofSymbol table symbol).conflicts incoming

/-- Refuse a name that an entry of the scope stands in the way of. -/
def checkConflict (table : SymbolTable) (scope : SymbolId) (name : String)
    (incoming : Profile) : Except SymbolError Unit :=
  if name ≠ "" && (table.entries scope name).any (table.clashes incoming) then
    .error (.duplicateDeclaration name (table.qualifiedName scope))
  else
    .ok ()

end SymbolTable

end DeclTree
