import DeclTree.Symbol.Basic
import DeclTree.Symbol.Factory

/-!
# The symbol table

All symbols of a session stand in one array, the global scope first.  Every
other symbol is owned by the scope it was declared in; the chain of owners
leads to the global scope and is never longer than the table.
-/

namespace DeclTree

/-- The symbols and template factories of a session. -/
structure SymbolTable where
  symbols : Array Symbol
  factories : Array TemplateFactory := #[]
  deriving DecidableEq

namespace SymbolTable

def root : SymbolId := ⟨0⟩

/-- The table that holds the global scope only. -/
def empty : SymbolTable where
  symbols := #[Symbol.ofRequest none { name := "", kind := .translationUnit }]

def size (table : SymbolTable) : Nat :=
  table.symbols.size

def isEmpty (table : SymbolTable) : Bool :=
  table.size == 1

def get? (table : SymbolTable) (id : SymbolId) : Option Symbol :=
  table.symbols[id.index]?

def factory? (table : SymbolTable) (id : FactoryId) : Option TemplateFactory :=
  table.factories[id.index]?

def update (table : SymbolTable) (id : SymbolId) (change : Symbol → Symbol) : SymbolTable :=
  { table with symbols := table.symbols.modify id.index change }

def updateFactory (table : SymbolTable) (id : FactoryId)
    (change : TemplateFactory → TemplateFactory) : SymbolTable :=
  { table with factories := table.factories.modify id.index change }

def updateMembers (table : SymbolTable) (id : SymbolId) (change : Members → Members) :
    SymbolTable :=
  table.update id (Symbol.mapMembers change)

@[simp] theorem get?_update (table : SymbolTable) (id other : SymbolId)
    (change : Symbol → Symbol) :
    (table.update id change).get? other =
      if id = other then (table.get? other).map change else table.get? other := by
  cases id
  cases other
  simp [get?, update, Array.getElem?_modify]

@[simp] theorem size_update (table : SymbolTable) (id : SymbolId)
    (change : Symbol → Symbol) :
    (table.update id change).size = table.size := by
  simp [size, update]

def owner (table : SymbolTable) (id : SymbolId) : Option SymbolId :=
  table.get? id >>= Symbol.owner

/-- The first owners on the way from a scope outward. -/
def ownerChain (table : SymbolTable) : Nat → Option SymbolId → List SymbolId
  | 0, _ => []
  | _ + 1, none => []
  | bound + 1, some scope => scope :: table.ownerChain bound (table.owner scope)

/-- The scopes around a symbol, innermost first. -/
def ancestors (table : SymbolTable) (id : SymbolId) : List SymbolId :=
  table.ownerChain table.size (table.owner id)

/-- The members of a scope; none for other symbols. -/
def members? (table : SymbolTable) (id : SymbolId) : Option Members :=
  table.get? id >>= Symbol.members

def children (table : SymbolTable) (scope : SymbolId) : List SymbolId :=
  ((table.members? scope).map Members.order).getD []

/-- The symbols entered under a name directly in a scope, in order of entry. -/
def entries (table : SymbolTable) (scope : SymbolId) (name : String) : List SymbolId :=
  ((table.members? scope).map (Members.named · name)).getD []

/-- What a scope adds to the qualified names of the symbols in it: templates
share their name with the declaration they wrap and add nothing, nor does the
global scope. -/
def scopeSegment (table : SymbolTable) (scope : SymbolId) : Option String :=
  match table.get? scope with
  | none => none
  | some symbol =>
      match symbol.kind with
      | .translationUnit | .template _ => none
      | _ => some symbol.displayName

/-- What a symbol itself adds to its qualified name. -/
def ownSegment (table : SymbolTable) (id : SymbolId) : Option String :=
  match table.get? id with
  | none => none
  | some symbol =>
      match symbol.kind with
      | .translationUnit => none
      | _ => some symbol.displayName

/-- A symbol's name behind the names of the scopes around it, outermost
first. -/
def qualifiedName (table : SymbolTable) (id : SymbolId) : String :=
  let outer := (table.ancestors id).filterMap table.scopeSegment
  "::".intercalate (outer.reverse ++ (table.ownSegment id).toList)

/-- Add a symbol under an owner. -/
def attach (table : SymbolTable) (owner : SymbolId) (request : SymbolRequest) :
    SymbolId × SymbolTable :=
  let id : SymbolId := ⟨table.size⟩
  let extended : SymbolTable :=
    { table with symbols := table.symbols.push (.ofRequest (some owner) request) }
  (id, extended.updateMembers owner (Members.insert · request.name id))

@[simp] theorem size_attach (table : SymbolTable) (owner : SymbolId)
    (request : SymbolRequest) :
    (table.attach owner request).2.size = table.size + 1 := by
  simp [attach, updateMembers, update, size]

/-- Whether members can be declared in a symbol. -/
def checkContainer (table : SymbolTable) (scope : SymbolId) : Except SymbolError Unit :=
  match table.get? scope with
  | none => .error (.notFound scope.text)
  | some symbol =>
      if symbol.isContainer then .ok ()
      else .error (.notAContainer (table.qualifiedName scope))

end SymbolTable

end DeclTree
