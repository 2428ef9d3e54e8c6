import DeclTree.Symbol.Conflict

/-!
# Declaring symbols

Declarations enter a scope if their name is free there.  A namespace may be
opened again, a symbol may be moved to another scope, and using directives make
the members of one scope visible in another.  An operation that is refused
leaves the table as it was.
-/

namespace DeclTree

namespace SymbolTable

def declare (table : SymbolTable) (scope : SymbolId) (request : SymbolRequest) :
    Except SymbolError (SymbolId × SymbolTable) := do
  table.checkContainer scope
  table.checkConflict scope request.name (.ofRequest request false)
  return table.attach scope request

def isNamespace (table : SymbolTable) (id : SymbolId) : Bool :=
  (table.get? id).any fun symbol => symbol.kind = .namespaceScope

def isAnonymousNamespace (table : SymbolTable) (id : SymbolId) : Bool :=
  (table.get? id).any fun symbol => symbol.isAnonymous && symbol.kind = .namespaceScope

/-- The namespace of a name directly in a scope; the empty name stands for the
scope's anonymous namespace. -/
def findNamespace? (table : SymbolTable) (scope : SymbolId) (name : String) :
    Option SymbolId :=
  if name = "" then (table.children scope).find? table.isAnonymousNamespace
  else (table.entries scope name).find? table.isNamespace

/-- Open a namespace again, or declare it on first use. -/
def openNamespace (table : SymbolTable) (scope : SymbolId) (name : String)
    (unit : Option UnitId) : Except SymbolError (SymbolId × SymbolTable) :=
  match table.findNamespace? scope name with
  | some existing => .ok (existing, table)
  | none => table.declare scope { name := name, kind := .namespaceScope, unit := unit }

def setOrigin (table : SymbolTable) (id : SymbolId) (origin : Option NodeRef) :
    Except SymbolError SymbolTable :=
  match table.get? id with
  | none => .error (.notFound id.text)
  | some _ => .ok (table.update id fun symbol => { symbol with origin := origin })

/-- Take a symbol out of its scope and add it to another under its name. -/
def relocate (table : SymbolTable) (id scope : SymbolId) : SymbolTable :=
  let name := ((table.get? id).map Symbol.name).getD ""
  let released :=
    match table.owner id with
    | none => table
    | some old => table.updateMembers old (Members.erase · id)
  let owned := released.update id fun symbol => { symbol with owner := some scope }
  owned.updateMembers scope (Members.insert · name id)

/-- Move a symbol to another scope, which must not lie inside it. -/
def move (table : SymbolTable) (id scope : SymbolId) : Except SymbolError SymbolTable := do
  table.checkContainer scope
  if id = scope ∨ id ∈ table.ancestors scope then
    throw (.cyclicScope (table.qualifiedName id))
  return table.relocate id scope

/-- Make the members of one scope visible in another, unless they are already. -/
def addUsing (table : SymbolTable) (scope target : SymbolId) : SymbolTable :=
  table.update scope fun symbol => { symbol with directives := symbol.directives.insert target }

/-- The scopes whose members are visible in a scope, in ascending order. -/
def usings (table : SymbolTable) (scope : SymbolId) : List SymbolId :=
  ((table.get? scope).map Symbol.uses).getD []

end SymbolTable

end DeclTree
