import DeclTree.Symbol.Declare

/-!
# Finding symbols by name

A name is looked up in a scope and then in the scopes around it; the first one
that knows the name decides.  A scope knows its own members, those of unscoped
enums and anonymous namespaces in it, and, if none of these has the name, the
members of the namespaces its using directives name.
-/

namespace DeclTree

namespace SymbolTable

/-- Of several entries, the first definition, or else the first one. -/
def preferred? (table : SymbolTable) (entries : List SymbolId) : Option SymbolId :=
  match entries.find? fun entry => (table.get? entry).any Symbol.defined with
  | some definition => some definition
  | none => entries.head?

/-- Whether members of a symbol are visible in the scope around it. -/
def isTransparent (table : SymbolTable) (id : SymbolId) : Bool :=
  (table.get? id).any Symbol.isTransparent

/-- Find a name in a scope or in transparent members nested less than `bound`
deep. -/
def findWithin (table : SymbolTable) (name : String) : Nat → SymbolId → Option SymbolId
  | 0, _ => none
  | bound + 1, scope =>
      match table.preferred? (table.entries scope name) with
      | some found => some found
      | none =>
          ((table.children scope).filter table.isTransparent).findSome?
            (table.findWithin name bound)

/-- Find a name declared in a scope, also through transparent members. -/
def findLocal (table : SymbolTable) (scope : SymbolId) (name : String) : Option SymbolId :=
  table.findWithin name table.size scope

/-- The distinct symbols that the using directives of a scope bring in under a
name. -/
def usedCandidates (table : SymbolTable) (scope : SymbolId) (name : String) :
    List SymbolId :=
  ((table.usings scope).filterMap fun target => table.findLocal target name).eraseDups

/-- Find a name in one scope, using directives included. -/
def lookupInScope (table : SymbolTable) (name : String) (scope : SymbolId) :
    Except SymbolError (Option SymbolId) :=
  match table.findLocal scope name with
  | some found => .ok (some found)
  | none =>
      match table.usedCandidates scope name with
      | [] => .ok none
      | [single] => .ok (some single)
      | several => .error (.ambiguous name several.length)

/-- Find a name in the first scope of a list that knows it. -/
def lookupAlong (table : SymbolTable) (name : String) :
    List SymbolId → Except SymbolError SymbolId
  | [] => .error (.notFound name)
  | scope :: outer =>
      match table.lookupInScope name scope with
      | .error error => .error error
      | .ok (some found) => .ok found
      | .ok none => table.lookupAlong name outer

/-- Find an unqualified name from a scope outward. -/
def lookup (table : SymbolTable) (name : String) (scope : SymbolId) :
    Except SymbolError SymbolId :=
  table.lookupAlong name (scope :: table.ancestors scope)

/-- Follow at most `bound` templates to the declaration they wrap. -/
def scopeWithin (table : SymbolTable) : Nat → SymbolId → Option SymbolId
  | 0, _ => none
  | bound + 1, id =>
      match table.get? id with
      | none => none
      | some symbol =>
          match symbol.kind with
          | .template info => info.templated >>= table.scopeWithin bound
          | .function => none
          | _ => if symbol.isContainer then some id else none

/-- The scope in which a qualified name goes on behind a symbol.  Templates
lead to the declaration they wrap; functions lead nowhere. -/
def scopeOf (table : SymbolTable) (id : SymbolId) : Option SymbolId :=
  table.scopeWithin table.size id

/-- Follow the later segments of a qualified name, each in the scope that the
one before it names. -/
def lookupMembers (table : SymbolTable) :
    SymbolId → List String → Except SymbolError SymbolId
  | current, [] => .ok current
  | current, segment :: rest =>
      match table.scopeOf current with
      | none => .error (.notAContainer (table.qualifiedName current))
      | some container =>
          match table.findLocal container segment with
          | none =>
              .error (.notFound (table.qualifiedName container ++ "::" ++ segment))
          | some found => table.lookupMembers found rest

/-- Find the first segment of a qualified name: from a scope outward, or in the
global scope alone. -/
def lookupFirst (table : SymbolTable) (segment : String) (scope : SymbolId)
    (isGlobal : Bool) : Except SymbolError SymbolId :=
  if isGlobal then
    match table.lookupInScope segment root with
    | .error error => .error error
    | .ok none => .error (.notFound ("::" ++ segment))
    | .ok (some found) => .ok found
  else
    table.lookup segment scope

def lookupQualified (table : SymbolTable) (path : List String) (scope : SymbolId)
    (isGlobal : Bool) : Except SymbolError SymbolId :=
  match path with
  | [] => .error (.notFound "")
  | first :: rest =>
      match table.lookupFirst first scope isGlobal with
      | .error error => .error error
      | .ok found => table.lookupMembers found rest

end SymbolTable

end DeclTree
