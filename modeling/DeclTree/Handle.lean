/-!
# Handles

Translation units, nodes of a unit's tree, symbols and template factories are
kept in arrays and refer to one another by position.  A handle is such a
position under a type of its own, so that a symbol is never mistaken for a
node.  Each handle has a short text used in messages and reports.
-/

namespace DeclTree

/-- A translation unit of a session, numbered in order of parsing. -/
structure UnitId where
  index : Nat
  deriving DecidableEq

/-- A node of one unit's tree, numbered in order of creation. -/
structure NodeId where
  index : Nat
  deriving DecidableEq

/-- A node together with the unit whose tree holds it. -/
structure NodeRef where
  unit : UnitId
  node : NodeId
  deriving DecidableEq

/-- A symbol of a table, numbered in order of creation. -/
structure SymbolId where
  index : Nat
  deriving DecidableEq

/-- A template factory of a table, numbered in order of creation. -/
structure FactoryId where
  index : Nat
  deriving DecidableEq

def UnitId.text (unit : UnitId) : String :=
  "unit_" ++ toString unit.index

def NodeId.text (node : NodeId) : String :=
  "node_" ++ toString node.index

def NodeRef.text (reference : NodeRef) : String :=
  reference.unit.text ++ "/" ++ reference.node.text

def SymbolId.text (symbol : SymbolId) : String :=
  "sym_" ++ toString symbol.index

def FactoryId.text (factory : FactoryId) : String :=
  "factory_" ++ toString factory.index

end DeclTree
