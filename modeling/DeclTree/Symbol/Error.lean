/-!
# Errors of the symbol table

The reasons why a declaration, a lookup or an operation on template factories
is refused.
-/

namespace DeclTree

/-- Why an operation on the symbol table is refused. -/
inductive SymbolError
  /-- Two incompatible symbols share a name in one scope. -/
  | duplicateDeclaration (name scope : String)
  /-- Nothing has the name looked up. -/
  | notFound (name : String)
  /-- Using directives bring several symbols of one name into view. -/
  | ambiguous (name : String) (candidates : Nat)
  /-- There is no open template frame to close. -/
  | emptyFactoryStack
  /-- Template frames are still open. -/
  | unbalancedFactory (pending : Nat)
  /-- The symbol cannot hold members. -/
  | notAContainer (name : String)
  /-- A scope would become its own ancestor. -/
  | cyclicScope (name : String)
  deriving DecidableEq

def SymbolError.message : SymbolError → String
  | .duplicateDeclaration name scope =>
      "duplicate declaration: '" ++ name ++ "' already declared in '" ++ scope ++ "'"
  | .notFound name => "'" ++ name ++ "' not found"
  | .ambiguous name candidates =>
      "'" ++ name ++ "' is ambiguous (" ++ toString candidates ++ " candidates)"
  | .emptyFactoryStack => "template factory stack is empty"
  | .unbalancedFactory pending =>
      "template factory released with " ++ toString pending ++
        " unclosed template frame(s)"
  | .notAContainer name => "'" ++ name ++ "' is not a scope"
  | .cyclicScope name => "'" ++ name ++ "' cannot be nested inside itself"

end DeclTree
