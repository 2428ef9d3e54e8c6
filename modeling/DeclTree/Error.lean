import DeclTree.Node.Error
import DeclTree.Parse.Error

/-!
# Errors of all parts

Any error that reading sources, declaring symbols or asking a tree can lead
to.
-/

namespace DeclTree

/-- An error of one of the parts. -/
inductive FrontError
  | lexical (error : LexError)
  | parse (errors : List ParseError)
  | symbol (error : SymbolError)
  | tree (error : TreeError)

def FrontError.message : FrontError → String
  | .lexical error => error.message
  | .parse errors => ParseError.listText errors
  | .symbol error => error.message
  | .tree error => error.message

end DeclTree
