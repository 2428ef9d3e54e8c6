import DeclTree.Source.Span
import DeclTree.Token.Keyword
import DeclTree.Token.Punctuator

/-!
# Tokens

A token is a classified piece of source text: its kind, its lexeme and the span
it was read from.  The end of the text and a piece that could not be read are
tokens too; both have an empty lexeme.
-/

namespace DeclTree

/-- The literals told apart by their first characters. -/
inductive LiteralKind
  | integer
  | floating
  | character
  | string
  deriving DecidableEq

/-- The class of a token. -/
inductive TokenKind
  | literal (form : LiteralKind)
  | identifier
  | keyword (word : Keyword)
  | punct (mark : Punct)
  | eof
  | invalid
  deriving DecidableEq

namespace LiteralKind

def text : LiteralKind → String
  | .integer => "integer literal"
  | .floating => "floating literal"
  | .character => "character literal"
  | .string => "string literal"

def label : LiteralKind → String
  | .integer => "IntLiteral"
  | .floating => "FloatLiteral"
  | .character => "CharLiteral"
  | .string => "StringLiteral"

end LiteralKind

namespace TokenKind

/-- The spelling of a keyword or punctuator, and a description of any other
kind. -/
def text : TokenKind → String
  | .literal form => form.text
  | .identifier => "identifier"
  | .keyword word => word.spelling
  | .punct mark => String.ofList mark.spelling
  | .eof => "end of file"
  | .invalid => "invalid token"

/-- How messages show a kind: spellings stand in quotes, descriptions do
not. -/
def quoted (kind : TokenKind) : String :=
  match kind with
  | .keyword _ | .punct _ => "'" ++ kind.text ++ "'"
  | _ => kind.text

def label : TokenKind → String
  | .literal form => form.label
  | .identifier => "Identifier"
  | .keyword word => word.label
  | .punct mark => mark.label
  | .eof => "Eof"
  | .invalid => "Error"

/-- Whether the kind names a fundamental type on its own. -/
def isBuiltinType : TokenKind → Bool
  | .keyword word => word.isBuiltinType
  | _ => false

def isQualifier : TokenKind → Bool
  | .keyword word => word.isQualifier
  | _ => false

def isLiteral : TokenKind → Bool
  | .literal _ => true
  | .keyword word => word.isLiteral
  | _ => false

end TokenKind

/-- A classified piece of source text. -/
structure Token where
  kind : TokenKind
  lexeme : String
  span : Span
  deriving DecidableEq

end DeclTree
