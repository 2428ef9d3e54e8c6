import DeclTree.Source.Span

/-!
# Lexical errors

A piece of text that is no token: what is wrong with it and where it stands.
-/

namespace DeclTree

/-- Why a piece of text is no token. -/
inductive LexCause
  | unexpectedCharacter (character : Char)
  | unterminatedString
  | unterminatedCharacter
  | unterminatedComment
  deriving DecidableEq

/-- A piece of text that is no token. -/
structure LexError where
  cause : LexCause
  span : Span
  deriving DecidableEq

def LexCause.text : LexCause → String
  | .unexpectedCharacter character => "unexpected character '" ++ character.toString ++ "'"
  | .unterminatedString => "unterminated string"
  | .unterminatedCharacter => "unterminated character literal"
  | .unterminatedComment => "unterminated comment"

def LexError.message (error : LexError) : String :=
  error.cause.text ++ " at " ++ error.span.text

end DeclTree
