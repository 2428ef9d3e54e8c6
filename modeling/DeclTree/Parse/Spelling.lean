import DeclTree.Token.Basic

/-!
# Spelling tokens

Types, qualifiers and operator names are kept as text: the lexemes of their
tokens, with a blank between two of them only where one is needed.
-/

namespace DeclTree

namespace Token

/-- Whether the lexeme of a token starts like a word. -/
def isWord (token : Token) : Bool :=
  token.lexeme.toList.head?.any fun character =>
    character.isAlphanum || character == '_' || character == '$'

/-- Whether a blank stands between two tokens: between words, behind a comma,
and in front of a qualifier unless it opens a parenthesis. -/
def needsSpace (left right : Token) : Bool :=
  (left.isWord && right.isWord) || left.kind == .punct .comma ||
    (right.kind.isQualifier && left.kind != .punct .leftParen)

end Token

/-- The pieces of text behind a token. -/
def spellAfter (previous : Token) : List Token → List String
  | [] => []
  | token :: rest =>
      let text := if previous.needsSpace token then " " ++ token.lexeme else token.lexeme
      text :: spellAfter token rest

def spell : List Token → String
  | [] => ""
  | token :: rest => String.join (token.lexeme :: spellAfter token rest)

end DeclTree
