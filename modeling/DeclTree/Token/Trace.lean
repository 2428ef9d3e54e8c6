import DeclTree.Token.Basic

/-!
# Token traces

A trace line shows a token's kind, its lexeme between quotes and its span.  The
escapes are those of ASCII text; characters beyond ASCII stand for themselves.
-/

namespace DeclTree

def hexadecimalText (value : Nat) : String :=
  String.ofList (Nat.toDigits 16 value)

def escapeCharacter (character : Char) : String :=
  match character with
  | '"' => "\\\""
  | '\\' => "\\\\"
  | '\n' => "\\n"
  | '\r' => "\\r"
  | '\t' => "\\t"
  | '\x00' => "\\0"
  | _ =>
      if character.toNat < 0x20 || character.toNat == 0x7F then
        "\\u\x7b" ++ hexadecimalText character.toNat ++ "\x7d"
      else
        character.toString

def quoteText (text : String) : String :=
  "\"" ++ String.join (text.toList.map escapeCharacter) ++ "\""

def Token.trace (token : Token) : String :=
  token.kind.label ++ "(" ++ quoteText token.lexeme ++ " @ " ++
    token.span.detailedText ++ ")"

end DeclTree
