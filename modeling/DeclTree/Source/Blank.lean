/-!
# Blank characters

Three notions of blank character are used when text is split into tokens: the
ASCII whitespace skipped between tokens, the blanks that may stand before the
`#` of a directive, and the characters of the Unicode property White_Space,
none of which may occur in the delimiter of a raw string.
-/

namespace DeclTree

def byteOrderMark : Char := '\uFEFF'

/-- ASCII whitespace: space, tab, newline, form feed and carriage return. -/
def isSpace (character : Char) : Bool :=
  character == ' ' || character == '\t' || character == '\n' ||
    character == '\x0C' || character == '\r'

/-- Characters that may stand before the `#` of a directive on its line. -/
def isIndent (character : Char) : Bool :=
  character == ' ' || character == '\t' || character == '\r' ||
    character == byteOrderMark

/-- The Unicode property White_Space. -/
def isWhiteSpace (character : Char) : Bool :=
  let code := character.toNat
  (9 ≤ code && code ≤ 13) || code == 0x20 || code == 0x85 || code == 0xA0 ||
    code == 0x1680 || (0x2000 ≤ code && code ≤ 0x200A) || code == 0x2028 ||
    code == 0x2029 || code == 0x202F || code == 0x205F || code == 0x3000

end DeclTree
