import DeclTree.Source.Blank

/-!
# How far a piece of text reaches

Tokens, comments and directives are recognised by how many of the upcoming
characters belong to them.  Each function here counts those characters; the
text itself is then the initial segment of that length, so that nothing is lost
or invented between one token and the next.
-/

namespace DeclTree

/-- How far a delimited piece reaches: through its closing mark, or up to the
point where it is cut off without one. -/
inductive Extent
  | closed (length : Nat)
  | cut (length : Nat)
  deriving DecidableEq

namespace Extent

def length : Extent → Nat
  | .closed length => length
  | .cut length => length

/-- The same piece with more characters in front. -/
def shift (count : Nat) : Extent → Extent
  | .closed length => .closed (count + length)
  | .cut length => .cut (count + length)

@[simp] theorem length_shift (count : Nat) (extent : Extent) :
    (extent.shift count).length = count + extent.length := by
  cases extent <;> rfl

/-- The text up to and including the first occurrence of a mark. -/
def through (mark : List Char) : List Char → Extent
  | [] => .cut 0
  | character :: rest =>
      if mark.isPrefixOf (character :: rest) then .closed mark.length
      else (through mark rest).shift 1

/-- The body of a literal between quotes, and its closing quote.  A backslash
takes the next character with it; a newline cuts the literal off. -/
def quoted (quote : Char) : List Char → Extent
  | [] => .cut 0
  | ['\\'] => .cut 1
  | '\\' :: _ :: rest => (quoted quote rest).shift 2
  | character :: rest =>
      if character = '\n' then .cut 0
      else if character = quote then .closed 1
      else (quoted quote rest).shift 1

/-- Characters allowed in the delimiter of a raw string. -/
def isDelimiter (character : Char) : Bool :=
  !(character == '(' || character == '"' || character == ')' ||
    isWhiteSpace character)

/-- A raw string behind its opening quote: a delimiter, a parenthesised body
and the delimiter again.  Without the opening parenthesis it is cut off behind
the delimiter. -/
def rawString (upcoming : List Char) : Extent :=
  let delimiter := upcoming.takeWhile isDelimiter
  match upcoming.drop delimiter.length with
  | '(' :: body =>
      (through (')' :: delimiter ++ ['"']) body).shift (delimiter.length + 1)
  | _ => .cut delimiter.length

end Extent

def isWordStart (character : Char) : Bool :=
  character.isAlpha || character == '_' || character == '$'

def isWordPart (character : Char) : Bool :=
  character.isAlphanum || character == '_' || character == '$'

/-- The word that the upcoming characters start with. -/
def upcomingWord (upcoming : List Char) : List Char :=
  upcoming.takeWhile isWordPart

/-- The letter that introduces the exponent of a number. -/
def isExponentMark (hexadecimal : Bool) (character : Char) : Bool :=
  if hexadecimal then character == 'p' || character == 'P'
  else character == 'e' || character == 'E'

/-- Whether a number starts with a hexadecimal mark. -/
def isHexadecimal : List Char → Bool
  | '0' :: mark :: _ => mark == 'x' || mark == 'X'
  | _ => false

/-- The rest of a number: letters, digits, underscores and dots, a sign behind
the exponent mark, and an apostrophe in front of a letter or digit. -/
def numberLength (hexadecimal : Bool) : List Char → Nat
  | [] => 0
  | [character] =>
      if character.isAlphanum || character == '.' || character == '_' then 1 else 0
  | character :: following :: rest =>
      if isExponentMark hexadecimal character &&
          (following == '+' || following == '-') then
        2 + numberLength hexadecimal rest
      else if character.isAlphanum || character == '.' || character == '_' ||
          (character == '\'' && following.isAlphanum) then
        1 + numberLength hexadecimal (following :: rest)
      else 0

/-- Whether the text of a number has a fraction or an exponent. -/
def isFloating (hexadecimal : Bool) (number : List Char) : Bool :=
  number.any fun character =>
    character == '.' || isExponentMark hexadecimal character

/-- The rest of a directive: up to the end of its line, where a backslash in
front of the newline continues the directive on the next line. -/
def directiveLength : List Char → Nat
  | [] => 0
  | '\\' :: '\n' :: rest => 2 + directiveLength rest
  | '\\' :: '\r' :: '\n' :: rest => 3 + directiveLength rest
  | character :: rest => if character = '\n' then 0 else 1 + directiveLength rest

/-- The rest of a line, its newline left out. -/
def lineLength (upcoming : List Char) : Nat :=
  (upcoming.takeWhile (· != '\n')).length

/-- The blanks between two tokens: at most one byte order mark and then
whitespace. -/
def blankLength : List Char → Nat
  | [] => 0
  | character :: rest =>
      if character = byteOrderMark then 1 + (rest.takeWhile isSpace).length
      else ((character :: rest).takeWhile isSpace).length

/-- A comment, or a directive where the line is blank so far. -/
def skippedExtent (lineIsBlank : Bool) : List Char → Option Extent
  | '/' :: '/' :: rest => some (.closed (2 + lineLength rest))
  | '/' :: '*' :: rest => some ((Extent.through ['*', '/'] rest).shift 2)
  | '#' :: rest => if lineIsBlank then some (.closed (1 + directiveLength rest)) else none
  | _ => none

theorem skippedExtent_pos {lineIsBlank : Bool} {upcoming : List Char} {extent : Extent}
    (found : skippedExtent lineIsBlank upcoming = some extent) :
    0 < extent.length ∧ upcoming ≠ [] := by
  unfold skippedExtent at found
  split at found
  · cases found
    exact ⟨by simp only [Extent.length]; omega, by simp⟩
  · cases found
    exact ⟨by simp only [Extent.length_shift]; omega, by simp⟩
  · split at found
    · cases found
      exact ⟨by simp only [Extent.length]; omega, by simp⟩
    · cases found
  · cases found

end DeclTree
