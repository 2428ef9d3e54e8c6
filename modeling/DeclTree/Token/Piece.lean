import DeclTree.Token.Basic
import DeclTree.Token.Extent
import DeclTree.Token.LexError

/-!
# The piece of text at the front

Once blanks, comments and directives are behind, the first character decides
what the upcoming characters start with: a quoted literal, a number, a word or
a punctuator.  A word directly in front of a quote may be the encoding mark of
a literal or announce a raw string.
-/

namespace DeclTree

/-- The characters that make up the next token, and its kind or the reason why
they are none. -/
structure Piece where
  length : Nat
  outcome : Except LexCause TokenKind

namespace Piece

/-- Words that may stand in front of a quote to choose an encoding. -/
def encodingMarks : List (List Char) :=
  [['L'], ['u'], ['U'], ['u', '8']]

/-- Words that turn a string behind them into a raw one. -/
def rawMarks : List (List Char) :=
  [['R'], ['L', 'R'], ['u', 'R'], ['U', 'R'], ['u', '8', 'R']]

/-- A delimited piece as a token of the given kind. -/
def ofExtent (kind : TokenKind) (cause : LexCause) : Extent → Piece
  | .closed length => ⟨length, .ok kind⟩
  | .cut length => ⟨length, .error cause⟩

/-- A literal between quotes behind `lead` characters, the last of which is the
opening quote. -/
def quoted (lead : Nat) (quote : Char) (body : List Char) : Piece :=
  let extent := (Extent.quoted quote body).shift lead
  if quote = '"' then
    ofExtent (.literal .string) .unterminatedString extent
  else
    ofExtent (.literal .character) .unterminatedCharacter extent

/-- A raw string behind `lead` characters, the last of which is the opening
quote. -/
def rawString (lead : Nat) (body : List Char) : Piece :=
  ofExtent (.literal .string) .unterminatedString ((Extent.rawString body).shift lead)

def number (upcoming : List Char) : Piece :=
  let hexadecimal := isHexadecimal upcoming
  let length := numberLength hexadecimal upcoming
  let floating := isFloating hexadecimal (upcoming.take length)
  ⟨length, .ok (.literal (if floating then .floating else .integer))⟩

/-- The kind of a word: a keyword where the dialect reserves it. -/
def wordKind (dialect : Dialect) (word : List Char) : TokenKind :=
  match Keyword.ofWord? dialect (String.ofList word) with
  | some keyword => .keyword keyword
  | none => .identifier

/-- A word, or the literal it introduces. -/
def word (dialect : Dialect) (upcoming : List Char) : Piece :=
  let letters := upcomingWord upcoming
  let plain : Piece := ⟨letters.length, .ok (wordKind dialect letters)⟩
  match upcoming.drop letters.length with
  | '"' :: body =>
      if letters ∈ rawMarks then rawString (letters.length + 1) body
      else if letters ∈ encodingMarks then quoted (letters.length + 1) '"' body
      else plain
  | '\'' :: body =>
      if letters ∈ encodingMarks then quoted (letters.length + 1) '\'' body
      else plain
  | _ => plain

/-- A punctuator, or a single character that starts no token. -/
def punctuator (character : Char) (rest : List Char) : Piece :=
  match Punct.longest? (character :: rest) with
  | some punct => ⟨punct.spelling.length, .ok (.punct punct)⟩
  | none => ⟨1, .error (.unexpectedCharacter character)⟩

/-- Whether a number starts here: with a digit, or a dot before a digit. -/
def startsNumber (character : Char) (rest : List Char) : Bool :=
  character.isDigit ||
    (character == '.' && (rest.head?.any Char.isDigit))

/-- The piece at the front of the upcoming characters; none at their end. -/
def scan (dialect : Dialect) : List Char → Option Piece
  | [] => none
  | character :: rest =>
      some <|
        if character = '"' ∨ character = '\'' then quoted 1 character rest
        else if startsNumber character rest then number (character :: rest)
        else if isWordStart character then word dialect (character :: rest)
        else punctuator character rest

theorem length_ofExtent (kind : TokenKind) (cause : LexCause) (extent : Extent) :
    (ofExtent kind cause extent).length = extent.length := by
  cases extent <;> rfl

theorem length_quoted_pos (lead : Nat) (quote : Char) (body : List Char) (positive : 0 < lead) :
    0 < (quoted lead quote body).length := by
  simp only [quoted]
  split <;> rw [length_ofExtent, Extent.length_shift] <;> omega

theorem length_number_pos (character : Char) (rest : List Char)
    (starts : startsNumber character rest) :
    0 < (number (character :: rest)).length := by
  have plain : (character.isAlphanum || character == '.' || character == '_') = true := by
    simp only [startsNumber, Bool.or_eq_true, Bool.and_eq_true] at starts
    rcases starts with digit | dot
    · simp [Char.isAlphanum, digit]
    · simp [dot.1]
  cases rest with
  | nil => simp only [number, numberLength, plain]; simp
  | cons following rest =>
      simp only [number, numberLength]
      split
      · omega
      · simp only [plain, Bool.true_or, if_true]
        omega

theorem length_upcomingWord_pos {character : Char} (rest : List Char)
    (starts : isWordStart character) : 0 < (upcomingWord (character :: rest)).length := by
  have part : isWordPart character = true := by
    simp only [isWordStart, Bool.or_eq_true] at starts
    simp only [isWordPart, Char.isAlphanum, Bool.or_eq_true]
    rcases starts with (alpha | underscore) | dollar
    · exact .inl (.inl (.inl alpha))
    · exact .inl (.inr underscore)
    · exact .inr dollar
  simp [upcomingWord, part]

theorem length_word_pos (dialect : Dialect) (character : Char) (rest : List Char)
    (starts : isWordStart character) :
    0 < (word dialect (character :: rest)).length := by
  have letters := length_upcomingWord_pos rest starts
  simp only [word]
  split
  · split
    · rw [rawString, length_ofExtent, Extent.length_shift]
      omega
    · split
      · exact length_quoted_pos _ _ _ (by omega)
      · exact letters
  · split
    · exact length_quoted_pos _ _ _ (by omega)
    · exact letters
  · exact letters

theorem length_punctuator_pos (character : Char) (rest : List Char) :
    0 < (punctuator character rest).length := by
  simp only [punctuator]
  split
  · exact List.length_pos_iff.2 (Punct.spelling_ne_nil _)
  · exact Nat.one_pos

/-- Every piece takes at least one character. -/
theorem length_scan_pos {dialect : Dialect} {upcoming : List Char} {piece : Piece}
    (found : scan dialect upcoming = some piece) : 0 < piece.length := by
  cases upcoming with
  | nil => simp [scan] at found
  | cons character rest =>
      simp only [scan, Option.some.injEq] at found
      subst found
      split
      · exact length_quoted_pos _ _ _ Nat.one_pos
      · split
        · exact length_number_pos _ _ (by assumption)
        · split
          · exact length_word_pos _ _ _ (by assumption)
          · exact length_punctuator_pos _ _

end Piece

end DeclTree
