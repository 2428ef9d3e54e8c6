/-!
# Punctuators

Operators and separators.  Where several spellings fit the upcoming characters
the longest one is the punctuator read.
-/

namespace DeclTree

/-- An operator or separator. -/
inductive Punct
  | leftParen
  | rightParen
  | leftBracket
  | rightBracket
  | leftBrace
  | rightBrace
  | semicolon
  | comma
  | colon
  | colonColon
  | dot
  | dotStar
  | ellipsis
  | arrow
  | arrowStar
  | question
  | tilde
  | bang
  | plus
  | plusPlus
  | plusEqual
  | minus
  | minusMinus
  | minusEqual
  | star
  | starEqual
  | slash
  | slashEqual
  | percent
  | percentEqual
  | caret
  | caretEqual
  | amp
  | ampAmp
  | ampEqual
  | pipe
  | pipePipe
  | pipeEqual
  | equal
  | equalEqual
  | bangEqual
  | less
  | lessEqual
  | lessLess
  | lessLessEqual
  | spaceship
  | greater
  | greaterEqual
  | greaterGreater
  | greaterGreaterEqual
  | hash
  | hashHash
  deriving DecidableEq

namespace Punct

def spelling : Punct → List Char
  | .leftParen => ['(']
  | .rightParen => [')']
  | .leftBracket => ['[']
  | .rightBracket => [']']
  | .leftBrace => ['{']
  | .rightBrace => ['}']
  | .semicolon => [';']
  | .comma => [',']
  | .colon => [':']
  | .colonColon => [':', ':']
  | .dot => ['.']
  | .dotStar => ['.', '*']
  | .ellipsis => ['.', '.', '.']
  | .arrow => ['-', '>']
  | .arrowStar => ['-', '>', '*']
  | .question => ['?']
  | .tilde => ['~']
  | .bang => ['!']
  | .plus => ['+']
  | .plusPlus => ['+', '+']
  | .plusEqual => ['+', '=']
  | .minus => ['-']
  | .minusMinus => ['-', '-']
  | .minusEqual => ['-', '=']
  | .star => ['*']
  | .starEqual => ['*', '=']
  | .slash => ['/']
  | .slashEqual => ['/', '=']
  | .percent => ['%']
  | .percentEqual => ['%', '=']
  | .caret => ['^']
  | .caretEqual => ['^', '=']
  | .amp => ['&']
  | .ampAmp => ['&', '&']
  | .ampEqual => ['&', '=']
  | .pipe => ['|']
  | .pipePipe => ['|', '|']
  | .pipeEqual => ['|', '=']
  | .equal => ['=']
  | .equalEqual => ['=', '=']
  | .bangEqual => ['!', '=']
  | .less => ['<']
  | .lessEqual => ['<', '=']
  | .lessLess => ['<', '<']
  | .lessLessEqual => ['<', '<', '=']
  | .spaceship => ['<', '=', '>']
  | .greater => ['>']
  | .greaterEqual => ['>', '=']
  | .greaterGreater => ['>', '>']
  | .greaterGreaterEqual => ['>', '>', '=']
  | .hash => ['#']
  | .hashHash => ['#', '#']

def label : Punct → String
  | .leftParen => "LeftParen"
  | .rightParen => "RightParen"
  | .leftBracket => "LeftBracket"
  | .rightBracket => "RightBracket"
  | .leftBrace => "LeftBrace"
  | .rightBrace => "RightBrace"
  | .semicolon => "Semicolon"
  | .comma => "Comma"
  | .colon => "Colon"
  | .colonColon => "ColonColon"
  | .dot => "Dot"
  | .dotStar => "DotStar"
  | .ellipsis => "Ellipsis"
  | .arrow => "Arrow"
  | .arrowStar => "ArrowStar"
  | .question => "Question"
  | .tilde => "Tilde"
  | .bang => "Bang"
  | .plus => "Plus"
  | .plusPlus => "PlusPlus"
  | .plusEqual => "PlusEqual"
  | .minus => "Minus"
  | .minusMinus => "MinusMinus"
  | .minusEqual => "MinusEqual"
  | .star => "Star"
  | .starEqual => "StarEqual"
  | .slash => "Slash"
  | .slashEqual => "SlashEqual"
  | .percent => "Percent"
  | .percentEqual => "PercentEqual"
  | .caret => "Caret"
  | .caretEqual => "CaretEqual"
  | .amp => "Amp"
  | .ampAmp => "AmpAmp"
  | .ampEqual => "AmpEqual"
  | .pipe => "Pipe"
  | .pipePipe => "PipePipe"
  | .pipeEqual => "PipeEqual"
  | .equal => "Equal"
  | .equalEqual => "EqualEqual"
  | .bangEqual => "BangEqual"
  | .less => "Less"
  | .lessEqual => "LessEqual"
  | .lessLess => "LessLess"
  | .lessLessEqual => "LessLessEqual"
  | .spaceship => "Spaceship"
  | .greater => "Greater"
  | .greaterEqual => "GreaterEqual"
  | .greaterGreater => "GreaterGreater"
  | .greaterGreaterEqual => "GreaterGreaterEqual"
  | .hash => "Hash"
  | .hashHash => "HashHash"

/-- Every punctuator, longer spellings before shorter ones. -/
def byLength : List Punct :=
  [.ellipsis, .arrowStar, .lessLessEqual, .spaceship, .greaterGreaterEqual,
    .colonColon, .dotStar, .arrow, .plusPlus, .plusEqual, .minusMinus, .minusEqual,
    .starEqual, .slashEqual, .percentEqual, .caretEqual, .ampAmp, .ampEqual,
    .pipePipe, .pipeEqual, .equalEqual, .bangEqual, .lessEqual, .lessLess,
    .greaterEqual, .greaterGreater, .hashHash, .leftParen, .rightParen,
    .leftBracket, .rightBracket, .leftBrace, .rightBrace, .semicolon, .comma,
    .colon, .dot, .question, .tilde, .bang, .plus, .minus, .star, .slash, .percent,
    .caret, .amp, .pipe, .equal, .less, .greater, .hash]

def longest? (upcoming : List Char) : Option Punct :=
  byLength.find? fun punct => punct.spelling.isPrefixOf upcoming

theorem mem_byLength (punct : Punct) : punct ∈ byLength := by
  cases punct <;> decide

theorem spelling_ne_nil (punct : Punct) : punct.spelling ≠ [] := by
  cases punct <;> simp [spelling]

end Punct

end DeclTree
