import DeclTree.Parse.Unit
import DeclTree.Proofs.Respelling

/-!
# Two dialects

The dialect of a source only says which of its words are reserved.  Where a token ends, what it
is if it is not a word, and which errors are met do not depend on it, and a word changes its kind
only if it is reserved in one dialect and not in the other.  The parser sees tokens only, so a
source without such words is parsed alike in both dialects.
-/

namespace DeclTree

namespace Keyword

/-- Whether a word is reserved in one dialect only. -/
def isDialectWord (word : String) : Bool :=
  word == "restrict" || (cppOnly.lookup word).isSome

theorem lookup_restrict :
    shared.lookup "restrict" = none ∧ cppOnly.lookup "restrict" = none := by
  decide +kernel

/-- No word of C++ only is a word of both. -/
theorem lookup_shared_of_cppOnly {word : String} {keyword : Keyword}
    (found : cppOnly.lookup word = some keyword) : shared.lookup word = none := by
  have apart : ∀ entry ∈ cppOnly, shared.lookup entry.1 = none := by
    decide +kernel
  obtain ⟨before, after, split, _⟩ := List.lookup_eq_some_iff.1 found
  exact apart (word, keyword) (by simp [split])

theorem ofWord?_eq_iff (word : String) :
    ofWord? .c word = ofWord? .cpp word ↔ isDialectWord word = false := by
  by_cases only : word = "restrict"
  · subst only
    obtain ⟨unshared, plain⟩ := lookup_restrict
    simp [ofWord?, isDialectWord, unshared, plain]
  · cases found : cppOnly.lookup word with
    | none => simp [ofWord?, isDialectWord, only, found]
    | some keyword =>
        simp [ofWord?, isDialectWord, only, found, lookup_shared_of_cppOnly found]

end Keyword

/-- Whether a kind is that of a word: a keyword or an identifier. -/
def TokenKind.isWord : TokenKind → Bool
  | .identifier | .keyword _ => true
  | _ => false

/-- Whether two tokens are the same in two dialects: they have one lexeme and one span, and
another kind just if they are words that one of the dialects reserves. -/
structure Token.Reclassified (first second : Token) : Prop where
  lexeme : first.lexeme = second.lexeme
  span : first.span = second.span
  word : first.kind.isWord = second.kind.isWord
  kind : first.kind ≠ second.kind ↔
    first.kind.isWord = true ∧ Keyword.isDialectWord first.lexeme = true

namespace Token.Reclassified

variable {first second : Token}

theorem of_eq (same : first = second)
    (other : first.kind.isWord = false) : first.Reclassified second := by
  subst same
  exact ⟨rfl, rfl, rfl, by simp [other]⟩

theorem kind_eq_iff (reclassified : first.Reclassified second) {kind : TokenKind}
    (other : kind.isWord = false) : first.kind = kind ↔ second.kind = kind := by
  by_cases same : first.kind = second.kind
  · rw [same]
  · have word := (reclassified.kind.1 same).1
    constructor <;> rintro rfl
    · rw [other] at word
      cases word
    · rw [reclassified.word, other] at word
      cases word

theorem eq_of_common (reclassified : first.Reclassified second)
    (common : first.kind.isWord = true → Keyword.isDialectWord first.lexeme = false) :
    first = second := by
  have same : first.kind = second.kind := by
    by_contra other
    obtain ⟨word, divided⟩ := reclassified.kind.1 other
    rw [common word] at divided
    cases divided
  cases first
  cases second
  obtain rfl := reclassified.lexeme
  obtain rfl := reclassified.span
  obtain rfl := same
  rfl

end Token.Reclassified

namespace Piece

theorem isWord_wordKind (dialect : Dialect) (word : List Char) :
    (wordKind dialect word).isWord = true := by
  unfold wordKind
  split <;> rfl

theorem wordKind_eq_iff (word : List Char) : wordKind .c word = wordKind .cpp word ↔
    Keyword.isDialectWord (String.ofList word) = false := by
  rw [← Keyword.ofWord?_eq_iff]
  unfold wordKind
  cases Keyword.ofWord? .c (String.ofList word) <;>
    cases Keyword.ofWord? .cpp (String.ofList word) <;> simp

def Wordless (piece : Piece) : Prop :=
  ∀ kind, piece.outcome = .ok kind → kind.isWord = false

theorem wordless_ofExtent {kind : TokenKind} (other : kind.isWord = false) (cause : LexCause)
    (extent : Extent) : (ofExtent kind cause extent).Wordless := by
  cases extent with
  | closed length => rintro _ ⟨⟩; exact other
  | cut length => rintro _ ⟨⟩

theorem wordless_quoted (lead : Nat) (quote : Char) (body : List Char) :
    (quoted lead quote body).Wordless := by
  unfold quoted
  split <;> exact wordless_ofExtent rfl _ _

theorem wordless_punctuator (character : Char) (rest : List Char) :
    (punctuator character rest).Wordless := by
  unfold punctuator
  split <;> rintro _ ⟨⟩
  rfl

/-- A word, or the literal that it introduces in every dialect. -/
theorem word_cases (upcoming : List Char) :
    (∃ piece, piece.Wordless ∧ ∀ dialect, word dialect upcoming = piece) ∨
    ∀ dialect, word dialect upcoming =
      ⟨(upcomingWord upcoming).length, .ok (wordKind dialect (upcomingWord upcoming))⟩ := by
  simp only [word]
  split
  · split
    · exact .inl ⟨_, wordless_ofExtent rfl _ _, fun _ => rfl⟩
    · split
      · exact .inl ⟨_, wordless_quoted _ _ _, fun _ => rfl⟩
      · exact .inr fun _ => rfl
  · split
    · exact .inl ⟨_, wordless_quoted _ _ _, fun _ => rfl⟩
    · exact .inr fun _ => rfl
  · exact .inr fun _ => rfl

/-- The piece at the front is the same in every dialect, or a word. -/
theorem scan_cases (character : Char) (rest : List Char) :
    (∃ piece, piece.Wordless ∧ ∀ dialect, scan dialect (character :: rest) = some piece) ∨
    ∀ dialect, scan dialect (character :: rest) =
      some ⟨(upcomingWord (character :: rest)).length,
        .ok (wordKind dialect (upcomingWord (character :: rest)))⟩ := by
  simp only [scan, Option.some.injEq]
  split
  · exact .inl ⟨_, wordless_quoted _ _ _, fun _ => rfl⟩
  · split
    · exact .inl ⟨_, by rintro _ ⟨⟩; rfl, fun _ => rfl⟩
    · split
      · exact word_cases _
      · exact .inl ⟨_, wordless_punctuator _ _, fun _ => rfl⟩

theorem take_upcomingWord (upcoming : List Char) :
    upcoming.take (upcomingWord upcoming).length = upcomingWord upcoming :=
  List.prefix_iff_eq_take.1 (List.takeWhile_prefix _) |>.symm

end Piece

/-- Whether two readings differ in the kind of a word at most. -/
structure Reading.Reclassified (first second : Reading) : Prop where
  token : first.token.Reclassified second.token
  error : first.error = second.error
  reader : first.reader = second.reader

theorem Reading.Reclassified.of_eq {first second : Reading} (same : first = second)
    (other : first.token.kind.isWord = false) : first.Reclassified second := by
  subst same
  exact ⟨.of_eq rfl other, rfl, rfl⟩

namespace Reader

def taking (start : Reader) (piece : Piece) : Reading :=
  let rest := start.skip piece.length
  let span := Span.between start.position rest.position
  match piece.outcome with
  | .ok kind => ⟨⟨kind, String.ofList (start.unread.take piece.length), span⟩, none, rest⟩
  | .error cause => ⟨⟨.invalid, "", span⟩, some ⟨cause, span⟩, rest⟩

theorem next_of_scan {dialect : Dialect} {reader start : Reader} {piece : Piece}
    (skipped : reader.skipTrivia = (none, start))
    (found : Piece.scan dialect start.unread = some piece) :
    reader.next dialect = start.taking piece := by
  simp only [next, skipped, found]
  rfl

theorem isWord_taking {piece : Piece} (wordless : piece.Wordless) (start : Reader) :
    (start.taking piece).token.kind.isWord = false := by
  unfold taking
  cases outcome : piece.outcome with
  | error cause => rfl
  | ok kind => exact wordless kind outcome

/-- A word is read in both dialects, as an identifier or a keyword. -/
theorem taking_word (start : Reader) :
    (start.taking ⟨(upcomingWord start.unread).length,
      .ok (Piece.wordKind .c (upcomingWord start.unread))⟩).Reclassified
    (start.taking ⟨(upcomingWord start.unread).length,
      .ok (Piece.wordKind .cpp (upcomingWord start.unread))⟩) := by
  refine ⟨⟨rfl, rfl, ?_, ?_⟩, rfl, rfl⟩
  · simp only [taking, Piece.isWord_wordKind]
  · simp only [taking, Piece.isWord_wordKind, Piece.take_upcomingWord, Ne, Piece.wordKind_eq_iff]
    simp

theorem next_reclassified (reader : Reader) :
    (reader.next .c).Reclassified (reader.next .cpp) := by
  rcases skipped : reader.skipTrivia with ⟨_ | error, start⟩
  · cases unread : start.unread with
    | nil =>
        have ended (dialect : Dialect) :
            reader.next dialect = ⟨⟨.eof, "", .point start.position⟩, none, start⟩ := by
          simp only [next, skipped, unread, Piece.scan]
        rw [ended .c, ended .cpp]
        exact .of_eq rfl rfl
    | cons character rest =>
        rcases Piece.scan_cases character rest with ⟨piece, wordless, same⟩ | words
        · rw [← unread] at same
          rw [next_of_scan skipped (same .c), next_of_scan skipped (same .cpp)]
          exact .of_eq rfl (isWord_taking wordless start)
        · rw [← unread] at words
          rw [next_of_scan skipped (words .c), next_of_scan skipped (words .cpp)]
          exact taking_word start
  · have cut (dialect : Dialect) :
        reader.next dialect = ⟨⟨.invalid, "", error.span⟩, some error, start⟩ := by
      simp only [next, skipped]
    rw [cut .c, cut .cpp]
    exact .of_eq rfl rfl

end Reader

namespace TokenStream

theorem reclassified_ofReader (reader : Reader) :
    (ofReader .c reader).errors = (ofReader .cpp reader).errors ∧
      List.Forall₂ Token.Reclassified (ofReader .c reader).tokens
        (ofReader .cpp reader).tokens := by
  induction reader using ofReader.induct .c with
  | case1 reader reading ended =>
      obtain ⟨token, error, _⟩ := reader.next_reclassified
      have endedOther := (token.kind_eq_iff rfl).1 ended
      rw [ofReader_ended ended, ofReader_ended endedOther]
      exact ⟨by simp only [cons, error], .cons token .nil⟩
  | case2 reader reading more ih =>
      obtain ⟨token, error, behind⟩ := reader.next_reclassified
      have moreOther := mt (token.kind_eq_iff rfl).2 more
      obtain ⟨errors, tokens⟩ := ih
      rw [ofReader_more more, ofReader_more moreOther, ← behind]
      exact ⟨by simp only [cons, error, reading, errors], .cons token tokens⟩

/-- Whether no word of a text is reserved in one dialect only. -/
def Common (stream : TokenStream) : Prop :=
  ∀ token ∈ stream.tokens, token.kind.isWord = true →
    Keyword.isDialectWord token.lexeme = false

theorem common_iff (source : String) :
    (ofSource .c source).Common ↔ (ofSource .cpp source).Common := by
  obtain ⟨_, reclassified⟩ := reclassified_ofReader (.ofSource source)
  unfold Common ofSource
  generalize (ofReader .c _).tokens = first at reclassified ⊢
  generalize (ofReader .cpp _).tokens = second at reclassified ⊢
  induction reclassified with
  | nil => rfl
  | cons token _ ih => simp only [List.forall_mem_cons, ih, token.word, token.lexeme]

/-- A text whose words are all common is read alike in both dialects. -/
theorem ofSource_eq_of_common {source : String} (common : (ofSource .c source).Common) :
    ofSource .c source = ofSource .cpp source := by
  obtain ⟨errors, reclassified⟩ := reclassified_ofReader (.ofSource source)
  have tokens : (ofReader .c (.ofSource source)).tokens =
      (ofReader .cpp (.ofSource source)).tokens := by
    unfold Common ofSource at common
    generalize (ofReader .c _).tokens = first at reclassified common ⊢
    generalize (ofReader .cpp _).tokens = second at reclassified ⊢
    induction reclassified with
    | nil => rfl
    | cons token _ ih =>
        obtain ⟨plain, rest⟩ := List.forall_mem_cons.1 common
        rw [token.eq_of_common plain, ih rest]
  exact congrArg₂ TokenStream.mk tokens errors

end TokenStream

open TokenStream in
/-- In both dialects a source has the same lexical errors and the same tokens, up to the kinds of
words that one dialect reserves.  If it has no such word, it is parsed alike. -/
theorem parseUnit_dialects (source : String) :
    (ofSource .c source).errors = (ofSource .cpp source).errors ∧
      List.Forall₂ Token.Reclassified (ofSource .c source).tokens (ofSource .cpp source).tokens ∧
      ∀ dialect, (ofSource dialect source).Common →
        ∀ (options : ParseOptions) (table : SymbolTable) (unit : UnitId),
          parseUnit { options with dialect := .c } table unit source =
            parseUnit { options with dialect := .cpp } table unit source := by
  obtain ⟨errors, reclassified⟩ := reclassified_ofReader (.ofSource source)
  refine ⟨errors, reclassified, ?_⟩
  intro dialect common options table unit
  have commonC : (ofSource .c source).Common := by
    cases dialect with
    | c => exact common
    | cpp => exact (common_iff source).2 common
  simp only [parseUnit, ParseState.start, ParseState.ofStream, ofSource_eq_of_common commonC]

/-- The name of a class in a comment and in a literal, and a word that only starts like one of
C++. -/
def commonText : String :=
  "struct S { int classes; } s; /* class */ char t = \"restrict\"; @"

theorem parseUnit_dialects_common :
    (TokenStream.ofSource .cpp commonText).Common ∧
      parseUnit { dialect := .c } .empty ⟨0⟩ commonText =
        parseUnit { dialect := .cpp } .empty ⟨0⟩ commonText := by
  have common : (TokenStream.ofSource .cpp commonText).Common := by
    unfold TokenStream.Common
    decide +kernel
  exact ⟨common, (parseUnit_dialects commonText).2.2 .cpp common {} .empty ⟨0⟩⟩

-- A reserved word of C++ in the text makes a difference.
example : (parseUnit { dialect := .c } .empty ⟨0⟩ "int class;").errors.length = 0 ∧
    (parseUnit { dialect := .cpp } .empty ⟨0⟩ "int class;").errors.length ≠ 0 := by
  decide +kernel

end DeclTree
