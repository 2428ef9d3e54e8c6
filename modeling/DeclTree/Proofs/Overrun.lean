import DeclTree.Parse.Counted
import DeclTree.Proofs.CountedTokens

/-!
# Counters that run over

Three sources that are too long for counters of 32 bits: a line of blanks whose end has no column
any more, a mark behind so many blanks that its offset is zero again, and an enumeration whose
closing brace is carried back in front of its enumerator by a comment.  None of them is evaluated;
what is read of them is derived from the numbers of their blanks.
-/

namespace DeclTree

open String (utf8Len)

/-! ## Blanks -/

theorem Position.after_blanks (position : Position) (count : Nat) :
    position.after (List.replicate count ' ') =
      ⟨position.offset + count, position.line, position.column + count⟩ := by
  induction count generalizing position with
  | zero => rfl
  | succ count ih =>
      have size : ' '.utf8Size = 1 := by decide
      rw [List.replicate_succ, after_cons, ih, next, if_neg (by decide), size]
      simp only [Position.mk.injEq, true_and]
      omega

theorem utf8Len_blanks (count : Nat) : utf8Len (List.replicate count ' ') = count := by
  rw [← (Position.after_start_le (List.replicate count ' ')).1, Position.after_blanks]
  exact Nat.zero_add count

/-- All blanks are gone over if something else is behind them. -/
theorem blankLength_blanks {count : Nat} (positive : 0 < count) {rest : List Char}
    (solid : rest.takeWhile isSpace = []) :
    blankLength (List.replicate count ' ' ++ rest) = count := by
  obtain ⟨count, rfl⟩ := Nat.exists_eq_succ_of_ne_zero (Nat.ne_of_gt positive)
  have all : ∀ character ∈ List.replicate (count + 1) ' ', isSpace character = true := by
    intro character member
    rw [List.eq_of_mem_replicate member]
    decide
  rw [List.replicate_succ, List.cons_append, blankLength, if_neg (by decide),
    ← List.cons_append, ← List.replicate_succ, List.takeWhile_append_of_pos all, solid,
    List.append_nil, List.length_replicate]

theorem Extent.through_blanks (count : Nat) (rest : List Char) :
    through ['*', '/'] (List.replicate count ' ' ++ '*' :: '/' :: rest) = .closed (count + 2) := by
  induction count with
  | zero => rfl
  | succ count ih =>
      rw [List.replicate_succ, List.cons_append, through, if_neg (by simp), ih]
      simp only [shift, Extent.closed.injEq]
      omega

/-! ## Reading -/

namespace Reader

variable {source : List Char} {reader start : Reader}

theorem skipTrivia?_solid (tight : blankLength reader.unread = 0)
    (reads : (reader.textTo? source reader).isSome) (plain : reader.unread.head? ≠ some '#')
    (found : skippedExtent false reader.unread = none) :
    reader.skipTrivia? source = some (none, reader) := by
  have unmarked : reader.unread.head? ≠ some byteOrderMark := by
    intro marked
    cases upcoming : reader.unread with
    | nil => simp [upcoming] at marked
    | cons character rest =>
        rw [upcoming, List.head?_cons, Option.some.injEq] at marked
        rw [upcoming, blankLength, if_pos marked] at tight
        omega
  have whole : reader.readsBlanks source = true := by
    rw [readsBlanks, if_neg unmarked, tight]
    exact reads
  have alone : (reader.skip (blankLength reader.unread)).lineIsBlank? source = some false := by
    rw [tight]
    exact if_neg plain
  have trivia := skipTrivia?_of_none whole alone (by rw [tight]; exact found)
  rwa [tight] at trivia

theorem next?_ended (trivia : reader.skipTrivia? source = some (none, start))
    (ended : start.unread = []) (dialect : Dialect) : reader.next? source dialect =
      some ⟨⟨.eof, "", .counted start.position start.position⟩, none, start⟩ := by
  simp only [next?, trivia, scan?, ended]

theorem next?_token {dialect : Dialect} {count : Nat} {kind : TokenKind} {lexeme : List Char}
    (trivia : reader.skipTrivia? source = some (none, start))
    (scanned : start.scan? source dialect = some (some ⟨count, .ok kind⟩))
    (text : start.textTo? source (start.skip count) = some lexeme) :
    reader.next? source dialect =
      some ⟨⟨kind, String.ofList lexeme, .counted start.position (start.skip count).position⟩,
        none, start.skip count⟩ := by
  simp only [next?, trivia, scanned, text, Option.map_some]

end Reader

/-! ## A line of blanks -/

namespace TokenStream

theorem ofSource?_blanks {count : Nat} (positive : 0 < count) (short : count < counterRange)
    (dialect : Dialect) : ofSource? dialect (String.ofList (List.replicate count ' ')) =
      some ⟨[⟨.eof, "", .counted ⟨count, 1, 1 + count⟩ ⟨count, 1, 1 + count⟩⟩], []⟩ := by
  let reader := Reader.ofSource (String.ofList (List.replicate count ' '))
  have hasRead : reader.HasRead _ [] := Reader.hasRead_ofSource _
  have upcoming : reader.unread = List.replicate count ' ' := String.toList_ofList
  have blanks : blankLength reader.unread = count := by
    have all := blankLength_blanks positive (List.takeWhile_nil (p := isSpace))
    rwa [List.append_nil, ← upcoming] at all
  have taken : reader.unread.take (blankLength reader.unread) = List.replicate count ' ' := by
    rw [blanks, upcoming, List.take_of_length_le (by simp)]
  have ended : (reader.skip (blankLength reader.unread)).unread = [] := by
    rw [Reader.unread_skip, blanks, upcoming, List.drop_of_length_le (by simp)]
  have place : (reader.skip (blankLength reader.unread)).position = ⟨count, 1, 1 + count⟩ := by
    rw [(hasRead.skip _).position, List.nil_append, taken, Position.after_blanks, Nat.zero_add]
  have trivia := hasRead.skipTrivia?_none
    (by rwa [List.nil_append, taken, utf8Len_blanks]) (by rw [ended]; rfl)
  have read := Reader.next?_ended trivia ended dialect
  rw [place] at read
  exact ofReader?_ended read rfl

end TokenStream

/-- A line with one byte less than a counter can tell numbers. -/
def blankLine : String :=
  String.ofList (List.replicate (counterRange - 1) ' ')

theorem utf8ByteSize_blankLine : blankLine.utf8ByteSize = counterRange - 1 := by
  rw [← String.utf8Len_toList, blankLine, String.toList_ofList, utf8Len_blanks]

/-- The end of that line stands in its column 2 ^ 32, which is shown as the column 0. -/
theorem TokenStream.ofSource?_blankLine (dialect : Dialect) :
    ofSource? dialect blankLine =
      some ⟨[⟨.eof, "", ⟨counterRange - 1, 1, 0, 0⟩⟩], []⟩ := by
  have positive : 0 < counterRange - 1 := by simp only [counterRange]; omega
  have short : counterRange - 1 < counterRange := by simp only [counterRange]; omega
  rw [blankLine, ofSource?_blanks positive short]
  rfl

/-! ## A mark behind blanks -/

namespace Reader

/-- Blanks are gone over, however many there are, if they stand in front of a mark that starts
neither a comment nor a directive. -/
theorem skipTrivia?_blanks {source : List Char} {reader : Reader} {count : Nat} {mark : Char}
    {rest : List Char} (upcoming : reader.unread = List.replicate count ' ' ++ mark :: rest)
    (positive : 0 < count) (reads : (reader.textTo? source (reader.skip count)).isSome)
    (solid : isSpace mark = false) (plain : mark ≠ '#')
    (found : skippedExtent false (mark :: rest) = none) :
    reader.skipTrivia? source = some (none, reader.skip count) := by
  have blanks : blankLength reader.unread = count := by
    rw [upcoming]
    exact blankLength_blanks positive (by simp [solid])
  have head : reader.unread.head? = some ' ' := by
    obtain ⟨count, rfl⟩ := Nat.exists_eq_succ_of_ne_zero (Nat.ne_of_gt positive)
    rw [upcoming]
    rfl
  have behind : (reader.skip count).unread = mark :: rest := by
    rw [unread_skip, upcoming, List.drop_left']
    exact List.length_replicate
  have whole : reader.readsBlanks source = true := by
    rw [readsBlanks, head, if_neg (by decide), blanks]
    exact reads
  have alone : (reader.skip (blankLength reader.unread)).lineIsBlank? source = some false := by
    rw [blanks, lineIsBlank?, behind, if_neg (by simpa using plain)]
  have trivia := skipTrivia?_of_none whole alone (by rw [blanks, behind]; exact found)
  rwa [blanks] at trivia

end Reader

namespace TokenStream

theorem ofSource?_blanks_mark {count : Nat} (positive : 0 < count) (wraps : wrap count = 0)
    (dialect : Dialect) :
    ofSource? dialect (String.ofList (List.replicate count ' ' ++ [';'])) =
      some ⟨[⟨.punct .semicolon, " ", ⟨0, 1, 1, 1⟩⟩, ⟨.eof, "", ⟨1, 1, 2, 0⟩⟩], []⟩ := by
  let source := List.replicate count ' ' ++ [';']
  let reader := Reader.ofSource (String.ofList source)
  have hasRead : reader.HasRead source [] := by
    have start := Reader.hasRead_ofSource (String.ofList source)
    rwa [String.toList_ofList] at start
  have upcoming : reader.unread = List.replicate count ' ' ++ ';' :: [] := String.toList_ofList
  let start := reader.skip count
  have behind : start.unread = [';'] := by
    rw [Reader.unread_skip, upcoming, List.drop_left']
    exact List.length_replicate
  have place : start.position = ⟨count, 1, count + 1⟩ := by
    rw [(hasRead.skip count).position, List.nil_append, upcoming, List.take_left',
      Position.after_blanks, Nat.zero_add, Nat.add_comm 1]
    exact List.length_replicate
  have final : (start.skip 1).position = ⟨count + 1, 1, count + 2⟩ := by
    have size : ';'.utf8Size = 1 := by decide
    simp [Reader.skip, behind, place, Position.next, size]
  have shown (more : Nat) : wrap (count + more) = wrap more := by
    rw [← wrap_add, wraps, Nat.zero_add]
  -- The text of the blanks is looked for at the start of the source, and so is that of the mark.
  have blanks : reader.textTo? source start = some [] := by
    rw [Reader.textTo?, place, wraps]
    exact textBetween_append [] [] source
  have mark : start.textTo? source (start.skip 1) = some [' '] ∧
      (start.skip 1).textTo? source (start.skip 1) = some [] := by
    obtain ⟨more, rfl⟩ := Nat.exists_eq_succ_of_ne_zero (Nat.ne_of_gt positive)
    rw [Reader.textTo?, Reader.textTo?, place, final, wraps, shown]
    exact ⟨textBetween_append [] [' '] (List.replicate more ' ' ++ [';']),
      textBetween_append [' '] [] (List.replicate more ' ' ++ [';'])⟩
  have scanned : start.scan? source dialect = some (some ⟨1, .ok (.punct .semicolon)⟩) := by
    rw [Reader.scan?, behind]
    rfl
  have read : reader.next? source dialect =
      some ⟨⟨.punct .semicolon, " ", ⟨0, 1, 1, 1⟩⟩, none, start.skip 1⟩ := by
    have trivia := Reader.skipTrivia?_blanks upcoming positive (Option.isSome_of_mem blanks)
      (by decide) (by decide) rfl
    rw [Reader.next?_token trivia scanned mark.1, place, final, Span.counted, wraps, shown,
      Nat.add_sub_cancel_left]
    rfl
  have ended : (start.skip 1).next? source dialect =
      some ⟨⟨.eof, "", ⟨1, 1, 2, 0⟩⟩, none, start.skip 1⟩ := by
    have empty : (start.skip 1).unread = [] := by
      rw [Reader.unread_skip, behind]
      rfl
    have trivia := Reader.skipTrivia?_solid (by rw [empty]; rfl) (Option.isSome_of_mem mark.2)
      (by rw [empty]; simp) (by rw [empty]; rfl)
    rw [Reader.next?_ended trivia empty, final, Span.counted, shown, shown, Nat.sub_self]
    rfl
  rw [ofSource?, String.toList_ofList, ofReader?_more read (by simp), ofReader?_ended ended rfl]
  rfl

end TokenStream

/-- As many blanks as a counter can tell numbers, and a semicolon behind them. -/
def lateMark : String :=
  String.ofList (List.replicate counterRange ' ' ++ [';'])

theorem utf8ByteSize_lateMark : lateMark.utf8ByteSize = counterRange + 1 := by
  have size : ';'.utf8Size = 1 := by decide
  rw [← String.utf8Len_toList, lateMark, String.toList_ofList, String.utf8Len_append,
    utf8Len_blanks, String.utf8Len_cons, size, String.utf8Len_nil]

/-- The semicolon of that source is read at its start, and a blank is found for its text. -/
theorem TokenStream.ofSource?_lateMark (dialect : Dialect) : ofSource? dialect lateMark =
    some ⟨[⟨.punct .semicolon, " ", ⟨0, 1, 1, 1⟩⟩, ⟨.eof, "", ⟨1, 1, 2, 0⟩⟩], []⟩ :=
  ofSource?_blanks_mark (by simp [counterRange]) rfl dialect

def lateMarkUnit : ParsedUnit :=
  (ParseState.ofStream {} .empty ⟨0⟩
    ⟨[⟨.punct .semicolon, " ", ⟨0, 1, 1, 1⟩⟩, ⟨.eof, "", ⟨1, 1, 2, 0⟩⟩], []⟩).finish.parsed.shown

theorem parseUnit?_lateMark : parseUnit? {} .empty ⟨0⟩ lateMark = some lateMarkUnit := by
  rw [parseUnit?, TokenStream.ofSource?_lateMark]
  rfl

theorem range_lateMarkUnit :
    (lateMarkUnit.tree.get? Tree.root).map Node.range = some ⟨0, 1, 1, 1, true⟩ := by
  decide +kernel

/-! ## A brace behind a comment -/

namespace Reader

variable {source : List Char} {reader : Reader}

theorem word?_plain (letters rest : List Char) (character : Char)
    (upcoming : reader.unread = letters ++ character :: rest)
    (parts : letters.all isWordPart = true) (ends : isWordPart character = false)
    (unquoted : character ≠ '"' ∧ character ≠ '\'')
    (text : reader.textTo? source (reader.skip letters.length) = some letters)
    (dialect : Dialect) : reader.word? source dialect =
      some ⟨letters.length, .ok (Piece.wordKind dialect letters)⟩ := by
  have word : upcomingWord reader.unread = letters := by
    rw [upcoming, upcomingWord, List.takeWhile_append_of_pos (List.all_eq_true.1 parts),
      List.takeWhile_cons_of_neg (by simp [ends]), List.append_nil]
  have behind : reader.unread.drop letters.length = character :: rest := by
    rw [upcoming, List.drop_left']
    rfl
  simp only [word?, word, text, behind]
  split
  · simp_all
  · simp_all
  · rfl

theorem scan?_word (source : List Char) (reader : Reader) {character : Char} {rest : List Char}
    (upcoming : reader.unread = character :: rest) (starts : isWordStart character = true)
    (unquoted : ¬ (character = '"' ∨ character = '\''))
    (plain : character.isDigit = false ∧ character ≠ '.') (dialect : Dialect) :
    reader.scan? source dialect = (reader.word? source dialect).map some := by
  have wordy : Piece.startsNumber character rest = false := by simp [Piece.startsNumber, plain]
  rw [scan?, upcoming]
  simp only [unquoted, wordy, starts, if_false, if_true, Bool.false_eq_true]

end Reader

/-- An enumeration with a comment of so many blanks in front of its closing brace. -/
def commentedEnum (count : Nat) : List Char :=
  'e' :: 'n' :: 'u' :: 'm' :: '{' :: 'a' :: '/' :: '*' ::
    (List.replicate count ' ' ++ ['*', '/', '}'])

namespace Reader

/-- A place on the first line of that source, in front of its comment. -/
def inEnum (count offset : Nat) : Reader :=
  ⟨(commentedEnum count).drop offset, ⟨offset, 1, offset + 1⟩, offset == 0⟩

variable (count : Nat)

theorem next?_keyword : (inEnum count 0).next? (commentedEnum count) .cpp =
    some ⟨⟨.keyword .enumKw, "enum", ⟨0, 1, 1, 4⟩⟩, none, inEnum count 4⟩ := by
  let letters := ['e', 'n', 'u', 'm']
  have text : (inEnum count 0).textTo? (commentedEnum count) (inEnum count 4) = some letters :=
    textBetween_append [] letters ((commentedEnum count).drop 4)
  have blanks : (inEnum count 0).textTo? (commentedEnum count) (inEnum count 0) = some [] :=
    textBetween_append [] [] (commentedEnum count)
  have trivia := skipTrivia?_solid rfl (Option.isSome_of_mem blanks)
    (by simp [inEnum, commentedEnum]) rfl
  have word : (inEnum count 0).word? (commentedEnum count) .cpp =
      some ⟨4, .ok (Piece.wordKind .cpp letters)⟩ :=
    word?_plain letters ((commentedEnum count).drop 5) '{' rfl (by decide) (by decide)
      (by decide) text .cpp
  have kind : Piece.wordKind .cpp letters = .keyword .enumKw := by decide +kernel
  have scanned :=
    scan?_word (commentedEnum count) (inEnum count 0) rfl (by decide) (by decide) (by decide) .cpp
  rw [word, kind] at scanned
  exact next?_token trivia scanned text

theorem next?_brace : (inEnum count 4).next? (commentedEnum count) .cpp =
    some ⟨⟨.punct .leftBrace, "\x7b", ⟨4, 1, 5, 1⟩⟩, none, inEnum count 5⟩ := by
  let front := ['e', 'n', 'u', 'm']
  have text : (inEnum count 4).textTo? (commentedEnum count) (inEnum count 5) = some ['{'] :=
    textBetween_append front ['{'] ((commentedEnum count).drop 5)
  have blanks : (inEnum count 4).textTo? (commentedEnum count) (inEnum count 4) = some [] :=
    textBetween_append front [] ((commentedEnum count).drop 4)
  have trivia := skipTrivia?_solid rfl (Option.isSome_of_mem blanks)
    (by simp [inEnum, commentedEnum]) rfl
  have scanned : (inEnum count 4).scan? (commentedEnum count) .cpp =
      some (some ⟨1, .ok (.punct .leftBrace)⟩) := rfl
  exact next?_token trivia scanned text

theorem next?_enumerator : (inEnum count 5).next? (commentedEnum count) .cpp =
    some ⟨⟨.identifier, "a", ⟨5, 1, 6, 1⟩⟩, none, inEnum count 6⟩ := by
  let front := ['e', 'n', 'u', 'm', '{']
  have text : (inEnum count 5).textTo? (commentedEnum count) (inEnum count 6) = some ['a'] :=
    textBetween_append front ['a'] ((commentedEnum count).drop 6)
  have blanks : (inEnum count 5).textTo? (commentedEnum count) (inEnum count 5) = some [] :=
    textBetween_append front [] ((commentedEnum count).drop 5)
  have trivia := skipTrivia?_solid rfl (Option.isSome_of_mem blanks)
    (by simp [inEnum, commentedEnum]) rfl
  have word : (inEnum count 5).word? (commentedEnum count) .cpp =
      some ⟨1, .ok (Piece.wordKind .cpp ['a'])⟩ :=
    word?_plain ['a'] ((commentedEnum count).drop 7) '/' rfl (by decide) (by decide)
      (by decide) text .cpp
  have kind : Piece.wordKind .cpp ['a'] = .identifier := by decide +kernel
  have scanned :=
    scan?_word (commentedEnum count) (inEnum count 5) rfl (by decide) (by decide) (by decide) .cpp
  rw [word, kind] at scanned
  exact next?_token trivia scanned text

def behindComment (count : Nat) : Reader :=
  (inEnum count 6).skip (count + 4)

theorem unread_behindComment : (behindComment count).unread = ['}'] ∧
    (behindComment count).position = ⟨count + 10, 1, count + 11⟩ := by
  have upcoming : (inEnum count 6).unread =
      ('/' :: '*' :: (List.replicate count ' ' ++ ['*', '/'])) ++ ['}'] := by
    simp [inEnum, commentedEnum]
  have length : ('/' :: '*' :: (List.replicate count ' ' ++ ['*', '/'])).length = count + 4 := by
    simp
  have size : '/'.utf8Size = 1 ∧ '*'.utf8Size = 1 := by decide
  constructor
  · rw [behindComment, unread_skip, upcoming, List.drop_left' length]
  · simp only [behindComment, Reader.skip, upcoming, List.take_left' length]
    simp [Position.next, Position.after_append, Position.after_blanks, size, inEnum]
    omega

/-- Behind the closing brace nothing is left. -/
theorem unread_behindEnum : ((behindComment count).skip 1).unread = [] ∧
    ((behindComment count).skip 1).position = ⟨count + 11, 1, count + 12⟩ := by
  obtain ⟨behind, place⟩ := unread_behindComment count
  have size : '}'.utf8Size = 1 := by decide
  constructor
  · rw [unread_skip, behind]
    rfl
  · simp [Reader.skip, behind, place, Position.next, size]

theorem skipTrivia?_comment : (inEnum count 6).skipTrivia? (commentedEnum count) =
    (behindComment count).skipTrivia? (commentedEnum count) := by
  have hasRead : (inEnum count 6).HasRead (commentedEnum count) ['e', 'n', 'u', 'm', '{', 'a'] :=
    ⟨rfl, rfl, rfl⟩
  have short : utf8Len ['e', 'n', 'u', 'm', '{', 'a'] < counterRange := by decide
  have comment : skippedExtent false (inEnum count 6).unread = some (.closed (count + 4)) := by
    simp only [inEnum, commentedEnum, List.drop_succ_cons, List.drop_zero, skippedExtent,
      Extent.through_blanks, Extent.shift]
    rw [Nat.add_comm]
  exact hasRead.skipTrivia?_closed short comment

variable {count}

theorem wrap_behindEnum (wraps : wrap (count + 9) = 0) (more : Nat) :
    wrap (count + (9 + more)) = wrap more := by
  rw [← Nat.add_assoc, ← wrap_add, wraps, Nat.zero_add]

/-- Where the counters start again in front of the closing brace, it is found at the start. -/
theorem next?_closing (wraps : wrap (count + 9) = 0) :
    (inEnum count 6).next? (commentedEnum count) .cpp =
      some ⟨⟨.punct .rightBrace, "n", ⟨1, 1, 2, 1⟩⟩, none, (behindComment count).skip 1⟩ := by
  obtain ⟨behind, place⟩ := unread_behindComment count
  obtain ⟨-, final⟩ := unread_behindEnum count
  have shown := wrap_behindEnum wraps
  have blanks : (behindComment count).textTo? (commentedEnum count) (behindComment count) =
      some [] := by
    rw [textTo?, place, shown 1]
    exact textBetween_append ['e'] [] ((commentedEnum count).drop 1)
  have text : (behindComment count).textTo? (commentedEnum count)
      ((behindComment count).skip 1) = some ['n'] := by
    rw [textTo?, place, final, shown 1, shown 2]
    exact textBetween_append ['e'] ['n'] ((commentedEnum count).drop 2)
  have trivia := skipTrivia?_solid (by rw [behind]; rfl) (Option.isSome_of_mem blanks)
    (by simp [behind]) (by rw [behind]; rfl)
  have scanned : (behindComment count).scan? (commentedEnum count) .cpp =
      some (some ⟨1, .ok (.punct .rightBrace)⟩) := by
    rw [scan?, behind]
    rfl
  have read := next?_token ((skipTrivia?_comment count).trans trivia) scanned text
  rw [read, place, final, Span.counted, shown 1, shown 2, Nat.add_sub_add_left]
  rfl

theorem next?_behindEnum (wraps : wrap (count + 9) = 0) :
    ((behindComment count).skip 1).next? (commentedEnum count) .cpp =
      some ⟨⟨.eof, "", ⟨2, 1, 3, 0⟩⟩, none, (behindComment count).skip 1⟩ := by
  obtain ⟨empty, final⟩ := unread_behindEnum count
  have shown := wrap_behindEnum wraps
  have blanks : ((behindComment count).skip 1).textTo? (commentedEnum count)
      ((behindComment count).skip 1) = some [] := by
    rw [textTo?, final, shown 2]
    exact textBetween_append ['e', 'n'] [] ((commentedEnum count).drop 2)
  have trivia := skipTrivia?_solid (by rw [empty]; rfl) (Option.isSome_of_mem blanks)
    (by rw [empty]; simp) (by rw [empty]; rfl)
  rw [next?_ended trivia empty, final, Span.counted, shown 2, shown 3, Nat.sub_self]
  rfl

end Reader

/-- That enumeration, with as many blanks as bring the closing brace to the offset 1. -/
def longEnum : String :=
  String.ofList (commentedEnum (counterRange - 9))

/-- The enumerator of that source is read behind its closing brace. -/
theorem TokenStream.ofSource?_longEnum : ofSource? .cpp longEnum =
    some ⟨[⟨.keyword .enumKw, "enum", ⟨0, 1, 1, 4⟩⟩, ⟨.punct .leftBrace, "\x7b", ⟨4, 1, 5, 1⟩⟩,
      ⟨.identifier, "a", ⟨5, 1, 6, 1⟩⟩, ⟨.punct .rightBrace, "n", ⟨1, 1, 2, 1⟩⟩,
      ⟨.eof, "", ⟨2, 1, 3, 0⟩⟩], []⟩ := by
  have start : Reader.ofSource longEnum = Reader.inEnum (counterRange - 9) 0 := by
    rw [Reader.ofSource, longEnum, String.toList_ofList]
    rfl
  have wraps : wrap (counterRange - 9 + 9) = 0 := rfl
  rw [ofSource?, start, longEnum, String.toList_ofList,
    ofReader?_more (Reader.next?_keyword _) (by simp),
    ofReader?_more (Reader.next?_brace _) (by simp),
    ofReader?_more (Reader.next?_enumerator _) (by simp),
    ofReader?_more (Reader.next?_closing wraps) (by simp),
    ofReader?_ended (Reader.next?_behindEnum wraps) rfl]
  rfl

def longEnumUnit : ParsedUnit :=
  (ParseState.ofStream {} .empty ⟨0⟩
    ⟨[⟨.keyword .enumKw, "enum", ⟨0, 1, 1, 4⟩⟩, ⟨.punct .leftBrace, "\x7b", ⟨4, 1, 5, 1⟩⟩,
      ⟨.identifier, "a", ⟨5, 1, 6, 1⟩⟩, ⟨.punct .rightBrace, "n", ⟨1, 1, 2, 1⟩⟩,
      ⟨.eof, "", ⟨2, 1, 3, 0⟩⟩], []⟩).finish.parsed.shown

theorem parseUnit?_longEnum : parseUnit? {} .empty ⟨0⟩ longEnum = some longEnumUnit := by
  rw [parseUnit?, TokenStream.ofSource?_longEnum]
  rfl

end DeclTree
