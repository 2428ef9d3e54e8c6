import DeclTree.Token.Counted
import DeclTree.Proofs.SourcePositions
import DeclTree.Proofs.TokenCoverage

/-!
# Counters that do not run over

A reader that has gone over a text has counted its bytes, its newlines and the bytes of its last
line.  None of these is more than one above the number of bytes in the source.  So in a source of
less than 2 ^ 32 - 1 bytes counters of 32 bits show what was counted, texts are found where they
are, and the tokens are those that are read with counters without a bound.
-/

namespace DeclTree

open String (utf8Len)

/-! ## Texts found by their offsets -/

theorem dropBytes_cons {count : Nat} (positive : 0 < count) (character : Char)
    (rest : List Char) : dropBytes count (character :: rest) =
      if character.utf8Size ≤ count then dropBytes (count - character.utf8Size) rest else none := by
  cases count with
  | zero => cases positive
  | succ count => rfl

theorem dropBytes_append (front rest : List Char) :
    dropBytes (utf8Len front) (front ++ rest) = some rest := by
  induction front with
  | nil => cases rest <;> rfl
  | cons character front ih =>
      have positive := character.utf8Size_pos
      rw [List.cons_append, String.utf8Len_cons, dropBytes_cons (by omega),
        if_pos (Nat.le_add_left _ _), Nat.add_sub_cancel, ih]

/-- A text is found between the offsets where it starts and ends. -/
theorem textBetween_append (front text rest : List Char) :
    textBetween (front ++ (text ++ rest)) (utf8Len front) (utf8Len (front ++ text)) =
      some text := by
  have start := dropBytes_append front (text ++ rest)
  have finish := dropBytes_append (front ++ text) rest
  rw [List.append_assoc] at finish
  have order : utf8Len front ≤ utf8Len (front ++ text) := by
    rw [String.utf8Len_append]
    omega
  simp only [textBetween, if_pos order, start, finish]
  simp

/-! ## What a reader has counted -/

theorem count_le_utf8Len (character : Char) (text : List Char) :
    text.count character ≤ utf8Len text := by
  induction text with
  | nil => exact Nat.le_refl 0
  | cons first rest ih =>
      have positive := first.utf8Size_pos
      rw [List.count_cons, String.utf8Len_cons]
      split <;> omega

/-- The numbers that a position counts are no larger than one more than the bytes gone over. -/
theorem Position.after_start_le (text : List Char) :
    (Position.after {} text).offset = utf8Len text ∧
      (Position.after {} text).line ≤ utf8Len text + 1 ∧
        (Position.after {} text).column ≤ utf8Len text + 1 := by
  rw [Position.after_start]
  have lines := count_le_utf8Len '\n' text
  have column := String.utf8Len_le_of_suffix (List.rtakeWhile_suffix (· != '\n') (l := text))
  exact ⟨rfl, by simp only; omega, by simp only; omega⟩

/-- A line is blank behind a text if only indents stand behind its last newline. -/
theorem foldl_blankAfter (text : List Char) : text.foldl Reader.blankAfter true =
    (text.reverse.takeWhile (· != '\n')).all isIndent := by
  induction text using List.reverseRecOn with
  | nil => rfl
  | append_singleton front character ih =>
      rw [List.foldl_concat, Reader.blankAfter, ih, List.reverse_concat, List.takeWhile_cons]
      by_cases newline : character = '\n'
      · simp [newline]
      · simp [newline, Bool.and_comm]

namespace Reader

/-- Whether a reader has gone over a text and stands in front of the rest of a source. -/
structure HasRead (source front : List Char) (reader : Reader) : Prop where
  whole : source = front ++ reader.unread
  position : reader.position = Position.after {} front
  line : reader.lineIsBlank = front.foldl blankAfter true

variable {source front : List Char} {reader : Reader}

theorem hasRead_ofSource (source : String) : (ofSource source).HasRead source.toList [] :=
  ⟨rfl, rfl, rfl⟩

theorem HasRead.skip (hasRead : reader.HasRead source front) (count : Nat) :
    (reader.skip count).HasRead source (front ++ reader.unread.take count) where
  whole := by
    rw [hasRead.whole, unread_skip, List.append_assoc, List.take_append_drop]
  position := by
    rw [Position.after_append, ← hasRead.position]
    rfl
  line := by
    rw [List.foldl_append, ← hasRead.line]
    rfl

theorem HasRead.offset (hasRead : reader.HasRead source front) :
    reader.position.offset = utf8Len front := by
  rw [hasRead.position, (Position.after_start_le front).1]

theorem HasRead.within (hasRead : reader.HasRead source front) :
    utf8Len front ≤ utf8Len source := by
  rw [hasRead.whole, String.utf8Len_append]
  omega

/-- A text is found if the counters have not run over up to its end. -/
theorem HasRead.textTo?_skip (hasRead : reader.HasRead source front) (count : Nat)
    (short : utf8Len (front ++ reader.unread.take count) < counterRange) :
    reader.textTo? source (reader.skip count) = some (reader.unread.take count) := by
  have whole : source = front ++ (reader.unread.take count ++ reader.unread.drop count) := by
    rw [List.take_append_drop]
    exact hasRead.whole
  have start : utf8Len front < counterRange := by
    rw [String.utf8Len_append] at short
    omega
  unfold textTo?
  rw [hasRead.offset, (hasRead.skip count).offset, wrap_of_lt start, wrap_of_lt short]
  conv_lhs => rw [whole]
  exact textBetween_append front _ _

/-- In a source that is short enough as a whole, all texts are found. -/
theorem HasRead.textTo?_of_short (hasRead : reader.HasRead source front)
    (short : utf8Len source < counterRange) (count : Nat) :
    reader.textTo? source (reader.skip count) = some (reader.unread.take count) :=
  hasRead.textTo?_skip count (Nat.lt_of_le_of_lt (hasRead.skip count).within short)

/-- A text further on is found as well. -/
theorem HasRead.textTo?_skip_skip (hasRead : reader.HasRead source front) {first second : Nat}
    (order : first ≤ second)
    (short : utf8Len (front ++ reader.unread.take second) < counterRange) :
    (reader.skip first).textTo? source (reader.skip second) =
      some ((reader.unread.drop first).take (second - first)) := by
  have split : reader.unread.take second = reader.unread.take first ++
      (reader.unread.drop first).take (second - first) := by
    rw [← List.take_add, Nat.add_sub_cancel' order]
  have further := (hasRead.skip first).textTo?_skip (second - first) (by
    rwa [List.append_assoc, unread_skip, ← split])
  have same : ((reader.skip first).skip (second - first)).position =
      (reader.skip second).position := by
    simp only [Reader.skip, split, Position.after_append]
  unfold textTo? at further ⊢
  rw [← same]
  exact further

/-- The text in front of a reader tells what starts here as the reader itself does. -/
theorem HasRead.lineIsBlank? (hasRead : reader.HasRead source front)
    (short : utf8Len front < counterRange) : ∃ lineIsBlank,
      reader.lineIsBlank? source = some lineIsBlank ∧
        skippedExtent lineIsBlank reader.unread =
          skippedExtent reader.lineIsBlank reader.unread := by
  unfold Reader.lineIsBlank?
  split
  · have text := textBetween_append [] front reader.unread
    rw [List.nil_append, List.nil_append, String.utf8Len_nil, ← hasRead.whole] at text
    rw [hasRead.offset, wrap_of_lt short, text, Option.map_some, ← foldl_blankAfter,
      ← hasRead.line]
    exact ⟨_, rfl, rfl⟩
  · rename_i other
    refine ⟨false, rfl, ?_⟩
    unfold skippedExtent
    split <;> simp_all

theorem HasRead.readsBlanks (hasRead : reader.HasRead source front)
    (short : utf8Len (front ++ reader.unread.take (blankLength reader.unread)) < counterRange) :
    reader.readsBlanks source = true := by
  have order : (if reader.unread.head? = some byteOrderMark then 1 else 0) ≤
      blankLength reader.unread := by
    cases reader.unread with
    | nil => exact Nat.le_refl 0
    | cons character rest =>
        by_cases mark : character = byteOrderMark <;> simp [blankLength, mark]
  simp only [Reader.readsBlanks, hasRead.textTo?_skip_skip order short, Option.isSome_some]

/-- What counters show of a span that is not too long for them. -/
theorem HasRead.counted_skip (hasRead : reader.HasRead source front) (count : Nat)
    (short : utf8Len (front ++ reader.unread.take count) + 1 < counterRange) :
    Span.counted reader.position (reader.skip count).position =
      .between reader.position (reader.skip count).position := by
  obtain ⟨offset, line, column⟩ := Position.after_start_le front
  have further := (hasRead.skip count).offset
  rw [← hasRead.position] at offset line column
  rw [String.utf8Len_append] at further short
  unfold Span.counted Span.between
  rw [wrap_of_lt (by omega), wrap_of_lt (by omega), wrap_of_lt (by omega),
    wrap_of_lt (by omega)]

/-! ## The same tokens -/

/-- Nothing is passed over behind the blanks if neither a comment nor a directive starts there. -/
theorem skipTrivia?_of_none {lineIsBlank : Bool} (reads : reader.readsBlanks source = true)
    (alone : (reader.skip (blankLength reader.unread)).lineIsBlank? source = some lineIsBlank)
    (found : skippedExtent lineIsBlank (reader.skip (blankLength reader.unread)).unread = none) :
    reader.skipTrivia? source = some (none, reader.skip (blankLength reader.unread)) := by
  unfold skipTrivia?
  simp only [reads, if_true, alone]
  split <;> simp_all

section Trivia

variable (hasRead : reader.HasRead source front)
  (short : utf8Len (front ++ reader.unread.take (blankLength reader.unread)) < counterRange)

include hasRead short

theorem HasRead.skipTrivia?_none
    (found : skippedExtent (reader.skip (blankLength reader.unread)).lineIsBlank
      (reader.skip (blankLength reader.unread)).unread = none) :
    reader.skipTrivia? source = some (none, reader.skip (blankLength reader.unread)) := by
  obtain ⟨blank, alone, same⟩ := (hasRead.skip (blankLength reader.unread)).lineIsBlank? short
  exact skipTrivia?_of_none (hasRead.readsBlanks short) alone (same.trans found)

theorem HasRead.skipTrivia?_closed {length : Nat}
    (found : skippedExtent (reader.skip (blankLength reader.unread)).lineIsBlank
      (reader.skip (blankLength reader.unread)).unread = some (.closed length)) :
    reader.skipTrivia? source =
      ((reader.skip (blankLength reader.unread)).skip length).skipTrivia? source := by
  obtain ⟨blank, alone, same⟩ := (hasRead.skip (blankLength reader.unread)).lineIsBlank? short
  rw [found] at same
  conv_lhs => unfold skipTrivia?
  simp only [hasRead.readsBlanks short, if_true, alone]
  split <;> simp_all

theorem HasRead.skipTrivia?_cut {length : Nat}
    (found : skippedExtent (reader.skip (blankLength reader.unread)).lineIsBlank
      (reader.skip (blankLength reader.unread)).unread = some (.cut length)) :
    reader.skipTrivia? source =
      some (some ⟨.unterminatedComment, .counted (reader.skip (blankLength reader.unread)).position
        ((reader.skip (blankLength reader.unread)).skip length).position⟩,
        (reader.skip (blankLength reader.unread)).skip length) := by
  obtain ⟨blank, alone, same⟩ := (hasRead.skip (blankLength reader.unread)).lineIsBlank? short
  rw [found] at same
  unfold skipTrivia?
  simp only [hasRead.readsBlanks short, if_true, alone]
  split <;> simp_all

end Trivia

theorem HasRead.skipTrivia?_eq (short : utf8Len source + 1 < counterRange) (reader : Reader) :
    ∀ front, reader.HasRead source front →
      reader.skipTrivia? source = some reader.skipTrivia ∧
        ∃ further, reader.skipTrivia.2.HasRead source further := by
  fun_induction skipTrivia reader with
  | case1 reader start found =>
      intro front hasRead
      have started : start.HasRead source _ := hasRead.skip _
      have within := started.within
      exact ⟨hasRead.skipTrivia?_none (by omega) found, _, started⟩
  | case2 reader start length found ih =>
      intro front hasRead
      have started : start.HasRead source _ := hasRead.skip _
      have within := started.within
      rw [hasRead.skipTrivia?_closed (by omega) found]
      exact ih _ (started.skip length)
  | case3 reader start length found rest =>
      intro front hasRead
      have started : start.HasRead source _ := hasRead.skip _
      have within := started.within
      have further := (started.skip length).within
      have span := started.counted_skip length (by omega)
      refine ⟨?_, _, started.skip length⟩
      rw [hasRead.skipTrivia?_cut (by omega) found]
      simp only [start, rest] at span ⊢
      rw [span]

theorem HasRead.rawString?_eq (hasRead : reader.HasRead source front)
    (short : utf8Len source < counterRange) :
    reader.rawString? source = some (Extent.rawString reader.unread) := by
  have delimiter := List.prefix_iff_eq_take.1
    (List.takeWhile_prefix Extent.isDelimiter (l := reader.unread))
  simp only [rawString?, hasRead.textTo?_of_short short, Option.map_some, ← delimiter]
  rfl

theorem HasRead.word?_eq (hasRead : reader.HasRead source front)
    (short : utf8Len source < counterRange) (dialect : Dialect) :
    reader.word? source dialect = some (Piece.word dialect reader.unread) := by
  have letters := List.prefix_iff_eq_take.1
    (List.takeWhile_prefix isWordPart (l := reader.unread))
  change upcomingWord reader.unread = reader.unread.take (upcomingWord reader.unread).length
    at letters
  have raw (body : List Char)
      (behind : reader.unread.drop (upcomingWord reader.unread).length = '"' :: body) :
      (reader.skip ((upcomingWord reader.unread).length + 1)).rawString? source =
        some (Extent.rawString body) := by
    rw [(hasRead.skip _).rawString?_eq short, unread_skip, ← List.drop_drop, behind]
    rfl
  unfold word? Piece.word
  simp only [hasRead.textTo?_of_short short, ← letters, List.contains_iff_mem]
  generalize reader.unread.drop (upcomingWord reader.unread).length = behind at raw
  split
  · rename_i body
    rw [raw body rfl]
    split
    · rfl
    · split <;> rfl
  · split <;> rfl
  · rename_i string character
    repeat' split
    all_goals first | rfl | exact (string _ rfl).elim | exact (character _ rfl).elim

theorem HasRead.scan?_eq (hasRead : reader.HasRead source front)
    (short : utf8Len source < counterRange) (dialect : Dialect) :
    reader.scan? source dialect = some (Piece.scan dialect reader.unread) := by
  unfold scan? Piece.scan
  rw [hasRead.word?_eq short]
  cases reader.unread with
  | nil => rfl
  | cons character rest =>
      simp only
      split
      · rfl
      · split
        · rfl
        · split <;> rfl

/-- What is read next is the same, and the reader behind it has gone over the text so far. -/
theorem HasRead.next?_eq (hasRead : reader.HasRead source front)
    (short : utf8Len source + 1 < counterRange) (dialect : Dialect) :
    reader.next? source dialect = some (reader.next dialect) ∧
      ∃ further, (reader.next dialect).reader.HasRead source further := by
  obtain ⟨trivia, further, started⟩ := hasRead.skipTrivia?_eq short reader front
  unfold next? next
  rw [trivia]
  rcases passed : reader.skipTrivia with ⟨error | error, start⟩
  · rw [passed] at started
    simp only [started.scan?_eq (by omega)]
    cases found : Piece.scan dialect start.unread with
    | none =>
        have empty : Span.counted start.position start.position = .point start.position := by
          have none := started.counted_skip 0 (by have := (started.skip 0).within; omega)
          rw [show (start.skip 0).position = start.position from rfl] at none
          rw [none, Span.between, Span.point, Nat.sub_self]
        rw [empty]
        exact ⟨rfl, _, started⟩
    | some piece =>
        have within := (started.skip piece.length).within
        have span := started.counted_skip piece.length (by omega)
        simp only [started.textTo?_of_short (by omega), span]
        cases piece.outcome <;> exact ⟨rfl, _, started.skip _⟩
  · rw [passed] at started
    exact ⟨rfl, _, started⟩

end Reader

namespace TokenStream

variable {source : List Char} {dialect : Dialect} {reader : Reader} {reading : Reading}

theorem ofReader?_ended (found : reader.next? source dialect = some reading)
    (ended : reading.token.kind = .eof) :
    ofReader? source dialect reader = some (cons reading ⟨[], []⟩) := by
  unfold ofReader?
  split
  · simp_all
  · rename_i other same
    obtain rfl : reading = other := Option.some.inj (found.symm.trans same)
    rw [dif_pos ended]

theorem ofReader?_more (found : reader.next? source dialect = some reading)
    (more : reading.token.kind ≠ .eof) :
    ofReader? source dialect reader =
      (ofReader? source dialect reading.reader).map (cons reading) := by
  conv_lhs => unfold ofReader?
  split
  · simp_all
  · rename_i other same
    obtain rfl : reading = other := Option.some.inj (found.symm.trans same)
    rw [dif_neg more]

theorem ofReader?_eq (short : utf8Len source + 1 < counterRange) (dialect : Dialect)
    (reader : Reader) : ∀ front, reader.HasRead source front →
      ofReader? source dialect reader = some (ofReader dialect reader) := by
  fun_induction ofReader dialect reader with
  | case1 reader reading ended =>
      intro front hasRead
      exact ofReader?_ended (hasRead.next?_eq short dialect).1 ended
  | case2 reader reading more ih =>
      intro front hasRead
      obtain ⟨same, further, read⟩ := hasRead.next?_eq short dialect
      rw [ofReader?_more same more, ih further read, Option.map_some]

/-- A source of less than 2 ^ 32 - 1 bytes is read as if counters had no bound. -/
theorem ofSource?_eq (dialect : Dialect) {source : String}
    (short : source.utf8ByteSize < counterRange - 1) :
    ofSource? dialect source = some (ofSource dialect source) := by
  refine ofReader?_eq ?_ dialect _ [] (Reader.hasRead_ofSource source)
  rw [String.utf8Len_toList]
  simp only [counterRange] at short ⊢
  omega

end TokenStream

end DeclTree
