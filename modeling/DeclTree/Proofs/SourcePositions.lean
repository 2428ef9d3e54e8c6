import DeclTree.Proofs.TokenSpans
import Mathlib.Data.List.DropRight

/-!
# Spans that tell where they are

A reader counts lines and columns along with the bytes it goes over, piece by piece.  However
it got to a place, it has counted what stands in front of that place: its line is one more than
the newlines there, and its column one more than the bytes behind the last of them.  So every
token tells where it stands, also one that was not in the text but is half of one that was.
-/

namespace DeclTree

open String (utf8Len)

/-- Whether a span lies in a source and gives the line and column of the place where it starts,
counted from the start of the source. -/
structure Span.Located (source : String) (span : Span) : Prop where
  within : span.offset + span.length ≤ source.utf8ByteSize
  start : ∃ front, front <+: source.toList ∧ span.offset = utf8Len front ∧
    span.line = 1 + front.count '\n' ∧
    span.column = 1 + utf8Len (front.rtakeWhile (· != '\n'))

/-- Of two spans that tell where they are, the span covering both does so too. -/
theorem Span.Located.merge {source : String} {left right : Span} (first : left.Located source)
    (second : right.Located source) : (left.merge right).Located source := by
  have leftEnd := first.within
  have rightEnd := second.within
  unfold Span.merge
  split
  · refine ⟨?_, first.start⟩
    simp only [Span.stop]
    omega
  · refine ⟨?_, second.start⟩
    simp only [Span.stop]
    omega

/-! ## Positions -/

/-- The position behind a text counts its bytes, its newlines and the bytes of its last line. -/
theorem Position.after_start (text : List Char) :
    Position.after {} text = ⟨utf8Len text, 1 + text.count '\n',
      1 + utf8Len (text.rtakeWhile (· != '\n'))⟩ := by
  induction text using List.reverseRecOn with
  | nil => rfl
  | append_singleton front character counted =>
      rw [Position.after_append, counted, Position.after_cons, Position.after_nil]
      unfold Position.next
      rw [List.rtakeWhile_concat]
      by_cases newline : character = '\n'
      · simp [newline, Nat.add_assoc]
      · simp [newline, Nat.add_assoc]

namespace Reader

/-- Whether a reader has counted what stands in front of it in a source. -/
def Counts (source : String) (reader : Reader) : Prop :=
  ∃ front, source.toList = front ++ reader.unread ∧ reader.position = Position.after {} front

variable {source : String} {reader : Reader}

theorem counts_ofSource (source : String) : (ofSource source).Counts source :=
  ⟨[], rfl, rfl⟩

theorem Counts.skip (counts : reader.Counts source) (count : Nat) :
    (reader.skip count).Counts source := by
  obtain ⟨front, whole, position⟩ := counts
  refine ⟨front ++ reader.unread.take count, ?_, ?_⟩
  · rw [whole, unread_skip, List.append_assoc, List.take_append_drop]
  · rw [Position.after_append, ← position]
    rfl

/-- A span that starts at a reader tells where it is, if it is no longer than what is ahead. -/
theorem Counts.located (counts : reader.Counts source) {length : Nat}
    (within : length ≤ utf8Len reader.unread) :
    Span.Located source ⟨reader.position.offset, reader.position.line, reader.position.column,
      length⟩ := by
  obtain ⟨front, whole, position⟩ := counts
  rw [Position.after_start] at position
  have bytes : source.utf8ByteSize = utf8Len front + utf8Len reader.unread := by
    rw [← String.utf8Len_toList, whole, String.utf8Len_append]
  rw [position]
  refine ⟨?_, front, ⟨_, whole.symm⟩, rfl, rfl, rfl⟩
  simp only
  omega

theorem Counts.located_between (counts : reader.Counts source) (count : Nat) :
    (Span.between reader.position (reader.skip count).position).Located source := by
  apply counts.located
  have inside := String.utf8Len_le_of_prefix (List.take_prefix count reader.unread)
  rw [offset_skip]
  omega

/-- What is passed over between tokens is counted, and a comment that is not closed tells
where it is. -/
theorem Counts.skipTrivia (counts : reader.Counts source) :
    reader.skipTrivia.2.Counts source ∧
      ∀ error, reader.skipTrivia.1 = some error → error.span.Located source := by
  fun_induction Reader.skipTrivia reader with
  | case1 reader start found => exact ⟨counts.skip _, by simp⟩
  | case2 reader start length found ih => exact ih ((counts.skip _).skip _)
  | case3 reader start length found rest =>
      have started : start.Counts source := counts.skip _
      refine ⟨started.skip length, ?_⟩
      rintro _ ⟨⟩
      exact started.located_between length

end Reader

/-! ## Tokens -/

/-- Whether a token tells where it stands, and so does either half of one that may be split. -/
structure Token.Located (source : String) (token : Token) : Prop where
  span : token.span.Located source
  halves : token.kind = .punct .greaterGreater →
    ∀ half ∈ Cursor.shiftHalves token, half.span.Located source

theorem Token.Located.of_span {source : String} {token : Token}
    (located : token.span.Located source) (whole : token.kind ≠ .punct .greaterGreater) :
    token.Located source :=
  ⟨located, fun shift => absurd shift whole⟩

/-- A half of a token that was split is not split again. -/
theorem Token.Located.half {source : String} {token half : Token} (located : token.Located source)
    (shift : token.kind = .punct .greaterGreater) (member : half ∈ Cursor.shiftHalves token) :
    half.Located source := by
  refine .of_span (located.halves shift half member) ?_
  rw [Cursor.kind_of_mem_shiftHalves member]
  decide

/-- A piece that is a punctuator has its characters. -/
theorem Piece.spelling_prefix_of_scan {dialect : Dialect} {upcoming : List Char} {piece : Piece}
    {mark : Punct} (found : scan dialect upcoming = some piece)
    (known : piece.outcome = .ok (.punct mark)) : mark.spelling <+: upcoming := by
  cases upcoming with
  | nil => simp [scan] at found
  | cons character rest =>
      simp only [scan, Option.some.injEq] at found
      subst found
      split at known
      · cases isWorded_quoted known
      · split at known
        · cases known
        · split at known
          · cases isWorded_word known
          · unfold punctuator at known
            split at known
            · rename_i other longest
              cases known
              have starts := List.find?_some longest
              exact List.isPrefixOf_iff_prefix.1 starts
            · cases known

namespace Reader

variable {source : String} {reader : Reader}

/-- The halves of two closing marks stand one character apart. -/
theorem Counts.halves (counts : reader.Counts source) {token : Token} {finish : Position}
    (place : token.span = .between reader.position finish)
    (spelled : Punct.greaterGreater.spelling <+: reader.unread) :
    ∀ half ∈ Cursor.shiftHalves token, half.span.Located source := by
  obtain ⟨rest, marks⟩ := spelled
  have unread : reader.unread = '>' :: '>' :: rest := marks.symm
  have size : '>'.utf8Size = 1 := by decide
  have behind : (reader.skip 1).position =
      ⟨reader.position.offset + 1, reader.position.line, reader.position.column + 1⟩ := by
    simp [Reader.skip, unread, Position.next, size]
  have first := counts.located (show 1 ≤ utf8Len reader.unread by simp [unread, size])
  have second :=
    (counts.skip 1).located (show 1 ≤ utf8Len (reader.skip 1).unread by simp [unread, size])
  rw [behind] at second
  intro half member
  simp only [Cursor.shiftHalves, place, Span.between, List.mem_cons, List.not_mem_nil,
    or_false] at member
  rcases member with rfl | rfl
  · exact first
  · exact second

/-- What is read next tells where it stands, and so does the error it stands for. -/
theorem Counts.next (counts : reader.Counts source) (dialect : Dialect) :
    (reader.next dialect).reader.Counts source ∧
      (reader.next dialect).token.Located source ∧
      ∀ error ∈ (reader.next dialect).error, error.span.Located source := by
  obtain ⟨skipped, unclosed⟩ := counts.skipTrivia
  unfold Reader.next
  split
  · rename_i error rest passed
    rw [passed] at skipped unclosed
    have located := unclosed error rfl
    refine ⟨skipped, .of_span located (by simp), ?_⟩
    rintro _ ⟨⟩
    exact located
  · rename_i start passed
    rw [passed] at skipped
    split
    · exact ⟨skipped, .of_span (skipped.located (Nat.zero_le _)) (by simp), by simp⟩
    · rename_i piece found
      have located := skipped.located_between piece.length
      split
      · rename_i kind known
        refine ⟨skipped.skip _, ⟨located, ?_⟩, by simp⟩
        rintro rfl
        exact skipped.halves rfl (Piece.spelling_prefix_of_scan found known)
      · refine ⟨skipped.skip _, .of_span located (by simp), ?_⟩
        rintro _ ⟨⟩
        exact located

end Reader

/-- Every token of a text tells where it stands, and every lexical error where it is. -/
theorem TokenStream.located_ofReader {source : String} (dialect : Dialect) (reader : Reader)
    (counts : reader.Counts source) :
    (∀ token ∈ (ofReader dialect reader).tokens, token.Located source) ∧
      ∀ error ∈ (ofReader dialect reader).errors, error.span.Located source := by
  fun_induction ofReader dialect reader with
  | case1 reader reading ended =>
      obtain ⟨_, token, error⟩ := counts.next dialect
      refine ⟨?_, ?_⟩
      · intro other member
        obtain rfl := List.mem_singleton.1 member
        exact token
      · intro other member
        simp only [TokenStream.cons, List.append_nil, Option.mem_toList] at member
        exact error other member
  | case2 reader reading more ih =>
      obtain ⟨further, token, error⟩ := counts.next dialect
      obtain ⟨tokens, errors⟩ := ih further
      refine ⟨?_, ?_⟩
      · intro other member
        rcases List.mem_cons.1 member with rfl | later
        · exact token
        · exact tokens other later
      · intro other member
        rcases List.mem_append.1 member with here | later
        · exact error other (Option.mem_toList.1 here)
        · exact errors other later

theorem TokenStream.located_ofSource (dialect : Dialect) (source : String) :
    (∀ token ∈ (ofSource dialect source).tokens, token.Located source) ∧
      ∀ error ∈ (ofSource dialect source).errors, error.span.Located source :=
  located_ofReader dialect _ (Reader.counts_ofSource source)

end DeclTree
