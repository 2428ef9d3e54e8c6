import DeclTree.Proofs.CursorMoves
import Mathlib.Data.String.Basic

/-!
# Where tokens stand

Tokens stand one behind the other in a source.  None of them is empty, one that may be
split in two has at least two bytes, and the end of the text stands behind its last byte.
A cursor that moves over tokens, or splits one, goes on over tokens that stand this way.
-/

namespace DeclTree

open String (utf8Len)

/-- Whether tokens stand one behind the other between two byte offsets, with room for as
much reading as each of them takes. -/
def Spaced (limit : Nat) : Nat → List Token → Prop
  | reach, [] => reach ≤ limit
  | reach, token :: rest =>
      reach ≤ token.span.offset ∧ Cursor.tokenWeight token ≤ token.span.length ∧
        Spaced limit token.span.stop rest

namespace Spaced

variable {limit reach : Nat} {tokens : List Token}

theorem mono {earlier : Nat} (spaced : Spaced limit reach tokens) (before : earlier ≤ reach) :
    Spaced limit earlier tokens := by
  cases tokens with
  | nil => exact Nat.le_trans before spaced
  | cons token rest => exact ⟨Nat.le_trans before spaced.1, spaced.2⟩

theorem le_limit (spaced : Spaced limit reach tokens) : reach ≤ limit := by
  induction tokens generalizing reach with
  | nil => exact spaced
  | cons token rest ih =>
      have further := ih spaced.2.2
      have here := spaced.1
      unfold Span.stop at further
      omega

/-- Tokens may be left out. -/
theorem filter (spaced : Spaced limit reach tokens) (keep : Token → Bool) :
    Spaced limit reach (tokens.filter keep) := by
  induction tokens generalizing reach with
  | nil => exact spaced
  | cons token rest ih =>
      obtain ⟨before, room, others⟩ := spaced
      rw [List.filter_cons]
      split
      · exact ⟨before, room, ih others⟩
      · apply (ih others).mono
        unfold Span.stop
        omega

end Spaced

/-! ## Reading a text -/

theorem Position.offset_after (position : Position) (text : List Char) :
    (position.after text).offset = position.offset + utf8Len text := by
  induction text generalizing position with
  | nil => rfl
  | cons character rest ih =>
      rw [Position.after_cons, ih, String.utf8Len_cons]
      unfold Position.next
      split <;> simp only <;> omega

theorem length_le_utf8Len (text : List Char) : text.length ≤ utf8Len text := by
  induction text with
  | nil => exact Nat.le_refl _
  | cons character rest ih =>
      have positive := character.utf8Size_pos
      rw [List.length_cons, String.utf8Len_cons]
      omega

namespace Reader

/-- The offset of the end of the text that a reader reads. -/
def finish (reader : Reader) : Nat :=
  reader.position.offset + utf8Len reader.unread

theorem offset_skip (reader : Reader) (count : Nat) : (reader.skip count).position.offset =
    reader.position.offset + utf8Len (reader.unread.take count) :=
  Position.offset_after _ _

theorem finish_skip (reader : Reader) (count : Nat) :
    (reader.skip count).finish = reader.finish := by
  have parts : utf8Len (reader.unread.take count) + utf8Len (reader.unread.drop count) =
      utf8Len reader.unread := by
    rw [← String.utf8Len_append, List.take_append_drop]
  unfold finish
  rw [offset_skip, unread_skip]
  omega

theorem offset_le_skip (reader : Reader) (count : Nat) :
    reader.position.offset ≤ (reader.skip count).position.offset := by
  rw [offset_skip]
  omega

/-- Reading takes as many bytes as characters, or more. -/
theorem add_le_offset_skip (reader : Reader) {count : Nat}
    (within : count ≤ reader.unread.length) :
    reader.position.offset + count ≤ (reader.skip count).position.offset := by
  have bytes := length_le_utf8Len (reader.unread.take count)
  rw [List.length_take_of_le within] at bytes
  rw [offset_skip]
  omega

theorem lt_offset_skip (reader : Reader) {count : Nat} (positive : 0 < count)
    (nonempty : reader.unread ≠ []) :
    reader.position.offset < (reader.skip count).position.offset := by
  have bytes := length_le_utf8Len (reader.unread.take count)
  have some : 0 < (reader.unread.take count).length := by
    rw [List.length_take]
    exact Nat.lt_min.2 ⟨positive, List.length_pos_iff.2 nonempty⟩
  rw [offset_skip]
  omega

/-- What is passed over between tokens lies inside the text, and a comment that is not
closed is a piece of it. -/
theorem skipTrivia_spans (reader : Reader) :
    reader.skipTrivia.2.finish = reader.finish ∧
      reader.position.offset ≤ reader.skipTrivia.2.position.offset ∧
        ∀ error, reader.skipTrivia.1 = some error → reader.position.offset ≤ error.span.offset ∧
          error.span.stop = reader.skipTrivia.2.position.offset ∧ 0 < error.span.length := by
  fun_induction skipTrivia reader with
  | case1 reader start found => exact ⟨finish_skip _ _, offset_le_skip _ _, by simp⟩
  | case2 reader start length _ ih =>
      obtain ⟨finish, offset, error⟩ := ih
      have first : reader.position.offset ≤ start.position.offset := offset_le_skip _ _
      have second := start.offset_le_skip length
      refine ⟨?_, by omega, ?_⟩
      · rw [finish, finish_skip]
        exact finish_skip _ _
      · intro cause given
        obtain ⟨before, rest⟩ := error cause given
        exact ⟨by omega, rest⟩
  | case3 reader start length found rest =>
      obtain ⟨positive, nonempty⟩ := skippedExtent_pos found
      have first : reader.position.offset ≤ start.position.offset := offset_le_skip _ _
      have second : start.position.offset < rest.position.offset :=
        start.lt_offset_skip positive nonempty
      refine ⟨?_, by simp only; omega, ?_⟩
      · simp only
        rw [finish_skip]
        exact finish_skip _ _
      · rintro _ ⟨⟩
        simp only [Span.between, Span.stop]
        omega

end Reader

/-- Whether a kind is neither that of a punctuator nor the end of the text. -/
def TokenKind.isWorded : TokenKind → Bool
  | .punct _ | .eof => false
  | _ => true

namespace Piece

variable {kind : TokenKind}

theorem isWorded_ofExtent {given : TokenKind} (worded : given.isWorded = true) {cause : LexCause}
    {extent : Extent} (known : (ofExtent given cause extent).outcome = .ok kind) :
    kind.isWorded = true := by
  cases extent with
  | closed length => rwa [← Except.ok.inj known]
  | cut length => cases known

theorem isWorded_quoted {lead : Nat} {quote : Char} {body : List Char}
    (known : (quoted lead quote body).outcome = .ok kind) : kind.isWorded = true := by
  unfold quoted at known
  simp only at known
  split at known
  · exact isWorded_ofExtent rfl known
  · exact isWorded_ofExtent rfl known

theorem isWorded_word {dialect : Dialect} {upcoming : List Char}
    (known : (word dialect upcoming).outcome = .ok kind) : kind.isWorded = true := by
  have plain {letters : List Char}
      (same : (Except.ok (wordKind dialect letters) : Except LexCause TokenKind) = .ok kind) :
      kind.isWorded = true := by
    rw [← Except.ok.inj same]
    unfold wordKind
    split <;> rfl
  unfold word at known
  simp only at known
  split at known
  · split at known
    · exact isWorded_ofExtent rfl known
    · split at known
      · exact isWorded_quoted known
      · exact plain known
  · split at known
    · exact isWorded_quoted known
    · exact plain known
  · exact plain known

/-- A piece is a word, a number or a literal, or has the characters of a punctuator. -/
theorem kind_of_scan {dialect : Dialect} {upcoming : List Char} {piece : Piece}
    (found : scan dialect upcoming = some piece) (known : piece.outcome = .ok kind) :
    kind.isWorded = true ∨ ∃ mark : Punct, kind = .punct mark ∧
      piece.length = mark.spelling.length ∧ mark.spelling.length ≤ upcoming.length := by
  cases upcoming with
  | nil => simp [scan] at found
  | cons character rest =>
      simp only [scan, Option.some.injEq] at found
      subst found
      split at known
      · exact .inl (isWorded_quoted known)
      · split at known
        · rw [number] at known
          rw [← Except.ok.inj known]
          exact .inl rfl
        · split at known
          · exact .inl (isWorded_word known)
          · rename_i unquoted plain unworded
            rw [if_neg unquoted, if_neg plain, if_neg unworded]
            unfold punctuator at known ⊢
            split at known
            · rename_i mark longest
              have starts := List.find?_some longest
              exact .inr ⟨mark, (Except.ok.inj known).symm, rfl,
                (List.isPrefixOf_iff_prefix.1 starts).length_le⟩
            · cases known

/-- A piece has room for as much reading as it takes. -/
theorem weight_le {dialect : Dialect} {reader : Reader} {piece : Piece}
    (found : scan dialect reader.unread = some piece) (known : piece.outcome = .ok kind) :
    kind ≠ .eof ∧ (if kind = .punct .greaterGreater then 2 else 1) ≤
      (reader.skip piece.length).position.offset - reader.position.offset := by
  have nonempty : reader.unread ≠ [] := by
    intro empty
    simp [empty, scan] at found
  have further := reader.lt_offset_skip (length_scan_pos found) nonempty
  rcases kind_of_scan found known with worded | ⟨mark, rfl, length, within⟩
  · have other : kind ≠ .eof ∧ kind ≠ .punct .greaterGreater := by
      constructor <;> (rintro rfl; cases worded)
    rw [if_neg other.2]
    exact ⟨other.1, by omega⟩
  · refine ⟨by simp, ?_⟩
    have bytes := reader.add_le_offset_skip within
    rw [← length] at bytes
    split
    · rename_i shift
      obtain rfl := TokenKind.punct.inj shift
      have two : piece.length = 2 := length
      omega
    · omega

end Piece

/-- What is read next stands behind what was read before, and has room for as much
reading as it takes; the end of the text stands behind its last byte. -/
theorem Reader.next_spans (dialect : Dialect) (reader : Reader) :
    (reader.next dialect).reader.finish = reader.finish ∧
      reader.position.offset ≤ (reader.next dialect).token.span.offset ∧
      ((reader.next dialect).token.kind = .eof →
        (reader.next dialect).token.span.offset = reader.finish) ∧
      ((reader.next dialect).token.kind ≠ .eof →
        Cursor.tokenWeight (reader.next dialect).token ≤
            (reader.next dialect).token.span.length ∧
          (reader.next dialect).token.span.stop =
            (reader.next dialect).reader.position.offset) := by
  obtain ⟨finish, offset, unclosed⟩ := reader.skipTrivia_spans
  unfold Reader.next
  split
  · rename_i error rest skipped
    simp only [skipped] at finish offset unclosed
    obtain ⟨before, ends, positive⟩ := unclosed error rfl
    exact ⟨finish, before, by simp, fun _ => ⟨positive, ends⟩⟩
  · rename_i start skipped
    simp only [skipped] at finish offset
    split
    · rename_i ended
      have empty : start.unread = [] := by
        cases unread : start.unread with
        | nil => rfl
        | cons character rest => simp [unread, Piece.scan] at ended
      refine ⟨finish, offset, fun _ => ?_, by simp⟩
      rw [← finish]
      simp [Reader.finish, empty, Span.point]
    · rename_i piece found
      have nonempty : start.unread ≠ [] := by
        intro empty
        simp [empty, Piece.scan] at found
      have further := start.lt_offset_skip (Piece.length_scan_pos found) nonempty
      have same := (start.finish_skip piece.length).trans finish
      have ends : (Span.between start.position (start.skip piece.length).position).stop =
          (start.skip piece.length).position.offset := by
        simp only [Span.between, Span.stop]
        omega
      split
      · rename_i kind known
        obtain ⟨more, room⟩ := Piece.weight_le found known
        exact ⟨same, offset, fun ended => absurd ended more, fun _ => ⟨room, ends⟩⟩
      · refine ⟨same, offset, by simp, fun _ => ⟨?_, ends⟩⟩
        simp only [Cursor.tokenWeight, Span.between]
        rw [if_neg (by simp)]
        omega

/-- The tokens of a text, its end apart, stand one behind the other. -/
theorem TokenStream.spaced_ofReader (dialect : Dialect) (reader : Reader) :
    ∃ body final, (ofReader dialect reader).tokens = body ++ [final] ∧ final.kind = .eof ∧
      final.span.offset = reader.finish ∧
        Spaced reader.finish reader.position.offset body := by
  fun_induction ofReader dialect reader with
  | case1 reader reading ended =>
      obtain ⟨_, offset, final, _⟩ := reader.next_spans dialect
      have last := final ended
      refine ⟨[], reading.token, rfl, ended, last, ?_⟩
      change reader.position.offset ≤ reader.finish
      omega
  | case2 reader reading more ih =>
      obtain ⟨finish, offset, _, spans⟩ := reader.next_spans dialect
      obtain ⟨room, ends⟩ := spans more
      obtain ⟨body, final, tokens, kind, last, spaced⟩ := ih
      refine ⟨reading.token :: body, final, ?_, kind, last.trans finish, ?_⟩
      · simp [TokenStream.cons, tokens]
      · refine ⟨offset, room, ?_⟩
        rw [ends, ← finish]
        exact spaced

/-! ## Moving over tokens -/

namespace Cursor

variable {limit : Nat} {start cursor : Cursor}

/-- The offset behind the last token read. -/
def reach (cursor : Cursor) : Nat :=
  match cursor.consumed with
  | [] => 0
  | token :: _ => token.span.stop

def offset (cursor : Cursor) : Nat :=
  cursor.peek.span.offset

/-- Whether the tokens ahead stand behind those read, up to the end of the text. -/
structure Aligned (limit : Nat) (cursor : Cursor) : Prop where
  spaced : Spaced limit cursor.reach cursor.unread
  final : cursor.final.span.offset = limit

theorem Aligned.reach_le_offset (aligned : cursor.Aligned limit) :
    cursor.reach ≤ cursor.offset := by
  obtain ⟨spaced, final⟩ := aligned
  unfold offset peek ahead
  cases unread : cursor.unread with
  | nil =>
      rw [unread] at spaced
      simpa [final] using spaced.le_limit
  | cons token rest =>
      rw [unread] at spaced
      exact spaced.1

theorem stop_previousSpan (read : 0 < cursor.reach) :
    cursor.previousSpan.stop = cursor.reach := by
  unfold previousSpan reach at *
  cases consumed : cursor.consumed with
  | nil => simp [consumed] at read
  | cons token rest => rfl

def passed (cursor : Cursor) (token : Token) (rest : List Token) : Cursor :=
  { cursor with consumed := token :: cursor.consumed, unread := rest }

theorem skip_cons {token : Token} {rest : List Token} (unread : cursor.unread = token :: rest)
    (count : Nat) : cursor.skip (count + 1) = (cursor.passed token rest).skip count := by
  simp [skip, passed, unread]

theorem skip_nil (unread : cursor.unread = []) (count : Nat) : cursor.skip count = cursor := by
  obtain ⟨consumed, _, final⟩ := cursor
  obtain rfl := unread
  simp [skip]

/-- What is gained on the way from one place to another: the cursor does not go back, and
where less is left to read, it has read the first token or a part of it. -/
structure Gains (start cursor : Cursor) : Prop where
  reach : start.reach ≤ cursor.reach
  offset : start.offset ≤ cursor.offset
  read : cursor.weight < start.weight → start.offset < cursor.reach

theorem Gains.refl (cursor : Cursor) : cursor.Gains cursor :=
  ⟨Nat.le_refl _, Nat.le_refl _, fun less => absurd less (Nat.lt_irrefl _)⟩

theorem Gains.trans {last : Cursor} (left : start.Gains cursor) (right : cursor.Gains last)
    (less : cursor.weight ≤ start.weight) : start.Gains last where
  reach := Nat.le_trans left.reach right.reach
  offset := Nat.le_trans left.offset right.offset
  read shorter := by
    rcases Nat.lt_or_eq_of_le less with before | same
    · exact Nat.lt_of_lt_of_le (left.read before) right.reach
    · exact Nat.lt_of_le_of_lt left.offset (right.read (by omega))

theorem Aligned.passed (aligned : cursor.Aligned limit) {token : Token} {rest : List Token}
    (unread : cursor.unread = token :: rest) :
    (cursor.passed token rest).Aligned limit ∧ cursor.Gains (cursor.passed token rest) := by
  obtain ⟨spaced, final⟩ := aligned
  rw [unread] at spaced
  obtain ⟨before, room, others⟩ := spaced
  have aligned : (cursor.passed token rest).Aligned limit := ⟨others, final⟩
  have positive := tokenWeight_pos token
  have here : cursor.offset = token.span.offset := by simp [offset, peek, ahead, unread]
  have behind : cursor.offset < (cursor.passed token rest).reach := by
    change _ < token.span.stop
    unfold Span.stop
    omega
  have further := aligned.reach_le_offset
  exact ⟨aligned, by omega, by omega, fun _ => behind⟩

theorem Aligned.skip (aligned : cursor.Aligned limit) (count : Nat) :
    (cursor.skip count).Aligned limit ∧ cursor.Gains (cursor.skip count) := by
  induction count generalizing cursor with
  | zero => exact ⟨aligned, .refl cursor⟩
  | succ count ih =>
      cases unread : cursor.unread with
      | nil =>
          rw [skip_nil unread]
          exact ⟨aligned, .refl cursor⟩
      | cons token rest =>
          obtain ⟨alignedNext, gains⟩ := aligned.passed unread
          obtain ⟨alignedLast, further⟩ := ih alignedNext
          rw [skip_cons unread]
          refine ⟨alignedLast, gains.trans further ?_⟩
          simp [weight, Cursor.passed, unread, totalWeight]

/-- The halves of a token that is split stand where it did. -/
theorem Aligned.splitShift (aligned : cursor.Aligned limit)
    (closes : cursor.peek.kind = .punct .greaterGreater) :
    cursor.splitShift.Aligned limit ∧ cursor.Gains cursor.splitShift := by
  cases unread : cursor.unread with
  | nil =>
      have same : cursor.splitShift = cursor := by simp [Cursor.splitShift, unread]
      rw [same]
      exact ⟨aligned, .refl cursor⟩
  | cons token rest =>
      have halves : cursor.splitShift = { cursor with unread := shiftHalves token ++ rest } := by
        simp [Cursor.splitShift, unread]
      have kind : token.kind = .punct .greaterGreater := by
        simpa [peek, ahead, unread] using closes
      have same := weight_splitShift cursor closes
      obtain ⟨spaced, final⟩ := aligned
      rw [unread] at spaced
      obtain ⟨before, room, others⟩ := spaced
      have two : 2 ≤ token.span.length := by simpa [tokenWeight, kind] using room
      have place : cursor.splitShift.offset = cursor.offset := by
        rw [halves]
        simp [offset, peek, ahead, unread, shiftHalves]
      rw [halves] at same place ⊢
      refine ⟨⟨⟨before, ?_, ?_, ?_, ?_⟩, final⟩, Nat.le_refl _, by omega, by omega⟩
      · simp [tokenWeight]
      · exact Nat.le_refl _
      · simp [tokenWeight]
      · apply others.mono
        simp only [Span.stop]
        omega

theorem Aligned.moves (aligned : start.Aligned limit) (moves : start.Moves cursor) :
    cursor.Aligned limit ∧ start.Gains cursor := by
  induction moves with
  | refl => exact ⟨aligned, .refl start⟩
  | skip moves _ ih =>
      obtain ⟨alignedLast, further⟩ := ih.1.skip _
      exact ⟨alignedLast, ih.2.trans further moves.weight_le⟩
  | split moves closes ih =>
      obtain ⟨alignedLast, further⟩ := ih.1.splitShift closes
      exact ⟨alignedLast, ih.2.trans further moves.weight_le⟩

end Cursor

/-- The cursor in front of a source stands in front of tokens between its first byte and
its last. -/
theorem ParseState.aligned_startCursor (dialect : Dialect) (source : String) :
    (startCursor (TokenStream.ofSource dialect source)).Aligned source.utf8ByteSize := by
  obtain ⟨body, final, tokens, kind, last, spaced⟩ :=
    TokenStream.spaced_ofReader dialect (.ofSource source)
  have whole : (Reader.ofSource source).finish = source.utf8ByteSize := by
    simp [Reader.finish, Reader.ofSource]
  rw [whole] at last spaced
  have valid : (TokenStream.ofSource dialect source).tokens.filter (·.kind != .invalid) =
      body.filter (·.kind != .invalid) ++ [final] := by
    simp [TokenStream.ofSource, tokens, kind]
  have unread : (startCursor (TokenStream.ofSource dialect source)).unread =
      (body.filter (·.kind != .invalid)).filter (·.kind != .eof) := by
    simp only [startCursor, Cursor.ofTokens, valid, List.filter_append]
    simp [kind]
  constructor
  · rw [unread]
    exact (spaced.filter _).filter _
  · simp only [startCursor, Cursor.ofTokens, valid]
    simpa using last

end DeclTree
