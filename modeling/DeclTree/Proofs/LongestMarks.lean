import DeclTree.Proofs.Overrun
import DeclTree.Proofs.TokenTexts

/-!
# The longest mark is read

Wherever a token is read and neither a literal nor a word starts, the longest mark that fits is
taken.  It can be told by looking at most two characters ahead, although the spellings of more than
fifty marks share their beginnings.  Where no mark fits the character is unexpected, and nothing
else is reported as such.
-/

namespace DeclTree

open String (utf8Len)

/-! ## The longest of the marks -/

namespace Punct

/-- Whether a mark is the longest one that a text starts with. -/
structure IsLongest (mark : Punct) (text : List Char) : Prop where
  starts : mark.spelling <+: text
  longest : ∀ other : Punct, other.spelling <+: text →
    other.spelling.length ≤ mark.spelling.length

theorem longest?_self (mark : Punct) : longest? mark.spelling = some mark := by
  cases mark <;> rfl

theorem spelling_injective : Function.Injective spelling := by
  intro first second same
  apply Option.some.inj
  rw [← longest?_self first, ← longest?_self second, same]

theorem IsLongest.unique {text : List Char} {first second : Punct} (left : first.IsLongest text)
    (right : second.IsLongest text) : first = second := by
  apply spelling_injective
  have shorter := List.prefix_of_prefix_length_le left.starts right.starts
    (right.longest first left.starts)
  exact shorter.eq_of_length_le (left.longest second right.starts)

end Punct

/-! ## Marks and unexpected characters at the front of a text -/

namespace Piece

variable {dialect : Dialect} {text : List Char}

end Piece

/-! ## What stands at a place of a source -/

/-- Whether a text is what a source has from a byte offset on. -/
def TextFrom (source : String) (offset : Nat) (text : List Char) : Prop :=
  ∃ front, source.toList = front ++ text ∧ utf8Len front = offset

theorem TextFrom.unique {source : String} {offset : Nat} {first second : List Char}
    (left : TextFrom source offset first) (right : TextFrom source offset second) :
    first = second := by
  obtain ⟨front, whole, rfl⟩ := left
  obtain ⟨other, again, same⟩ := right
  obtain rfl := eq_of_utf8Len ⟨_, again.symm⟩ ⟨_, whole.symm⟩ same
  exact List.append_cancel_left (whole.symm.trans again)

/-- What is read in front of a text once blanks, comments and directives are passed over: a comment
that is not closed, the end, a token, or what is no token. -/
inductive ReadAs (dialect : Dialect) (text : List Char) (token : Token) : Option LexError → Prop
  | comment (opens : ['/', '*'] <+: text) (kind : token.kind = .invalid) :
      ReadAs dialect text token (some ⟨.unterminatedComment, token.span⟩)
  | final (ended : text = []) (kind : token.kind = .eof) : ReadAs dialect text token none
  | token {piece : Piece} (closed : ¬ ['/', '*'] <+: text)
      (found : Piece.scan dialect text = some piece) (known : piece.outcome = .ok token.kind)
      (lexeme : token.lexeme = String.ofList (text.take piece.length)) :
      ReadAs dialect text token none
  | invalid {piece : Piece} {cause : LexCause} (found : Piece.scan dialect text = some piece)
      (failed : piece.outcome = .error cause) (kind : token.kind = .invalid) :
      ReadAs dialect text token (some ⟨cause, token.span⟩)

namespace ReadAs

variable {dialect : Dialect} {text : List Char} {token : Token} {error : Option LexError}

end ReadAs

namespace Reader

variable {source : String} {reader : Reader}

theorem Counts.textFrom (counts : reader.Counts source) :
    TextFrom source reader.position.offset reader.unread := by
  obtain ⟨front, whole, position⟩ := counts
  exact ⟨front, whole, by rw [position, Position.after_start]⟩

theorem opens_of_cut {lineIsBlank : Bool} {upcoming : List Char} {length : Nat}
    (found : skippedExtent lineIsBlank upcoming = some (.cut length)) :
    ['/', '*'] <+: upcoming := by
  unfold skippedExtent at found
  split at found
  · cases found
  · exact ⟨_, rfl⟩
  · split at found <;> cases found
  · cases found

theorem not_opens_of_none {lineIsBlank : Bool} {upcoming : List Char}
    (none : skippedExtent lineIsBlank upcoming = none) : ¬ ['/', '*'] <+: upcoming := by
  rintro ⟨rest, rfl⟩
  cases none

/-- Passing over what stands between tokens ends in front of no comment, or at one that is not
closed. -/
theorem Counts.stops (counts : reader.Counts source) :
    (∀ start, reader.skipTrivia = (none, start) → start.Counts source ∧
      ¬ ['/', '*'] <+: start.unread) ∧
    ∀ error rest, reader.skipTrivia = (some error, rest) → error.cause = .unterminatedComment ∧
      ∃ text, TextFrom source error.span.offset text ∧ ['/', '*'] <+: text := by
  fun_induction Reader.skipTrivia reader with
  | case1 reader start found =>
      refine ⟨?_, by rintro _ _ ⟨⟩⟩
      rintro _ ⟨⟩
      exact ⟨counts.skip _, not_opens_of_none found⟩
  | case2 reader start length found ih => exact ih ((counts.skip _).skip _)
  | case3 reader start length found rest =>
      have started : start.Counts source := counts.skip _
      refine ⟨by rintro _ ⟨⟩, ?_⟩
      rintro _ _ ⟨⟩
      exact ⟨rfl, start.unread, started.textFrom, opens_of_cut found⟩

/-- What is read next is read in front of what the source has from its offset on. -/
theorem Counts.reads (counts : reader.Counts source) (dialect : Dialect) :
    ∃ text, TextFrom source (reader.next dialect).token.span.offset text ∧
      ReadAs dialect text (reader.next dialect).token (reader.next dialect).error := by
  obtain ⟨plain, cut⟩ := counts.stops
  unfold Reader.next
  split
  · rename_i error rest skipped
    obtain ⟨cause, text, place, opens⟩ := cut error rest skipped
    refine ⟨text, place, ?_⟩
    have same : error = ⟨.unterminatedComment, error.span⟩ := by rw [← cause]
    rw [same]
    exact .comment opens rfl
  · rename_i start skipped
    obtain ⟨started, closed⟩ := plain start skipped
    refine ⟨start.unread, ?_⟩
    split
    · rename_i ended
      refine ⟨started.textFrom, .final ?_ rfl⟩
      cases unread : start.unread with
      | nil => rfl
      | cons character rest => simp [unread, Piece.scan] at ended
    · rename_i piece found
      split
      · rename_i kind known
        exact ⟨started.textFrom, .token closed found known rfl⟩
      · rename_i cause failed
        exact ⟨started.textFrom, .invalid found failed rfl⟩

end Reader

/-! ## All readings of a source -/

namespace TokenStream

/-- A stream is made of readings, each of what the source has from the offset of its token on. -/
theorem readings_ofReader {source : String} (dialect : Dialect) (reader : Reader)
    (counts : reader.Counts source) :
    ∃ readings : List Reading,
      (ofReader dialect reader).tokens = readings.map Reading.token ∧
      (ofReader dialect reader).errors = readings.filterMap Reading.error ∧
      ∀ reading ∈ readings, ∃ text, TextFrom source reading.token.span.offset text ∧
        ReadAs dialect text reading.token reading.error := by
  fun_induction ofReader dialect reader with
  | case1 reader reading ended =>
      refine ⟨[reading], rfl, ?_, ?_⟩
      · cases error : reading.error <;> simp [cons, error]
      · simpa using counts.reads dialect
  | case2 reader reading more ih =>
      obtain ⟨readings, tokens, errors, each⟩ := ih (counts.next dialect).1
      refine ⟨reading :: readings, ?_, ?_, ?_⟩
      · rw [cons, tokens, List.map_cons]
      · cases error : reading.error <;> simp [cons, error, errors]
      · exact List.forall_mem_cons.2 ⟨counts.reads dialect, each⟩

variable {dialect : Dialect} {source : String} {token : Token} {text : List Char}

/-- Every token is read in front of what the source has from its offset on, and what is wrong with
it is reported. -/
theorem read_of_token (member : token ∈ (ofSource dialect source).tokens) :
    ∃ text error, TextFrom source token.span.offset text ∧ ReadAs dialect text token error ∧
      ∀ failure, error = some failure → failure ∈ (ofSource dialect source).errors := by
  obtain ⟨readings, tokens, errors, each⟩ :=
    readings_ofReader dialect (.ofSource source) (Reader.counts_ofSource source)
  rw [ofSource, tokens, List.mem_map] at member
  obtain ⟨reading, listed, rfl⟩ := member
  obtain ⟨text, place, read⟩ := each reading listed
  refine ⟨text, reading.error, place, read, ?_⟩
  intro failure failed
  rw [ofSource, errors]
  exact List.mem_filterMap.2 ⟨reading, listed, failed⟩

/-- A place of a source where a token is read, and the text there: a token starts, and from the end
of an earlier one, or from the start of the source, there are only blanks, comments and
directives. -/
structure ReadsAt (stream : TokenStream) (source : String) (offset : Nat) (text : List Char) :
    Prop where
  starts : ∃ token ∈ stream.tokens, token.span.offset = offset
  behind : ∃ front gap, source.toList = front ++ gap ++ text ∧ utf8Len (front ++ gap) = offset ∧
    Trivia front gap text ∧
      (front = [] ∨ ∃ token ∈ stream.tokens, utf8Len front = token.span.stop)

theorem ReadsAt.textFrom {stream : TokenStream} {offset : Nat}
    (reads : stream.ReadsAt source offset text) : TextFrom source offset text := by
  obtain ⟨front, gap, whole, place, _⟩ := reads.behind
  exact ⟨front ++ gap, whole, place⟩

theorem ReadsAt.exists_read {offset : Nat}
    (reads : (ofSource dialect source).ReadsAt source offset text) :
    ∃ token ∈ (ofSource dialect source).tokens, token.span.offset = offset ∧
      ∃ error, ReadAs dialect text token error ∧
        ∀ failure, error = some failure → failure ∈ (ofSource dialect source).errors := by
  obtain ⟨token, member, rfl⟩ := reads.starts
  obtain ⟨other, error, place, read, reported⟩ := read_of_token member
  obtain rfl := place.unique reads.textFrom
  exact ⟨token, member, rfl, error, read, reported⟩

end TokenStream

-- Two dots are no mark, the second starts a number, and a backslash starts nothing.
example : (TokenStream.ofSource .cpp "p->*q<=>..5 >>>= \\").tokens.map (·.lexeme) =
      ["p", "->*", "q", "<=>", ".", ".5", ">>", ">=", "", ""] ∧
    (TokenStream.ofSource .cpp "p->*q<=>..5 >>>= \\").errors.map (·.cause) =
      [.unexpectedCharacter '\\'] := by
  decide +kernel

end DeclTree
