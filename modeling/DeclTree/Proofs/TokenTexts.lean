import DeclTree.Proofs.Provenance
import DeclTree.Proofs.Respelling
import DeclTree.Proofs.SourcePositions

/-!
# The texts of tokens

A parse reads the tokens of a source, and in place of two closing marks that were read as one it
may read their halves.  Every token it comes across, halves included, has the text of its span,
and is what is read at the front of that text.  So its kind tells something of its text: a
punctuator is spelled one way, and nothing but a literal between quotes goes over a line.
-/

namespace DeclTree

open String (utf8Len)

/-! ## The end of a delimited piece -/

namespace Extent

/-- A quoted literal ends with its quote. -/
theorem quoted_last {quote : Char} {text : List Char} {length : Nat}
    (closed : quoted quote text = .closed length) : [quote] <:+ text.take length := by
  fun_induction quoted quote text generalizing length with
  | case1 | case2 | case4 => cases closed
  | case3 escaped rest ih =>
      obtain ⟨inner, further, rfl⟩ := shift_eq_closed.1 closed
      rw [Nat.add_comm, List.take_succ_cons, List.take_succ_cons]
      exact (ih further).trans ((List.suffix_cons _ _).trans (List.suffix_cons _ _))
  | case5 rest =>
      obtain rfl := Extent.closed.inj closed
      simp
  | case6 character rest _ _ _ _ ih =>
      obtain ⟨inner, further, rfl⟩ := shift_eq_closed.1 closed
      rw [Nat.add_comm, List.take_succ_cons]
      exact (ih further).trans (List.suffix_cons _ _)

/-- A text that goes through a mark ends with it. -/
theorem through_last {mark text : List Char} {length : Nat}
    (closed : through mark text = .closed length) : mark <:+ text.take length := by
  induction text generalizing length with
  | nil => cases closed
  | cons character rest ih =>
      unfold through at closed
      split at closed
      · rename_i starts
        obtain rfl := Extent.closed.inj closed
        rw [← List.prefix_iff_eq_take.1 (List.isPrefixOf_iff_prefix.1 starts)]
      · obtain ⟨inner, further, rfl⟩ := shift_eq_closed.1 closed
        rw [Nat.add_comm, List.take_succ_cons]
        exact (ih further).trans (List.suffix_cons _ _)

theorem rawString_last {text : List Char} {length : Nat}
    (closed : rawString text = .closed length) : ['"'] <:+ text.take length := by
  unfold rawString at closed
  simp only at closed
  split at closed
  · rename_i body opened
    obtain ⟨inner, further, rfl⟩ := shift_eq_closed.1 closed
    have behind : text.drop ((text.takeWhile isDelimiter).length + 1) = body := by
      rw [← List.drop_drop, opened]
      rfl
    rw [List.take_add, behind]
    exact ((List.suffix_append _ _).trans (through_last further)).trans (List.suffix_append _ _)
  · cases closed

end Extent

/-! ## Reading a piece -/

namespace Piece

variable {dialect : Dialect} {upcoming : List Char} {piece : Piece} {kind : TokenKind}

/-- A punctuator has the characters of its spelling. -/
theorem take_eq_spelling {mark : Punct} (found : scan dialect upcoming = some piece)
    (known : piece.outcome = .ok (.punct mark)) :
    upcoming.take piece.length = mark.spelling := by
  have starts := spelling_prefix_of_scan found known
  rcases kind_of_scan found known with worded | ⟨other, same, length, _⟩
  · cases worded
  · obtain rfl := TokenKind.punct.inj same
    rw [length]
    exact (List.prefix_iff_eq_take.1 starts).symm

theorem newline_notMem_number (hexadecimal : Bool) (text : List Char) :
    '\n' ∉ text.take (numberLength hexadecimal text) := by
  fun_induction numberLength hexadecimal text with
  | case1 | case3 | case6 => simp
  | case2 character plain =>
      rintro member
      obtain rfl := List.mem_singleton.1 member
      cases plain
  | case4 character sign rest signed ih =>
      rw [Nat.add_comm, List.take_succ_cons, List.take_succ_cons, List.mem_cons, List.mem_cons]
      rintro (rfl | rfl | later)
      · cases hexadecimal <;> cases signed
      · simp at signed
      · exact ih later
  | case5 character following rest unsigned plain ih =>
      rw [Nat.add_comm, List.take_succ_cons, List.mem_cons]
      rintro (rfl | later)
      · cases plain
      · exact ih later

/-- What is read as a literal between quotes is a string or a character. -/
theorem kind_quoted {lead : Nat} {quote : Char} {body : List Char}
    (known : (quoted lead quote body).outcome = .ok kind) :
    kind = .literal .string ∨ kind = .literal .character := by
  have given {form : LiteralKind} {cause : LexCause} {extent : Extent}
      (outcome : (ofExtent (.literal form) cause extent).outcome = .ok kind) :
      kind = .literal form := by
    cases extent with
    | closed length => exact (Except.ok.inj outcome).symm
    | cut length => cases outcome
  unfold quoted at known
  simp only at known
  split at known
  · exact .inl (given known)
  · exact .inr (given known)

theorem kind_rawString {lead : Nat} {body : List Char}
    (known : (rawString lead body).outcome = .ok kind) : kind = .literal .string := by
  unfold rawString at known
  cases extent : (Extent.rawString body).shift lead with
  | closed length =>
      rw [extent] at known
      exact (Except.ok.inj known).symm
  | cut length =>
      rw [extent] at known
      cases known

/-- A word has letters only, unless it introduces a literal. -/
theorem word_letters (known : (word dialect upcoming).outcome = .ok kind) :
    (kind = .literal .string ∨ kind = .literal .character) ∨
      ∀ character ∈ upcoming.take (word dialect upcoming).length,
        isWordPart character = true := by
  have plain {length : Nat} (same : length = (upcomingWord upcoming).length) :
      ∀ character ∈ upcoming.take length, isWordPart character = true := by
    rw [same, upcomingWord, ← List.prefix_iff_eq_take.1 (List.takeWhile_prefix isWordPart)]
    exact List.all_eq_true.1 List.all_takeWhile
  unfold word at known ⊢
  simp only at known ⊢
  split at known
  · split at known
    · exact .inl (.inl (kind_rawString known))
    · split at known
      · exact .inl (kind_quoted known)
      · rename_i raw marked
        rw [if_neg raw, if_neg marked]
        exact .inr (plain rfl)
  · split at known
    · exact .inl (kind_quoted known)
    · rename_i marked
      rw [if_neg marked]
      exact .inr (plain rfl)
  · exact .inr (plain rfl)

/-- Only a literal between quotes goes over a line. -/
theorem quoted_of_newline (found : scan dialect upcoming = some piece)
    (known : piece.outcome = .ok kind) (broken : '\n' ∈ upcoming.take piece.length) :
    kind = .literal .string ∨ kind = .literal .character := by
  cases upcoming with
  | nil => cases found
  | cons character rest =>
      simp only [scan, Option.some.injEq] at found
      subst found
      split at known
      · exact kind_quoted known
      · rename_i unquoted
        rw [if_neg unquoted] at broken
        split at known
        · rename_i digits
          rw [if_pos digits] at broken
          exact absurd broken (newline_notMem_number _ _)
        · rename_i plain
          rw [if_neg plain] at broken
          split at known
          · rename_i letter
            rw [if_pos letter] at broken
            rcases word_letters known with literal | letters
            · exact literal
            · cases letters _ broken
          · rename_i other
            rw [if_neg other] at broken
            unfold punctuator at known broken
            split at known
            · rename_i mark longest
              rw [longest] at broken
              have starts := prefix_of_longest? longest
              rw [← List.prefix_iff_eq_take.1 starts] at broken
              cases mark <;> simp [Punct.spelling] at broken
            · cases known

/-! ## The last character of a literal -/

theorem quoted_last {lead : Nat} {quote : Char} {body : List Char}
    (known : (quoted lead quote body).outcome = .ok kind) : ∃ inner,
      (quoted lead quote body).length = lead + inner ∧ [quote] <:+ body.take inner := by
  obtain ⟨inner, closed⟩ : ∃ inner, Extent.quoted quote body = .closed inner := by
    unfold quoted at known
    simp only at known
    split at known
    · exact exists_closed known
    · exact exists_closed known
  refine ⟨inner, ?_, Extent.quoted_last closed⟩
  unfold quoted
  simp only [closed, Extent.shift]
  split <;> rfl

theorem rawString_last {lead : Nat} {body : List Char}
    (known : (rawString lead body).outcome = .ok kind) : ∃ inner,
      (rawString lead body).length = lead + inner ∧ ['"'] <:+ body.take inner := by
  obtain ⟨inner, closed⟩ := exists_closed known
  refine ⟨inner, ?_, Extent.rawString_last closed⟩
  rw [rawString, closed]
  rfl

theorem suffix_take_add {text body mark : List Char} {count inner : Nat}
    (behind : text.drop count = body) (ends : mark <:+ body.take inner) :
    mark <:+ text.take (count + inner) := by
  rw [List.take_add, behind]
  exact ends.trans (List.suffix_append _ _)

theorem word_last (known : (word dialect upcoming).outcome = .ok kind)
    (literal : kind = .literal .string ∨ kind = .literal .character) :
    ∃ quote, (quote = '"' ∨ quote = '\'') ∧
      [quote] <:+ upcoming.take (word dialect upcoming).length := by
  have plain : wordKind dialect (upcomingWord upcoming) ≠ kind := by
    rintro rfl
    unfold wordKind at literal
    split at literal <;> simp at literal
  have body {quote : Char} {rest : List Char}
      (behind : upcoming.drop (upcomingWord upcoming).length = quote :: rest) :
      upcoming.drop ((upcomingWord upcoming).length + 1) = rest := by
    rw [← List.drop_drop, behind]
    rfl
  unfold word at known ⊢
  simp only at known ⊢
  split at known
  · rename_i rest behind
    split at known
    · rename_i raw
      obtain ⟨inner, length, ends⟩ := rawString_last known
      rw [if_pos raw, length]
      exact ⟨'"', .inl rfl, suffix_take_add (body behind) ends⟩
    · rename_i cooked
      split at known
      · rename_i marked
        obtain ⟨inner, length, ends⟩ := quoted_last known
        rw [if_neg cooked, if_pos marked, length]
        exact ⟨'"', .inl rfl, suffix_take_add (body behind) ends⟩
      · exact absurd (Except.ok.inj known) plain
  · rename_i rest behind
    split at known
    · rename_i marked
      obtain ⟨inner, length, ends⟩ := quoted_last known
      rw [if_pos marked, length]
      exact ⟨'\'', .inr rfl, suffix_take_add (body behind) ends⟩
    · exact absurd (Except.ok.inj known) plain
  · exact absurd (Except.ok.inj known) plain

/-- A literal between quotes ends with one. -/
theorem last_of_literal (found : scan dialect upcoming = some piece)
    (known : piece.outcome = .ok kind)
    (literal : kind = .literal .string ∨ kind = .literal .character) :
    ∃ quote, (quote = '"' ∨ quote = '\'') ∧ [quote] <:+ upcoming.take piece.length := by
  cases upcoming with
  | nil => cases found
  | cons character rest =>
      simp only [scan, Option.some.injEq] at found
      subst found
      split at known
      · rename_i quote
        obtain ⟨inner, length, ends⟩ := quoted_last known
        rw [if_pos quote, length]
        exact ⟨character, quote, suffix_take_add rfl ends⟩
      · rename_i unquoted
        rw [if_neg unquoted]
        split at known
        · obtain rfl := Except.ok.inj known
          split at literal <;> simp at literal
        · rename_i wordy
          rw [if_neg wordy]
          split at known
          · rename_i letter
            rw [if_pos letter]
            exact word_last known literal
          · unfold punctuator at known
            split at known
            · obtain rfl := Except.ok.inj known
              simp at literal
            · cases known

end Piece

/-! ## Tokens that are read -/

/-- Whether a token is what is read at the front of some text. -/
def Token.Scanned (dialect : Dialect) (token : Token) : Prop :=
  ∃ upcoming piece, Piece.scan dialect upcoming = some piece ∧ piece.outcome = .ok token.kind ∧
    token.lexeme.toList = upcoming.take piece.length

namespace Token.Scanned

variable {dialect : Dialect} {token : Token}

/-- A punctuator is spelled one way. -/
theorem toList_punct (scanned : token.Scanned dialect) {mark : Punct}
    (kind : token.kind = .punct mark) : token.lexeme.toList = mark.spelling := by
  obtain ⟨upcoming, piece, found, known, text⟩ := scanned
  rw [text]
  exact Piece.take_eq_spelling found (kind ▸ known)

theorem quoted_of_newline (scanned : token.Scanned dialect) (broken : '\n' ∈ token.lexeme.toList) :
    token.kind = .literal .string ∨ token.kind = .literal .character := by
  obtain ⟨upcoming, piece, found, known, text⟩ := scanned
  exact Piece.quoted_of_newline found known (text ▸ broken)

/-- Either half of two closing marks is a closing mark. -/
theorem half (dialect : Dialect) {half : Token} (member : half ∈ Cursor.shiftHalves token) :
    half.Scanned dialect := by
  have mark : ">".toList = ['>'] := by decide
  have whole : half.kind = .punct .greater ∧ half.lexeme.toList = ['>'] := by
    simp only [Cursor.shiftHalves, List.mem_cons, List.not_mem_nil, or_false] at member
    rcases member with rfl | rfl <;> exact ⟨rfl, mark⟩
  refine ⟨['>'], ⟨1, .ok (.punct .greater)⟩, rfl, ?_, ?_⟩
  · rw [whole.1]
  · rw [whole.2]
    rfl

end Token.Scanned

theorem Reader.scanned_next {dialect : Dialect} {reader : Reader}
    (more : (reader.next dialect).token.kind ≠ .eof)
    (valid : (reader.next dialect).token.kind ≠ .invalid) :
    (reader.next dialect).token.Scanned dialect := by
  unfold next at more valid ⊢
  split at valid
  · exact absurd rfl valid
  · rename_i start skipped
    rw [skipped] at more
    split at valid
    · rename_i ended
      simp [ended] at more
    · rename_i piece found
      split at valid
      · rename_i kind known
        exact ⟨start.unread, piece, found, known, String.toList_ofList⟩
      · exact absurd rfl valid

theorem TokenStream.scanned_ofReader (dialect : Dialect) (reader : Reader) :
    ∀ token ∈ (ofReader dialect reader).tokens, token.kind ≠ .eof → token.kind ≠ .invalid →
      token.Scanned dialect := by
  fun_induction ofReader dialect reader with
  | case1 reader reading ended =>
      intro token member more
      obtain rfl := List.mem_singleton.1 member
      exact absurd ended more
  | case2 reader reading others ih =>
      intro token member more valid
      rcases List.mem_cons.1 member with rfl | later
      · exact Reader.scanned_next more valid
      · exact ih token later more valid

/-! ## Where a token has its text -/

/-- Whether a token has the text of its span, on the line that it gives. -/
def Token.Placed (source : String) (token : Token) : Prop :=
  ∃ front rest, source.toList = front ++ (token.lexeme.toList ++ rest) ∧
    token.span.offset = utf8Len front ∧
    token.span.stop = utf8Len (front ++ token.lexeme.toList) ∧
    token.span.line = 1 + front.count '\n'

/-- Texts that a source starts with are told apart by their lengths. -/
theorem eq_of_utf8Len {first second whole : List Char} (starts : first <+: whole)
    (begins : second <+: whole) (same : utf8Len first = utf8Len second) : first = second := by
  have empty {front more : List Char} (equal : utf8Len front = utf8Len (front ++ more)) :
      more = [] := by
    cases more with
    | nil => rfl
    | cons character rest =>
        rw [String.utf8Len_append, String.utf8Len_cons] at equal
        have positive := character.utf8Size_pos
        omega
  rcases List.prefix_or_prefix_of_prefix starts begins with ⟨more, rfl⟩ | ⟨more, rfl⟩
  · rw [empty same, List.append_nil]
  · rw [empty same.symm, List.append_nil]

/-- The tokens of a text that are no errors. -/
def TokenStream.valid (stream : TokenStream) : List Token :=
  stream.tokens.filter (·.kind != .invalid)

theorem Token.placed_of_valid {dialect : Dialect} {source : String} {token : Token}
    (member : token ∈ (TokenStream.ofSource dialect source).valid) : token.Placed source := by
  obtain ⟨inside, right⟩ := List.mem_filter.1 member
  have valid : token.kind ≠ .invalid := by simpa using right
  have covers := TokenStream.covers_ofReader dialect (.ofSource source) [] ⟨rfl, rfl⟩
  obtain ⟨front, gap, piece, rest, split, stands⟩ := covers.stands token inside
  obtain ⟨start, starts, offset, line, _⟩ :=
    ((TokenStream.located_ofSource dialect source).1 token inside).span.start
  have whole : source.toList = (front ++ gap) ++ (piece ++ rest) := by
    simpa [Reader.ofSource] using split
  have same : start = front ++ gap := by
    apply eq_of_utf8Len starts (whole ▸ List.prefix_append _ _)
    rw [← offset, stands.offset]
  have text : token.lexeme.toList = piece := by
    rw [stands.lexeme valid, String.toList_ofList]
  refine ⟨front ++ gap, rest, by rw [text, whole], stands.offset, ?_, same ▸ line⟩
  rw [Span.stop, stands.offset, stands.length, text, ← String.utf8Len_append]

/-- The end of a text has no characters. -/
theorem Token.lexeme_of_eof {dialect : Dialect} {source : String} {token : Token}
    (member : token ∈ (TokenStream.ofSource dialect source).valid) (ended : token.kind = .eof) :
    token.lexeme = "" := by
  have covers := TokenStream.covers_ofReader dialect (.ofSource source) [] ⟨rfl, rfl⟩
  obtain ⟨_, _, piece, _, _, stands⟩ := covers.stands token (List.mem_of_mem_filter member)
  rw [stands.lexeme (by simp [ended]), stands.ended.1 ended, String.ofList_nil]

/-- The halves of two closing marks have the texts of their spans. -/
theorem Token.Placed.half {source : String} {token half : Token} (placed : token.Placed source)
    (spelled : token.lexeme.toList = ['>', '>']) (member : half ∈ Cursor.shiftHalves token) :
    half.Placed source := by
  obtain ⟨front, rest, whole, offset, finish, line⟩ := placed
  rw [spelled] at whole
  have size : '>'.utf8Size = 1 := by decide
  have mark : ">".toList = ['>'] := by decide
  simp only [Cursor.shiftHalves, List.mem_cons, List.not_mem_nil, or_false] at member
  rcases member with rfl | rfl
  · refine ⟨front, '>' :: rest, by rw [mark, whole]; rfl, offset, ?_, line⟩
    simp [Span.stop, offset, size]
  · refine ⟨front ++ ['>'], rest, ?_, ?_, ?_, ?_⟩
    · simpa using whole
    · simp [offset, size]
    · simp [Span.stop, offset, size]
    · simpa using line

/-! ## The tokens around a cursor -/

/-- Whether a token is one of a list, or half of one that may be split. -/
def Token.PartOf (tokens : List Token) (token : Token) : Prop :=
  token ∈ tokens ∨ ∃ shift ∈ tokens, shift.kind = .punct .greaterGreater ∧
    token ∈ Cursor.shiftHalves shift

namespace Token.PartOf

variable {dialect : Dialect} {source : String} {tokens : List Token} {token : Token}

/-- What may be split is no half. -/
theorem half (part : token.PartOf tokens) (shift : token.kind = .punct .greaterGreater)
    {half : Token} (member : half ∈ Cursor.shiftHalves token) : half.PartOf tokens := by
  rcases part with inside | ⟨whole, _, _, piece⟩
  · exact .inr ⟨token, inside, shift, member⟩
  · rw [Cursor.kind_of_mem_shiftHalves piece] at shift
    cases shift

theorem scanned (part : token.PartOf (TokenStream.ofSource dialect source).valid)
    (more : token.kind ≠ .eof) : token.Scanned dialect := by
  rcases part with inside | ⟨whole, _, _, piece⟩
  · obtain ⟨member, right⟩ := List.mem_filter.1 inside
    exact TokenStream.scanned_ofReader dialect _ token member more (by simpa using right)
  · exact .half dialect piece

/-- Only a literal between quotes goes over a line. -/
theorem quoted_of_newline (part : token.PartOf (TokenStream.ofSource dialect source).valid)
    (broken : '\n' ∈ token.lexeme.toList) :
    token.kind = .literal .string ∨ token.kind = .literal .character := by
  by_cases ended : token.kind = .eof
  · rcases part with inside | ⟨whole, _, _, piece⟩
    · rw [lexeme_of_eof inside ended] at broken
      cases broken
    · rw [Cursor.kind_of_mem_shiftHalves piece] at ended
      cases ended
  · exact (part.scanned ended).quoted_of_newline broken

theorem placed (part : token.PartOf (TokenStream.ofSource dialect source).valid) :
    token.Placed source := by
  rcases part with inside | ⟨whole, member, shift, piece⟩
  · exact placed_of_valid inside
  · have read : whole.Scanned dialect := by
      apply scanned (.inl member)
      rw [shift]
      decide
    exact (placed_of_valid member).half (read.toList_punct shift) piece

end Token.PartOf

/-- The tokens of a list and the halves of those that may be split, with any spans and texts. -/
def Origin.ofTokens (tokens : List Token) : Origin where
  token := Token.PartOf tokens
  span _ := True
  text _ := True
  half part shift member := part.half shift member
  place _ := trivial
  merge _ _ := trivial
  dots _ _ := trivial
  destructor _ _ _ _ := trivial
  spelled _ := trivial

/-- The cursor in front of a source stands among its valid tokens. -/
theorem ParseState.parts_startCursor (dialect : Dialect) (source : String) :
    (startCursor (TokenStream.ofSource dialect source)).From
      (.ofTokens (TokenStream.ofSource dialect source).valid) :=
  from_startCursor fun _ member right => .inl (List.mem_filter.2 ⟨member, by simpa using right⟩)

end DeclTree
