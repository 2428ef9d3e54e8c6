import DeclTree.Proofs.TokenSpans
import Mathlib.Data.List.Induction

/-!
# What stands between tokens

A text is read without loss.  Its tokens are pieces of it, and what stands between them are
blanks, comments and directives, which are described here by their form and not by how far
reading goes over them.  Whether a `#` starts a directive depends on what stands before it on
its line, tokens included, so all of this is said of a text with a text before it.
-/

namespace DeclTree

open String (utf8Len)

/-! ## Blanks, comments and directives -/

/-- Whether the last line of a text has nothing but characters that may stand before the `#`
of a directive. -/
def LineBlank (before : List Char) : Prop :=
  ∃ lines line, before = lines ++ line ∧ (lines = [] ∨ ∃ front, lines = front ++ ['\n']) ∧
    ∀ character ∈ line, isIndent character = true

/-- Whether a newline behind a text does not end the directive that the text belongs to. -/
def ContinuesLine (text : List Char) : Prop :=
  ['\\'] <:+ text ∨ ['\\', '\r'] <:+ text

/-- Whether a text starts at the end of a line. -/
def AtLineEnd (after : List Char) : Prop :=
  after = [] ∨ ∃ rest, after = '\n' :: rest

/-- What stands behind the `#` of a directive: all newlines in it continue it, and the one
behind it does not. -/
structure DirectiveBody (body after : List Char) : Prop where
  continued : ∀ front rest, body = front ++ '\n' :: rest → ContinuesLine front
  ends : AtLineEnd after
  complete : after ≠ [] → ¬ ContinuesLine body

/-- One thing that stands between tokens, by what is before it and what is behind. -/
inductive Skipped (before : List Char) : List Char → List Char → Prop
  | blank {character : Char} {after : List Char}
      (blank : character = byteOrderMark ∨ isSpace character = true) :
      Skipped before [character] after
  | lineComment {body after : List Char} (single : '\n' ∉ body) (ends : AtLineEnd after) :
      Skipped before ('/' :: '/' :: body) after
  | blockComment {body after : List Char} (first : ¬ ['*', '/'] <:+: body ++ ['*']) :
      Skipped before ('/' :: '*' :: (body ++ ['*', '/'])) after
  | directive {body after : List Char} (alone : LineBlank before)
      (formed : DirectiveBody body after) : Skipped before ('#' :: body) after

/-- Blanks, comments and directives one behind the other. -/
inductive Trivia : List Char → List Char → List Char → Prop
  | nil {before after : List Char} : Trivia before [] after
  | cons {before first rest after : List Char} (skipped : Skipped before first (rest ++ after))
      (others : Trivia (before ++ first) rest after) : Trivia before (first ++ rest) after

namespace Trivia

variable {before first second after : List Char}

theorem append (left : Trivia before first (second ++ after))
    (right : Trivia (before ++ first) second after) : Trivia before (first ++ second) after := by
  generalize behind : second ++ after = rest at left
  induction left with
  | nil => simpa using right
  | cons skipped others ih =>
      subst behind
      rw [List.append_assoc]
      refine .cons ?_ (ih ?_ rfl)
      · rwa [List.append_assoc]
      · rwa [List.append_assoc]

theorem single (skipped : Skipped before first after) : Trivia before first after := by
  have whole : Trivia before (first ++ []) after := .cons (by simpa using skipped) .nil
  simpa using whole

theorem blanks {text : List Char}
    (all : ∀ character ∈ text, character = byteOrderMark ∨ isSpace character = true) :
    Trivia before text after := by
  induction text generalizing before with
  | nil => exact .nil
  | cons character rest ih =>
      change Trivia before ([character] ++ rest) after
      refine .cons (.blank (all character List.mem_cons_self)) (ih ?_)
      intro other member
      exact all other (List.mem_cons_of_mem _ member)

end Trivia

/-! ## How far reading goes over them -/

theorem mem_take_blankLength {upcoming : List Char} {character : Char}
    (member : character ∈ upcoming.take (blankLength upcoming)) :
    character = byteOrderMark ∨ isSpace character = true := by
  have spaces {text : List Char} (inside : character ∈ text.take (text.takeWhile isSpace).length) :
      isSpace character = true := by
    rw [← List.prefix_iff_eq_take.1 (List.takeWhile_prefix isSpace)] at inside
    exact List.all_eq_true.1 List.all_takeWhile character inside
  cases upcoming with
  | nil => cases member
  | cons head rest =>
      simp only [blankLength] at member
      split at member
      · rename_i mark
        rw [Nat.add_comm, List.take_succ_cons] at member
        rcases List.mem_cons.1 member with rfl | inside
        · exact .inl mark
        · exact .inr (spaces inside)
      · exact .inr (spaces member)

/-- A block comment ends with its first closing mark. -/
theorem Extent.through_closed {text : List Char} {length : Nat}
    (closed : through ['*', '/'] text = .closed length) :
    ∃ body rest, text = body ++ ['*', '/'] ++ rest ∧ length = (body ++ ['*', '/']).length ∧
      ¬ ['*', '/'] <:+: body ++ ['*'] := by
  induction text generalizing length with
  | nil => cases closed
  | cons character tail ih =>
      unfold through at closed
      split at closed
      · rename_i starts
        obtain ⟨rest, whole⟩ := List.isPrefixOf_iff_prefix.1 starts
        refine ⟨[], rest, by simpa using whole.symm, (Extent.closed.inj closed).symm, ?_⟩
        intro inside
        simpa using inside.length_le
      · rename_i starts
        cases further : through ['*', '/'] tail with
        | cut _ => simp [further, shift] at closed
        | closed count =>
            obtain ⟨body, rest, rfl, counted, first⟩ := ih further
            rw [further] at closed
            refine ⟨character :: body, rest, by simp, ?_, ?_⟩
            · rw [← Extent.closed.inj closed, counted]
              simp only [List.cons_append, List.length_cons]
              omega
            · intro inside
              rcases List.infix_cons_iff.1 inside with front | later
              · apply starts
                apply List.isPrefixOf_iff_prefix.2
                refine front.trans ⟨['/'] ++ rest, ?_⟩
                simp
              · exact first later

theorem continuesLine_cons {text : List Char} {character : Char} :
    ContinuesLine (character :: text) ↔
      (character = '\\' ∧ (text = [] ∨ text = ['\r'])) ∨ ContinuesLine text := by
  simp only [ContinuesLine, List.suffix_cons_iff, List.cons.injEq]
  constructor
  · rintro ((⟨rfl, rfl⟩ | last) | (⟨rfl, rfl⟩ | last))
    · exact .inl ⟨rfl, .inl rfl⟩
    · exact .inr (.inl last)
    · exact .inl ⟨rfl, .inr rfl⟩
    · exact .inr (.inr last)
  · rintro (⟨rfl, rfl | rfl⟩ | last | last)
    · exact .inl (.inl ⟨rfl, rfl⟩)
    · exact .inr (.inl ⟨rfl, rfl⟩)
    · exact .inl (.inr last)
    · exact .inr (.inr last)

/-- What continues a directive stands on the last line of it. -/
theorem continuesLine_newline {front text : List Char} :
    ContinuesLine (front ++ '\n' :: text) ↔ ContinuesLine text := by
  induction front with
  | nil => simp [continuesLine_cons]
  | cons character front ih =>
      have longer : front ++ '\n' :: text ≠ [] ∧ front ++ '\n' :: text ≠ ['\r'] := by
        cases front <;> simp
      rw [List.cons_append, continuesLine_cons, ih]
      simp [longer]

namespace DirectiveBody

variable {body after : List Char}

/-- A character that neither is a newline nor continues the directive over one. -/
theorem cons (formed : DirectiveBody body after) {character : Char} (same : character ≠ '\n')
    (plain : character = '\\' → after ≠ [] → body ≠ [] ∧ body ≠ ['\r']) :
    DirectiveBody (character :: body) after where
  continued front rest split := by
    cases front with
    | nil => exact absurd (List.cons.inj split).1 same
    | cons head front =>
        exact continuesLine_cons.2 (.inr (formed.continued front rest (List.cons.inj split).2))
  ends := formed.ends
  complete more continues := by
    rcases continuesLine_cons.1 continues with ⟨mark, last⟩ | earlier
    · obtain ⟨nonempty, other⟩ := plain mark more
      exact last.elim nonempty other
    · exact formed.complete more earlier

/-- A newline behind a text that continues the directive. -/
theorem newline (formed : DirectiveBody body after) {mark : List Char}
    (continues : ContinuesLine mark) (single : '\n' ∉ mark) :
    DirectiveBody (mark ++ '\n' :: body) after where
  continued front rest split := by
    rcases List.append_eq_append_iff.1 split with ⟨inside, rfl, later⟩ | ⟨inside, rfl, later⟩
    · cases inside with
      | nil => simpa using continues
      | cons head inside =>
          obtain ⟨rfl, further⟩ := List.cons.inj later
          exact continuesLine_newline.2 (formed.continued inside rest further)
    · cases inside with
      | nil => simpa using continues
      | cons head inside =>
          obtain ⟨rfl, _⟩ := List.cons.inj later
          simp at single
  ends := formed.ends
  complete more last := formed.complete more (continuesLine_newline.1 last)

end DirectiveBody

/-- A directive goes on to the first newline that does not continue it. -/
theorem directiveBody_take (text : List Char) :
    DirectiveBody (text.take (directiveLength text)) (text.drop (directiveLength text)) := by
  fun_induction directiveLength text with
  | case1 => exact ⟨by simp, .inl rfl, by simp⟩
  | case2 rest ih =>
      have continued := ih.newline (.inl List.suffix_rfl) (by decide : '\n' ∉ ['\\'])
      simpa [Nat.add_comm 2] using continued
  | case3 rest ih =>
      have continued := ih.newline (.inr List.suffix_rfl) (by decide : '\n' ∉ ['\\', '\r'])
      simpa [Nat.add_comm 3] using continued
  | case4 rest => exact ⟨by simp, .inr ⟨rest, by simp⟩, by simp [ContinuesLine]⟩
  | case5 character rest unmarked unmarkedReturn other ih =>
      rw [Nat.add_comm, List.take_succ_cons, List.drop_succ_cons]
      refine ih.cons other ?_
      rintro rfl more
      -- A backslash directly before the newline behind would have continued the directive.
      have whole := List.take_append_drop (directiveLength rest) rest
      obtain ⟨behind, newline⟩ := ih.ends.resolve_left more
      rw [newline] at whole
      constructor
      · intro empty
        exact unmarked behind rfl (by rw [← whole, empty]; rfl)
      · intro returns
        exact unmarkedReturn behind rfl (by rw [← whole, returns]; rfl)

theorem atLineEnd_drop (text : List Char) : AtLineEnd (text.drop (lineLength text)) := by
  induction text with
  | nil => exact .inl rfl
  | cons character rest ih =>
      by_cases newline : character = '\n'
      · exact .inr ⟨rest, by simp [lineLength, newline]⟩
      · simpa [lineLength, newline] using ih

/-- What is skipped as a whole is a comment or a directive. -/
theorem skipped_of_closed {lineIsBlank : Bool} {before upcoming : List Char} {length : Nat}
    (blank : lineIsBlank = true → LineBlank before)
    (found : skippedExtent lineIsBlank upcoming = some (.closed length)) :
    Skipped before (upcoming.take length) (upcoming.drop length) := by
  unfold skippedExtent at found
  split at found
  · rename_i rest
    obtain rfl := Extent.closed.inj (Option.some.inj found)
    have body : rest.take (lineLength rest) = rest.takeWhile (· != '\n') :=
      (List.prefix_iff_eq_take.1 (List.takeWhile_prefix _)).symm
    rw [Nat.add_comm, List.take_succ_cons, List.take_succ_cons, List.drop_succ_cons,
      List.drop_succ_cons, body]
    refine .lineComment ?_ ?_
    · intro member
      simpa using List.all_eq_true.1 List.all_takeWhile _ member
    · exact atLineEnd_drop rest
  · rename_i rest
    cases closed : Extent.through ['*', '/'] rest with
    | cut _ => simp [closed, Extent.shift] at found
    | closed count =>
        obtain ⟨body, later, rfl, rfl, first⟩ := Extent.through_closed closed
        rw [closed] at found
        obtain rfl := Extent.closed.inj (Option.some.inj found)
        rw [Nat.add_comm, List.take_succ_cons, List.take_succ_cons, List.take_left']
        · exact .blockComment first
        · rfl
  · rename_i rest
    split at found
    · rename_i alone
      obtain rfl := Extent.closed.inj (Option.some.inj found)
      rw [Nat.add_comm, List.take_succ_cons, List.drop_succ_cons]
      exact .directive (blank alone) (directiveBody_take rest)
    · cases found
  · cases found

/-! ## Reading behind a text -/

theorem lineBlank_of_foldl {before : List Char}
    (blank : before.foldl Reader.blankAfter true = true) : LineBlank before := by
  induction before using List.reverseRecOn with
  | nil => exact ⟨[], [], rfl, .inl rfl, by simp⟩
  | append_singleton front character ih =>
      rw [List.foldl_concat, Reader.blankAfter, Bool.or_eq_true, Bool.and_eq_true] at blank
      rcases blank with newline | ⟨earlier, indent⟩
      · refine ⟨front ++ [character], [], by simp, .inr ⟨front, ?_⟩, by simp⟩
        rw [beq_iff_eq.1 newline]
      · obtain ⟨lines, line, rfl, ends, indents⟩ := ih earlier
        refine ⟨lines, line ++ [character], by simp, ends, ?_⟩
        intro other member
        rcases List.mem_append.1 member with inside | last
        · exact indents other inside
        · rwa [List.mem_singleton.1 last]

namespace Reader

/-- Whether a reader stands behind a text. -/
structure Behind (before : List Char) (reader : Reader) : Prop where
  offset : reader.position.offset = utf8Len before
  line : reader.lineIsBlank = before.foldl blankAfter true

theorem Behind.skip {before : List Char} {reader : Reader} (behind : reader.Behind before)
    (count : Nat) :
    (reader.skip count).Behind (before ++ reader.unread.take count) where
  offset := by rw [offset_skip, behind.offset, String.utf8Len_append]
  line := by rw [List.foldl_append, ← behind.line]; rfl

/-- The span that a reader goes over. -/
theorem length_between_skip (reader : Reader) (count : Nat) :
    (Span.between reader.position (reader.skip count).position).length =
      utf8Len (reader.unread.take count) := by
  simp only [Span.between, offset_skip]
  omega

/-- What is passed over between tokens are blanks, comments and directives, up to a comment
that is not closed if there is one. -/
theorem behind_skipTrivia (reader : Reader) : ∀ before, reader.Behind before →
    ∃ gap piece, reader.unread = gap ++ (piece ++ reader.skipTrivia.2.unread) ∧
      Trivia before gap (piece ++ reader.skipTrivia.2.unread) ∧
      reader.skipTrivia.2.Behind (before ++ gap ++ piece) ∧
      (reader.skipTrivia.1 = none → piece = []) ∧
      ∀ error, reader.skipTrivia.1 = some error → piece ≠ [] ∧
        error.span.offset = utf8Len (before ++ gap) ∧ error.span.length = utf8Len piece := by
  fun_induction Reader.skipTrivia reader with
  | case1 reader start found =>
      intro before behind
      refine ⟨reader.unread.take (blankLength reader.unread), [], ?_, ?_, ?_, fun _ => rfl, by simp⟩
      · simp [start]
      · exact .blanks fun _ member => mem_take_blankLength member
      · simpa using behind.skip _
  | case2 reader start length found ih =>
      intro before behind
      let blanks := reader.unread.take (blankLength reader.unread)
      have started : start.Behind (before ++ blanks) := behind.skip _
      have skipped :=
        skipped_of_closed (fun blank => lineBlank_of_foldl (started.line ▸ blank)) found
      obtain ⟨gap, piece, whole, trivia, further, closed, cut⟩ := ih _ (started.skip length)
      rw [unread_skip] at whole
      rw [whole] at skipped
      refine ⟨blanks ++ (start.unread.take length ++ gap), piece, ?_, ?_, ?_, closed, ?_⟩
      · rw [List.append_assoc, List.append_assoc, ← whole, List.take_append_drop]
        exact (List.take_append_drop _ _).symm
      · refine .append (.blanks fun _ member => mem_take_blankLength member) ?_
        exact .append (.single skipped) trivia
      · simpa using further
      · simpa using cut
  | case3 reader start length found rest =>
      intro before behind
      let blanks := reader.unread.take (blankLength reader.unread)
      have started : start.Behind (before ++ blanks) := behind.skip _
      obtain ⟨positive, nonempty⟩ := skippedExtent_pos found
      refine ⟨blanks, start.unread.take length, ?_, ?_, started.skip length, by simp, ?_⟩
      · change _ = _ ++ (_ ++ start.unread.drop length)
        rw [List.take_append_drop]
        exact (List.take_append_drop _ _).symm
      · exact .blanks fun _ member => mem_take_blankLength member
      · rintro _ ⟨⟩
        refine ⟨?_, started.offset, start.length_between_skip length⟩
        simp only [ne_eq, List.take_eq_nil_iff, not_or]
        exact ⟨Nat.ne_of_gt positive, nonempty⟩

end Reader

/-! ## Tokens over a text -/

/-- Whether a token stands for a piece of text behind a gap, and the end of the text for the
empty piece behind all of it. -/
structure Token.Stands (before gap piece after : List Char) (token : Token) : Prop where
  trivia : Trivia before gap (piece ++ after)
  offset : token.span.offset = utf8Len (before ++ gap)
  length : token.span.length = utf8Len piece
  lexeme : token.kind ≠ .invalid → token.lexeme = String.ofList piece
  ended : token.kind = .eof ↔ piece = []

/-- What is read next stands behind blanks, comments and directives. -/
theorem Reader.Behind.next {before : List Char} {reader : Reader} (behind : reader.Behind before)
    (dialect : Dialect) :
    ∃ gap piece, reader.unread = gap ++ (piece ++ (reader.next dialect).reader.unread) ∧
      (reader.next dialect).token.Stands before gap piece (reader.next dialect).reader.unread ∧
      (reader.next dialect).reader.Behind (before ++ gap ++ piece) ∧
      (piece = [] → (reader.next dialect).reader.unread = []) := by
  obtain ⟨gap, piece, whole, trivia, further, closed, cut⟩ := reader.behind_skipTrivia before behind
  unfold Reader.next
  split
  · rename_i error rest skipped
    simp only [skipped] at whole trivia further cut
    obtain ⟨nonempty, offset, length⟩ := cut error rfl
    exact ⟨gap, piece, whole, ⟨trivia, offset, length, by simp, by simp [nonempty]⟩, further,
      fun empty => absurd empty nonempty⟩
  · rename_i start skipped
    obtain rfl := closed (by rw [skipped])
    simp only [skipped] at whole trivia further
    rw [List.append_nil] at further
    split
    · rename_i ended
      have empty : start.unread = [] := by
        cases unread : start.unread with
        | nil => rfl
        | cons character rest => simp [unread, Piece.scan] at ended
      exact ⟨gap, [], whole, ⟨trivia, further.offset, rfl, fun _ => rfl, by simp⟩,
        by simpa using further, fun _ => empty⟩
    · rename_i piece found
      let text := start.unread.take piece.length
      have nonempty : text ≠ [] := by
        have some : start.unread ≠ [] := by
          intro empty
          simp [empty, Piece.scan] at found
        simp only [text, ne_eq, List.take_eq_nil_iff, not_or]
        exact ⟨Nat.ne_of_gt (Piece.length_scan_pos found), some⟩
      have split : start.unread = text ++ (start.skip piece.length).unread :=
        (List.take_append_drop _ _).symm
      rw [List.nil_append, split] at whole trivia
      have length := start.length_between_skip piece.length
      split
      · rename_i kind known
        have more := (Piece.weight_le found known).1
        exact ⟨gap, text, whole, ⟨trivia, further.offset, length, fun _ => rfl,
          by simp [more, nonempty]⟩, further.skip _, fun empty => absurd empty nonempty⟩
      · exact ⟨gap, text, whole, ⟨trivia, further.offset, length, by simp, by simp [nonempty]⟩,
          further.skip _, fun empty => absurd empty nonempty⟩

/-- Tokens that lie over a text, each behind its gap, up to the end of the text. -/
inductive Covers : List Char → List Char → List Token → Prop
  | final {before gap : List Char} {token : Token} (stands : token.Stands before gap [] []) :
      Covers before gap [token]
  | cons {before gap piece rest : List Char} {token : Token} {tokens : List Token}
      (stands : token.Stands before gap piece rest)
      (others : Covers (before ++ gap ++ piece) rest tokens) :
      Covers before (gap ++ (piece ++ rest)) (token :: tokens)

theorem TokenStream.covers_ofReader (dialect : Dialect) (reader : Reader) :
    ∀ before, reader.Behind before →
      Covers before reader.unread (ofReader dialect reader).tokens := by
  fun_induction ofReader dialect reader with
  | case1 reader reading ended =>
      intro before behind
      obtain ⟨gap, piece, whole, stands, _, last⟩ := behind.next dialect
      obtain rfl := stands.ended.1 ended
      rw [last rfl] at whole stands
      rw [whole, List.append_nil, List.append_nil]
      exact .final stands
  | case2 reader reading more ih =>
      intro before behind
      obtain ⟨gap, piece, whole, stands, further, _⟩ := behind.next dialect
      rw [whole]
      exact .cons stands (ih _ further)

namespace Covers

variable {before text : List Char} {tokens : List Token}

/-- Every token stands for a piece of the text that it lies over. -/
theorem stands (covers : Covers before text tokens) :
    ∀ token ∈ tokens, ∃ front gap piece after, before ++ text = front ++ gap ++ piece ++ after ∧
      token.Stands front gap piece after := by
  induction covers with
  | @final before gap token stands =>
      intro other member
      obtain rfl := List.mem_singleton.1 member
      exact ⟨before, gap, [], [], by simp, stands⟩
  | @cons before gap piece rest token tokens stands _ ih =>
      intro other member
      rcases List.mem_cons.1 member with rfl | later
      · exact ⟨before, gap, piece, rest, by simp, stands⟩
      · simpa using ih other later

/-- What is before a token is a gap behind the token before it. -/
theorem gaps (covers : Covers before text tokens) :
    ∀ stop token, (stop, token) ∈ (utf8Len before :: tokens.map (·.span.stop)).zip tokens →
      ∃ front gap after, before ++ text = front ++ gap ++ after ∧ utf8Len front = stop ∧
        utf8Len (front ++ gap) = token.span.offset ∧ Trivia front gap after := by
  induction covers with
  | @final before gap token stands =>
      intro stop other member
      obtain ⟨rfl, rfl⟩ : stop = utf8Len before ∧ other = token := by simpa using member
      exact ⟨before, gap, [], by simp, rfl, stands.offset.symm, stands.trivia⟩
  | @cons before gap piece rest token tokens stands _ ih =>
      intro stop other member
      rw [List.map_cons, List.zip_cons_cons] at member
      rcases List.mem_cons.1 member with first | later
      · obtain ⟨rfl, rfl⟩ := Prod.mk.inj first
        exact ⟨before, gap, piece ++ rest, by simp, rfl, stands.offset.symm, stands.trivia⟩
      · have finish : token.span.stop = utf8Len (before ++ gap ++ piece) := by
          rw [Span.stop, stands.offset, stands.length, ← String.utf8Len_append]
        rw [finish] at later
        simpa using ih stop other later

end Covers

/-! ## Reading a source -/

/-- What tokens have to be for a source to be read without loss: the last marks the end behind
the last byte, those before it stand for pieces of the source one behind the other, a valid
token has the text of its span, and what stands between is skipped by its form. -/
structure Lossless (source : String) (body : List Token) (final : Token) : Prop where
  ended : final.kind = .eof ∧ final.span.offset = source.utf8ByteSize ∧ final.span.length = 0
  proper : ∀ token ∈ body, token.kind ≠ .eof ∧ 1 ≤ token.span.length ∧
    token.span.stop ≤ source.utf8ByteSize
  ordered : body.Pairwise fun first second => first.span.stop ≤ second.span.offset
  lexemes : ∀ token ∈ body, token.kind ≠ .invalid → ∃ front rest,
    source.toList = front ++ token.lexeme.toList ++ rest ∧ utf8Len front = token.span.offset ∧
      token.lexeme.utf8ByteSize = token.span.length
  gaps : ∀ stop token,
    (stop, token) ∈ (0 :: (body ++ [final]).map (·.span.stop)).zip (body ++ [final]) →
      ∃ front gap rest, source.toList = front ++ gap ++ rest ∧ utf8Len front = stop ∧
        utf8Len (front ++ gap) = token.span.offset ∧ Trivia front gap rest

theorem Spaced.pairwise {limit reach : Nat} {tokens : List Token}
    (spaced : Spaced limit reach tokens) :
    (∀ token ∈ tokens, reach ≤ token.span.offset ∧ 1 ≤ token.span.length ∧
      token.span.stop ≤ limit) ∧
    tokens.Pairwise fun first second => first.span.stop ≤ second.span.offset := by
  induction tokens generalizing reach with
  | nil => exact ⟨by simp, .nil⟩
  | cons token rest ih =>
      obtain ⟨before, room, others⟩ := spaced
      obtain ⟨each, ordered⟩ := ih others
      have positive := Cursor.tokenWeight_pos token
      refine ⟨?_, List.pairwise_cons.2 ⟨fun other member => (each other member).1, ordered⟩⟩
      intro other member
      rcases List.mem_cons.1 member with rfl | later
      · exact ⟨before, Nat.le_trans positive room, others.le_limit⟩
      · obtain ⟨behind, rest⟩ := each other later
        refine ⟨?_, rest⟩
        unfold Span.stop at behind
        omega

/-- Every source is read without loss, in every dialect. -/
theorem tokens_lossless (dialect : Dialect) (source : String) :
    ∃ body final, (TokenStream.ofSource dialect source).tokens = body ++ [final] ∧
      Lossless source body final := by
  obtain ⟨body, final, tokens, kind, last, spaced⟩ :=
    TokenStream.spaced_ofReader dialect (.ofSource source)
  have covers := TokenStream.covers_ofReader dialect (.ofSource source) [] ⟨rfl, rfl⟩
  rw [tokens] at covers
  have whole : (Reader.ofSource source).finish = source.utf8ByteSize := by
    simp [Reader.finish, Reader.ofSource]
  rw [whole] at last spaced
  obtain ⟨each, ordered⟩ := spaced.pairwise
  refine ⟨body, final, tokens, ⟨kind, last, ?_⟩, ?_, ordered, ?_, covers.gaps⟩
  · obtain ⟨_, _, piece, _, _, stands⟩ := covers.stands final (by simp)
    rw [stands.length, stands.ended.1 kind, String.utf8Len_nil]
  · intro token member
    obtain ⟨_, _, piece, _, _, stands⟩ := covers.stands token (by simp [member])
    obtain ⟨_, positive, bounded⟩ := each token member
    refine ⟨?_, positive, bounded⟩
    intro ended
    rw [stands.length, stands.ended.1 ended, String.utf8Len_nil] at positive
    exact absurd positive (by decide)
  · intro token member valid
    obtain ⟨front, gap, piece, rest, split, stands⟩ := covers.stands token (by simp [member])
    refine ⟨front ++ gap, rest, ?_, stands.offset.symm, ?_⟩
    · rw [stands.lexeme valid]
      simpa [Reader.ofSource] using split
    · rw [stands.lexeme valid, stands.length, String.utf8ByteSize_ofList]

end DeclTree
