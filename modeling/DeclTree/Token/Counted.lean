import DeclTree.Token.Lexer

/-!
# Tokens read with counters of 32 bits

The program keeps the position of a reader in counters of 32 bits and takes the
text of a token from its source by the offsets that they show.  In a source that
is too long for them, a text found in this way is another one than that of the
token, and it is the one that decides on keywords, encoding marks, delimiters
and directives.  Where the offsets are not those of a text, the program stops.
-/

namespace DeclTree

namespace Reader

/-- The text from one place to another, as the program finds it in its source. -/
def textTo? (source : List Char) (start finish : Reader) : Option (List Char) :=
  textBetween source (wrap start.position.offset) (wrap finish.position.offset)

/-- Whether the program gets over the blanks ahead, whose text it takes without
looking at it. -/
def readsBlanks (source : List Char) (reader : Reader) : Bool :=
  let start := reader.skip (if reader.unread.head? = some byteOrderMark then 1 else 0)
  (start.textTo? source (reader.skip (blankLength reader.unread))).isSome

/-- Whether the text in front of a `#` leaves its line blank. -/
def lineIsBlank? (source : List Char) (reader : Reader) : Option Bool :=
  if reader.unread.head? = some '#' then
    (textBetween source 0 (wrap reader.position.offset)).map fun front =>
      (front.reverse.takeWhile (· != '\n')).all isIndent
  else some false

/-- Move over blanks, comments and directives. -/
def skipTrivia? (source : List Char) (reader : Reader) : Option (Option LexError × Reader) :=
  let start := reader.skip (blankLength reader.unread)
  if reader.readsBlanks source then
    match start.lineIsBlank? source with
    | none => none
    | some lineIsBlank =>
        match _found : skippedExtent lineIsBlank start.unread with
        | none => some (none, start)
        | some (.closed length) => skipTrivia? source (start.skip length)
        | some (.cut length) =>
            let rest := start.skip length
            some (some ⟨.unterminatedComment, .counted start.position rest.position⟩, rest)
  else none
termination_by reader.unread.length
decreasing_by
  obtain ⟨positive, nonempty⟩ := skippedExtent_pos _found
  have := List.length_pos_iff.2 nonempty
  simp only [start, Extent.length, unread_skip, List.length_drop] at *
  omega

def rawString? (source : List Char) (reader : Reader) : Option Extent :=
  let count := (reader.unread.takeWhile Extent.isDelimiter).length
  (reader.textTo? source (reader.skip count)).map fun delimiter =>
    match reader.unread.drop count with
    | '(' :: body => (Extent.through (')' :: delimiter ++ ['"']) body).shift (count + 1)
    | _ => .cut count

def word? (source : List Char) (dialect : Dialect) (reader : Reader) : Option Piece :=
  let count := (upcomingWord reader.unread).length
  match reader.textTo? source (reader.skip count) with
  | none => none
  | some letters =>
      let plain : Piece := ⟨count, .ok (Piece.wordKind dialect letters)⟩
      match reader.unread.drop count with
      | '"' :: body =>
          if Piece.rawMarks.contains letters then
            ((reader.skip (count + 1)).rawString? source).map fun extent =>
              .ofExtent (.literal .string) .unterminatedString (extent.shift (count + 1))
          else if Piece.encodingMarks.contains letters then some (.quoted (count + 1) '"' body)
          else some plain
      | '\'' :: body =>
          if Piece.encodingMarks.contains letters then some (.quoted (count + 1) '\'' body)
          else some plain
      | _ => some plain

/-- The piece in front of a reader; none at the end of the text. -/
def scan? (source : List Char) (dialect : Dialect) (reader : Reader) : Option (Option Piece) :=
  match reader.unread with
  | [] => some none
  | character :: rest =>
      if character = '"' ∨ character = '\'' then some (some (.quoted 1 character rest))
      else if Piece.startsNumber character rest then some (some (.number (character :: rest)))
      else if isWordStart character then (reader.word? source dialect).map some
      else some (some (.punctuator character rest))

/-- Read one token. -/
def next? (source : List Char) (dialect : Dialect) (reader : Reader) : Option Reading :=
  match reader.skipTrivia? source with
  | none => none
  | some (some error, rest) => some ⟨⟨.invalid, "", error.span⟩, some error, rest⟩
  | some (none, start) =>
      match start.scan? source dialect with
      | none => none
      | some none => some ⟨⟨.eof, "", .counted start.position start.position⟩, none, start⟩
      | some (some piece) =>
          let rest := start.skip piece.length
          let span := Span.counted start.position rest.position
          match piece.outcome with
          | .ok kind => (start.textTo? source rest).map fun lexeme =>
              ⟨⟨kind, String.ofList lexeme, span⟩, none, rest⟩
          | .error cause => some ⟨⟨.invalid, "", span⟩, some ⟨cause, span⟩, rest⟩

theorem length_skipTrivia? {source : List Char} {reader rest : Reader} {error : Option LexError}
    (skipped : reader.skipTrivia? source = some (error, rest)) :
    rest.unread.length ≤ reader.unread.length ∧
      (error.isSome → rest.unread.length < reader.unread.length) := by
  fun_induction skipTrivia? source reader with
  | case1 | case5 => cases skipped
  | case2 reader start =>
      obtain ⟨rfl, rfl⟩ := Prod.mk.inj (Option.some.inj skipped)
      exact ⟨length_skip_le _ _, by simp⟩
  | case3 reader start _ _ _ length _ ih =>
      have first : start.unread.length ≤ reader.unread.length := length_skip_le _ _
      have second := length_skip_le start length
      obtain ⟨within, shorter⟩ := ih skipped
      exact ⟨by omega, fun failed => by have := shorter failed; omega⟩
  | case4 reader start _ _ _ length found =>
      obtain ⟨rfl, rfl⟩ := Prod.mk.inj (Option.some.inj skipped)
      obtain ⟨positive, nonempty⟩ := skippedExtent_pos found
      have first : start.unread.length ≤ reader.unread.length := length_skip_le _ _
      have second : (start.skip length).unread.length < start.unread.length :=
        length_skip_lt start positive nonempty
      exact ⟨Nat.le_of_lt (Nat.lt_of_lt_of_le second first),
        fun _ => Nat.lt_of_lt_of_le second first⟩

theorem length_word?_pos {source : List Char} {dialect : Dialect} {reader : Reader} {piece : Piece}
    {character : Char} {rest : List Char} (unread : reader.unread = character :: rest)
    (starts : isWordStart character) (found : reader.word? source dialect = some piece) :
    0 < piece.length := by
  have letters := Piece.length_upcomingWord_pos rest starts
  simp only [word?, unread] at found
  split at found
  · cases found
  · split at found
    · split at found
      · obtain ⟨extent, _, rfl⟩ := Option.map_eq_some_iff.1 found
        rw [Piece.length_ofExtent, Extent.length_shift]
        omega
      · split at found
        · obtain rfl := Option.some.inj found
          exact Piece.length_quoted_pos _ _ _ (by omega)
        · obtain rfl := Option.some.inj found
          exact letters
    · split at found
      · obtain rfl := Option.some.inj found
        exact Piece.length_quoted_pos _ _ _ (by omega)
      · obtain rfl := Option.some.inj found
        exact letters
    · obtain rfl := Option.some.inj found
      exact letters

theorem length_scan?_pos {source : List Char} {dialect : Dialect} {reader : Reader} {piece : Piece}
    (found : reader.scan? source dialect = some (some piece)) :
    0 < piece.length ∧ reader.unread ≠ [] := by
  unfold scan? at found
  split at found
  · cases found
  · rename_i character rest unread
    refine ⟨?_, by simp [unread]⟩
    split at found
    · obtain rfl := Option.some.inj (Option.some.inj found)
      exact Piece.length_quoted_pos _ _ _ Nat.one_pos
    · split at found
      · obtain rfl := Option.some.inj (Option.some.inj found)
        exact Piece.length_number_pos _ _ (by assumption)
      · split at found
        · obtain ⟨word, here, same⟩ := Option.map_eq_some_iff.1 found
          obtain rfl := Option.some.inj same
          exact length_word?_pos unread (by assumption) here
        · obtain rfl := Option.some.inj (Option.some.inj found)
          exact Piece.length_punctuator_pos _ _

/-- Every token but the end of the text takes some of it. -/
theorem length_next?_lt {source : List Char} {dialect : Dialect} {reader : Reader}
    {reading : Reading} (found : reader.next? source dialect = some reading)
    (more : reading.token.kind ≠ .eof) :
    reading.reader.unread.length < reader.unread.length := by
  unfold next? at found
  split at found
  · cases found
  · rename_i error rest skipped
    obtain rfl := Option.some.inj found
    exact (length_skipTrivia? skipped).2 rfl
  · rename_i start skipped
    have trivia := (length_skipTrivia? skipped).1
    split at found
    · cases found
    · obtain rfl := Option.some.inj found
      exact absurd rfl more
    · rename_i piece scanned
      obtain ⟨positive, nonempty⟩ := length_scan?_pos scanned
      have shorter := length_skip_lt start positive nonempty
      simp only at found
      split at found
      · obtain ⟨lexeme, _, rfl⟩ := Option.map_eq_some_iff.1 found
        simp only
        omega
      · obtain rfl := Option.some.inj found
        simp only
        omega

end Reader

namespace TokenStream

/-- The tokens from a reader to the end of its text. -/
def ofReader? (source : List Char) (dialect : Dialect) (reader : Reader) : Option TokenStream :=
  match _found : reader.next? source dialect with
  | none => none
  | some reading =>
      if _more : reading.token.kind = .eof then
        some (cons reading ⟨[], []⟩)
      else
        (ofReader? source dialect reading.reader).map (cons reading)
termination_by reader.unread.length
decreasing_by exact Reader.length_next?_lt _found _more

/-- The tokens of a source text, as the program reads them; none where it stops. -/
def ofSource? (dialect : Dialect) (source : String) : Option TokenStream :=
  ofReader? source.toList dialect (.ofSource source)

end TokenStream

end DeclTree
