import DeclTree.Token.Piece

/-!
# From text to tokens

A reader walks over a source text and keeps its position.  Each step skips
blanks, comments and directives and then takes one piece of text.  Reading
always goes forward, so a text has finitely many tokens, the last of which
marks its end.
-/

namespace DeclTree

/-- A place in a text from which tokens are read: the characters ahead, the
position, and whether the line holds only blanks so far. -/
structure Reader where
  unread : List Char
  position : Position := {}
  lineIsBlank : Bool := true

/-- A token, the error it stands for if it is invalid, and the place behind
it. -/
structure Reading where
  token : Token
  error : Option LexError
  reader : Reader

/-- The tokens of a text, its end included, and the errors met on the way. -/
structure TokenStream where
  tokens : List Token
  errors : List LexError

namespace Reader

def ofSource (source : String) : Reader :=
  { unread := source.toList }

/-- Whether a line is still blank behind one more character. -/
def blankAfter (lineIsBlank : Bool) (character : Char) : Bool :=
  character == '\n' || (lineIsBlank && isIndent character)

def skip (reader : Reader) (count : Nat) : Reader :=
  let text := reader.unread.take count
  { unread := reader.unread.drop count
    position := reader.position.after text
    lineIsBlank := text.foldl blankAfter reader.lineIsBlank }

@[simp] theorem unread_skip (reader : Reader) (count : Nat) :
    (reader.skip count).unread = reader.unread.drop count :=
  rfl

/-- Move over blanks, comments and directives.  A comment without an end is an
error that takes the rest of the text. -/
def skipTrivia (reader : Reader) : Option LexError × Reader :=
  let start := reader.skip (blankLength reader.unread)
  match _found : skippedExtent start.lineIsBlank start.unread with
  | none => (none, start)
  | some (.closed length) => skipTrivia (start.skip length)
  | some (.cut length) =>
      let rest := start.skip length
      (some ⟨.unterminatedComment, .between start.position rest.position⟩, rest)
termination_by reader.unread.length
decreasing_by
  obtain ⟨positive, nonempty⟩ := skippedExtent_pos _found
  have := List.length_pos_iff.2 nonempty
  simp only [start, Extent.length, unread_skip, List.length_drop] at *
  omega

/-- Read one token. -/
def next (dialect : Dialect) (reader : Reader) : Reading :=
  match reader.skipTrivia with
  | (some error, rest) => ⟨⟨.invalid, "", error.span⟩, some error, rest⟩
  | (none, start) =>
      match Piece.scan dialect start.unread with
      | none => ⟨⟨.eof, "", .point start.position⟩, none, start⟩
      | some piece =>
          let rest := start.skip piece.length
          let span := Span.between start.position rest.position
          match piece.outcome with
          | .ok kind =>
              ⟨⟨kind, String.ofList (start.unread.take piece.length), span⟩, none, rest⟩
          | .error cause => ⟨⟨.invalid, "", span⟩, some ⟨cause, span⟩, rest⟩

theorem length_skip_le (reader : Reader) (count : Nat) :
    (reader.skip count).unread.length ≤ reader.unread.length := by
  simp

theorem length_skip_lt (reader : Reader) {count : Nat} (positive : 0 < count)
    (nonempty : reader.unread ≠ []) :
    (reader.skip count).unread.length < reader.unread.length := by
  have := List.length_pos_iff.2 nonempty
  simp only [unread_skip, List.length_drop]
  omega

theorem length_skipTrivia (reader : Reader) :
    reader.skipTrivia.2.unread.length ≤ reader.unread.length ∧
      (reader.skipTrivia.1.isSome →
        reader.skipTrivia.2.unread.length < reader.unread.length) := by
  fun_induction skipTrivia reader with
  | case1 reader start found =>
      exact ⟨length_skip_le _ _, by simp⟩
  | case2 reader start length _ ih =>
      have first : start.unread.length ≤ reader.unread.length := length_skip_le _ _
      have second := length_skip_le start length
      exact ⟨by omega, fun failed => by have := ih.2 failed; omega⟩
  | case3 reader start length found rest =>
      obtain ⟨positive, nonempty⟩ := skippedExtent_pos found
      have first : start.unread.length ≤ reader.unread.length := length_skip_le _ _
      have second : rest.unread.length < start.unread.length :=
        length_skip_lt start positive nonempty
      exact ⟨by simp only; omega, fun _ => by simp only; omega⟩

/-- Every token but the end of the text takes some of it. -/
theorem length_next_lt (dialect : Dialect) (reader : Reader)
    (more : (reader.next dialect).token.kind ≠ .eof) :
    (reader.next dialect).reader.unread.length < reader.unread.length := by
  have trivia := length_skipTrivia reader
  unfold next at more ⊢
  split at more
  · rename_i error rest skipped
    simp only [skipped] at trivia ⊢
    exact trivia.2 rfl
  · rename_i start skipped
    simp only [skipped] at trivia ⊢
    split at more
    · simp at more
    · rename_i piece found
      have nonempty : start.unread ≠ [] := by
        intro empty
        simp [empty, Piece.scan] at found
      have shorter := length_skip_lt start (Piece.length_scan_pos found) nonempty
      split <;> simp only <;> omega

end Reader

namespace TokenStream

/-- Put a reading in front of what was read behind it. -/
def cons (reading : Reading) (stream : TokenStream) : TokenStream :=
  ⟨reading.token :: stream.tokens, reading.error.toList ++ stream.errors⟩

/-- The tokens from a reader to the end of its text. -/
def ofReader (dialect : Dialect) (reader : Reader) : TokenStream :=
  let reading := reader.next dialect
  if _more : reading.token.kind = .eof then
    cons reading ⟨[], []⟩
  else
    cons reading (ofReader dialect reading.reader)
termination_by reader.unread.length
decreasing_by exact Reader.length_next_lt dialect reader _more

def ofSource (dialect : Dialect) (source : String) : TokenStream :=
  ofReader dialect (.ofSource source)

end TokenStream

end DeclTree
