import DeclTree.Parse.Unit

/-!
# Moves of a cursor

A cursor stands inside a buffer of tokens that ends with the end of the text.
It moves over tokens that are there, or splits the token it stands at, which
makes the buffer one token longer.  Behind any such moves the cursor is still in
front of the end of the buffer, and every place it refers to lies inside.
-/

namespace DeclTree

namespace Cursor

/-- All tokens in order, the end of the text last. -/
def buffer (cursor : Cursor) : List Token :=
  cursor.consumed.reverse ++ (cursor.unread ++ [cursor.final])

theorem mem_buffer {cursor : Cursor} {token : Token} :
    token ∈ cursor.buffer ↔
      token ∈ cursor.consumed ∨ token ∈ cursor.unread ∨ token = cursor.final := by
  simp [buffer]

theorem ahead_mem_buffer (cursor : Cursor) (distance : Nat) :
    cursor.ahead distance ∈ cursor.buffer := by
  rw [mem_buffer, ahead, List.getD_eq_getElem?_getD]
  by_cases inside : distance < cursor.unread.length
  · rw [List.getElem?_eq_getElem inside]
    exact .inr (.inl (List.getElem_mem inside))
  · rw [List.getElem?_eq_none (Nat.le_of_not_lt inside)]
    exact .inr (.inr rfl)

/-- Whether the end of the text stands at the end of the buffer only. -/
structure Sound (cursor : Cursor) : Prop where
  final : cursor.final.kind = .eof
  unread : ∀ token ∈ cursor.unread, token.kind ≠ .eof

/-- Moves of a cursor: over tokens that are there, over one token, which does
nothing at the end of the text, and by splitting a token in two. -/
inductive Moves : Cursor → Cursor → Prop
  | refl (cursor : Cursor) : Moves cursor cursor
  | skip {start cursor : Cursor} (moves : Moves start cursor) {count : Nat}
      (within : count ≤ cursor.unread.length ∨ count = 1) : Moves start (cursor.skip count)
  | split {start cursor : Cursor} (moves : Moves start cursor)
      (closes : cursor.peek.kind = .punct .greaterGreater) : Moves start cursor.splitShift

theorem Moves.trans {first second third : Cursor} (left : Moves first second)
    (right : Moves second third) : Moves first third := by
  induction right with
  | refl => exact left
  | skip _ within ih => exact ih.skip within
  | split _ closes ih => exact ih.split closes

theorem Sound.skip {cursor : Cursor} (sound : cursor.Sound) (count : Nat) :
    (cursor.skip count).Sound :=
  ⟨sound.final, fun token member => sound.unread token (List.mem_of_mem_drop member)⟩

theorem kind_of_mem_shiftHalves {token half : Token} (member : half ∈ shiftHalves token) :
    half.kind = .punct .greater := by
  simp only [shiftHalves, List.mem_cons, List.not_mem_nil, or_false] at member
  rcases member with rfl | rfl <;> rfl

theorem Sound.splitShift {cursor : Cursor} (sound : cursor.Sound) : cursor.splitShift.Sound := by
  unfold Cursor.splitShift
  split
  · exact sound
  · rename_i token rest unread
    refine ⟨sound.final, ?_⟩
    intro other member
    rcases List.mem_append.1 member with member | member
    · simp [kind_of_mem_shiftHalves member]
    · exact sound.unread other (by simp [unread, member])

/-- At the end of the text nothing is left to read. -/
theorem Sound.peek_eof_iff {cursor : Cursor} (sound : cursor.Sound) :
    cursor.peek.kind = .eof ↔ cursor.unread = [] := by
  cases unread : cursor.unread with
  | nil => simp [peek, ahead, unread, sound.final]
  | cons token rest =>
      have other := sound.unread token (by simp [unread])
      simp [peek, ahead, unread, other]

/-- The next token is there, unless it is the end of the text. -/
theorem Sound.exists_next {cursor : Cursor} (sound : cursor.Sound) {kind : TokenKind}
    (other : kind ≠ .eof) (peek : cursor.peek.kind = kind) :
    ∃ token rest, cursor.unread = token :: rest ∧ token.kind = kind := by
  cases unread : cursor.unread with
  | nil => exact absurd (peek.symm.trans (sound.peek_eof_iff.2 unread)) other
  | cons token rest =>
      refine ⟨token, rest, rfl, ?_⟩
      simpa [Cursor.peek, Cursor.ahead, unread] using peek

/-- A token ahead that is not the end of the text is there to be read. -/
theorem Sound.lt_length_of_ahead {cursor : Cursor} (sound : cursor.Sound) {distance : Nat}
    (more : (cursor.ahead distance).kind ≠ .eof) : distance < cursor.unread.length := by
  apply Nat.lt_of_not_le
  intro beyond
  have none : cursor.unread[distance]? = none := List.getElem?_eq_none beyond
  apply more
  simp [ahead, List.getD, none, sound.final]

/-! ## What moves keep -/

theorem Moves.sound {start cursor : Cursor} (moves : Moves start cursor) (sound : start.Sound) :
    cursor.Sound := by
  induction moves with
  | refl => exact sound
  | skip _ _ ih => exact ih.skip _
  | split _ _ ih => exact ih.splitShift

/-- Moves never add to what is left to read. -/
theorem Moves.weight_le {start cursor : Cursor} (moves : Moves start cursor) :
    cursor.weight ≤ start.weight := by
  induction moves with
  | refl => exact Nat.le_refl _
  | skip _ _ ih => exact Nat.le_trans (weight_skip_le _ _) ih
  | split _ closes ih => exact (weight_splitShift _ closes) ▸ ih

/-- Moves that leave as much to read as before end at the same token, or at half of
one that was split. -/
theorem Moves.peek_of_weight_eq {start cursor : Cursor} (moves : Moves start cursor)
    (same : cursor.weight = start.weight) :
    cursor.peek = start.peek ∨ cursor.peek.kind = .punct .greater := by
  induction moves with
  | refl => exact .inl rfl
  | @skip cursor moves count _ ih =>
      have before := moves.weight_le
      have skipped := weight_skip_le cursor count
      have still : (cursor.skip count).peek = cursor.peek := by
        rcases Nat.eq_zero_or_pos count with rfl | positive
        · rfl
        · by_cases more : cursor.unread = []
          · simp [peek, ahead, Cursor.skip, more]
          · have less := weight_skip_lt cursor positive more
            omega
      rw [still]
      exact ih (by omega)
  | @split cursor moves closes ih =>
      cases unread : cursor.unread with
      | nil =>
          have unchanged : cursor.splitShift = cursor := by simp [splitShift, unread]
          rw [unchanged] at same ⊢
          exact ih same
      | cons token rest =>
          right
          simp [peek, ahead, splitShift, unread, shiftHalves]

theorem consumed_splitShift (cursor : Cursor) : cursor.splitShift.consumed = cursor.consumed := by
  unfold splitShift
  split <;> rfl

/-- What has been read stays read. -/
theorem Moves.consumed_suffix {start cursor : Cursor} (moves : Moves start cursor) :
    start.consumed <:+ cursor.consumed := by
  induction moves with
  | refl => exact List.suffix_refl _
  | skip _ _ ih => exact ih.trans (List.suffix_append _ _)
  | split _ _ ih =>
      rw [consumed_splitShift]
      exact ih

/-! ## Places in the buffer -/

theorem length_buffer (cursor : Cursor) :
    cursor.buffer.length = cursor.mark + cursor.unread.length + 1 := by
  simp [buffer, mark]
  omega

/-- What lies in front of the cursor is the start of its buffer. -/
theorem take_buffer (cursor : Cursor) :
    cursor.buffer.take cursor.mark = cursor.consumed.reverse := by
  simp [buffer, mark]

theorem drop_buffer (cursor : Cursor) :
    cursor.buffer.drop cursor.mark = cursor.unread ++ [cursor.final] := by
  simp [buffer, mark]

/-- The places that a cursor refers to, as places in its buffer: its own place is
at most that of the end of the text, tokens ahead and behind are looked up inside
the buffer, a token is split where it stands, jumps stay inside, and tokens since
a mark taken on the way are those between the mark and the cursor. -/
structure InRange (cursor : Cursor) : Prop where
  mark_lt : cursor.mark < cursor.buffer.length
  last : cursor.buffer.getLast? = some cursor.final
  ahead : ∀ distance, cursor.buffer[min (cursor.mark + distance) (cursor.buffer.length - 1)]? =
    some (cursor.ahead distance)
  previous : 0 < cursor.mark →
    cursor.buffer[cursor.mark - 1]?.map Token.span = some cursor.previousSpan
  split : cursor.peek.kind = .punct .greaterGreater → cursor.final.kind = .eof →
    cursor.mark < cursor.buffer.length - 1 ∧ cursor.splitShift.buffer =
      cursor.buffer.take cursor.mark ++ (shiftHalves cursor.peek ++
        cursor.buffer.drop (cursor.mark + 1))
  jump : ∀ count ≤ cursor.unread.length, (cursor.skip count).mark = cursor.mark + count ∧
    cursor.mark + count < cursor.buffer.length
  since : ∀ earlier : Cursor, Moves earlier cursor → earlier.mark ≤ cursor.mark ∧
    cursor.since earlier.mark = (cursor.buffer.take cursor.mark).drop earlier.mark

theorem getElem?_ahead (cursor : Cursor) (distance : Nat) :
    cursor.buffer[min (cursor.mark + distance) (cursor.buffer.length - 1)]? =
      some (cursor.ahead distance) := by
  have length := cursor.length_buffer
  by_cases inside : distance < cursor.unread.length
  · have place : min (cursor.mark + distance) (cursor.buffer.length - 1) =
        cursor.mark + distance := by omega
    rw [place, ← List.getElem?_drop, drop_buffer]
    simp [Cursor.ahead, List.getElem?_append_left inside, inside]
  · have place : min (cursor.mark + distance) (cursor.buffer.length - 1) =
        cursor.mark + cursor.unread.length := by omega
    rw [place, ← List.getElem?_drop, drop_buffer]
    have beyond : cursor.unread.length ≤ distance := by omega
    simp [Cursor.ahead, List.getElem?_eq_none beyond]

theorem getElem?_previous (cursor : Cursor) (moved : 0 < cursor.mark) :
    cursor.buffer[cursor.mark - 1]?.map Token.span = some cursor.previousSpan := by
  cases consumed : cursor.consumed with
  | nil => simp [mark, consumed] at moved
  | cons token rest =>
      have place : cursor.mark - 1 = rest.length := by simp [mark, consumed]
      rw [place]
      simp [buffer, previousSpan, consumed]

theorem buffer_splitShift {cursor : Cursor} (more : cursor.unread ≠ []) :
    cursor.splitShift.buffer = cursor.buffer.take cursor.mark ++
      (shiftHalves cursor.peek ++ cursor.buffer.drop (cursor.mark + 1)) := by
  obtain ⟨token, rest, unread⟩ := List.exists_cons_of_ne_nil more
  have behind : cursor.buffer.drop (cursor.mark + 1) = rest ++ [cursor.final] := by
    rw [← List.drop_drop, drop_buffer, unread]
    rfl
  rw [take_buffer, behind]
  simp [buffer, Cursor.splitShift, unread, peek, Cursor.ahead]

theorem since_eq {earlier cursor : Cursor} (suffix : earlier.consumed <:+ cursor.consumed) :
    cursor.since earlier.mark = (cursor.buffer.take cursor.mark).drop earlier.mark := by
  obtain ⟨recent, consumed⟩ := suffix
  rw [take_buffer]
  simp [Cursor.since, mark, ← consumed]

/-- A cursor refers to places of its buffer only. -/
theorem inRange (cursor : Cursor) : cursor.InRange where
  mark_lt := by
    rw [length_buffer]
    omega
  last := by simp [buffer]
  ahead := cursor.getElem?_ahead
  previous := cursor.getElem?_previous
  split closes final := by
    have more : cursor.unread ≠ [] := by
      intro unread
      simp [peek, Cursor.ahead, unread, final] at closes
    refine ⟨?_, buffer_splitShift more⟩
    have positive := List.length_pos_iff.2 more
    rw [length_buffer]
    omega
  jump count within := by
    rw [length_buffer]
    simp only [mark, Cursor.skip, List.length_append, List.length_reverse, List.length_take]
    omega
  since earlier moves :=
    ⟨moves.consumed_suffix.length_le, since_eq moves.consumed_suffix⟩

end Cursor

/-! ## The cursor in front of a source -/

theorem TokenStream.getLast?_ofReader (dialect : Dialect) (reader : Reader) :
    ∃ token, (ofReader dialect reader).tokens.getLast? = some token ∧ token.kind = .eof := by
  fun_induction ofReader dialect reader with
  | case1 reader reading ends => exact ⟨reading.token, rfl, ends⟩
  | case2 reader reading _ ih =>
      obtain ⟨token, last, kind⟩ := ih
      refine ⟨token, ?_, kind⟩
      simp [TokenStream.cons, List.getLast?_cons, last]

/-- The tokens of a source that are read, without its end. -/
def sourceTokens (dialect : Dialect) (source : String) : List Token :=
  (ParseState.startCursor (.ofSource dialect source)).unread

theorem ParseState.sound_startCursor (dialect : Dialect) (source : String) :
    (startCursor (TokenStream.ofSource dialect source)).Sound := by
  obtain ⟨token, last, kind⟩ := TokenStream.getLast?_ofReader dialect (.ofSource source)
  constructor
  · obtain ⟨front, tokens⟩ := List.getLast?_eq_some_iff.1 last
    simp [startCursor, Cursor.ofTokens, TokenStream.ofSource, tokens, kind]
  · intro other member
    simp only [startCursor, Cursor.ofTokens, List.mem_filter] at member
    simpa using member.2

end DeclTree
