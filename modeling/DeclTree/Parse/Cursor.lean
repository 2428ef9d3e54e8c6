import DeclTree.Token.Basic

/-!
# A cursor over tokens

The cursor stands between the tokens already read, latest first, and those
still to come.  Behind the last one the end of the text is seen again and
again, so that looking ahead always yields a token and the end is never read.
-/

namespace DeclTree

/-- A place between tokens. -/
structure Cursor where
  consumed : List Token := []
  unread : List Token
  final : Token

namespace Cursor

/-- The start of a list of tokens with its end marker. -/
def ofTokens (tokens : List Token) (final : Token) : Cursor :=
  { unread := tokens, final := final }

def ahead (cursor : Cursor) (distance : Nat) : Token :=
  cursor.unread.getD distance cursor.final

def peek (cursor : Cursor) : Token :=
  cursor.ahead 0

/-- Move over a number of tokens, at most to the end. -/
def skip (cursor : Cursor) (count : Nat) : Cursor :=
  { cursor with
    consumed := (cursor.unread.take count).reverse ++ cursor.consumed
    unread := cursor.unread.drop count }

def mark (cursor : Cursor) : Nat :=
  cursor.consumed.length

def since (cursor : Cursor) (mark : Nat) : List Token :=
  (cursor.consumed.take (cursor.mark - mark)).reverse

/-- The span of the last token read; before the first one, that of the first
one to come. -/
def previousSpan (cursor : Cursor) : Span :=
  match cursor.consumed with
  | [] => cursor.peek.span
  | token :: _ => token.span

/-- The two halves of a token that closes two template argument lists. -/
def shiftHalves (token : Token) : List Token :=
  let span := token.span
  [⟨.punct .greater, ">", { span with length := 1 }⟩,
    ⟨.punct .greater, ">", ⟨span.offset + 1, span.line, span.column + 1, 1⟩⟩]

/-- Split the next token into two halves. -/
def splitShift (cursor : Cursor) : Cursor :=
  match cursor.unread with
  | [] => cursor
  | token :: rest => { cursor with unread := shiftHalves token ++ rest }

/-- How much reading a token takes: one that may be split counts twice. -/
def tokenWeight (token : Token) : Nat :=
  if token.kind = .punct .greaterGreater then 2 else 1

/-- How much reading some tokens take. -/
def totalWeight : List Token → Nat
  | [] => 0
  | token :: rest => tokenWeight token + totalWeight rest

/-- The reading left to do. -/
def weight (cursor : Cursor) : Nat :=
  totalWeight cursor.unread

@[simp] theorem unread_skip (cursor : Cursor) (count : Nat) :
    (cursor.skip count).unread = cursor.unread.drop count :=
  rfl

theorem tokenWeight_pos (token : Token) : 0 < tokenWeight token := by
  unfold tokenWeight
  split <;> omega

theorem totalWeight_append (first second : List Token) :
    totalWeight (first ++ second) = totalWeight first + totalWeight second := by
  induction first with
  | nil => simp [totalWeight]
  | cons token rest ih =>
      simp only [List.cons_append, totalWeight, ih]
      omega

theorem weight_skip_le (cursor : Cursor) (count : Nat) :
    (cursor.skip count).weight ≤ cursor.weight := by
  have whole := totalWeight_append (cursor.unread.take count) (cursor.unread.drop count)
  rw [List.take_append_drop] at whole
  simp only [weight, unread_skip]
  omega

/-- Reading a token leaves less to read. -/
theorem weight_skip_lt (cursor : Cursor) {count : Nat} (positive : 0 < count)
    (more : cursor.unread ≠ []) : (cursor.skip count).weight < cursor.weight := by
  obtain ⟨rest, rfl⟩ : ∃ rest, count = rest + 1 := ⟨count - 1, by omega⟩
  cases unread : cursor.unread with
  | nil => exact absurd unread more
  | cons token tokens =>
      have whole := totalWeight_append (tokens.take rest) (tokens.drop rest)
      rw [List.take_append_drop] at whole
      have positiveToken := tokenWeight_pos token
      simp only [weight, unread_skip, unread, List.drop_succ_cons, totalWeight]
      omega

/-- Splitting a token leaves as much to read as before. -/
theorem weight_splitShift (cursor : Cursor)
    (closes : cursor.peek.kind = .punct .greaterGreater) :
    cursor.splitShift.weight = cursor.weight := by
  unfold splitShift
  split
  · rfl
  · rename_i token rest unread
    have kind : token.kind = .punct .greaterGreater := by
      simpa [peek, ahead, unread] using closes
    simp [weight, totalWeight, shiftHalves, tokenWeight, unread, kind]
    omega

end Cursor

end DeclTree
