import DeclTree.Proofs.InnermostNode
import DeclTree.Proofs.TokenTexts

/-!
# The lines of nodes

A node starts on the line that it gives.  The line that it gives for its end is the one on which
its last token starts, although the node ends behind that token.  So it falls short by the
newlines in the token, which only a literal between quotes can have.  The translation unit ends
where the source does and gives the line of that.
-/

namespace DeclTree

open String (utf8Len)

/-- Whether an offset of a source lies on a line: there is one line more than there are newlines
in front of the offset. -/
def OnLine (source : String) (offset line : Nat) : Prop :=
  ∃ front, front <+: source.toList ∧ offset = utf8Len front ∧ line = 1 + front.count '\n'

namespace OnLine

variable {source : String} {offset line later other : Nat}

/-- Lines follow each other as offsets do. -/
theorem mono (first : OnLine source offset line) (second : OnLine source later other)
    (before : offset ≤ later) : line ≤ other := by
  obtain ⟨front, starts, rfl, rfl⟩ := first
  obtain ⟨longer, begins, rfl, rfl⟩ := second
  have inside : front <+: longer := by
    rcases List.prefix_or_prefix_of_prefix starts begins with inside | shorter
    · exact inside
    · have bytes := String.utf8Len_le_of_prefix shorter
      exact eq_of_utf8Len starts begins (Nat.le_antisymm before bytes) ▸ List.prefix_rfl
  have newlines := inside.sublist.count_le '\n'
  omega

/-- An offset lies on one line. -/
theorem unique (first : OnLine source offset line) (second : OnLine source offset other) :
    line = other :=
  Nat.le_antisymm (first.mono second (Nat.le_refl _)) (second.mono first (Nat.le_refl _))

end OnLine

namespace Token.Placed

variable {source : String} {token : Token}

theorem onLine (placed : token.Placed source) :
    OnLine source token.span.offset token.span.line := by
  obtain ⟨front, rest, whole, offset, _, line⟩ := placed
  exact ⟨front, whole ▸ List.prefix_append _ _, offset, line⟩

/-- A token ends as many lines behind the one it starts on as it has newlines. -/
theorem onLine_finish (placed : token.Placed source) :
    OnLine source token.span.stop (token.span.line + token.lexeme.toList.count '\n') := by
  obtain ⟨front, rest, whole, _, finish, line⟩ := placed
  refine ⟨front ++ token.lexeme.toList, ?_, finish, ?_⟩
  · rw [whole, ← List.append_assoc]
    exact List.prefix_append _ _
  · rw [line, List.count_append, Nat.add_assoc]

end Token.Placed

/-! ## The last token read -/

namespace Cursor

variable {limit : Nat} {start cursor : Cursor}

/-- What is moved over last stands no earlier than where the cursor stood. -/
theorem Aligned.offset_le_of_skip (aligned : cursor.Aligned limit) (count : Nat) :
    cursor.skip count = cursor ∨ ∃ token rest, (cursor.skip count).consumed = token :: rest ∧
      cursor.offset ≤ token.span.offset := by
  induction count generalizing cursor with
  | zero => exact .inl rfl
  | succ count ih =>
      cases unread : cursor.unread with
      | nil => exact .inl (skip_nil unread _)
      | cons token rest =>
          obtain ⟨alignedNext, gains⟩ := aligned.passed unread
          have here : cursor.offset = token.span.offset := by
            simp [offset, peek, ahead, unread]
          rw [skip_cons unread]
          right
          rcases ih alignedNext with same | ⟨last, others, consumed, behind⟩
          · rw [same]
            exact ⟨token, cursor.consumed, rfl, Nat.le_of_eq here⟩
          · exact ⟨last, others, consumed, Nat.le_trans gains.offset behind⟩

/-- Where something was read on the way, the last token read stands behind where it started. -/
theorem Aligned.exists_read (aligned : start.Aligned limit) (moves : start.Moves cursor)
    (read : cursor.weight < start.weight) : ∃ token rest, cursor.consumed = token :: rest ∧
      start.offset ≤ token.span.offset := by
  induction moves with
  | refl => exact absurd read (Nat.lt_irrefl _)
  | @skip cursor moves count _ ih =>
      obtain ⟨alignedHere, gains⟩ := aligned.moves moves
      rcases alignedHere.offset_le_of_skip count with same | ⟨token, rest, consumed, behind⟩
      · rw [same] at read ⊢
        exact ih read
      · exact ⟨token, rest, consumed, Nat.le_trans gains.offset behind⟩
  | @split cursor moves closes ih =>
      rw [weight_splitShift cursor closes] at read
      rw [consumed_splitShift]
      exact ih read

end Cursor

/-! ## Along a run -/

/-- Whether a node starts on the line that it gives, and, once it is finished, ends with a token
and gives the line on which that token starts. -/
structure Spot.Lined (source : String) (tokens : List Token) (spot : Spot) : Prop where
  starts : OnLine source spot.range.startOffset spot.range.startLine
  ends : spot.range.sealed = true → ∃ token : Token, token.PartOf tokens ∧
    spot.range.startOffset ≤ token.span.offset ∧ token.span.stop = spot.range.endOffset ∧
      token.span.line = spot.range.endLine

namespace Stage

/-- Whether a parse goes over the tokens of a list, and nodes give the lines of tokens. -/
structure Charted (source : String) (tokens : List Token) (stage : Stage) : Prop where
  cursor : stage.state.cursor.From (.ofTokens tokens)
  settled : stage.settled.From (.ofTokens tokens)
  opened : ∀ opening ∈ stage.opened, opening.start.From (.ofTokens tokens)
  lined : ∀ id spot, stage.state.tree.spot? id = some spot → id ≠ Tree.root →
    spot.Lined source tokens

variable {base limit : Nat} {stage after : Stage} {source : String} {tokens : List Token}

theorem Charted.from_place (charted : stage.Charted source tokens) {start : Cursor}
    (place : stage.Place start) : start.From (.ofTokens tokens) := by
  rcases place.apart with moves | ⟨outer, head, rfl⟩
  · exact charted.settled.moves moves
  · exact charted.opened outer (List.mem_of_mem_head? head)

theorem Charted.push (charted : stage.Charted source tokens) {start : Cursor}
    (place : stage.Place start) (node : Option NodeId) :
    ∀ opening ∈ (⟨start, node⟩ : Opening) :: stage.opened,
      opening.start.From (.ofTokens tokens) := by
  intro opening member
  rcases List.mem_cons.1 member with rfl | outer
  · exact charted.from_place place
  · exact charted.opened opening outer

variable (placed : ∀ token : Token, token.PartOf tokens → token.Placed source)
include placed

theorem Charted.finish (charted : stage.Charted source tokens) (arranged : stage.Arranged limit)
    {start last : Cursor} {node : NodeId} {outer : List Opening}
    (running : stage.opened = ⟨start, some node⟩ :: outer) (behind : stage.settled.Moves last)
    (moves : start.Moves last) (read : last.weight < start.weight) :
    (stage.finished node last outer).Charted source tokens := by
  have head : (⟨start, some node⟩ : Opening) ∈ stage.opened := running ▸ List.mem_cons_self
  obtain ⟨inner, spot, found, unsealed, starts⟩ := arranged.layout.running _ head node rfl
  have knownLast := charted.settled.moves behind
  refine ⟨charted.cursor, knownLast, ?_, ?_⟩
  · intro opening member
    exact charted.opened opening (running ▸ List.mem_cons_of_mem _ member)
  · intro id other there below
    change (stage.state.tree.finish node last.previousSpan).spot? id = some other at there
    rw [Tree.spot?_finish found unsealed] at there
    rcases eq_or_of_update there with ⟨rfl, rfl⟩ | ⟨_, old⟩
    · obtain ⟨token, rest, consumed, since⟩ :=
        (arranged.opened _ head).exists_read moves read
      have part : token.PartOf tokens :=
        (knownLast.consumed token (consumed ▸ List.mem_cons_self)).1
      have span : last.previousSpan = token.span := by
        simp [Cursor.previousSpan, consumed]
      have before : spot.range.startOffset ≤ token.span.offset := starts ▸ since
      have line := (charted.lined id spot found below).starts.mono (placed token part).onLine before
      have offset : spot.range.startOffset ≤ token.span.stop :=
        Nat.le_trans before (Nat.le_add_right _ _)
      refine ⟨(charted.lined id spot found below).starts, fun _ => ⟨token, part, before, ?_, ?_⟩⟩
      · simp only [SourceRange.finalize, SourceRange.setEnd, span]
        omega
      · simp only [SourceRange.finalize, SourceRange.setEnd, span]
        omega
    · exact charted.lined id other old below

/-- A step keeps the lines of nodes those of tokens. -/
theorem Step.charted (step : Step base stage after) (arranged : stage.Arranged limit)
    (charted : stage.Charted source tokens) : after.Charted source tokens := by
  cases step with
  | read moves => exact { charted with cursor := charted.cursor.moves moves }
  | note | change => exact { charted with }
  | @amend node change same =>
      have kept : (stage.state.tree.updateTemplate node change).spot? =
          stage.state.tree.spot? := by
        rw [Tree.updateTemplate]
        apply Tree.spot?_update <;> intro found <;> split <;> rfl
      exact { charted with lined := fun id spot found => charted.lined id spot (kept ▸ found) }
  | await place => exact { charted with opened := charted.push place none }
  | cancel waiting =>
      refine { charted with opened := ?_ }
      intro opening member
      exact charted.opened opening (waiting ▸ List.mem_cons_of_mem _ member)
  | @begin start kind table place =>
      refine { charted with opened := charted.push place _, lined := ?_ }
      intro id spot found below
      change (stage.state.tree.add kind stage.around start.peek.span).2.spot? id = some spot
        at found
      rw [Tree.spot?_add] at found
      rcases eq_or_of_update found with ⟨rfl, rfl⟩ | ⟨_, old⟩
      · refine ⟨(placed _ ((charted.from_place place).ahead 0)).onLine, ?_⟩
        intro done
        cases done
      · exact charted.lined id spot old below
  | finish running behind _ moves read =>
      exact charted.finish placed arranged running behind moves read

theorem Run.charted (run : Run base stage after) (ready : stage.Ready base)
    (arranged : stage.Arranged limit) (charted : stage.Charted source tokens) :
    after.Charted source tokens := by
  induction run with
  | refl => exact charted
  | tail run step ih => exact step.charted placed (Run.arranged run ready arranged) ih

end Stage

theorem ParseState.charted_startStage (options : ParseOptions) (table : SymbolTable)
    (unit : UnitId) (source : String) : (startStage options table unit source).Charted source
      (TokenStream.ofSource options.dialect source).valid where
  cursor := parts_startCursor options.dialect source
  settled := parts_startCursor options.dialect source
  opened := by rintro _ ⟨⟩
  lined id spot found inner := by
    have only : id.index < 1 := Tree.lt_size_of_spot? found
    exact absurd (congrArg NodeId.mk (by omega : id.index = 0)) inner

/-! ## Behind a parse -/

/-- The translation unit of a finished tree covers the lines of the source. -/
theorem Tree.range_finishRoot {tree : Tree} {length line : Nat} {unit : Node}
    (found : (tree.finishRoot length line).get? root = some unit) :
    unit.range = ⟨0, length, 1, max line 1, true⟩ := by
  rw [finishRoot, get?_update, if_pos rfl] at found
  obtain ⟨_, _, rfl⟩ := Option.map_eq_some_iff.1 found
  simp [SourceRange.finalize, SourceRange.setEnd, SourceRange.setStart]

/-- What lines the nodes of a tree give, by the tokens of its source.  Each starts on the line that
it gives.  The translation unit also ends on the line that it gives; any other node ends with a
token, and gives the line on which that token starts.  This is the line of its end if and only if
the token has no newline, and otherwise it falls short by the newlines of the token, which is a
literal between quotes. -/
structure Tree.Lined (tree : Tree) (source : String) (tokens : List Token) : Prop where
  starts : ∀ id node, tree.get? id = some node →
    OnLine source node.range.startOffset node.range.startLine
  whole : ∀ node, tree.get? root = some node →
    OnLine source node.range.endOffset node.range.endLine
  ends : ∀ id node, tree.get? id = some node → id ≠ root → ∃ token : Token,
    token.PartOf tokens ∧ node.range.startOffset ≤ token.span.offset ∧
      token.span.stop = node.range.endOffset ∧ token.span.line = node.range.endLine ∧
      OnLine source node.range.endOffset (node.range.endLine + token.lexeme.toList.count '\n') ∧
      (OnLine source node.range.endOffset node.range.endLine ↔ '\n' ∉ token.lexeme.toList) ∧
      ('\n' ∈ token.lexeme.toList →
        token.kind = .literal .string ∨ token.kind = .literal .character)

/-- The lines of every unit, whatever errors its source has. -/
theorem lines_parseUnit (options : ParseOptions) {table : SymbolTable}
    (reached : table.Reachable) (unit : UnitId) (source : String) :
    (parseUnit options table unit source).tree.Lined source
      (TokenStream.ofSource options.dialect source).valid := by
  have since := reached.framesSince
  obtain ⟨final, settled, finished, run⟩ :=
    ParseState.exists_run options reached since (Nat.zero_le _) unit source
  have ready := ParseState.ready_startStage options reached since (Nat.zero_le _) unit source
  have start := ParseState.arranged_startStage options table unit source
  have placed (token : Token)
      (part : token.PartOf (TokenStream.ofSource options.dialect source).valid) :
      token.Placed source := part.placed
  have arranged := run.arranged ready start
  have charted := run.charted placed ready start
    (ParseState.charted_startStage options table unit source)
  simp only [parseUnit, ParseState.parsed, ParseState.finish_eq finished]
  constructor
  case starts =>
    intro id node found
    rcases Tree.finishRoot_cases arranged.layout found with ⟨rfl, _⟩ | ⟨inner, spot⟩
    · rw [Tree.range_finishRoot found]
      exact ⟨[], List.nil_prefix, rfl, rfl⟩
    · exact (charted.lined id _ spot inner).1
  case whole =>
    intro node found
    have last : final.cursor.peek.Placed source := placed _ (charted.cursor.ahead 0)
    obtain ⟨front, starts, offset, line⟩ := last.onLine
    rw [Tree.range_finishRoot found]
    refine ⟨front, starts, offset, ?_⟩
    simp only
    omega
  case ends =>
    intro id node found inner
    rcases Tree.finishRoot_cases arranged.layout found with ⟨rfl, _⟩ | ⟨_, spot⟩
    · exact absurd rfl inner
    obtain ⟨_, ends⟩ := charted.lined id _ spot inner
    obtain ⟨token, part, since, finish, line⟩ := ends (arranged.layout.done spot inner).1
    have truly := (placed token part).onLine_finish
    rw [finish, line] at truly
    refine ⟨token, part, since, finish, line, truly, ?_, part.quoted_of_newline⟩
    rw [← List.count_eq_zero]
    constructor
    · intro given
      have same := truly.unique given
      simp only at same
      omega
    · intro none
      rwa [none, Nat.add_zero] at truly

/-- The lines of every unit whose source has less than 2 ^ 32 - 1 bytes. -/
theorem lines_parseUnit? (options : ParseOptions) {table : SymbolTable}
    (reached : table.Reachable) (unit : UnitId) {source : String}
    (short : source.utf8ByteSize < counterRange - 1) :
    ∃ stream parsed, TokenStream.ofSource? options.dialect source = some stream ∧
      parseUnit? options table unit source = some parsed ∧
        parsed.tree.Lined source stream.valid :=
  ⟨_, _, TokenStream.ofSource?_eq _ short, parseUnit?_eq options table unit short,
    lines_parseUnit options reached unit source⟩

/-- A variable whose initializer goes over a line, with another one behind it on that line. -/
def continuedText : String :=
  "const char* a = \"x\\\ny\", *b;"

/-- In a second unit, the first of these variables gives the first line for its end, which lies on
the second one: it ends with a literal that starts on the first. -/
theorem lines_parseUnit?_continued :
    (parseSource "int;").table.Reachable ∧ continuedText.utf8ByteSize < counterRange - 1 ∧
      ∃ stream parsed, TokenStream.ofSource? .cpp continuedText = some stream ∧
        parseUnit? {} (parseSource "int;").table ⟨1⟩ continuedText = some parsed ∧
        ∃ node, parsed.tree.get? ⟨1⟩ = some node ∧ node.range = ⟨0, 22, 1, 1, true⟩ ∧
          OnLine continuedText 22 2 ∧ ∃ token : Token, token.PartOf stream.valid ∧
            token.span.stop = 22 ∧ token.span.line = 1 ∧ '\n' ∈ token.lexeme.toList := by
  have reached := reachable_parseUnit {} .empty ⟨0⟩ "int;"
  have short : continuedText.utf8ByteSize < counterRange - 1 := by decide +kernel
  obtain ⟨stream, parsed, read, same, lined⟩ := lines_parseUnit? {} reached ⟨1⟩ short
  have ranges : ((parseUnit {} (parseSource "int;").table ⟨1⟩ continuedText).tree.get? ⟨1⟩).map
      Node.range = some ⟨0, 22, 1, 1, true⟩ := by
    decide +kernel
  rw [show parseUnit {} (parseSource "int;").table ⟨1⟩ continuedText = parsed from
    Option.some.inj ((parseUnit?_eq _ _ _ short).symm.trans same)] at ranges
  obtain ⟨node, found, range⟩ := Option.map_eq_some_iff.1 ranges
  obtain ⟨token, part, -, finish, line, -, exact, -⟩ := lined.ends _ _ found (by decide)
  rw [range] at finish line exact
  have second : OnLine continuedText 22 2 :=
    ⟨continuedText.toList.take 22, List.take_prefix _ _, by decide +kernel, by decide +kernel⟩
  refine ⟨reached, short, stream, parsed, read, same, node, found, range, second, token, part,
    finish, line, ?_⟩
  by_contra single
  exact absurd ((exact.2 single).unique second) (by decide)

end DeclTree
