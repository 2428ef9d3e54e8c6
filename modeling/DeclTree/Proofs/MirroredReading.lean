import DeclTree.Proofs.JoinedStates

/-!
# Reading behind another source

Tokens are read and passed over in the same way wherever they stand.
-/

namespace DeclTree

namespace ParseM

variable {α β : Type} {front : Front} {start stop : Bool}

/-! ## Looking ahead -/

theorem mirrors_ahead (distance : Nat) :
    Mirrors front start start (ahead distance) (ahead distance) :=
  .looks fun _ _ joins => joins.cursor.ahead distance

theorem mirrors_peek : Mirrors front start start peek peek :=
  .looks fun _ _ joins => joins.cursor.ahead 0

theorem mirrors_unread : Mirrors front start start unread unread :=
  .looks fun _ _ joins => joins.cursor.unread

theorem mirrors_check (kind : TokenKind) : Mirrors front start start (check kind) (check kind) :=
  mirrors_peek.bind fun _ => .pure rfl

theorem mirrors_checkAhead (distance : Nat) (kind : TokenKind) :
    Mirrors front start start (checkAhead distance kind) (checkAhead distance kind) :=
  (mirrors_ahead distance).bind fun _ => .pure rfl

theorem mirrors_checkWord (word : String) :
    Mirrors front start start (checkWord word) (checkWord word) :=
  mirrors_peek.bind fun _ => .pure rfl

/-- The number of tokens read counts those in front. -/
theorem mirrors_mark :
    MirrorsAs front start start (· + front.tokens.length) mark mark :=
  .looks fun _ _ joins => joins.cursor.mark

theorem mirrors_since (mark : Nat) :
    Mirrors front start start (since mark) (since (mark + front.tokens.length)) :=
  .looks fun _ _ joins => joins.cursor.since mark

theorem mirrors_previousSpan : Mirrors front true true previousSpan previousSpan :=
  fun _ joined joins begun => ⟨⟨joined, congrArg (EStateM.Result.ok · joined)
    (joins.cursor.previousSpan (begun rfl)), joins⟩, fun _ => begun rfl⟩

/-! ## Reading tokens -/

theorem mirrors_moveCursor {own joined : ParseState} (joins : own.Joins front joined)
    {further mirrored : Cursor} (still : further.Joins front mirrored) :
    { own with cursor := further }.Joins front { joined with cursor := mirrored } :=
  { joins with cursor := still }

theorem begun_skip {own : ParseState} (begun : own.Begun) (count : Nat) :
    (own.cursor.skip count).consumed ≠ [] := by
  unfold Cursor.skip
  exact List.append_ne_nil_of_right_ne_nil _ begun

theorem mirrors_skip (count : Nat) : Mirrors front start start (skip count) (skip count) := by
  intro own joined joins begun
  have length : joined.cursor.unread.length = own.cursor.unread.length := by
    rw [joins.cursor.unread, Displacement.length_move]
  unfold Meets
  by_cases within : count ≤ own.cursor.unread.length ∨ count = 1
  · have there : count ≤ joined.cursor.unread.length ∨ count = 1 := by rwa [length]
    rw [skip_within within]
    exact ⟨⟨_, skip_within there, mirrors_moveCursor joins (joins.cursor.skip count)⟩,
      fun known => begun_skip (known.elim id begun) count⟩
  · rw [skip_beyond within]
    trivial

theorem mirrors_next : Mirrors front start stop (skip 1) (skip 1) := by
  refine MirrorsAs.begins fun own joined joins _ => ?_
  unfold Meets
  rw [skip_one]
  refine ⟨⟨_, skip_one joined, mirrors_moveCursor joins (joins.cursor.skip 1)⟩, fun _ => ?_⟩
  rcases joins.cursor.nonempty with read | more
  · exact begun_skip read 1
  · change (own.cursor.unread.take 1).reverse ++ _ ≠ []
    exact List.append_ne_nil_of_left_ne_nil (by simpa using more) _

theorem mirrors_advance : Mirrors front start stop advance advance :=
  mirrors_peek.bind fun _ => mirrors_next.bind fun _ => .pure rfl

theorem mirrors_eat (kind : TokenKind) : Mirrors front start start (eat kind) (eat kind) :=
  (mirrors_check kind).bind fun _ => .ite (fun _ => mirrors_next.bind fun _ => .pure rfl)
    fun _ => .pure rfl

theorem mirrors_expect (kind : TokenKind) :
    Mirrors front start stop (expect kind) (expect kind) :=
  mirrors_peek.bind fun _ => .ite (fun _ => mirrors_advance) fun _ =>
    .ite (fun _ => .refuse _ _) fun _ => .refuse _ _

theorem mirrors_refuseName [Displaceable α] :
    Mirrors front start stop (refuseName : ParseM α) refuseName :=
  mirrors_peek.bind fun _ => .refuse _ _

theorem mirrors_expectIdentifier :
    Mirrors front start stop expectIdentifier expectIdentifier :=
  (mirrors_check _).bind fun _ => .ite (fun _ => mirrors_advance) fun _ => mirrors_refuseName

/-! ## Passing over tokens -/

theorem mirrors_pass (stretch : Stretch) :
    Mirrors front start start (pass stretch) (pass (front.displacement.move stretch)) := by
  refine (mirrors_skip stretch.length).bind fun _ => ?_
  obtain ⟨length, unclosed⟩ := stretch
  cases unclosed with
  | none => exact .pure rfl
  | some opener => exact .refuse _ _

/-- A stretch that is measured ahead and then passed over. -/
theorem mirrors_passAhead {measure : List Token → Stretch}
    (same : ∀ tokens, measure (front.displacement.move tokens) =
      front.displacement.move (measure tokens)) :
    Mirrors front start start (do pass (measure (← unread))) (do pass (measure (← unread))) :=
  mirrors_unread.bind fun tokens => by
    rw [same]
    exact mirrors_pass _

theorem mirrors_skipGroup : Mirrors front start start skipGroup skipGroup :=
  mirrors_passAhead front.displacement.group_move

theorem mirrors_skipGroupIf (opener : Punct) :
    Mirrors front start start (skipGroupIf opener) (skipGroupIf opener) :=
  (mirrors_check _).bind fun _ => .ite (fun _ => mirrors_skipGroup) fun _ => .pure rfl

theorem mirrors_skipExpression (stops : List TokenKind) :
    Mirrors front start start (skipExpression stops) (skipExpression stops) :=
  mirrors_passAhead (front.displacement.expression_move stops)

theorem mirrors_skipAttributes : Mirrors front start start skipAttributes skipAttributes :=
  mirrors_passAhead front.displacement.attributes_move

/-- A number of tokens that is measured ahead and then read. -/
theorem mirrors_skipAhead {measure : List Token → Nat}
    (same : ∀ tokens, measure (front.displacement.move tokens) = measure tokens) :
    Mirrors front start start (do skip (measure (← unread))) (do skip (measure (← unread))) :=
  mirrors_unread.bind fun tokens => by
    rw [same]
    exact mirrors_skip _

theorem mirrors_synchronize : Mirrors front start start synchronize synchronize :=
  mirrors_skipAhead front.displacement.recovery_move

/-- The tokens in front of the first one that is not of a kind. -/
theorem mirrors_skipWhile (kinds : TokenKind → Bool) :
    Mirrors front start start
      (do skip ((← unread).takeWhile fun token => kinds token.kind).length)
      (do skip ((← unread).takeWhile fun token => kinds token.kind).length) := by
  refine mirrors_skipAhead fun tokens => ?_
  change ((tokens.map front.displacement.move).takeWhile _).length = _
  rw [List.takeWhile_map, List.length_map]
  rfl

theorem mirrors_splitShift : Mirrors front start start splitShift splitShift := by
  intro own joined joins begun
  have kind : joined.cursor.peek.kind = own.cursor.peek.kind :=
    (congrArg Token.kind (joins.cursor.ahead 0)).trans rfl
  have split (state : ParseState) : splitShift state =
      (if state.cursor.peek.kind = .punct .greaterGreater then
        set { state with cursor := state.cursor.splitShift } else throw .stuck : ParseM Unit)
        state := rfl
  unfold Meets
  rw [split, split, kind]
  by_cases closes : own.cursor.peek.kind = .punct .greaterGreater
  · rw [if_pos closes, if_pos closes]
    refine ⟨⟨_, rfl, mirrors_moveCursor joins joins.cursor.splitShift⟩, fun known => ?_⟩
    have read := known.elim id begun
    unfold ParseState.Begun Cursor.splitShift at *
    split <;> exact read
  · rw [if_neg closes]
    trivial

theorem mirrors_passAngle (reach : Angle.Reach) {missing mirrored : ParseM Unit}
    (lacks : Mirrors front start start missing mirrored) :
    Mirrors front start start (passAngle reach missing)
      (passAngle (front.displacement.move reach) mirrored) := by
  refine (mirrors_skip reach.length).bind fun _ => ?_
  obtain ⟨length, ending⟩ := reach
  cases ending with
  | closed => exact .pure rfl
  | split => exact mirrors_splitShift.bind fun _ => mirrors_next
  | missing => exact lacks
  | unclosedGroup opener => exact .refuse _ _

theorem mirrors_passAngleAhead {measure : List Token → Angle.Reach} {missing mirrored : ParseM Unit}
    (same : ∀ tokens, measure (front.displacement.move tokens) =
      front.displacement.move (measure tokens))
    (lacks : Mirrors front start start missing mirrored) :
    Mirrors front start start (do passAngle (measure (← unread)) missing)
      (do passAngle (measure (← unread)) mirrored) :=
  mirrors_unread.bind fun tokens => by
    rw [same]
    exact mirrors_passAngle _ lacks

theorem mirrors_skipTemplateArguments :
    Mirrors front start start skipTemplateArguments skipTemplateArguments :=
  (mirrors_expect _).bind fun _ =>
    mirrors_passAngleAhead (front.displacement.arguments_move 1) (.refuse _ _)

theorem mirrors_skipClosedArguments :
    Mirrors front start start skipClosedArguments skipClosedArguments := by
  refine mirrors_unread.bind fun tokens => ?_
  rw [front.displacement.close?_move]
  exact .ite (fun _ => mirrors_skipTemplateArguments.bind fun _ => .pure rfl) fun _ => .pure rfl

theorem mirrors_jumpClosedArguments :
    Mirrors front start start jumpClosedArguments jumpClosedArguments :=
  mirrors_skipAhead fun tokens =>
    congrArg (Option.getD · 0) (front.displacement.close?_move tokens)

theorem mirrors_skipParameterDefault :
    Mirrors front start start skipParameterDefault skipParameterDefault :=
  mirrors_passAngleAhead (front.displacement.parameterDefault_move 0)
    (mirrors_peek.bind fun _ => .refuse _ _)

theorem mirrors_expectClosingAngle :
    Mirrors front start start expectClosingAngle expectClosingAngle := by
  have closes : Mirrors front start start (do let _ ← expect (.punct .greater))
      (do let _ ← expect (.punct .greater)) := (mirrors_expect _).bind fun _ => .pure rfl
  exact (mirrors_check _).bind fun _ => .ite (fun _ => mirrors_splitShift.bind fun _ => closes)
    fun _ => closes

/-! ## Reporting -/

theorem mirrors_report (error : ParseError) :
    Mirrors front start start (report error) (report (front.displacement.move error)) := by
  refine .modify fun own joined joins => { joins with errors := ?_ }
  obtain ⟨further, here, there⟩ := joins.errors
  refine ⟨further ++ [error], ?_, ?_⟩
  · rw [Array.toList_push, here, List.append_assoc]
  · rw [Array.toList_push, there, List.append_assoc]
    have appended : front.displacement.move (further ++ [error]) =
        front.displacement.move further ++ [front.displacement.move error] := List.map_append
    rw [appended]

theorem mirrors_complain (complaint : Complaint) (span : Span) :
    Mirrors front start start (complain complaint span)
      (complain complaint (front.displacement.move span)) :=
  mirrors_report (complaint.locate span)

end ParseM

end DeclTree
