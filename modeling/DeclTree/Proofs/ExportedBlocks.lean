import DeclTree.Proofs.ReadOnly

/-!
# Blocks of exported declarations

A block of exported declarations may stand wherever a declaration is read, also behind a template
prefix that still waits for its own.  In between there is only what belongs to the prefix:
constraints, attributes and the word that exports.  None of it ends a declaration, so a block
behind the end of the declaration that a prefix was for is not one of these.
-/

namespace DeclTree

/-- Kinds of tokens at which a declaration ends or its body starts. -/
def TokenKind.boundsDeclaration (kind : TokenKind) : Bool :=
  kind = .punct .semicolon || kind = .punct .leftBrace || kind = .punct .rightBrace

/-- Whether a declaration comes to a block of exported declarations before it ends: in front of
the block there is no semicolon and no brace, except in parentheses, in brackets and in template
arguments. -/
inductive ComesToBlock : List Token → Prop
  | block {word brace : Token} {rest : List Token} (exports : word.kind = .keyword .exportKw)
      (opens : brace.kind = .punct .leftBrace) : ComesToBlock (word :: brace :: rest)
  | token {token : Token} {rest : List Token} (inside : token.kind.boundsDeclaration = false)
      (behind : ComesToBlock rest) : ComesToBlock (token :: rest)
  | group {token : Token} {rest : List Token}
      (opens : token.kind = .punct .leftParen ∨ token.kind = .punct .leftBracket)
      (behind : ComesToBlock ((token :: rest).drop (Stretch.group (token :: rest)).length)) :
      ComesToBlock (token :: rest)
  | arguments {token : Token} {rest : List Token} (opens : token.kind = .punct .less)
      (behind : ComesToBlock (rest.drop (Angle.arguments 1 rest).length)) :
      ComesToBlock (token :: rest)

/-- Whether somewhere among some tokens an angle bracket is closed behind which a declaration comes
to a block of exported declarations. -/
def ClosesOnBlock (tokens : List Token) : Prop :=
  ∃ front angle rest, tokens = front ++ angle :: rest ∧
    (angle.kind = .punct .greater ∨ angle.kind = .punct .greaterGreater) ∧ ComesToBlock rest

/-- Whether somewhere among some tokens a template prefix is still open where a block of exported
declarations starts: there is nothing between the end of its parameter list and the block that ends
a declaration. -/
def Heralds (tokens : List Token) : Prop :=
  ∃ front word opener rest, tokens = front ++ word :: opener :: rest ∧
    word.kind = .keyword .templateKw ∧ opener.kind = .punct .less ∧ ClosesOnBlock rest

section Tokens

variable {token : Token} {tokens rest : List Token}

theorem not_comesToBlock_nil : ¬ ComesToBlock [] := by
  rintro ⟨⟩

/-- An angle bracket that is closed stands for itself only. -/
theorem ComesToBlock.of_greater (comes : ComesToBlock (token :: rest))
    (greater : token.kind = .punct .greater) : ComesToBlock rest := by
  cases comes with
  | block exports => simp [greater] at exports
  | token _ behind => exact behind
  | group opens => simp [greater] at opens
  | arguments opens => simp [greater] at opens

theorem ClosesOnBlock.of_suffix (closes : ClosesOnBlock rest) (suffix : rest <:+ tokens) :
    ClosesOnBlock tokens := by
  obtain ⟨front, angle, behind, rfl, closing, comes⟩ := closes
  obtain ⟨before, rfl⟩ := suffix
  exact ⟨before ++ front, angle, behind, by simp, closing, comes⟩

theorem Heralds.of_suffix (heralds : Heralds rest) (suffix : rest <:+ tokens) : Heralds tokens := by
  obtain ⟨front, word, opener, behind, rfl, named, opens, closes⟩ := heralds
  obtain ⟨before, rfl⟩ := suffix
  exact ⟨before ++ front, word, opener, behind, by simp, named, opens, closes⟩

theorem ClosesOnBlock.of_cons (closes : ClosesOnBlock (token :: rest))
    (less : token.kind = .punct .less) : ClosesOnBlock rest := by
  obtain ⟨front, angle, behind, whole, closing, comes⟩ := closes
  cases front with
  | nil =>
      obtain ⟨rfl, -⟩ := List.cons.inj whole
      simp [less] at closing
  | cons first front => exact ⟨front, angle, behind, (List.cons.inj whole).2, closing, comes⟩

theorem Heralds.of_greater (heralds : Heralds (token :: rest))
    (greater : token.kind = .punct .greater) : Heralds rest := by
  obtain ⟨front, word, opener, behind, whole, named, opens, closes⟩ := heralds
  cases front with
  | nil =>
      obtain ⟨rfl, -⟩ := List.cons.inj whole
      simp [greater] at named
  | cons first front =>
      exact ⟨front, word, opener, behind, (List.cons.inj whole).2, named, opens, closes⟩

/-- A token that closes two lists closes on the same blocks when it is split. -/
theorem ClosesOnBlock.of_halves {first second : Token}
    (closes : ClosesOnBlock (first :: second :: rest)) (greater : second.kind = .punct .greater)
    (shift : token.kind = .punct .greaterGreater) : ClosesOnBlock (token :: rest) := by
  obtain ⟨front, angle, behind, whole, closing, comes⟩ := closes
  rcases front with _ | ⟨_, _ | ⟨_, front⟩⟩ <;> obtain ⟨rfl, behindFirst⟩ := List.cons.inj whole
  · obtain rfl : second :: rest = behind := behindFirst
    exact ⟨[], token, rest, rfl, .inr shift, comes.of_greater greater⟩
  · obtain ⟨rfl, rfl⟩ := List.cons.inj behindFirst
    exact ⟨[], token, rest, rfl, .inr shift, comes⟩
  · obtain ⟨rfl, rfl⟩ := List.cons.inj behindFirst
    exact ⟨token :: front, angle, behind, rfl, closing, comes⟩

end Tokens

/-! ## Cursors -/

namespace Cursor

variable {start cursor : Cursor}

theorem unread_skip_suffix (cursor : Cursor) (count : Nat) :
    (cursor.skip count).unread <:+ cursor.unread := by
  rw [unread_skip]
  exact List.drop_suffix _ _

/-- A token that closes two lists is there to be split, or the text is at its end. -/
theorem unread_splitShift_cases (closes : cursor.peek.kind = .punct .greaterGreater) :
    (cursor.unread = [] ∧ cursor.splitShift.unread = []) ∨ ∃ token first second rest,
      cursor.unread = token :: rest ∧ token.kind = .punct .greaterGreater ∧
        cursor.splitShift.unread = first :: second :: rest ∧
          first.kind = .punct .greater ∧ second.kind = .punct .greater := by
  cases unread : cursor.unread with
  | nil => exact .inl ⟨rfl, by simp [splitShift, unread]⟩
  | cons token rest =>
      have peek : cursor.peek = token := by simp [Cursor.peek, ahead, unread]
      obtain ⟨first, second, halves⟩ : ∃ first second, shiftHalves token = [first, second] :=
        ⟨_, _, rfl⟩
      have greater {half : Token} (member : half ∈ [first, second]) :
          half.kind = .punct .greater := kind_of_mem_shiftHalves (halves ▸ member)
      exact .inr ⟨token, first, second, rest, rfl, peek ▸ closes,
        by simp [splitShift, unread, halves], greater (by simp), greater (by simp)⟩

/-- No block comes into view by moving on. -/
theorem Moves.closesOnBlock (moves : start.Moves cursor) (closes : ClosesOnBlock cursor.unread) :
    ClosesOnBlock start.unread := by
  induction moves with
  | refl => exact closes
  | skip _ _ ih => exact ih (closes.of_suffix (unread_skip_suffix _ _))
  | split _ shift ih =>
      apply ih
      rcases unread_splitShift_cases shift with ⟨none, same⟩ |
        ⟨token, first, second, rest, before, kind, after, _, greater⟩
      · rwa [same, ← none] at closes
      · rw [after] at closes
        rw [before]
        exact closes.of_halves greater kind

/-- No prefix in front of a block comes into view by moving on. -/
theorem Moves.heralds (moves : start.Moves cursor) (heralds : Heralds cursor.unread) :
    Heralds start.unread := by
  induction moves with
  | refl => exact heralds
  | skip _ _ ih => exact ih (heralds.of_suffix (unread_skip_suffix _ _))
  | split _ shift ih =>
      apply ih
      rcases unread_splitShift_cases shift with ⟨none, same⟩ |
        ⟨token, first, second, rest, before, _, after, greater, greaterToo⟩
      · rwa [same, ← none] at heralds
      · rw [after] at heralds
        rw [before]
        exact ((heralds.of_greater greater).of_greater greaterToo).of_suffix (List.suffix_cons _ _)

theorem comesToBlock_of_next (inside : cursor.peek.kind.boundsDeclaration = false)
    (comes : ComesToBlock (cursor.skip 1).unread) : ComesToBlock cursor.unread := by
  rw [unread_skip] at comes
  cases unread : cursor.unread with
  | nil =>
      rw [unread] at comes
      exact absurd comes not_comesToBlock_nil
  | cons token rest =>
      have peek : cursor.peek = token := by simp [Cursor.peek, ahead, unread]
      rw [unread] at comes
      exact .token (peek ▸ inside) comes

end Cursor

namespace Stretch

theorem andThen_of_closed {stretch : Stretch} {continuation : Unit → Stretch}
    (closed : (stretch.andThen continuation).unclosed = none) :
    stretch.andThen continuation = (continuation ()).shift stretch.length ∧
      (continuation ()).unclosed = none := by
  unfold andThen at closed ⊢
  split at closed
  · rename_i leftOpen
    rw [leftOpen] at closed
    cases closed
  · exact ⟨rfl, closed⟩

/-- A declaration that comes to a block behind its attributes does so in front of them. -/
theorem comesToBlock_of_attributes {tokens : List Token}
    (closed : (attributes tokens).unclosed = none)
    (comes : ComesToBlock (tokens.drop (attributes tokens).length)) : ComesToBlock tokens := by
  fun_induction attributes tokens with
  | case1 | case4 => exact comes
  | case2 token rest brackets inner ih =>
      obtain ⟨whole, behind⟩ := andThen_of_closed closed
      rw [whole, shift, ← List.drop_drop] at comes
      exact .group (.inr brackets.1) (ih behind comes)
  | case3 token rest _ word inner ih =>
      obtain ⟨whole, behind⟩ := andThen_of_closed closed
      rw [whole, shift, shift, Nat.add_comm, List.drop_succ_cons, ← List.drop_drop] at comes
      have inside : token.kind.boundsDeclaration = false := by
        rcases word with word | word
        · rw [word]
          rfl
        · simp only [isVendorAttribute, Bool.and_eq_true, beq_iff_eq] at word
          rw [word.1]
          rfl
      have arguments : ComesToBlock (rest.drop inner.length) → ComesToBlock rest := by
        cases rest with
        | nil => simp
        | cons opener rest =>
            by_cases opens : opener.kind = .punct .leftParen
            · simp only [inner, startsWith, List.head?_cons, Option.any_some, opens,
                beq_self_eq_true]
              exact .group (.inl opens)
            · simp [inner, startsWith, opens]
      exact .token inside (arguments (ih behind comes))

end Stretch

/-! ## Reading in front of a block -/

namespace ParseM

variable {α β : Type} {state : ParseState}

/-- Whether a declaration that comes to a block behind a parse does so in front of it. -/
def Approaches (parse : ParseM α) : Prop :=
  ∀ state, Leads parse state (fun _ next =>
    ComesToBlock next.cursor.unread → ComesToBlock state.cursor.unread) fun _ => True

namespace Approaches

theorem looks {parse : ParseM α} (sees : ∀ state, ∃ value, parse state = .ok value state) :
    Approaches parse := by
  intro state
  obtain ⟨value, run⟩ := sees state
  unfold Leads Meets
  rw [run]
  exact id

theorem pure (value : α) : Approaches (Pure.pure value : ParseM α) :=
  .looks fun _ => ⟨value, rfl⟩

theorem bind {first : ParseM α} {rest : α → ParseM β} (approaches : Approaches first)
    (following : ∀ value, Approaches (rest value)) : Approaches (first >>= rest) :=
  fun state => (approaches state).bind fun value next before =>
    (following value next).imp fun _ _ behind comes => before (behind comes)

theorem ite {condition : Prop} [Decidable condition] {first second : ParseM α}
    (left : Approaches first) (right : Approaches second) :
    Approaches (if condition then first else second) := by
  split
  · exact left
  · exact right

theorem iterate {step : α → ParseM (Step α β)} (round : ∀ value, Approaches (step value))
    (start : α) : Approaches (ParseM.iterate step start) := by
  intro state
  refine leads_iterate
    (fun _ next => ComesToBlock next.cursor.unread → ComesToBlock state.cursor.unread) id ?_
  intro value next before
  refine (round value next).imp ?_
  rintro (_ | _) last behind comes
  · exact before (behind comes)
  · exact before (behind comes)

/-- A token is read that does not end a declaration. -/
theorem next {rest : Unit → ParseM α} (inside : state.cursor.peek.kind.boundsDeclaration = false)
    (following : ∀ value, Approaches (rest value)) :
    Leads (skip 1 >>= rest) state (fun _ last =>
      ComesToBlock last.cursor.unread → ComesToBlock state.cursor.unread) fun _ => True :=
  (leads_of_ok (skip_one state)).2 ((following () state.next).imp fun _ _ behind comes =>
    Cursor.comesToBlock_of_next inside (behind comes))

end Approaches

theorem approaches_eat {kind : TokenKind} (inside : kind.boundsDeclaration = false) :
    Approaches (eat kind) :=
  fun _ => leads_ifCheck (fun found => Approaches.next (found ▸ inside) fun _ => .pure _)
    fun _ => id

theorem approaches_expectIdentifier : Approaches expectIdentifier := by
  refine fun state => leads_ifCheck (fun found => ?_) fun _ => trivial
  exact Approaches.next (found ▸ rfl) fun _ => .pure _

theorem approaches_skipAttributes : Approaches skipAttributes := by
  refine fun state => leads_unread.2 ((leads_pass _ state).imp ?_)
  rintro _ _ ⟨closed, rfl⟩ comes
  rw [Cursor.unread_skip] at comes
  exact Stretch.comesToBlock_of_attributes closed comes

theorem leads_splitShift (state : ParseState) :
    Leads splitShift state (fun _ next => state.cursor.peek.kind = .punct .greaterGreater ∧
      next = { state with cursor := state.cursor.splitShift }) fun _ => True := by
  change Leads (if state.cursor.peek.kind = .punct .greaterGreater then _ else _ : ParseM Unit)
    state _ _
  split
  · rename_i closes
    exact ⟨closes, rfl⟩
  · trivial

/-- A list is read through its end, which may be the first half of a token. -/
theorem approaches_passAngle (reach : Angle.Reach) (complaint : Complaint) (span : Span) :
    Leads (passAngle reach (refuse complaint span)) state (fun _ next =>
      ComesToBlock next.cursor.unread →
        ComesToBlock (state.cursor.unread.drop reach.length)) fun _ => True := by
  refine (leads_skip reach.length state).bind ?_
  rintro _ _ ⟨_, rfl⟩
  rw [← Cursor.unread_skip]
  split
  · exact id
  · refine (leads_splitShift _).bind ?_
    rintro _ _ ⟨shift, rfl⟩
    refine (leads_skip 1 _).imp ?_
    rintro _ _ ⟨_, rfl⟩ comes
    rw [Cursor.unread_skip] at comes
    rcases Cursor.unread_splitShift_cases shift with ⟨_, none⟩ |
      ⟨token, first, second, rest, before, kind, after, _, greater⟩
    · rw [none] at comes
      exact absurd comes not_comesToBlock_nil
    · rw [after] at comes
      rw [before]
      exact .token (by rw [kind]; rfl) (ComesToBlock.of_greater comes greater)
  · trivial
  · trivial

theorem approaches_skipTemplateArguments : Approaches skipTemplateArguments := by
  refine fun state => leads_expect (fun opens => leads_unread.2 ?_) fun _ => trivial
  refine (approaches_passAngle _ _ _).imp fun _ _ behind comes => ?_
  have comes := behind comes
  rw [ParseState.next, Cursor.unread_skip] at comes
  cases unread : state.cursor.unread with
  | nil =>
      simp [unread, not_comesToBlock_nil] at comes
  | cons opener rest =>
      have peek : state.cursor.peek = opener := by simp [Cursor.peek, Cursor.ahead, unread]
      rw [unread] at comes
      exact .arguments (peek ▸ opens) comes

theorem approaches_skipClosedArguments : Approaches skipClosedArguments :=
  fun _ => leads_unread.2 (Approaches.ite
    (.bind approaches_skipTemplateArguments fun _ => .pure true) (.pure false) _)

theorem approaches_nameSegment (mark : Nat) (isGlobal : Bool) (segments : List String) :
    Approaches (nameSegment mark isGlobal segments) := by
  refine .bind (approaches_eat rfl) fun _ => .bind approaches_expectIdentifier fun name =>
    .bind approaches_skipClosedArguments fun hasArguments state => ?_
  refine tellsOf_nameContinues.choose (fun found => ?_) ?_
  · exact Approaches.next (found ▸ rfl) fun _ => .pure _
  · exact Approaches.bind (.looks fun _ => ⟨_, rfl⟩) (fun _ => .pure _) state

theorem approaches_namePath : Approaches namePath :=
  .bind (.looks fun _ => ⟨_, rfl⟩) fun _ => .bind (approaches_eat rfl) fun _ =>
    .iterate (approaches_nameSegment _ _) []

theorem approaches_skipGroup (opens : state.cursor.peek.kind = .punct .leftParen) :
    Leads skipGroup state (fun _ next =>
      ComesToBlock next.cursor.unread → ComesToBlock state.cursor.unread) fun _ => True := by
  refine leads_unread.2 ((leads_pass _ state).imp ?_)
  rintro _ _ ⟨_, rfl⟩ comes
  rw [Cursor.unread_skip] at comes
  cases unread : state.cursor.unread with
  | nil => simp [unread, not_comesToBlock_nil] at comes
  | cons opener rest =>
      have peek : state.cursor.peek = opener := by simp [Cursor.peek, Cursor.ahead, unread]
      rw [unread] at comes
      exact .group (.inl (peek ▸ opens)) comes

theorem approaches_constraintOperand (round : Unit) : Approaches (constraintOperand round) := by
  have operator : Approaches (do
      if ← eat (.punct .ampAmp) then return .again ()
      else if ← eat (.punct .pipePipe) then return .again ()
      else return .done () : ParseM (Step Unit Unit)) :=
    .bind (approaches_eat rfl) fun _ =>
      .ite (.pure _) (.bind (approaches_eat rfl) fun _ => .ite (.pure _) (.pure _))
  refine fun state => leads_peek.2 ?_
  split
  · rename_i opens
    exact (approaches_skipGroup opens).bind fun _ next before =>
      (operator next).imp fun _ _ behind comes => before (behind comes)
  · split
    · rename_i literal
      refine Approaches.next ?_ fun _ => operator
      cases kind : state.cursor.peek.kind <;>
        simp_all [TokenKind.isLiteral, TokenKind.boundsDeclaration]
    · exact Approaches.bind approaches_namePath (fun _ => operator) state

theorem approaches_skipConstraint : Approaches skipConstraint :=
  fun state => (tellsOf_checkWord "requires").choose
    (fun found => Approaches.next (found ▸ rfl) fun _ => .iterate approaches_constraintOperand ())
    (Approaches.pure () state)

/-- Behind the end of a parameter list a declaration comes to a block only if the list closes on
one. -/
theorem leads_expectClosingAngle :
    Leads expectClosingAngle state (fun _ next =>
      ComesToBlock next.cursor.unread → ClosesOnBlock state.cursor.unread) fun _ => True := by
  have expected (here : ParseState) : Leads (do let _ ← expect (.punct .greater)) here
      (fun _ next => ComesToBlock next.cursor.unread → ∃ token,
        token.kind = .punct .greater ∧ here.cursor.unread = token :: next.cursor.unread)
      fun _ => True := by
    refine leads_expect (fun found comes => ?_) fun _ => trivial
    rw [ParseState.next, Cursor.unread_skip] at comes ⊢
    cases unread : here.cursor.unread with
    | nil => simp [unread, not_comesToBlock_nil] at comes
    | cons token rest =>
        have peek : here.cursor.peek = token := by simp [Cursor.peek, Cursor.ahead, unread]
        exact ⟨token, peek ▸ found, rfl⟩
  refine leads_ifCheck (fun shift => ?_) fun _ => ?_
  · refine (leads_splitShift state).bind ?_
    rintro _ _ ⟨_, rfl⟩
    refine (expected _).imp fun _ next read comes => ?_
    obtain ⟨half, _, halved⟩ := read comes
    rcases Cursor.unread_splitShift_cases shift with ⟨_, none⟩ |
      ⟨token, first, second, rest, before, kind, after, _, greater⟩
    · simp [none] at halved
    · rw [after] at halved
      rw [← (List.cons.inj halved).2] at comes
      exact ⟨[], token, rest, before, .inr kind, comes.of_greater greater⟩
  · refine (expected state).imp fun _ next read comes => ?_
    obtain ⟨token, kind, unread⟩ := read comes
    exact ⟨[], token, next.cursor.unread, unread, .inl kind, comes⟩

end ParseM

end DeclTree
