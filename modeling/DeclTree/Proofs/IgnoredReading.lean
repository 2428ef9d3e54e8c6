import DeclTree.Proofs.ArgumentLists
import DeclTree.Proofs.IgnoredSequels
import DeclTree.Proofs.ReadOnly

/-!
# Reading in front of a sequel

A token that ends no declaration is not the last one in front of a sequel, so what is read with it
does not come to the end of the text.  What is passed over comes there only where it is left open,
or where it takes the last token as well.
-/

namespace DeclTree

namespace ParseM

variable {α β : Type} {sequel : Sequel} {old : Nat} {state next : ParseState} {atEnd : α → AtEnd}

/-- A parse that yields something. -/
theorem ignoresFrom_of_ok {parse longer : ParseM α} {value : α} (run : parse state = .ok value next)
    (goesOn : state.GoesOn old next)
    (agrees : state.cursor.Approaches sequel → state.cursor.unread ≠ [] →
      AgreesBefore sequel longer state value next ∧
        (next.cursor.unread ≠ [] ∨ atEnd value ≠ .never)) :
    IgnoresFrom sequel old atEnd parse longer state := by
  intro large
  unfold Leads Meets
  rw [run]
  refine ⟨goesOn, fun approaches more => .inr ?_⟩
  obtain ⟨same, ending⟩ := agrees approaches more
  refine ⟨fun _ => same, fun spent => ?_⟩
  have known := ending.resolve_left fun still => still spent
  cases how : atEnd value with
  | never => exact absurd how known
  | anything => trivial
  | same => exact same

/-- The same in front of the sequel. -/
theorem IgnoresFrom.congr {parse longer other : ParseM α}
    (same : state.cursor.Approaches sequel → state.cursor.unread ≠ [] → longer = other)
    (ignores : IgnoresFrom sequel old atEnd parse other state) :
    IgnoresFrom sequel old atEnd parse longer state :=
  fun large => (ignores large).imp fun _ _ both => ⟨both.1, fun approaches more => by
    rw [same approaches more]
    exact both.2 approaches more⟩

/-! ## Looking -/

section Looking

variable {ending : β → AtEnd}

/-- What is seen, and what follows it. -/
theorem IgnoresFrom.look {look : ParseM α} {value : α} {rest further : α → ParseM β}
    (run : look state = .ok value state)
    (agrees : state.cursor.Approaches sequel → state.cursor.unread ≠ [] →
      AgreesBefore sequel look state value state)
    (following : IgnoresFrom sequel old ending (rest value) (further value) state) :
    IgnoresFrom sequel old ending (look >>= rest) (look >>= further) state := by
  refine fun large => (leads_of_ok run).2 ((following large).imp fun result last both => ?_)
  exact ⟨both.1, fun approaches more => (both.2 approaches more).imp (fun _ => id)
    (agrees approaches more).bind⟩

theorem IgnoresFrom.peek {rest further : Token → ParseM β}
    (following : IgnoresFrom sequel old ending (rest state.cursor.peek)
      (further state.cursor.peek) state) :
    IgnoresFrom sequel old ending (ParseM.peek >>= rest) (ParseM.peek >>= further) state :=
  .look rfl (fun _ more => congrArg (EStateM.Result.ok · _) (Cursor.peek_followedBy more)) following

theorem IgnoresFrom.mark {rest further : Nat → ParseM β}
    (following : IgnoresFrom sequel old ending (rest state.cursor.mark)
      (further state.cursor.mark) state) :
    IgnoresFrom sequel old ending (ParseM.mark >>= rest) (ParseM.mark >>= further) state :=
  .look rfl (fun _ _ => rfl) following

theorem IgnoresFrom.check {kind : TokenKind} {rest further : Bool → ParseM β}
    (following : IgnoresFrom sequel old ending (rest (state.cursor.peek.kind == kind))
      (further (state.cursor.peek.kind == kind)) state) :
    IgnoresFrom sequel old ending (ParseM.check kind >>= rest) (ParseM.check kind >>= further)
      state := by
  change IgnoresFrom sequel old ending (ParseM.peek >>= fun token => rest (token.kind == kind))
    (ParseM.peek >>= fun token => further (token.kind == kind)) state
  exact .peek following

theorem IgnoresFrom.checkWord {word : String} {rest further : Bool → ParseM β}
    (following : IgnoresFrom sequel old ending
      (rest (state.cursor.peek.kind == .identifier && state.cursor.peek.lexeme == word))
      (further (state.cursor.peek.kind == .identifier && state.cursor.peek.lexeme == word)) state) :
    IgnoresFrom sequel old ending (ParseM.checkWord word >>= rest)
      (ParseM.checkWord word >>= further) state := by
  change IgnoresFrom sequel old ending
    (ParseM.peek >>= fun token => rest (token.kind == .identifier && token.lexeme == word))
    (ParseM.peek >>= fun token => further (token.kind == .identifier && token.lexeme == word)) state
  exact .peek following

theorem IgnoresFrom.ahead {distance : Nat} {rest further : Token → ParseM β}
    (inside : state.cursor.Approaches sequel → state.cursor.unread ≠ [] →
      distance < state.cursor.unread.length)
    (following : IgnoresFrom sequel old ending (rest (state.cursor.ahead distance))
      (further (state.cursor.ahead distance)) state) :
    IgnoresFrom sequel old ending (ParseM.ahead distance >>= rest)
      (ParseM.ahead distance >>= further) state :=
  .look rfl (fun approaches more => congrArg (EStateM.Result.ok · _)
    (Cursor.ahead_followedBy (inside approaches more))) following

/-- The token behind one that ends no declaration. -/
theorem IgnoresFrom.second {rest further : Token → ParseM β}
    (inner : state.cursor.peek.kind.endsDeclaration = false)
    (following : IgnoresFrom sequel old ending (rest (state.cursor.ahead 1))
      (further (state.cursor.ahead 1)) state) :
    IgnoresFrom sequel old ending (ParseM.ahead 1 >>= rest) (ParseM.ahead 1 >>= further) state :=
  .ahead (fun approaches more => approaches.one_lt_length more inner) following

theorem IgnoresFrom.checkSecond {kind : TokenKind} {rest further : Bool → ParseM β}
    (inner : state.cursor.peek.kind.endsDeclaration = false)
    (following : IgnoresFrom sequel old ending (rest ((state.cursor.ahead 1).kind == kind))
      (further ((state.cursor.ahead 1).kind == kind)) state) :
    IgnoresFrom sequel old ending (ParseM.checkAhead 1 kind >>= rest)
      (ParseM.checkAhead 1 kind >>= further) state := by
  change IgnoresFrom sequel old ending (ParseM.ahead 1 >>= fun token => rest (token.kind == kind))
    (ParseM.ahead 1 >>= fun token => further (token.kind == kind)) state
  exact .second inner following

/-- A token ahead that does not matter. -/
theorem IgnoresFrom.unheeded {distance : Nat} {rest further : Token → ParseM β}
    (following : ∀ other, IgnoresFrom sequel old ending (rest (state.cursor.ahead distance))
      (further other) state) :
    IgnoresFrom sequel old ending (ParseM.ahead distance >>= rest)
      (ParseM.ahead distance >>= further) state := by
  have seen := following ((state.followedBy sequel).cursor.ahead distance)
  exact fun large => (seen large).imp fun result last both => ⟨both.1, fun approaches more =>
    (both.2 approaches more).imp (fun _ => id) (AgreesBefore.bind rfl)⟩

/-- A choice by two tokens in a row. -/
theorem IgnoresFrom.checkBoth {first second : TokenKind}
    {both bothLonger other otherLonger : ParseM β}
    (inner : first.endsDeclaration = false)
    (found : state.cursor.peek.kind = first → (state.cursor.ahead 1).kind = second →
      IgnoresFrom sequel old ending both bothLonger state)
    (missing : IgnoresFrom sequel old ending other otherLonger state) :
    IgnoresFrom sequel old ending
      (do if (← ParseM.check first) && (← checkAhead 1 second) then both else other)
      (do if (← ParseM.check first) && (← checkAhead 1 second) then bothLonger else otherLonger)
      state := by
  refine .check ?_
  by_cases there : state.cursor.peek.kind = first
  · refine .checkSecond (there ▸ inner) (.ite (fun yes => ?_) fun _ => missing)
    rw [Bool.and_eq_true, beq_iff_eq] at yes
    exact found there (eq_of_beq yes.2)
  · have absent : (state.cursor.peek.kind == first) = false := by simpa using there
    rw [absent]
    change IgnoresFrom sequel old ending
      (ParseM.ahead 1 >>= fun token =>
        if (false && token.kind == second) = true then both else other)
      (ParseM.ahead 1 >>= fun token =>
        if (false && token.kind == second) = true then bothLonger else otherLonger) state
    exact .unheeded fun _ => missing

end Looking

/-! ## Tokens -/

variable {atEnd : α → AtEnd}

theorem agreesBefore_skip {count : Nat} (fits : count ≤ state.cursor.unread.length) :
    AgreesBefore sequel (skip count) state () { state with cursor := state.cursor.skip count } := by
  have longer : count ≤ (state.followedBy sequel).cursor.unread.length := by
    simp only [ParseState.followedBy, Cursor.followedBy, List.length_append]
    omega
  unfold AgreesBefore
  rw [skip_within (.inl longer)]
  exact congrArg (fun cursor => EStateM.Result.ok () { state with cursor := cursor })
    (Cursor.skip_followedBy fits)

theorem ignoresFrom_skip {count : Nat} (fits : state.cursor.Approaches sequel →
      state.cursor.unread ≠ [] → count ≤ state.cursor.unread.length) :
    IgnoresFrom sequel old (fun _ => .same) (skip count) (skip count) state := by
  by_cases within : count ≤ state.cursor.unread.length ∨ count = 1
  · exact ignoresFrom_of_ok (skip_within within)
      (.of_reads ⟨.skip (.refl _) within, rfl⟩) fun approaches more =>
        ⟨agreesBefore_skip (fits approaches more), .inr (by simp)⟩
  · intro _
    unfold Leads Meets
    rw [skip_beyond within]
    trivial

/-- What is read leaves something of the text. -/
theorem ignoresFrom_skipInside {count : Nat} (fits : state.cursor.Approaches sequel →
      state.cursor.unread ≠ [] → count < state.cursor.unread.length) :
    IgnoresFrom sequel old (fun _ => .never) (skip count) (skip count) state := by
  intro large
  have through := ignoresFrom_skip (fun approaches more =>
    Nat.le_of_lt (fits approaches more)) large
  by_cases within : count ≤ state.cursor.unread.length ∨ count = 1
  · unfold Leads Meets at through ⊢
    rw [skip_within within] at through ⊢
    refine ⟨through.1, fun approaches more => (through.2 approaches more).imp_right fun known => ?_⟩
    refine ⟨known.1, fun spent => ?_⟩
    have inside := fits approaches more
    have beyond := List.drop_eq_nil_iff.1 spent
    omega
  · unfold Leads Meets
    rw [skip_beyond within]
    trivial

theorem ignoresFrom_next :
    IgnoresFrom sequel old (fun _ => .same) (skip 1) (skip 1) state :=
  ignoresFrom_skip fun _ more => List.length_pos_iff.2 more

theorem ignoresFrom_nextInside (inner : state.cursor.peek.kind.endsDeclaration = false) :
    IgnoresFrom sequel old (fun _ => .never) (skip 1) (skip 1) state :=
  ignoresFrom_skipInside fun approaches more => approaches.one_lt_length more inner

theorem ignores_advance : Ignores sequel old (fun _ => .same) advance advance :=
  fun _ => .peek (ignoresFrom_next.disregarding fun _ => .pure _)

theorem ignoresFrom_advance (inner : state.cursor.peek.kind.endsDeclaration = false) :
    IgnoresFrom sequel old (fun _ => .never) advance advance state :=
  .peek ((ignoresFrom_nextInside inner).inside fun _ => ignores_pure _)

theorem ignores_eat (kind : TokenKind) :
    Ignores sequel old (fun read => if read then .same else .never) (eat kind) (eat kind) := by
  refine fun state => .check (.ite (fun found => ?_) fun _ => ignores_pure _ state)
  refine ignoresFrom_next.bind (fun _ next _ => ignores_pure true next) fun _ next _ _ => ?_
  exact fun _ => .inr rfl

theorem ignores_eatInside {kind : TokenKind} (inner : kind.endsDeclaration = false) :
    Ignores sequel old (fun _ => .never) (eat kind) (eat kind) := by
  refine fun state => .check (.ite (fun found => ?_) fun _ => ignores_pure _ state)
  refine (ignoresFrom_nextInside ?_).inside fun _ => ignores_pure true
  rw [beq_iff_eq] at found
  exact found ▸ inner

theorem ignores_expect (kind : TokenKind) :
    Ignores sequel old (fun _ => .same) (expect kind) (expect kind) := by
  refine fun state => .peek (.ite (fun found => ?_) fun _ => ?_)
  · exact ignores_advance state
  · exact (Disregards.ite (.refuse _ _) (.refuse _ _)).ignores state

theorem ignores_expectInside {kind : TokenKind} (inner : kind.endsDeclaration = false) :
    Ignores sequel old (fun _ => .never) (expect kind) (expect kind) := by
  refine fun state => .peek (.ite (fun found => ignoresFrom_advance (found ▸ inner)) fun _ => ?_)
  exact (Disregards.ite (.refuse _ _) (.refuse _ _)).ignores state

/-- A token that has to be there is not found at the end of the text. -/
theorem concludes_expect {kind : TokenKind} (other : kind ≠ .eof) {known : AtEnd}
    {rest : Token → ParseM β} {longer : ParseM β} {ending : β → AtEnd}
    (approaches : state.cursor.Approaches sequel) (spent : state.cursor.unread = []) :
    Concludes sequel old known ending (expect kind >>= rest) longer state := by
  have ends := approaches.sound.peek_eof_iff.2 spent
  exact fun _ => leads_expect (fun found => absurd (found.symm.trans ends) other) fun _ => trivial

/-- A token that is missing at the end of the text, where the parse is taken up again. -/
theorem leads_attempt_missing {kind : TokenKind} {rest : Except ParseError Token → ParseM β}
    {accept : β → ParseState → Prop} (ends : state.cursor.peek.kind = .eof) (other : kind ≠ .eof)
    (refused : ∀ error next, Leads (rest (.error error)) next accept fun _ => True) :
    Leads (attempt (expect kind) >>= rest) state accept fun _ => True := by
  have missing : Leads (expect kind >>= Pure.pure) state (fun _ _ => False) fun _ => True :=
    leads_expect (fun found => absurd (found.symm.trans ends) other) fun _ => trivial
  rw [bind_pure] at missing
  refine missing.attempt.bind fun outcome next caught => ?_
  cases outcome with
  | ok token => exact (caught.1 token rfl).elim
  | error error => exact refused error next

/-- Behind a part of which nothing is known at the end of the text a token has to follow. -/
theorem IgnoresFrom.expecting {first longer : ParseM α} {kind : TokenKind} (other : kind ≠ .eof)
    {rest further : α → Token → ParseM β} {ending : β → AtEnd}
    (ignores : IgnoresFrom sequel old atEnd first longer state)
    (following : ∀ value, Ignores sequel old ending (expect kind >>= rest value)
      (expect kind >>= further value)) :
    IgnoresFrom sequel old ending (first >>= fun value => expect kind >>= rest value)
      (longer >>= fun value => expect kind >>= further value) state :=
  ignores.bind (fun value next _ => following value next)
    fun _ _ approaches spent => concludes_expect other approaches spent

theorem ignores_refuseName {ending : α → AtEnd} :
    Ignores sequel old ending refuseName refuseName :=
  fun state => .peek (ignores_refuse _ _ state)

theorem ignores_expectIdentifier :
    Ignores sequel old (fun _ => .never) expectIdentifier expectIdentifier := by
  refine fun state => .check (.ite (fun found => ?_) fun _ => ignores_refuseName state)
  rw [beq_iff_eq] at found
  exact ignoresFrom_advance (found ▸ rfl)

/-! ## Stretches -/

theorem IgnoresFrom.unread {rest further : List Token → ParseM β} {ending : β → AtEnd}
    (following : IgnoresFrom sequel old ending (rest state.cursor.unread)
      (further (state.cursor.unread ++ sequel.tokens)) state) :
    IgnoresFrom sequel old ending (ParseM.unread >>= rest) (ParseM.unread >>= further) state :=
  fun large => (following large).imp fun _ _ both => ⟨both.1, fun approaches more =>
    (both.2 approaches more).imp (fun _ => id) (AgreesBefore.bind rfl)⟩

theorem pass_of_closed {stretch : Stretch} (closed : stretch.unclosed = none) :
    pass stretch = skip stretch.length := by
  unfold pass
  rw [closed]
  exact bind_pure_unit

/-- A stretch that is passed over is the same in front of the sequel where it is closed, unless it
takes all of the text and nothing is known there. -/
theorem ignoresFrom_pass {ending : AtEnd} {stretch longer : Stretch}
    (fits : stretch.length ≤ state.cursor.unread.length)
    (closed : state.cursor.Approaches sequel → state.cursor.unread ≠ [] →
      stretch.unclosed = none →
        (longer = stretch ∧ (state.cursor.unread.drop stretch.length ≠ [] ∨ ending ≠ .never)) ∨
          (stretch.Exhausts state.cursor.unread ∧ ending = .anything)) :
    IgnoresFrom sequel old (fun _ => ending) (pass stretch) (pass longer) state := by
  intro large
  cases unclosed : stretch.unclosed with
  | some opener =>
      have reads := (onlyReads_skip stretch.length).leads state
      refine Leads.bind (reads.mono (fun _ _ => id) fun _ => .of_reads) fun _ next read => ?_
      rw [unclosed]
      exact .of_reads read
  | none =>
      rw [pass_of_closed unclosed]
      have run : skip stretch.length state = _ := skip_within (.inl fits)
      unfold Leads Meets
      rw [run]
      refine ⟨.of_reads ⟨.skip (.refl _) (.inl fits), rfl⟩, fun approaches more => .inr ?_⟩
      rcases closed approaches more unclosed with ⟨rfl, goesOn⟩ | ⟨exhausts, rfl⟩
      · have agrees : AgreesBefore sequel (pass longer) state ()
            { state with cursor := state.cursor.skip longer.length } := by
          rw [pass_of_closed unclosed]
          exact agreesBefore_skip fits
        refine ⟨fun _ => agrees, fun spent => ?_⟩
        have known := goesOn.resolve_left fun still => still spent
        cases ending with
        | never => exact absurd rfl known
        | anything => trivial
        | same => exact agrees
      · refine ⟨fun still => absurd ?_ still, fun _ => trivial⟩
        exact List.drop_eq_nil_iff.2 (Nat.le_of_eq exhausts.symm)

theorem ignores_skipGroup : Ignores sequel old (fun _ => .same) skipGroup skipGroup :=
  fun _ => .unread (ignoresFrom_pass (Stretch.length_group_le _) fun _ more closed =>
    .inl ⟨Stretch.group_append_of_closed more closed _, .inr (by simp)⟩)

/-- A group in parentheses or brackets is followed by others. -/
theorem ignoresFrom_skipGroupInside {closer : TokenKind}
    (closes : state.cursor.peek.kind.closer? = some closer)
    (inner : closer.endsDeclaration = false) :
    IgnoresFrom sequel old (fun _ => .never) skipGroup skipGroup state := by
  refine .unread (ignoresFrom_pass (Stretch.length_group_le _) fun approaches more closed => ?_)
  refine .inl ⟨Stretch.group_append_of_closed more closed _, .inl ?_⟩
  have ended := approaches.ended
  obtain ⟨token, rest, unread⟩ := List.exists_cons_of_ne_nil more
  have kind : token.kind.closer? = some closer := by
    simpa [Cursor.peek, Cursor.ahead, unread] using closes
  rw [unread] at ended closed ⊢
  exact Stretch.drop_group_ne_nil ended kind inner closed

theorem ignores_skipGroupIf :
    Ignores sequel old (fun _ => .never) (skipGroupIf .leftParen) (skipGroupIf .leftParen) := by
  refine fun state => .check (.ite (fun found => ?_) fun _ => ignores_pure _ state)
  rw [beq_iff_eq] at found
  exact ignoresFrom_skipGroupInside (by rw [found]; rfl) rfl

theorem ignores_skipExpression (stops : List TokenKind) :
    Ignores sequel old (fun _ => .anything) (skipExpression stops) (skipExpression stops) :=
  fun _ => .unread (ignoresFrom_pass (Stretch.length_expression_le _ _) fun approaches _ _ =>
    (Stretch.expression_append approaches.ended _).imp (fun same => ⟨same, .inr (by simp)⟩)
      fun exhausts => ⟨exhausts, rfl⟩)

theorem ignores_skipAttributes :
    Ignores sequel old (fun _ => .never) skipAttributes skipAttributes := by
  refine fun state => .unread (ignoresFrom_pass (Stretch.length_attributes_le _)
    fun approaches more closed => .inl ?_)
  have goesOn := Stretch.drop_attributes_ne_nil approaches.ended more closed
  refine ⟨(Stretch.attributes_append approaches.ended _).resolve_right fun exhausts => ?_,
    .inl goesOn⟩
  exact goesOn (List.drop_eq_nil_iff.2 (Nat.le_of_eq (Eq.symm exhausts)))

theorem ignores_synchronize : Ignores sequel old (fun _ => .same) synchronize synchronize := by
  refine fun state => .unread (.congr (fun approaches more => ?_)
    (ignoresFrom_skip fun _ _ => Stretch.recovery_le _))
  have next : Stretch.startsWith (.punct .semicolon) sequel.tokens = false := by
    cases tokens : sequel.tokens with
    | nil => rfl
    | cons token rest =>
        have apart := sequel.apart token (by simp [tokens])
        simpa [Stretch.startsWith] using apart.1
  rw [Stretch.recovery_append approaches.nested approaches.ended more next]

/-! ## Template argument lists -/

theorem splitShift_followedBy (closes : state.cursor.peek.kind = .punct .greaterGreater)
    (more : state.cursor.unread ≠ []) :
    AgreesBefore sequel splitShift state () { state with cursor := state.cursor.splitShift } := by
  unfold AgreesBefore
  have same : (state.followedBy sequel).cursor.peek.kind = .punct .greaterGreater := by
    rw [← closes]
    exact congrArg Token.kind (Cursor.peek_followedBy more)
  rw [splitShift_of_eq same]
  exact congrArg (fun cursor => EStateM.Result.ok () { state with cursor := cursor })
    (Cursor.splitShift_followedBy more)

theorem ignores_splitShift :
    Ignores sequel old (fun _ => .never) splitShift splitShift := by
  intro state
  by_cases closes : state.cursor.peek.kind = .punct .greaterGreater
  · refine ignoresFrom_of_ok (splitShift_of_eq closes)
      (.of_reads ⟨.split (.refl _) closes, rfl⟩) fun approaches more => ?_
    refine ⟨splitShift_followedBy closes more, .inl ?_⟩
    rw [Cursor.unread_splitShift more]
    simp [Cursor.shiftHalves]
  · refine fun _ => ?_
    change Leads (if state.cursor.peek.kind = .punct .greaterGreater then _ else _ : ParseM Unit)
      state _ _
    rw [if_neg closes]
    trivial

/-- Behind a token that is split its second half is left. -/
theorem ignores_splitNext :
    Ignores sequel old (fun _ => .never) (do splitShift; skip 1) (do splitShift; skip 1) := by
  intro state
  by_cases closes : state.cursor.peek.kind = .punct .greaterGreater
  · have run : (do splitShift; skip 1 : ParseM Unit) state =
        .ok () { state with cursor := state.cursor.splitShift.skip 1 } := by
      change EStateM.bind splitShift _ state = _
      rw [EStateM.bind, splitShift_of_eq closes]
      exact skip_one _
    refine ignoresFrom_of_ok run
      (.of_reads ⟨.skip (.split (.refl _) closes) (.inr rfl), rfl⟩) fun approaches more => ?_
    have halves := Cursor.unread_splitShift more
    refine ⟨(splitShift_followedBy closes more).bind (agreesBefore_skip ?_), .inl ?_⟩
    · rw [halves]
      simp [Cursor.shiftHalves]
    · rw [Cursor.unread_skip, halves]
      simp [Cursor.shiftHalves]
  · have stops : Leads splitShift state (fun _ _ => False) (state.GoesOn old) := by
      change Leads (if state.cursor.peek.kind = .punct .greaterGreater then _ else _ : ParseM Unit)
        state _ _
      rw [if_neg closes]
      trivial
    exact fun _ => stops.bind fun _ _ => False.elim

/-- A list of arguments that is read to its end is not the end of a declaration. -/
theorem ignoresFrom_passAngle {reach longer : Angle.Reach} {missing : ParseM Unit}
    (refused : ∀ next, Leads missing next (fun _ _ => False) next.Reads)
    (found : state.cursor.Approaches sequel → state.cursor.unread ≠ [] → reach.ending.Found →
      longer = reach ∧ state.cursor.unread.drop reach.length ≠ []) :
    IgnoresFrom sequel old (fun _ => .never) (passAngle reach missing) (passAngle longer missing)
      state := by
  by_cases whole : reach.ending.Found
  · refine .congr (fun approaches more => by rw [(found approaches more whole).1]) ?_
    refine (ignoresFrom_skipInside fun approaches more => ?_).inside fun _ => ?_
    · simpa using (found approaches more whole).2
    · cases ending : reach.ending with
      | closed => exact ignores_pure ()
      | split => exact ignores_splitNext
      | missing => exact False.elim (by rwa [ending] at whole)
      | unclosedGroup opener => exact False.elim (by rwa [ending] at whole)
  · intro _
    have reads := (onlyReads_skip reach.length).leads state
    refine Leads.bind (reads.mono (fun _ _ => id) fun _ => .of_reads) fun _ next read => ?_
    cases ending : reach.ending with
    | closed => exact absurd (ending ▸ trivial) whole
    | split => exact absurd (ending ▸ trivial) whole
    | missing => exact (refused next).mono (fun _ _ => False.elim) fun _ further =>
        .of_reads (read.trans further)
    | unclosedGroup opener => exact .of_reads read

theorem ignores_skipTemplateArguments :
    Ignores sequel old (fun _ => .never) skipTemplateArguments skipTemplateArguments := by
  refine (ignores_expectInside rfl).inside fun opener state => .unread ?_
  refine ignoresFrom_passAngle (fun next => .refl next) fun approaches _ found => ?_
  exact ⟨(Angle.arguments_append 1 _ _).resolve_right (not_not_intro found),
    Angle.drop_arguments_ne_nil approaches.ended found⟩

theorem ignores_skipClosedArguments :
    Ignores sequel old (fun _ => .never) skipClosedArguments skipClosedArguments := by
  refine fun state => .unread (.congr (fun approaches more => ?_)
    (.ite (fun _ => (ignores_skipTemplateArguments.inside fun _ => ignores_pure true) state)
      fun _ => ignores_pure false state))
  simp only [Angle.close?_append approaches.ended more]

theorem ignores_jumpClosedArguments :
    Ignores sequel old (fun _ => .same) jumpClosedArguments jumpClosedArguments := by
  refine fun state => .unread (.congr (fun approaches more => ?_)
    (ignoresFrom_skip fun approaches more => ?_))
  · rw [Angle.close?_append approaches.ended more]
  · cases closed : Angle.close? state.cursor.unread with
    | none => exact Nat.zero_le _
    | some length => exact Angle.close?_le closed

theorem ignores_skipParameterDefault :
    Ignores sequel old (fun _ => .never) skipParameterDefault skipParameterDefault := by
  refine fun state => .unread (ignoresFrom_passAngle (fun next => .refl next) fun _ _ found => ?_)
  exact ⟨(Angle.parameterDefault_append 0 _ _).resolve_right (not_not_intro found),
    Angle.drop_parameterDefault_ne_nil found⟩

theorem ignores_expectClosingAngle :
    Ignores sequel old (fun _ => .never) expectClosingAngle expectClosingAngle := by
  have last : Ignores sequel old (fun _ => .never)
      (do let _ ← expect (.punct .greater)) (do let _ ← expect (.punct .greater)) :=
    (ignores_expectInside rfl).inside fun _ => ignores_pure ()
  exact fun state => .check (.ite (fun _ => (ignores_splitShift.inside fun _ => last) state)
    fun _ => last state)

end ParseM

end DeclTree
