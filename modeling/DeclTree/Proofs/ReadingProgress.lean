import DeclTree.Proofs.ReadOnly

/-!
# Tokens behind a name, a type or a parameter

A name, a type or a declarator that was read takes at least one token.  So does each
parameter of a function: the parameters that a declarator yields lie one behind the
other between the place where it starts and the place where it ends.
-/

namespace DeclTree

/-- The cursor passes some parameters of a function, one behind the other. -/
inductive Cursor.Passes : Cursor → List ParsedParameter → Cursor → Prop
  | nil {start finish : Cursor} (moves : start.Moves finish) : Passes start [] finish
  | cons {start first last finish : Cursor} {parameter : ParsedParameter}
      {rest : List ParsedParameter} (lead : start.Moves first) (moves : first.Moves last)
      (read : last.weight < first.weight) (opens : parameter.start = first.peek.span)
      (closes : parameter.last = last.previousSpan) (others : Passes last rest finish) :
      Passes start (parameter :: rest) finish

namespace Cursor.Passes

variable {start middle finish : Cursor} {parameters : List ParsedParameter}

theorem lead (moves : start.Moves middle) (passes : Passes middle parameters finish) :
    Passes start parameters finish := by
  cases passes with
  | nil others => exact .nil (moves.trans others)
  | cons lead inside read opens closes others =>
      exact .cons (moves.trans lead) inside read opens closes others

theorem follow (passes : Passes start parameters middle) (moves : middle.Moves finish) :
    Passes start parameters finish := by
  induction passes with
  | nil others => exact .nil (others.trans moves)
  | cons lead inside read opens closes _ ih =>
      exact .cons lead inside read opens closes (ih moves)

theorem moves (passes : Passes start parameters finish) : start.Moves finish := by
  induction passes with
  | nil moves => exact moves
  | cons lead inside _ _ _ _ ih => exact (lead.trans inside).trans ih

/-- One more parameter behind those passed so far. -/
theorem snoc {last : Cursor} {parameter : ParsedParameter}
    (passes : Passes start parameters middle) (moves : middle.Moves last)
    (read : last.weight < middle.weight) (opens : parameter.start = middle.peek.span)
    (closes : parameter.last = last.previousSpan) :
    Passes start (parameters ++ [parameter]) last := by
  induction passes with
  | nil lead => exact .cons lead moves read opens closes (.nil (.refl _))
  | cons lead inside before opens' closes' _ ih =>
      exact .cons lead inside before opens' closes' (ih moves read opens)

end Cursor.Passes

namespace ParseM

variable {rules : Rules} {α β : Type} {state : ParseState}

/-- What holds of the value that a parse yields and of the state behind it. -/
abbrev Gives (parse : ParseM α) (state : ParseState) (result : α → ParseState → Prop) : Prop :=
  Leads parse state result fun _ => True

/-- Whether a parse that yields a value has read something. -/
abbrev Consumes (parse : ParseM α) (state : ParseState) : Prop :=
  Gives parse state fun _ next => next.cursor.weight < state.cursor.weight

theorem OnlyReads.gives {parse : ParseM α} (reads : OnlyReads parse) (state : ParseState) :
    Gives parse state fun _ next => state.Reads next :=
  (reads.leads state).mono (fun _ _ read => read) fun _ _ => trivial

theorem Leads.reading {parse : ParseM α} {result : α → ParseState → Prop}
    (gives : Gives parse state result) (reads : OnlyReads parse) :
    Gives parse state fun value next => result value next ∧ state.Reads next :=
  (gives.and (reads.gives state)).mono (fun _ _ both => both) fun _ _ => trivial

/-- What follows a part that only reads starts behind some reading. -/
theorem OnlyReads.andThen {first : ParseM α} {rest : α → ParseM β}
    {result : β → ParseState → Prop} (reads : OnlyReads first)
    (continued : ∀ value next, state.Reads next → Gives (rest value) next result) :
    Gives (first >>= rest) state result :=
  (reads.gives state).bind continued

theorem OnlyReads.consumes {first : ParseM α} {rest : α → ParseM β} (reads : OnlyReads first)
    (continued : ∀ value next, state.Reads next → Consumes (rest value) next) :
    Consumes (first >>= rest) state := by
  apply reads.andThen
  intro value next read
  apply (continued value next read).imp
  intro _ _ less
  exact Nat.lt_of_lt_of_le less read.weight_le

/-- What has been read stays read. -/
theorem Consumes.andThen {first : ParseM α} {rest : α → ParseM β}
    (consumes : Consumes first state) (reads : ∀ value, OnlyReads (rest value)) :
    Consumes (first >>= rest) state := by
  apply consumes.bind
  intro value next less
  apply ((reads value).gives next).imp
  intro _ _ read
  exact Nat.lt_of_le_of_lt read.weight_le less

/-- A parse reads something if the part it includes does, unless something has been
read by then. -/
theorem Includes.consumes {part : ParseM α} {parse : ParseM β} (includes : Includes part parse)
    (reads : OnlyReads part)
    (consumes : ∀ next : ParseState, state.Reads next →
      next.cursor.weight = state.cursor.weight → Consumes part next) :
    Consumes parse state := by
  induction includes generalizing state with
  | here following => exact (consumes state (.refl state) rfl).andThen following
  | behind before following ih =>
      apply before.andThen
      intro value next read
      rcases Nat.lt_or_eq_of_le read.weight_le with less | same
      · apply (((following value).onlyReads reads).gives next).imp
        intro _ _ further
        exact Nat.lt_of_le_of_lt further.weight_le less
      · have further := ih value fun after readAfter sameAfter =>
          consumes after (read.trans readAfter) (sameAfter.trans same)
        exact same ▸ further

/-- Reading that takes nothing ends in front of a token if it starts there. -/
theorem more_of_reads {next : ParseState} (read : state.Reads next)
    (same : next.cursor.weight = state.cursor.weight) (more : state.cursor.peek.kind ≠ .eof) :
    next.cursor.peek.kind ≠ .eof := by
  rcases read.1.peek_of_weight_eq same with still | split
  · rw [still]
    exact more
  · simp [split]

theorem consumes_iterate {step : α → ParseM (Step α β)} {start : α}
    (reads : ∀ value, OnlyReads (step value))
    (round : ∀ value next, state.Reads next → Consumes (step value) next) :
    Consumes (iterate step start) state := by
  refine leads_iterate (fun _ next => state.Reads next) (.refl state) ?_
  intro value next read
  have outcome := (round value next read).and ((reads value).gives next)
  apply outcome.mono
  · rintro outcome after ⟨less, further⟩
    cases outcome with
    | again _ => exact read.trans further
    | done _ => exact Nat.lt_of_lt_of_le less read.weight_le
  · intro _ _
    trivial

/-! ## Tokens and names -/

theorem consumes_skip_one (sound : state.cursor.Sound) (more : state.cursor.peek.kind ≠ .eof) :
    Consumes (skip 1) state := by
  rw [Consumes, Gives, Leads, Meets, skip_one]
  exact ParseState.weight_next sound more

theorem consumes_advance (sound : state.cursor.Sound) (more : state.cursor.peek.kind ≠ .eof) :
    Consumes advance state := by
  rw [Consumes, Gives, Leads, Meets, advance_eq]
  exact ParseState.weight_next sound more

theorem consumes_expect (sound : state.cursor.Sound) {kind : TokenKind} (proper : kind ≠ .eof) :
    Consumes (expect kind) state := by
  rw [← bind_pure (expect kind)]
  apply leads_expect
  · rintro rfl
    exact ParseState.weight_next sound proper
  · intro _
    trivial

theorem gives_expectIdentifier (sound : state.cursor.Sound) :
    Gives expectIdentifier state fun token next =>
      token = state.cursor.peek ∧ next.cursor.weight < state.cursor.weight := by
  apply leads_ifCheck
  · intro found
    rw [Leads, Meets, advance_eq]
    exact ⟨rfl, ParseState.weight_next sound (by simp [found])⟩
  · intro _
    trivial

theorem consumes_expectIdentifier (sound : state.cursor.Sound) :
    Consumes expectIdentifier state :=
  (gives_expectIdentifier sound).imp fun _ _ given => given.2

theorem consumes_namePath (sound : state.cursor.Sound) : Consumes namePath state := by
  apply onlyReads_mark.consumes
  intro start first readMark
  apply (onlyReads_eat _).consumes
  intro isGlobal second readLead
  apply consumes_iterate (onlyReads_nameSegment start isGlobal)
  intro segments third readSegments
  apply (nameSegment_includes start isGlobal segments).consumes onlyReads_expectIdentifier
  intro fourth readWord _
  have soundSecond := readLead.sound (readMark.sound sound)
  exact consumes_expectIdentifier (readWord.sound (readSegments.sound soundSecond))

theorem consumes_declaredSegment (sound : state.cursor.Sound) (start : Nat) (isGlobal : Bool)
    (qualifier : QualifierSoFar) : Consumes (declaredSegment start isGlobal qualifier) state := by
  unfold declaredSegment
  rw [Consumes, Gives, leads_peek]
  split
  · rename_i tilde
    apply (consumes_skip_one sound (by simp [tilde])).andThen
    intro _
    refine .bind onlyReads_expectIdentifier fun className => .bind (onlyReads_check _) fun _ => ?_
    simp
  · refine Consumes.andThen ?_ fun _ => .pure _
    apply operatorName_includes.consumes (onlyReads_expect _)
    intro next read _
    exact consumes_expect (read.sound sound) (by simp)
  · rename_i name
    apply (consumes_skip_one sound (by simp [name])).andThen
    intro _
    refine .bind onlyReads_skipClosedArguments fun _ =>
      .bind onlyReads_segmentQualifies fun qualifies => .ite ?_ (.pure _)
    refine .bind (onlyReads_since start) fun text => .bind (onlyReads_skip 1) fun _ => ?_
    simp
  · trivial

theorem consumes_declaratorId (sound : state.cursor.Sound) : Consumes declaratorId state := by
  apply onlyReads_mark.consumes
  intro start first readMark
  apply (onlyReads_eat _).consumes
  intro isGlobal second readLead
  apply (onlyReads_since start).consumes
  intro lead third readSince
  apply consumes_iterate (onlyReads_declaredSegment start isGlobal)
  intro qualifier fourth readSegments
  have soundThird := readSince.sound (readLead.sound (readMark.sound sound))
  exact consumes_declaredSegment (readSegments.sound soundThird) start isGlobal qualifier

/-! ## Types -/

/-- Specifiers with a type, where those before had none, have taken something to read. -/
def TypeTaken (state : ParseState) (before after : DeclSpecs) (next : ParseState) : Prop :=
  after.hasType = true → before.hasType = true ∨ next.cursor.weight < state.cursor.weight

/-- One round of reading specifiers. -/
abbrev TakesType (parse : ParseM (Step DeclSpecs DeclSpecs)) (state : ParseState)
    (specs : DeclSpecs) : Prop :=
  Gives parse state fun outcome next =>
    outcome.Keeps (TypeTaken state specs) (TypeTaken state specs) next

variable {specs : DeclSpecs}

theorem takesType_of_consumes {parse : ParseM (Step DeclSpecs DeclSpecs)}
    (consumes : Consumes parse state) : TakesType parse state specs := by
  apply consumes.imp
  intro outcome next less
  cases outcome <;> exact fun _ => .inr less

theorem takesType_same {parse : ParseM α} (reads : OnlyReads parse) :
    TakesType (parse >>= fun _ => pure (.again specs)) state specs := by
  apply reads.andThen
  intro _ next _ typed
  exact .inl typed

theorem takesType_done : TakesType (pure (.done specs)) state specs :=
  fun typed => .inl typed

theorem takesType_again {parse : ParseM DeclSpecs} (consumes : Consumes parse state) :
    TakesType (parse >>= fun found => pure (.again found)) state specs :=
  takesType_of_consumes (consumes.andThen fun _ => .pure _)

theorem consumes_namedType (sound : state.cursor.Sound) (specs : DeclSpecs) :
    Consumes (namedType specs) state :=
  (consumes_namePath sound).andThen fun _ => by simp

theorem takesType_keywordSpecifier {mode : SpecifierMode} (bodiless : mode ≠ .declaration)
    (sound : state.cursor.Sound) {word : Keyword} (here : state.cursor.peek.kind = .keyword word) :
    TakesType (keywordSpecifier rules mode specs word) state specs := by
  have more : state.cursor.peek.kind ≠ .eof := by simp [here]
  have advances (next : ParseState) (read : state.Reads next)
      (same : next.cursor.weight = state.cursor.weight) : Consumes advance next :=
    consumes_advance (read.sound sound) (more_of_reads read same more)
  have skips (next : ParseState) (read : state.Reads next)
      (same : next.cursor.weight = state.cursor.weight) : Consumes (skip 1) next :=
    consumes_skip_one (read.sound sound) (more_of_reads read same more)
  have typeWord (isType : Bool) : Consumes (typeWord specs isType) state :=
    (consumes_advance sound more).andThen fun _ => .pure _
  have classes : TakesType (if specs.hasType then return .done specs
      else return .again (← classSpecifier rules specs (mode = .declaration))) state specs := by
    rw [decide_eq_false bodiless]
    split
    · exact takesType_done
    · exact takesType_again ((classSpecifier_includes specs).consumes onlyReads_advance advances)
  unfold keywordSpecifier
  split
  · apply takesType_again
    exact (markedSpecifier_includes specs word _).consumes (onlyReads_skip 1) skips
  · split
    · exact takesType_again (typeWord false)
    · split
      · exact takesType_again (typeWord true)
      · split
        · exact takesType_of_consumes ((consumes_skip_one sound more).andThen fun _ => .pure _)
        · exact takesType_of_consumes ((consumes_skip_one sound more).andThen fun _ => by simp)
        · exact takesType_again ((deducedType_includes specs).consumes (onlyReads_skip 1) skips)
        · exact classes
        · exact classes
        · exact classes
        · split
          · exact takesType_done
          · rw [decide_eq_false bodiless]
            exact takesType_again
              ((enumSpecifier_includes specs).consumes onlyReads_advance advances)
        · exact takesType_same onlyReads_skipAttributes
        · exact takesType_done

theorem takesType_nameSpecifier (sound : state.cursor.Sound) (mode : SpecifierMode) :
    TakesType (nameSpecifier mode specs) state specs := by
  unfold nameSpecifier
  split
  · exact takesType_done
  · rw [TakesType, Gives, leads_className?, leads_unread]
    split
    · exact takesType_done
    · exact takesType_again (consumes_namedType sound specs)

theorem takesType_nextSpecifier {mode : SpecifierMode} (bodiless : mode ≠ .declaration)
    (sound : state.cursor.Sound) : TakesType (nextSpecifier rules mode specs) state specs := by
  have attributes : TakesType (do skipAttributes; return .again specs) state specs :=
    takesType_same onlyReads_skipAttributes
  unfold nextSpecifier
  rw [TakesType, Gives, leads_peek]
  split
  · rename_i word here
    exact takesType_keywordSpecifier bodiless sound here
  · rw [leads_checkAhead]
    split
    · exact attributes
    · exact takesType_done
  · split
    · exact attributes
    · exact takesType_nameSpecifier sound mode
  · exact takesType_nameSpecifier sound mode
  · exact takesType_done

/-- Specifiers that name a type have taken something to read. -/
theorem gives_specifiers {mode : SpecifierMode} (bodiless : mode ≠ .declaration)
    (sound : state.cursor.Sound) :
    Gives (specifiers rules mode) state fun specs next =>
      specs.hasType = true → next.cursor.weight < state.cursor.weight := by
  refine leads_iterate (fun specs next => state.Reads next ∧
    (specs.hasType = true → next.cursor.weight < state.cursor.weight)) ⟨.refl state, by simp⟩ ?_
  rintro specs next ⟨read, taken⟩
  have reads : OnlyReads (nextSpecifier rules mode specs) := onlyReads_nextSpecifier bodiless specs
  have round := (takesType_nextSpecifier bodiless (read.sound sound)).and (reads.gives next)
  refine round.mono ?_ fun _ _ => trivial
  rintro outcome after ⟨types, further⟩
  have kept (found : DeclSpecs) (types : TypeTaken next specs found after)
      (typed : found.hasType = true) : after.cursor.weight < state.cursor.weight := by
    rcases types typed with old | new
    · exact Nat.lt_of_le_of_lt further.weight_le (taken old)
    · exact Nat.lt_of_lt_of_le new read.weight_le
  cases outcome with
  | again found => exact ⟨read.trans further, kept found types⟩
  | done found => exact kept found types

/-! ## Parameters -/

theorem gives_typedParameter (reads : rules.Reads) (sound : state.cursor.Sound) (start : Span) :
    Gives (typedParameter rules start) state fun parameter next => parameter.start = start ∧
      parameter.last = next.cursor.previousSpan ∧ next.cursor.weight < state.cursor.weight := by
  apply onlyReads_skipAttributes.andThen
  intro _ first readAttributes
  apply (gives_specifiers (by simp) (readAttributes.sound sound)).bind
  intro specs second typed
  split
  · trivial
  · rename_i some
    have less : second.cursor.weight < state.cursor.weight :=
      Nat.lt_of_lt_of_le (typed (by simpa using some)) readAttributes.weight_le
    apply (reads.declarator _).andThen
    intro declarator third readDeclarator
    apply (onlyReads_eat _).andThen
    intro hasDefault fourth readMark
    have behind (fifth : ParseState) (read : second.Reads fifth) :
        fifth.cursor.weight < state.cursor.weight := Nat.lt_of_le_of_lt read.weight_le less
    split
    · apply (onlyReads_skipExpression _).andThen
      intro _ fifth readDefault
      exact ⟨rfl, rfl, behind fifth ((readDeclarator.trans readMark).trans readDefault)⟩
    · exact ⟨rfl, rfl, behind fourth (readDeclarator.trans readMark)⟩

theorem gives_nextParameter (reads : rules.Reads) {origin : Cursor} (sound : state.cursor.Sound)
    {parameters : List ParsedParameter} (passed : origin.Passes parameters state.cursor) :
    let passes (read : List ParsedParameter) (next : ParseState) : Prop :=
      origin.Passes read next.cursor
    Gives (nextParameter rules parameters) state fun outcome next =>
      outcome.Keeps passes passes next := by
  intro passes
  -- The dots of a variadic function are one token, where the parameter starts and ends.
  have dots {before : ParseState} {read : List ParsedParameter} (sound : before.cursor.Sound)
      (passed : origin.Passes read before.cursor)
      (here : before.cursor.peek.kind = .punct .ellipsis) :
      origin.Passes (read ++ [variadicParameter before.cursor.peek.span]) before.next.cursor := by
    have more : before.cursor.peek.kind ≠ .eof := by simp [here]
    exact passed.snoc before.reads_next.1 (ParseState.weight_next sound more) rfl
      (ParseState.previousSpan_next sound more).symm
  unfold nextParameter
  rw [Gives, leads_peek]
  apply leads_ifEat
  · intro here
    exact dots sound passed here
  · intro _
    apply ((gives_typedParameter reads sound _).reading (onlyReads_typedParameter reads _)).bind
    rintro parameter next ⟨⟨opens, closes, less⟩, read⟩
    have further := passed.snoc read.1 less opens closes
    apply leads_ifCheck
    · intro found
      rw [leads_advance]
      exact dots (read.sound sound) further found
    · intro _
      apply leads_ifEat
      · intro _
        exact further.follow next.reads_next.1
      · intro _
        exact further

theorem gives_parameters (reads : rules.Reads) (sound : state.cursor.Sound) :
    Gives (iterate (nextParameter rules) []) state fun parameters next =>
      state.cursor.Passes parameters next.cursor := by
  refine leads_iterate (fun parameters next => state.Reads next ∧
    state.cursor.Passes parameters next.cursor) ⟨.refl state, .nil (.refl _)⟩ ?_
  rintro parameters next ⟨read, passed⟩
  apply ((gives_nextParameter reads (read.sound sound) passed).reading
    (onlyReads_nextParameter reads parameters)).imp
  rintro outcome after ⟨passes, further⟩
  cases outcome with
  | again following => exact ⟨read.trans further, passes⟩
  | done following => exact passes

theorem gives_parameterList (reads : rules.Reads) (sound : state.cursor.Sound) :
    Gives (parameterList rules) state fun parameters next =>
      state.cursor.Passes parameters next.cursor := by
  have items (next : ParseState) (read : state.Reads next) : Gives (do
      if ← eat (.punct .rightParen) then
        return []
      else
        let parameters ← iterate (nextParameter rules) []
        let _ ← expect (.punct .rightParen)
        return parameters) next fun parameters after =>
          state.cursor.Passes parameters after.cursor := by
    apply leads_ifEat
    · intro _
      exact .nil (read.trans next.reads_next).1
    · intro _
      apply (gives_parameters reads (read.sound sound)).bind
      intro parameters after passed
      apply (onlyReads_expect _).andThen
      intro _ last final
      exact (passed.lead read.1).follow final.1
  apply (onlyReads_expect _).andThen
  intro _ first readOpener
  rw [Gives, leads_check, leads_checkAhead]
  split
  · apply (onlyReads_skip 1).andThen
    intro _ second readVoid
    exact items second (readOpener.trans readVoid)
  · exact items first readOpener

/-! ## Declarators -/

/-- What holds of a declarator: its parameters have been passed since its start. -/
def PassesParameters (state : ParseState) (declarator : Declarator) (next : ParseState) : Prop :=
  ∀ parameters, declarator.parameters = some parameters →
    state.cursor.Passes parameters next.cursor

theorem PassesParameters.follow {declarator after : Declarator} {next last : ParseState}
    (passes : PassesParameters state declarator next) (read : next.Reads last)
    (same : after.parameters = declarator.parameters) : PassesParameters state after last :=
  fun parameters found => (passes parameters (same ▸ found)).follow read.1

theorem gives_typeGroup (declarator : Declarator) :
    Gives (typeGroup declarator) state fun after _ =>
      after.parameters = declarator.parameters := by
  apply onlyReads_mark.andThen
  intro start first _
  apply onlyReads_skipGroup.andThen
  intro _ second _
  rfl

theorem gives_declaratorSuffix (reads : rules.Reads) (mode : DeclaratorMode)
    {origin : ParseState} (sound : state.cursor.Sound) (before : origin.Reads state)
    {declarator : Declarator} (passes : PassesParameters origin declarator state) :
    Gives (declaratorSuffix rules mode declarator) state fun outcome next =>
      outcome.Keeps (PassesParameters origin) (PassesParameters origin) next := by
  have group : Gives (do return .again (← typeGroup declarator)) state
      fun (outcome : Step Declarator Declarator) next =>
        outcome.Keeps (PassesParameters origin) (PassesParameters origin) next := by
    apply ((gives_typeGroup declarator).reading (onlyReads_typeGroup declarator)).bind
    rintro after next ⟨same, read⟩
    exact passes.follow read same
  unfold declaratorSuffix
  rw [Gives, leads_peek]
  split
  · split
    · exact passes
    · split
      · apply onlyReads_parametersAhead.andThen
        intro ahead first readAhead
        split
        · have soundFirst := readAhead.sound sound
          apply (gives_parameterList reads soundFirst).bind
          rintro parameters second passed _ ⟨⟩
          exact passed.lead (before.trans readAhead).1
        · apply onlyReads_skipGroup.andThen
          intro _ second readGroup
          exact passes.follow (readAhead.trans readGroup) rfl
      · exact group
  · rw [leads_checkAhead]
    split
    · apply onlyReads_skipAttributes.andThen
      intro _ next read
      exact passes.follow read rfl
    · split
      · exact passes
      · exact group
  · exact passes

theorem gives_declaratorSuffixes (reads : rules.Reads) (mode : DeclaratorMode)
    {origin : ParseState} (sound : origin.cursor.Sound) (before : origin.Reads state)
    {declarator : Declarator} (plain : declarator.parameters = none) :
    Gives (iterate (declaratorSuffix rules mode) declarator) state (PassesParameters origin) := by
  refine leads_iterate (fun declarator next => origin.Reads next ∧
    PassesParameters origin declarator next) ⟨before, by simp [PassesParameters, plain]⟩ ?_
  rintro declarator next ⟨read, passes⟩
  apply ((gives_declaratorSuffix reads mode (read.sound sound) read passes).reading
    (onlyReads_declaratorSuffix reads mode declarator)).imp
  rintro outcome after ⟨passed, further⟩
  cases outcome with
  | again following => exact ⟨read.trans further, passed⟩
  | done following => exact passed

end ParseM

/-- Rules that only read where they should and whose declarators pass their
parameters. -/
structure Rules.Steady (rules : Rules) : Prop extends rules.Reads where
  passes : ∀ (mode : DeclaratorMode) (state : ParseState), state.cursor.Sound →
    ParseM.Gives (rules.declarator mode) state (ParseM.PassesParameters state)

namespace ParseM

variable {rules : Rules} {state : ParseState}

theorem gives_nestedDeclarator (steady : rules.Steady) (sound : state.cursor.Sound)
    (more : state.cursor.peek.kind ≠ .eof) (mode : DeclaratorMode) (declarator : Declarator) :
    Gives (nestedDeclarator rules mode declarator) state fun after next =>
      PassesParameters state after next ∧ next.cursor.weight < state.cursor.weight := by
  unfold nestedDeclarator
  rw [Gives, leads_advance]
  have soundNext := state.reads_next.sound sound
  apply ((steady.passes mode state.next soundNext).reading (steady.declarator mode)).bind
  rintro inner first ⟨passes, readInner⟩
  apply (onlyReads_expect _).andThen
  intro closer second readCloser
  apply onlyReads_mark.andThen
  intro start third readMark
  rw [Gives, leads_unread]
  apply (onlyReads_pass _).andThen
  intro _ fourth readGroups
  have behind := ((readInner.trans readCloser).trans readMark).trans readGroups
  have less := ParseState.weight_next sound more
  refine ⟨?_, Nat.lt_of_le_of_lt behind.weight_le less⟩
  intro parameters found
  have further := ((readCloser.trans readMark).trans readGroups).1
  exact ((passes parameters found).follow further).lead state.reads_next.1

theorem gives_nestedAhead : Gives nestedAhead state fun found next =>
    next = state ∧ (found = true → state.cursor.peek.kind ≠ .eof) := by
  apply leads_ifCheck
  · intro here
    rw [leads_ahead]
    have more : state.cursor.peek.kind ≠ .eof := by simp [here]
    split
    · exact ⟨rfl, fun _ => more⟩
    · exact ⟨rfl, fun _ => more⟩
  · intro _
    exact ⟨rfl, by simp⟩

/-- A declarator passes its parameters, and one that has to have a name takes
something to read. -/
theorem gives_declarator (steady : rules.Steady) (sound : state.cursor.Sound)
    (mode : DeclaratorMode) :
    Gives (declarator rules mode) state fun after next => PassesParameters state after next ∧
      (mode = .named → next.cursor.weight < state.cursor.weight) := by
  apply onlyReads_pointerOperators.andThen
  intro tokens first readPointers
  apply (onlyReads_eat _).andThen
  intro isPack second readDots
  have before := readPointers.trans readDots
  apply gives_nestedAhead.bind
  rintro nested place ⟨rfl, opens⟩
  split
  · rename_i found
    apply (gives_nestedDeclarator steady (before.sound sound) (opens found) mode _).imp
    rintro after next ⟨passes, less⟩
    refine ⟨fun parameters given => (passes parameters given).lead before.1, fun _ => ?_⟩
    exact Nat.lt_of_lt_of_le less before.weight_le
  · have name : Gives (declaratorName mode) place fun _ next =>
        mode = .named → next.cursor.weight < place.cursor.weight := by
      cases mode with
      | named =>
          apply ((consumes_declaratorId (before.sound sound)).andThen fun _ => .pure _).imp
          intro _ _ less _
          exact less
      | parameter => exact ((onlyReads_declaratorName .parameter).gives place).imp (by simp)
      | abstract => exact ((onlyReads_declaratorName .abstract).gives place).imp (by simp)
    apply (name.reading (onlyReads_declaratorName mode)).bind
    rintro id third ⟨less, readName⟩
    apply onlyReads_skipAttributes.andThen
    intro _ fourth readAttributes
    have further := (before.trans readName).trans readAttributes
    apply ((gives_declaratorSuffixes steady.toReads mode sound further rfl).reading
      (.iterate (onlyReads_declaratorSuffix steady.toReads mode) _)).imp
    rintro after fifth ⟨passes, readSuffixes⟩
    refine ⟨passes, fun named => ?_⟩
    have lessThird := less named
    have lessSecond := before.weight_le
    have lessFifth := (readAttributes.trans readSuffixes).weight_le
    omega

/-- Rules for any depth of nesting are steady. -/
theorem steady_ofDepth (depth : Nat) : (Rules.ofDepth depth).Steady := by
  induction depth with
  | zero => exact ⟨reads_ofDepth 0, fun _ _ _ => trivial⟩
  | succ depth steady =>
      refine ⟨reads_ofDepth (depth + 1), fun mode state sound => ?_⟩
      apply (gives_declarator steady sound mode).imp
      intro _ _ given
      exact given.1

/-! ## Template parameters -/

theorem consumes_valueParameter (reads : rules.Reads) (sound : state.cursor.Sound)
    (token : Token) : Consumes (valueParameter rules token) state := by
  apply (gives_specifiers (by simp) sound).bind
  intro specs next typed
  split
  · trivial
  · rename_i some
    have less := typed (by simpa using some)
    apply (onlyReads_declarator reads .parameter).andThen
    intro declarator last read
    exact Nat.lt_of_le_of_lt read.weight_le less

theorem leads_dependentTypeAhead {β : Type} {accept : β → ParseState → Prop}
    {refusal : ParseState → Prop} {rest : Bool → ParseM β} :
    Leads (dependentTypeAhead >>= rest) state accept refusal ↔
      Leads (rest ((state.cursor.ahead 1).kind == .identifier &&
        (state.cursor.ahead 2).kind == .punct .colonColon)) state accept refusal :=
  Iff.rfl

theorem consumes_parameterHead (reads : rules.Reads) (sound : state.cursor.Sound) :
    Consumes (parameterHead rules) state := by
  have word (more : state.cursor.peek.kind ≠ .eof) : Consumes (do
      if ← dependentTypeAhead then valueParameter rules state.cursor.peek
      else typeParameter) state := by
    rw [Consumes, Gives, leads_dependentTypeAhead]
    split
    · exact consumes_valueParameter reads sound _
    · exact (consumes_skip_one sound more).andThen fun _ => by simp
  unfold parameterHead
  rw [Consumes, Gives, leads_peek]
  split
  · rename_i here
    exact word (by simp [here])
  · rename_i here
    exact word (by simp [here])
  · rename_i here
    apply templateTemplateParameter_includes.consumes (onlyReads_skip 1)
    intro next read same
    exact consumes_skip_one (read.sound sound) (more_of_reads read same (by simp [here]))
  · exact consumes_valueParameter reads sound _

end ParseM

end DeclTree
