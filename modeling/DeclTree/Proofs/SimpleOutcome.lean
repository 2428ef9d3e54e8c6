import DeclTree.Proofs.DeclaratorOutcome

/-!
# Functions and simple declarations

Behind its declarator a function, a variable or a name for a type is declared and
has a node, which waits for the end of the declaration.  A function body ends the
node itself.
-/

namespace DeclTree

namespace ParseM

open ParseState (Activity Pending)

variable {state : ParseState} {rules : Rules} {bound : Nat}

/-! ## Behind a parameter list -/

theorem yields_qualifierScope (id : DeclaratorId) :
    Yields (qualifierScope id) state fun _ next => next = state := by
  unfold qualifierScope
  split
  · exact yields_pure rfl
  · rename_i qualifier _
    split
    · exact yields_pure rfl
    · apply Ends.bind (yields_resolveScope qualifier.segments qualifier.isGlobal id.span)
      rintro scope _ ⟨_, rfl⟩
      exact yields_pure rfl

theorem yields_trailingType (works : rules.Works bound) (sound : state.Sound)
    (within : state.cursor.weight ≤ bound) (more : state.cursor.peek.kind ≠ .eof) :
    Yields (trailingType rules) state fun _ next =>
      next.cursor.weight < state.cursor.weight := by
  unfold trailingType
  apply (yields_skip_one sound more).bind sound
  intro _ first follows less
  suffices yields : Yields _ first fun _ _ => True from yields.below less
  apply (works.specifiers follows.sound (by omega)).bind follows.sound
  intro specs second followsSpecs _
  have lessSecond := followsSpecs.weight_le
  exact (works.declarator followsSpecs.sound (by omega)).returns

theorem yields_functionWord (sound : state.Sound) (here : state.cursor.peek.kind = .identifier)
    (tail : FunctionTail) :
    Yields (functionWord tail state.cursor.peek) state fun outcome next =>
      outcome.Advances state (fun _ _ => True) (fun _ _ => True) next := by
  have more : state.cursor.peek.kind ≠ .eof := by simp [here]
  unfold functionWord
  split
  · exact (yields_skip_one sound more).again
  · split
    · exact (yields_skip_one sound more).again
    · split
      · apply (yields_skip_one sound more).bind sound
        intro _ first follows less
        apply (yields_skipExpression follows.sound _).bind follows.sound
        intro _ next followsExpression _
        have lessNext := followsExpression.weight_le
        exact yields_pure ⟨by omega, trivial⟩
      · split
        · rename_i vendor
          exact (yields_skipAttributes_lt sound (.inr (.inr vendor))).again
        · exact yields_pure trivial

theorem yields_functionItem (works : rules.Works bound) (sound : state.Sound)
    (within : state.cursor.weight ≤ bound) (tail : FunctionTail) :
    Yields (functionItem rules tail) state fun outcome next =>
      outcome.Advances state (fun _ _ => True) (fun _ _ => True) next := by
  have marked (more : state.cursor.peek.kind ≠ .eof) :
      Yields (do skip 1; return Step.again tail) state fun outcome next =>
        outcome.Advances state (fun _ _ => True) (fun (_ : FunctionTail) _ => True) next := by
    exact (yields_skip_one sound more).again
  have conditional (more : state.cursor.peek.kind ≠ .eof) :
      Yields (do skip 1; skipGroupIf .leftParen; return Step.again tail) state
        fun outcome next => outcome.Advances state (fun _ _ => True)
          (fun (_ : FunctionTail) _ => True) next := by
    apply (yields_skip_one sound more).bind sound
    intro _ first follows less
    apply (yields_skipGroupIf follows.sound .leftParen).bind follows.sound
    intro _ next followsGroup _
    have lessNext := followsGroup.weight_le
    exact yields_pure ⟨by omega, trivial⟩
  unfold functionItem
  simp only [ends_peek]
  split
  · exact marked (by simp_all)
  · exact marked (by simp_all)
  · exact conditional (by simp_all)
  · exact conditional (by simp_all)
  · split
    · exact marked (by simp_all)
    · exact yields_pure trivial
  · rename_i here
    exact yields_functionWord sound here tail
  · exact (yields_trailingType works sound within (by simp_all)).again
  · rename_i here
    simp only [ends_checkAhead]
    split
    · rename_i again
      exact (yields_skipAttributes_lt sound (.inl ⟨here, eq_of_beq again⟩)).again
    · exact yields_pure trivial
  · exact yields_pure trivial

theorem yields_functionMark (sound : state.Sound) :
    Yields functionMark state fun _ _ => True := by
  have passed {mark : Specifier × Bool} (more : (state.cursor.ahead 1).kind ≠ .eof) :
      Yields (do skip 2; return some mark) state fun _ _ => True := by
    exact (yields_skip_two sound more).returns
  unfold functionMark
  simp only [ends_check]
  split
  · simp only [ends_ahead]
    split
    · rename_i value
      split
      · exact passed (by simp [value])
      · exact yields_refuse
    · rename_i value
      exact passed (by simp [value])
    · rename_i value
      exact passed (by simp [value])
    · exact yields_refuse
  · exact yields_pure trivial

theorem yields_bodyAhead : Yields bodyAhead state fun _ next => next = state := by
  unfold bodyAhead
  simp only [ends_peek]
  split <;> exact yields_pure rfl

/-! ## Function bodies -/

theorem yields_skipBraces (sound : state.Sound) : Yields skipBraces state fun _ _ => True := by
  unfold skipBraces
  simp only [ends_check]
  split
  · exact (yields_skipGroup sound).ignore
  · exact (yields_expect sound (by simp)).returns

theorem yields_initializerSegment (sound : state.Sound) :
    Yields (initializerSegment ()) state fun outcome next =>
      outcome.Advances state (fun _ _ => True) (fun _ _ => True) next := by
  unfold initializerSegment
  apply (yields_expectIdentifier sound).bind sound
  intro _ first follows _
  apply yields_jumpClosedArguments.bind follows.sound
  intro _ second followsArguments _
  exact yields_separated followsArguments.sound (follows.trans followsArguments).weight_le
    (by simp) (fun _ _ => trivial) trivial

theorem yields_constructorInitializer (sound : state.Sound) :
    Yields (constructorInitializer ()) state fun outcome next =>
      outcome.Advances state (fun _ _ => True) (fun _ _ => True) next := by
  unfold constructorInitializer
  apply (yields_eat sound (by simp)).bind sound
  intro _ first follows _
  have name : Yields (iterate initializerSegment ()) first fun _ _ => True := by
    apply yields_iterate follows.sound (fun _ _ => True) trivial
    intro _ next followsNext _
    exact yields_initializerSegment followsNext.sound
  apply name.bind follows.sound
  intro _ second followsName _
  simp only [ends_check]
  apply Yields.optionally followsName.sound
  · intro _
    exact (yields_expect followsName.sound (by simp)).ignore
  · intro third followsOpener
    apply (yields_skipGroup followsOpener.sound).bind followsOpener.sound
    intro _ fourth followsGroup _
    apply (yields_eat followsGroup.sound (by simp)).bind followsGroup.sound
    intro _ last followsDots _
    have less := ((((follows.trans followsName).trans followsOpener).trans followsGroup).trans
      followsDots).weight_le
    exact yields_separated followsDots.sound less (by simp) (fun _ _ => trivial) trivial

theorem yields_exceptionHandler (sound : state.Sound) :
    Yields (exceptionHandler ()) state fun outcome next =>
      outcome.Advances state (fun _ _ => True) (fun _ _ => True) next := by
  unfold exceptionHandler
  apply (yields_eat sound (by simp)).bind sound
  intro found first follows ⟨read, _⟩
  split
  · rename_i word
    have less := read word
    apply (yields_skipGroupIf follows.sound .leftParen).bind follows.sound
    intro _ second followsGroup _
    apply (yields_skipBraces followsGroup.sound).bind followsGroup.sound
    intro _ last followsBraces _
    have lessLast := (followsGroup.trans followsBraces).weight_le
    exact yields_pure ⟨by omega, trivial⟩
  · exact yields_pure trivial

theorem yields_skipBody (sound : state.Sound) : Yields skipBody state fun _ _ => True := by
  unfold skipBody
  apply (yields_eat sound (by simp)).bind sound
  intro catches first follows _
  apply (yields_eat follows.sound (by simp)).bind follows.sound
  intro initializes second followsColon _
  apply Yields.optionally followsColon.sound
  · intro _
    apply yields_iterate followsColon.sound (fun _ _ => True) trivial
    intro _ next followsNext _
    exact yields_constructorInitializer followsNext.sound
  · intro third followsInitializers
    apply (yields_skipBraces followsInitializers.sound).bind followsInitializers.sound
    intro _ last followsBraces _
    split
    · apply yields_iterate followsBraces.sound (fun _ _ => True) trivial
      intro _ next followsNext _
      exact yields_exceptionHandler followsNext.sound
    · exact yields_pure trivial

/-! ## Parameters of a function -/

theorem completes_parameterSymbol (sound : state.Sound) (function : SymbolId)
    (parameter : ParsedParameter) :
    Completes (parameterSymbol function parameter) state fun _ _ => True := by
  unfold parameterSymbol
  split
  · exact completes_pure trivial
  · rename_i name _
    simp only [ends_unit]
    let operation := TableOperation.declare function
      { name := name, kind := .parameter, unit := some state.tree.unit }
    have admitted : state.table.Admits operation := rfl
    apply (yields_changeTable operation admitted trivial rfl).attempt.andThen sound
    intro declared next follows _
    cases declared with
    | ok symbol => exact ⟨follows.activity, trivial⟩
    | error error =>
        apply (completes_report error).andThen follows.sound
        intro _ _ followsReport _
        exact ⟨follows.activity.trans followsReport.activity, trivial⟩

theorem completes_addParameter (sound : state.Sound) {functionNode : NodeId}
    (present : state.tree.Has functionNode) (function : SymbolId)
    (parameter : ParsedParameter) :
    Completes (addParameter functionNode function parameter) state fun _ _ => True := by
  unfold addParameter
  apply (completes_parameterSymbol sound function parameter).andThen sound
  intro symbol next follows _
  have still := present.mono follows.activity.size_le
  simp only [ends_addNodeUnder still, ends_finishNodeAt_last]
  exact ⟨follows.activity.trans (.node still (.refl _)), trivial⟩

theorem completes_addParameters (sound : state.Sound) {functionNode : NodeId}
    (present : state.tree.Has functionNode) (function : SymbolId)
    (parameters : List ParsedParameter) :
    Completes (addParameters functionNode function parameters) state fun _ _ => True := by
  induction parameters generalizing state with
  | nil => exact completes_pure trivial
  | cons parameter rest ih =>
      unfold addParameters
      apply (completes_addParameter sound present function parameter).andThen sound
      intro _ next follows _
      have still := present.mono follows.activity.size_le
      apply (ih follows.sound still).imp
      intro _ _ done
      exact ⟨follows.activity.trans done.1, trivial⟩

/-! ## Declared entities -/

/-- What a declarator leaves behind: a node that waits for the end of the
declaration, or nothing to wait for where a function body has ended it. -/
inductive Declared (origin : ParseState) : InitDeclarator → ParseState → Prop
  | waiting {node : NodeId} {next : ParseState} (pending : Pending origin node next) :
      Declared origin ⟨some node, false⟩ next
  | finished {next : ParseState} (activity : Activity origin next) :
      Declared origin ⟨none, true⟩ next

theorem Declared.after {origin start next : ParseState} {declared : InitDeclarator}
    (activity : Activity origin start) (done : Declared start declared next) :
    Declared origin declared next := by
  cases done with
  | waiting pending => exact .waiting (pending.after activity)
  | finished done => exact .finished (activity.trans done)

theorem Declared.weight_le {origin next : ParseState} {declared : InitDeclarator}
    (done : Declared origin declared next) :
    next.cursor.weight ≤ origin.cursor.weight := by
  cases done with
  | waiting pending => exact pending.weight_le
  | finished activity => exact activity.weight_le

/-- A parse that declares something, or is refused behind some activity. -/
abbrev Declares (parse : ParseM InitDeclarator) (state : ParseState) : Prop :=
  Ends parse state (Declared state) (Activity state)

theorem Yields.declares {α : Type} {first : ParseM α} {rest : α → ParseM InitDeclarator}
    {middle : α → ParseState → Prop} (yields : Yields first state middle) (sound : state.Sound)
    (continued : ∀ value next, Follows state next → middle value next →
      Declares (rest value) next) : Declares (first >>= rest) state := by
  apply yields.andThen sound (fun _ follows => follows.activity)
  intro value next follows middle
  exact (continued value next follows middle).mono
    (fun _ _ done => done.after follows.activity)
    (fun _ done => follows.activity.trans done)

theorem Yields.declaresWhenever {α : Type} {condition : Prop} [Decidable condition]
    {first : ParseM α} {rest : ParseM InitDeclarator} (sound : state.Sound)
    (yields : condition → Yields first state fun _ _ => True)
    (continued : ∀ next, Follows state next → Declares rest next) :
    Declares (if condition then first >>= fun _ => rest else rest) state := by
  split
  · rename_i holds
    apply (yields holds).declares sound
    intro _ next follows _
    exact continued next follows
  · exact continued state (.of_activity sound (.refl state))

/-- A function body ends the node of the function, however it ends itself. -/
theorem functionBody_ends {origin : ParseState} {node : NodeId}
    (pending : Pending origin node state) (sound : state.Sound) :
    Ends (functionBody node) state (Declared origin) (Activity origin) := by
  unfold functionBody
  apply (yields_skipBody sound).attempt.andThen sound
  intro skipped next follows _
  simp only [ends_finishNode]
  have finished := (pending.andThen follows.activity).finish next.cursor.previousSpan
  cases skipped with
  | error _ => exact finished
  | ok _ => exact .finished finished

theorem declares_functionRest (works : rules.Works bound) (sound : state.Sound)
    (within : state.cursor.weight ≤ bound) (specs : DeclSpecs) (declarator : Declarator)
    (id : DeclaratorId) (parameters : List ParsedParameter) (start : Span) :
    Declares (functionRest rules specs declarator id parameters start) state := by
  unfold functionRest
  have items : Yields (iterate (functionItem rules) { specifiers := specs.specifiers }) state
      fun _ _ => True := by
    apply yields_iterate sound (fun _ _ => True) trivial
    intro tail next follows _
    have less := follows.weight_le
    exact yields_functionItem works follows.sound (by omega) tail
  apply items.declares sound
  intro tail first follows _
  apply (yields_functionMark follows.sound).declares follows.sound
  intro given second followsMark _
  apply yields_bodyAhead.declares followsMark.sound
  rintro hasBody _ _ rfl
  apply (yields_qualifierScope id).declares followsMark.sound
  rintro scope _ _ rfl
  apply (yields_declare rfl scope id.span).declares followsMark.sound
  intro symbol declared followsDeclared _
  simp only [ends_addNode followsDeclared.sound]
  have soundInside (kind : NodeKind) :=
    followsDeclared.sound.addNode declared.scopes.inner.node kind start
  refine (completes_addParameters (soundInside _) (declared.has_addNode _ _ _) symbol
    parameters).andThen (soundInside _) ?_
  intro _ last followsParameters _
  have pending := (Pending.start (.refl declared) followsDeclared.sound.has_inner _ _).andThen
    followsParameters.activity
  split
  · exact functionBody_ends pending followsParameters.sound
  · exact .waiting pending

/-! ## Simple declarations -/

theorem templateInfo?_symbolKind (kind : TagKind) : kind.symbolKind.templateInfo? = none := by
  cases kind <;> rfl

theorem yields_declareForward (sound : state.Sound) (forward : ForwardTag) :
    Yields (declareForward forward) state fun _ _ => True := by
  unfold declareForward
  apply (yields_pathScope forward.path).bind sound
  rintro scope _ _ rfl
  exact (yields_declare (templateInfo?_symbolKind forward.kind) scope _).returns

theorem declares_typedefDeclarator (sound : state.Sound) (specs : DeclSpecs)
    (declarator : Declarator) (id : DeclaratorId) (start : Span) :
    Declares (typedefDeclarator specs declarator id start) state := by
  unfold typedefDeclarator
  apply (yields_declare rfl none id.span).declares sound
  intro symbol next follows _
  simp only [ends_addNode follows.sound]
  exact .waiting (.start (.refl next) follows.sound.has_inner _ _)

theorem yields_initializer (sound : state.Sound) (declarator : Declarator) :
    Yields (initializer declarator) state fun _ _ => True := by
  unfold initializer
  split
  · exact yields_pure trivial
  · apply (yields_eat sound (by simp)).bind sound
    intro equal next follows _
    split
    · exact (yields_skipExpression follows.sound _).returns
    · simp only [ends_check]
      split
      · exact (yields_skipGroup follows.sound).returns
      · exact yields_pure trivial

theorem yields_isDeclarationOnly (specs : DeclSpecs) (id : DeclaratorId)
    (hasInitializer : Bool) :
    Yields (isDeclarationOnly specs id hasInitializer) state fun _ next => next = state := by
  unfold isDeclarationOnly
  simp only [ends_className?]
  exact yields_pure rfl

theorem declares_variableDeclarator (sound : state.Sound) (specs : DeclSpecs)
    (declarator : Declarator) (id : DeclaratorId) (start : Span) :
    Declares (variableDeclarator specs declarator id start) state := by
  unfold variableDeclarator
  apply (yields_eat sound (by simp)).declares sound
  intro hasWidth first follows _
  refine Yields.declaresWhenever follows.sound ?_ ?_
  · intro _
    exact yields_skipExpression follows.sound _
  · intro second followsWidth
    apply (yields_initializer followsWidth.sound declarator).declares followsWidth.sound
    intro hasInitializer third followsInitializer _
    apply (yields_qualifierScope id).declares followsInitializer.sound
    rintro scope _ _ rfl
    refine (yields_isDeclarationOnly specs id hasInitializer).declares
      followsInitializer.sound ?_
    rintro declarationOnly _ _ rfl
    apply (yields_declare rfl scope id.span).declares followsInitializer.sound
    intro symbol declared followsDeclared _
    simp only [ends_addNode followsDeclared.sound]
    exact .waiting (.start (.refl declared) followsDeclared.sound.has_inner _ _)

theorem declares_dataDeclarator (sound : state.Sound) (specs : DeclSpecs)
    (declarator : Declarator) (id : DeclaratorId) (start : Span) :
    Declares (dataDeclarator specs declarator id start) state := by
  unfold dataDeclarator
  split
  · exact .refl state
  · split
    · exact declares_typedefDeclarator sound specs declarator id start
    · exact declares_variableDeclarator sound specs declarator id start

/-- A declarator with what follows it takes something of what is left to read. -/
theorem initDeclarator_ends (works : rules.Works bound) (sound : state.Sound)
    (within : state.cursor.weight ≤ bound) (specs : DeclSpecs) (start : Span) :
    Ends (initDeclarator rules specs start) state
      (fun declared next => Declared state declared next ∧
        next.cursor.weight < state.cursor.weight) (Activity state) := by
  unfold initDeclarator
  refine (yields_declarator works sound within .named).andThen sound
    (fun _ follows => follows.activity) ?_
  intro declarator next follows read
  have less := read rfl
  have behind {parse : ParseM InitDeclarator} (declares : Declares parse next) :
      Ends parse next (fun declared last => Declared state declared last ∧
        last.cursor.weight < state.cursor.weight) (Activity state) := by
    refine declares.mono ?_ (fun _ activity => follows.activity.trans activity)
    intro declared last done
    exact ⟨done.after follows.activity, Nat.lt_of_le_of_lt done.weight_le less⟩
  split
  · exact behind (Ends.mono yields_refuseName (fun _ _ done => done.2) fun _ done => done)
  · split
    · split
      · exact behind (declares_dataDeclarator follows.sound specs declarator _ start)
      · exact behind (declares_functionRest works follows.sound (by omega) specs declarator _ _
          start)
    · exact behind (declares_dataDeclarator follows.sound specs declarator _ start)

theorem yields_declaratorItem (works : rules.Works bound) (sound : state.Sound)
    (within : state.cursor.weight ≤ bound) (specs : DeclSpecs) (start : Span) :
    Yields (declaratorItem rules specs start) state fun outcome next =>
      outcome.Advances state (fun _ _ => True)
        (fun _ after => after.cursor.weight < state.cursor.weight) next := by
  unfold declaratorItem
  apply Ends.bind (initDeclarator_ends works sound within specs start)
  rintro declared next ⟨done, less⟩
  cases done with
  | finished activity => exact ⟨activity, less⟩
  | waiting pending =>
      simp only [Bool.false_eq_true, ↓reduceIte, ends_check, finishDeclarator]
      split
      · simp only [ends_finishNode]
        have finished := pending.finish next.cursor.previousSpan
        refine (yields_skip (.inr rfl)).andThen (finished.sound sound)
          (fun _ follows => finished.trans follows.activity) ?_
        intro _ last follows _
        simp only [ends_peek]
        exact ⟨finished.trans follows.activity, Nat.lt_of_le_of_lt follows.weight_le less,
          trivial⟩
      · have soundNext := pending.sound sound
        apply (yields_expect soundNext (by simp)).attempt.andThen soundNext
        intro terminated last follows _
        simp only [ends_finishNode]
        have finished := (pending.andThen follows.activity).finish last.cursor.previousSpan
        cases terminated with
        | error _ => exact finished
        | ok _ => exact ⟨finished, Nat.lt_of_le_of_lt follows.weight_le less⟩

/-- A simple declaration that is not refused takes something of what is left to
read. -/
theorem yields_simpleDeclaration (works : rules.Works bound) (sound : state.Sound)
    (within : state.cursor.weight ≤ bound) (start : Span) :
    Yields (simpleDeclaration rules start) state fun _ next =>
      next.cursor.weight < state.cursor.weight := by
  unfold simpleDeclaration
  apply (yields_specifiers works sound within .declaration).bind sound
  intro specs first follows read
  have lessFirst := follows.weight_le
  split
  · rename_i friend
    have less : first.cursor.weight < state.cursor.weight := by
      rcases read with rfl | less
      · exact absurd friend (by decide)
      · exact less
    exact (completes_synchronize follows.sound).yields.below less
  · apply (yields_eat follows.sound (by simp)).bind follows.sound
    intro terminated second followsTerminator ⟨readTerminator, _⟩
    split
    · rename_i here
      have less := readTerminator here
      split
      · exact (yields_declareForward followsTerminator.sound _).below (by omega)
      · exact yields_pure (by omega)
    · apply yields_iterate followsTerminator.sound (fun _ _ => True) trivial
      intro span next followsNext _
      have less := (followsTerminator.trans followsNext).weight_le
      apply (yields_declaratorItem works followsNext.sound (by omega) specs span).imp
      intro outcome after _ advances
      cases outcome with
      | again => exact advances
      | done =>
          simp only [Step.Advances] at advances ⊢
          omega

end ParseM

end DeclTree
