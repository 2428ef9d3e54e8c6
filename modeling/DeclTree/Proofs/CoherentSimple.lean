import DeclTree.Proofs.CoherentSpecifiers

/-!
# Functions, variables and names for types keep scopes coherent

The declarators of one declaration go through the open templates at most once: the first of them
that is declared is what the innermost template wraps, and a further one is refused.  The
parameters of a function are declared in the function itself.
-/

namespace DeclTree

namespace ParseM

variable {strict : Prop} {state : ParseState} {rules : Rules}

/-! ## Function parameters -/

/-- No template wraps the symbol of a parameter. -/
theorem acts_parameterSymbol (fits : state.Fits strict) (function : SymbolId)
    (parameter : ParsedParameter) :
    Acts strict (parameterSymbol function parameter) state fun symbol next =>
      ∀ id template, symbol = some id → next.table.templated? template ≠ some id := by
  unfold parameterSymbol
  split
  · exact acts_pure fits (by simp)
  · rename_i name _
    simp only [meets_unit]
    apply (acts_declareIn fits rfl function parameter.start).attempt.acts.bind
    rintro outcome next continues ⟨accepted, tame⟩
    cases outcome with
    | ok symbol =>
        obtain ⟨table, done, rfl⟩ := accepted symbol rfl
        apply acts_pure continues.fits
        rintro _ template ⟨⟩
        exact unwrapped_of_declare fits.coherent.orderly rfl done template
    | error error =>
        apply (settles_report continues.fits (tame error rfl)).acts.bind
        intro _ last further _
        exact acts_pure further.fits (by simp)

theorem acts_addParameter (fits : state.Fits strict) {node : NodeId}
    (around : state.tree.Plain node) (function : SymbolId) (parameter : ParsedParameter) :
    Acts strict (addParameter node function parameter) state fun _ _ => True := by
  apply (acts_parameterSymbol fits function parameter).bind
  intro symbol next continues unwrapped
  apply (acts_addInner continues.fits (continues.plain node around) rfl ?_ parameter.start).bind
  · intro inner last further _
    exact (settles_finishNodeAt further.fits inner parameter.last).acts
  · intro id template named
    exact unwrapped id template named

theorem acts_addParameters {node : NodeId} (function : SymbolId)
    {parameters : List ParsedParameter} :
    ∀ {state : ParseState}, state.Fits strict → state.tree.Plain node →
      Acts strict (addParameters node function parameters) state fun _ _ => True := by
  induction parameters with
  | nil =>
      intro state fits _
      exact acts_pure fits trivial
  | cons parameter rest ih =>
      intro state fits around
      apply (acts_addParameter fits around function parameter).bind
      intro _ next continues _
      exact ih continues.fits (continues.plain node around)

/-! ## Declarators -/

theorem acts_functionBody (fits : state.Fits strict) (node : NodeId) :
    Acts strict (functionBody node) state fun _ _ => True := by
  apply (onlyReads_skipBody.acts fits).attempt.acts.bind
  rintro skipped next continues ⟨_, tame⟩
  exact acts_finishNode_return continues.fits node tame _

theorem acts_functionRest (reads : rules.Reads) (fits : state.Fits strict)
    (quiet : state.Quiet strict) (specs : DeclSpecs) (declarator : Declarator)
    (id : DeclaratorId) (parameters : List ParsedParameter) (start : Span) :
    Acts strict (functionRest rules specs declarator id parameters start) state
      fun _ next => next.Quiet strict := by
  apply ((OnlyReads.iterate (onlyReads_functionItem reads) _).acts fits).bind
  intro tail first continuesFirst readsFirst
  apply (onlyReads_functionMark.acts continuesFirst.fits).bind
  intro given second continuesSecond readsSecond
  apply (onlyReads_bodyAhead.acts continuesSecond.fits).bind
  intro hasBody third continuesThird readsThird
  apply (acts_qualifierScope continuesThird.fits id).bind
  rintro scope fourth continuesFourth ⟨readsFourth, clear⟩
  have quietFourth := (((quiet.reads readsFirst).reads readsSecond).reads readsThird).reads
    readsFourth
  apply acts_entity continuesFourth.fits quietFourth rfl (by simp) clear (fun _ => rfl)
    fun _ => rfl
  intro symbol node fifth continuesFifth _ placed
  apply (acts_addParameters symbol continuesFifth.fits placed.plain).bind
  intro _ last further _
  split
  · exact acts_functionBody further.fits node
  · exact acts_pure further.fits trivial

theorem acts_declareForward (fits : state.Fits strict) (quiet : state.Quiet strict)
    (forward : ForwardTag) :
    Acts strict (declareForward forward) state fun _ _ => True := by
  have plain : forward.kind.symbolKind.templateInfo? = none := by
    cases forward.kind <;> rfl
  have noScope : forward.kind.symbolKind ≠ .namespaceScope := by
    cases forward.kind <;> simp [TagKind.symbolKind]
  apply (acts_pathScope fits forward.path).bind
  rintro scope first continuesFirst ⟨readsFirst, clear⟩
  apply (acts_declare continuesFirst.fits (quiet.reads readsFirst) plain noScope clear
    forward.path.span).bind
  intro _ last further _
  exact acts_pure further.fits trivial

theorem acts_typedefDeclarator (fits : state.Fits strict) (quiet : state.Quiet strict)
    (specs : DeclSpecs) (declarator : Declarator) (id : DeclaratorId) (start : Span) :
    Acts strict (typedefDeclarator specs declarator id start) state
      fun _ next => next.Quiet strict :=
  acts_entity fits quiet rfl (by simp) SymbolTable.clear_none (fun _ => rfl) (fun _ => rfl)
    fun _ _ _ continues _ _ => acts_pure continues.fits trivial

theorem acts_variableDeclarator (fits : state.Fits strict) (quiet : state.Quiet strict)
    (specs : DeclSpecs) (declarator : Declarator) (id : DeclaratorId) (start : Span) :
    Acts strict (variableDeclarator specs declarator id start) state
      fun _ next => next.Quiet strict := by
  have rest (first : ParseState) (fitsFirst : first.Fits strict)
      (quietFirst : first.Quiet strict) : Acts strict (do
      let hasInitializer ← initializer declarator
      let scope ← qualifierScope id
      let declarationOnly ← isDeclarationOnly specs id hasInitializer
      let symbol ← declare
        { name := id.name
          kind := .var
          defined := !declarationOnly
          specialization := id.hasArguments } scope id.span
      let node ← addNode
        (.var ⟨id.name, id.qualifier.map Qualifier.text, specs.typeRef declarator,
          specs.specifiers, symbol, hasInitializer⟩) start
      return InitDeclarator.mk (some node) false) first fun _ next => next.Quiet strict := by
    apply ((onlyReads_initializer declarator).acts fitsFirst).bind
    intro hasInitializer second continuesSecond readsSecond
    apply (acts_qualifierScope continuesSecond.fits id).bind
    rintro scope third continuesThird ⟨readsThird, clear⟩
    apply ((onlyReads_isDeclarationOnly specs id hasInitializer).acts continuesThird.fits).bind
    intro declarationOnly fourth continuesFourth readsFourth
    have quietFourth := ((quietFirst.reads readsSecond).reads readsThird).reads readsFourth
    have clearFourth : fourth.table.Clear scope := by
      have same : fourth.table = third.table := by rw [readsFourth.2]
      rw [same]
      exact clear
    exact acts_entity continuesFourth.fits quietFourth rfl (by simp) clearFourth (fun _ => rfl)
      (fun _ => rfl) fun _ _ _ continues _ _ => acts_pure continues.fits trivial
  apply ((onlyReads_eat _).acts fits).bind
  intro hasWidth first continues readsFirst
  split
  · apply ((onlyReads_skipExpression _).acts continues.fits).bind
    intro _ second continuesWidth readsWidth
    exact rest second continuesWidth.fits ((quiet.reads readsFirst).reads readsWidth)
  · exact rest first continues.fits (quiet.reads readsFirst)

theorem acts_dataDeclarator (fits : state.Fits strict) (quiet : state.Quiet strict)
    (specs : DeclSpecs) (declarator : Declarator) (id : DeclaratorId) (start : Span) :
    Acts strict (dataDeclarator specs declarator id start) state
      fun _ next => next.Quiet strict := by
  unfold dataDeclarator
  split
  · exact acts_refuse fits (by simp)
  · split
    · exact acts_typedefDeclarator fits quiet specs declarator id start
    · exact acts_variableDeclarator fits quiet specs declarator id start

theorem acts_initDeclarator (reads : rules.Reads) (fits : state.Fits strict)
    (quiet : state.Quiet strict) (specs : DeclSpecs) (start : Span) :
    Acts strict (initDeclarator rules specs start) state fun _ next => next.Quiet strict := by
  apply ((onlyReads_declarator reads .named).acts fits).bind
  intro declarator first continues readsFirst
  have quietFirst := quiet.reads readsFirst
  split
  · exact onlyReads_refuseName.acts_quiet continues.fits quietFirst
  · split
    · split
      · exact acts_dataDeclarator continues.fits quietFirst specs declarator _ start
      · exact acts_functionRest reads continues.fits quietFirst specs declarator _ _ start
    · exact acts_dataDeclarator continues.fits quietFirst specs declarator _ start

/-! ## Declarations -/

theorem acts_finishDeclarator (fits : state.Fits strict) (declared : InitDeclarator) :
    Acts strict (finishDeclarator declared) state
      fun _ next => state.Quiet strict → next.Quiet strict := by
  unfold finishDeclarator
  split
  · exact ⟨fits.finishNode _ _, fun quiet => quiet⟩
  · exact acts_pure fits fun quiet => quiet

theorem acts_declaratorItem (reads : rules.Reads) (fits : state.Fits strict)
    (quiet : state.Quiet strict) (specs : DeclSpecs) (start : Span) :
    Acts strict (declaratorItem rules specs start) state fun _ next => next.Quiet strict := by
  apply (acts_initDeclarator reads fits quiet specs start).bind
  intro declared first continuesFirst quietFirst
  split
  · exact acts_pure continuesFirst.fits quietFirst
  · simp only [meets_check]
    split
    · apply (acts_finishDeclarator continuesFirst.fits declared).bind
      intro _ second continuesSecond finished
      apply ((onlyReads_skip 1).acts continuesSecond.fits).bind
      intro _ third continuesThird readsThird
      simp only [meets_peek]
      exact acts_pure continuesThird.fits ((finished quietFirst).reads readsThird)
    · apply ((onlyReads_expect _).acts continuesFirst.fits).attempt.acts.bind
      rintro terminated second continuesSecond ⟨accepted, tame⟩
      apply (acts_finishDeclarator continuesSecond.fits declared).bind
      intro _ third continuesThird finished
      have resumed : Acts strict (resume terminated) third fun _ next => next.Quiet strict :=
        acts_resume continuesThird.fits tame fun value ended =>
          finished (quietFirst.reads (accepted value ended))
      apply resumed.bind
      intro _ last further quietLast
      exact acts_pure further.fits quietLast

/-- A declaration of specifiers and declarators. -/
theorem acts_simpleDeclaration (coheres : rules.Coheres strict) (fits : state.Fits strict)
    (quiet : state.Quiet strict) (start : Span) :
    Acts strict (simpleDeclaration rules start) state fun _ _ => True := by
  apply (acts_specifiers coheres fits quiet).bind
  intro specs first continuesFirst quietFirst
  split
  · exact (settles_synchronize continuesFirst.fits).acts.imp fun _ _ _ _ => trivial
  · apply (settles_eat continuesFirst.fits _).acts.bind
    intro ended second continuesSecond readsSecond
    have quietSecond := quietFirst.reads readsSecond
    split
    · split
      · exact acts_declareForward continuesSecond.fits quietSecond _
      · exact acts_pure continuesSecond.fits trivial
    · apply acts_iterate (fun _ next => next.Quiet strict) continuesSecond.fits quietSecond
      intro place next continues quietNext
      apply (acts_declaratorItem coheres.toReads continues.fits quietNext specs place).imp
      intro outcome _ _ still
      cases outcome with
      | again => exact still
      | done => trivial

end ParseM

end DeclTree
