import DeclTree.Proofs.CoherentBinding

/-!
# Classes and enums keep scopes coherent

A class or enum with a body is declared among the specifiers of a declaration.  Behind a template
prefix such a declaration is what the template wraps, and its node is inside the node of the
template.
-/

namespace DeclTree

/-- Rules that keep scopes coherent. -/
structure Rules.Coheres (strict : Prop) (rules : Rules) : Prop extends rules.Reads where
  declaration : ∀ state : ParseState, state.Fits strict → state.Quiet strict →
    state.Shut strict → ParseM.Acts strict rules.declaration state fun _ _ => True
  templateDeclaration : ∀ (state : ParseState) (start : Span) (exported : Bool),
    state.Fits strict → state.Quiet strict →
      ParseM.Acts strict (rules.templateDeclaration start exported) state fun _ _ => True
  declarations : ∀ (state : ParseState) (closing : Bool), state.Fits strict →
    state.Quiet strict → (strict → state.Aside) →
      ParseM.Settles strict (rules.declarations closing) state fun _ _ => True

namespace ParseM

variable {strict : Prop} {state : ParseState} {rules : Rules}

/-! ## Classes -/

theorem acts_classBody (coheres : rules.Coheres strict) (fits : state.Fits strict)
    (quiet : state.Quiet strict) {node : NodeId} {symbol : SymbolId}
    (placed : state.Placed node symbol) (name : String) :
    Acts strict (classBody rules name symbol node) state fun _ _ => True := by
  apply ((onlyReads_expect (.punct .leftBrace)).acts fits).attempt.acts.bind
  rintro outcome next continues ⟨opened, tame⟩
  cases outcome with
  | error error =>
      apply acts_finishNode_resume continues.fits node
      rintro _ ⟨⟩
      exact tame error rfl
  | ok brace =>
      have inside := placed.reads (opened brace rfl)
      have entered : (next.enter ⟨node, symbol, .container, .classBody name⟩).Fits strict :=
        continues.fits.enter_placed inside (by simp)
      have aside : (next.enter ⟨node, symbol, .container, .classBody name⟩).Aside := by
        rintro _ _ ⟨⟩
      apply acts_scope (by simp)
        (coheres.declarations _ true entered (quiet.of_aside continues.moves aside) fun _ => aside)
      intro _ last outside _
      apply (settles_eat outside.fits _).acts.bind
      intro _ final further _
      exact (settles_finishNode further.fits node).acts

theorem acts_classDefinition (coheres : rules.Coheres strict) (fits : state.Fits strict)
    (quiet : state.Quiet strict) (specs : DeclSpecs) (key : Token) (path : Option NamePath)
    (isFinal : Bool) :
    Acts strict (classDefinition rules specs key path isFinal) state
      fun _ next => next.Quiet strict := by
  apply (onlyReads_baseClause.acts fits).bind
  intro bases first continuesFirst readsFirst
  apply ((onlyReads_checkNesting key.span).acts continuesFirst.fits).bind
  intro _ second continuesSecond readsSecond
  apply (acts_tagPlace continuesSecond.fits path key).bind
  rintro ⟨scope, name, span⟩ third continuesThird ⟨readsThird, clear⟩
  have quietThird := ((quiet.reads readsFirst).reads readsSecond).reads readsThird
  apply acts_entity continuesThird.fits quietThird rfl (by simp) clear (fun _ => rfl) fun _ => rfl
  intro symbol node fourth continuesFourth quietFourth placed
  apply (acts_classBody coheres continuesFourth.fits quietFourth placed name).bind
  intro _ last continuesLast _
  exact acts_pure continuesLast.fits trivial

theorem acts_classSpecifier (coheres : rules.Coheres strict) (fits : state.Fits strict)
    (quiet : state.Quiet strict) (specs : DeclSpecs) :
    Acts strict (classSpecifier rules specs true) state fun _ next => next.Quiet strict := by
  apply (onlyReads_advance.acts fits).bind
  intro key first continuesFirst readsFirst
  apply (onlyReads_skipAttributes.acts continuesFirst.fits).bind
  intro _ second continuesSecond readsSecond
  apply (onlyReads_tagPath?.acts continuesSecond.fits).bind
  intro path third continuesThird readsThird
  have quietThird := ((quiet.reads readsFirst).reads readsSecond).reads readsThird
  simp only [meets_checkWord]
  have rest (isFinal : Bool) (fourth : ParseState) (fitsFourth : fourth.Fits strict)
      (quietFourth : fourth.Quiet strict) : Acts strict (do
        let pathTokens := (path.map NamePath.tokens).getD []
        let specs :=
          { specs with hasType := true, tokens := specs.tokens ++ key :: pathTokens }
        if true && ((← check (.punct .leftBrace)) || (← check (.punct .colon))) then
          classDefinition rules specs key path isFinal
        else
          forwardTag specs path (.classTag (classKeyOf key.kind))) fourth
            fun _ next => next.Quiet strict := by
    simp only [meets_check]
    split
    · exact acts_classDefinition coheres fitsFourth quietFourth _ key path isFinal
    · exact (onlyReads_forwardTag _ path _).acts_quiet fitsFourth quietFourth
  split
  · apply ((onlyReads_skip 1).acts continuesThird.fits).bind
    intro _ fourth continuesFourth readsFourth
    exact rest _ fourth continuesFourth.fits (quietThird.reads readsFourth)
  · exact rest _ third continuesThird.fits quietThird

/-! ## Enums -/

theorem acts_enumerator (fits : state.Fits strict) {parent : NodeId}
    (around : state.tree.Plain parent) (scope : SymbolId) :
    Acts strict (enumerator parent scope) state fun _ _ => True := by
  apply (onlyReads_expectIdentifier.acts fits).bind
  intro name first continuesFirst _
  apply (onlyReads_skipAttributes.acts continuesFirst.fits).bind
  intro _ second continuesSecond _
  apply ((onlyReads_eat _).acts continuesSecond.fits).bind
  intro hasValue third continuesThird _
  have before := (continuesFirst.trans continuesSecond).trans continuesThird
  have rest (fourth : ParseState) (continues : state.Continues strict fourth) : Acts strict (do
      let unit ← unit
      let symbol ← changeTable name.span fun table =>
        table.declare scope { name := name.lexeme, kind := .enumerator, unit := some unit }
      let node ← addNodeUnder parent (.enumerator ⟨name.lexeme, symbol, hasValue⟩) name.span
      finishNode node) fourth fun _ _ => True := by
    simp only [meets_unit]
    apply (acts_declareIn continues.fits rfl scope name.span).bind
    rintro symbol _ declares ⟨table, done, rfl⟩
    have inside := (continues.trans declares).plain parent around
    apply (acts_addInner declares.fits inside rfl ?_ name.span).bind
    · intro node last further _
      exact (settles_finishNode further.fits node).acts
    · rintro _ template ⟨⟩
      exact unwrapped_of_declare continues.fits.coherent.orderly rfl done template
  split
  · apply ((onlyReads_skipExpression _).acts before.fits).bind
    intro _ fourth continuesFourth _
    exact rest fourth (before.trans continuesFourth)
  · exact rest third before

/-- A choice by the next token that only tells whether a loop goes on. -/
theorem acts_separated {α β : Type} (fits : state.Fits strict) {kind : TokenKind} {next : α}
    {final : β} :
    Acts strict (do if ← eat kind then return Step.again next else return Step.done final) state
      fun _ _ => True := by
  apply (settles_eat fits kind).acts.bind
  intro eaten after continues _
  split
  · exact acts_pure continues.fits trivial
  · exact acts_pure continues.fits trivial

theorem acts_enumeratorItem (fits : state.Fits strict) {parent : NodeId}
    (around : state.tree.Plain parent) (scope : SymbolId) :
    Acts strict (enumeratorItem parent scope ()) state fun _ _ => True := by
  unfold enumeratorItem
  simp only [meets_peek]
  split
  · exact acts_pure fits trivial
  · apply (acts_enumerator fits around scope).attempt.acts.bind
    rintro outcome first continues ⟨_, tame⟩
    cases outcome with
    | ok _ => exact acts_separated continues.fits
    | error error =>
        apply (settles_report continues.fits (tame error rfl)).acts.bind
        intro _ second continuesReport _
        simp only [meets_unread]
        apply ((onlyReads_pass _).acts continuesReport.fits).bind
        intro _ third continuesRest _
        exact acts_separated continuesRest.fits

theorem acts_enumerators (fits : state.Fits strict) {parent : NodeId}
    (around : state.tree.Plain parent) (scope : SymbolId) :
    Acts strict (enumerators parent scope) state fun _ _ => True := by
  have items : Acts strict (iterate (enumeratorItem parent scope) ()) state fun _ _ => True := by
    apply acts_iterate (fun _ _ => True) fits trivial
    intro _ next continues _
    apply (acts_enumeratorItem continues.fits (continues.plain parent around) scope).imp
    intro outcome _ _ _
    cases outcome <;> trivial
  apply items.bind
  intro _ next continues _
  apply ((onlyReads_expect _).acts continues.fits).bind
  intro _ last further _
  exact acts_pure further.fits trivial

theorem acts_enumBody (fits : state.Fits strict) {node : NodeId} (around : state.tree.Plain node)
    (symbol : SymbolId) : Acts strict (enumBody symbol node) state fun _ _ => True := by
  apply ((onlyReads_expect (.punct .leftBrace)).acts fits).attempt.acts.bind
  rintro outcome next continues ⟨_, tame⟩
  cases outcome with
  | error error =>
      apply acts_finishNode_resume continues.fits node
      rintro _ ⟨⟩
      exact tame error rfl
  | ok brace =>
      apply (acts_enumerators continues.fits (continues.plain node around) symbol).attempt.acts.bind
      rintro closed last further ⟨_, tameClosed⟩
      exact acts_finishNode_resume further.fits node tameClosed

theorem acts_enumDefinition (fits : state.Fits strict) (quiet : state.Quiet strict)
    (specs : DeclSpecs) (key : Token) (path : Option NamePath) (isScoped : Bool)
    (underlying : Option TypeRef) :
    Acts strict (enumDefinition specs key path isScoped underlying) state
      fun _ next => next.Quiet strict := by
  apply ((onlyReads_checkNesting key.span).acts fits).bind
  intro _ first continuesFirst readsFirst
  apply (acts_tagPlace continuesFirst.fits path key).bind
  rintro ⟨scope, name, span⟩ second continuesSecond ⟨readsSecond, clear⟩
  have quietSecond := (quiet.reads readsFirst).reads readsSecond
  apply acts_entity continuesSecond.fits quietSecond rfl (by simp) clear (fun _ => rfl) fun _ => rfl
  intro symbol node third continuesThird _ placed
  apply (acts_enumBody continuesThird.fits placed.plain symbol).bind
  intro _ last continuesLast _
  exact acts_pure continuesLast.fits trivial

theorem acts_enumSpecifier (reads : rules.Reads) (fits : state.Fits strict)
    (quiet : state.Quiet strict) (specs : DeclSpecs) :
    Acts strict (enumSpecifier rules specs true) state fun _ next => next.Quiet strict := by
  apply (onlyReads_advance.acts fits).bind
  intro key first continuesFirst readsFirst
  apply (onlyReads_scopedWord.acts continuesFirst.fits).bind
  intro scopedTokens second continuesSecond readsSecond
  apply (onlyReads_skipAttributes.acts continuesSecond.fits).bind
  intro _ third continuesThird readsThird
  apply (onlyReads_tagPath?.acts continuesThird.fits).bind
  intro path fourth continuesFourth readsFourth
  apply ((onlyReads_underlyingType reads true).acts continuesFourth.fits).bind
  intro underlying fifth continuesFifth readsFifth
  have quietFifth := ((((quiet.reads readsFirst).reads readsSecond).reads readsThird).reads
    readsFourth).reads readsFifth
  simp only [meets_check]
  split
  · exact acts_enumDefinition continuesFifth.fits quietFifth _ key path _ underlying
  · exact (onlyReads_forwardTag _ path _).acts_quiet continuesFifth.fits quietFifth

/-! ## Specifiers -/

/-- Whether a parse may go on quietly behind a round of a loop, whatever comes next. -/
theorem acts_again {α : Type} {parse : ParseM α}
    (acts : Acts strict parse state fun _ next => next.Quiet strict) :
    Acts strict (do return .again (← parse) : ParseM (Step α α)) state
      fun _ next => next.Quiet strict := by
  apply acts.bind
  intro _ next continues quiet
  exact acts_pure continues.fits quiet

theorem acts_keywordSpecifier (coheres : rules.Coheres strict) (fits : state.Fits strict)
    (quiet : state.Quiet strict) (specs : DeclSpecs) (word : Keyword) :
    Acts strict (keywordSpecifier rules .declaration specs word) state
      fun _ next => next.Quiet strict := by
  have classes : Acts strict (if specs.hasType then return Step.done specs
      else return .again (← classSpecifier rules specs true)) state
      fun _ next => next.Quiet strict := by
    split
    · exact acts_pure fits quiet
    · exact acts_again (acts_classSpecifier coheres fits quiet specs)
  unfold keywordSpecifier
  split
  · exact acts_again ((onlyReads_markedSpecifier specs word _).acts_quiet fits quiet)
  · split
    · exact acts_again ((onlyReads_typeWord specs false).acts_quiet fits quiet)
    · split
      · exact acts_again ((onlyReads_typeWord specs true).acts_quiet fits quiet)
      · split
        · exact OnlyReads.acts_quiet (by simp) fits quiet
        · exact OnlyReads.acts_quiet (by simp) fits quiet
        · exact OnlyReads.acts_quiet (by simp) fits quiet
        · exact classes
        · exact classes
        · exact classes
        · split
          · exact acts_pure fits quiet
          · exact acts_again (acts_enumSpecifier coheres.toReads fits quiet specs)
        · exact OnlyReads.acts_quiet (by simp) fits quiet
        · exact acts_pure fits quiet

/-- The specifiers of a declaration, where classes and enums may have a body. -/
theorem acts_specifiers (coheres : rules.Coheres strict) (fits : state.Fits strict)
    (quiet : state.Quiet strict) :
    Acts strict (specifiers rules .declaration) state fun _ next => next.Quiet strict := by
  apply acts_iterate (fun _ next => next.Quiet strict) fits quiet
  intro specs next continues quietNext
  have round : Acts strict (nextSpecifier rules .declaration specs) next
      fun _ after => after.Quiet strict := by
    unfold nextSpecifier
    simp only [meets_peek]
    split
    · exact acts_keywordSpecifier coheres continues.fits quietNext specs _
    · exact OnlyReads.acts_quiet (by simp) continues.fits quietNext
    · exact OnlyReads.acts_quiet (by simp) continues.fits quietNext
    · exact (onlyReads_nameSpecifier .declaration specs).acts_quiet continues.fits quietNext
    · exact acts_pure continues.fits quietNext
  apply round.imp
  intro outcome _ _ still
  cases outcome <;> exact still

end ParseM

end DeclTree
