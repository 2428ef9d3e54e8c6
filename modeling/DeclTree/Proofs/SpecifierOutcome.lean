import DeclTree.Proofs.BindingOutcome

/-!
# Specifiers, classes and enums

The words in front of a declarator are read one by one, and each leaves less to
read.  A class body is read by the rules for what is nested, behind the word that
introduces the class.
-/

namespace DeclTree

open ParseState (Activity Pending)

/-- Rules that can be relied on wherever less than a bound is left to read: they do
not get stuck, and the declarations of a scope are never refused. -/
structure Rules.Works (rules : Rules) (bound : Nat) : Prop where
  specifiers : ∀ {mode : SpecifierMode} {state : ParseState}, state.Sound →
    state.cursor.weight < bound → ParseM.Yields (rules.specifiers mode) state fun _ _ => True
  declarator : ∀ {mode : DeclaratorMode} {state : ParseState}, state.Sound →
    state.cursor.weight < bound → ParseM.Yields (rules.declarator mode) state fun _ _ => True
  declaration : ∀ {state : ParseState}, state.Sound → state.cursor.weight < bound →
    ParseM.Yields rules.declaration state fun _ _ => True
  templateDeclaration : ∀ {span : Span} {exported : Bool} {state : ParseState}, state.Sound →
    state.cursor.weight < bound →
      ParseM.Yields (rules.templateDeclaration span exported) state fun _ _ => True
  declarations : ∀ {closing : Bool} {state : ParseState}, state.Sound →
    state.cursor.weight < bound →
      ParseM.Completes (rules.declarations closing) state fun _ _ => True

namespace ParseM

variable {state : ParseState} {rules : Rules} {bound : Nat}

/-! ## Classes -/

theorem yields_tagPath? (sound : state.Sound) : Yields tagPath? state fun _ _ => True := by
  unfold tagPath?
  simp only [ends_check]
  split
  · exact (yields_namePath sound).returns
  · exact yields_pure trivial

theorem yields_baseClass (sound : state.Sound) (bases : List TypeRef) :
    Yields (baseClass bases) state fun outcome next =>
      outcome.Advances state (fun _ _ => True) (fun _ _ => True) next := by
  unfold baseClass
  apply (yields_skipAttributes sound).bind sound
  intro _ first follows _
  simp only [ends_unread]
  apply (yields_skip (.inl (List.takeWhile_sublist _).length_le)).bind follows.sound
  intro _ second followsWords _
  apply (yields_namePath followsWords.sound).bind followsWords.sound
  intro path third followsPath less
  simp only [ends_resolve?]
  apply (yields_eat followsPath.sound (by simp)).bind followsPath.sound
  intro _ last followsDots _
  apply yields_separated followsDots.sound _ (by simp) (fun _ _ => trivial) trivial
  have := follows.weight_le
  have := followsWords.weight_le
  have := followsDots.weight_le
  omega

theorem yields_baseClause (sound : state.Sound) : Yields baseClause state fun _ _ => True := by
  unfold baseClause
  apply (yields_eat sound (by simp)).bind sound
  intro found next follows _
  split
  · apply yields_iterate follows.sound (fun _ _ => True) trivial
    intro bases after followsAfter _
    exact yields_baseClass followsAfter.sound bases
  · exact yields_pure trivial

theorem yields_forwardTag (specs : DeclSpecs) (path : Option NamePath) (kind : TagKind) :
    Yields (forwardTag specs path kind) state fun _ _ => True := by
  unfold forwardTag
  split
  · exact yields_refuseName
  · simp only [ends_resolve?]
    exact yields_pure trivial

theorem yields_tagPlace (path : Option NamePath) (key : Token) :
    Yields (tagPlace path key) state fun _ next => next = state := by
  unfold tagPlace
  split
  · rename_i path
    apply Ends.bind (yields_pathScope path)
    rintro scope _ ⟨_, rfl⟩
    exact yields_pure rfl
  · exact yields_pure rfl

/-- The body of a class ends the node of the class, however it ends itself. -/
theorem classBody_ends {origin : ParseState} {node : NodeId} (works : rules.Works bound)
    (pending : Pending origin node state) (sound : state.Sound)
    (within : state.cursor.weight < bound) (name : String) (symbol : SymbolId) :
    Ends (classBody rules name symbol node) state (fun _ next => Activity origin next)
      (Activity origin) := by
  unfold classBody
  apply (yields_expect sound (by simp)).attempt.andThen sound
  intro opened next follows _
  have waiting := pending.andThen follows.activity
  cases opened with
  | error error =>
      simp only [ends_finishNode]
      exact waiting.finish _
  | ok opener =>
      simp only [ends_pushScope]
      have soundInside : (next.enter ⟨node, symbol, .container, .classBody name⟩).Sound :=
        follows.sound.enter waiting.has
      have weightInside := follows.weight_le
      refine (works.declarations soundInside (by
        change next.cursor.weight < bound
        omega)).andThen soundInside ?_
      intro _ inside followsBody _
      simp only [ends_popScope]
      have scope : Activity next inside.leave := .scope followsBody.activity
      have soundOutside := scope.sound follows.sound
      apply (completes_eat soundOutside (by simp)).andThen soundOutside
      intro _ last followsBrace _
      exact ((waiting.andThen scope).andThen followsBrace.activity).finish _

theorem yields_classDefinition (works : rules.Works bound) (sound : state.Sound)
    (within : state.cursor.weight < bound) (specs : DeclSpecs) (key : Token)
    (path : Option NamePath) (isFinal : Bool) :
    Yields (classDefinition rules specs key path isFinal) state fun _ _ => True := by
  unfold classDefinition
  apply (yields_baseClause sound).bind sound
  intro bases next follows _
  have less := follows.weight_le
  apply Yields.bind (yields_checkNesting key.span) follows.sound
  rintro _ _ _ rfl
  apply Yields.bind (yields_tagPlace path key) follows.sound
  rintro ⟨scope, name, span⟩ _ _ rfl
  apply (yields_declare rfl scope span).bind follows.sound
  intro symbol declared followsDeclared _
  have lessDeclared := followsDeclared.weight_le
  simp only [ends_addNode followsDeclared.sound]
  refine Ends.bind (classBody_ends works (.start (.refl _) followsDeclared.sound.has_inner _ _)
    (followsDeclared.sound.addNode _ _ _) (by rw [ParseState.cursor_addNode]; omega)
    name symbol) ?_
  intro _ _ activity
  exact ⟨activity, trivial⟩

theorem yields_classSpecifier (works : rules.Works bound) (sound : state.Sound)
    (within : state.cursor.weight ≤ bound) (more : state.cursor.peek.kind ≠ .eof)
    (specs : DeclSpecs) (allowBody : Bool) :
    Yields (classSpecifier rules specs allowBody) state fun _ next =>
      next.cursor.weight < state.cursor.weight := by
  unfold classSpecifier
  apply (yields_advance sound more).bind sound
  intro key first follows less
  apply (yields_skipAttributes follows.sound).bind follows.sound
  intro _ second followsAttributes _
  apply (yields_tagPath? followsAttributes.sound).bind followsAttributes.sound
  intro path third followsPath _
  simp only [ends_checkWord]
  apply Yields.optionally followsPath.sound
  · intro _
    exact (yields_skip (.inr rfl)).ignore
  · intro last followsFinal
    have lessLast : last.cursor.weight < state.cursor.weight := by
      have := followsAttributes.weight_le
      have := followsPath.weight_le
      have := followsFinal.weight_le
      omega
    simp only [ends_check]
    split
    · exact (yields_classDefinition works followsFinal.sound (by omega) _ _ _ _).below lessLast
    · exact (yields_forwardTag _ _ _).below lessLast

/-! ## Enums -/

theorem yields_enumerator (sound : state.Sound) {parent : NodeId}
    (present : state.tree.Has parent) (scope : SymbolId) :
    Yields (enumerator parent scope) state fun _ _ => True := by
  unfold enumerator
  apply (yields_expectIdentifier sound).bind sound
  intro name first follows _
  apply (yields_skipAttributes follows.sound).bind follows.sound
  intro _ second followsAttributes _
  apply (yields_eat followsAttributes.sound (by simp)).bind followsAttributes.sound
  intro hasValue third followsEqual _
  apply Yields.optionally followsEqual.sound
  · intro _
    exact yields_skipExpression followsEqual.sound _
  · intro fourth followsValue
    simp only [ends_unit]
    let operation := TableOperation.declare scope
      { name := name.lexeme, kind := .enumerator, unit := some fourth.tree.unit }
    have admitted : fourth.table.Admits operation := rfl
    apply (yields_changeTable operation admitted trivial rfl).bind followsValue.sound
    intro symbol last followsSymbol _
    have whole := (((follows.trans followsAttributes).trans followsEqual).trans
      followsValue).trans followsSymbol
    have still := present.mono whole.activity.size_le
    simp only [ends_addNodeUnder still, ends_finishNode_last]
    exact ⟨.node still (.refl _), trivial⟩

theorem yields_enumeratorItem (sound : state.Sound) {parent : NodeId}
    (present : state.tree.Has parent) (scope : SymbolId) :
    Yields (enumeratorItem parent scope ()) state fun outcome next =>
      outcome.Advances state (fun _ _ => True) (fun _ _ => True) next := by
  unfold enumeratorItem
  simp only [ends_peek]
  split
  · exact yields_pure trivial
  · apply (yields_enumerator sound present scope).attempt.yields.bind sound
    intro read next follows _
    cases read with
    | ok _ =>
        exact yields_separated follows.sound follows.weight_le (by simp) (fun _ _ => trivial)
          trivial
    | error error =>
        apply (completes_report error).yields.bind follows.sound
        intro _ reported followsReport _
        simp only [ends_unread]
        refine (yields_pass followsReport.sound (Stretch.length_upTo_le _ _)).bind
          followsReport.sound ?_
        intro _ last followsPass _
        have less := ((follows.trans followsReport).trans followsPass).weight_le
        exact yields_separated followsPass.sound less (by simp) (fun _ _ => trivial) trivial

theorem yields_enumerators (sound : state.Sound) {parent : NodeId}
    (present : state.tree.Has parent) (scope : SymbolId) :
    Yields (enumerators parent scope) state fun _ _ => True := by
  unfold enumerators
  have items : Yields (iterate (enumeratorItem parent scope) ()) state fun _ _ => True := by
    apply yields_iterate sound (fun _ _ => True) trivial
    intro _ next follows _
    exact yields_enumeratorItem follows.sound (present.mono follows.activity.size_le) scope
  apply items.bind sound
  intro _ next follows _
  exact (yields_expect follows.sound (by simp)).returns

theorem yields_underlyingType (works : rules.Works bound) (sound : state.Sound)
    (within : state.cursor.weight ≤ bound) (allowed : Bool) :
    Yields (underlyingType rules allowed) state fun _ _ => True := by
  unfold underlyingType
  split
  · apply (yields_eat sound (by simp)).bind sound
    intro found next follows ⟨read, _⟩
    split
    · rename_i colon
      have less := read colon
      exact (works.specifiers follows.sound (by omega)).returns
    · exact yields_pure trivial
  · exact yields_pure trivial

theorem enumBody_ends {origin : ParseState} {node : NodeId}
    (pending : Pending origin node state) (sound : state.Sound) (symbol : SymbolId) :
    Ends (enumBody symbol node) state (fun _ next => Activity origin next)
      (Activity origin) := by
  unfold enumBody
  apply (yields_expect sound (by simp)).attempt.andThen sound
  intro opened next follows _
  have waiting := pending.andThen follows.activity
  cases opened with
  | error error =>
      simp only [ends_finishNode]
      exact waiting.finish _
  | ok opener =>
      apply (yields_enumerators follows.sound waiting.has symbol).attempt.andThen follows.sound
      intro closed last followsLast _
      simp only [ends_finishNode]
      have finished := (waiting.andThen followsLast.activity).finish last.cursor.previousSpan
      cases closed with
      | error _ => exact finished
      | ok _ => exact finished

theorem yields_enumDefinition (sound : state.Sound) (specs : DeclSpecs) (key : Token)
    (path : Option NamePath) (isScoped : Bool) (underlying : Option TypeRef) :
    Yields (enumDefinition specs key path isScoped underlying) state fun _ _ => True := by
  unfold enumDefinition
  apply Yields.bind (yields_checkNesting key.span) sound
  rintro _ _ _ rfl
  apply Yields.bind (yields_tagPlace path key) sound
  rintro ⟨scope, name, span⟩ _ _ rfl
  apply (yields_declare rfl scope span).bind sound
  intro symbol declared follows _
  simp only [ends_addNode follows.sound]
  refine Ends.bind (enumBody_ends (.start (.refl _) follows.sound.has_inner _ _)
    (follows.sound.addNode _ _ _) symbol) ?_
  intro _ _ activity
  exact ⟨activity, trivial⟩

theorem yields_scopedWord (sound : state.Sound) :
    Yields scopedWord state fun _ _ => True := by
  unfold scopedWord
  simp only [ends_check]
  split
  · rename_i here
    have more : state.cursor.peek.kind ≠ .eof := by
      intro final
      simp [final] at here
    exact (yields_advance sound more).returns
  · exact yields_pure trivial

theorem yields_enumSpecifier (works : rules.Works bound) (sound : state.Sound)
    (within : state.cursor.weight ≤ bound) (more : state.cursor.peek.kind ≠ .eof)
    (specs : DeclSpecs) (allowBody : Bool) :
    Yields (enumSpecifier rules specs allowBody) state fun _ next =>
      next.cursor.weight < state.cursor.weight := by
  unfold enumSpecifier
  apply (yields_advance sound more).bind sound
  intro key first follows less
  apply (yields_scopedWord follows.sound).bind follows.sound
  intro scopedTokens second followsScoped _
  apply (yields_skipAttributes followsScoped.sound).bind followsScoped.sound
  intro _ third followsAttributes _
  apply (yields_tagPath? followsAttributes.sound).bind followsAttributes.sound
  intro path fourth followsPath _
  have lessFourth : fourth.cursor.weight < state.cursor.weight := by
    have := ((followsScoped.trans followsAttributes).trans followsPath).weight_le
    omega
  refine (yields_underlyingType works followsPath.sound (by omega) allowBody).bind
    followsPath.sound ?_
  intro underlying last followsType _
  have lessLast : last.cursor.weight < state.cursor.weight := by
    have := followsType.weight_le
    omega
  simp only [ends_check]
  split
  · exact (yields_enumDefinition followsType.sound _ _ _ _ _).below lessLast
  · exact (yields_forwardTag _ _ _).below lessLast

/-! ## Specifiers -/

theorem yields_markedSpecifier (sound : state.Sound) (more : state.cursor.peek.kind ≠ .eof)
    (specs : DeclSpecs) (word : Keyword) (specifier : Specifier) :
    Yields (markedSpecifier specs word specifier) state fun _ next =>
      next.cursor.weight < state.cursor.weight := by
  unfold markedSpecifier
  apply (yields_skip_one sound more).bind sound
  intro _ first follows less
  apply Yields.optionally follows.sound
  · intro _
    exact yields_skipGroupIf follows.sound .leftParen
  · intro second followsGroup
    have lessSecond := followsGroup.weight_le
    apply Yields.optionally followsGroup.sound
    · intro _
      exact (yields_eat followsGroup.sound (by simp)).ignore
    · intro last followsLanguage
      have lessLast := followsLanguage.weight_le
      exact yields_pure (by omega)

theorem yields_namedType (sound : state.Sound) (specs : DeclSpecs) :
    Yields (namedType specs) state fun _ next =>
      next.cursor.weight < state.cursor.weight := by
  unfold namedType
  apply (yields_namePath sound).bind sound
  intro path next _ less
  simp only [ends_resolve?]
  exact yields_pure less

theorem yields_deducedType (sound : state.Sound) (more : state.cursor.peek.kind ≠ .eof)
    (specs : DeclSpecs) :
    Yields (deducedType specs) state fun _ next =>
      next.cursor.weight < state.cursor.weight := by
  unfold deducedType
  simp only [ends_mark]
  apply (yields_skip_one sound more).bind sound
  intro _ first follows less
  apply (yields_skipGroupIf follows.sound .leftParen).bind follows.sound
  intro _ second followsGroup _
  have lessSecond := followsGroup.weight_le
  simp only [ends_since]
  exact yields_pure (by omega)

theorem yields_typeWord (sound : state.Sound) (more : state.cursor.peek.kind ≠ .eof)
    (specs : DeclSpecs) (isType : Bool) :
    Yields (typeWord specs isType) state fun _ next =>
      next.cursor.weight < state.cursor.weight := by
  unfold typeWord
  apply (yields_advance sound more).bind sound
  intro token next _ less
  exact yields_pure less

/-- How one more specifier is read: there is less to read behind it, or it is none
and nothing has changed. -/
def SpecifierRead (state : ParseState) (specs : DeclSpecs) (outcome : Step DeclSpecs DeclSpecs)
    (next : ParseState) : Prop :=
  outcome.Advances state (fun _ _ => True) (fun final after => final = specs ∧ after = state) next

theorem yields_keywordSpecifier (works : rules.Works bound) (sound : state.Sound)
    (within : state.cursor.weight ≤ bound) (mode : SpecifierMode) (specs : DeclSpecs)
    {word : Keyword} (here : state.cursor.peek.kind = .keyword word) :
    Yields (keywordSpecifier rules mode specs word) state (SpecifierRead state specs) := by
  have more : state.cursor.peek.kind ≠ .eof := by simp [here]
  unfold keywordSpecifier
  split
  · exact (yields_markedSpecifier sound more specs word _).again
  · split
    · exact (yields_typeWord sound more specs false).again
    · split
      · exact (yields_typeWord sound more specs true).again
      · split
        · exact (yields_skip_one sound more).again
        · apply (yields_skip_one sound more).bind sound
          intro _ next follows less
          exact ((yields_namedType follows.sound specs).below less).again
        · exact (yields_deducedType sound more specs).again
        · split
          · exact yields_pure ⟨rfl, rfl⟩
          · exact (yields_classSpecifier works sound within more specs _).again
        · split
          · exact yields_pure ⟨rfl, rfl⟩
          · exact (yields_classSpecifier works sound within more specs _).again
        · split
          · exact yields_pure ⟨rfl, rfl⟩
          · exact (yields_classSpecifier works sound within more specs _).again
        · split
          · exact yields_pure ⟨rfl, rfl⟩
          · exact (yields_enumSpecifier works sound within more specs _).again
        · exact (yields_skipAttributes_lt sound (.inr (.inl here))).again
        · exact yields_pure ⟨rfl, rfl⟩

theorem yields_nameSpecifier (sound : state.Sound) (mode : SpecifierMode) (specs : DeclSpecs) :
    Yields (nameSpecifier mode specs) state (SpecifierRead state specs) := by
  unfold nameSpecifier
  split
  · exact yields_pure ⟨rfl, rfl⟩
  · simp only [ends_className?, ends_unread]
    split
    · exact yields_pure ⟨rfl, rfl⟩
    · exact (yields_namedType sound specs).again

theorem yields_nextSpecifier (works : rules.Works bound) (sound : state.Sound)
    (within : state.cursor.weight ≤ bound) (mode : SpecifierMode) (specs : DeclSpecs) :
    Yields (nextSpecifier rules mode specs) state (SpecifierRead state specs) := by
  unfold nextSpecifier
  simp only [ends_peek]
  split
  · rename_i word here
    exact yields_keywordSpecifier works sound within mode specs here
  · rename_i here
    simp only [ends_checkAhead]
    split
    · rename_i again
      exact (yields_skipAttributes_lt sound (.inl ⟨here, eq_of_beq again⟩)).again
    · exact yields_pure ⟨rfl, rfl⟩
  · split
    · rename_i vendor
      exact (yields_skipAttributes_lt sound (.inr (.inr vendor))).again
    · exact yields_nameSpecifier sound mode specs
  · exact yields_nameSpecifier sound mode specs
  · exact yields_pure ⟨rfl, rfl⟩

/-- Specifiers that say anything have taken something of what is left to read. -/
theorem yields_specifiers (works : rules.Works bound) (sound : state.Sound)
    (within : state.cursor.weight ≤ bound) (mode : SpecifierMode) :
    Yields (specifiers rules mode) state fun specs next =>
      specs = {} ∨ next.cursor.weight < state.cursor.weight := by
  unfold specifiers
  refine yields_iterate sound
    (fun specs next => specs = {} ∨ next.cursor.weight < state.cursor.weight) (.inl rfl) ?_
  intro specs next follows kept
  have less := follows.weight_le
  apply (yields_nextSpecifier works follows.sound (by omega) mode specs).imp
  intro outcome after _ read
  cases outcome with
  | again specs =>
      obtain ⟨shorter, _⟩ := read
      exact ⟨shorter, .inr (by omega)⟩
  | done final =>
      obtain ⟨rfl, rfl⟩ := read
      exact kept

end ParseM

end DeclTree
