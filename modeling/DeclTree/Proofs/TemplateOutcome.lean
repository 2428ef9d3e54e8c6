import DeclTree.Proofs.SimpleOutcome

/-!
# Templates

A template opens a frame in a factory, a node and a scope, in this order.  Its
content may close the frame; if it does not, the frame is given up behind the
scope.  Giving it up touches the table only, so it does not matter that the node
is finished later.
-/

namespace DeclTree

namespace ParseM

open ParseState (Activity Pending)

variable {state : ParseState} {rules : Rules} {bound : Nat}

/-! ## Template parameters -/

theorem yields_parameterName (sound : state.Sound) :
    Yields parameterName state fun _ _ => True := by
  unfold parameterName
  apply (yields_eat sound (by simp)).bind sound
  intro isVariadic first follows _
  simp only [ends_peek]
  apply (yields_eat follows.sound (by simp)).bind follows.sound
  intro named second _ _
  split
  · exact yields_pure trivial
  · exact yields_pure trivial

theorem yields_typeParameter (sound : state.Sound) :
    Yields typeParameter state fun _ _ => True := by
  unfold typeParameter
  apply (yields_skip (.inr rfl)).bind sound
  intro _ first follows _
  exact (yields_parameterName follows.sound).returns

theorem yields_templateTemplateParameter (sound : state.Sound) :
    Yields templateTemplateParameter state fun _ _ => True := by
  unfold templateTemplateParameter
  apply (yields_skip (.inr rfl)).bind sound
  intro _ first follows _
  apply (yields_skipTemplateArguments follows.sound).bind follows.sound
  intro _ second followsArguments _
  simp only [ends_peek]
  split
  · apply (yields_skip (.inr rfl)).bind followsArguments.sound
    intro _ third followsWord _
    exact (yields_parameterName followsWord.sound).returns
  · exact yields_refuse

theorem yields_valueParameter (works : rules.Works bound) (sound : state.Sound)
    (within : state.cursor.weight ≤ bound) (token : Token) :
    Yields (valueParameter rules token) state fun _ _ => True := by
  unfold valueParameter
  apply (yields_specifiers works sound within .parameter).bind sound
  intro specs first follows _
  have less := follows.weight_le
  split
  · exact yields_refuse_bind
  · exact (yields_declarator works follows.sound (by omega) .parameter).returns

theorem yields_dependentTypeAhead :
    Yields dependentTypeAhead state fun _ next => next = state := by
  unfold dependentTypeAhead
  simp only [ends_checkAhead]
  exact yields_pure rfl

theorem yields_parameterHead (works : rules.Works bound) (sound : state.Sound)
    (within : state.cursor.weight ≤ bound) :
    Yields (parameterHead rules) state fun _ _ => True := by
  have typed : Yields (do
      if ← dependentTypeAhead then valueParameter rules state.cursor.peek
      else typeParameter) state fun _ _ => True := by
    apply yields_dependentTypeAhead.bind sound
    rintro dependent _ _ rfl
    split
    · exact yields_valueParameter works sound within _
    · exact yields_typeParameter sound
  unfold parameterHead
  simp only [ends_peek]
  split
  · exact typed
  · exact typed
  · exact yields_templateTemplateParameter sound
  · exact yields_valueParameter works sound within _

theorem yields_templateParameter (works : rules.Works bound) (sound : state.Sound)
    (within : state.cursor.weight ≤ bound) {node : NodeId} (present : state.tree.Has node)
    (template : SymbolId) :
    Yields (templateParameter rules node template) state fun _ _ => True := by
  unfold templateParameter
  simp only [ends_peek]
  apply (yields_parameterHead works sound within).bind sound
  intro head first follows _
  apply (yields_eat follows.sound (by simp)).bind follows.sound
  intro hasDefault second followsEqual _
  apply Yields.optionally followsEqual.sound
  · intro _
    exact yields_skipParameterDefault followsEqual.sound
  · intro third followsDefault
    simp only [ends_unit]
    let operation := TableOperation.addParameter template
      { name := head.name.getD "", kind := .templateParameter head.kind,
        unit := some third.tree.unit }
    have admitted : third.table.Admits operation := rfl
    apply (yields_changeTable operation admitted trivial rfl).bind followsDefault.sound
    intro symbol last followsSymbol _
    have whole := ((follows.trans followsEqual).trans followsDefault).trans followsSymbol
    have still := present.mono whole.activity.size_le
    simp only [ends_addNodeUnder still, ends_finishNode]
    exact ⟨.trans (.node still (.refl _)) (.amend node _), trivial⟩

theorem yields_templateParameterItem (works : rules.Works bound) (sound : state.Sound)
    (within : state.cursor.weight ≤ bound) {node : NodeId} (present : state.tree.Has node)
    (template : SymbolId) :
    Yields (templateParameterItem rules node template ()) state fun outcome next =>
      outcome.Advances state (fun _ _ => True) (fun _ _ => True) next := by
  unfold templateParameterItem
  apply (yields_templateParameter works sound within present template).bind sound
  intro _ next follows _
  exact yields_separated follows.sound follows.weight_le (by simp) (fun _ _ => trivial) trivial

theorem yields_templateParameters (works : rules.Works bound) (sound : state.Sound)
    (within : state.cursor.weight ≤ bound) {node : NodeId} (present : state.tree.Has node)
    (template : SymbolId) :
    Yields (templateParameters rules node template) state fun _ next =>
      next.cursor.weight < state.cursor.weight := by
  unfold templateParameters
  apply (yields_expect sound (by simp)).bind sound
  intro _ first follows less
  suffices yields : Yields _ first fun _ _ => True from yields.below less
  have closing {next : ParseState} (sound : next.Sound) :
      Yields expectClosingAngle next fun _ _ => True :=
    (yields_expectClosingAngle sound).ignore
  simp only [ends_check]
  split
  · exact closing follows.sound
  · have items : Yields (iterate (templateParameterItem rules node template) ()) first
        fun _ _ => True := by
      apply yields_iterate follows.sound (fun _ _ => True) trivial
      intro _ next followsNext _
      have lessNext := followsNext.weight_le
      have still := present.mono (follows.trans followsNext).activity.size_le
      exact yields_templateParameterItem works followsNext.sound (by omega) still template
    apply items.bind follows.sound
    intro _ second followsItems _
    exact closing followsItems.sound

/-! ## Constraints -/

theorem yields_constraintOperand (sound : state.Sound) :
    Yields (constraintOperand ()) state fun outcome next =>
      outcome.Advances state (fun _ _ => True) (fun _ _ => True) next := by
  have operator {next : ParseState} (follows : Follows state next) :
      Yields (do
        if ← eat (.punct .ampAmp) then return Step.again ()
        else if ← eat (.punct .pipePipe) then return Step.again ()
        else return Step.done ()) next fun outcome after =>
          outcome.Advances state (fun _ _ => True) (fun (_ : Unit) _ => True) after := by
    apply (yields_eat follows.sound (by simp)).bind follows.sound
    intro both second followsAnd ⟨read, _⟩
    have less := follows.weight_le
    split
    · rename_i found
      have shorter := read found
      exact yields_pure ⟨by omega, trivial⟩
    · exact yields_separated followsAnd.sound (follows.trans followsAnd).weight_le (by simp)
        (fun _ _ => trivial) trivial
  unfold constraintOperand
  simp only [ends_peek]
  split
  · apply (yields_skipGroup sound).bind sound
    intro _ next follows _
    exact operator follows
  · split
    · apply (yields_skip (.inr rfl)).bind sound
      intro _ next follows _
      exact operator follows
    · apply (yields_namePath sound).bind sound
      intro _ next follows _
      exact operator follows

theorem yields_skipConstraint (sound : state.Sound) :
    Yields skipConstraint state fun _ _ => True := by
  unfold skipConstraint
  simp only [ends_checkWord]
  split
  · apply (yields_skip (.inr rfl)).bind sound
    intro _ first follows _
    apply yields_iterate follows.sound (fun _ _ => True) trivial
    intro _ next followsNext _
    exact yields_constraintOperand followsNext.sound
  · exact yields_pure trivial

/-! ## The content of a template -/

theorem yields_templatedDeclaration (works : rules.Works bound) (sound : state.Sound)
    (within : state.cursor.weight < bound) :
    Yields (templatedDeclaration rules) state fun _ _ => True := by
  unfold templatedDeclaration
  apply (yields_skipConstraint sound).bind sound
  intro _ next follows _
  have less := follows.weight_le
  simp only [ends_peek]
  split
  · exact (works.templateDeclaration follows.sound (by omega)).returns
  · split
    · apply (completes_synchronize follows.sound).yields.bind follows.sound
      intro _ _ _ _
      exact yields_pure trivial
    · exact (works.declaration follows.sound (by omega)).returns

theorem yields_templateContent (works : rules.Works bound) (sound : state.Sound)
    (within : state.cursor.weight ≤ bound) {node : NodeId} (present : state.tree.Has node)
    (template : SymbolId) :
    Yields (templateContent rules node template) state fun _ _ => True := by
  unfold templateContent
  apply (yields_templateParameters works sound within present template).bind sound
  intro _ next follows less
  exact yields_templatedDeclaration works follows.sound (by omega)

theorem yields_prefixFactory (span : Span) :
    Yields (prefixFactory span) state fun _ _ => True := by
  unfold prefixFactory
  simp only [ends_frame]
  split
  · exact yields_pure trivial
  · let operation := TableOperation.factoryFor state.scopes.inner.symbol
    have admitted : state.table.Admits operation := trivial
    apply Ends.bind (yields_changeTable operation admitted trivial rfl)
    rintro factory next ⟨activity, _⟩
    exact ⟨activity, trivial⟩

/-! ## Giving up and binding -/

/-- A state behind an activity that leaves the table alone, but with another
table. -/
def Beside (state : ParseState) (table : SymbolTable) (next : ParseState) : Prop :=
  ∃ behind : ParseState, Activity state behind ∧ behind.table = state.table ∧
    next = behind.withTable table

/-- Behind its content a template is not open any more, whatever its content did. -/
theorem discardPending_ends (factory : FactoryId) (template : SymbolId) (start : Span)
    (parsed : Except ParseError Bool) :
    Ends (discardPending factory template start parsed) state
      (fun _ next => Beside state (state.table.discardTemplate factory template) next)
      fun _ => False := by
  unfold discardPending
  simp only [ends_table]
  split
  · simp only [ends_setTable]
    split
    · exact ⟨_, .report _, rfl, rfl⟩
    · exact ⟨state, .refl state, rfl, rfl⟩
  · rename_i closed
    have same := SymbolTable.discardTemplate_of_not_pending (Bool.not_eq_true _ ▸ closed)
    rw [same]
    exact ⟨state, .refl state, rfl, rfl⟩

theorem bindOwned_ends (table : SymbolTable) (node : NodeId) :
    Ends (bindOwned node) (state.withTable table)
      (fun _ next => Beside state table next) fun _ => False := by
  unfold bindOwned
  simp only [ends_get]
  split
  · exact ⟨state, .refl state, rfl, rfl⟩
  · split
    · exact ⟨state, .refl state, rfl, rfl⟩
    · split
      · exact ⟨_, .amend node _, rfl, rfl⟩
      · exact ⟨_, .report _, rfl, rfl⟩

/-- What an opened template leaves behind: its node finished, and its frame closed
or given up. -/
theorem yields_openedTemplate (works : rules.Works bound) (sound : state.Sound)
    (within : state.cursor.weight ≤ bound) (start : Span) (exported : Bool) :
    Yields (openedTemplate rules start exported) state fun _ _ => True := by
  unfold openedTemplate
  apply (yields_checkNesting start).bind sound
  rintro _ _ _ rfl
  apply (yields_prefixFactory start).bind sound
  rintro ⟨factory, container⟩ first follows _
  have lessFirst := follows.weight_le
  simp only [ends_unit]
  apply ends_changeTable (.refl first)
  intro template table opens
  have reached : table.Reachable := by
    have performed : table = first.table.perform (.openTemplate factory _) :=
      (settle_eq opens).symm
    rw [performed]
    exact follows.sound.table.perform trivial
  have soundOpened : (first.withTable table).Sound :=
    ⟨follows.sound.cursor, reached, follows.sound.tree, follows.sound.scopes⟩
  simp only [ends_frame, ends_addNode soundOpened, ends_pushScope]
  have present := (first.withTable table).has_addNode
  have soundInside {parent : NodeId} {kind : NodeKind} {frame : ScopeFrame}
      (here : frame.node = ((first.withTable table).addNode parent kind start).1) :
      (((first.withTable table).addNode parent kind start).2.enter frame).Sound :=
    (soundOpened.addNode parent kind start).enter (here ▸ present parent kind start)
  refine (yields_templateContent works (soundInside rfl) (by
    change first.cursor.weight ≤ bound
    omega) (present _ _ _) template).attempt.andThen (soundInside rfl) ?_
  intro parsed inside followsContent _
  simp only [ends_popScope]
  have outside := Activity.scope followsContent.activity
  apply Ends.bind (discardPending_ends factory template start parsed).unrefused
  rintro _ _ ⟨given, activityGiven, sameGiven, rfl⟩
  apply Ends.bind (bindOwned_ends _ _).unrefused
  rintro _ _ ⟨owned, activityOwned, sameOwned, rfl⟩
  simp only [ends_finishNode]
  have behind := outside.trans (activityGiven.trans activityOwned)
  have whole : Activity first ((owned.finishNode _ owned.cursor.previousSpan).withTable
      (owned.table.discardTemplate factory template)) :=
    .template opens (.node soundOpened.has_inner behind)
  rw [sameOwned, sameGiven] at whole
  cases parsed with
  | error _ => exact whole
  | ok _ => exact ⟨whole, trivial⟩

/-- A template declaration takes something of what is left to read. -/
theorem yields_templateDeclaration (works : rules.Works bound) (sound : state.Sound)
    (within : state.cursor.weight ≤ bound) (start : Span) (exported : Bool) :
    Yields (templateDeclaration rules start exported) state fun _ next =>
      next.cursor.weight < state.cursor.weight := by
  unfold templateDeclaration
  apply (yields_expect sound (by simp)).bind sound
  intro _ next follows less
  simp only [ends_check]
  split
  · exact (yields_openedTemplate works follows.sound (by omega) start exported).below less
  · exact (completes_synchronize follows.sound).yields.below less

end ParseM

end DeclTree
