import DeclTree.Proofs.ReadingOutcome

/-!
# Names, symbols and nodes

Declaring a symbol is an operation on the table, a name takes at least one
token, and looking up what it stands for changes nothing.
-/

namespace DeclTree

namespace ParseM

open ParseState (Activity)

variable {state : ParseState}

/-! ## Changes of the state -/

section Changes

variable {β : Type} {accept : β → ParseState → Prop} {refusal : ParseState → Prop}

theorem ends_setTable {table : SymbolTable} {rest : Unit → ParseM β} :
    Ends (setTable table >>= rest) state accept refusal ↔
      Ends (rest ()) (state.withTable table) accept refusal :=
  Iff.rfl

theorem ends_pushScope {frame : ScopeFrame} {rest : Unit → ParseM β} :
    Ends (pushScope frame >>= rest) state accept refusal ↔
      Ends (rest ()) (state.enter frame) accept refusal :=
  Iff.rfl

theorem ends_popScope {rest : Unit → ParseM β} :
    Ends (popScope >>= rest) state accept refusal ↔
      Ends (rest ()) state.leave accept refusal :=
  Iff.rfl

theorem ends_addNodeUnder {parent : NodeId} (present : state.tree.Has parent) {kind : NodeKind}
    {start : Span} {rest : NodeId → ParseM β} :
    Ends (addNodeUnder parent kind start >>= rest) state accept refusal ↔
      Ends (rest (state.addNode parent kind start).1) (state.addNode parent kind start).2
        accept refusal := by
  have inside : parent.index < state.tree.size := present
  have run : addNodeUnder parent kind start state =
      .ok (state.addNode parent kind start).1 (state.addNode parent kind start).2 := by
    change (if parent.index < state.tree.size then _ else throw Halt.stuck : ParseM NodeId)
      state = _
    rw [if_pos inside]
    rfl
  change Ends (EStateM.bind _ rest) state accept refusal ↔ _
  unfold Ends EStateM.bind
  rw [run]

theorem ends_addNode (sound : state.Sound) {kind : NodeKind} {start : Span}
    {rest : NodeId → ParseM β} :
    Ends (addNode kind start >>= rest) state accept refusal ↔
      Ends (rest (state.addNode state.scopes.inner.node kind start).1)
        (state.addNode state.scopes.inner.node kind start).2 accept refusal :=
  ends_addNodeUnder sound.has_inner

theorem ends_finishNode {node : NodeId} {rest : Unit → ParseM β} :
    Ends (finishNode node >>= rest) state accept refusal ↔
      Ends (rest ()) (state.finishNode node state.cursor.previousSpan) accept refusal :=
  Iff.rfl

theorem ends_finishNode_last {node : NodeId} {accept : Unit → ParseState → Prop} :
    Ends (finishNode node) state accept refusal ↔
      accept () (state.finishNode node state.cursor.previousSpan) :=
  Iff.rfl

theorem ends_finishNodeAt_last {node : NodeId} {last : Span}
    {accept : Unit → ParseState → Prop} :
    Ends (finishNodeAt node last) state accept refusal ↔
      accept () (state.finishNode node last) :=
  Iff.rfl

end Changes

theorem completes_report (error : ParseError) :
    Completes (report error) state fun _ next => next.cursor = state.cursor :=
  ⟨.report error, rfl⟩

theorem yields_checkNesting (span : Span) :
    Yields (checkNesting span) state fun _ next => next = state := by
  unfold checkNesting
  simp only [ends_get]
  split
  · exact yields_refuse
  · exact yields_pure rfl

/-! ## The symbol table -/

theorem settle_eq {α : Type} {table after : SymbolTable} {value : α}
    {outcome : Except SymbolError (α × SymbolTable)} (done : outcome = .ok (value, after)) :
    table.settle outcome = after := by
  rw [done]
  rfl

/-- A change of the table that may be refused. -/
theorem ends_changeTable {α β : Type} {span : Span}
    {change : SymbolTable → Except SymbolError (α × SymbolTable)} {rest : α → ParseM β}
    {accept : β → ParseState → Prop} {refusal : ParseState → Prop} (refuses : refusal state)
    (continued : ∀ value table, change state.table = .ok (value, table) →
      Ends (rest value) (state.withTable table) accept refusal) :
    Ends (changeTable span change >>= rest) state accept refusal := by
  let changed (value : α) (next : ParseState) : Prop :=
    ∃ table, change state.table = .ok (value, table) ∧ next = state.withTable table
  have ends : Ends (changeTable span change) state changed refusal := by
    unfold changeTable
    simp only [ends_table]
    split
    · rename_i value table done
      exact ⟨table, done, rfl⟩
    · exact refuses
  apply ends.bind
  rintro value _ ⟨table, done, rfl⟩
  exact continued value table done

theorem activity_settled {α : Type} {value : α} {table : SymbolTable}
    {outcome : Except SymbolError (α × SymbolTable)} (operation : TableOperation)
    (admitted : state.table.Admits operation) (keeps : operation.KeepsFrames)
    (performs : state.table.perform operation = state.table.settle outcome)
    (done : outcome = .ok (value, table)) : Activity state (state.withTable table) := by
  have activity := Activity.perform admitted keeps
  rw [performs, settle_eq done] at activity
  exact activity

/-- An operation on the table that may be refused. -/
theorem yields_changeTable {α : Type} {span : Span}
    {change : SymbolTable → Except SymbolError (α × SymbolTable)} (operation : TableOperation)
    (admitted : state.table.Admits operation) (keeps : operation.KeepsFrames)
    (performs : state.table.perform operation = state.table.settle (change state.table)) :
    Yields (changeTable span change) state fun _ _ => True := by
  unfold changeTable
  simp only [ends_table]
  split
  · rename_i value changed done
    rw [ends_setTable]
    exact ⟨activity_settled operation admitted keeps performs done, trivial⟩
  · exact yields_refuse

theorem yields_declare {request : SymbolRequest} (plain : request.kind.templateInfo? = none)
    (qualifier : Option SymbolId) (span : Span) :
    Yields (declare request qualifier span) state fun _ _ => True := by
  unfold declare
  simp only [ends_unit, ends_frame]
  split
  · let operation := TableOperation.declare (qualifier.getD state.scopes.inner.symbol)
      { request with unit := some state.tree.unit }
    have admitted : state.table.Admits operation := plain
    exact yields_changeTable operation admitted trivial rfl
  · rename_i factory container _
    let full := { request with unit := some state.tree.unit }
    have plainFull : full.kind.templateInfo? = none := plain
    have activity {scopes : ScopeStack}
        (consumed : scopes = state.scopes ∨ scopes = state.scopes.consume) :
        Activity state { state with
          table := state.table.perform
            (.declareTemplated factory (qualifier.getD container) full)
          scopes := scopes } := .closeTemplates plainFull consumed
    simp only [ends_table, ends_setTable]
    split
    · exact ⟨activity (.inr rfl), trivial⟩
    · exact activity (.inl rfl)
  · exact yields_refuse

theorem yields_resolveScope (segments : List String) (isGlobal : Bool) (span : Span) :
    Yields (resolveScope segments isGlobal span) state fun _ next => next = state := by
  unfold resolveScope
  simp only [ends_table, ends_lookupScope]
  split
  · exact yields_refuse
  · split
    · exact yields_pure rfl
    · exact yields_refuse

/-! ## Names -/

theorem yields_nameContinues : Yields nameContinues state fun _ next => next = state := by
  unfold nameContinues
  simp only [ends_check]
  split
  · exact yields_pure rfl
  · exact yields_pure rfl

theorem yields_nameSegment (sound : state.Sound) (start : Nat) (isGlobal : Bool)
    (segments : List String) :
    Yields (nameSegment start isGlobal segments) state fun outcome next =>
      outcome.Advances state (fun _ _ => True)
        (fun _ after => after.cursor.weight < state.cursor.weight) next := by
  unfold nameSegment
  apply (yields_eat sound (by simp)).bind sound
  intro _ first follows _
  apply (yields_expectIdentifier follows.sound).bind follows.sound
  intro name second followsName less
  apply (yields_skipClosedArguments followsName.sound).bind followsName.sound
  intro hasArguments third followsArguments _
  have shorter : third.cursor.weight < state.cursor.weight := by
    have := follows.weight_le
    have := followsArguments.weight_le
    omega
  apply yields_nameContinues.bind followsArguments.sound
  rintro continues _ _ rfl
  split
  · apply (yields_skip (.inr rfl)).bind followsArguments.sound
    intro _ next followsColons _
    have := followsColons.weight_le
    exact yields_pure ⟨by omega, trivial⟩
  · simp only [ends_since]
    exact yields_pure shorter

/-- A name takes something of what is left to read. -/
theorem yields_namePath (sound : state.Sound) :
    Yields namePath state fun _ next => next.cursor.weight < state.cursor.weight := by
  unfold namePath
  simp only [ends_mark]
  apply (yields_eat sound (by simp)).bind sound
  intro isGlobal first follows _
  apply yields_iterate follows.sound (fun _ _ => True) trivial
  intro segments next followsNext _
  apply (yields_nameSegment followsNext.sound _ isGlobal segments).imp
  intro outcome after _ advances
  cases outcome with
  | again => exact advances
  | done =>
      have := follows.weight_le
      have := followsNext.weight_le
      simp only [Step.Advances] at advances ⊢
      omega

@[simp] theorem ends_resolve? {β : Type} {path : NamePath} {rest : Option SymbolId → ParseM β}
    {accept : β → ParseState → Prop} {refusal : ParseState → Prop} :
    Ends (resolve? path >>= rest) state accept refusal ↔
      Ends (rest (state.table.lookupQualified path.segments state.scopes.inner.symbol
        path.isGlobal).toOption) state accept refusal :=
  Iff.rfl

theorem yields_pathScope (path : NamePath) :
    Yields (pathScope path) state fun _ next => next = state := by
  unfold pathScope
  split
  · apply Ends.bind (yields_resolveScope path.qualifier path.isGlobal path.span)
    rintro scope _ ⟨_, rfl⟩
    exact yields_pure rfl
  · split
    · exact yields_pure rfl
    · exact yields_pure rfl

end ParseM

end DeclTree
