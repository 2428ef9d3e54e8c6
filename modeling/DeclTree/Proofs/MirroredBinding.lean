import DeclTree.Proofs.BindingRun
import DeclTree.Proofs.MirroredReading

/-!
# Scopes, symbols and nodes behind another source

Symbols are declared and found in the same way whatever nodes stand in front, and nodes are started
and finished behind those.
-/

namespace DeclTree

namespace ParseM

variable {α β : Type} {front : Front} {start stop : Bool}

/-! ## Scopes -/

theorem mirrors_frame : Mirrors front start start frame frame :=
  .looks fun _ _ joins => by
    rw [joins.scopes]
    rfl

theorem mirrors_lookupScope : MirrorsAs front start start id lookupScope lookupScope :=
  mirrors_frame.bind fun _ => .pure rfl

theorem mirrors_unit : MirrorsAs front start start id unit unit :=
  .looks fun _ _ joins => joins.tree.unit

theorem mirrors_className? : MirrorsAs front start start id className? className? :=
  .looks fun _ _ joins => by
    rw [joins.scopes]
    exact front.displacement.className?_move _

theorem mirrors_checkNesting (span : Span) :
    Mirrors front start start (checkNesting span)
      (checkNesting (front.displacement.move span)) := by
  intro own joined joins begun
  have run (span : Span) (state : ParseState) : checkNesting span state =
      (if state.depthLimit ≤ state.scopes.depth then
        refuse (.tooDeep state.depthLimit) span else pure () : ParseM Unit) state := rfl
  have depth : joined.scopes.depth = own.scopes.depth := by
    rw [joins.scopes]
    exact front.displacement.depth_move _
  have checked : Mirrors front start start
      (if own.depthLimit ≤ own.scopes.depth then
        refuse (.tooDeep own.depthLimit) span else pure () : ParseM Unit)
      (if own.depthLimit ≤ own.scopes.depth then
        refuse (.tooDeep own.depthLimit) (front.displacement.move span) else pure ()) :=
    .ite (fun _ => .refuse _ _) fun _ => .pure rfl
  unfold Meets
  rw [run, run, joins.depthLimit, depth]
  exact checked own joined joins begun

theorem mirrors_pushScope (frame : ScopeFrame) :
    Mirrors front start start (pushScope frame) (pushScope (front.displacement.move frame)) :=
  .modify fun _ _ joins => { joins with
    scopes := by
      rw [joins.scopes]
      exact (front.displacement.push_move _ _).symm }

theorem mirrors_popScope : Mirrors front start start popScope popScope :=
  .modify fun _ _ joins => { joins with
    scopes := by
      rw [joins.scopes]
      exact (front.displacement.pop_move _).symm }

theorem mirrors_consume : Mirrors front start start
    (modify fun state => { state with scopes := state.scopes.consume } : ParseM Unit)
    (modify fun state => { state with scopes := state.scopes.consume }) :=
  .modify fun _ _ joins => { joins with
    scopes := by
      rw [joins.scopes]
      exact (front.displacement.consume_move _).symm }

/-! ## The symbol table -/

theorem mirrors_table : MirrorsAs front start start
    (SymbolTable.relabel front.displacement front.settled) table table :=
  .looks fun _ _ joins => joins.table

theorem Joins.withTable {own joined : ParseState} (joins : own.Joins front joined)
    {changed : SymbolTable} (keeps : own.table.KeepsOrigins changed) :
    { own with table := changed }.Joins front
      { joined with table := changed.relabel front.displacement front.settled } :=
  { joins with table := rfl, settled := joins.settled.of_keepsOrigins keeps }

/-- A change of the table, and what follows it. -/
theorem MirrorsAs.replaceTable {γ : Type} {image : α → β} {replace : SymbolTable → γ × SymbolTable}
    (relabels : ∀ table : SymbolTable,
      replace (table.relabel front.displacement front.settled) =
        ((replace table).1, (replace table).2.relabel front.displacement front.settled))
    (keeps : ∀ table : SymbolTable, table.KeepsOrigins (replace table).2)
    {rest : γ → ParseM α} {mirroredRest : γ → ParseM β}
    (two : ∀ value, MirrorsAs front start stop image (rest value) (mirroredRest value)) :
    MirrorsAs front start stop image
      (do
        let table ← table
        setTable (replace table).2
        rest (replace table).1)
      (do
        let table ← table
        setTable (replace table).2
        mirroredRest (replace table).1) := by
  intro own joined joins begun
  have run {δ : Type} (rest : γ → ParseM δ) (state : ParseState) :
      (do
        let table ← table
        setTable (replace table).2
        rest (replace table).1 : ParseM δ) state =
        rest (replace state.table).1 { state with table := (replace state.table).2 } := rfl
  unfold Meets
  rw [run, run, joins.table, relabels]
  exact two _ _ _ (Joins.withTable joins (keeps own.table)) begun

/-- A change of the table that yields nothing, and what follows it. -/
theorem MirrorsAs.modifyTable {image : α → β} {change : SymbolTable → SymbolTable}
    (relabels : ∀ table : SymbolTable, change (table.relabel front.displacement front.settled) =
      (change table).relabel front.displacement front.settled)
    (keeps : ∀ table : SymbolTable, table.KeepsOrigins (change table))
    {rest : Unit → ParseM α} {mirroredRest : Unit → ParseM β}
    (two : MirrorsAs front start stop image (rest ()) (mirroredRest ())) :
    MirrorsAs front start stop image
      (do
        let table ← table
        let done ← setTable (change table)
        rest done)
      (do
        let table ← table
        let done ← setTable (change table)
        mirroredRest done) := by
  intro own joined joins begun
  have run {δ : Type} (rest : Unit → ParseM δ) (state : ParseState) :
      (do
        let table ← table
        let done ← setTable (change table)
        rest done : ParseM δ) state = rest () { state with table := change state.table } := rfl
  unfold Meets
  rw [run, run, joins.table, relabels]
  exact two _ _ (Joins.withTable joins (keeps own.table)) begun

section ChangeTable

variable {change : SymbolTable → Except SymbolError (α × SymbolTable)} {state : ParseState}

theorem changeTable_of_ok {value : α} {changed : SymbolTable}
    (accepted : change state.table = .ok (value, changed)) (span : Span) :
    changeTable span change state = .ok value { state with table := changed } := by
  rw [changeTable, bind_table, accepted]
  rfl

theorem changeTable_of_error {error : SymbolError} (refused : change state.table = .error error)
    (span : Span) : changeTable span change state =
      .error (.refused ((Complaint.symbol error).locate span)) state := by
  rw [changeTable, bind_table, refused]
  rfl

end ChangeTable

theorem mirrors_changeTable (span : Span)
    {change : SymbolTable → Except SymbolError (α × SymbolTable)}
    (relabels : ∀ table : SymbolTable, change (table.relabel front.displacement front.settled) =
      SymbolTable.relabelOutcome front.displacement front.settled (change table))
    (keeps : ∀ (table : SymbolTable) value changed, change table = .ok (value, changed) →
      table.KeepsOrigins changed) :
    MirrorsAs front start start id (changeTable span change)
      (changeTable (front.displacement.move span) change) := by
  intro own joined joins begun
  have same := relabels own.table
  rw [← joins.table] at same
  unfold Meets
  cases outcome : change own.table with
  | error error =>
      rw [outcome] at same
      rw [changeTable_of_error outcome, changeTable_of_error same]
      exact ⟨⟨joined, rfl, joins⟩, id⟩
  | ok changed =>
      rw [outcome] at same
      rw [changeTable_of_ok outcome, changeTable_of_ok same]
      exact ⟨⟨_, rfl, Joins.withTable joins (keeps _ _ _ outcome)⟩,
        fun known => known.elim id begun⟩

/-- What is done with the outcome of declaring the symbol that templates wait for. -/
def settleDeclared (span : Span) : Except SymbolError SymbolId → ParseM SymbolId
  | .ok symbol => do
      modify fun state => { state with scopes := state.scopes.consume }
      return symbol
  | .error error => refuse (.symbol error) span

theorem mirrors_settleDeclared (span : Span) (outcome : Except SymbolError SymbolId) :
    MirrorsAs front start start id (settleDeclared span outcome)
      (settleDeclared (front.displacement.move span) outcome) := by
  cases outcome with
  | ok symbol => exact mirrors_consume.bind fun _ => .pure rfl
  | error error => exact .refuse _ _

theorem mirrors_declare (request : SymbolRequest) (qualifier : Option SymbolId) (span : Span) :
    MirrorsAs front start start id (declare request qualifier span)
      (declare request qualifier (front.displacement.move span)) := by
  refine mirrors_unit.bind fun unit => mirrors_frame.bind fun frame => ?_
  obtain ⟨node, symbol, target, kind⟩ := frame
  cases target with
  | container =>
      exact mirrors_changeTable span (fun _ => SymbolTable.declare_relabel _ _)
        fun _ _ _ declared => SymbolTable.keepsOrigins_declare declared
  | template factory container =>
      exact .replaceTable (fun _ => SymbolTable.declareTemplated_relabel factory _ _)
        (fun _ => SymbolTable.keepsOrigins_declareTemplated factory _ _)
        (mirrors_settleDeclared span)
  | consumed => exact .refuse _ _

theorem mirrors_resolveScope (segments : List String) (isGlobal : Bool) (span : Span) :
    MirrorsAs front start start id (resolveScope segments isGlobal span)
      (resolveScope segments isGlobal (front.displacement.move span)) := by
  refine mirrors_table.bind fun table => mirrors_lookupScope.bind fun scope => ?_
  simp only [SymbolTable.looksAlike_relabel.lookupQualified, id_eq]
  cases table.lookupQualified segments scope isGlobal with
  | error error => exact .refuse _ _
  | ok named =>
      simp only [SymbolTable.looksAlike_relabel.scopeOf,
        SymbolTable.looksAlike_relabel.qualifiedName]
      cases table.scopeOf named with
      | some scope => exact .pure rfl
      | none => exact .refuse _ _

/-! ## Nodes -/

/-- The table with the origin of a symbol recorded, if a node has one. -/
theorem table_addNode (state : ParseState) (parent : NodeId) (kind : NodeKind) (span : Span) :
    (state.addNode parent kind span).2.table =
      match kind.symbol? with
      | some symbol => state.table.update symbol
          (recordOrigin ⟨state.tree.unit, (state.tree.add kind parent span).1⟩)
      | none => state.table := rfl

theorem Joins.addNode {own joined : ParseState} (joins : own.Joins front joined)
    (parent : NodeId) (kind : NodeKind) (span : Span) :
    (own.addNode parent kind span).2.Joins front
      (joined.addNode (front.displacement.move parent) (front.displacement.move kind)
        (front.displacement.move span)).2 where
  cursor := joins.cursor
  errors := joins.errors
  tree := joins.tree.add kind parent span
  table := by
    have next : (⟨joined.tree.size⟩ : NodeId) = front.displacement.move ⟨own.tree.size⟩ :=
      joins.tree.move_next.symm
    rw [table_addNode, table_addNode, Displacement.symbol?_move, joins.table, joins.tree.unit]
    cases kind.symbol? with
    | none => rfl
    | some symbol =>
        change (own.table.relabel _ _).update symbol (recordOrigin ⟨_, ⟨joined.tree.size⟩⟩) = _
        rw [next]
        exact SymbolTable.recordOrigin_relabel joins.settled ⟨own.tree.unit, ⟨own.tree.size⟩⟩ symbol
  settled := by
    rw [table_addNode]
    cases kind.symbol? with
    | none => exact joins.settled
    | some symbol =>
        exact joins.settled.of_keepsOrigins (SymbolTable.keepsOrigins_recordOrigin _ symbol)
  scopes := joins.scopes
  depthLimit := joins.depthLimit

theorem mirrors_addNodeUnder (parent : NodeId) (kind : NodeKind) (span : Span) :
    Mirrors front start start (addNodeUnder parent kind span)
      (addNodeUnder (front.displacement.move parent) (front.displacement.move kind)
        (front.displacement.move span)) := by
  intro own joined joins begun
  unfold Meets
  by_cases present : own.tree.Has parent
  · have there : joined.tree.Has (front.displacement.move parent) := by
      have whole := joins.tree.size
      have within : parent.index < own.tree.size := present
      have moved := front.displacement.index_move parent
      unfold Tree.Has
      omega
    rw [addNodeUnder_eq present]
    refine ⟨⟨_, (addNodeUnder_eq there _ _).trans ?_, Joins.addNode joins parent kind span⟩,
      fun known => known.elim id begun⟩
    exact congrArg (EStateM.Result.ok · _) joins.tree.move_next.symm
  · rw [addNodeUnder_stuck present]
    trivial

theorem mirrors_addNode (kind : NodeKind) (span : Span) :
    Mirrors front start start (addNode kind span)
      (addNode (front.displacement.move kind) (front.displacement.move span)) :=
  mirrors_frame.bind fun frame => mirrors_addNodeUnder frame.node kind span

theorem mirrors_finishNodeAt (node : NodeId) (last : Span) :
    Mirrors front start start (finishNodeAt node last)
      (finishNodeAt (front.displacement.move node) (front.displacement.move last)) :=
  .modify fun _ _ joins => { joins with tree := joins.tree.finish node last }

theorem mirrors_finishNode (node : NodeId) :
    Mirrors front true true (finishNode node) (finishNode (front.displacement.move node)) :=
  mirrors_previousSpan.bind fun last => mirrors_finishNodeAt node last

end ParseM

end DeclTree
