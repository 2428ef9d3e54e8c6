import DeclTree.Proofs.BalancedReading
import DeclTree.Proofs.IgnoredReading

/-!
# Names, symbols and nodes in front of a sequel

What a parse does besides reading depends on the table, the scopes and the tree only.  A name ends
in front of the end of the text, since none of its tokens ends a declaration.
-/

namespace DeclTree

namespace ParseM

variable {α β : Type} {sequel : Sequel} {old : Nat} {state : ParseState} {atEnd : α → AtEnd}

/-- A choice by a condition that tells of the next token. -/
theorem IgnoresFrom.choose {kind : TokenKind} {look : ParseM Bool}
    {first longer second other : ParseM α} (tells : TellsOf kind look)
    (looks : IgnoresFrom sequel old (fun _ => .never) look look state)
    (found : state.cursor.peek.kind = kind → IgnoresFrom sequel old atEnd first longer state)
    (missing : IgnoresFrom sequel old atEnd second other state) :
    IgnoresFrom sequel old atEnd (do if ← look then first else second)
      (do if ← look then longer else other) state := by
  refine looks.knowing (tells state) ?_ fun _ _ _ _ _ => concludes_never
  rintro outcome next - ⟨rfl, known⟩
  exact .ite (fun yes => found (known yes)) fun _ => missing

/-! ## Symbols -/

theorem disregards_mark : Disregards sequel old mark mark :=
  .looks fun _ => ⟨_, rfl, fun _ => rfl⟩

theorem disregards_since (start : Nat) : Disregards sequel old (since start) (since start) :=
  .looks fun _ => ⟨_, rfl, fun _ => rfl⟩

theorem disregards_previousSpan : Disregards sequel old previousSpan previousSpan :=
  .looks fun _ => ⟨_, rfl, fun approaches =>
    congrArg (EStateM.Result.ok · _) approaches.previousSpan_followedBy⟩

theorem disregards_frame : Disregards sequel old frame frame :=
  .looks fun _ => ⟨_, rfl, fun _ => rfl⟩

theorem disregards_lookupScope : Disregards sequel old lookupScope lookupScope :=
  .looks fun _ => ⟨_, rfl, fun _ => rfl⟩

theorem disregards_unit : Disregards sequel old unit unit :=
  .looks fun _ => ⟨_, rfl, fun _ => rfl⟩

theorem disregards_table : Disregards sequel old table table :=
  .looks fun _ => ⟨_, rfl, fun _ => rfl⟩

theorem disregards_className? : Disregards sequel old className? className? :=
  .looks fun _ => ⟨_, rfl, fun _ => rfl⟩

theorem disregards_setTable (table : SymbolTable) :
    Disregards sequel old (setTable table) (setTable table) :=
  .changes (fun _ => .of_eq rfl rfl rfl) (fun _ => rfl) fun _ => rfl

theorem disregards_pushScope (frame : ScopeFrame) :
    Disregards sequel old (pushScope frame) (pushScope frame) :=
  .changes (fun _ => .of_eq rfl rfl rfl) (fun _ => rfl) fun _ => rfl

theorem disregards_popScope : Disregards sequel old popScope popScope :=
  .changes (fun _ => .of_eq rfl rfl rfl) (fun _ => rfl) fun _ => rfl

theorem disregards_checkNesting (span : Span) :
    Disregards sequel old (checkNesting span) (checkNesting span) := by
  intro state large
  by_cases deep : state.depthLimit ≤ state.scopes.depth
  · change Leads (if state.depthLimit ≤ state.scopes.depth then _ else _ : ParseM Unit) state _ _
    rw [if_pos deep]
    exact .refl old state
  · have run (longer : ParseState) (shallow : ¬ longer.depthLimit ≤ longer.scopes.depth) :
        checkNesting span longer = .ok () longer := by
      change (if longer.depthLimit ≤ longer.scopes.depth then _ else _ : ParseM Unit) longer = _
      rw [if_neg shallow]
      rfl
    unfold Leads Meets
    rw [run state deep]
    exact ⟨.refl old state, fun _ => .inr ⟨rfl, run (state.followedBy sequel) deep⟩⟩

theorem disregards_changeTable (span : Span)
    (change : SymbolTable → Except SymbolError (α × SymbolTable)) :
    Disregards sequel old (changeTable span change) (changeTable span change) := by
  refine disregards_table.bind fun table => ?_
  split
  · exact (disregards_setTable _).bind fun _ => .pure _
  · exact .refuse _ span

theorem disregards_declare (request : SymbolRequest) (qualifier : Option SymbolId) (span : Span) :
    Disregards sequel old (declare request qualifier span) (declare request qualifier span) := by
  refine disregards_unit.bind fun unit => disregards_frame.bind fun frame => ?_
  split
  · exact disregards_changeTable span _
  · refine disregards_table.bind fun table => (disregards_setTable _).bind fun _ => ?_
    split
    · have consume : Disregards sequel old
          (modify fun state => { state with scopes := state.scopes.consume } : ParseM Unit)
          (modify fun state => { state with scopes := state.scopes.consume }) :=
        .changes (fun _ => .of_eq rfl rfl rfl) (fun _ => rfl) fun _ => rfl
      exact consume.bind fun _ => .pure _
    · exact .refuse _ span
  · exact .refuse _ span

theorem disregards_resolveScope (segments : List String) (isGlobal : Bool) (span : Span) :
    Disregards sequel old (resolveScope segments isGlobal span)
      (resolveScope segments isGlobal span) := by
  refine disregards_table.bind fun table => disregards_lookupScope.bind fun scope => ?_
  split
  · exact .refuse _ span
  · split
    · exact .pure _
    · exact .refuse _ span

/-! ## Nodes -/

theorem disregards_addNodeUnder (parent : NodeId) (kind : NodeKind) (start : Span) :
    Disregards sequel old (addNodeUnder parent kind start) (addNodeUnder parent kind start) := by
  intro state large
  by_cases present : state.tree.Has parent
  · unfold Leads Meets
    rw [addNodeUnder_eq present]
    have there : (state.followedBy sequel).tree.Has parent := present
    refine ⟨.addNode large kind parent start _, fun _ => .inr ⟨rfl, ?_⟩⟩
    exact addNodeUnder_eq there kind start
  · unfold Leads Meets
    rw [addNodeUnder_stuck present]
    trivial

theorem disregards_addNode (kind : NodeKind) (start : Span) :
    Disregards sequel old (addNode kind start) (addNode kind start) :=
  disregards_frame.bind fun frame => disregards_addNodeUnder frame.node kind start

/-- A node that is started, and what follows it without reading anything. -/
theorem DisregardsFrom.addNode {kind : NodeKind} {start : Span} {rest further : NodeId → ParseM β}
    (following : ∀ node next, old ≤ node.index →
      DisregardsFrom sequel old (rest node) (further node) next) :
    DisregardsFrom sequel old (ParseM.addNode kind start >>= rest)
      (ParseM.addNode kind start >>= further) state := by
  intro large
  have starts : Leads (ParseM.addNode kind start) state (fun node _ => old ≤ node.index)
      fun _ => True := by
    refine leads_frame.2 ((leads_addNodeUnder_present state _ kind start).imp ?_)
    rintro node next ⟨_, added⟩
    obtain ⟨rfl, rfl⟩ := Prod.mk.inj added
    exact large
  exact (disregards_addNode kind start state).knowing starts
    (fun node next _ new => following node next new) large

/-- A node that is started, and what follows it. -/
theorem IgnoresFrom.addNodeUnder {parent : NodeId} {kind : NodeKind} {start : Span}
    {rest further : NodeId → ParseM β} {ending : β → AtEnd}
    (following : ∀ node next, (node, next) = state.addNode parent kind start →
      old ≤ node.index → IgnoresFrom sequel old ending (rest node) (further node) next) :
    IgnoresFrom sequel old ending (ParseM.addNodeUnder parent kind start >>= rest)
      (ParseM.addNodeUnder parent kind start >>= further) state := by
  intro large
  have adds : IgnoresFrom sequel old (fun _ => .never) (ParseM.addNodeUnder parent kind start)
      (ParseM.addNodeUnder parent kind start) state :=
    (disregards_addNodeUnder parent kind start).ignores state
  refine adds.knowing (leads_addNodeUnder_present state parent kind start) ?_
    (fun _ _ _ _ _ => concludes_never) large
  rintro node next - ⟨_, added⟩
  refine following node next added ?_
  obtain ⟨rfl, rfl⟩ := Prod.mk.inj added
  exact large

theorem IgnoresFrom.addNode {kind : NodeKind} {start : Span}
    {rest further : NodeId → ParseM β} {ending : β → AtEnd}
    (following : ∀ node next, (node, next) = state.addNode state.scopes.inner.node kind start →
      old ≤ node.index → IgnoresFrom sequel old ending (rest node) (further node) next) :
    IgnoresFrom sequel old ending (ParseM.addNode kind start >>= rest)
      (ParseM.addNode kind start >>= further) state := by
  unfold ParseM.addNode
  simp only [bind_assoc]
  exact .look rfl (fun _ _ => rfl) (.addNodeUnder following)

theorem disregards_finishNodeAt {node : NodeId} (new : old ≤ node.index) (last : Span) :
    Disregards sequel old (finishNodeAt node last) (finishNodeAt node last) :=
  .changes (fun _ => .finishNode new last) (fun _ => rfl) fun _ => rfl

theorem disregards_finishNode {node : NodeId} (new : old ≤ node.index) :
    Disregards sequel old (finishNode node) (finishNode node) :=
  disregards_previousSpan.bind fun last => disregards_finishNodeAt new last

theorem proceeding_finishNode {node : NodeId} (new : old ≤ node.index) :
    Proceeding old (finishNode node) :=
  fun _ _ => .finishNode new _

/-! ## Errors -/

theorem disregards_resume (outcome : Except ParseError α) :
    Disregards sequel old (resume outcome) (resume outcome) := by
  cases outcome with
  | ok value => exact .pure value
  | error error => exact fun state _ => .refl old state

/-- Whoever complains is excused. -/
theorem disregards_complain (complaint : Complaint) (span : Span) :
    Disregards sequel old (complain complaint span) (complain complaint span) :=
  fun _ _ => ⟨.report _, fun _ => .inl (.inl (by simp))⟩

/-! ## Names -/

theorem ignores_nameContinues : Ignores sequel old (fun _ => .never) nameContinues nameContinues :=
  fun state => .check (.ite (fun found => .second (by rw [eq_of_beq found]; rfl)
    (ignores_pure _ state)) fun _ => ignores_pure false state)

theorem ignores_nameSegment (start : Nat) (isGlobal : Bool) (segments : List String) :
    Ignores sequel old (fun _ => .never) (nameSegment start isGlobal segments)
      (nameSegment start isGlobal segments) := by
  refine (ignores_eatInside rfl).inside fun _ => ignores_expectIdentifier.inside fun name =>
    ignores_skipClosedArguments.inside fun hasArguments state => ?_
  refine .choose tellsOf_nameContinues (ignores_nameContinues state) (fun found => ?_) ?_
  · exact (ignoresFrom_nextInside (found ▸ rfl)).inside fun _ => ignores_pure _
  · exact ((disregards_since start).bind fun _ => .pure _).ignores state

theorem ignores_namePath : Ignores sequel old (fun _ => .never) namePath namePath :=
  disregards_mark.ignores.inside fun start => (ignores_eatInside rfl).inside fun isGlobal =>
    .iterate (ignores_nameSegment start isGlobal) []

theorem disregards_resolve? (path : NamePath) :
    Disregards sequel old (resolve? path) (resolve? path) :=
  .looks fun _ => ⟨_, rfl, fun _ => rfl⟩

theorem disregards_pathScope (path : NamePath) :
    Disregards sequel old (pathScope path) (pathScope path) :=
  .ite ((disregards_resolveScope _ _ _).bind fun _ => .pure _) (.ite (.pure _) (.pure _))

end ParseM

end DeclTree
