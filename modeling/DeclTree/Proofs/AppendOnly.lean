import DeclTree.Proofs.DeclarationRun
import DeclTree.Proofs.FactoryBalance

/-!
# Parsing only appends

A unit that is parsed against a table leaves every symbol it finds there as it was, apart
from new members, new using directives and a first factory.  The one thing that could
change an old symbol is the record of its first node: a namespace that is opened again
has one already, since a namespace is never declared without a node.
-/

namespace DeclTree

/-- What a symbol keeps while others are declared. -/
structure Symbol.Kept (before after : Symbol) : Prop where
  name : after.name = before.name
  kind : after.kind = before.kind
  defined : after.defined = before.defined
  specialization : after.specialization = before.specialization
  unit : after.unit = before.unit
  owner : after.owner = before.owner
  origin : after.origin = before.origin
  members : Option.Rel Members.Extends before.members after.members
  uses : before.uses ⊆ after.uses
  factory : ∀ factory, before.factory = some factory → after.factory = some factory

theorem Symbol.Kept.refl (symbol : Symbol) : symbol.Kept symbol where
  name := rfl
  kind := rfl
  defined := rfl
  specialization := rfl
  unit := rfl
  owner := rfl
  origin := rfl
  members := by
    cases symbol.members with
    | none => exact .none
    | some members => exact .some (.refl members)
  uses := List.Subset.refl _
  factory _ found := found

/-- A symbol from before a parse keeps what it is while the table grows. -/
theorem Symbol.Kept.grows {base : Nat} {id : SymbolId} {old before after : Symbol}
    (kept : old.Kept before) (early : id.index < base)
    (below : ∀ members ∈ old.members, members.Below base) (grows : before.Grows base id after) :
    old.Kept after := by
  have young : ¬ base ≤ id.index := Nat.not_le.2 early
  have sameKind : after.kind = before.kind := by
    rcases grows.kind with same | ⟨late, _⟩
    · exact same
    · exact absurd late young
  obtain ⟨sameName, sameDefined, sameSpecial⟩ : after.name = before.name ∧
      after.defined = before.defined ∧ after.specialization = before.specialization := by
    rcases grows.named with same | ⟨late, _⟩
    · exact same
    · exact absurd late young
  have sameOwner : after.owner = before.owner := by
    rcases grows.owner with same | late
    · exact same
    · exact absurd late young
  exact {
    name := sameName.trans kept.name
    kind := sameKind.trans kept.kind
    defined := sameDefined.trans kept.defined
    specialization := sameSpecial.trans kept.specialization
    unit := grows.unit.trans kept.unit
    owner := sameOwner.trans kept.owner
    origin := grows.origin.trans kept.origin
    members := grows.members old.members below kept.members
    uses := List.Subset.trans kept.uses grows.uses
    factory := fun factory found => grows.factory factory (kept.factory factory found) }

namespace SymbolTable

/-- What a table keeps while others are declared in it: all its symbols, and what its
factories did. -/
structure Continues (before after : SymbolTable) : Prop where
  symbols : ∀ id symbol, before.get? id = some symbol → ∃ changed,
    after.get? id = some changed ∧ symbol.Kept changed
  factories : ∀ id factory, before.factory? id = some factory → ∃ changed,
    after.factory? id = some changed ∧ factory.history <+: changed.history

/-- Whether every namespace has a node. -/
def NamespacesPlaced (table : SymbolTable) : Prop :=
  ∀ id symbol, table.get? id = some symbol → symbol.kind = .namespaceScope →
    symbol.origin.isSome = true

theorem Continues.refl (table : SymbolTable) : table.Continues table where
  symbols _ symbol found := ⟨symbol, found, .refl symbol⟩
  factories _ factory found := ⟨factory, found, List.prefix_rfl⟩

/-- Members of a symbol are symbols of the table. -/
theorem Consistent.below {table : SymbolTable} (consistent : table.Consistent) {id : SymbolId}
    {symbol : Symbol} (found : table.get? id = some symbol) :
    ∀ members ∈ symbol.members, members.Below table.size := by
  intro members known
  have order : ∀ other ∈ members.order, other.index < table.size := by
    intro other member
    have child : other ∈ table.children id := by
      have entered : table.members? id = some members := by simpa [members?, found] using known
      simpa [children, entered] using member
    have owned := (consistent.tree.mem_children id other).1 child
    apply (has_iff_lt table other).1
    cases present : table.get? other with
    | none => simp [owner, present] at owned
    | some symbol => exact has_of_get? present
  have entries := (consistent.symbols id symbol found).names members known
  exact ⟨order, fun entry member => order entry.2 (entries entry member)⟩

/-- Old members and entries stand in front of the new ones. -/
theorem Continues.members {before after : SymbolTable} (continues : before.Continues after)
    (scope : SymbolId) : before.children scope <+: after.children scope ∧
      ∀ name, before.entries scope name <+: after.entries scope name := by
  cases found : before.get? scope with
  | none => simp [children, entries, members?, found]
  | some symbol =>
      obtain ⟨changed, there, kept⟩ := continues.symbols scope symbol found
      have related := kept.members
      simp only [children, entries, members?, found, there, Option.bind_eq_bind, Option.bind_some]
      generalize symbol.members = old at related
      generalize changed.members = new at related
      cases related with
      | none => simp
      | some further => exact ⟨further.order, further.named⟩

section Grows

variable {base : Nat} {opens : Prop} {old before after : SymbolTable}

theorem Continues.grows (continues : old.Continues before) (consistent : old.Consistent)
    (grows : Grows old.size opens before after) : old.Continues after where
  symbols id symbol found := by
    obtain ⟨changed, there, kept⟩ := continues.symbols id symbol found
    obtain ⟨last, present, further⟩ := grows.symbols id changed there
    have early := (has_iff_lt old id).1 (has_of_get? found)
    exact ⟨last, present, kept.grows early (consistent.below found) further⟩
  factories id factory found := by
    obtain ⟨changed, there, before⟩ := continues.factories id factory found
    obtain ⟨last, present, further⟩ := grows.factories id changed there
    exact ⟨last, present, before.trans further⟩

/-- A symbol that was there before keeps where it comes from, and stays a namespace or
none. -/
theorem Grows.placed (grows : Grows base opens before after) (placed : before.NamespacesPlaced)
    {id : SymbolId} {symbol changed : Symbol} (found : before.get? id = some symbol)
    (there : after.get? id = some changed) (scope : changed.kind = .namespaceScope) :
    changed.origin.isSome = true := by
  obtain ⟨last, present, further⟩ := grows.symbols id symbol found
  obtain rfl := Option.some.inj (present.symm.trans there)
  rw [further.origin]
  apply placed id symbol found
  rcases further.kind with same | ⟨_, _, template⟩
  · rw [← same, scope]
  · simp [Symbol.isTemplate, scope, SymbolKind.templateInfo?] at template

theorem NamespacesPlaced.grows (placed : before.NamespacesPlaced)
    (grows : Grows base False before after) : after.NamespacesPlaced := by
  intro id changed there scope
  cases found : before.get? id with
  | some symbol => exact grows.placed placed found there scope
  | none => exact ((grows.added id changed found there).2 scope).elim

end Grows

theorem isSome_recordOrigin (reference : NodeRef) (symbol : Symbol) :
    (ParseM.recordOrigin reference symbol).origin.isSome = true := by
  unfold ParseM.recordOrigin
  split
  · rfl
  · rename_i known
    simpa [Option.isSome_iff_ne_none] using known

theorem kind_recordOrigin (reference : NodeRef) (symbol : Symbol) :
    (ParseM.recordOrigin reference symbol).kind = symbol.kind := by
  unfold ParseM.recordOrigin
  split <;> rfl

/-- A symbol that has a node keeps it. -/
theorem recordOrigin_of_isSome {reference : NodeRef} {symbol : Symbol}
    (known : symbol.origin.isSome = true) : ParseM.recordOrigin reference symbol = symbol := by
  unfold ParseM.recordOrigin
  rw [if_neg (by simpa [Option.isSome_iff_ne_none] using known)]

/-- A namespace that is found is one, and has no name or is entered under it. -/
theorem findNamespace?_ok {table : SymbolTable} {scope id : SymbolId} {name : String}
    (found : table.findNamespace? scope name = some id) :
    ∃ symbol, table.get? id = some symbol ∧ symbol.kind = .namespaceScope ∧
      (symbol.name = name ∨ id ∈ table.entries scope name) := by
  unfold findNamespace? at found
  split at found
  · rename_i unnamed
    have anonymous := List.find?_some found
    cases present : table.get? id with
    | none => simp [isAnonymousNamespace, present] at anonymous
    | some symbol =>
        simp only [isAnonymousNamespace, present, Option.any_some, Bool.and_eq_true,
          Symbol.isAnonymous, beq_iff_eq, decide_eq_true_eq] at anonymous
        exact ⟨symbol, rfl, anonymous.2, .inl (anonymous.1.trans unnamed.symm)⟩
  · have named := List.find?_some found
    cases present : table.get? id with
    | none => simp [isNamespace, present] at named
    | some symbol =>
        simp only [isNamespace, present, Option.any_some, decide_eq_true_eq] at named
        exact ⟨symbol, rfl, named, .inr (List.mem_of_find?_eq_some found)⟩

end SymbolTable

namespace NodeKind.Introduces

variable {base : Nat} {table changed : SymbolTable} {kind : NodeKind}

/-- What a node stands for: a symbol that has none yet, an earlier namespace, or a new
one. -/
theorem symbol (introduces : kind.Introduces base table changed) {id : SymbolId}
    (same : kind.symbol? = some id) :
    (kind.Stands base table ∧ changed = table) ∨
      (∃ name isInline, kind = .namespaceScope ⟨name, isInline, id⟩ ∧
        ((∃ symbol scope, table.get? id = some symbol ∧ symbol.kind = .namespaceScope ∧
          (symbol.name = name ∨ id ∈ table.entries scope name)) ∨
        (id = ⟨table.size⟩ ∧ changed.Declared table.size name .namespaceScope id))) := by
  cases introduces with
  | declared stands => exact .inl ⟨stands, rfl⟩
  | @opened scope opened name unit isInline after opens =>
      obtain rfl : opened = id := Option.some.inj same
      refine .inr ⟨name, isInline, rfl, ?_⟩
      rcases SymbolTable.openNamespace_ok opens with ⟨known, rfl⟩ | declared
      · obtain ⟨symbol, found, isNamespace, named⟩ := SymbolTable.findNamespace?_ok known
        exact .inl ⟨symbol, scope, found, isNamespace, named⟩
      · have fresh : opened = ⟨table.size⟩ := by
          obtain ⟨_, attached⟩ := SymbolTable.attach_of_declare declared
          exact congrArg Prod.fst attached
        have there : after.Declared table.size name .namespaceScope opened :=
          SymbolTable.declared_declare (Nat.le_refl _) declared
        refine .inr ⟨fresh, ?_⟩
        split
        · exact there.grows rfl
            (.addUsing after scope opened : SymbolTable.Grows table.size True _ _)
        · exact there

/-- Only what a node stands for may be new. -/
theorem has (introduces : kind.Introduces base table changed) {id : SymbolId}
    (present : changed.Has id) : table.Has id ∨ kind.symbol? = some id := by
  cases introduces with
  | declared => exact .inl present
  | @opened scope opened name unit isInline after opens =>
      have presentAfter : after.Has id := by
        split at present
        · rw [SymbolTable.has_iff_lt] at present ⊢
          simpa [SymbolTable.addUsing] using present
        · exact present
      rcases SymbolTable.openNamespace_ok opens with ⟨_, rfl⟩ | declared
      · exact .inl presentAfter
      · obtain ⟨_, attached⟩ := SymbolTable.attach_of_declare declared
        have fresh : opened = ⟨table.size⟩ := congrArg Prod.fst attached
        have grown : after = (table.attach scope _).2 := congrArg Prod.snd attached
        rw [grown, SymbolTable.has_attach] at presentAfter
        rcases presentAfter with rfl | old
        · rw [← fresh]
          exact .inr rfl
        · exact .inl old

end NodeKind.Introduces

namespace Stage

variable {base : Nat} {stage after : Stage}

/-- The symbol of a node that is started comes from there, unless it has a node. -/
theorem get?_begun (stage : Stage) (start : Cursor) (kind : NodeKind) (table : SymbolTable)
    (id : SymbolId) : (stage.begun start kind table).state.table.get? id =
      if kind.symbol? = some id then (table.get? id).map (ParseM.recordOrigin
        (stage.state.tree.ref ⟨stage.state.tree.size⟩)) else table.get? id := by
  simp only [begun, ParseState.addNode]
  cases same : kind.symbol? with
  | none => simp [ParseState.withTable]
  | some symbol =>
      simp only [ParseState.withTable, SymbolTable.get?_update, Option.some.injEq]
      rfl

/-- Every namespace has a node behind every step. -/
theorem Step.namespacesPlaced (step : Step base stage after) (ready : stage.Ready base)
    (placed : stage.state.table.NamespacesPlaced) : after.state.table.NamespacesPlaced := by
  cases step with
  | read | note | amend | await | cancel | finish => exact placed
  | change admitted confined =>
      exact placed.grows (SymbolTable.grows_perform ready.since ready.large confined)
  | @begin start kind table place present introduces =>
      intro id symbol found scope
      rw [get?_begun] at found
      split at found
      · obtain ⟨earlier, _, rfl⟩ := Option.map_eq_some_iff.1 found
        exact SymbolTable.isSome_recordOrigin _ _
      · rename_i other
        rcases introduces.has (SymbolTable.has_of_get? found) with old | same
        · obtain ⟨earlier, before⟩ := Option.isSome_iff_exists.1 old
          exact introduces.grows.placed placed before found scope
        · exact absurd same other

/-- A step keeps what a table had when the parse started. -/
theorem Step.continues {old : SymbolTable} (step : Step old.size stage after)
    (ready : stage.Ready old.size) (consistent : old.Consistent)
    (placed : stage.state.table.NamespacesPlaced) (continues : old.Continues stage.state.table) :
    old.Continues after.state.table := by
  cases step with
  | read | note | amend | await | cancel | finish => exact continues
  | change admitted confined =>
      exact continues.grows consistent
        (SymbolTable.grows_perform ready.since ready.large confined)
  | @begin start kind table place present introduces =>
      have grown := continues.grows consistent introduces.grows
      refine ⟨?_, ?_⟩
      · intro id symbol found
        obtain ⟨changed, there, kept⟩ := grown.symbols id symbol found
        have early := (SymbolTable.has_iff_lt old id).1 (SymbolTable.has_of_get? found)
        rw [get?_begun, there]
        split
        · rename_i same
          -- An old symbol gets a node only as a namespace that is opened again.
          have known : changed.origin.isSome = true := by
            rcases introduces.symbol same with ⟨stands, _⟩ | ⟨name, isInline, _, earlier | fresh⟩
            · have late := (stands.symbol id same).1
              omega
            · obtain ⟨before, scope, present, isNamespace, _⟩ := earlier
              obtain ⟨last, there', further⟩ := introduces.grows.symbols id before present
              obtain rfl := Option.some.inj (there'.symm.trans there)
              rw [further.origin]
              exact placed id before present isNamespace
            · have large := ready.large
              have late : id.index = stage.state.table.size := by rw [fresh.1]
              omega
          rw [Option.map_some, SymbolTable.recordOrigin_of_isSome known]
          exact ⟨changed, rfl, kept⟩
        · exact ⟨changed, rfl, kept⟩
      · intro id factory found
        obtain ⟨changed, there, further⟩ := grown.factories id factory found
        refine ⟨changed, ?_, further⟩
        simp only [begun, ParseState.addNode]
        split <;> exact there

theorem Run.continues {old : SymbolTable} (run : Run old.size stage after)
    (ready : stage.Ready old.size) (consistent : old.Consistent)
    (placed : stage.state.table.NamespacesPlaced) (continues : old.Continues stage.state.table) :
    after.state.table.NamespacesPlaced ∧ old.Continues after.state.table := by
  induction run with
  | refl => exact ⟨placed, continues⟩
  | tail run step ih =>
      have readyBefore := Run.ready run ready
      exact ⟨step.namespacesPlaced readyBefore ih.1,
        step.continues readyBefore consistent ih.1 ih.2⟩

end Stage

/-! ## Units and sessions -/

/-- The global scope is all there is at first. -/
theorem SymbolTable.eq_of_get?_empty {id : SymbolId} {symbol : Symbol}
    (found : SymbolTable.empty.get? id = some symbol) :
    symbol = .ofRequest none { name := "", kind := .translationUnit } := by
  have present : id.index < 1 := (has_iff_lt _ id).1 (has_of_get? found)
  obtain ⟨index⟩ := id
  obtain rfl : index = 0 := Nat.lt_one_iff.1 present
  exact (Option.some.inj found).symm

/-- A table in use in which no template is open has only frames of a later time. -/
theorem SymbolTable.framesSince_of_closed {table : SymbolTable} (base : Nat)
    (closed : ∀ factory, table.stackOf factory = []) : table.FramesSince base := by
  intro factory template member
  simp [closed factory] at member

/-- A unit only appends to a table in which no template is open. -/
theorem continues_parseUnit (options : ParseOptions) {table : SymbolTable}
    (reached : table.Reachable) (closed : ∀ factory, table.stackOf factory = [])
    (placed : table.NamespacesPlaced) (unit : UnitId) (source : String) :
    (parseUnit options table unit source).table.NamespacesPlaced ∧
      table.Continues (parseUnit options table unit source).table := by
  have since := SymbolTable.framesSince_of_closed table.size closed
  obtain ⟨final, settled, finished, run⟩ :=
    ParseState.exists_run options reached since (Nat.le_refl _) unit source
  have ready := ParseState.ready_startStage options reached since (Nat.le_refl _) unit source
  simp only [parseUnit, ParseState.parsed, ParseState.finish_eq finished]
  exact run.continues ready reached.consistent placed (.refl table)

namespace Session

/-- Whether a session is balanced and all its namespaces have nodes. -/
structure Placed (session : Session) : Prop extends session.Balanced where
  namespaces : session.table.NamespacesPlaced

theorem placed_new (options : ParseOptions) : ({ options := options } : Session).Placed where
  toBalanced := balanced_new options
  namespaces id symbol found scope := by
    rw [SymbolTable.eq_of_get?_empty found] at scope
    cases scope

theorem Placed.perform {session : Session} (placed : session.Placed) (call : SessionCall) :
    (session.perform call).Placed where
  toBalanced := placed.toBalanced.perform call
  namespaces := by
    have appends := continues_parseUnit session.options placed.reached placed.closed
      placed.namespaces ⟨session.units.size⟩
    cases call with
    | parse source => exact (appends source).1
    | parseStrict source => exact (appends source).1

theorem Placed.performAll {session : Session} (placed : session.Placed)
    (calls : List SessionCall) : (session.performAll calls).Placed := by
  induction calls generalizing session with
  | nil => exact placed
  | cons call rest ih => exact ih (placed.perform call)

/-- After any calls of a new session, a further unit keeps every symbol of the table
with its name, kind, flags, unit, owner and first node, its using directives and its
factory; old members and entries stand in front of new ones, and so does what every
factory did. -/
theorem further_unit_appends (options : ParseOptions) (calls : List SessionCall)
    (call : SessionCall) :
    let session := ({ options := options } : Session).performAll calls
    session.table.Continues (session.perform call).table ∧
      ∀ scope, session.table.children scope <+: (session.perform call).table.children scope ∧
        ∀ name, session.table.entries scope name <+:
          (session.perform call).table.entries scope name := by
  intro session
  have placed : session.Placed := (placed_new options).performAll calls
  have appends := continues_parseUnit session.options placed.reached placed.closed
    placed.namespaces ⟨session.units.size⟩
  have continues : session.table.Continues (session.perform call).table := by
    cases call with
    | parse source => exact (appends source).2
    | parseStrict source => exact (appends source).2
  exact ⟨continues, continues.members⟩

-- A namespace that is opened again gets a member and keeps its unit and node.
example : ((({} : Session).performAll [.parse "namespace a { int x; }",
    .parse "namespace a { int y; }"]).table.get? ⟨1⟩).map
      (fun symbol => (symbol.unit, symbol.origin, symbol.members.map Members.order)) =
        some (some ⟨0⟩, some ⟨⟨0⟩, ⟨1⟩⟩, some [⟨2⟩, ⟨3⟩]) := by
  decide +kernel

end Session

end DeclTree
