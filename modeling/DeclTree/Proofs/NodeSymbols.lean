import DeclTree.Proofs.AppendOnly

/-!
# Nodes and symbols

A node and the symbol it stands for point at each other.  The first node of a symbol is
recorded with it, in order of units and of nodes in a unit.  Only namespaces have
further nodes, since only they are opened again, and they are found by their name.
-/

namespace DeclTree

def NodeKind.isUnit : NodeKind → Bool
  | .translationUnit .. => true
  | _ => false

def NodeKind.isNamespace : NodeKind → Bool
  | .namespaceScope _ => true
  | _ => false

/-- What ties a node to a symbol: the symbol, the name that the node gives it, and
whether the node is one of a namespace. -/
structure Bond where
  symbol : SymbolId
  name : Option String
  isNamespace : Bool

/-- What ties a node other than a translation unit to a symbol, if it stands for one. -/
def NodeKind.bond? (kind : NodeKind) : Option Bond :=
  if kind.isUnit then none
  else kind.symbol?.map fun symbol => ⟨symbol, kind.name?, kind.isNamespace⟩

/-- Whether a node comes in front of another one, or is the same. -/
def NodeRef.Precedes (first second : NodeRef) : Prop :=
  first.unit.index < second.unit.index ∨
    (first.unit = second.unit ∧ first.node.index ≤ second.node.index)

theorem NodeRef.Precedes.refl (reference : NodeRef) : reference.Precedes reference :=
  .inr ⟨rfl, Nat.le_refl _⟩

/-- Whether a symbol suits the tie that a node has to it. -/
structure Bond.Suits (bond : Bond) (symbol : Symbol) : Prop where
  named : ∀ name, bond.name = some name → symbol.name = name ∧ symbol.isTemplate = false
  scope : symbol.kind = .namespaceScope ↔ bond.isNamespace = true

theorem Bond.Suits.grows {base : Nat} {id : SymbolId} {bond : Bond} {before after : Symbol}
    (suits : bond.Suits before) (grows : before.Grows base id after) : bond.Suits after where
  named name known := by
    obtain ⟨same, plain⟩ := suits.named name known
    refine ⟨?_, grows.isTemplate.trans plain⟩
    rcases grows.named with ⟨kept, _⟩ | ⟨_, template⟩
    · exact kept.trans same
    · simp [plain] at template
  scope := by
    rw [← suits.scope]
    rcases grows.kind with same | ⟨_, template, still⟩
    · rw [same]
    · constructor
      · intro scope
        simp [Symbol.isTemplate, scope, SymbolKind.templateInfo?] at still
      · intro scope
        simp [Symbol.isTemplate, scope, SymbolKind.templateInfo?] at template

/-- Whether nodes, looked up by their handles, and symbols point at each other. -/
structure Linked (bondAt : NodeRef → Option Bond) (table : SymbolTable) : Prop where
  origins : ∀ id symbol reference, table.get? id = some symbol →
    symbol.origin = some reference → ∃ bond, bondAt reference = some bond ∧ bond.symbol = id
  symbols : ∀ reference bond, bondAt reference = some bond → ∃ symbol first,
    table.get? bond.symbol = some symbol ∧ symbol.origin = some first ∧ bond.Suits symbol ∧
      first.Precedes reference ∧ (bond.isNamespace = true ∨ first = reference)

namespace Linked

variable {bondAt : NodeRef → Option Bond} {table after : SymbolTable}

theorem grows {base : Nat} {opens : Prop} (linked : Linked bondAt table)
    (grows : SymbolTable.Grows base opens table after) : Linked bondAt after where
  origins id changed reference there recorded := by
    cases found : table.get? id with
    | none =>
        rw [(grows.added id changed found there).1] at recorded
        cases recorded
    | some symbol =>
        obtain ⟨last, present, further⟩ := grows.symbols id symbol found
        obtain rfl := Option.some.inj (present.symm.trans there)
        exact linked.origins id symbol reference found (further.origin.symm.trans recorded)
  symbols reference bond tied := by
    obtain ⟨symbol, first, found, recorded, suits, rest⟩ := linked.symbols reference bond tied
    obtain ⟨changed, there, further⟩ := grows.symbols bond.symbol symbol found
    exact ⟨changed, first, there, further.origin.trans recorded, suits.grows further, rest⟩

/-- A node behind all others that stands for a symbol without a node, or for a
namespace. -/
theorem add (linked : Linked bondAt table) {reference : NodeRef}
    (new : bondAt reference = none)
    (last : ∀ other bond, bondAt other = some bond → other.Precedes reference) {bond : Bond}
    {symbol : Symbol} (found : table.get? bond.symbol = some symbol) (suits : bond.Suits symbol)
    (first : symbol.origin = none ∨ bond.isNamespace = true) :
    Linked (fun other => if other = reference then some bond else bondAt other)
      (table.update bond.symbol (ParseM.recordOrigin reference)) := by
  have recorded : ∃ first changed, ParseM.recordOrigin reference symbol = changed ∧
      changed.origin = some first ∧ bond.Suits changed ∧ first.Precedes reference ∧
        (bond.isNamespace = true ∨ first = reference) ∧
          (symbol.origin = some first ∨ first = reference) := by
    cases known : symbol.origin with
    | none =>
        have changed : ParseM.recordOrigin reference symbol =
            { symbol with origin := some reference } := by simp [ParseM.recordOrigin, known]
        exact ⟨reference, _, changed, rfl, ⟨suits.named, suits.scope⟩, .refl _, .inr rfl, .inr rfl⟩
    | some earlier =>
        have unchanged : ParseM.recordOrigin reference symbol = symbol :=
          SymbolTable.recordOrigin_of_isSome (by simp [known])
        obtain ⟨other, tied, _⟩ := linked.origins bond.symbol symbol earlier found known
        have scope : bond.isNamespace = true := by
          rcases first with missing | scope
          · simp [known] at missing
          · exact scope
        exact ⟨earlier, symbol, unchanged, known, suits, last earlier other tied, .inl scope,
          .inl rfl⟩
  obtain ⟨place, changed, records, origin, suitsChanged, precedes, single, whence⟩ := recorded
  have old {other : NodeRef} {tie : Bond} (tied : bondAt other = some tie) :
      other ≠ reference := by
    rintro rfl
    cases new.symm.trans tied
  constructor
  · intro id present other there placed
    rw [SymbolTable.get?_update] at there
    split at there
    · rename_i same
      subst same
      rw [found, Option.map_some, records] at there
      obtain rfl := Option.some.inj there
      obtain rfl := Option.some.inj (origin.symm.trans placed)
      rcases whence with earlier | rfl
      · obtain ⟨tie, tied, same⟩ := linked.origins bond.symbol symbol place found earlier
        exact ⟨tie, by simp [old tied, tied], same⟩
      · exact ⟨bond, by simp, rfl⟩
    · obtain ⟨tie, tied, same⟩ := linked.origins id present other there placed
      exact ⟨tie, by simp [old tied, tied], same⟩
  · intro other tie tied
    split at tied
    · rename_i same
      subst same
      obtain rfl := Option.some.inj tied
      exact ⟨changed, place, by simp [found, records], origin, suitsChanged, precedes, single⟩
    · obtain ⟨present, earlier, there, placed, rest⟩ := linked.symbols other tie tied
      refine ⟨present, earlier, ?_, placed, rest⟩
      rw [SymbolTable.get?_update, there]
      split
      · rw [Option.map_some, SymbolTable.recordOrigin_of_isSome (by simp [placed])]
      · rfl

end Linked

/-! ## Trees -/

namespace Tree

/-- What ties a node of a tree to a symbol. -/
def bond? (tree : Tree) (id : NodeId) : Option Bond :=
  tree.get? id >>= fun node => node.kind.bond?

/-- The ties of the nodes of a tree and of the units in front of it. -/
def bondAt (tree : Tree) (earlier : NodeRef → Option Bond) (reference : NodeRef) : Option Bond :=
  if reference.unit = tree.unit then tree.bond? reference.node else earlier reference

theorem bond?_update (tree : Tree) {id : NodeId} {change : Node → Node}
    (same : ∀ node, tree.get? id = some node → (change node).kind.bond? = node.kind.bond?)
    (other : NodeId) : (tree.update id change).bond? other = tree.bond? other := by
  unfold bond?
  rw [get?_update]
  split
  · rename_i here
    subst here
    cases found : tree.get? id with
    | none => rfl
    | some node => exact same node found
  · rfl

theorem bond?_finish (tree : Tree) (id other : NodeId) (last : Span) :
    (tree.finish id last).bond? other = tree.bond? other := by
  apply bond?_update
  intro node _
  split <;> rfl

theorem bond?_finishRoot (tree : Tree) (offset line : Nat) (other : NodeId) :
    (tree.finishRoot offset line).bond? other = tree.bond? other := by
  apply bond?_update
  intro _ _
  rfl

theorem bond?_updateTemplate (tree : Tree) {id : NodeId} {change : TemplateDecl → TemplateDecl}
    (same : ∀ found declaration, tree.get? id = some found → found.kind = .template declaration →
      (change declaration).template = declaration.template) (other : NodeId) :
    (tree.updateTemplate id change).bond? other = tree.bond? other := by
  apply bond?_update
  intro node found
  split
  · rename_i declaration kind
    have kept := same node declaration found kind
    rw [kind]
    simp [NodeKind.bond?, NodeKind.symbol?, NodeKind.name?, NodeKind.isUnit,
      NodeKind.isNamespace, kept]
  · rfl

theorem bond?_add (tree : Tree) (kind : NodeKind) (parent : NodeId) (start : Span) (id : NodeId) :
    (tree.add kind parent start).2.bond? id =
      if id.index = tree.size then kind.bond? else tree.bond? id := by
  have unwrapped (node : Node) : (if parent = id then
      { node with children := node.children ++ [(⟨tree.size⟩ : NodeId)] } else node).kind =
        node.kind := by
    split <;> rfl
  unfold bond?
  rw [get?_add]
  by_cases new : id.index = tree.size
  · rw [if_pos new, if_pos new]
    simp only [Option.map_some, Option.bind_eq_bind, Option.bind_some, unwrapped]
    rfl
  · rw [if_neg new, if_neg new]
    cases tree.get? id with
    | none => rfl
    | some node => simp only [Option.map_some, Option.bind_eq_bind, Option.bind_some, unwrapped]

/-- A new node is tied as it says, and all others are as before. -/
theorem bondAt_add (tree : Tree) (earlier : NodeRef → Option Bond) (kind : NodeKind)
    (parent : NodeId) (start : Span) : (tree.add kind parent start).2.bondAt earlier =
      fun other => if other = tree.ref ⟨tree.size⟩ then kind.bond?
        else tree.bondAt earlier other := by
  funext other
  have unit : (tree.add kind parent start).2.unit = tree.unit := rfl
  unfold bondAt
  rw [unit, bond?_add]
  obtain ⟨otherUnit, ⟨index⟩⟩ := other
  by_cases here : otherUnit = tree.unit
  · by_cases new : index = tree.size
    · simp [ref, here, new]
    · simp [ref, here, new]
  · simp [ref, here]

end Tree

/-! ## Runs -/

/-- Whether every entry of a scope that leads to a namespace bears its name. -/
def SymbolTable.EntriesBear (table : SymbolTable) : Prop :=
  ∀ scope name id, id ∈ table.entries scope name → table.Bears name id

theorem SymbolTable.EntriesBear.grows {base : Nat} {opens : Prop} {table after : SymbolTable}
    (bear : table.EntriesBear) (grows : SymbolTable.Grows base opens table after) :
    after.EntriesBear := by
  intro scope name id entered
  rcases grows.entries scope name id entered with earlier | named
  · exact grows.bears (bear scope name id earlier)
  · exact named

/-- What a node stands for suits it, and has no node yet or is a namespace. -/
theorem NodeKind.Introduces.suits {base : Nat} {table changed : SymbolTable} {kind : NodeKind}
    (introduces : kind.Introduces base table changed) (bear : table.EntriesBear) {bond : Bond}
    (tied : kind.bond? = some bond) :
    ∃ symbol, changed.get? bond.symbol = some symbol ∧ bond.Suits symbol ∧
      (symbol.origin = none ∨ bond.isNamespace = true) := by
  unfold NodeKind.bond? at tied
  split at tied
  · cases tied
  obtain ⟨id, same, rfl⟩ := Option.map_eq_some_iff.1 tied
  rcases introduces.symbol same with ⟨stands, rfl⟩ | ⟨name, isInline, rfl, whence⟩
  · obtain ⟨_, symbol, found, origin, proper, named⟩ := stands.symbol id same
    refine ⟨symbol, found, ⟨named, ?_⟩, .inl origin⟩
    have plain : kind.isNamespace = false := by
      cases kind with
      | namespaceScope declaration => exact absurd rfl (stands.plain declaration)
      | _ => rfl
    simp [plain, proper]
  · have scope : ∃ symbol, changed.get? id = some symbol ∧ symbol.kind = .namespaceScope ∧
        symbol.name = name := by
      rcases whence with ⟨symbol, scope, found, isNamespace, named⟩ | ⟨_, fresh⟩
      · have bears : table.Bears name id := by
          rcases named with same | entered
          · exact ⟨symbol, found, fun _ => same⟩
          · exact bear scope name id entered
        obtain ⟨last, there, named⟩ := introduces.grows.bears bears
        obtain ⟨also, present, further⟩ := introduces.grows.symbols id symbol found
        obtain rfl := Option.some.inj (present.symm.trans there)
        have still : also.kind = .namespaceScope := by
          rcases further.kind with same | ⟨_, template, _⟩
          · rw [same, isNamespace]
          · simp [Symbol.isTemplate, isNamespace, SymbolKind.templateInfo?] at template
        exact ⟨also, there, still, named still⟩
      · obtain ⟨symbol, found, named, isNamespace, _⟩ := fresh.symbol
        exact ⟨symbol, found, isNamespace, named⟩
    obtain ⟨symbol, found, isNamespace, rfl⟩ := scope
    refine ⟨symbol, found, ⟨?_, ?_⟩, .inr rfl⟩
    · rintro _ ⟨⟩
      exact ⟨rfl, by simp [Symbol.isTemplate, isNamespace, SymbolKind.templateInfo?]⟩
    · simp [isNamespace, NodeKind.isNamespace]

theorem SymbolTable.EntriesBear.recordOrigin {table : SymbolTable} (bear : table.EntriesBear)
    (id : SymbolId) (reference : NodeRef) :
    (table.update id (ParseM.recordOrigin reference)).EntriesBear := by
  intro scope name other entered
  have same : (table.update id (ParseM.recordOrigin reference)).entries scope name =
      table.entries scope name := by
    unfold SymbolTable.entries SymbolTable.members?
    rw [SymbolTable.get?_update]
    split
    · cases table.get? scope with
      | none => rfl
      | some symbol =>
          simp only [Option.map_some, Option.bind_eq_bind, Option.bind_some, ParseM.recordOrigin]
          split <;> rfl
    · rfl
  obtain ⟨symbol, found, named⟩ := bear scope name other (same ▸ entered)
  unfold SymbolTable.Bears
  rw [SymbolTable.get?_update, found]
  split
  · refine ⟨_, rfl, ?_⟩
    rw [SymbolTable.kind_recordOrigin]
    unfold ParseM.recordOrigin
    split <;> exact named
  · exact ⟨symbol, rfl, named⟩

/-- What holds of the nodes of a tree and of the units in front of it, and of the
symbols. -/
structure Links (earlier : NodeRef → Option Bond) (tree : Tree) (table : SymbolTable) :
    Prop where
  linked : Linked (tree.bondAt earlier) table
  bear : table.EntriesBear

namespace Links

variable {base : Nat} {earlier : NodeRef → Option Bond} {tree after : Tree}
  {table changed : SymbolTable}

/-- Ties are all that matters of a tree. -/
theorem congr (links : Links earlier tree table) (unit : after.unit = tree.unit)
    (same : ∀ id, after.bond? id = tree.bond? id) : Links earlier after table := by
  have kept : after.bondAt earlier = tree.bondAt earlier := by
    funext reference
    simp only [Tree.bondAt, unit, same]
  exact ⟨kept ▸ links.linked, links.bear⟩

theorem grows {opens : Prop} (links : Links earlier tree table)
    (grows : SymbolTable.Grows base opens table changed) : Links earlier tree changed :=
  ⟨links.linked.grows grows, links.bear.grows grows⟩

/-- A node that is started is behind all others. -/
theorem add (links : Links earlier tree table)
    (before : ∀ reference bond, earlier reference = some bond →
      reference.unit.index < tree.unit.index) {kind : NodeKind}
    (introduces : kind.Introduces base table changed) (parent : NodeId) (start : Span) :
    Links earlier (tree.add kind parent start).2
      (match kind.symbol? with
      | some symbol => changed.update symbol (ParseM.recordOrigin (tree.ref ⟨tree.size⟩))
      | none => changed) := by
  have grown := links.grows introduces.grows
  have inner : kind.isUnit = false := by
    cases introduces with
    | declared stands =>
        cases kind with
        | translationUnit unit symbol => exact absurd rfl (stands.inner unit symbol)
        | _ => rfl
    | opened => rfl
  cases same : kind.symbol? with
  | none =>
      have unit : (tree.add kind parent start).2.unit = tree.unit := rfl
      refine grown.congr unit ?_
      intro id
      rw [Tree.bond?_add]
      split
      · rename_i new
        have missing : tree.get? id = none := by simp [Tree.get?, Tree.size, new]
        simp [Tree.bond?, missing, NodeKind.bond?, same]
      · rfl
  | some symbol =>
      let bond : Bond := ⟨symbol, kind.name?, kind.isNamespace⟩
      have tied : kind.bond? = some bond := by simp [NodeKind.bond?, inner, same, bond]
      obtain ⟨present, found, suits, first⟩ := introduces.suits links.bear tied
      refine ⟨?_, grown.bear.recordOrigin symbol _⟩
      rw [Tree.bondAt_add, tied]
      refine grown.linked.add ?_ ?_ found suits first
      · have missing : tree.get? ⟨tree.size⟩ = none := by simp [Tree.get?, Tree.size]
        simp [Tree.bondAt, Tree.ref, Tree.bond?, missing]
      · intro other tie known
        unfold Tree.bondAt at known
        split at known
        · rename_i here
          cases present : tree.get? other.node with
          | none => simp [Tree.bond?, present] at known
          | some node =>
              have within : other.node.index < tree.size := (Array.getElem?_eq_some_iff.1 present).1
              exact .inr ⟨here, Nat.le_of_lt within⟩
        · exact .inl (before other tie known)

end Links

namespace Stage

variable {base : Nat} {stage after : Stage} {earlier : NodeRef → Option Bond}

theorem Step.unit (step : Step base stage after) :
    after.state.tree.unit = stage.state.tree.unit := by
  cases step <;> rfl

/-- A step keeps nodes and symbols pointing at each other. -/
theorem Step.links (step : Step base stage after) (ready : stage.Ready base)
    (before : ∀ reference bond, earlier reference = some bond →
      reference.unit.index < stage.state.tree.unit.index)
    (links : Links earlier stage.state.tree stage.state.table) :
    Links earlier after.state.tree after.state.table := by
  cases step with
  | read | note | await | cancel => exact links
  | change admitted confined =>
      exact links.grows (SymbolTable.grows_perform ready.since ready.large confined)
  | amend same => exact links.congr rfl (stage.state.tree.bond?_updateTemplate same)
  | finish => exact links.congr rfl fun id => stage.state.tree.bond?_finish _ id _
  | begin place present introduces => exact links.add before introduces stage.around _

theorem Run.links (run : Run base stage after) (ready : stage.Ready base)
    (before : ∀ reference bond, earlier reference = some bond →
      reference.unit.index < stage.state.tree.unit.index)
    (links : Links earlier stage.state.tree stage.state.table) :
    after.state.tree.unit = stage.state.tree.unit ∧
      Links earlier after.state.tree after.state.table := by
  induction run with
  | refl => exact ⟨rfl, links⟩
  | tail run step ih =>
      obtain ⟨unit, linksBefore⟩ := ih
      exact ⟨step.unit.trans unit, step.links (Run.ready run ready) (unit ▸ before) linksBefore⟩

end Stage

/-! ## Units and sessions -/

/-- A unit keeps nodes and symbols pointing at each other. -/
theorem links_parseUnit (options : ParseOptions) {table : SymbolTable} (reached : table.Reachable)
    (closed : ∀ factory, table.stackOf factory = []) (unit : UnitId) (source : String)
    {earlier : NodeRef → Option Bond} (before : ∀ reference bond,
      earlier reference = some bond → reference.unit.index < unit.index)
    (links : Links earlier (.empty unit) table) :
    (parseUnit options table unit source).tree.unit = unit ∧
      Links earlier (parseUnit options table unit source).tree
        (parseUnit options table unit source).table := by
  have since := SymbolTable.framesSince_of_closed table.size closed
  obtain ⟨final, settled, finished, run⟩ :=
    ParseState.exists_run options reached since (Nat.le_refl _) unit source
  have ready := ParseState.ready_startStage options reached since (Nat.le_refl _) unit source
  obtain ⟨sameUnit, linked⟩ := run.links ready before links
  simp only [parseUnit, ParseState.parsed, ParseState.finish_eq finished]
  refine ⟨sameUnit, ?_⟩
  exact linked.congr rfl fun id => final.tree.bond?_finishRoot _ _ id

namespace Session

/-- What ties a node of a session to a symbol. -/
def bondAt (session : Session) (reference : NodeRef) : Option Bond :=
  session.resolve? reference >>= fun node => node.kind.bond?

/-- Whether the nodes of a session and its symbols point at each other. -/
structure Tied (session : Session) : Prop extends session.Placed where
  linked : Linked session.bondAt session.table
  bear : session.table.EntriesBear

theorem lt_of_bondAt {session : Session} {reference : NodeRef} {bond : Bond}
    (tied : session.bondAt reference = some bond) :
    reference.unit.index < session.units.size := by
  by_contra beyond
  have missing : session.unit? reference.unit = none := by
    simpa [unit?] using Nat.not_lt.1 beyond
  simp [bondAt, resolve?, missing] at tied

theorem bondAt_empty (session : Session) :
    (Tree.empty ⟨session.units.size⟩).bondAt session.bondAt = session.bondAt := by
  funext reference
  unfold Tree.bondAt
  split
  · rename_i here
    have untied : (Tree.empty ⟨session.units.size⟩).bond? reference.node = none := by
      obtain ⟨unit, ⟨_ | index⟩⟩ := reference
      · rfl
      · simp [Tree.bond?, Tree.empty, Tree.get?]
    have missing : session.unit? reference.unit = none := by
      rw [here]
      simp [unit?, Tree.empty]
    simp [untied, bondAt, resolve?, missing]
  · rfl

/-- The ties of a session with one more unit. -/
theorem bondAt_push (session : Session) {tree : Tree} (unit : tree.unit = ⟨session.units.size⟩)
    (table : SymbolTable) :
    ({ session with table := table, units := session.units.push tree } : Session).bondAt =
      tree.bondAt session.bondAt := by
  funext reference
  unfold Tree.bondAt
  rw [unit]
  simp only [bondAt, resolve?, unit?, Array.getElem?_push]
  by_cases here : reference.unit = ⟨session.units.size⟩
  · simp [here, Tree.resolve?, unit, Tree.bond?]
  · have other : reference.unit.index ≠ session.units.size := by
      intro same
      exact here (congrArg UnitId.mk same)
    simp [here, other]

/-- Parsing keeps nodes and symbols pointing at each other. -/
theorem Tied.links_parse {session : Session} (tied : session.Tied) (source : String) :
    let parsed := parseUnit session.options session.table ⟨session.units.size⟩ source
    parsed.tree.unit = ⟨session.units.size⟩ ∧
      Links session.bondAt parsed.tree parsed.table := by
  have started : Links session.bondAt (.empty ⟨session.units.size⟩) session.table := by
    refine ⟨?_, tied.bear⟩
    rw [bondAt_empty]
    exact tied.linked
  exact links_parseUnit session.options tied.reached tied.closed _ source
    (fun _ _ known => lt_of_bondAt known) started

theorem Tied.parse {session : Session} (tied : session.Tied) (source : String) :
    (session.parse source).2.2.Tied := by
  obtain ⟨sameUnit, links⟩ := tied.links_parse source
  have ties : (session.parse source).2.2.bondAt = Tree.bondAt _ session.bondAt :=
    bondAt_push session sameUnit _
  have placed : (session.parse source).2.2.Placed := tied.toPlaced.perform (.parse source)
  exact ⟨placed, ties ▸ links.linked, links.bear⟩

theorem tied_new (options : ParseOptions) : ({ options := options } : Session).Tied where
  toPlaced := placed_new options
  linked := by
    constructor
    · intro id symbol reference found recorded
      rw [SymbolTable.eq_of_get?_empty found] at recorded
      cases recorded
    · intro reference bond tied
      cases lt_of_bondAt tied
  bear scope name id entered := by
    obtain ⟨members, known, member⟩ := SymbolTable.mem_entries.1 entered
    cases found : SymbolTable.empty.get? scope with
    | none => simp [SymbolTable.members?, found] at known
    | some symbol =>
        rw [SymbolTable.members?, found, SymbolTable.eq_of_get?_empty found] at known
        obtain rfl : ({} : Members) = members := Option.some.inj known
        cases member

theorem Tied.performAll {session : Session} (tied : session.Tied) (calls : List SessionCall) :
    (session.performAll calls).Tied := by
  induction calls generalizing session with
  | nil => exact tied
  | cons call rest ih =>
      apply ih
      cases call with
      | parse source => exact tied.parse source
      | parseStrict source => exact tied.parse source

/-- How the nodes of a session and its symbols point at each other: the node recorded
with a symbol is the first that stands for it, a node stands for a symbol that has a node
and bears the name it gives, and only the nodes of namespaces share a symbol. -/
structure CrossReferenced (session : Session) : Prop where
  origin : ∀ id symbol reference, session.table.get? id = some symbol →
    symbol.origin = some reference → ∃ node, session.resolve? reference = some node ∧
      node.kind.isUnit = false ∧ node.kind.symbol? = some id ∧
        ∀ other found, session.resolve? other = some found → found.kind.isUnit = false →
          found.kind.symbol? = some id → reference.Precedes other
  symbol : ∀ reference node id, session.resolve? reference = some node →
    node.kind.isUnit = false → node.kind.symbol? = some id → ∃ symbol,
      session.table.get? id = some symbol ∧ symbol.origin.isSome = true ∧
        ∀ name, node.kind.name? = some name → symbol.name = name
  shared : ∀ first second node found id, session.resolve? first = some node →
    session.resolve? second = some found → node.kind.isUnit = false →
      found.kind.isUnit = false → node.kind.symbol? = some id → found.kind.symbol? = some id →
        first ≠ second → node.kind.isNamespace = true ∧ found.kind.isNamespace = true

theorem bondAt_of_symbol {session : Session} {reference : NodeRef} {node : Node} {id : SymbolId}
    (found : session.resolve? reference = some node) (inner : node.kind.isUnit = false)
    (same : node.kind.symbol? = some id) :
    session.bondAt reference = some ⟨id, node.kind.name?, node.kind.isNamespace⟩ := by
  simp [bondAt, found, NodeKind.bond?, inner, same]

theorem symbol_of_bondAt {session : Session} {reference : NodeRef} {bond : Bond}
    (tied : session.bondAt reference = some bond) : ∃ node, session.resolve? reference = some node ∧
      node.kind.isUnit = false ∧ node.kind.symbol? = some bond.symbol := by
  obtain ⟨node, found, known⟩ := Option.bind_eq_some_iff.1 tied
  unfold NodeKind.bond? at known
  split at known
  · cases known
  · rename_i inner
    obtain ⟨symbol, same, rfl⟩ := Option.map_eq_some_iff.1 known
    exact ⟨node, found, by simpa using inner, same⟩

theorem Tied.crossReferenced {session : Session} (tied : session.Tied) :
    session.CrossReferenced where
  origin id symbol reference found recorded := by
    obtain ⟨bond, known, rfl⟩ := tied.linked.origins id symbol reference found recorded
    obtain ⟨node, resolved, inner, same⟩ := symbol_of_bondAt known
    refine ⟨node, resolved, inner, same, ?_⟩
    intro other node' there innerOther sameOther
    obtain ⟨symbol', first, found', recorded', _, precedes, _⟩ :=
      tied.linked.symbols other _ (bondAt_of_symbol there innerOther sameOther)
    obtain rfl := Option.some.inj (found.symm.trans found')
    obtain rfl := Option.some.inj (recorded.symm.trans recorded')
    exact precedes
  symbol reference node id found inner same := by
    obtain ⟨symbol, first, there, recorded, suits, _⟩ :=
      tied.linked.symbols reference _ (bondAt_of_symbol found inner same)
    exact ⟨symbol, there, by simp [recorded], fun name known => (suits.named name known).1⟩
  shared first second node found id here there inner innerFound same sameFound different := by
    obtain ⟨symbol, place, known, recorded, suits, _, single⟩ :=
      tied.linked.symbols first _ (bondAt_of_symbol here inner same)
    obtain ⟨symbol', place', known', recorded', suits', _, single'⟩ :=
      tied.linked.symbols second _ (bondAt_of_symbol there innerFound sameFound)
    obtain rfl := Option.some.inj (known.symm.trans known')
    obtain rfl := Option.some.inj (recorded.symm.trans recorded')
    have scopes : node.kind.isNamespace = true ↔ found.kind.isNamespace = true :=
      suits.scope.symm.trans suits'.scope
    rcases single with scope | rfl
    · exact ⟨scope, scopes.1 scope⟩
    · rcases single' with scope | rfl
      · exact ⟨scopes.2 scope, scope⟩
      · exact absurd rfl different

/-- In every run of a new session nodes and symbols point at each other. -/
theorem nodes_symbols_agree (options : ParseOptions) (calls : List SessionCall) :
    (({ options := options } : Session).performAll calls).CrossReferenced :=
  ((tied_new options).performAll calls).crossReferenced

-- A namespace that two units open is recorded with its node in the first.
example :
    let session := ({} : Session).performAll [.parse "namespace a {}", .parse "namespace a {}"]
    (session.table.get? ⟨1⟩ >>= Symbol.origin) = some ⟨⟨0⟩, ⟨1⟩⟩ ∧
      (session.resolve? ⟨⟨1⟩, ⟨1⟩⟩ >>= fun node => node.kind.symbol?) = some ⟨1⟩ := by
  decide +kernel

end Session

end DeclTree
