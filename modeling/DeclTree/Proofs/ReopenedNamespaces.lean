import DeclTree.Proofs.FactoryBalance
import DeclTree.Proofs.NamespaceTable
import DeclTree.Proofs.NestingDepth

/-!
# Namespaces that are opened again

A namespace is opened in the symbol of the innermost scope.  That is the symbol of the nearest
node around it that is no linkage specification, since a scope has the symbol of its node, or, in
a linkage specification, that of the scope around it.  A scope has one namespace for each name, in
whichever unit it is opened, so namespaces are told apart by their names and the scopes they are
in.
-/

namespace DeclTree

def NodeKind.isLinkage : NodeKind → Bool
  | .linkage _ => true
  | _ => false

theorem NodeKind.isLinkage_amend (kind : NodeKind) (change : TemplateDecl → TemplateDecl) :
    (kind.amend change).isLinkage = kind.isLinkage := by
  cases kind <;> rfl

namespace Tree

/-- The symbol of the first of some nodes that is no linkage specification. -/
def scopeAmong? (tree : Tree) (nodes : List NodeId) : Option SymbolId :=
  nodes.find? (fun id => !(tree.kindAt id).any NodeKind.isLinkage) >>= fun id =>
    tree.kindAt id >>= NodeKind.symbol?

/-- The symbol of the nearest node around a node that is no linkage specification. -/
def enclosingScope? (tree : Tree) (id : NodeId) : Option SymbolId :=
  tree.scopeAmong? (tree.ancestors id)

/-- Whether every namespace of a tree is one of its enclosing scope. -/
def NamespacesIn (tree : Tree) (table : SymbolTable) : Prop :=
  ∀ id declaration, tree.kindAt id = some (.namespaceScope declaration) →
    ∃ scope, tree.enclosingScope? id = some scope ∧
      table.NamespaceIn scope declaration.name declaration.symbol

/-- Whether every one of some scopes has the symbol that its node and those of the scopes around
it give. -/
def Seats (tree : Tree) : List ScopeFrame → Prop
  | [] => True
  | frame :: outer => tree.scopeAmong? (frame.node :: outer.map ScopeFrame.node) =
      some frame.symbol ∧ tree.Seats outer

variable {tree later : Tree}

theorem scopeAmong?_cons (tree : Tree) (id : NodeId) (nodes : List NodeId) :
    tree.scopeAmong? (id :: nodes) =
      if (tree.kindAt id).any NodeKind.isLinkage then tree.scopeAmong? nodes
      else tree.kindAt id >>= NodeKind.symbol? := by
  unfold scopeAmong?
  cases linkage : (tree.kindAt id).any NodeKind.isLinkage <;> simp [linkage]

/-- A node inside a scope has the symbol of its own, or, as a linkage specification, that of the
scope. -/
theorem scopeAmong?_cons_eq {nodes : List NodeId} {outer : SymbolId}
    (around : tree.scopeAmong? nodes = some outer) (id : NodeId) :
    tree.scopeAmong? (id :: nodes) = tree.scopeIn? outer id := by
  rw [scopeAmong?_cons, around, scopeIn?]
  cases tree.kindAt id with
  | none => rfl
  | some kind => cases kind <;> rfl

theorem scopeAmong?_congr (same : ∀ id, later.kindAt id = tree.kindAt id) (nodes : List NodeId) :
    later.scopeAmong? nodes = tree.scopeAmong? nodes := by
  simp only [scopeAmong?, same]

theorem NamespacesIn.congr {table : SymbolTable} (inside : tree.NamespacesIn table)
    (kinds : ∀ id, later.kindAt id = tree.kindAt id) (kin : later.kin? = tree.kin?) :
    later.NamespacesIn table := by
  intro id declaration found
  rw [kinds] at found
  unfold enclosingScope?
  rw [ancestors_congr kin, scopeAmong?_congr kinds]
  exact inside id declaration found

theorem NamespacesIn.mono {before after : SymbolTable} (inside : tree.NamespacesIn before)
    (kept : ∀ scope name id, before.NamespaceIn scope name id → after.NamespaceIn scope name id) :
    tree.NamespacesIn after := by
  intro id declaration found
  obtain ⟨scope, around, isNamespace⟩ := inside id declaration found
  exact ⟨scope, around, kept _ _ _ isNamespace⟩

/-- Scopes of templates that are done with. -/
theorem Seats.remain {frames remaining : List ScopeFrame} (seats : tree.Seats frames)
    (remain : List.Forall₂ ScopeFrame.Remains frames remaining) : tree.Seats remaining := by
  have nodes : remaining.map ScopeFrame.node = frames.map ScopeFrame.node := by
    clear seats
    induction remain with
    | nil => rfl
    | cons head _ ih =>
        rcases head with rfl | ⟨_, rfl⟩
        · simp [ih]
        · simp [ih]
  induction remain with
  | nil => trivial
  | @cons frame changed outer rest head tail ih =>
      obtain ⟨node, others⟩ := List.cons.inj nodes
      have symbol : changed.symbol = frame.symbol := by
        rcases head with rfl | ⟨_, rfl⟩ <;> rfl
      refine ⟨?_, ih seats.2 others⟩
      rw [node, others, symbol]
      exact seats.1

end Tree

namespace ParseState

variable {state next : ParseState}

/-! ## What a turn does to scopes and namespaces -/

theorem Turn.scopeAmong? (turn : state.Turn next) {nodes : List NodeId} {symbol : SymbolId}
    (first : state.tree.scopeAmong? nodes = some symbol) :
    next.tree.scopeAmong? nodes = some symbol := by
  induction nodes with
  | nil => cases first
  | cons id rest ih =>
      rw [Tree.scopeAmong?_cons] at first ⊢
      cases found : state.tree.kindAt id with
      | none => simp [found] at first
      | some kind =>
          obtain ⟨change, there, same⟩ := turn.kindAt found
          simp only [found, there, Option.any_some, NodeKind.isLinkage_amend] at first ⊢
          split at first
          · rw [if_pos ‹_›]
            exact ih first
          · rw [if_neg ‹_›]
            exact same.trans first

theorem Turn.seats (turn : state.Turn next) {frames : List ScopeFrame}
    (seats : state.tree.Seats frames) : next.tree.Seats frames := by
  induction frames with
  | nil => trivial
  | cons frame outer ih => exact ⟨turn.scopeAmong? seats.1, ih seats.2⟩

/-- Every scope keeps the symbol that its node gives. -/
theorem Turn.seats_frames (turn : state.Turn next)
    (seats : state.tree.Seats state.scopes.frames) : next.tree.Seats next.scopes.frames := by
  have kept := turn.seats seats
  cases turn with
  | read | report | change | start | amend | finish => exact kept
  | consume => exact kept.remain (ScopeStack.remain_consume _)
  | enter room inside scope =>
      exact ⟨(Tree.scopeAmong?_cons_eq seats.1 _).trans scope, kept⟩
  | leave inside =>
      obtain ⟨frame, outer, around⟩ := List.exists_cons_of_ne_nil inside
      simp only [ScopeStack.frames, around] at kept
      simp only [ParseState.leave, ScopeStack.pop, around, ScopeStack.frames]
      exact kept.2

theorem Turn.ancestors (turn : state.Turn next) (layered : state.tree.Layered) {id : NodeId}
    (present : state.tree.Has id) : next.tree.ancestors id = state.tree.ancestors id := by
  cases turn with
  | read | report | change | consume | enter | leave => rfl
  | start start there => exact layered.ancestors_add _ there start present
  | amend => exact Tree.ancestors_congr (Tree.kin?_updateTemplate _ _ _) id
  | finish node last => exact Tree.ancestors_congr (Tree.kin?_finish _ node last) id

theorem Turn.enclosingScope? (turn : state.Turn next) (layered : state.tree.Layered)
    {id : NodeId} (present : state.tree.Has id) {scope : SymbolId}
    (around : state.tree.enclosingScope? id = some scope) :
    next.tree.enclosingScope? id = some scope := by
  unfold Tree.enclosingScope?
  rw [turn.ancestors layered present]
  exact turn.scopeAmong? around

theorem Turn.namespaceIn (turn : state.Turn next) (reached : state.table.Reachable)
    {scope id : SymbolId} {name : String} (inside : state.table.NamespaceIn scope name id) :
    next.table.NamespaceIn scope name id := by
  cases turn with
  | read | report | consume | amend | finish | enter | leave => exact inside
  | change _ ordinary => exact inside.perform reached ordinary
  | start start =>
      rw [addNode_eq]
      exact ((SymbolTable.KeepsNamespaces.recorded _ _ _).same scope name id).2 inside

theorem Turn.namespacesApart (turn : state.Turn next) (reached : state.table.Reachable)
    (apart : state.table.NamespacesApart) : next.table.NamespacesApart := by
  cases turn with
  | read | report | consume | amend | finish | enter | leave => exact apart
  | change _ ordinary => exact apart.perform reached ordinary
  | start start =>
      rw [addNode_eq]
      exact apart.keeps (.recorded _ _ _)

/-- A namespace was there before a turn, or it is new in the innermost scope. -/
theorem Turn.namespace_cases (turn : state.Turn next) {id : NodeId} {declaration : NamespaceDecl}
    (found : next.tree.kindAt id = some (.namespaceScope declaration)) :
    state.tree.kindAt id = some (.namespaceScope declaration) ∨
      state.table.NamespaceIn state.scopes.inner.symbol declaration.name declaration.symbol ∧
        ∃ kind start, id = ⟨state.tree.size⟩ ∧
          next = (state.addNode state.scopes.inner.node kind start).2 := by
  cases turn with
  | read | report | change | consume | enter | leave => exact .inl found
  | start start present near opened =>
      rcases state.tree.kindAt_add_cases found with old | ⟨rfl, rfl⟩
      · exact .inl old
      · obtain ⟨rfl, isNamespace⟩ := opened declaration rfl
        exact .inr ⟨isNamespace, _, start, rfl, rfl⟩
  | amend =>
      have amends := Tree.Amends.updateTemplate state.tree
      exact .inl ((Tree.Amends.kindAt_plain (amends _ _) rfl).1 found)
  | finish node last => exact .inl (by simpa [finishNode, Tree.kindAt_finish] using found)

/-- Where the namespaces are at every point of a course: those of the tree are each one of its
enclosing scope, and no two of a scope have the same name. -/
structure Filed (state : ParseState) : Prop where
  reached : state.table.Reachable
  stacked : state.Stacked
  seats : state.tree.Seats state.scopes.frames
  apart : state.table.NamespacesApart
  inside : state.tree.NamespacesIn state.table

/-- The innermost scope has the symbol of the nearest node that is no linkage specification. -/
theorem Filed.scope (filed : state.Filed) :
    state.tree.scopeAmong? (state.scopes.inner.node ::
      state.tree.ancestors state.scopes.inner.node) = some state.scopes.inner.symbol := by
  rw [← filed.stacked.nodes]
  exact filed.seats.1

theorem Turn.namespacesIn (turn : state.Turn next) (filed : state.Filed) :
    next.tree.NamespacesIn next.table := by
  intro id declaration found
  have layered := filed.stacked.layered
  rcases turn.namespace_cases found with old | ⟨isNamespace, kind, start, rfl, rfl⟩
  · obtain ⟨scope, around, isNamespace⟩ := filed.inside id declaration old
    have present := state.tree.has_of_kindAt old
    exact ⟨scope, turn.enclosingScope? layered present around,
      turn.namespaceIn filed.reached isNamespace⟩
  · refine ⟨_, ?_, turn.namespaceIn filed.reached isNamespace⟩
    have way := layered.ancestors_add_new kind filed.stacked.present start
    exact (congrArg _ way).trans (turn.scopeAmong? filed.scope)

theorem Turn.filed (turn : state.Turn next) (filed : state.Filed) : next.Filed where
  reached := turn.reachable filed.reached
  stacked := turn.stacked filed.stacked
  seats := turn.seats_frames filed.seats
  apart := turn.namespacesApart filed.reached filed.apart
  inside := turn.namespacesIn filed

/-- A course keeps namespaces where they are, the old ones and the new. -/
theorem Course.filed (course : state.Course next) (filed : state.Filed) :
    next.Filed ∧ ∀ scope name id, state.table.NamespaceIn scope name id →
      next.table.NamespaceIn scope name id := by
  induction course with
  | refl => exact ⟨filed, fun _ _ _ inside => inside⟩
  | tail _ turn ih =>
      obtain ⟨before, kept⟩ := ih
      exact ⟨turn.filed before,
        fun scope name id inside => turn.namespaceIn before.reached (kept scope name id inside)⟩

theorem filed_start (options : ParseOptions) {table : SymbolTable} (reached : table.Reachable)
    (apart : table.NamespacesApart) (unit : UnitId) (source : String) :
    (start options table unit source).Filed where
  reached := reached
  stacked := stacked_start options table unit source
  seats := ⟨rfl, trivial⟩
  apart := apart
  inside id declaration found := by
    obtain ⟨_ | index⟩ := id
    · cases found
    · simp [start, ofStream, Tree.empty, Tree.kindAt, Tree.get?] at found

end ParseState

/-! ## Units and sessions -/

/-- A unit has its namespaces in their scopes, keeps those of the units before it, and keeps all
of them apart. -/
theorem namespaces_parseUnit (options : ParseOptions) {table : SymbolTable}
    (reached : table.Reachable) (apart : table.NamespacesApart) (unit : UnitId)
    (source : String) :
    let parsed := parseUnit options table unit source
    parsed.table.NamespacesApart ∧ parsed.tree.NamespacesIn parsed.table ∧
      ∀ scope name id, table.NamespaceIn scope name id →
        parsed.table.NamespaceIn scope name id := by
  obtain ⟨final, finished⟩ := ParseState.exists_finished options reached unit source
  obtain ⟨filed, kept⟩ := (finished.reaches reached).course.filed
    (ParseState.filed_start options reached apart unit source)
  simp only [parseUnit, ParseState.parsed, ParseState.finish_eq finished]
  refine ⟨filed.apart, filed.inside.congr ?_ (Tree.kin?_finishRoot _ _ _), kept⟩
  intro id
  apply Tree.kindAt_update
  exact fun _ => rfl

namespace Session

/-- The symbol of the nearest node around a node of a session that is no linkage
specification. -/
def enclosingScope? (session : Session) (reference : NodeRef) : Option SymbolId :=
  session.unit? reference.unit >>= fun tree => tree.enclosingScope? reference.node

/-- Whether the namespaces of a session are in their scopes, and no two of a scope have the same
name. -/
structure Filed (session : Session) : Prop where
  reached : session.table.Reachable
  apart : session.table.NamespacesApart
  units : ∀ tree ∈ session.units, tree.NamespacesIn session.table

variable {session : Session}

theorem filed_new (options : ParseOptions) : ({ options := options } : Session).Filed where
  reached := .empty
  apart := SymbolTable.namespacesApart_empty
  units _ member := by simp at member

theorem Filed.parse (filed : session.Filed) (source : String) :
    (session.parse source).2.2.Filed := by
  obtain ⟨apart, new, kept⟩ := namespaces_parseUnit session.options filed.reached filed.apart
    ⟨session.units.size⟩ source
  refine ⟨reachable_parseUnit session.options filed.reached _ source, apart, ?_⟩
  intro tree member
  rcases Array.mem_push.1 member with old | rfl
  · exact (filed.units tree old).mono kept
  · exact new

theorem Filed.performAll (filed : session.Filed) (calls : List SessionCall) :
    (session.performAll calls).Filed := by
  induction calls generalizing session with
  | nil => exact filed
  | cons call rest ih =>
      apply ih
      cases call with
      | parse source => exact filed.parse source
      | parseStrict source => exact filed.parse source

/-- A namespace node of a session stands for a namespace of its enclosing scope. -/
theorem Filed.namespaceIn (filed : session.Filed) {reference : NodeRef} {node : Node}
    {declaration : NamespaceDecl} (found : session.resolve? reference = some node)
    (kind : node.kind = .namespaceScope declaration) :
    ∃ scope, session.enclosingScope? reference = some scope ∧
      session.table.NamespaceIn scope declaration.name declaration.symbol := by
  obtain ⟨tree, known, resolved⟩ := Option.bind_eq_some_iff.1 found
  unfold Tree.resolve? at resolved
  split at resolved
  · have member : tree ∈ session.units := Array.mem_of_getElem? known
    obtain ⟨scope, around, inside⟩ := filed.units tree member reference.node declaration
      (by simp [Tree.kindAt, resolved, kind])
    exact ⟨scope, by simp [enclosingScope?, known, around], inside⟩
  · cases resolved

/-- How namespaces are opened again: two namespace nodes of any units have enclosing scopes, and
they stand for the same symbol if and only if they have the same name and the same enclosing
scope. -/
def NamespacesReopen (session : Session) : Prop :=
  ∀ first second node other declaration reopened,
    session.resolve? first = some node → session.resolve? second = some other →
      node.kind = .namespaceScope declaration → other.kind = .namespaceScope reopened →
        ∃ scope around, session.enclosingScope? first = some scope ∧
          session.enclosingScope? second = some around ∧
            (declaration.symbol = reopened.symbol ↔
              declaration.name = reopened.name ∧ scope = around)

/-- In every run of a new session namespaces are opened again and never split. -/
theorem namespaces_reopen (options : ParseOptions) (calls : List SessionCall) :
    (({ options := options } : Session).performAll calls).NamespacesReopen := by
  have filed := (filed_new options).performAll calls
  intro first second node other declaration reopened found foundOther kind kindOther
  obtain ⟨scope, enclosing, inside⟩ := filed.namespaceIn found kind
  obtain ⟨around, enclosingOther, insideOther⟩ := filed.namespaceIn foundOther kindOther
  refine ⟨scope, around, enclosing, enclosingOther, ?_, ?_⟩
  · intro same
    -- A symbol has one name and one owner.
    obtain ⟨symbol, known, _, named, owned⟩ := inside
    obtain ⟨symbol', known', _, named', owned'⟩ := insideOther
    rw [same] at known
    obtain rfl := Option.some.inj (known.symm.trans known')
    exact ⟨named.symm.trans named', Option.some.inj (owned.symm.trans owned')⟩
  · rintro ⟨named, rfl⟩
    rw [named] at inside
    exact filed.apart.unique scope reopened.name _ _ inside insideOther

-- A namespace in a linkage specification is one of the translation unit, which a second unit
-- opens again.
example :
    let session := ({} : Session).performAll
      [.parse "extern \"C\" { namespace a {} }", .parse "namespace a { namespace {} }"]
    session.enclosingScope? ⟨⟨0⟩, ⟨2⟩⟩ = some SymbolTable.root ∧
      session.enclosingScope? ⟨⟨1⟩, ⟨1⟩⟩ = some SymbolTable.root ∧
      (session.resolve? ⟨⟨0⟩, ⟨2⟩⟩ >>= fun node => node.kind.symbol?) = some ⟨1⟩ ∧
      (session.resolve? ⟨⟨1⟩, ⟨1⟩⟩ >>= fun node => node.kind.symbol?) = some ⟨1⟩ ∧
      session.enclosingScope? ⟨⟨1⟩, ⟨2⟩⟩ = some ⟨1⟩ := by
  decide +kernel

end Session

end DeclTree
