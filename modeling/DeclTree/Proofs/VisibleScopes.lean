import DeclTree.Proofs.ReopenedNamespaces

/-!
# Scopes that are visible in others

A using directive with a target and an inline namespace make a scope visible in the one around
them.  The table keeps this as a list of each scope, the trees as nodes.  Both are written in one
stride, so they agree at the end of every stride: a scope lists what the nodes make visible in it,
in ascending order, each scope once, and nothing else.
-/

namespace DeclTree

namespace Tree

variable {tree : Tree}

theorem has_of_link? {id : NodeId} {target : SymbolId} (link : tree.link? id = some target) :
    tree.Has id := by
  obtain ⟨kind, found, _⟩ := Option.bind_eq_some_iff.1 link
  exact tree.has_of_kindAt found

/-- A new node leaves what is looked up in those there. -/
theorem scopeAmong?_add (kind : NodeKind) (parent : NodeId) (start : Span) {nodes : List NodeId}
    {symbol : SymbolId} (first : tree.scopeAmong? nodes = some symbol) :
    (tree.add kind parent start).2.scopeAmong? nodes = some symbol := by
  induction nodes with
  | nil => cases first
  | cons id rest ih =>
      rw [scopeAmong?_cons] at first ⊢
      cases found : tree.kindAt id with
      | none => simp [found] at first
      | some other =>
          rw [tree.kindAt_add_of_some kind parent start found]
          rw [found] at first
          split at first
          · rename_i linkage
            rw [if_pos linkage]
            exact ih first
          · rename_i plain
            rw [if_neg plain]
            exact first

/-- Whether scopes list, besides what they listed before, what the nodes of a tree make visible in
them. -/
structure Linked (tree : Tree) (before table : SymbolTable) : Prop where
  namespaces : ∀ scope, ∀ target ∈ table.usings scope, table.isNamespace target = true
  kept : ∀ scope, before.usings scope ⊆ table.usings scope
  shown : ∀ id target, tree.link? id = some target → ∃ scope,
    tree.enclosingScope? id = some scope ∧ target ∈ table.usings scope
  told : ∀ scope, ∀ target ∈ table.usings scope, target ∈ before.usings scope ∨
    ∃ id, tree.link? id = some target ∧ tree.enclosingScope? id = some scope

theorem Linked.congr {later : Tree} {before table : SymbolTable} (linked : tree.Linked before table)
    (kinds : ∀ id, later.kindAt id = tree.kindAt id) (kin : later.kin? = tree.kin?) :
    later.Linked before table := by
  have links (id : NodeId) : later.link? id = tree.link? id := by rw [link?, kinds, link?]
  have scopes (id : NodeId) : later.enclosingScope? id = tree.enclosingScope? id := by
    rw [enclosingScope?, ancestors_congr kin, scopeAmong?_congr kinds, enclosingScope?]
  refine ⟨linked.namespaces, linked.kept, ?_, ?_⟩ <;>
    simp only [links, scopes]
  · exact linked.shown
  · exact linked.told

end Tree

namespace ParseState

variable {state next : ParseState} {before : SymbolTable}

/-! ## What a stride makes visible -/

/-- Whether a scope gets visible in the innermost one, in the table and with a new node. -/
structure Shows (state next : ParseState) (target : SymbolId) : Prop where
  isNamespace : next.table.isNamespace target = true
  listed : ∀ {scope other}, other ∈ next.table.usings scope ↔
    other ∈ state.table.usings scope ∨ state.scopes.inner.symbol = scope ∧ other = target
  links : ∀ id, next.tree.link? id =
    if id.index = state.tree.size then some target else state.tree.link? id
  around : next.tree.enclosingScope? ⟨state.tree.size⟩ = some state.scopes.inner.symbol

/-- A new node in the innermost scope has the symbol of that scope around it. -/
theorem Filed.enclosingScope?_add (filed : state.Filed) (kind : NodeKind) (start : Span) :
    (state.tree.add kind state.scopes.inner.node start).2.enclosingScope? ⟨state.tree.size⟩ =
      some state.scopes.inner.symbol := by
  have way := filed.stacked.layered.ancestors_add_new kind filed.stacked.present start
  exact (congrArg _ way).trans (Tree.scopeAmong?_add kind _ start filed.scope)

/-- A new node leaves what scopes list. -/
theorem usings_addNode (state : ParseState) (parent : NodeId) (kind : NodeKind) (start : Span)
    (scope : SymbolId) :
    (state.addNode parent kind start).2.table.usings scope = state.table.usings scope := by
  rw [addNode_eq]
  exact (SymbolTable.KeepsLists.recorded _ _ _).usings scope

/-- A node that is started in the innermost scope behind a using directive of the table. -/
theorem Filed.shows (filed : state.Filed) {table : SymbolTable} {target : SymbolId}
    (keeps : state.table.KeepsLists table) (inside : table.Has state.scopes.inner.symbol)
    (isNamespace : table.isNamespace target = true) {kind : NodeKind}
    (link : kind.link? = some target) (start : Span) :
    state.Shows ((state.withTable (table.addUsing state.scopes.inner.symbol target)).addNode
      state.scopes.inner.node kind start).2 target where
  isNamespace := by
    have uses : table.KeepsPlaces (table.addUsing state.scopes.inner.symbol target) :=
      .update table _ fun _ _ => ⟨rfl, rfl⟩
    rw [addNode_eq]
    exact (uses.trans (.recorded _ _ _)).isNamespace isNamespace
  listed {scope other} := by
    rw [usings_addNode]
    refine SymbolTable.mem_usings_addUsing.trans ?_
    rw [keeps.usings scope]
    refine or_congr_right ⟨fun ⟨here, new, _⟩ => ⟨here, new⟩, ?_⟩
    rintro ⟨rfl, new⟩
    exact ⟨rfl, new, inside⟩
  links id := by
    refine (Tree.link?_add state.tree kind start _ id).trans ?_
    rw [link]
  around := filed.enclosingScope?_add kind start

/-- What a stride does to the scopes that are visible in others: nothing, or one more gets visible
in the innermost one. -/
theorem Stride.shows_cases (stride : state.Stride next) (filed : state.Filed) :
    (∀ scope, next.table.usings scope = state.table.usings scope) ∧
        (∀ id, next.tree.link? id = state.tree.link? id) ∨
      ∃ target, state.Shows next target := by
  cases stride with
  | turn _ idle => exact .inl ⟨idle.table.usings, idle.tree.link⟩
  | link start _ inside isNamespace =>
      exact .inr ⟨_, filed.shows (.refl _) inside isNamespace rfl start⟩
  | @openInline name symbol unit table start _ inside opened isNamespace =>
      have there : table.Has state.scopes.inner.symbol := by
        rcases SymbolTable.openNamespace_ok opened with ⟨_, rfl⟩ | declared
        · exact inside
        · exact (SymbolTable.KeepsPlaces.declare declared).has _ inside
      have known := (SymbolTable.namespaceIn_iff.1 isNamespace).1
      exact .inr ⟨symbol, filed.shows (.openNamespace opened) there known rfl start⟩
  | @openTemplate factory unit template table declaration start _ opened _ _ =>
      have keeps := SymbolTable.KeepsLists.openTemplate opened
      refine .inl ⟨fun scope => (usings_addNode _ _ _ _ scope).trans (keeps.usings scope), ?_⟩
      exact state.tree.link?_add_plain _ start rfl _
  | addParameter start last _ _ plain _ added _ =>
      left
      simp only [table_listParameter, tree_listParameter, usings_addNode]
      refine ⟨SymbolTable.usings_addParameter plain added, fun id => ?_⟩
      rw [Tree.link?_updateTemplate, (Tree.KeepsLists.finish _ _ last).link]
      exact state.tree.link?_add_plain _ start rfl _ id

/-! ## What holds along the strides -/

theorem Turn.has (turn : state.Turn next) {id : NodeId} (present : state.tree.Has id) :
    next.tree.Has id := by
  obtain ⟨kind, found⟩ := Tree.exists_kindAt present
  obtain ⟨_, there, _⟩ := turn.kindAt found
  exact next.tree.has_of_kindAt there

/-- A node keeps the scope around it. -/
theorem Course.enclosingScope? (course : state.Course next) (filed : state.Filed) {id : NodeId}
    (present : state.tree.Has id) {scope : SymbolId}
    (around : state.tree.enclosingScope? id = some scope) :
    next.tree.enclosingScope? id = some scope := by
  have both : next.tree.Has id ∧ next.tree.enclosingScope? id = some scope := by
    induction course with
    | refl => exact ⟨present, around⟩
    | tail before turn ih =>
        have layered := (Course.filed before filed).1.stacked.layered
        exact ⟨turn.has ih.1, turn.enclosingScope? layered ih.1 ih.2⟩
  exact both.2

/-- A stride writes down in the table what it makes visible with a node. -/
theorem Stride.linked (stride : state.Stride next) (filed : state.Filed)
    (linked : state.tree.Linked before state.table) :
    next.tree.Linked before next.table := by
  have namespaces {target : SymbolId} (known : state.table.isNamespace target = true) :=
    (stride.course.keepsPlaces filed.reached).isNamespace known
  have shown {id : NodeId} {target : SymbolId} (link : state.tree.link? id = some target) :
      ∃ scope, next.tree.enclosingScope? id = some scope ∧ target ∈ state.table.usings scope := by
    obtain ⟨scope, around, listed⟩ := linked.shown id target link
    exact ⟨scope, stride.course.enclosingScope? filed (Tree.has_of_link? link) around, listed⟩
  have told {scope target : SymbolId} (listed : target ∈ state.table.usings scope) :
      target ∈ before.usings scope ∨ ∃ id, state.tree.link? id = some target ∧
        next.tree.enclosingScope? id = some scope := by
    refine (linked.told scope target listed).imp_right ?_
    rintro ⟨id, link, around⟩
    exact ⟨id, link, stride.course.enclosingScope? filed (Tree.has_of_link? link) around⟩
  rcases stride.shows_cases filed with ⟨usings, links⟩ | ⟨target, shows⟩
  · constructor <;> simp only [usings, links]
    · exact fun scope target listed => namespaces (linked.namespaces scope target listed)
    · exact linked.kept
    · exact fun id target => shown
    · exact fun scope target => told
  · have old {id : NodeId} {other : SymbolId} (link : state.tree.link? id = some other) :
        next.tree.link? id = some other := by
      rw [shows.links, if_neg (Nat.ne_of_lt (Tree.has_of_link? link)), link]
    refine ⟨fun scope other member => ?_, fun scope other member => ?_, fun id other link => ?_,
      fun scope other member => ?_⟩
    · rcases shows.listed.1 member with known | ⟨_, rfl⟩
      · exact namespaces (linked.namespaces scope other known)
      · exact shows.isNamespace
    · exact shows.listed.2 (.inl (linked.kept scope member))
    · rw [shows.links] at link
      split at link
      · rename_i new
        obtain rfl : id = ⟨state.tree.size⟩ := congrArg NodeId.mk new
        exact ⟨_, shows.around, shows.listed.2 (.inr ⟨rfl, (Option.some.inj link).symm⟩)⟩
      · obtain ⟨scope, around, member⟩ := shown link
        exact ⟨scope, around, shows.listed.2 (.inl member)⟩
    · rcases shows.listed.1 member with known | ⟨rfl, rfl⟩
      · refine (told known).imp_right ?_
        rintro ⟨id, link, around⟩
        exact ⟨id, old link, around⟩
      · exact .inr ⟨⟨state.tree.size⟩, by rw [shows.links, if_pos rfl], shows.around⟩

theorem Strides.linked (strides : state.Strides next) (filed : state.Filed)
    (linked : state.tree.Linked before state.table) :
    next.tree.Linked before next.table := by
  induction strides with
  | refl => exact linked
  | tail earlier stride ih =>
      exact stride.linked ((Strides.course earlier).filed filed).1 ih

/-- At its start a unit makes nothing visible. -/
theorem linked_start (options : ParseOptions) {table : SymbolTable}
    (namespaces : ∀ scope, ∀ target ∈ table.usings scope, table.isNamespace target = true)
    (unit : UnitId) (source : String) :
    (start options table unit source).tree.Linked table table where
  namespaces := namespaces
  kept _ := List.Subset.refl _
  shown id target link := by
    obtain ⟨_ | index⟩ := id
    · cases link
    · simp [start, ofStream, Tree.empty, Tree.link?, Tree.kindAt, Tree.get?] at link
  told _ _ listed := .inl listed

end ParseState

/-! ## Units and sessions -/

/-- A unit has what its nodes make visible listed besides what was listed before. -/
theorem linked_parseUnit (options : ParseOptions) {table : SymbolTable}
    (reached : table.Reachable) (apart : table.NamespacesApart)
    (namespaces : ∀ scope, ∀ target ∈ table.usings scope, table.isNamespace target = true)
    (unit : UnitId) (source : String) :
    (parseUnit options table unit source).tree.Linked table
      (parseUnit options table unit source).table := by
  obtain ⟨final, finished⟩ := ParseState.exists_finished options reached unit source
  have linked := (finished.reaches reached).strides.linked
    (ParseState.filed_start options reached apart unit source)
    (ParseState.linked_start options namespaces unit source)
  simp only [parseUnit, ParseState.parsed, ParseState.finish_eq finished]
  refine linked.congr ?_ (Tree.kin?_finishRoot _ _ _)
  intro id
  apply Tree.kindAt_update
  exact fun _ => rfl

namespace Session

/-- The scope that a node of a session makes visible where it stands. -/
def link? (session : Session) (reference : NodeRef) : Option SymbolId :=
  session.unit? reference.unit >>= fun tree => tree.link? reference.node

/-- How the symbol table and the trees agree on what is visible: each scope lists namespaces, in
ascending order and each of them once, and it lists exactly those that a using directive with a
target or an inline namespace makes visible in it. -/
structure Linked (session : Session) : Prop where
  ascending : ∀ scope, (session.table.usings scope).Pairwise (·.index < ·.index)
  namespaces : ∀ scope, ∀ target ∈ session.table.usings scope,
    session.table.isNamespace target = true
  listed : ∀ scope target, target ∈ session.table.usings scope ↔ ∃ reference,
    session.link? reference = some target ∧ session.enclosingScope? reference = some scope

variable {session : Session}

theorem linked_new (options : ParseOptions) : ({ options := options } : Session).Linked := by
  have none (scope : SymbolId) : SymbolTable.empty.usings scope = [] := by
    unfold SymbolTable.usings
    cases found : SymbolTable.empty.get? scope with
    | none => rfl
    | some symbol =>
        rw [SymbolTable.eq_of_get?_empty found]
        rfl
  constructor <;> simp [none, link?, unit?]

/-- A node of a session with one more unit is one of the units before or of that one. -/
theorem link?_push_iff {later : Session} {tree : Tree}
    (units : later.units = session.units.push tree) {scope target : SymbolId} :
    (∃ reference, later.link? reference = some target ∧
        later.enclosingScope? reference = some scope) ↔
      (∃ reference, session.link? reference = some target ∧
        session.enclosingScope? reference = some scope) ∨
      ∃ id, tree.link? id = some target ∧ tree.enclosingScope? id = some scope := by
  have same (unit : UnitId) : later.unit? unit =
      if unit.index = session.units.size then some tree else session.unit? unit := by
    unfold unit?
    rw [units]
    exact Array.getElem?_push
  have missing (unit : UnitId) (last : unit.index = session.units.size) :
      session.unit? unit = none := by
    simp [unit?, last]
  simp only [link?, enclosingScope?, same]
  constructor
  · rintro ⟨reference, link, around⟩
    split at link
    · rename_i last
      rw [if_pos last] at around
      exact .inr ⟨reference.node, link, around⟩
    · rename_i earlier
      rw [if_neg earlier] at around
      exact .inl ⟨reference, link, around⟩
  · rintro (⟨reference, link, around⟩ | ⟨id, link, around⟩)
    · have earlier : reference.unit.index ≠ session.units.size := by
        intro last
        simp [missing _ last] at link
      exact ⟨reference, by rwa [if_neg earlier], by rwa [if_neg earlier]⟩
    · exact ⟨⟨⟨session.units.size⟩, id⟩, by rwa [if_pos rfl], by rwa [if_pos rfl]⟩

theorem Linked.parse (linked : session.Linked) (filed : session.Filed) (source : String) :
    (session.parse source).2.2.Linked := by
  have parsed := linked_parseUnit session.options filed.reached filed.apart linked.namespaces
    ⟨session.units.size⟩ source
  have ascending := (filed.parse source).reached.consistent.usesDistinct.pairwise_usings
  refine ⟨ascending, parsed.namespaces, fun scope target => ?_⟩
  refine Iff.trans ?_ (link?_push_iff rfl).symm
  rw [← linked.listed scope target]
  constructor
  · exact parsed.told scope target
  · rintro (old | ⟨id, link, around⟩)
    · exact parsed.kept scope old
    · obtain ⟨other, enclosing, listed⟩ := parsed.shown id target link
      obtain rfl := Option.some.inj (around.symm.trans enclosing)
      exact listed

theorem Linked.performAll (linked : session.Linked) (filed : session.Filed)
    (calls : List SessionCall) : (session.performAll calls).Linked := by
  induction calls generalizing session with
  | nil => exact linked
  | cons call rest ih =>
      cases call with
      | parse source => exact ih (linked.parse filed source) (filed.parse source)
      | parseStrict source => exact ih (linked.parse filed source) (filed.parse source)

/-- In every session the symbol table and the trees agree on what is visible in which scope. -/
theorem usings_linked (options : ParseOptions) (calls : List SessionCall) :
    (({ options := options } : Session).performAll calls).Linked :=
  (linked_new options).performAll (filed_new options) calls

-- A directive that is repeated, and an inline namespace that is opened in two units.
example :
    let session := ({} : Session).performAll
      [.parse "namespace a {} inline namespace b {} using namespace a; using namespace a",
        .parse "extern \"C\" { inline namespace b {} } using namespace c;"]
    session.table.usings SymbolTable.root = [⟨1⟩, ⟨2⟩] ∧
      session.link? ⟨⟨0⟩, ⟨4⟩⟩ = some ⟨1⟩ ∧ session.link? ⟨⟨1⟩, ⟨2⟩⟩ = some ⟨2⟩ ∧
      session.enclosingScope? ⟨⟨1⟩, ⟨2⟩⟩ = some SymbolTable.root ∧
      session.link? ⟨⟨1⟩, ⟨3⟩⟩ = none := by
  decide +kernel

end Session

end DeclTree
