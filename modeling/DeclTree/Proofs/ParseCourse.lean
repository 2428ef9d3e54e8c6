import DeclTree.Proofs.CoherentDeclarations
import DeclTree.Proofs.ListedNodes
import DeclTree.Proofs.ListedSymbols
import DeclTree.Proofs.NodeNesting

/-!
# The course of a parse

A parse takes one small turn after the other: it reads, reports, changes the symbol table, and
starts, amends and finishes nodes; it enters a scope only if there is room for one more and for a
node that stands directly in the innermost scope, and it leaves a scope only if there is one
around it.  Which node takes in a new one, which symbol a scope has, and which namespaces are
opened is part of a turn.  What holds of every state on the way of a parse is shown by one turn
and then carried along its course.

What the symbol table and the nodes both list, such as the scopes that using directives name, is
written down in several turns, between which they disagree.  A stride is either one turn that
leaves these lists alone or all the turns that write down one entry.  It puts nodes only where they
may stand.
-/

namespace DeclTree

/-- The symbol in which declarations inside a node are looked up first: a linkage block has the
one of the scope around it. -/
def NodeKind.scopeIn (outer : SymbolId) : NodeKind → Option SymbolId
  | .linkage _ => some outer
  | kind => kind.symbol?

/-- The symbol in which declarations inside a node of a tree are looked up first, given that of
the scope around it. -/
def Tree.scopeIn? (tree : Tree) (outer : SymbolId) (node : NodeId) : Option SymbolId :=
  tree.kindAt node >>= NodeKind.scopeIn outer

/-- A node that is amended and has the same symbol has the same scope. -/
theorem NodeKind.scopeIn_amend {kind : NodeKind} {change : TemplateDecl → TemplateDecl}
    (same : (kind.amend change).symbol? = kind.symbol?) (outer : SymbolId) :
    (kind.amend change).scopeIn outer = kind.scopeIn outer := by
  cases kind with
  | template declaration => exact same
  | _ => rfl

/-- The operations of a parse besides the recording of nodes: nothing is moved on its own, and a
namespace is declared only by opening it. -/
def TableOperation.Ordinary : TableOperation → Prop
  | .declare _ request | .addParameter _ request | .declareTemplated _ _ request =>
      request.kind ≠ .namespaceScope
  | .move .. | .setOrigin .. => False
  | _ => True

namespace SymbolTable

/-- Whether a symbol is the namespace of a name that a scope owns. -/
def NamespaceIn (table : SymbolTable) (scope : SymbolId) (name : String) (id : SymbolId) : Prop :=
  ∃ symbol, table.get? id = some symbol ∧ symbol.kind = .namespaceScope ∧ symbol.name = name ∧
    symbol.owner = some scope

variable {table after : SymbolTable}

theorem namespaceIn_iff {scope id : SymbolId} {name : String} :
    table.NamespaceIn scope name id ↔ table.isNamespace id = true ∧
      table.nameOf id = some name ∧ table.owner id = some scope := by
  unfold NamespaceIn isNamespace nameOf owner
  cases table.get? id <;> simp

/-- A namespace that is opened has the name, and belongs to the scope. -/
theorem Reachable.namespaceIn_opened (reached : table.Reachable) {scope id : SymbolId}
    {name : String} {unit : Option UnitId}
    (opened : table.openNamespace scope name unit = .ok (id, after)) :
    after.NamespaceIn scope name id := by
  obtain ⟨isNamespace, owned⟩ := reached.consistent.openNamespace_spec opened
  refine namespaceIn_iff.2 ⟨isNamespace, ?_, owned⟩
  rcases openNamespace_ok opened with ⟨found, rfl⟩ | declared
  · unfold findNamespace? at found
    split at found
    · rename_i unnamed
      have anonymous := List.find?_some found
      unfold isAnonymousNamespace at anonymous
      cases present : after.get? id with
      | none => simp [present] at anonymous
      | some symbol =>
          simp only [present, Option.any_some, Bool.and_eq_true, Symbol.isAnonymous,
            beq_iff_eq] at anonymous
          simp [nameOf, present, anonymous.1, unnamed]
    · exact (reached.listed.sound scope name id (List.mem_of_find?_eq_some found)).2
  · obtain ⟨inside, attached⟩ := attach_of_declare declared
    have named := nameOf_attach inside.has
      { name := name, kind := .namespaceScope, unit := unit } ⟨table.size⟩
    rw [if_pos rfl, ← attached] at named
    rw [(Prod.mk.inj attached).1]
    exact named

theorem NamespaceIn.addUsing {scope id : SymbolId} {name : String}
    (inside : table.NamespaceIn scope name id) (user target : SymbolId) :
    (table.addUsing user target).NamespaceIn scope name id := by
  obtain ⟨symbol, found, kind, named, owned⟩ := inside
  unfold SymbolTable.addUsing NamespaceIn
  rw [get?_update, found]
  split
  · exact ⟨_, rfl, kind, named, owned⟩
  · exact ⟨symbol, rfl, kind, named, owned⟩

end SymbolTable

namespace ParseState

/-- The nodes that take in new ones: that of the innermost scope, and those directly in it. -/
def Near (state : ParseState) (node : NodeId) : Prop :=
  node = state.scopes.inner.node ∨ node ∈ state.tree.children state.scopes.inner.node

/-- One turn of a parse. -/
inductive Turn (state : ParseState) : ParseState → Prop
  | read {cursor : Cursor} (moves : state.cursor.Moves cursor) :
      Turn state { state with cursor := cursor }
  | report (error : ParseError) : Turn state { state with errors := state.errors.push error }
  | change {operation : TableOperation} (admitted : state.table.Admits operation)
      (ordinary : operation.Ordinary) :
      Turn state (state.withTable (state.table.perform operation))
  | consume : Turn state { state with scopes := state.scopes.consume }
  | start {parent : NodeId} {kind : NodeKind} (start : Span) (present : state.tree.Has parent)
      (near : state.Near parent)
      (opened : ∀ declaration, kind = .namespaceScope declaration →
        parent = state.scopes.inner.node ∧ state.table.NamespaceIn state.scopes.inner.symbol
          declaration.name declaration.symbol) :
      Turn state (state.addNode parent kind start).2
  | amend {node : NodeId} {change : TemplateDecl → TemplateDecl}
      (same : ∀ declaration, state.tree.kindAt node = some (.template declaration) →
        (change declaration).template = declaration.template) :
      Turn state { state with tree := state.tree.updateTemplate node change }
  | finish (node : NodeId) (last : Span) : Turn state (state.finishNode node last)
  | enter {frame : ScopeFrame} (room : state.scopes.depth < state.depthLimit)
      (inside : frame.node ∈ state.tree.children state.scopes.inner.node)
      (scope : state.tree.scopeIn? state.scopes.inner.symbol frame.node = some frame.symbol) :
      Turn state (state.enter frame)
  | leave (inside : state.scopes.outer ≠ []) : Turn state state.leave

/-- Any number of turns. -/
abbrev Course : ParseState → ParseState → Prop :=
  Relation.ReflTransGen Turn

variable {state next : ParseState}

theorem Turn.reachable (turn : state.Turn next) (reached : state.table.Reachable) :
    next.table.Reachable := by
  cases turn with
  | read | report | consume | amend | finish | enter | leave => exact reached
  | change admitted _ => exact reached.perform admitted
  | start start => exact reachable_addNode reached _ _ _

theorem Course.reachable (course : state.Course next) (reached : state.table.Reachable) :
    next.table.Reachable := by
  induction course with
  | refl => exact reached
  | tail _ turn ih => exact turn.reachable ih

theorem Turn.depthLimit (turn : state.Turn next) : next.depthLimit = state.depthLimit := by
  cases turn <;> rfl

theorem Course.depthLimit (course : state.Course next) : next.depthLimit = state.depthLimit := by
  induction course with
  | refl => rfl
  | tail _ turn ih => exact turn.depthLimit.trans ih

/-- Nodes stay in the nodes they stand in. -/
theorem Turn.children (turn : state.Turn next) {outer inner : NodeId}
    (inside : inner ∈ state.tree.children outer) : inner ∈ next.tree.children outer := by
  cases turn with
  | read | report | change | consume | enter | leave => exact inside
  | start start present => exact (state.tree.mem_children_add _ present start).2 (.inl inside)
  | amend => simpa only [Tree.children_updateTemplate] using inside
  | finish node last => simpa only [finishNode, Tree.children_finish] using inside

/-- Nodes stay what they are, template declarations apart, and keep their symbols. -/
theorem Turn.kindAt (turn : state.Turn next) {node : NodeId} {kind : NodeKind}
    (found : state.tree.kindAt node = some kind) : ∃ change,
      next.tree.kindAt node = some (kind.amend change) ∧
        (kind.amend change).symbol? = kind.symbol? := by
  have same {tree : Tree} (there : tree.kindAt node = some kind) : ∃ change,
      tree.kindAt node = some (kind.amend change) ∧
        (kind.amend change).symbol? = kind.symbol? :=
    ⟨id, by simpa using there, by simp⟩
  cases turn with
  | read | report | change | consume | enter | leave => exact same found
  | start start => exact same (state.tree.kindAt_add_of_some _ _ start found)
  | @amend amended change keeps =>
      simp only [Tree.kindAt_updateTemplate]
      split
      · rename_i here
        subst here
        refine ⟨change, by rw [found]; rfl, ?_⟩
        cases kind with
        | template declaration => exact congrArg some (keeps declaration found)
        | _ => rfl
      · exact same found
  | finish other last => exact same (by simpa [finishNode, Tree.kindAt_finish] using found)

/-- What scopes see and where they belong stays in the table. -/
theorem Turn.keepsPlaces (turn : state.Turn next) (reached : state.table.Reachable) :
    state.table.KeepsPlaces next.table := by
  cases turn with
  | read | report | consume | amend | finish | enter | leave => exact .refl _
  | @change operation _ ordinary =>
      refine .perform reached fun id scope same => ?_
      subst same
      exact ordinary
  | start start =>
      rw [addNode_eq]
      exact .recorded _ _ _

/-! ## Strides -/

/-- Whether nothing is listed anew, by symbols or by nodes. -/
structure Idle (state next : ParseState) : Prop where
  table : state.table.KeepsLists next.table
  tree : state.tree.KeepsLists next.tree

/-- Nothing is listed anew while the table and the tree stay as they are. -/
theorem Idle.of_eq (table : next.table = state.table) (tree : next.tree = state.tree) :
    state.Idle next := by
  constructor
  · rw [table]
    exact .refl _
  · rw [tree]
    exact .refl _

/-- The state with a parameter finished and listed in its template. -/
def listParameter (state : ParseState) (node parameter : NodeId) (last : Span) : ParseState :=
  let finished := state.finishNode parameter last
  { finished with
    tree := finished.tree.updateTemplate node (TemplateDecl.addParameter · parameter) }

@[simp] theorem table_listParameter (state : ParseState) (node parameter : NodeId) (last : Span) :
    (state.listParameter node parameter last).table = state.table :=
  rfl

@[simp] theorem tree_listParameter (state : ParseState) (node parameter : NodeId) (last : Span) :
    (state.listParameter node parameter last).tree =
      (state.tree.finish parameter last).updateTemplate node
        (TemplateDecl.addParameter · parameter) :=
  rfl

/-- A stride of a parse: a turn that lists nothing and puts nodes where they may stand, or the
turns by which a scope is made visible in another one, or by which a template or one of its
parameters is recorded, in the table and as a node. -/
inductive Stride (state : ParseState) : ParseState → Prop
  | turn {next : ParseState} (turn : state.Turn next) (idle : state.Idle next)
      (houses : state.tree.Housed → next.tree.Housed) : Stride state next
  | link {path : String} {target : SymbolId} (start : Span)
      (host : state.tree.Hosts state.scopes.inner.node)
      (inside : state.table.Has state.scopes.inner.symbol)
      (isNamespace : state.table.isNamespace target = true) :
      Stride state
        ((state.withTable (state.table.addUsing state.scopes.inner.symbol target)).addNode
          state.scopes.inner.node (.usingDirective ⟨path, some target⟩) start).2
  | openInline {name : String} {symbol : SymbolId} {unit : Option UnitId} {table : SymbolTable}
      (start : Span) (host : state.tree.Hosts state.scopes.inner.node)
      (inside : state.table.Has state.scopes.inner.symbol)
      (opened : state.table.openNamespace state.scopes.inner.symbol name unit =
        .ok (symbol, table))
      (isNamespace : table.NamespaceIn state.scopes.inner.symbol name symbol) :
      Stride state ((state.withTable (table.addUsing state.scopes.inner.symbol symbol)).addNode
        state.scopes.inner.node (.namespaceScope ⟨name, true, symbol⟩) start).2
  | openTemplate {factory : FactoryId} {unit : Option UnitId} {template : SymbolId}
      {table : SymbolTable} {declaration : TemplateDecl} (start : Span)
      (host : state.tree.Hosts state.scopes.inner.node)
      (opened : state.table.openTemplate factory unit = .ok (template, table))
      (declares : declaration.template = template) (bare : declaration.parameters = []) :
      Stride state ((state.withTable table).addNode state.scopes.inner.node
        (.template declaration) start).2
  | addParameter {node : NodeId} {declaration : TemplateDecl} {request : SymbolRequest}
      {symbol : SymbolId} {table : SymbolTable} {parameter : TemplateParameterDecl}
      (start last : Span) (near : state.Near node)
      (known : state.tree.kindAt node = some (.template declaration))
      (plain : request.kind.templateInfo? = none) (proper : request.kind ≠ .namespaceScope)
      (added : state.table.addParameter declaration.template request = .ok (symbol, table))
      (declares : parameter.symbol = some symbol) :
      Stride state (((state.withTable table).addNode node (.templateParameter parameter)
        start).2.listParameter node ⟨state.tree.size⟩ last)

/-- Any number of strides. -/
abbrev Strides : ParseState → ParseState → Prop :=
  Relation.ReflTransGen Stride

/-- A stride consists of turns. -/
theorem Stride.course (stride : state.Stride next) : state.Course next := by
  cases stride with
  | turn turn => exact .single turn
  | @link path target start host inside isNamespace =>
      have admitted : state.table.Admits (.addUsing state.scopes.inner.symbol target) :=
        SymbolTable.has_of_isNamespace isNamespace
      have uses : state.Turn (state.withTable (state.table.perform
        (.addUsing state.scopes.inner.symbol target))) := .change admitted trivial
      exact (Relation.ReflTransGen.single uses).tail
        (.start start host.has (.inl rfl) (by simp))
  | @openInline name symbol unit table start host inside opened isNamespace =>
      have opens : state.Turn (state.withTable (state.table.perform
        (.openNamespace state.scopes.inner.symbol name unit))) := .change trivial trivial
      rw [SymbolTable.perform, ParseM.settle_eq opened] at opens
      have uses : (state.withTable table).Turn ((state.withTable table).withTable (table.perform
          (.addUsing state.scopes.inner.symbol symbol))) :=
        .change (SymbolTable.has_of_openNamespace opened) trivial
      refine ((Relation.ReflTransGen.single opens).tail uses).tail
        (.start start host.has (.inl rfl) ?_)
      intro declaration same
      obtain rfl := NodeKind.namespaceScope.inj same
      exact ⟨rfl, isNamespace.addUsing _ _⟩
  | @openTemplate factory unit template table declaration start host opened _ _ =>
      have opens : state.Turn (state.withTable (state.table.perform
        (.openTemplate factory unit))) := .change trivial trivial
      rw [SymbolTable.perform, ParseM.settle_eq opened] at opens
      exact (Relation.ReflTransGen.single opens).tail
        (.start start host.has (.inl rfl) (by simp))
  | @addParameter node declaration request symbol table parameter start last near known plain
        proper added declares =>
      have declared : state.Turn (state.withTable (state.table.perform
        (.addParameter declaration.template request))) := .change plain proper
      rw [SymbolTable.perform, ParseM.settle_eq added] at declared
      have present : state.tree.Has node := state.tree.has_of_kindAt known
      refine (((Relation.ReflTransGen.single declared).tail
        (.start start present near (by simp))).tail (.finish _ last)).tail (.amend ?_)
      exact fun _ _ => rfl

theorem Strides.course (strides : state.Strides next) : state.Course next := by
  induction strides with
  | refl => exact .refl
  | tail _ stride ih => exact ih.trans stride.course

/-- A stride puts nodes where they may stand. -/
theorem Stride.housed (stride : state.Stride next) (housed : state.tree.Housed) :
    next.tree.Housed := by
  cases stride with
  | turn _ _ houses => exact houses housed
  | link start host | openInline start host | openTemplate start host =>
      refine housed.add (host.takes ?_) start
      exact fun _ fits => fits
  | addParameter start last _ known =>
      exact ((housed.add ⟨_, known, rfl⟩ start).amends (.finish _ _ last)).amends
        (.updateTemplate _ _ _)

theorem Strides.housed (strides : state.Strides next) (housed : state.tree.Housed) :
    next.tree.Housed := by
  induction strides with
  | refl => exact housed
  | tail _ stride ih => exact stride.housed ih

/-- A parse that leaves every scope it enters. -/
structure Reaches (state next : ParseState) : Prop where
  strides : state.Strides next
  scopes : state.scopes.Remain next.scopes

theorem Reaches.course (reaches : state.Reaches next) : state.Course next :=
  reaches.strides.course

theorem Reaches.refl (state : ParseState) : state.Reaches state :=
  ⟨.refl, .refl _⟩

theorem Reaches.trans {last : ParseState} (left : state.Reaches next)
    (right : next.Reaches last) : state.Reaches last :=
  ⟨left.strides.trans right.strides, left.scopes.trans right.scopes⟩

/-- A stride that leaves the scopes alone. -/
theorem Stride.reaches (stride : state.Stride next) (scopes : next.scopes = state.scopes) :
    state.Reaches next :=
  ⟨.single stride, scopes ▸ .refl _⟩

/-- A new node leaves all symbols there. -/
theorem hasSymbol_addNode {id : SymbolId} (present : state.table.Has id) (parent : NodeId)
    (kind : NodeKind) (start : Span) : (state.addNode parent kind start).2.table.Has id := by
  rw [addNode_eq]
  exact (SymbolTable.KeepsPlaces.recorded _ _ _).has id present

/-! Turns that list nothing, as strides. -/

theorem Stride.report (error : ParseError) :
    state.Stride { state with errors := state.errors.push error } :=
  .turn (.report error) (.of_eq rfl rfl) id

theorem Stride.consume : state.Stride { state with scopes := state.scopes.consume } :=
  .turn .consume (.of_eq rfl rfl) id

theorem Stride.finish (node : NodeId) (last : Span) : state.Stride (state.finishNode node last) :=
  .turn (.finish node last) ⟨.refl _, .finish state.tree node last⟩
    fun housed => housed.amends (.finish state.tree node last)

theorem Stride.change {operation : TableOperation} (admitted : state.table.Admits operation)
    (ordinary : operation.Ordinary) (idle : operation.Idle) :
    state.Stride (state.withTable (state.table.perform operation)) :=
  .turn (.change admitted ordinary) ⟨.perform admitted idle, .refl _⟩ id

theorem Stride.amend {node : NodeId} {change : TemplateDecl → TemplateDecl}
    (same : ∀ declaration, state.tree.kindAt node = some (.template declaration) →
      (change declaration).template = declaration.template ∧
        (change declaration).parameters = declaration.parameters) :
    state.Stride { state with tree := state.tree.updateTemplate node change } :=
  .turn (.amend fun declaration found => (same declaration found).1)
    ⟨.refl _, .updateTemplate state.tree node same⟩
    fun housed => housed.amends (.updateTemplate state.tree node change)

theorem Stride.start {parent : NodeId} {kind : NodeKind} (start : Span)
    (takes : state.tree.Takes parent kind) (near : state.Near parent) (bare : kind.Bare)
    (opened : ∀ declaration, kind = .namespaceScope declaration →
      parent = state.scopes.inner.node ∧ state.table.NamespaceIn state.scopes.inner.symbol
        declaration.name declaration.symbol) :
    state.Stride (state.addNode parent kind start).2 := by
  refine .turn (.start start takes.has near opened)
    ⟨?_, .add state.tree kind takes.has start bare⟩ fun housed => housed.add takes start
  rw [addNode_eq]
  exact .recorded _ _ _

theorem Reads.reaches (reads : state.Reads next) : state.Reaches next := by
  have stride : state.Stride { state with cursor := next.cursor } :=
    .turn (.read reads.1) (.of_eq rfl rfl) id
  rw [← reads.2] at stride
  exact stride.reaches (by rw [reads.2])

theorem Reaches.inner_node (reaches : state.Reaches next) :
    next.scopes.inner.node = state.scopes.inner.node :=
  reaches.scopes.node_inner

theorem Reaches.inner_symbol (reaches : state.Reaches next) :
    next.scopes.inner.symbol = state.scopes.inner.symbol := by
  cases reaches.scopes with
  | cons head _ =>
      rcases head with same | ⟨_, changed⟩
      · rw [same]
      · rw [changed]

theorem Reaches.depth (reaches : state.Reaches next) :
    next.scopes.depth = state.scopes.depth := by
  have same := List.Forall₂.length_eq reaches.scopes
  simpa [ScopeStack.depth, ScopeStack.frames] using same.symm

/-- A scope that is entered and left again. -/
theorem Reaches.leave {frame : ScopeFrame} (enters : state.Turn (state.enter frame))
    (reaches : (state.enter frame).Reaches next) : state.Reaches next.leave := by
  have around : next.scopes.outer ≠ [] := by
    intro alone
    have depth := reaches.depth
    simp [ScopeStack.depth, alone, enter, ScopeStack.push, ScopeStack.frames] at depth
  have strides : (state.enter frame).Strides next.leave :=
    reaches.strides.tail (.turn (.leave around) (.of_eq rfl rfl) id)
  exact ⟨strides.head (.turn enters (.of_eq rfl rfl) id), reaches.scopes.pop⟩

theorem Course.children (course : state.Course next) {outer inner : NodeId}
    (inside : inner ∈ state.tree.children outer) : inner ∈ next.tree.children outer := by
  induction course with
  | refl => exact inside
  | tail _ turn ih => exact turn.children ih

/-- Nodes stay what they are, template declarations apart, and keep their symbols. -/
theorem Course.kindAt (course : state.Course next) {node : NodeId} {kind : NodeKind}
    (found : state.tree.kindAt node = some kind) : ∃ change,
      next.tree.kindAt node = some (kind.amend change) ∧
        (kind.amend change).symbol? = kind.symbol? := by
  induction course with
  | refl => exact ⟨id, by simpa using found, by simp⟩
  | tail _ turn ih =>
      obtain ⟨first, there, same⟩ := ih
      obtain ⟨second, later, still⟩ := turn.kindAt there
      rw [NodeKind.amend_amend] at later still
      exact ⟨second ∘ first, later, still.trans same⟩

/-- What is looked up in a node stays the same. -/
theorem Course.scopeIn? (course : state.Course next) {outer symbol : SymbolId} {node : NodeId}
    (scope : state.tree.scopeIn? outer node = some symbol) :
    next.tree.scopeIn? outer node = some symbol := by
  obtain ⟨kind, found, opens⟩ := Option.bind_eq_some_iff.1 scope
  obtain ⟨change, there, same⟩ := course.kindAt found
  refine Option.bind_eq_some_iff.2 ⟨_, there, ?_⟩
  rw [NodeKind.scopeIn_amend same, opens]

/-- Declarations may stand in a node as long as it is there. -/
theorem Course.hosts (course : state.Course next) {node : NodeId}
    (host : state.tree.Hosts node) : next.tree.Hosts node := by
  obtain ⟨kind, found, holds⟩ := host
  obtain ⟨change, there, _⟩ := course.kindAt found
  exact ⟨_, there, by simpa using holds⟩

theorem Course.keepsPlaces (course : state.Course next) (reached : state.table.Reachable) :
    state.table.KeepsPlaces next.table := by
  induction course with
  | refl => exact .refl _
  | tail before turn ih => exact ih.trans (turn.keepsPlaces (Course.reachable before reached))

/-- Whether a node is the declaration of a template. -/
def Heads (state : ParseState) (node : NodeId) (template : SymbolId) : Prop :=
  ∃ declaration, state.tree.kindAt node = some (.template declaration) ∧
    declaration.template = template

theorem Course.heads (course : state.Course next) {node : NodeId} {template : SymbolId}
    (heads : state.Heads node template) : next.Heads node template := by
  obtain ⟨declaration, found, declares⟩ := heads
  obtain ⟨change, there, same⟩ := course.kindAt found
  exact ⟨change declaration, there, (Option.some.inj same).trans declares⟩

/-! ## What is known on the way -/

/-- A state whose table is in use and has the symbol of the innermost scope, which is that of a
node that declarations stand in. -/
structure Steady (state : ParseState) : Prop where
  reached : state.table.Reachable
  inside : state.table.Has state.scopes.inner.symbol
  host : state.tree.Hosts state.scopes.inner.node

theorem Steady.reaches (steady : state.Steady) (reaches : state.Reaches next) : next.Steady where
  reached := reaches.course.reachable steady.reached
  inside := by
    rw [reaches.inner_symbol]
    exact (reaches.course.keepsPlaces steady.reached).has _ steady.inside
  host := by
    rw [reaches.inner_node]
    exact reaches.course.hosts steady.host

/-- Something that is known of a parse and stays so until a scope is entered or left: that there
is room for one more, which symbol the innermost one has, that a node takes in new ones, that a
node may become a scope with some symbol, and, in whatever scope, that a symbol is there, that a
node declares a template, or what it declares, template declarations apart. -/
inductive Fact
  | room
  | scope (symbol : SymbolId)
  | near (node : NodeId)
  | opens (node : NodeId) (symbol : SymbolId)
  | present (symbol : SymbolId)
  | heads (node : NodeId) (template : SymbolId)
  | declares (node : NodeId) (kind : NodeKind)

def Fact.HoldsOf (state : ParseState) : Fact → Prop
  | .room => state.scopes.depth < state.depthLimit
  | .scope symbol => state.scopes.inner.symbol = symbol
  | .near node => state.Near node
  | .opens node symbol => node ∈ state.tree.children state.scopes.inner.node ∧
      state.tree.scopeIn? state.scopes.inner.symbol node = some symbol
  | .present symbol => state.table.Has symbol
  | .heads node template => state.Heads node template
  | .declares node kind => ∃ change, state.tree.kindAt node = some (kind.amend change)

/-- Whether a fact is none about the innermost scope. -/
def Fact.Lasting : Fact → Prop
  | .present _ | .heads .. | .declares .. => True
  | _ => False

/-- Whether all of some facts hold of a state. -/
def Grants (state : ParseState) (known : List Fact) : Prop :=
  ∀ fact ∈ known, fact.HoldsOf state

theorem Fact.HoldsOf.reaches {fact : Fact} (holds : fact.HoldsOf state)
    (reached : state.table.Reachable) (reaches : state.Reaches next) : fact.HoldsOf next := by
  cases fact with
  | room => rwa [HoldsOf, reaches.depth, reaches.course.depthLimit]
  | scope symbol => rwa [HoldsOf, reaches.inner_symbol]
  | near node =>
      rw [HoldsOf, Near, reaches.inner_node]
      exact holds.imp_right reaches.course.children
  | opens node symbol =>
      rw [HoldsOf, reaches.inner_node, reaches.inner_symbol]
      exact holds.imp reaches.course.children reaches.course.scopeIn?
  | present symbol => exact (reaches.course.keepsPlaces reached).has _ holds
  | heads node template => exact reaches.course.heads holds
  | declares node kind =>
      obtain ⟨first, found⟩ := holds
      obtain ⟨second, there, _⟩ := reaches.course.kindAt found
      exact ⟨second ∘ first, by rw [there, NodeKind.amend_amend]⟩

/-- A node that is known takes in what fits in its declaration. -/
theorem Fact.HoldsOf.takes {node : NodeId} {kind inner : NodeKind}
    (holds : (Fact.declares node kind).HoldsOf state) (fits : inner.fitsIn kind = true) :
    state.tree.Takes node inner := by
  obtain ⟨change, found⟩ := holds
  exact ⟨_, found, by simpa using fits⟩

theorem Fact.HoldsOf.hosts {node : NodeId} {kind : NodeKind}
    (holds : (Fact.declares node kind).HoldsOf state) (host : kind.isHost = true) :
    state.tree.Hosts node := by
  obtain ⟨change, found⟩ := holds
  exact ⟨_, found, by simpa using host⟩

theorem grants_nil (state : ParseState) : state.Grants [] := by
  intro fact member
  cases member

theorem grants_cons {fact : Fact} {known : List Fact} :
    state.Grants (fact :: known) ↔ fact.HoldsOf state ∧ state.Grants known :=
  List.forall_mem_cons

theorem Grants.reaches {known : List Fact} (grants : state.Grants known)
    (reached : state.table.Reachable) (reaches : state.Reaches next) : next.Grants known :=
  fun fact member => (grants fact member).reaches reached reaches

/-- What is known in a scope that has just been entered. -/
theorem Grants.enter {known kept : List Fact} (grants : state.Grants known) (frame : ScopeFrame)
    (subset : kept ⊆ known) (lasting : ∀ fact ∈ kept, fact.Lasting) :
    (state.enter frame).Grants (.near frame.node :: kept) := by
  refine grants_cons.2 ⟨.inl rfl, fun fact member => ?_⟩
  have holds := grants fact (subset member)
  cases fact with
  | present | heads | declares => exact holds
  | _ => exact (lasting _ member).elim

end ParseState

end DeclTree
