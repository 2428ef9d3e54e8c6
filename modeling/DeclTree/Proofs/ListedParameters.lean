import DeclTree.Proofs.VisibleScopes

/-!
# Template parameters in the table and in the trees

The parameters of a template are listed three times: the symbol of the template lists their
symbols, the template node lists their nodes, and the nodes stand in it.  A parameter is added to
all three in one stride, behind the others, and a template is new in the table when it gets its
node, so no two nodes share a list.  Whatever else becomes of a template, that it is named, moved
or given up, leaves its parameters as they are.
-/

namespace DeclTree

namespace Tree

variable {tree : Tree}

def symbolAt (tree : Tree) (id : NodeId) : Option SymbolId :=
  tree.kindAt id >>= NodeKind.symbol?

theorem has_of_mem_parametersIn {id parameter : NodeId}
    (member : parameter ∈ tree.parametersIn id) : tree.Has parameter := by
  have isParameter := (List.mem_filter.1 member).2
  unfold isTemplateParameter at isParameter
  cases found : tree.kindAt parameter with
  | none => simp [found] at isParameter
  | some kind => exact tree.has_of_kindAt found

/-- The next node has no parameters yet. -/
theorem parametersIn_fresh (tree : Tree) : tree.parametersIn ⟨tree.size⟩ = [] := by
  refine List.eq_nil_iff_forall_not_mem.2 fun parameter member => ?_
  have inside := tree.has_of_mem_children (List.mem_filter.1 member).1
  exact Nat.lt_irrefl tree.size inside

theorem Layered.has_child (layered : tree.Layered) (id child : NodeId)
    (member : child ∈ tree.children id) : tree.Has child := by
  have around := layered.parent?_of_mem member
  rw [parent?_eq_kin] at around
  obtain ⟨kin, found, _⟩ := Option.bind_eq_some_iff.1 around
  obtain ⟨node, there, _⟩ := Option.map_eq_some_iff.1 found
  exact has_of_get? there

/-- Whether the templates of a tree are new since a table, have one node each, and list the nodes
and the symbols of the parameters in that node. -/
structure Signed (tree : Tree) (before table : SymbolTable) : Prop where
  there : ∀ id template parameters, tree.signature? id = some (template, parameters) →
    table.Has template ∧ ¬ before.Has template
  apart : ∀ id other template parameters others,
    tree.signature? id = some (template, parameters) →
      tree.signature? other = some (template, others) → id = other
  listed : ∀ id template parameters, tree.signature? id = some (template, parameters) →
    parameters = tree.parametersIn id ∧
      parameters.map tree.symbolAt = (table.templateParameters template).map some
  kept : ∀ template, before.Has template →
    table.templateParameters template = before.templateParameters template

theorem Signed.congr {later : Tree} {before table : SymbolTable} (signed : tree.Signed before table)
    (kinds : ∀ id, later.kindAt id = tree.kindAt id)
    (children : ∀ id, later.children id = tree.children id) : later.Signed before table := by
  have keeps : KeepsLists tree later := .of_eq kinds children
  have symbols : later.symbolAt = tree.symbolAt :=
    funext fun id => by rw [symbolAt, kinds, symbolAt]
  refine ⟨?_, ?_, ?_, signed.kept⟩ <;> simp only [keeps.signature, keeps.parameters, symbols]
  · exact signed.there
  · exact signed.apart
  · exact signed.listed

end Tree

namespace ParseState

variable {state next : ParseState} {before : SymbolTable}

theorem templateParameters_addNode (state : ParseState) (parent : NodeId) (kind : NodeKind)
    (start : Span) (template : SymbolId) :
    (state.addNode parent kind start).2.table.templateParameters template =
      state.table.templateParameters template := by
  rw [addNode_eq]
  exact (SymbolTable.KeepsLists.recorded _ _ _).parameters template

/-! ## What a stride does to parameters -/

structure KeepsParameters (state next : ParseState) : Prop where
  lists : ∀ template,
    next.table.templateParameters template = state.table.templateParameters template
  signatures : ∀ id, next.tree.signature? id = state.tree.signature? id
  parameters : ∀ id, next.tree.parametersIn id = state.tree.parametersIn id

/-- Whether a template that is new in the table gets a node that lists nothing. -/
structure OpensTemplate (state next : ParseState) (template : SymbolId) : Prop where
  fresh : ¬ state.table.Has template
  there : next.table.Has template
  lists : ∀ other, next.table.templateParameters other = state.table.templateParameters other
  signatures : ∀ id, next.tree.signature? id =
    if id.index = state.tree.size then some (template, []) else state.tree.signature? id
  parameters : ∀ id, next.tree.parametersIn id = state.tree.parametersIn id

/-- Whether a template gets one more parameter in each of the lists. -/
structure AddsParameter (state next : ParseState) (node : NodeId) (template symbol : SymbolId) :
    Prop where
  known : ∃ parameters, state.tree.signature? node = some (template, parameters)
  lists : ∀ other, next.table.templateParameters other =
    if template = other then state.table.templateParameters template ++ [symbol]
    else state.table.templateParameters other
  signatures : ∀ id, next.tree.signature? id = if node = id
    then (state.tree.signature? id).map fun signature =>
      (signature.1, signature.2 ++ [⟨state.tree.size⟩])
    else state.tree.signature? id
  parameters : ∀ id, next.tree.parametersIn id =
    state.tree.parametersIn id ++ if id = node then [⟨state.tree.size⟩] else []
  symbol : next.tree.symbolAt ⟨state.tree.size⟩ = some symbol

/-- A node that makes a scope visible lists no parameters. -/
theorem keepsParameters_link {table : SymbolTable} (keeps : state.table.KeepsLists table)
    (present : state.tree.Has state.scopes.inner.node) (scope target : SymbolId) {kind : NodeKind}
    (signature : kind.signature? = none) (plain : kind.isTemplateParameter = false)
    (start : Span) : state.KeepsParameters ((state.withTable (table.addUsing scope target)).addNode
      state.scopes.inner.node kind start).2 where
  lists template := by
    refine (templateParameters_addNode _ _ _ _ template).trans ?_
    exact (SymbolTable.templateParameters_addUsing table scope target template).trans
      (keeps.parameters template)
  signatures := state.tree.signature?_add_plain kind start signature _
  parameters := state.tree.parametersIn_add_plain kind present start plain

/-- A template gets its node behind its symbol. -/
theorem opensTemplate {factory : FactoryId} {unit : Option UnitId} {template : SymbolId}
    {table : SymbolTable} {declaration : TemplateDecl}
    (present : state.tree.Has state.scopes.inner.node)
    (opened : state.table.openTemplate factory unit = .ok (template, table))
    (declares : declaration.template = template) (bare : declaration.parameters = [])
    (start : Span) : state.OpensTemplate ((state.withTable table).addNode state.scopes.inner.node
      (.template declaration) start).2 template where
  fresh := by
    obtain ⟨_, _, rfl, _⟩ := SymbolTable.openTemplate_ok opened
    exact state.table.not_has_fresh
  there := hasSymbol_addNode (SymbolTable.has_openTemplate opened) _ _ _
  lists other :=
    (templateParameters_addNode _ _ _ _ other).trans
      ((SymbolTable.KeepsLists.openTemplate opened).parameters other)
  signatures id := by
    refine (state.tree.signature?_add _ start _ id).trans ?_
    rw [NodeKind.signature?, declares, bare]
  parameters := state.tree.parametersIn_add_plain _ present start rfl

/-- A parameter gets its symbol, its node and its entry. -/
theorem addsParameter (filed : state.Filed) {node : NodeId} {declaration : TemplateDecl}
    {request : SymbolRequest} {symbol : SymbolId} {table : SymbolTable}
    {parameter : TemplateParameterDecl}
    (known : state.tree.kindAt node = some (.template declaration))
    (plain : request.kind.templateInfo? = none)
    (added : state.table.addParameter declaration.template request = .ok (symbol, table))
    (declares : parameter.symbol = some symbol) (start last : Span) :
    state.AddsParameter (((state.withTable table).addNode node (.templateParameter parameter)
      start).2.listParameter node ⟨state.tree.size⟩ last) node declaration.template symbol where
  known := ⟨declaration.parameters, by rw [Tree.signature?, known]; rfl⟩
  lists other := by
    simp only [table_listParameter, templateParameters_addNode]
    exact SymbolTable.templateParameters_addParameter plain added other
  signatures id := by
    have plainNode (id : NodeId) : (state.tree.add (.templateParameter parameter) node
        start).2.signature? id = state.tree.signature? id :=
      state.tree.signature?_add_plain _ start rfl node id
    have kinds : ((state.tree.add (.templateParameter parameter) node start).2.finish
        ⟨state.tree.size⟩ last).kindAt node = some (.template declaration) := by
      rw [Tree.kindAt_finish]
      exact state.tree.kindAt_add_of_some _ node start known
    rw [tree_listParameter]
    refine (Tree.signature?_updateTemplate _ _ _ id).trans ?_
    split
    · rename_i here
      subst here
      refine (congrArg (· >>= _) kinds).trans ?_
      rw [Tree.signature?, known]
      rfl
    · exact ((Tree.KeepsLists.finish _ _ last).signature id).trans (plainNode id)
  parameters id := by
    rw [tree_listParameter, Tree.parametersIn_updateTemplate,
      (Tree.KeepsLists.finish _ _ last).parameters]
    have present := state.tree.has_of_kindAt known
    refine (state.tree.parametersIn_add _ present start filed.stacked.layered.has_child id).trans ?_
    simp [NodeKind.isTemplateParameter]
  symbol := by
    have other : node ≠ ⟨state.tree.size⟩ := by
      rintro rfl
      exact Nat.lt_irrefl _ (state.tree.has_of_kindAt known)
    rw [tree_listParameter, Tree.symbolAt, Tree.kindAt_updateTemplate, if_neg other,
      Tree.kindAt_finish]
    exact (congrArg (· >>= NodeKind.symbol?) (state.tree.kindAt_add_new _ node start)).trans
      declares

/-- What a stride does to the lists of parameters: nothing, or a template or a parameter is
added. -/
theorem Stride.parameters_cases (stride : state.Stride next) (filed : state.Filed) :
    state.KeepsParameters next ∨ (∃ template, state.OpensTemplate next template) ∨
      ∃ node template symbol, state.AddsParameter next node template symbol := by
  cases stride with
  | turn _ idle => exact .inl ⟨idle.table.parameters, idle.tree.signature, idle.tree.parameters⟩
  | link start host _ _ => exact .inl (keepsParameters_link (.refl _) host.has _ _ rfl rfl start)
  | openInline start host _ opened _ =>
      exact .inl (keepsParameters_link (.openNamespace opened) host.has _ _ rfl rfl start)
  | @openTemplate factory unit template table declaration start host opened declares bare =>
      exact .inr (.inl ⟨template, opensTemplate host.has opened declares bare start⟩)
  | @addParameter node declaration request symbol table parameter start last near known plain
        proper added declares =>
      exact .inr (.inr ⟨node, declaration.template, symbol,
        addsParameter filed known plain added declares start last⟩)

/-! ## What holds along the strides -/

/-- Nodes keep their symbols. -/
theorem Course.symbolAt (course : state.Course next) {id : NodeId} (present : state.tree.Has id) :
    next.tree.Has id ∧ next.tree.symbolAt id = state.tree.symbolAt id := by
  obtain ⟨kind, found⟩ := Tree.exists_kindAt present
  obtain ⟨change, there, same⟩ := course.kindAt found
  refine ⟨next.tree.has_of_kindAt there, ?_⟩
  rw [Tree.symbolAt, Tree.symbolAt, there, found]
  exact same

/-- The symbols of the parameters of a template, as they are behind a stride. -/
theorem Stride.listed (stride : state.Stride next) (signed : state.tree.Signed before state.table)
    {id : NodeId} {template : SymbolId} {parameters : List NodeId}
    (found : state.tree.signature? id = some (template, parameters)) :
    parameters = state.tree.parametersIn id ∧
      parameters.map next.tree.symbolAt = (state.table.templateParameters template).map some := by
  obtain ⟨same, told⟩ := signed.listed id template parameters found
  refine ⟨same, .trans (List.map_congr_left fun parameter member => ?_) told⟩
  rw [same] at member
  exact (stride.course.symbolAt (Tree.has_of_mem_parametersIn member)).2

/-- A template that is opened is signed with nothing. -/
theorem OpensTemplate.signed {template : SymbolId} (opens : state.OpensTemplate next template)
    (stride : state.Stride next) (filed : state.Filed)
    (signed : state.tree.Signed before state.table)
    (since : ∀ id, before.Has id → state.table.Has id) :
    next.tree.Signed before next.table := by
  have places := stride.course.keepsPlaces filed.reached
  have cases {id : NodeId} {other : SymbolId} {parameters : List NodeId}
      (found : next.tree.signature? id = some (other, parameters)) :
      id = ⟨state.tree.size⟩ ∧ other = template ∧ parameters = [] ∨
        other ≠ template ∧ state.tree.signature? id = some (other, parameters) := by
    rw [opens.signatures] at found
    split at found
    · rename_i new
      obtain ⟨rfl, rfl⟩ := Prod.mk.inj (Option.some.inj found)
      exact .inl ⟨congrArg NodeId.mk new, rfl, rfl⟩
    · refine .inr ⟨?_, found⟩
      rintro rfl
      exact opens.fresh (signed.there id other parameters found).1
  refine ⟨?_, ?_, ?_, ?_⟩
  · intro id other parameters found
    rcases cases found with ⟨_, rfl, _⟩ | ⟨_, old⟩
    · exact ⟨opens.there, fun early => opens.fresh (since other early)⟩
    · exact (signed.there id other parameters old).imp_left (places.has other)
  · intro id other given parameters others found foundOther
    rcases cases found with ⟨rfl, rfl, _⟩ | ⟨apart, old⟩ <;>
      rcases cases foundOther with ⟨rfl, same, _⟩ | ⟨apartOther, oldOther⟩
    · rfl
    · exact absurd rfl apartOther
    · exact absurd same apart
    · exact signed.apart id other given parameters others old oldOther
  · intro id other parameters found
    rw [opens.parameters, opens.lists]
    rcases cases found with ⟨rfl, rfl, rfl⟩ | ⟨_, old⟩
    · rw [Tree.parametersIn_fresh, SymbolTable.templateParameters_eq,
        Option.not_isSome_iff_eq_none.1 opens.fresh]
      exact ⟨rfl, rfl⟩
    · exact stride.listed signed old
  · intro other early
    rw [opens.lists, signed.kept other early]

/-- A parameter that is added to a template stands last in each of the lists. -/
theorem AddsParameter.signed {node : NodeId} {template symbol : SymbolId}
    (adds : state.AddsParameter next node template symbol) (stride : state.Stride next)
    (filed : state.Filed) (signed : state.tree.Signed before state.table) :
    next.tree.Signed before next.table := by
  have places := stride.course.keepsPlaces filed.reached
  obtain ⟨given, known⟩ := adds.known
  have cases {id : NodeId} {other : SymbolId} {parameters : List NodeId}
      (found : next.tree.signature? id = some (other, parameters)) :
      id = node ∧ other = template ∧ parameters = given ++ [⟨state.tree.size⟩] ∨
        id ≠ node ∧ other ≠ template ∧ state.tree.signature? id = some (other, parameters) := by
    rw [adds.signatures] at found
    split at found
    · rename_i here
      subst here
      rw [known] at found
      obtain ⟨rfl, rfl⟩ := Prod.mk.inj (Option.some.inj found)
      exact .inl ⟨rfl, rfl, rfl⟩
    · rename_i elsewhere
      refine .inr ⟨Ne.symm elsewhere, ?_, found⟩
      rintro rfl
      exact elsewhere (signed.apart node id other given parameters known found)
  refine ⟨?_, ?_, ?_, ?_⟩
  · intro id other parameters found
    rcases cases found with ⟨rfl, rfl, _⟩ | ⟨_, _, old⟩
    · exact (signed.there _ _ _ known).imp_left (places.has other)
    · exact (signed.there id other parameters old).imp_left (places.has other)
  · intro id other listed parameters others found foundOther
    rcases cases found with ⟨rfl, rfl, _⟩ | ⟨_, apart, old⟩ <;>
      rcases cases foundOther with ⟨rfl, same, _⟩ | ⟨_, apartOther, oldOther⟩
    · rfl
    · exact absurd rfl apartOther
    · exact absurd same apart
    · exact signed.apart id other listed parameters others old oldOther
  · intro id other parameters found
    rw [adds.parameters, adds.lists]
    rcases cases found with ⟨rfl, rfl, rfl⟩ | ⟨elsewhere, apart, old⟩
    · obtain ⟨same, told⟩ := stride.listed signed known
      rw [if_pos rfl, if_pos rfl, List.map_append, told, ← same, List.map_append]
      simp [adds.symbol]
    · rw [if_neg elsewhere, if_neg (Ne.symm apart), List.append_nil]
      exact stride.listed signed old
  · intro other early
    have apart : template ≠ other := by
      rintro rfl
      exact (signed.there node template given known).2 early
    rw [adds.lists, if_neg apart, signed.kept other early]

/-- A stride adds to all lists of a template or to none. -/
theorem Stride.signed (stride : state.Stride next) (filed : state.Filed)
    (signed : state.tree.Signed before state.table)
    (since : ∀ id, before.Has id → state.table.Has id) : next.tree.Signed before next.table := by
  rcases stride.parameters_cases filed with keeps | ⟨template, opens⟩ |
    ⟨node, template, symbol, adds⟩
  · have places := stride.course.keepsPlaces filed.reached
    constructor <;> simp only [keeps.lists, keeps.signatures, keeps.parameters]
    · exact fun id template parameters found =>
        (signed.there id template parameters found).imp_left (places.has template)
    · exact signed.apart
    · exact fun _ _ _ found => stride.listed signed found
    · exact signed.kept
  · exact opens.signed stride filed signed since
  · exact adds.signed stride filed signed

theorem Strides.signed (strides : state.Strides next) (filed : state.Filed)
    (signed : state.tree.Signed state.table state.table) :
    next.tree.Signed state.table next.table := by
  induction strides with
  | refl => exact signed
  | tail earlier stride ih =>
      have course := Strides.course earlier
      exact stride.signed (course.filed filed).1 ih (course.keepsPlaces filed.reached).has

/-- Parameters stay in the templates that list them. -/
theorem Turn.parametersOwned (turn : state.Turn next) (reached : state.table.Reachable)
    (owned : state.table.ParametersOwned) : next.table.ParametersOwned := by
  cases turn with
  | read | report | consume | amend | finish | enter | leave => exact owned
  | @change operation admitted ordinary =>
      refine owned.perform reached admitted fun id scope same => ?_
      subst same
      exact ordinary
  | start start =>
      rw [addNode_eq]
      exact owned.keeps (.recorded _ _ _) (.recorded _ _ _)

theorem Course.parametersOwned (course : state.Course next) (reached : state.table.Reachable)
    (owned : state.table.ParametersOwned) : next.table.ParametersOwned := by
  induction course with
  | refl => exact owned
  | tail before turn ih => exact turn.parametersOwned (Course.reachable before reached) ih

/-- At its start a unit has no templates. -/
theorem signed_start (options : ParseOptions) (table : SymbolTable) (unit : UnitId)
    (source : String) : (start options table unit source).tree.Signed table table := by
  have none (id : NodeId) : (start options table unit source).tree.signature? id = none := by
    obtain ⟨_ | index⟩ := id
    · rfl
    · simp [start, ofStream, Tree.empty, Tree.signature?, Tree.kindAt, Tree.get?]
  constructor <;> simp [none]

end ParseState

/-! ## Units and sessions -/

/-- A unit lists the parameters of its templates, and leaves those of earlier ones alone. -/
theorem signed_parseUnit (options : ParseOptions) {table : SymbolTable}
    (reached : table.Reachable) (apart : table.NamespacesApart) (owned : table.ParametersOwned)
    (unit : UnitId) (source : String) :
    (parseUnit options table unit source).tree.Signed table
        (parseUnit options table unit source).table ∧
      (parseUnit options table unit source).table.ParametersOwned ∧
      ∀ id, table.Has id → (parseUnit options table unit source).table.Has id := by
  obtain ⟨final, finished⟩ := ParseState.exists_finished options reached unit source
  have reaches := finished.reaches reached
  have signed := reaches.strides.signed (ParseState.filed_start options reached apart unit source)
    (ParseState.signed_start options table unit source)
  simp only [parseUnit, ParseState.parsed, ParseState.finish_eq finished]
  refine ⟨signed.congr ?_ ?_, reaches.course.parametersOwned reached owned,
    (reaches.course.keepsPlaces reached).has⟩
  · intro id
    apply Tree.kindAt_update
    exact fun _ => rfl
  · intro id
    apply Tree.children_update
    exact fun _ => rfl

namespace Session

/-- How template parameters are listed: a template node of any unit lists the parameters that
stand in it, in order, their symbols are those that the symbol of the template lists, and each of
them belongs to it. -/
def ListsParameters (session : Session) : Prop :=
  ∀ unit tree id declaration, session.unit? unit = some tree →
    tree.kindAt id = some (.template declaration) →
      declaration.parameters = tree.parametersIn id ∧
        declaration.parameters.map tree.symbolAt =
          (session.table.templateParameters declaration.template).map some ∧
        ∀ parameter ∈ session.table.templateParameters declaration.template,
          session.table.owner parameter = some declaration.template

/-- Whether the units of a session list the parameters of their templates. -/
structure Signed (session : Session) : Prop where
  owned : session.table.ParametersOwned
  there : ∀ tree ∈ session.units, ∀ id declaration,
    tree.kindAt id = some (.template declaration) → session.table.Has declaration.template
  listed : ∀ tree ∈ session.units, ∀ id declaration,
    tree.kindAt id = some (.template declaration) →
      declaration.parameters = tree.parametersIn id ∧ declaration.parameters.map tree.symbolAt =
        (session.table.templateParameters declaration.template).map some

variable {session : Session}

theorem signed_new (options : ParseOptions) : ({ options := options } : Session).Signed := by
  have none (template : SymbolId) : SymbolTable.empty.templateParameters template = [] := by
    rw [SymbolTable.templateParameters_eq]
    cases found : SymbolTable.empty.get? template with
    | none => rfl
    | some symbol =>
        rw [SymbolTable.eq_of_get?_empty found]
        rfl
  refine ⟨?_, by simp, by simp⟩
  intro template parameter member
  change parameter ∈ SymbolTable.empty.templateParameters template at member
  simp [none] at member

theorem Signed.parse (signed : session.Signed) (filed : session.Filed) (source : String) :
    (session.parse source).2.2.Signed := by
  obtain ⟨parsed, owned, has⟩ := signed_parseUnit session.options filed.reached filed.apart
    signed.owned ⟨session.units.size⟩ source
  have signature {tree : Tree} {id : NodeId} {declaration : TemplateDecl}
      (found : tree.kindAt id = some (.template declaration)) :
      tree.signature? id = some (declaration.template, declaration.parameters) := by
    rw [Tree.signature?, found]
    rfl
  refine ⟨owned, fun tree member id declaration found => ?_,
    fun tree member id declaration found => ?_⟩
  · rcases Array.mem_push.1 member with old | rfl
    · exact has _ (signed.there tree old id declaration found)
    · exact (parsed.there id _ _ (signature found)).1
  · rcases Array.mem_push.1 member with old | rfl
    · refine (signed.listed tree old id declaration found).imp_right fun told => told.trans ?_
      exact congrArg _ (parsed.kept _ (signed.there tree old id declaration found)).symm
    · exact parsed.listed id _ _ (signature found)

theorem Signed.performAll (signed : session.Signed) (filed : session.Filed)
    (calls : List SessionCall) : (session.performAll calls).Signed := by
  induction calls generalizing session with
  | nil => exact signed
  | cons call rest ih =>
      cases call with
      | parse source => exact ih (signed.parse filed source) (filed.parse source)
      | parseStrict source => exact ih (signed.parse filed source) (filed.parse source)

/-- In every session the parameters of every template are the same in the table and in its
tree. -/
theorem lists_parameters (options : ParseOptions) (calls : List SessionCall) :
    (({ options := options } : Session).performAll calls).ListsParameters := by
  have signed := (signed_new options).performAll (filed_new options) calls
  intro unit tree id declaration known found
  have member := Array.mem_of_getElem? known
  obtain ⟨nodes, symbols⟩ := signed.listed tree member id declaration found
  refine ⟨nodes, symbols, fun parameter listed => ?_⟩
  obtain ⟨symbol, there, _, inside⟩ := signed.owned declaration.template parameter listed
  rw [SymbolTable.owner, there]
  exact inside

-- The second parameter is refused, and the list ends there.
example :
    let parsed := parseSource "template<class T, class T, int n> struct X;"
    parsed.table.templateParameters ⟨1⟩ = [⟨2⟩] ∧ parsed.tree.parametersIn ⟨1⟩ = [⟨2⟩] ∧
      (parsed.tree.signature? ⟨1⟩ = some (⟨1⟩, [⟨2⟩])) := by
  decide +kernel

end Session

end DeclTree
