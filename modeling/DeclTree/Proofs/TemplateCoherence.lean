import DeclTree.Proofs.EnclosedDeclarations

/-!
# Templates that are opened and left

What a parse does with a template keeps scopes, nodes and open templates together: a prefix
opens a frame, a node and a scope; its parameters go into the node; and when the scope is left,
a frame that is still open is given up and the node is bound to the last declaration in it.
-/

namespace DeclTree

open TemplateDecl (originOf)

/-! ## Opening a template -/

namespace SymbolTable

variable {table opened : SymbolTable} {factory : FactoryId} {unit : Option UnitId}
  {template : SymbolId}

/-- What a new template is. -/
theorem standing?_openTemplate (consistent : table.Consistent)
    (opens : table.openTemplate factory unit = .ok (template, opened)) {home : SymbolId}
    (served : table.homeOf factory = some home) :
    template = ⟨table.size⟩ ∧ ∃ standing, opened.standing? template = some standing ∧
      standing.owner = some ((table.stackOf factory).head?.getD home) ∧
        standing.origin = none ∧ standing.templated = none := by
  obtain ⟨frames, found, rfl, rfl⟩ := openTemplate_ok opens
  obtain ⟨other, there, rfl⟩ := Option.map_eq_some_iff.1 served
  obtain rfl := Option.some.inj (found.symm.trans there)
  have inside := (consistent.parent_scope found).has
  have stack : table.stackOf factory = frames.stack := by simp [stackOf, found]
  refine ⟨rfl, (Symbol.ofRequest (some (frames.current?.getD frames.container))
    { name := "", kind := .template {}, unit := unit }).standing, ?_, ?_, rfl, rfl⟩
  · have attached := standing?_attach inside
      { name := "", kind := .template {}, unit := unit } ⟨table.size⟩
    rw [if_pos rfl] at attached
    exact attached
  · rw [stack]
    rfl

/-- A new template stands inside the innermost open one. -/
theorem Orderly.openTemplate (orderly : table.Orderly)
    (opens : table.openTemplate factory unit = .ok (template, opened))
    (reached : opened.Reachable) : opened.Orderly := by
  have grown := Extends.openTemplate orderly.reachable.consistent opens
  apply orderly.extended grown reached
  intro other home served
  rw [stackOf_openTemplate opens]
  split
  · rename_i same
    subst same
    obtain ⟨frames, found, _, changed⟩ := openTemplate_ok opens
    have before : table.homeOf factory = some frames.container := by simp [homeOf, found]
    obtain rfl := Option.some.inj ((grown.homes factory _ before).symm.trans served)
    obtain ⟨_, standing, there, owner, _⟩ :=
      standing?_openTemplate orderly.reachable.consistent opens before
    rw [List.cons_append]
    refine List.isChain_cons.2 ⟨?_, orderly.owners_extended grown served⟩
    intro next first
    rw [owner_eq_standing, there]
    simp only [Option.bind_eq_bind, Option.bind_some, owner]
    rw [List.head?_append, Option.mem_def] at first
    cases head : (table.stackOf factory).head? with
    | none => simpa [head] using first
    | some top => simpa [head] using first
  · exact orderly.owners_extended grown served

end SymbolTable

/-- Whether a template prefix in a scope opens a frame in a factory: the one that the scope leads
to, or else the one of the scope itself. -/
structure ScopeFrame.Offers (table : SymbolTable) (frame : ScopeFrame) (factory : FactoryId)
    (container : SymbolId) : Prop where
  home : table.homeOf factory = some container
  leads : frame.target = .template factory container ∨
    (container = frame.symbol ∧ ∀ other scope, frame.target ≠ .template other scope)

namespace Coherent

variable {tree : Tree} {table opened : SymbolTable} {inner : ScopeFrame}
  {outer : List ScopeFrame} {factory : FactoryId} {container : SymbolId}

/-- No template is open in the factory of the innermost scope itself: its scope would stand
behind the one that the factory serves. -/
theorem stackOf_eq_nil (coherent : Coherent tree table (inner :: outer))
    (served : table.homeOf factory = some inner.symbol) : table.stackOf factory = [] := by
  apply List.eq_nil_iff_forall_not_mem.2
  intro top member
  obtain ⟨frame, around, same, _, opens⟩ := coherent.exists_frame member
  obtain ⟨container, target⟩ := ScopeFrame.opens_iff.1 opens
  obtain ⟨home, below⟩ := (coherent.seated frame around).target factory container target
  obtain rfl := Option.some.inj (served.symm.trans home)
  rcases List.mem_cons.1 around with rfl | outside
  · omega
  · have behind := ((List.pairwise_cons.1 coherent.inside).1 frame outside).symbol
    omega

/-- The innermost open template of the factory is the one that the prefix stands right behind. -/
theorem stack_head (coherent : Coherent tree table (inner :: outer))
    (offers : inner.Offers table factory container) {top : SymbolId}
    (first : (table.stackOf factory).head? = some top) :
    top = inner.symbol ∧ inner.kind = .template := by
  obtain ⟨rest, stack⟩ := List.head?_eq_some_iff.1 first
  rcases offers.leads with target | ⟨rfl, _⟩
  · have listed := coherent.opened factory
    have opens : inner.opens factory = true := ScopeFrame.opens_iff.2 ⟨container, target⟩
    rw [stack, opensOf_cons, if_pos opens] at listed
    refine ⟨(List.cons_prefix_cons.1 listed).1, ?_⟩
    apply (coherent.seated inner List.mem_cons_self).isTemplate
    rw [target]
    simp
  · rw [coherent.stackOf_eq_nil offers.home] at stack
    cases stack

end Coherent

/-- Whether a template has been opened in a table: it is new and has no node yet. -/
structure SymbolTable.Opened (table opened : SymbolTable) (factory : FactoryId)
    (template : SymbolId) : Prop where
  grown : table.Extends opened
  fresh : template = ⟨table.size⟩
  frames : ∀ other, opened.stackOf other =
    if factory = other then template :: table.stackOf other else table.stackOf other
  present : opened.Has template
  only : ∀ id, opened.Has id → id = template ∨ table.Has id
  unplaced : originOf opened template = none
  unwrapped : ∀ other, opened.templated? other ≠ some template
  blank : opened.templated? template = none

theorem SymbolTable.Orderly.opened {table opened : SymbolTable} (orderly : table.Orderly)
    {factory : FactoryId} {home template : SymbolId} (served : table.homeOf factory = some home)
    {unit : Option UnitId} (opens : table.openTemplate factory unit = .ok (template, opened)) :
    table.Opened opened factory template := by
  have consistent := orderly.reachable.consistent
  have grown := Extends.openTemplate consistent opens
  obtain ⟨fresh, standing, there, _, origin, blank⟩ :=
    standing?_openTemplate consistent opens served
  refine ⟨grown, fresh, stackOf_openTemplate opens, ?_, ?_, ?_, ?_, ?_⟩
  · rw [has_iff_standing, there]
    rfl
  · intro id present
    obtain ⟨frames, _, rfl, rfl⟩ := openTemplate_ok opens
    exact (has_attach table _ _ id).1 present
  · rw [originOf_eq_standing, there]
    exact origin
  · intro other wraps
    rw [grown.templated?_eq, fresh] at wraps
    exact table.not_has_fresh (consistent.has_templated wraps)
  · rw [templated?_eq_standing, there]
    exact blank

namespace Coherent

variable {tree : Tree} {table opened : SymbolTable} {inner : ScopeFrame}
  {outer : List ScopeFrame} {factory : FactoryId} {container template : SymbolId}
  {declaration : TemplateDecl}

theorem nested_openTemplate (coherent : Coherent tree table (inner :: outer))
    (offers : inner.Offers table factory container)
    (opens : table.Opened opened factory declaration.template) (start : Span)
    (other : FactoryId) :
    (opened.stackOf other).IsChain
      (NodeInside (tree.add (.template declaration) inner.node start).2
        (opened.recorded (.template declaration) (tree.ref ⟨tree.size⟩))) := by
  have seated := coherent.seated inner List.mem_cons_self
  have keeps := Tree.Keeps.add tree (.template declaration) seated.has_node start
  have outside : (table.stackOf other).IsChain
      (NodeInside (tree.add (.template declaration) inner.node start).2
        (opened.recorded (.template declaration) (tree.ref ⟨tree.size⟩))) := by
    refine (coherent.nested other).imp fun _ _ inside => inside.mono keeps ?_
    intro id origin known
    apply SymbolTable.originOf_recorded_of_some
    rw [opens.grown.originOf (SymbolTable.has_of_originOf known), known]
  rw [opens.frames]
  split
  · rename_i same
    subst same
    refine List.isChain_cons.2 ⟨?_, outside⟩
    intro top first
    obtain ⟨rfl, isTemplate⟩ := coherent.stack_head offers first
    obtain ⟨_, around, found, symbol, _⟩ := seated.template isTemplate
    obtain ⟨changed, still, same⟩ := keeps.templates inner.node around found
    refine ⟨inner.node, changed, ⟨tree.size⟩, still, same.trans symbol, ?_, ?_, ?_⟩
    · exact (tree.mem_children_add _ seated.has_node start).2 (.inr ⟨rfl, rfl⟩)
    · rw [SymbolTable.originOf_recorded_of_none opens.present opens.unplaced]
      exact if_pos rfl
    · rw [Tree.faceAt, tree.kindAt_add_new]
      rfl
  · exact outside

/-- The node of a new template may stand anywhere. -/
theorem belongs_openTemplate {parent : NodeId} (present : tree.Has parent)
    (opens : table.Opened opened factory declaration.template) :
    (NodeKind.template declaration).Belongs tree opened parent := by
  refine ⟨present, ?_, by simp [NodeKind.isEntity], ?_⟩
  · intro symbol other known _ wraps
    obtain rfl : declaration.template = symbol := Option.some.inj known
    exact absurd wraps (opens.unwrapped other)
  · rintro _ ⟨⟩
    exact ⟨opens.present, opens.unplaced, opens.blank⟩

/-- The scope of a new template. -/
theorem seated_openTemplate (coherent : Coherent tree table (inner :: outer))
    (home : table.homeOf factory = some container)
    (opens : table.Opened opened factory declaration.template)
    (phase : declaration.phase = .opened) (owned : declaration.owned = none) (start : Span) :
    ScopeFrame.Seated (tree.add (.template declaration) inner.node start).2
      (opened.recorded (.template declaration) (tree.ref ⟨tree.size⟩))
      ⟨⟨tree.size⟩, declaration.template, .template factory container, .template⟩ := by
  refine ⟨(SymbolTable.has_recorded _ _ _ _).2 opens.present, fun _ => ⟨by simp, ?_⟩,
    fun plain => absurd rfl plain, ?_⟩
  · exact ⟨declaration, tree.kindAt_add_new _ _ _, rfl, phase, owned⟩
  · rintro _ _ ⟨⟩
    rw [SymbolTable.homeOf_congr (SymbolTable.factories_recorded _ _ _), opens.fresh]
    exact ⟨opens.grown.homes factory container home,
      (table.has_iff_lt container).1 (coherent.orderly.reachable.has_home home)⟩

/-- A template prefix opens a frame, a node and a scope. -/
theorem openTemplate (coherent : Coherent tree table (inner :: outer))
    (offers : inner.Offers table factory container) {unit : Option UnitId}
    (opens : table.openTemplate factory unit = .ok (declaration.template, opened))
    (phase : declaration.phase = .opened) (owned : declaration.owned = none)
    (reachedOpened : opened.Reachable) (start : Span)
    (reached : (opened.recorded (.template declaration) (tree.ref ⟨tree.size⟩)).Reachable) :
    Coherent (tree.add (.template declaration) inner.node start).2
      (opened.recorded (.template declaration) (tree.ref ⟨tree.size⟩))
      (⟨⟨tree.size⟩, declaration.template, .template factory container, .template⟩ ::
        inner :: outer) := by
  have facts := coherent.orderly.opened offers.home opens
  have orderly := coherent.orderly.openTemplate opens reachedOpened
  have seated := coherent.seated inner List.mem_cons_self
  have belongs := belongs_openTemplate seated.has_node facts
  have frames (other : FactoryId) := SymbolTable.stackOf_congr
    (SymbolTable.factories_recorded opened (.template declaration) (tree.ref ⟨tree.size⟩)) other
  constructor
  · exact orderly.recorded _ _ reached
  · exact (coherent.traced.extended coherent.orderly facts.grown).add orderly belongs start
  · intro other
    rw [frames]
    exact coherent.nested_openTemplate offers facts start other
  · intro frame member
    rcases List.mem_cons.1 member with rfl | earlier
    · exact coherent.seated_openTemplate offers.home facts phase owned start
    · exact ((coherent.seated frame earlier).extended facts.grown).add _ _ _ _
  · refine List.pairwise_cons.2 ⟨?_, coherent.inside⟩
    intro frame member
    rw [facts.fresh]
    exact (coherent.seated frame member).inside_fresh _ _
  · refine List.isChain_cons_cons.2 ⟨?_, coherent.shares⟩
    intro _ isTemplate
    rcases offers.leads with target | ⟨_, elsewhere⟩
    · exact .inl target
    · cases target : inner.target with
      | container => exact absurd target (seated.template isTemplate).1
      | template other scope => exact absurd target (elsewhere other scope)
      | consumed => exact .inr rfl
  · intro other
    rw [frames, facts.frames, opensOf_cons]
    by_cases same : factory = other
    · subst same
      simpa [ScopeFrame.opens] using coherent.opened factory
    · simpa [ScopeFrame.opens, same] using coherent.opened other
  · intro node other found outside
    rcases tree.kindAt_add_cases found with before | ⟨new, _⟩
    · exact coherent.settled_add seated.has_node
        (fun _ _ => ⟨inner, List.mem_cons_self, rfl⟩) start before
        fun frame member => outside frame (List.mem_cons_of_mem _ member)
    · exact absurd new.symm (outside _ List.mem_cons_self)

end Coherent

/-! ## Leaving a template -/

namespace SymbolTable

variable {table : SymbolTable} {factory : FactoryId} {template : SymbolId}

theorem stackOf_discardTemplate (other : FactoryId) :
    (table.discardTemplate factory template).stackOf other = if factory = other then
      ((table.factory? other).map fun frames => (frames.discard template).stack).getD []
      else table.stackOf other :=
  stackOf_updateFactory table factory other _

theorem stackOf_discardTemplate_cons {outer : List SymbolId}
    (stack : table.stackOf factory = template :: outer) :
    (table.discardTemplate factory template).stackOf factory = outer := by
  rw [stackOf_discardTemplate, if_pos rfl]
  unfold stackOf at stack
  cases found : table.factory? factory with
  | none => simp [found] at stack
  | some frames =>
      simp only [found, Option.map_some, Option.getD_some] at stack ⊢
      exact frames.stack_discard_cons stack

theorem discardTemplate_of_not_mem (outside : template ∉ table.stackOf factory) :
    table.discardTemplate factory template = table := by
  apply discardTemplate_of_not_pending
  unfold stackOf at outside
  cases found : table.factory? factory with
  | none => rfl
  | some frames => simpa [found, TemplateFactory.isPending] using outside

/-- Giving up a template leaves all symbols as they are. -/
theorem Extends.discardTemplate (table : SymbolTable) (factory : FactoryId)
    (template : SymbolId) : table.Extends (table.discardTemplate factory template) where
  standings _ _ := rfl
  homes other home served := by
    rw [homeOf_discardTemplate]
    exact served
  added id standing absent there := by
    have before : table.standing? id = some standing := there
    rw [has_iff_standing, before] at absent
    exact absurd rfl absent

theorem Orderly.discardTemplate (orderly : table.Orderly)
    (reached : (table.discardTemplate factory template).Reachable) :
    (table.discardTemplate factory template).Orderly := by
  have grown := Extends.discardTemplate table factory template
  apply orderly.extended grown reached
  intro other home served
  apply (orderly.owners_extended grown served).suffix
  exact List.suffix_append_self_iff.2 (table.stacksWithin_discardTemplate factory template other)

end SymbolTable

namespace Coherent

variable {tree later : Tree} {table : SymbolTable} {frame : ScopeFrame}
  {outer : List ScopeFrame} {factory : FactoryId} {container : SymbolId}
  {change : TemplateDecl → TemplateDecl}

/-- Behind a template that is given up, only those around it are open. -/
theorem opened_close (coherent : Coherent tree table (frame :: outer))
    (isTemplate : frame.kind = .template)
    (leads : frame.target = .template factory container ∨ frame.target = .consumed)
    (other : FactoryId) :
    (table.discardTemplate factory frame.symbol).stackOf other <+: opensOf other outer := by
  have opened := coherent.opened other
  rw [opensOf_cons] at opened
  rcases leads with target | consumed
  · have opens : frame.opens other = decide (factory = other) := by
      simp only [ScopeFrame.opens, target]
      exact beq_eq_decide factory other
    rw [opens] at opened
    by_cases same : factory = other
    · subst same
      rw [if_pos (by simp), List.prefix_cons_iff] at opened
      rcases opened with empty | ⟨rest, stack, further⟩
      · have none := table.stacksWithin_discardTemplate factory frame.symbol factory
        rw [empty, List.suffix_nil] at none
        rw [none]
        exact List.nil_prefix
      · rw [SymbolTable.stackOf_discardTemplate_cons stack]
        exact further
    · rw [if_neg (by simpa using same)] at opened
      rw [SymbolTable.stackOf_discardTemplate, if_neg same]
      exact opened
  · have closed (factory : FactoryId) : frame.opens factory = false := by
      simp [ScopeFrame.opens, consumed]
    have outside : frame.symbol ∉ table.stackOf factory := by
      intro member
      obtain ⟨other, around, same, kind, opens⟩ := coherent.exists_frame member
      obtain rfl := ScopeFrame.eq_of_inside coherent.inside around List.mem_cons_self kind
        isTemplate same
      rw [closed] at opens
      cases opens
    rw [SymbolTable.discardTemplate_of_not_mem outside]
    rwa [closed] at opened

/-- A template is left: if it is still open it is given up, and its node is settled. -/
theorem close (coherent : Coherent tree table (frame :: outer))
    (isTemplate : frame.kind = .template)
    (leads : frame.target = .template factory container ∨ frame.target = .consumed)
    (amends : tree.Amends later frame.node change)
    (settles : ∀ declaration, tree.kindAt frame.node = some (.template declaration) →
      (change declaration).template = declaration.template ∧
        (change declaration).SettledIn tree frame.node)
    (reached : (table.discardTemplate factory frame.symbol).Reachable) :
    Coherent later (table.discardTemplate factory frame.symbol) outer := by
  have same (declaration : TemplateDecl)
      (found : tree.kindAt frame.node = some (.template declaration)) :=
    (settles declaration found).1
  have grown := SymbolTable.Extends.discardTemplate table factory frame.symbol
  have orderly := coherent.orderly.discardTemplate reached
  have traced := (coherent.traced.extended coherent.orderly grown).amend amends same
  obtain ⟨around, further⟩ := List.pairwise_cons.1 coherent.inside
  refine ⟨orderly, traced, ?_, ?_, further, coherent.shares.tail,
    coherent.opened_close isTemplate leads, ?_⟩
  · intro other
    have before := (coherent.nested other).suffix
      (table.stacksWithin_discardTemplate factory frame.symbol other)
    refine before.imp fun _ _ inside => inside.mono (amends.keeps same) ?_
    intro id origin known
    exact known
  · intro other member
    have seated := coherent.seated other (List.mem_cons_of_mem _ member)
    have apart : frame.node ≠ other.node := by
      intro equal
      have earlier := (around other member).node
      rw [equal] at earlier
      omega
    have kinds : later.kindAt other.node = tree.kindAt other.node := by
      rw [amends.kinds, if_neg apart]
    refine ⟨grown.has seated.present, ?_, ?_, ?_⟩
    · rw [kinds]
      exact seated.template
    · rw [kinds]
      exact seated.plain
    · exact (seated.extended grown).target
  · intro node changed found outside
    obtain ⟨declaration, before, rfl⟩ := amends.exists_template found
    unfold TemplateDecl.SettledIn
    rw [ParseM.ownedSymbol?_amends amends same]
    split
    · rename_i here
      subst here
      exact (settles declaration before).2
    · rename_i elsewhere
      apply coherent.settled node declaration before
      intro other member
      rcases List.mem_cons.1 member with rfl | outer
      · exact elsewhere
      · exact outside other outer

end Coherent

end DeclTree
