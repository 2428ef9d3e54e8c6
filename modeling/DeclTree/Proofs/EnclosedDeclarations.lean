import DeclTree.Proofs.FrameClosing
import DeclTree.Proofs.NodeCoherence

/-!
# Declarations behind template prefixes

The declaration behind template prefixes closes the frames of a factory at once.  All of them
come to wrap what is inside, and their scopes are done with.
-/

namespace DeclTree

open TemplateDecl (originOf)

/-- In a chain, every element but the first stands behind one that it is related to. -/
theorem exists_before_of_isChain {α : Type} {relation : α → α → Prop} {first last : α}
    {list : List α} (chain : (first :: list).IsChain relation) (member : last ∈ list)
    {other : α → α → Prop} (inner : list.IsChain other) : ∃ before, relation before last ∧
      (before = first ∧ list.head? = some last ∨ before ∈ list ∧ other before last) := by
  induction list generalizing first with
  | nil => cases member
  | cons next rest ih =>
      obtain ⟨related, further⟩ := List.isChain_cons_cons.1 chain
      rcases List.mem_cons.1 member with rfl | behind
      · exact ⟨first, related, .inl ⟨rfl, rfl⟩⟩
      · obtain ⟨before, holds, ⟨rfl, head⟩ | ⟨inside, also⟩⟩ := ih further behind inner.tail
        · obtain ⟨more, rfl⟩ := List.head?_eq_some_iff.1 head
          exact ⟨before, holds, .inr ⟨List.mem_cons_self, (List.isChain_cons_cons.1 inner).1⟩⟩
        · exact ⟨before, holds, .inr ⟨List.mem_cons_of_mem _ inside, also⟩⟩

namespace SymbolTable

/-- Whether the open templates of a factory have been closed around a new symbol. -/
structure Enclosed (before after : SymbolTable) (factory : FactoryId) (frames : List SymbolId) :
    Prop where
  closed : ∀ other, after.stackOf other = if factory = other then [] else before.stackOf other
  homes : ∀ other, after.homeOf other = before.homeOf other
  natures : ∀ id, before.Has id → after.nature? id = before.nature? id
  kept : ∀ id, before.Has id → id ∉ frames → after.standing? id = before.standing? id
  chain : (⟨before.size⟩ :: frames).IsChain fun inner outer => after.templated? outer = some inner
  fresh : ∃ isScope, after.nature? ⟨before.size⟩ = some (none, false, false, isScope)
  blank : after.templated? ⟨before.size⟩ = none
  absent : ∀ id, ¬ before.Has id → id ≠ ⟨before.size⟩ → after.standing? id = none

variable {table after : SymbolTable} {factory : FactoryId} {frames : List SymbolId}

theorem Wraps.enclosed {innermost : SymbolId} {outer : List SymbolId} {request : SymbolRequest}
    (reached : table.Reachable) (stack : table.stackOf factory = innermost :: outer)
    (plain : request.kind.templateInfo? = none) (noScope : request.kind ≠ .namespaceScope)
    (wraps : (table.attach innermost request).2.Wraps after factory ⟨table.size⟩
      (innermost :: outer)) : table.Enclosed after factory (innermost :: outer) := by
  have frame {id : SymbolId} (member : id ∈ innermost :: outer) : table.Has id :=
    (reached.framesBlank.blank factory id (stack ▸ member)).has
  have attached := standing?_attach (frame List.mem_cons_self) request
  have old {id : SymbolId} (present : table.Has id) : id ≠ ⟨table.size⟩ := by
    rintro rfl
    exact table.not_has_fresh present
  have standing {id : SymbolId} (present : table.Has id) :
      (table.attach innermost request).2.standing? id = table.standing? id := by
    rw [attached, if_neg (old present)]
  refine ⟨wraps.closed, wraps.homes, ?_, ?_, wraps.chain, ?_, ?_, ?_⟩
  · intro id present
    rw [wraps.natures, nature?, standing present, ← nature?]
  · intro id present outside
    rw [wraps.kept id, standing present]
    intro member
    rcases List.mem_cons.1 member with fresh | inside
    · exact old present fresh
    · exact outside inside
  · refine ⟨(Symbol.ofRequest (some innermost) request).isContainer, ?_⟩
    rw [wraps.natures, nature?, attached, if_pos rfl]
    have noTemplate : (Symbol.ofRequest (some innermost) request).isTemplate = false := by
      simp [Symbol.isTemplate, Symbol.ofRequest, plain]
    have noNamespace : ((Symbol.ofRequest (some innermost) request).kind ==
        SymbolKind.namespaceScope) = false := by
      simpa [Symbol.ofRequest] using noScope
    simp only [Option.map_some, Symbol.standing, noTemplate, noNamespace]
    rfl
  · rw [wraps.innermost, templated?_eq_standing, attached, if_pos rfl]
    simp [Symbol.standing, Symbol.ofRequest, plain]
  · intro id absent other
    rw [wraps.kept id, attached, if_neg other]
    · simpa [has_iff_standing] using absent
    · intro member
      rcases List.mem_cons.1 member with fresh | inside
      · exact other fresh
      · exact absent (frame inside)

section Natures

variable (table : SymbolTable) (id : SymbolId)

theorem has_iff_nature : table.Has id ↔ (table.nature? id).isSome := by
  rw [has_iff_standing]
  simp [nature?]

theorem originOf_eq_nature : originOf table id = table.nature? id >>= Prod.fst := by
  rw [originOf_eq_standing, nature?]
  cases table.standing? id <;> rfl

theorem isNamespace_eq_nature :
    table.isNamespace id = (table.nature? id).any fun nature => nature.2.1 := by
  rw [isNamespace_eq_standing, nature?]
  cases table.standing? id <;> rfl

theorem not_isNamespace_of_isTemplate {table : SymbolTable} {id : SymbolId}
    (template : table.isTemplate id = true) : table.isNamespace id = false := by
  unfold isTemplate at template
  unfold isNamespace
  cases found : table.get? id with
  | none => rfl
  | some symbol =>
      simp only [found, Option.any_some, Symbol.isTemplate] at template ⊢
      cases kind : symbol.kind <;> simp_all [SymbolKind.templateInfo?]

end Natures

namespace Enclosed

variable (enclosed : table.Enclosed after factory frames)

include enclosed

theorem has {id : SymbolId} (present : table.Has id) : after.Has id := by
  rw [has_iff_nature, enclosed.natures id present, ← has_iff_nature]
  exact present

theorem originOf {id : SymbolId} (present : table.Has id) :
    TemplateDecl.originOf after id = TemplateDecl.originOf table id := by
  rw [originOf_eq_nature, enclosed.natures id present, ← originOf_eq_nature]

theorem isNamespace {id : SymbolId} (present : table.Has id) :
    after.isNamespace id = table.isNamespace id := by
  rw [isNamespace_eq_nature, enclosed.natures id present, ← isNamespace_eq_nature]

theorem has_fresh : after.Has ⟨table.size⟩ := by
  obtain ⟨isScope, nature⟩ := enclosed.fresh
  rw [has_iff_nature, nature]
  rfl

theorem originOf_fresh : TemplateDecl.originOf after ⟨table.size⟩ = none := by
  obtain ⟨isScope, nature⟩ := enclosed.fresh
  rw [originOf_eq_nature, nature]
  rfl

theorem isNamespace_fresh : after.isNamespace ⟨table.size⟩ = false := by
  obtain ⟨isScope, nature⟩ := enclosed.fresh
  rw [isNamespace_eq_nature, nature]
  rfl

theorem has_cases {id : SymbolId} (present : after.Has id) :
    table.Has id ∨ id = ⟨table.size⟩ := by
  by_contra neither
  rw [not_or] at neither
  rw [has_iff_standing, enclosed.absent id neither.1 neither.2] at present
  cases present

/-- What a template wraps: a template that was closed wraps the one inside it or the new
symbol, and any other one what it wrapped. -/
theorem templated?_cases {template inner : SymbolId}
    (wraps : after.templated? template = some inner) {relation : SymbolId → SymbolId → Prop}
    (related : frames.IsChain relation) :
    (template ∉ frames ∧ table.templated? template = some inner) ∨
      (frames.head? = some template ∧ inner = ⟨table.size⟩) ∨
        (inner ∈ frames ∧ relation inner template) := by
  by_cases closed : template ∈ frames
  · obtain ⟨before, same, first | inside⟩ :=
      exists_before_of_isChain enclosed.chain closed related
    · obtain ⟨rfl, head⟩ := first
      exact .inr (.inl ⟨head, Option.some.inj (wraps.symm.trans same)⟩)
    · rw [← Option.some.inj (wraps.symm.trans same)] at inside
      exact .inr (.inr inside)
  · left
    refine ⟨closed, ?_⟩
    by_cases fresh : template = ⟨table.size⟩
    · rw [fresh, enclosed.blank] at wraps
      cases wraps
    · by_cases present : table.Has template
      · rw [templated?_eq_standing, enclosed.kept template present closed] at wraps
        rw [templated?_eq_standing]
        exact wraps
      · rw [templated?_eq_standing, enclosed.absent template present fresh] at wraps
        cases wraps

end Enclosed

/-- Closing the templates of a factory keeps a table in order, if no template is open in two
factories. -/
theorem Orderly.enclosed (orderly : table.Orderly)
    (enclosed : table.Enclosed after factory (table.stackOf factory))
    (apart : ∀ other id, id ∈ table.stackOf factory → id ∈ table.stackOf other → factory = other)
    (reached : after.Reachable) : after.Orderly := by
  have frame {id : SymbolId} (member : id ∈ table.stackOf factory) :=
    orderly.reachable.framesBlank.blank factory id member
  have noNamespace {id : SymbolId} (member : id ∈ table.stackOf factory) :
      after.isNamespace id = false := by
    rw [enclosed.isNamespace (frame member).has]
    exact not_isNamespace_of_isTemplate (frame member).isTemplate
  refine ⟨reached, ?_, ?_, ?_⟩
  · intro id owner isNamespace owned
    rcases enclosed.has_cases (has_of_owner owned) with present | rfl
    · have outside : id ∉ table.stackOf factory := by
        intro member
        rw [noNamespace member] at isNamespace
        cases isNamespace
      rw [enclosed.isNamespace present] at isNamespace
      rw [owner_eq_standing, enclosed.kept id present outside, ← owner_eq_standing] at owned
      exact orderly.namespaces id owner isNamespace owned
    · rw [enclosed.isNamespace_fresh] at isNamespace
      cases isNamespace
  · intro template inner wraps
    rcases enclosed.templated?_cases wraps enclosed.chain.tail with
      ⟨_, before⟩ | ⟨_, rfl⟩ | ⟨inside, _⟩
    · rw [enclosed.isNamespace (orderly.reachable.consistent.has_templated before)]
      exact orderly.wraps template inner before
    · exact enclosed.isNamespace_fresh
    · exact noNamespace inside
  · intro other home served
    rw [enclosed.homes] at served
    rw [enclosed.closed]
    split
    · exact .singleton _
    · rename_i different
      obtain ⟨inner, _, outermost⟩ := List.isChain_append.1 (orderly.owners other home served)
      have owner {id : SymbolId} (member : id ∈ table.stackOf other) :
          after.owner id = table.owner id := by
        have outside : id ∉ table.stackOf factory := fun closed =>
          different (apart other id closed member)
        rw [owner_eq_standing, enclosed.kept id (orderly.reachable.has_frame member) outside,
          ← owner_eq_standing]
      refine List.isChain_append.2 ⟨?_, .singleton _, ?_⟩
      · refine inner.imp_of_mem_imp ?_
        intro first second member _ owned
        rw [owner member, owned]
      · intro last member next same
        rw [owner (List.mem_of_getLast? member)]
        exact outermost last member next same

end SymbolTable

theorem NodeKind.exists_symbol_of_isEntity {kind : NodeKind} (entity : kind.isEntity = true) :
    ∃ symbol, kind.symbol? = some symbol := by
  cases kind <;> simp_all [NodeKind.isEntity, NodeKind.symbol?]

/-- Closing the templates of a factory keeps track of what they wrap. -/
theorem Traced.enclosed {tree : Tree} {table after : SymbolTable} {factory : FactoryId}
    (traced : Traced tree table) (orderly : table.Orderly)
    (nested : (table.stackOf factory).IsChain (NodeInside tree table))
    (enclosed : table.Enclosed after factory (table.stackOf factory)) : Traced tree after := by
  refine ⟨traced.children, ?_, ?_, ?_⟩
  · intro node declaration found
    have origin := traced.origins node declaration found
    rw [enclosed.originOf (SymbolTable.has_of_originOf origin), origin]
  · intro node declaration child kind found member there entity
    have before := traced.entities node declaration child kind found member there entity
    have present := SymbolTable.has_of_originOf (traced.origins node declaration found)
    -- An open template wraps nothing, so no declaration stands in its node.
    have outside : declaration.template ∉ table.stackOf factory := by
      intro opened
      obtain ⟨symbol, known⟩ := NodeKind.exists_symbol_of_isEntity entity
      rw [(orderly.reachable.framesBlank.blank factory _ opened).unbound, known] at before
      cases before
    rw [SymbolTable.templated?_eq_standing, enclosed.kept _ present outside,
      ← SymbolTable.templated?_eq_standing, before]
  · intro node declaration inner origin found wraps placed
    rcases enclosed.templated?_cases wraps nested with
      ⟨_, before⟩ | ⟨_, rfl⟩ | ⟨inside, around, other, child, there, same, member, first, symbol⟩
    · rw [enclosed.originOf (orderly.reachable.consistent.has_templated before)] at placed
      exact traced.wrapped node declaration inner origin found before placed
    · rw [enclosed.originOf_fresh] at placed
      cases placed
    · obtain rfl := traced.node_eq there found same
      rw [enclosed.originOf (orderly.reachable.has_frame inside), first] at placed
      exact ⟨child, member, (Option.some.inj placed).symm, symbol⟩

/-! ## The scopes of open templates -/

namespace Coherent

variable {tree : Tree} {table after : SymbolTable} {frames : List ScopeFrame}
  {factory : FactoryId}

/-- An open template has a scope around the cursor. -/
theorem exists_frame (coherent : Coherent tree table frames) {template : SymbolId}
    (opened : template ∈ table.stackOf factory) :
    ∃ frame ∈ frames, frame.symbol = template ∧ frame.kind = .template ∧
      frame.opens factory = true := by
  have listed := (coherent.opened factory).subset opened
  obtain ⟨frame, selected, same⟩ := List.mem_map.1 listed
  obtain ⟨member, opens⟩ := List.mem_filter.1 selected
  obtain ⟨container, target⟩ := ScopeFrame.opens_iff.1 opens
  refine ⟨frame, member, same, (coherent.seated frame member).isTemplate ?_, opens⟩
  rw [target]
  simp

/-- No template is open in two factories. -/
theorem factory_eq (coherent : Coherent tree table frames) {other : FactoryId}
    {template : SymbolId} (here : template ∈ table.stackOf factory)
    (there : template ∈ table.stackOf other) : factory = other := by
  obtain ⟨first, left, sameFirst, one, opens⟩ := coherent.exists_frame here
  obtain ⟨second, right, sameSecond, two, leads⟩ := coherent.exists_frame there
  obtain rfl := ScopeFrame.eq_of_inside coherent.inside left right one two
    (sameFirst.trans sameSecond.symm)
  obtain ⟨container, target⟩ := ScopeFrame.opens_iff.1 opens
  obtain ⟨container', target'⟩ := ScopeFrame.opens_iff.1 leads
  rw [target] at target'
  exact (DeclareTarget.template.inj target').1

/-- The open templates of a factory are closed around a new symbol. -/
theorem enclosed (coherent : Coherent tree table frames)
    (enclosed : table.Enclosed after factory (table.stackOf factory))
    (reached : after.Reachable) : Coherent tree after frames where
  orderly := coherent.orderly.enclosed enclosed (fun _ _ => coherent.factory_eq) reached
  traced := coherent.traced.enclosed coherent.orderly (coherent.nested factory) enclosed
  nested other := by
    rw [enclosed.closed]
    split
    · exact .nil
    · refine (coherent.nested other).imp fun inner outer inside => inside.mono (.refl tree) ?_
      intro id origin known
      rw [enclosed.originOf (SymbolTable.has_of_originOf known), known]
  seated frame member := by
    have seated := coherent.seated frame member
    refine ⟨enclosed.has seated.present, seated.template, seated.plain, ?_⟩
    intro other container leads
    rw [enclosed.homes]
    exact seated.target other container leads
  inside := coherent.inside
  shares := coherent.shares
  opened other := by
    rw [enclosed.closed]
    split
    · exact List.nil_prefix
    · exact coherent.opened other
  settled := coherent.settled

/-- The innermost templates are done with, once none of theirs is open. -/
theorem consume (coherent : Coherent tree table frames) {container : SymbolId}
    (leads : ∀ frame ∈ frames.head?, frame.target = .template factory container)
    (closed : table.stackOf factory = []) : Coherent tree table (consumeFrames frames) where
  orderly := coherent.orderly
  traced := coherent.traced
  nested := coherent.nested
  seated frame member := by
    obtain ⟨earlier, entered, remains⟩ :=
      ScopeStack.exists_remains (ScopeStack.remains_consumeFrames frames) member
    have seated := coherent.seated earlier entered
    rcases remains with rfl | ⟨template, rfl⟩
    · exact seated
    · refine ⟨seated.present, fun _ => ⟨by simp, (seated.template template).2⟩, ?_, by simp⟩
      intro plain
      exact absurd template plain
  inside := pairwise_consumeFrames coherent.inside
  shares := isChain_consumeFrames coherent.shares
  opened other := by
    by_cases same : factory = other
    · rw [← same, closed]
      exact List.nil_prefix
    · have unchanged : opensOf other (consumeFrames frames) = opensOf other frames :=
        opensOf_consumeFrames coherent.shares (fun frame head _ => .inl (leads frame head)) same
      rw [unchanged]
      exact coherent.opened other
  settled node declaration found outside := by
    apply coherent.settled node declaration found
    intro frame member same
    have listed : node ∈ (consumeFrames frames).map ScopeFrame.node := by
      rw [map_node_consumeFrames, ← same]
      exact List.mem_map_of_mem member
    obtain ⟨later, remaining, equal⟩ := List.mem_map.1 listed
    exact outside later remaining equal

end Coherent

end DeclTree
