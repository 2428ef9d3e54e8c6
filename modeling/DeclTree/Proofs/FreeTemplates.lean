import DeclTree.Proofs.TemplateCoherence

/-!
# Open templates that are free

A declaration behind template prefixes puts the outermost of the templates into the scope that
the declaration names.  This cannot fail while the templates hold no scope but one another: then
none of them lies around another scope.  Only a block of exported declarations behind a prefix
lets a parse go on in a template that holds more.
-/

namespace DeclTree

namespace SymbolTable

variable {table : SymbolTable}

/-! ## Chains of scopes -/

theorem OwnershipTree.depth_le_of_mem (tree : table.OwnershipTree) {id scope : SymbolId}
    (present : table.Has scope) (member : id ∈ scope :: table.ancestors scope) :
    table.depth id ≤ table.depth scope := by
  rcases List.mem_cons.1 member with rfl | around
  · exact Nat.le_refl _
  · have through := tree.ownedThrough_ancestors present
    obtain ⟨chain, owned, shorter⟩ := through.of_mem around
    have inside := tree.has_of_chain through present id (List.mem_cons_of_mem _ around)
    have same := owned.unique (tree.ownedThrough_ancestors inside)
    rw [depth, depth, ← same]
    exact Nat.le_of_lt shorter

/-- Scopes each of which owns the one in front of it can be put one into the next. -/
theorem OwnershipTree.nestable (tree : table.OwnershipTree) {scopes : List SymbolId}
    (chained : scopes.IsChain fun inner outer => table.owner inner = some outer) :
    table.Nestable scopes := by
  have deeper : scopes.IsChain fun inner outer =>
      table.depth outer < table.depth inner ∧ table.Has outer := by
    refine chained.imp ?_
    intro inner outer owned
    refine ⟨?_, (tree.owner_scope inner outer owned).has⟩
    rw [tree.depth_owned owned]
    exact Nat.lt_succ_self _
  have all : scopes.Pairwise fun inner outer =>
      table.depth outer < table.depth inner ∧ table.Has outer := by
    have transitive : Trans (fun inner outer => table.depth outer < table.depth inner ∧
        table.Has outer) (fun inner outer => table.depth outer < table.depth inner ∧
          table.Has outer) (fun inner outer => table.depth outer < table.depth inner ∧
            table.Has outer) := ⟨fun first second => ⟨second.1.trans first.1, second.2⟩⟩
    exact List.isChain_iff_pairwise.1 deeper
  refine all.imp ?_
  rintro inner outer ⟨less, present⟩ member
  have bound := tree.depth_le_of_mem present member
  omega

/-! ## Templates that hold no scope -/

/-- Whether some template is open in a factory, and the open ones hold no scope but one
another. -/
structure Free (table : SymbolTable) (factory : FactoryId) : Prop where
  opened : table.stackOf factory ≠ []
  bare : ∀ id template, template ∈ table.stackOf factory → table.owner id = some template →
    table.HasScope id → id ∈ table.stackOf factory

/-- Templates that are free do not lie around any other scope. -/
theorem Free.not_mem_ancestors {factory : FactoryId} (free : table.Free factory)
    (tree : table.OwnershipTree) {target : SymbolId} (scope : table.HasScope target)
    (outside : target ∉ table.stackOf factory) {template : SymbolId}
    (opened : template ∈ table.stackOf factory) : template ∉ table.ancestors target := by
  have through := tree.ownedThrough_ancestors scope.has
  generalize table.ancestors target = chain at through
  induction through with
  | outermost _ => exact List.not_mem_nil
  | @inside id outer chain owned _ ih =>
      have around : outer ∉ table.stackOf factory := fun member =>
        outside (free.bare id outer member owned scope)
      intro member
      rcases List.mem_cons.1 member with rfl | further
      · exact around opened
      · exact ih (tree.owner_scope id outer owned) around further

/-- Templates that are free can be put into any other scope. -/
theorem Free.nestable {factory : FactoryId} (free : table.Free factory)
    (orderly : table.Orderly) {home : SymbolId} (served : table.homeOf factory = some home)
    {target : SymbolId} (scope : table.HasScope target)
    (outside : target ∉ table.stackOf factory) :
    table.Nestable (table.stackOf factory ++ [target]) := by
  have tree := orderly.reachable.consistent.tree
  have inner := tree.nestable (List.isChain_append.1 (orderly.owners factory home served)).1
  refine List.pairwise_append.2 ⟨inner, List.pairwise_singleton _ _, ?_⟩
  intro template opened last member
  obtain rfl := List.mem_singleton.1 member
  rw [List.mem_cons, not_or]
  refine ⟨?_, free.not_mem_ancestors tree scope outside opened⟩
  rintro rfl
  exact outside opened

/-- A prefix is free, if the ones right in front of it are or there are none. -/
theorem Opened.free {opened : SymbolTable} {factory : FactoryId} {template : SymbolId}
    (opens : table.Opened opened factory template) (tree : table.OwnershipTree)
    (before : table.stackOf factory = [] ∨ table.Free factory) : opened.Free factory := by
  have stack : opened.stackOf factory = template :: table.stackOf factory := by
    rw [opens.frames, if_pos rfl]
  refine ⟨by simp [stack], ?_⟩
  intro id scope member owned inside
  rw [stack] at member ⊢
  rcases opens.only id inside.has with rfl | present
  · exact List.mem_cons_self
  · rw [opens.grown.owner present] at owned
    rcases List.mem_cons.1 member with rfl | around
    · rw [opens.fresh] at owned
      exact absurd (tree.owner_scope id _ owned).has table.not_has_fresh
    · rcases before with empty | free
      · simp [empty] at around
      · exact List.mem_cons_of_mem _
          (free.bare id scope around owned ((opens.grown.hasScope_iff present).1 inside))

/-- Open templates stay free while nothing is added that is a scope. -/
theorem Free.retains {after : SymbolTable} {factory : FactoryId} (free : table.Free factory)
    (retains : table.Retains after) (flat : ∀ id, after.HasScope id → table.Has id) :
    after.Free factory := by
  refine ⟨?_, ?_⟩
  · rw [retains.frames]
    exact free.opened
  · intro id template opened owned scope
    have present := flat id scope
    rw [retains.frames] at opened ⊢
    rw [retains.owner present] at owned
    exact free.bare id template opened owned ((retains.hasScope_iff present).1 scope)

theorem hasScope_recorded (kind : NodeKind) (reference : NodeRef) (id : SymbolId) :
    (table.recorded kind reference).HasScope id ↔ table.HasScope id := by
  rw [hasScope_iff_standing, standing?_recorded, hasScope_iff_standing]
  split
  · cases table.standing? id <;> rfl
  · rfl

theorem Free.recorded {factory : FactoryId} (free : table.Free factory) (kind : NodeKind)
    (reference : NodeRef) : (table.recorded kind reference).Free factory := by
  have frames := stackOf_congr (factories_recorded table kind reference) factory
  refine ⟨?_, ?_⟩
  · rw [frames]
    exact free.opened
  · intro id template opened owned scope
    rw [frames] at opened ⊢
    rw [owner_recorded] at owned
    exact free.bare id template opened owned ((hasScope_recorded kind reference id).1 scope)

/-- A template parameter is no scope. -/
theorem Free.addParameter {after : SymbolTable} {factory : FactoryId} (free : table.Free factory)
    {template parameter : SymbolId} {request : SymbolRequest}
    (plain : request.kind.templateInfo? = none) (flat : request.kind.isContainer = false)
    (added : table.addParameter template request = .ok (parameter, after)) :
    after.Free factory := by
  apply free.retains (.addParameter plain added)
  intro id scope
  obtain ⟨extended, declared, rfl⟩ := addParameter_ok added
  obtain ⟨inside, attached⟩ := attach_of_declare declared
  obtain ⟨rfl, rfl⟩ := Prod.mk.inj attached
  have before : (table.attach template request).2.HasScope id := by
    rw [hasScope_iff_standing] at scope ⊢
    rwa [standing?_update_of_eq] at scope
    intro symbol
    cases kind : symbol.kind <;>
      simp [Symbol.standing, Symbol.isTemplate, Symbol.isContainer, kind, SymbolKind.mapTemplate,
        SymbolKind.templateInfo?]
  rcases (hasScope_attach inside.has request id).1 before with ⟨_, scope⟩ | old
  · simp [flat] at scope
  · exact old.has

/-! ## Scopes that a name stands for -/

/-- Whether the scope that a name stands for, if it is given, is no open template. -/
def Clear (table : SymbolTable) (qualifier : Option SymbolId) : Prop :=
  ∀ scope ∈ qualifier, ∀ factory, scope ∉ table.stackOf factory

theorem clear_none : table.Clear none := by
  rintro _ ⟨⟩

theorem Reachable.clear_root (reached : table.Reachable) : table.Clear (some root) := by
  rintro _ ⟨⟩ factory opened
  exact (reached.framesBlank.blank factory root opened).nonRoot rfl

theorem not_isTemplate_of_scopeWithin {bound : Nat} {id scope : SymbolId}
    (found : table.scopeWithin bound id = some scope) : table.isTemplate scope = false := by
  induction bound generalizing id with
  | zero => cases found
  | succ bound ih =>
      unfold scopeWithin at found
      split at found
      · cases found
      · rename_i symbol there
        split at found
        · obtain ⟨inner, _, further⟩ := Option.bind_eq_some_iff.1 found
          exact ih further
        · cases found
        · rename_i noTemplate _
          split at found
          · obtain rfl := Option.some.inj found
            unfold isTemplate
            rw [there, Option.any_some, Symbol.isTemplate]
            cases kind : symbol.kind with
            | template info => exact absurd kind (noTemplate info)
            | _ => rfl
          · cases found

/-- Templates lead to the declaration they wrap, so no name stands for one that is open. -/
theorem Reachable.clear_scopeOf (reached : table.Reachable) {id scope : SymbolId}
    (found : table.scopeOf id = some scope) : table.Clear (some scope) := by
  rintro _ ⟨⟩ factory opened
  have template := (reached.framesBlank.blank factory scope opened).isTemplate
  rw [not_isTemplate_of_scopeWithin found] at template
  cases template

end SymbolTable

end DeclTree
