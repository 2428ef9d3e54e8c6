import DeclTree.Proofs.OwnerChain

/-!
# Ownership is a tree

Ownership is kept twice: every symbol names its owner, and every scope lists
its members.  The two agree and form a tree around the global scope.  Adding a
symbol to a scope and moving one to a scope outside it keep this, and so does
every change that touches neither owners nor lists of members.
-/

namespace DeclTree

namespace SymbolTable

/-- Owners and lists of members agree and form a tree around the global
scope. -/
structure OwnershipTree (table : SymbolTable) : Prop where
  root_scope : table.HasScope root
  root_free : table.owner root = none
  owned : ∀ id, table.Has id → id ≠ root → ∃ scope, table.owner id = some scope
  owner_scope : ∀ id scope, table.owner id = some scope → table.HasScope scope
  nodup_children : ∀ scope, (table.children scope).Nodup
  mem_children : ∀ scope id, id ∈ table.children scope ↔ table.owner id = some scope
  chain : ∀ id, table.Has id → ∃ chain, table.OwnedThrough id chain

/-- What ownership says of a symbol: its owner and, if it is a scope, its
members. -/
def shape (table : SymbolTable) (id : SymbolId) :
    Option (Option SymbolId × Option (List SymbolId)) :=
  (table.get? id).map fun symbol => (symbol.owner, symbol.members.map Members.order)

theorem owner_eq_shape (table : SymbolTable) (id : SymbolId) :
    table.owner id = (table.shape id).bind Prod.fst := by
  simp only [owner, shape]
  cases table.get? id <;> rfl

theorem has_iff_shape (table : SymbolTable) (id : SymbolId) :
    table.Has id ↔ (table.shape id).isSome := by
  simp [Has, shape]

theorem hasScope_iff_shape (table : SymbolTable) (id : SymbolId) :
    table.HasScope id ↔ ((table.shape id).bind Prod.snd).isSome := by
  simp only [HasScope, members?, shape]
  cases table.get? id <;> simp

theorem children_eq_shape (table : SymbolTable) (id : SymbolId) :
    table.children id = ((table.shape id).bind Prod.snd).getD [] := by
  simp only [children, members?, shape]
  cases table.get? id <;> simp

/-- Ownership stays a tree under changes that keep owners and members. -/
theorem OwnershipTree.congr {before after : SymbolTable} (tree : before.OwnershipTree)
    (same : ∀ id, after.shape id = before.shape id) : after.OwnershipTree := by
  have owner (id : SymbolId) : after.owner id = before.owner id := by
    rw [owner_eq_shape, owner_eq_shape, same]
  have has (id : SymbolId) : after.Has id ↔ before.Has id := by
    rw [has_iff_shape, has_iff_shape, same]
  have scope (id : SymbolId) : after.HasScope id ↔ before.HasScope id := by
    rw [hasScope_iff_shape, hasScope_iff_shape, same]
  have children (id : SymbolId) : after.children id = before.children id := by
    rw [children_eq_shape, children_eq_shape, same]
  constructor
  · exact (scope root).2 tree.root_scope
  · rw [owner]
    exact tree.root_free
  · intro id present other
    rw [owner]
    exact tree.owned id ((has id).1 present) other
  · intro id outer owned
    rw [owner] at owned
    exact (scope outer).2 (tree.owner_scope id outer owned)
  · intro outer
    rw [children]
    exact tree.nodup_children outer
  · intro outer id
    rw [children, owner]
    exact tree.mem_children outer id
  · intro id present
    obtain ⟨chain, through⟩ := tree.chain id ((has id).1 present)
    exact ⟨chain, through.congr fun other _ => owner other⟩

namespace OwnershipTree

/-- The chain of owners stays inside the table. -/
theorem has_of_chain {table : SymbolTable} (tree : table.OwnershipTree) {id : SymbolId}
    {chain : List SymbolId} (through : table.OwnedThrough id chain) (present : table.Has id) :
    ∀ other ∈ id :: chain, table.Has other := by
  induction through with
  | outermost _ => simpa using present
  | inside owned _ ih =>
      intro other member
      rcases List.mem_cons.1 member with rfl | member
      · exact present
      · exact ih (tree.owner_scope _ _ owned).has other member

/-- The scopes around a symbol are all of its owners. -/
theorem ownedThrough_ancestors {table : SymbolTable} (tree : table.OwnershipTree)
    {id : SymbolId} (present : table.Has id) : table.OwnedThrough id (table.ancestors id) := by
  obtain ⟨chain, through⟩ := tree.chain id present
  have short : (id :: chain).length ≤ table.size :=
    length_le_size through.nodup (tree.has_of_chain through present)
  rw [ancestors, through.ownerChain_eq (by simp only [List.length_cons] at short; omega)]
  exact through

/-- Every chain of owners ends at the global scope. -/
theorem getLast_chain {table : SymbolTable} (tree : table.OwnershipTree) {id : SymbolId}
    {chain : List SymbolId} (through : table.OwnedThrough id chain) (present : table.Has id) :
    (id :: chain).getLast? = some root := by
  induction through with
  | @outermost id free =>
      by_cases same : id = root
      · simp [same]
      · obtain ⟨scope, owned⟩ := tree.owned id present same
        simp [free] at owned
  | inside owned _ ih =>
      rw [List.getLast?_cons_cons]
      exact ih (tree.owner_scope _ _ owned).has

theorem root_mem_ancestors {table : SymbolTable} (tree : table.OwnershipTree) {id : SymbolId}
    (present : table.Has id) (other : id ≠ root) : root ∈ table.ancestors id := by
  have last := tree.getLast_chain (tree.ownedThrough_ancestors present) present
  have member := List.mem_of_getLast? last
  rcases List.mem_cons.1 member with same | member
  · exact absurd same.symm other
  · exact member

end OwnershipTree

/-! ## Adding a symbol -/

theorem get?_push (table : SymbolTable) (symbol : Symbol) (id : SymbolId) :
    ({ table with symbols := table.symbols.push symbol } : SymbolTable).get? id =
      if id = ⟨table.size⟩ then some symbol else table.get? id := by
  cases id
  simp [get?, size, Array.getElem?_push]

theorem not_has_fresh (table : SymbolTable) : ¬ table.Has ⟨table.size⟩ := by
  simp [has_iff_lt]

theorem shape_fresh (table : SymbolTable) : table.shape ⟨table.size⟩ = none := by
  have absent := table.not_has_fresh
  rw [has_iff_shape] at absent
  simpa using absent

theorem get?_attach (table : SymbolTable) (scope : SymbolId) (request : SymbolRequest)
    (id : SymbolId) :
    (table.attach scope request).2.get? id =
      ((if id = ⟨table.size⟩ then some (Symbol.ofRequest (some scope) request)
        else table.get? id).map fun symbol =>
          if id = scope then symbol.mapMembers (Members.insert · request.name ⟨table.size⟩)
          else symbol) := by
  simp only [attach, updateMembers, get?_update, get?_push]
  by_cases same : scope = id
  · simp [same]
  · simp [same, Ne.symm same]

theorem shape_attach {table : SymbolTable} {scope : SymbolId} (present : table.Has scope)
    (request : SymbolRequest) (id : SymbolId) :
    (table.attach scope request).2.shape id =
      if id = ⟨table.size⟩ then
        some (some scope, if request.kind.isContainer then some [] else none)
      else (table.shape id).map fun (owner, members) =>
        (owner, if id = scope then members.map (· ++ [⟨table.size⟩]) else members) := by
  have old : scope ≠ ⟨table.size⟩ := by
    rintro rfl
    exact table.not_has_fresh present
  simp only [shape, get?_attach]
  by_cases fresh : id = ⟨table.size⟩
  · subst fresh
    cases container : request.kind.isContainer <;> simp [Ne.symm old, Symbol.ofRequest, container]
  · simp only [fresh, if_false]
    cases table.get? id with
    | none => rfl
    | some symbol =>
        by_cases same : id = scope
        · cases members : symbol.members <;> simp [same, Symbol.mapMembers, Members.insert, members]
        · simp [same]

theorem owner_attach {table : SymbolTable} {scope : SymbolId} (present : table.Has scope)
    (request : SymbolRequest) (id : SymbolId) :
    (table.attach scope request).2.owner id =
      if id = ⟨table.size⟩ then some scope else table.owner id := by
  rw [owner_eq_shape, shape_attach present, owner_eq_shape]
  split
  · rfl
  · cases table.shape id <;> rfl

theorem has_attach (table : SymbolTable) (scope : SymbolId) (request : SymbolRequest)
    (id : SymbolId) :
    (table.attach scope request).2.Has id ↔ id = ⟨table.size⟩ ∨ table.Has id := by
  cases id
  simp only [has_iff_lt, size_attach, SymbolId.mk.injEq]
  omega

theorem hasScope_attach {table : SymbolTable} {scope : SymbolId} (present : table.Has scope)
    (request : SymbolRequest) (id : SymbolId) :
    (table.attach scope request).2.HasScope id ↔
      (id = ⟨table.size⟩ ∧ request.kind.isContainer) ∨ table.HasScope id := by
  rw [hasScope_iff_shape, shape_attach present, hasScope_iff_shape]
  by_cases fresh : id = ⟨table.size⟩
  · subst fresh
    cases request.kind.isContainer <;> simp [shape_fresh]
  · cases table.shape id with
    | none => simp [fresh]
    | some pair =>
        by_cases same : id = scope
        · subst same
          simp [fresh]
        · simp [fresh, same]

theorem children_attach {table : SymbolTable} {scope : SymbolId} (inside : table.HasScope scope)
    (request : SymbolRequest) (id : SymbolId) :
    (table.attach scope request).2.children id =
      table.children id ++ if id = scope then [⟨table.size⟩] else [] := by
  have old : scope ≠ ⟨table.size⟩ := by
    rintro rfl
    exact table.not_has_fresh inside.has
  rw [children_eq_shape, shape_attach inside.has, children_eq_shape]
  by_cases fresh : id = ⟨table.size⟩
  · subst fresh
    cases request.kind.isContainer <;> simp [shape_fresh, Ne.symm old]
  · by_cases same : id = scope
    · subst same
      rw [hasScope_iff_shape] at inside
      cases found : table.shape id with
      | none => simp [found] at inside
      | some pair =>
          obtain ⟨owner, members⟩ := pair
          cases members with
          | none => simp [found] at inside
          | some order => simp [old]
    · cases table.shape id <;> simp [fresh, same]

/-- Adding a symbol to a scope keeps ownership a tree. -/
theorem OwnershipTree.attach {table : SymbolTable} (tree : table.OwnershipTree)
    {scope : SymbolId} (inside : table.HasScope scope) (request : SymbolRequest) :
    (table.attach scope request).2.OwnershipTree := by
  have fresh : ¬ table.Has ⟨table.size⟩ := table.not_has_fresh
  have owner_old (id : SymbolId) (present : table.Has id) :
      (table.attach scope request).2.owner id = table.owner id := by
    rw [owner_attach inside.has, if_neg]
    rintro rfl
    exact fresh present
  have chain_old (id : SymbolId) (present : table.Has id) :
      ∃ chain, (table.attach scope request).2.OwnedThrough id chain := by
    obtain ⟨chain, through⟩ := tree.chain id present
    refine ⟨chain, through.congr ?_⟩
    intro other member
    exact owner_old other (tree.has_of_chain through present other member)
  constructor
  · exact (hasScope_attach inside.has request root).2 (.inr tree.root_scope)
  · rw [owner_old root tree.root_scope.has]
    exact tree.root_free
  · intro id present other
    rw [owner_attach inside.has]
    rcases (has_attach table scope request id).1 present with rfl | present
    · simp
    · rw [if_neg (by rintro rfl; exact fresh present)]
      exact tree.owned id present other
  · intro id outer owned
    rw [owner_attach inside.has] at owned
    rw [hasScope_attach inside.has]
    split at owned
    · obtain rfl := Option.some.inj owned
      exact .inr inside
    · exact .inr (tree.owner_scope id outer owned)
  · intro outer
    rw [children_attach inside, List.nodup_append]
    refine ⟨tree.nodup_children outer, ?_, ?_⟩
    · split <;> simp
    · intro id member other last equal
      subst equal
      have present := has_of_owner ((tree.mem_children outer id).1 member)
      split at last
      · obtain rfl := List.mem_singleton.1 last
        exact fresh present
      · simp at last
  · intro outer id
    rw [children_attach inside, owner_attach inside.has, List.mem_append, tree.mem_children]
    by_cases equal : id = ⟨table.size⟩
    · subst equal
      have free : table.owner ⟨table.size⟩ ≠ some outer := fun owned => fresh (has_of_owner owned)
      by_cases same : outer = scope
      · simp [same]
      · simp [free, same, Ne.symm same]
    · rw [if_neg equal]
      constructor
      · rintro (owned | last)
        · exact owned
        · split at last
          · exact absurd (List.mem_singleton.1 last) equal
          · simp at last
      · exact .inl
  · intro id present
    rcases (has_attach table scope request id).1 present with rfl | present
    · obtain ⟨chain, through⟩ := chain_old scope inside.has
      exact ⟨scope :: chain, .inside (by rw [owner_attach inside.has, if_pos rfl]) through⟩
    · exact chain_old id present

/-! ## Moving a symbol -/

theorem get?_relocate (table : SymbolTable) (id scope other : SymbolId) :
    (table.relocate id scope).get? other = (table.get? other).map fun symbol =>
      let released :=
        if table.owner id = some other then symbol.mapMembers (Members.erase · id) else symbol
      let owned := if id = other then { released with owner := some scope } else released
      if scope = other then
        owned.mapMembers
          (Members.insert · (((table.get? id).map Symbol.name).getD "") id)
      else owned := by
  cases owned : table.owner id with
  | none =>
      simp only [relocate, owned, updateMembers, get?_update]
      by_cases target : scope = other <;> by_cases moved : id = other <;>
        simp [target, moved, Function.comp_def]
  | some old =>
      simp only [relocate, owned, updateMembers, get?_update]
      by_cases target : scope = other <;> by_cases moved : id = other <;>
        by_cases left : old = other <;> simp [target, moved, left, Function.comp_def]

theorem shape_relocate (table : SymbolTable) (id scope other : SymbolId) :
    (table.relocate id scope).shape other =
      (table.shape other).map fun (owner, members) =>
        let kept := if table.owner id = some other then members.map (List.filter (· ≠ id))
          else members
        (if id = other then some scope else owner,
          if scope = other then kept.map (· ++ [id]) else kept) := by
  simp only [shape, get?_relocate, Option.map_map]
  generalize table.owner id = old
  congr 1
  funext symbol
  by_cases left : old = some other <;> by_cases moved : id = other <;>
    by_cases target : scope = other <;>
      simp [left, moved, target, Symbol.mapMembers, Members.erase, Members.insert,
        Function.comp_def]

theorem owner_relocate {table : SymbolTable} {id : SymbolId} (present : table.Has id)
    (scope other : SymbolId) :
    (table.relocate id scope).owner other =
      if id = other then some scope else table.owner other := by
  rw [owner_eq_shape, shape_relocate, owner_eq_shape table other]
  by_cases moved : id = other
  · subst moved
    rw [has_iff_shape] at present
    cases found : table.shape id with
    | none => simp [found] at present
    | some pair => simp
  · cases table.shape other <;> simp [moved]

theorem has_relocate (table : SymbolTable) (id scope other : SymbolId) :
    (table.relocate id scope).Has other ↔ table.Has other := by
  rw [has_iff_shape, shape_relocate, has_iff_shape]
  simp

theorem hasScope_relocate (table : SymbolTable) (id scope other : SymbolId) :
    (table.relocate id scope).HasScope other ↔ table.HasScope other := by
  rw [hasScope_iff_shape, shape_relocate, hasScope_iff_shape]
  cases table.shape other with
  | none => simp
  | some pair =>
      by_cases left : table.owner id = some other <;> by_cases target : scope = other <;>
        simp [left, target]

theorem children_relocate {table : SymbolTable} (tree : table.OwnershipTree)
    (id : SymbolId) {scope : SymbolId} (inside : table.HasScope scope) (other : SymbolId) :
    (table.relocate id scope).children other =
      (table.children other).filter (· ≠ id) ++ if scope = other then [id] else [] := by
  have kept (elsewhere : table.owner id ≠ some other) :
      (table.children other).filter (· ≠ id) = table.children other := by
    rw [List.filter_eq_self]
    intro child member
    have owned := (tree.mem_children other child).1 member
    simp only [ne_eq, decide_eq_true_eq]
    rintro rfl
    exact elsewhere owned
  rw [children_eq_shape] at kept
  rw [children_eq_shape, shape_relocate, children_eq_shape table other]
  by_cases target : scope = other
  · subst target
    rw [hasScope_iff_shape] at inside
    cases found : table.shape scope with
    | none => simp [found] at inside
    | some pair =>
        obtain ⟨owner, members⟩ := pair
        cases members with
        | none => simp [found] at inside
        | some order =>
            by_cases left : table.owner id = some scope
            · simp [left]
            · rw [found] at kept
              simp only [left, if_false, if_true, Option.map_some, Option.bind_some,
                Option.getD_some]
              exact congrArg (· ++ [id]) (kept left).symm
  · cases found : table.shape other with
    | none => simp [target]
    | some pair =>
        obtain ⟨owner, members⟩ := pair
        by_cases left : table.owner id = some other
        · cases members <;> simp [left, target]
        · cases members with
          | none => simp [left, target]
          | some order =>
              rw [found] at kept
              simp only [left, target, if_false, Option.map_some, Option.bind_some,
                Option.getD_some, List.append_nil]
              exact (kept left).symm

/-- Moving a symbol to a scope that does not lie inside it keeps ownership a
tree. -/
theorem OwnershipTree.relocate {table : SymbolTable} (tree : table.OwnershipTree)
    {id scope : SymbolId} (present : table.Has id) (inside : table.HasScope scope)
    (outside : id ∉ scope :: table.ancestors scope) :
    (table.relocate id scope).OwnershipTree := by
  have around := tree.ownedThrough_ancestors inside.has
  have not_root : id ≠ root := by
    -- The global scope is around every scope, so it is never moved.
    rintro rfl
    apply outside
    by_cases same : scope = root
    · simp [same]
    · exact List.mem_cons_of_mem _ (tree.root_mem_ancestors inside.has same)
  constructor
  · exact (hasScope_relocate table id scope root).2 tree.root_scope
  · rw [owner_relocate present, if_neg not_root]
    exact tree.root_free
  · intro other here distinct
    rw [owner_relocate present]
    split
    · exact ⟨scope, rfl⟩
    · exact tree.owned other ((has_relocate table id scope other).1 here) distinct
  · intro other outer owned
    rw [owner_relocate present] at owned
    rw [hasScope_relocate]
    split at owned
    · obtain rfl := Option.some.inj owned
      exact inside
    · exact tree.owner_scope other outer owned
  · intro outer
    rw [children_relocate tree id inside, List.nodup_append]
    refine ⟨(tree.nodup_children outer).filter _, ?_, ?_⟩
    · split <;> simp
    · intro child member other last
      have different : child ≠ id := by simpa using (List.mem_filter.1 member).2
      split at last
      · rw [List.mem_singleton.1 last]
        exact different
      · simp at last
  · intro outer other
    rw [children_relocate tree id inside, owner_relocate present, List.mem_append,
      List.mem_filter, tree.mem_children]
    by_cases moved : id = other
    · subst moved
      by_cases target : scope = outer <;> simp [target]
    · by_cases target : scope = outer <;> simp [moved, target, Ne.symm moved]
  · -- Chains that avoid the symbol stay; the others go on at its new scope.
    have beyond : (table.relocate id scope).OwnedThrough scope (table.ancestors scope) := by
      apply around.congr
      intro other member
      rw [owner_relocate present, if_neg]
      rintro rfl
      exact outside member
    intro other here
    obtain ⟨chain, through⟩ := tree.chain other ((has_relocate table id scope other).1 here)
    clear here
    induction through with
    | @outermost other free =>
        by_cases moved : id = other
        · exact ⟨_, .inside (by rw [owner_relocate present, if_pos moved]) beyond⟩
        · exact ⟨[], .outermost (by rw [owner_relocate present, if_neg moved, free])⟩
    | @inside other outer chain owned _ ih =>
        by_cases moved : id = other
        · exact ⟨_, .inside (by rw [owner_relocate present, if_pos moved]) beyond⟩
        · obtain ⟨rest, through⟩ := ih
          exact ⟨_, .inside (by rw [owner_relocate present, if_neg moved, owned]) through⟩

end SymbolTable

end DeclTree
