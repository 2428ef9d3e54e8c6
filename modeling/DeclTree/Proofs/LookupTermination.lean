import DeclTree.Proofs.TemplateInvariant
import Mathlib.Order.WellFounded

/-!
# Searches in a table come to an end

Searches go outward through owners, inward through transparent members, or from
a template to what it wraps.  Each of these steps is well-founded in every table
that operations lead to, so a search needs no bound: the bounded definitions
satisfy the plain recursive equations of the search.
-/

namespace DeclTree

namespace SymbolTable

/-- How many scopes stand around a symbol. -/
def depth (table : SymbolTable) (id : SymbolId) : Nat :=
  (table.ancestors id).length

theorem OwnershipTree.ancestors_eq {table : SymbolTable} (tree : table.OwnershipTree)
    {id scope : SymbolId} (owned : table.owner id = some scope) :
    table.ancestors id = scope :: table.ancestors scope := by
  have inner := tree.ownedThrough_ancestors (has_of_owner owned)
  have outer := tree.ownedThrough_ancestors (tree.owner_scope id scope owned).has
  exact inner.unique (.inside owned outer)

theorem OwnershipTree.depth_owned {table : SymbolTable} (tree : table.OwnershipTree)
    {id scope : SymbolId} (owned : table.owner id = some scope) :
    table.depth id = table.depth scope + 1 := by
  simp [depth, tree.ancestors_eq owned]

theorem OwnershipTree.depth_lt_size {table : SymbolTable} (tree : table.OwnershipTree)
    {id : SymbolId} (present : table.Has id) : table.depth id < table.size := by
  have through := tree.ownedThrough_ancestors present
  exact length_le_size through.nodup (tree.has_of_chain through present)

/-! ## The steps of a search -/

theorem OwnershipTree.wellFounded_owner {table : SymbolTable} (tree : table.OwnershipTree) :
    WellFounded fun scope id => table.owner id = some scope := by
  apply Subrelation.wf _ (measure table.depth).wf
  intro scope id owned
  have deeper := tree.depth_owned owned
  change table.depth scope < table.depth id
  omega

theorem OwnershipTree.wellFounded_children {table : SymbolTable} (tree : table.OwnershipTree) :
    WellFounded fun id scope => id ∈ table.children scope := by
  apply Subrelation.wf _ (measure fun id => table.size - table.depth id).wf
  intro id scope member
  have owned := (tree.mem_children scope id).1 member
  have deeper := tree.depth_owned owned
  have bounded := tree.depth_lt_size (has_of_owner owned)
  change table.size - table.depth id < table.size - table.depth scope
  omega

theorem Consistent.index_lt_templated {table : SymbolTable} (consistent : table.Consistent)
    {template inner : SymbolId} (wraps : table.templated? template = some inner) :
    template.index < inner.index ∧ inner.index < table.size := by
  obtain ⟨symbol, info, found, kind, wraps⟩ := templated?_eq_some_iff.1 wraps
  exact (consistent.symbols template symbol found).templated info inner kind wraps

theorem Consistent.wellFounded_templated {table : SymbolTable} (consistent : table.Consistent) :
    WellFounded fun inner template => table.templated? template = some inner := by
  apply Subrelation.wf _ (measure fun id => table.size - id.index).wf
  intro inner template wraps
  have later := consistent.index_lt_templated wraps
  change table.size - inner.index < table.size - template.index
  omega

/-! ## Bounds that are large enough -/

theorem entries_of_not_has {table : SymbolTable} {scope : SymbolId} (absent : ¬ table.Has scope)
    (name : String) : table.entries scope name = [] := by
  have missing : table.get? scope = none := by simpa [Has] using absent
  simp [entries, members?, missing]

theorem children_of_not_has {table : SymbolTable} {scope : SymbolId}
    (absent : ¬ table.Has scope) : table.children scope = [] := by
  have missing : table.get? scope = none := by simpa [Has] using absent
  simp [children, members?, missing]

theorem findSome?_congr {first second : SymbolId → Option SymbolId} {ids : List SymbolId}
    (same : ∀ id ∈ ids, first id = second id) : ids.findSome? first = ids.findSome? second := by
  induction ids with
  | nil => rfl
  | cons id rest ih =>
      simp only [List.findSome?_cons, same id (by simp)]
      rw [ih fun other member => same other (by simp [member])]

/-- Each level of members lies one scope deeper, so a bound that reaches the size
of the table from here is never used up. -/
theorem OwnershipTree.findWithin_succ {table : SymbolTable} (tree : table.OwnershipTree)
    (name : String) {bound : Nat} {scope : SymbolId}
    (enough : table.size ≤ bound + table.depth scope) :
    table.findWithin name (bound + 1) scope = table.findWithin name bound scope := by
  by_cases present : table.Has scope
  · induction bound generalizing scope with
    | zero =>
        have bounded := tree.depth_lt_size present
        omega
    | succ bound ih =>
        rw [findWithin, findWithin.eq_def table name (bound + 1)]
        have same : ∀ child ∈ (table.children scope).filter table.isTransparent,
            table.findWithin name (bound + 1) child = table.findWithin name bound child := by
          intro child member
          have owned := (tree.mem_children scope child).1 (List.mem_of_mem_filter member)
          have deeper := tree.depth_owned owned
          exact ih (by omega) (has_of_owner owned)
        simp only [findSome?_congr same]
  · cases bound <;>
      simp [findWithin, entries_of_not_has present, children_of_not_has present, preferred?]

/-- A search in a scope goes on in its transparent members. -/
theorem OwnershipTree.findLocal_eq {table : SymbolTable} (tree : table.OwnershipTree)
    (scope : SymbolId) (name : String) :
    table.findLocal scope name =
      match table.preferred? (table.entries scope name) with
      | some found => some found
      | none => ((table.children scope).filter table.isTransparent).findSome?
          fun child => table.findLocal child name := by
  have enough : table.size ≤ table.size + table.depth scope := by omega
  rw [findLocal, ← tree.findWithin_succ name enough, findWithin]
  rfl

theorem Consistent.scopeWithin_succ {table : SymbolTable} (consistent : table.Consistent)
    {bound : Nat} {id : SymbolId} (enough : table.size ≤ bound + id.index) :
    table.scopeWithin (bound + 1) id = table.scopeWithin bound id := by
  induction bound generalizing id with
  | zero =>
      have missing : table.get? id = none := by
        by_contra found
        have present : table.Has id := by simpa [Has, Option.isSome_iff_ne_none] using found
        rw [has_iff_lt] at present
        omega
      simp [scopeWithin, missing]
  | succ bound ih =>
      cases found : table.get? id with
      | none => simp only [scopeWithin, found]
      | some symbol =>
          cases kind : symbol.kind with
          | template info =>
              cases wraps : info.templated with
              | none => simp only [scopeWithin, found, kind, wraps]; rfl
              | some inner =>
                  have later := (consistent.symbols id symbol found).templated info inner kind wraps
                  simp only [scopeWithin, found, kind, wraps, Option.bind_eq_bind,
                    Option.bind_some]
                  exact ih (by omega)
          | _ => simp only [scopeWithin, found, kind]

/-- A template leads on to what it wraps. -/
theorem Consistent.scopeOf_eq {table : SymbolTable} (consistent : table.Consistent)
    (id : SymbolId) :
    table.scopeOf id =
      match table.get? id with
      | none => none
      | some symbol =>
          match symbol.kind with
          | .template info => info.templated >>= table.scopeOf
          | .function => none
          | _ => if symbol.isContainer then some id else none := by
  have enough : table.size ≤ table.size + id.index := by omega
  rw [scopeOf, ← consistent.scopeWithin_succ enough, scopeWithin]
  rfl

/-- A name unknown to a scope is looked up in the scope around it. -/
theorem OwnershipTree.lookup_eq {table : SymbolTable} (tree : table.OwnershipTree)
    (name : String) (scope : SymbolId) :
    table.lookup name scope =
      match table.lookupInScope name scope with
      | .error error => .error error
      | .ok (some found) => .ok found
      | .ok none =>
          match table.owner scope with
          | none => .error (.notFound name)
          | some outer => table.lookup name outer := by
  rw [lookup, lookupAlong]
  cases owned : table.owner scope with
  | none =>
      have alone : table.ancestors scope = [] := by
        rw [ancestors, owned]
        cases table.size <;> rfl
      rw [alone]
      rfl
  | some outer => rw [tree.ancestors_eq owned]; rfl

/-! ## All tables in use -/

/-- What ownership and searches are like in a table: every symbol but the global
scope is a member of exactly one scope, owners lead to the global scope without
meeting a symbol twice, templates wrap symbols created after them, and no search
goes on forever.  The steps of a search are well-founded and each search is
given by its steps alone, without a bound. -/
structure Navigable (table : SymbolTable) : Prop where
  root_free : table.owner root = none
  one_container : ∀ id, table.Has id → id ≠ root → ∃! scope, id ∈ table.children scope
  owner_scope : ∀ id scope, table.owner id = some scope → table.HasScope scope
  chain_nodup : ∀ id, table.Has id → (id :: table.ancestors id).Nodup
  chain_ends : ∀ id, table.Has id → (id :: table.ancestors id).getLast? = some root
  chain_links : ∀ id, table.OwnedThrough id (table.ancestors id)
  children_nodup : ∀ scope, (table.children scope).Nodup
  mem_children : ∀ scope id, id ∈ table.children scope ↔ table.owner id = some scope
  templated_later : ∀ template inner, table.templated? template = some inner →
    template.index < inner.index
  outward : WellFounded fun scope id => table.owner id = some scope
  inward : WellFounded fun id scope => id ∈ table.children scope
  unwrapping : WellFounded fun inner template => table.templated? template = some inner
  lookup_eq : ∀ name scope, table.lookup name scope =
    match table.lookupInScope name scope with
    | .error error => .error error
    | .ok (some found) => .ok found
    | .ok none =>
        match table.owner scope with
        | none => .error (.notFound name)
        | some outer => table.lookup name outer
  findLocal_eq : ∀ scope name, table.findLocal scope name =
    match table.preferred? (table.entries scope name) with
    | some found => some found
    | none => ((table.children scope).filter table.isTransparent).findSome?
        fun child => table.findLocal child name
  scopeOf_eq : ∀ id, table.scopeOf id =
    match table.get? id with
    | none => none
    | some symbol =>
        match symbol.kind with
        | .template info => info.templated >>= table.scopeOf
        | .function => none
        | _ => if symbol.isContainer then some id else none
  qualifiedName_eq : ∀ id chain, table.OwnedThrough id chain →
    table.qualifiedName id = "::".intercalate
      ((chain.filterMap table.scopeSegment).reverse ++ (table.ownSegment id).toList)

theorem OwnershipTree.ownedThrough {table : SymbolTable} (tree : table.OwnershipTree)
    (id : SymbolId) : table.OwnedThrough id (table.ancestors id) := by
  by_cases present : table.Has id
  · exact tree.ownedThrough_ancestors present
  · have free : table.owner id = none := by
      cases owned : table.owner id with
      | none => rfl
      | some scope => exact absurd (has_of_owner owned) present
    have alone : table.ancestors id = [] := by
      rw [ancestors, free]
      cases table.size <;> rfl
    rw [alone]
    exact .outermost free

/-- Whatever operations led to a table, ownership in it is a tree with the global
scope at its root, and all searches in it come to an end. -/
theorem navigable_of_reachable {table : SymbolTable} (reached : table.Reachable) :
    table.Navigable := by
  have consistent := reached.consistent
  have tree := consistent.tree
  constructor
  case root_free => exact tree.root_free
  case one_container =>
    intro id present other
    obtain ⟨scope, owned⟩ := tree.owned id present other
    refine ⟨scope, (tree.mem_children scope id).2 owned, ?_⟩
    intro second member
    have ownedSecond := (tree.mem_children second id).1 member
    exact Option.some.inj (ownedSecond.symm.trans owned)
  case owner_scope => exact tree.owner_scope
  case chain_nodup => exact fun id _ => (tree.ownedThrough id).nodup
  case chain_ends => exact fun id present => tree.getLast_chain (tree.ownedThrough id) present
  case chain_links => exact tree.ownedThrough
  case children_nodup => exact tree.nodup_children
  case mem_children => exact tree.mem_children
  case templated_later =>
    intro template inner wraps
    exact (consistent.index_lt_templated wraps).1
  case outward => exact tree.wellFounded_owner
  case inward => exact tree.wellFounded_children
  case unwrapping => exact consistent.wellFounded_templated
  case lookup_eq => exact tree.lookup_eq
  case findLocal_eq => exact tree.findLocal_eq
  case scopeOf_eq => exact consistent.scopeOf_eq
  case qualifiedName_eq =>
    intro id chain through
    rw [through.unique (tree.ownedThrough id)]
    rfl

/-- A class template inside a class template, opened in a namespace and declared in
the global scope. -/
theorem navigable_nested_template :
    let table := ([.openNamespace root "n" none, .factoryFor ⟨1⟩, .openTemplate ⟨0⟩ none,
      .openTemplate ⟨0⟩ none, .addUsing root ⟨1⟩,
      .declareTemplated ⟨0⟩ root { name := "f", kind := .classType .structKey }] :
        List TableOperation).foldl SymbolTable.perform .empty
    table.Reachable ∧ table.templated? ⟨2⟩ = some ⟨3⟩ ∧ table.owner ⟨2⟩ = some root ∧
      table.Navigable := by
  intro table
  have reached : table.Reachable := by
    simp only [table, List.foldl]
    refine .perform (.perform (.perform (.perform (.perform (.perform .empty ?_) ?_) ?_) ?_) ?_) ?_
    · trivial
    · trivial
    · trivial
    · trivial
    · rfl
    · rfl
  exact ⟨reached, by decide, by decide, navigable_of_reachable reached⟩

end SymbolTable

end DeclTree
