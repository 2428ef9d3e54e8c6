import DeclTree.Symbol.Lookup
import DeclTree.Symbol.Template
import Mathlib.Data.List.Perm.Subperm

/-!
# Chains of owners

The owners of a symbol, one around the other, lead to a symbol that nothing
owns.  Such a chain never meets a symbol twice, so it is shorter than the table
and the bounded walk outward finds all of it.
-/

namespace DeclTree

namespace SymbolTable

/-- Whether a handle stands for a symbol of the table. -/
def Has (table : SymbolTable) (id : SymbolId) : Prop :=
  (table.get? id).isSome

/-- Whether a handle stands for a scope of the table. -/
def HasScope (table : SymbolTable) (id : SymbolId) : Prop :=
  (table.members? id).isSome

theorem has_iff_lt (table : SymbolTable) (id : SymbolId) :
    table.Has id ↔ id.index < table.size := by
  simp [Has, get?, size]

theorem has_of_get? {table : SymbolTable} {id : SymbolId} {symbol : Symbol}
    (found : table.get? id = some symbol) : table.Has id := by
  simp [Has, found]

theorem owner_eq_some_iff {table : SymbolTable} {id scope : SymbolId} :
    table.owner id = some scope ↔
      ∃ symbol, table.get? id = some symbol ∧ symbol.owner = some scope := by
  simp [owner, Option.bind_eq_some_iff]

theorem has_of_owner {table : SymbolTable} {id scope : SymbolId}
    (owned : table.owner id = some scope) : table.Has id := by
  obtain ⟨symbol, found, _⟩ := owner_eq_some_iff.1 owned
  exact has_of_get? found

theorem HasScope.has {table : SymbolTable} {id : SymbolId} (scope : table.HasScope id) :
    table.Has id := by
  unfold HasScope members? at scope
  cases found : table.get? id with
  | none => simp [found] at scope
  | some symbol => exact has_of_get? found

/-- A list of distinct symbols of a table is no longer than the table. -/
theorem length_le_size {table : SymbolTable} {ids : List SymbolId} (distinct : ids.Nodup)
    (present : ∀ id ∈ ids, table.Has id) : ids.length ≤ table.size := by
  have included : ids ⊆ (List.range table.size).map SymbolId.mk := by
    intro id member
    have bound := (table.has_iff_lt id).1 (present id member)
    exact List.mem_map.2 ⟨id.index, List.mem_range.2 bound, rfl⟩
  simpa using (distinct.subperm included).length_le

/-- The owners of a symbol, innermost first, through one that nothing owns. -/
inductive OwnedThrough (table : SymbolTable) : SymbolId → List SymbolId → Prop
  | outermost {id : SymbolId} (free : table.owner id = none) : OwnedThrough table id []
  | inside {id scope : SymbolId} {chain : List SymbolId} (owned : table.owner id = some scope)
      (outer : OwnedThrough table scope chain) : OwnedThrough table id (scope :: chain)

namespace OwnedThrough

theorem unique {table : SymbolTable} {id : SymbolId} {first second : List SymbolId}
    (left : table.OwnedThrough id first) (right : table.OwnedThrough id second) :
    first = second := by
  induction left generalizing second with
  | outermost free =>
      cases right with
      | outermost _ => rfl
      | inside owned _ => simp [free] at owned
  | inside owned _ ih =>
      cases right with
      | outermost free => simp [owned] at free
      | inside owned' outer =>
          obtain rfl : _ = _ := Option.some.inj (owned.symm.trans owned')
          rw [ih outer]

/-- Every owner has a shorter chain of its own. -/
theorem of_mem {table : SymbolTable} {id scope : SymbolId} {chain : List SymbolId}
    (owned : table.OwnedThrough id chain) (member : scope ∈ chain) :
    ∃ outer, table.OwnedThrough scope outer ∧ outer.length < chain.length := by
  induction owned with
  | outermost _ => simp at member
  | inside _ outer ih =>
      rcases List.mem_cons.1 member with rfl | member
      · exact ⟨_, outer, by simp⟩
      · obtain ⟨rest, through, shorter⟩ := ih member
        exact ⟨rest, through, by simp only [List.length_cons]; omega⟩

theorem not_mem {table : SymbolTable} {id : SymbolId} {chain : List SymbolId}
    (owned : table.OwnedThrough id chain) : id ∉ chain := by
  intro member
  obtain ⟨outer, through, shorter⟩ := owned.of_mem member
  rw [owned.unique through] at shorter
  omega

/-- No symbol stands around itself. -/
theorem nodup {table : SymbolTable} {id : SymbolId} {chain : List SymbolId}
    (owned : table.OwnedThrough id chain) : (id :: chain).Nodup := by
  induction owned with
  | outermost _ => simp
  | inside owned outer ih => exact List.nodup_cons.2 ⟨(OwnedThrough.inside owned outer).not_mem, ih⟩

/-- A chain stays when the owners of the symbols on it stay. -/
theorem congr {before after : SymbolTable} {id : SymbolId} {chain : List SymbolId}
    (owned : before.OwnedThrough id chain)
    (same : ∀ other ∈ id :: chain, after.owner other = before.owner other) :
    after.OwnedThrough id chain := by
  induction owned with
  | outermost free => exact .outermost ((same _ (by simp)).trans free)
  | inside owned _ ih =>
      refine .inside ((same _ (by simp)).trans owned) (ih ?_)
      intro other member
      exact same other (List.mem_cons_of_mem _ member)

/-- A walk outward that goes far enough finds the whole chain. -/
theorem ownerChain_eq {table : SymbolTable} {id : SymbolId} {chain : List SymbolId}
    (owned : table.OwnedThrough id chain) {bound : Nat} (enough : chain.length ≤ bound) :
    table.ownerChain bound (table.owner id) = chain := by
  induction owned generalizing bound with
  | outermost free =>
      rw [free]
      cases bound <;> rfl
  | inside owned _ ih =>
      cases bound with
      | zero => simp at enough
      | succ bound =>
          rw [owned, ownerChain, ih (by simpa using enough)]

end OwnedThrough

end SymbolTable

end DeclTree
