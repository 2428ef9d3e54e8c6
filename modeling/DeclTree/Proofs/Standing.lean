import DeclTree.Node.TemplateDecl
import DeclTree.Proofs.OpenTemplates

/-!
# Where symbols stand

What a symbol is among the others: the scope that owns it, the node that introduced it,
what kind of thing it is, and what it wraps.  Of the basic changes of a table, moving a symbol
and binding a template are the only ones that make one stand elsewhere.
-/

namespace DeclTree

/-- Where a symbol stands among the others. -/
structure Standing where
  owner : Option SymbolId
  origin : Option NodeRef
  isNamespace : Bool
  isTemplate : Bool
  isScope : Bool
  templated : Option SymbolId
  deriving DecidableEq

def Symbol.standing (symbol : Symbol) : Standing where
  owner := symbol.owner
  origin := symbol.origin
  isNamespace := symbol.kind == .namespaceScope
  isTemplate := symbol.isTemplate
  isScope := symbol.isContainer
  templated := symbol.kind.templateInfo? >>= TemplateInfo.templated

namespace SymbolTable

open TemplateDecl (originOf)

def standing? (table : SymbolTable) (id : SymbolId) : Option Standing :=
  (table.get? id).map Symbol.standing

def homeOf (table : SymbolTable) (factory : FactoryId) : Option SymbolId :=
  (table.factory? factory).map TemplateFactory.container

section Views

variable (table : SymbolTable) (id : SymbolId)

theorem has_iff_standing : table.Has id ↔ (table.standing? id).isSome := by
  simp [Has, standing?]

theorem hasScope_iff_standing :
    table.HasScope id ↔ (table.standing? id).any Standing.isScope = true := by
  unfold HasScope members? standing?
  cases table.get? id with
  | none => simp
  | some symbol => simp [Symbol.standing, Symbol.isContainer]

theorem owner_eq_standing : table.owner id = table.standing? id >>= Standing.owner := by
  unfold owner standing?
  cases table.get? id <;> rfl

theorem originOf_eq_standing : originOf table id = table.standing? id >>= Standing.origin := by
  unfold originOf standing?
  cases table.get? id <;> rfl

theorem isNamespace_eq_standing :
    table.isNamespace id = (table.standing? id).any Standing.isNamespace := by
  unfold isNamespace standing?
  cases table.get? id <;> rfl

theorem isTemplate_eq_standing :
    table.isTemplate id = (table.standing? id).any Standing.isTemplate := by
  unfold isTemplate standing?
  cases table.get? id <;> rfl

theorem templated?_eq_standing :
    table.templated? id = table.standing? id >>= Standing.templated := by
  unfold templated? standing?
  cases table.get? id <;> rfl

end Views

/-! ## Basic changes -/

section Changes

variable {table : SymbolTable} {id : SymbolId} {change : Symbol → Symbol}

theorem standing?_update (standing : Standing → Standing)
    (changed : ∀ symbol, (change symbol).standing = standing symbol.standing)
    (other : SymbolId) : (table.update id change).standing? other =
      if id = other then (table.standing? other).map standing else table.standing? other := by
  unfold standing?
  rw [get?_update]
  split
  · cases table.get? other <;> simp [changed]
  · rfl

theorem standing?_update_of_eq (keeps : ∀ symbol, (change symbol).standing = symbol.standing)
    (other : SymbolId) : (table.update id change).standing? other = table.standing? other := by
  rw [standing?_update (fun standing => standing) keeps]
  split <;> simp

theorem standing_mapMembers (change : Members → Members) (symbol : Symbol) :
    (symbol.mapMembers change).standing = symbol.standing := by
  simp [Symbol.standing, Symbol.mapMembers, Symbol.isContainer, Symbol.isTemplate]

theorem standing?_attach {scope : SymbolId} (present : table.Has scope)
    (request : SymbolRequest) (other : SymbolId) :
    (table.attach scope request).2.standing? other = if other = ⟨table.size⟩ then
      some (Symbol.ofRequest (some scope) request).standing else table.standing? other := by
  have old : scope ≠ ⟨table.size⟩ := by
    rintro rfl
    exact table.not_has_fresh present
  unfold standing?
  rw [get?_attach]
  by_cases fresh : other = ⟨table.size⟩
  · subst fresh
    simp [Ne.symm old]
  · rw [if_neg fresh, if_neg fresh]
    cases table.get? other with
    | none => rfl
    | some symbol =>
        simp only [Option.map_some, Option.some.injEq]
        split
        · exact standing_mapMembers _ symbol
        · rfl

theorem standing?_relocate (table : SymbolTable) (id scope other : SymbolId) :
    (table.relocate id scope).standing? other = if id = other then
      (table.standing? other).map fun standing => { standing with owner := some scope }
      else table.standing? other := by
  unfold standing?
  rw [get?_relocate]
  generalize table.owner id = old
  cases table.get? other with
  | none => simp
  | some symbol =>
      by_cases left : old = some other <;> by_cases moved : id = other <;>
        by_cases target : scope = other <;>
          simp [left, moved, target, Symbol.standing, Symbol.mapMembers, Symbol.isContainer,
            Symbol.isTemplate]

/-- A symbol that is adopted moves at most itself. -/
theorem standing?_adopt {after : SymbolTable} {name : String} {scope : SymbolId}
    (adopted : table.adopt name id scope = .ok after) {other : SymbolId} (apart : id ≠ other) :
    after.standing? other = table.standing? other := by
  unfold SymbolTable.adopt at adopted
  split at adopted
  · obtain rfl := Except.ok.inj adopted
    exact standing?_update_of_eq (standing_mapMembers _) other
  · obtain ⟨_, _, rfl⟩ := move_ok adopted
    rw [standing?_relocate, if_neg apart]

/-- A symbol that its owner adopts stays where it stands. -/
theorem standing?_adopt_of_owner {after : SymbolTable} {name : String} {scope : SymbolId}
    (owned : table.owner id = some scope) (adopted : table.adopt name id scope = .ok after)
    (other : SymbolId) : after.standing? other = table.standing? other := by
  unfold SymbolTable.adopt at adopted
  rw [if_pos owned] at adopted
  obtain rfl := Except.ok.inj adopted
  exact standing?_update_of_eq (standing_mapMembers _) other

/-- A template that is bound wraps what it is bound to, and stands where it stood. -/
theorem standing?_bindTemplate (table : SymbolTable) (request : SymbolRequest)
    (template inner other : SymbolId) :
    (table.bindTemplate request template inner).standing? other = if template = other then
      (table.standing? other).map fun standing =>
        if standing.isTemplate then { standing with templated := some inner } else standing
      else table.standing? other := by
  apply standing?_update
  intro symbol
  cases kind : symbol.kind <;>
    simp [Symbol.standing, Symbol.isTemplate, Symbol.isContainer, kind, SymbolKind.mapTemplate,
      SymbolKind.templateInfo?]

end Changes

end SymbolTable

end DeclTree
