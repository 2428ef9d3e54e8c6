import DeclTree.Symbol.Lookup

/-!
# What the lookup of names reads

A lookup takes no notice of where symbols come from.  Of using directives it reads the ascending
list of the scopes they make visible, not the order in which they were written.  So two tables
with the same symbols otherwise and the same of these lists answer every lookup in the same way.
-/

namespace DeclTree

namespace SymbolTable

/-- Whether another table differs at most in where symbols come from and in the order in which
using directives were written. -/
structure LooksAlike (table other : SymbolTable) : Prop where
  size : other.size = table.size
  symbols : ∀ id, ∃ origin directives, other.get? id = (table.get? id).map fun symbol =>
    { symbol with origin := origin, directives := directives }
  usings : ∀ scope, other.usings scope = table.usings scope

namespace LooksAlike

variable {table other : SymbolTable}

/-! ## Scopes and their members -/

theorem owner (alike : table.LooksAlike other) (id : SymbolId) :
    other.owner id = table.owner id := by
  obtain ⟨_, _, same⟩ := alike.symbols id
  unfold SymbolTable.owner
  rw [same]
  cases table.get? id <;> rfl

theorem ownerChain (alike : table.LooksAlike other) (bound : Nat) (scope : Option SymbolId) :
    other.ownerChain bound scope = table.ownerChain bound scope := by
  induction bound generalizing scope with
  | zero => rfl
  | succ bound ih =>
      cases scope with
      | none => rfl
      | some scope => simp only [SymbolTable.ownerChain, alike.owner, ih]

theorem ancestors (alike : table.LooksAlike other) (id : SymbolId) :
    other.ancestors id = table.ancestors id := by
  simp only [SymbolTable.ancestors, alike.size, alike.owner, alike.ownerChain]

theorem members? (alike : table.LooksAlike other) (id : SymbolId) :
    other.members? id = table.members? id := by
  obtain ⟨_, _, same⟩ := alike.symbols id
  unfold SymbolTable.members?
  rw [same]
  cases table.get? id <;> rfl

theorem children (alike : table.LooksAlike other) (scope : SymbolId) :
    other.children scope = table.children scope := by
  simp only [SymbolTable.children, alike.members?]

theorem entries (alike : table.LooksAlike other) (scope : SymbolId) (name : String) :
    other.entries scope name = table.entries scope name := by
  simp only [SymbolTable.entries, alike.members?]

theorem qualifiedName (alike : table.LooksAlike other) (id : SymbolId) :
    other.qualifiedName id = table.qualifiedName id := by
  have scopes (scope : SymbolId) : other.scopeSegment scope = table.scopeSegment scope := by
    obtain ⟨_, _, same⟩ := alike.symbols scope
    unfold scopeSegment
    rw [same]
    cases table.get? scope <;> rfl
  have own : other.ownSegment id = table.ownSegment id := by
    obtain ⟨_, _, same⟩ := alike.symbols id
    unfold ownSegment
    rw [same]
    cases table.get? id <;> rfl
  simp only [SymbolTable.qualifiedName, alike.ancestors, own, funext scopes]

/-! ## Lookup -/

theorem preferred? (alike : table.LooksAlike other) (entries : List SymbolId) :
    other.preferred? entries = table.preferred? entries := by
  have defined (id : SymbolId) :
      (other.get? id).any Symbol.defined = (table.get? id).any Symbol.defined := by
    obtain ⟨_, _, same⟩ := alike.symbols id
    rw [same]
    cases table.get? id <;> rfl
  simp only [SymbolTable.preferred?, funext defined]

theorem isTransparent (alike : table.LooksAlike other) (id : SymbolId) :
    other.isTransparent id = table.isTransparent id := by
  obtain ⟨_, _, same⟩ := alike.symbols id
  unfold SymbolTable.isTransparent
  rw [same]
  cases table.get? id <;> rfl

theorem findWithin (alike : table.LooksAlike other) (name : String) (bound : Nat)
    (scope : SymbolId) : other.findWithin name bound scope = table.findWithin name bound scope := by
  induction bound generalizing scope with
  | zero => rfl
  | succ bound ih =>
      simp only [SymbolTable.findWithin, alike.entries, alike.preferred?, alike.children,
        funext alike.isTransparent, funext ih]

theorem findLocal (alike : table.LooksAlike other) (scope : SymbolId) (name : String) :
    other.findLocal scope name = table.findLocal scope name := by
  simp only [SymbolTable.findLocal, alike.size, alike.findWithin]

/-- This is where a lookup comes by using directives. -/
theorem lookupInScope (alike : table.LooksAlike other) (name : String) (scope : SymbolId) :
    other.lookupInScope name scope = table.lookupInScope name scope := by
  simp only [SymbolTable.lookupInScope, usedCandidates, alike.findLocal, alike.usings]

theorem lookupAlong (alike : table.LooksAlike other) (name : String) (scopes : List SymbolId) :
    other.lookupAlong name scopes = table.lookupAlong name scopes := by
  induction scopes with
  | nil => rfl
  | cons scope outer ih => simp only [SymbolTable.lookupAlong, alike.lookupInScope, ih]

theorem lookup (alike : table.LooksAlike other) (name : String) (scope : SymbolId) :
    other.lookup name scope = table.lookup name scope := by
  simp only [SymbolTable.lookup, alike.ancestors, alike.lookupAlong]

theorem scopeWithin (alike : table.LooksAlike other) (bound : Nat) (id : SymbolId) :
    other.scopeWithin bound id = table.scopeWithin bound id := by
  induction bound generalizing id with
  | zero => rfl
  | succ bound ih =>
      obtain ⟨_, _, same⟩ := alike.symbols id
      unfold SymbolTable.scopeWithin
      rw [same, funext ih]
      cases table.get? id with
      | none => rfl
      | some symbol =>
          obtain ⟨name, kind⟩ := symbol
          cases kind <;> rfl

theorem scopeOf (alike : table.LooksAlike other) (id : SymbolId) :
    other.scopeOf id = table.scopeOf id := by
  simp only [SymbolTable.scopeOf, alike.size, alike.scopeWithin]

theorem lookupMembers (alike : table.LooksAlike other) (current : SymbolId)
    (path : List String) : other.lookupMembers current path = table.lookupMembers current path := by
  induction path generalizing current with
  | nil => rfl
  | cons segment rest ih =>
      simp only [SymbolTable.lookupMembers, alike.scopeOf, alike.findLocal, alike.qualifiedName, ih]

theorem lookupQualified (alike : table.LooksAlike other) (path : List String) (scope : SymbolId)
    (isGlobal : Bool) :
    other.lookupQualified path scope isGlobal = table.lookupQualified path scope isGlobal := by
  cases path with
  | nil => rfl
  | cons first rest =>
      simp only [SymbolTable.lookupQualified, lookupFirst, alike.lookupInScope, alike.lookup,
        alike.lookupMembers]

end LooksAlike

end SymbolTable

end DeclTree
