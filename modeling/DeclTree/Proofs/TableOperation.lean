import DeclTree.Proofs.FactoryHistory
import DeclTree.Proofs.Ownership
import Mathlib.Data.List.Sort

/-!
# Operations on the symbol table

Every way to change a symbol table, as data, and the tables that can be reached
from the empty one.  An operation may be refused; the table is then what the
refusal leaves behind.  Handles that do not exist are refused or change nothing,
except for the symbol to be moved and the target of a using directive, which
have to exist.
-/

namespace DeclTree

/-- One use of a symbol table. -/
inductive TableOperation
  | declare (scope : SymbolId) (request : SymbolRequest)
  | openNamespace (scope : SymbolId) (name : String) (unit : Option UnitId)
  | move (id scope : SymbolId)
  | addUsing (scope target : SymbolId)
  | setOrigin (id : SymbolId) (origin : Option NodeRef)
  | factoryFor (container : SymbolId)
  | openTemplate (factory : FactoryId) (unit : Option UnitId)
  | addParameter (template : SymbolId) (request : SymbolRequest)
  | declareTemplated (factory : FactoryId) (target : SymbolId) (request : SymbolRequest)
  | popFrame (factory : FactoryId)
  | discardFrames (factory : FactoryId) (template : SymbolId)

namespace SymbolTable

/-- The table behind an operation that yields a value, or is refused and changes
nothing. -/
def settle {α : Type} (table : SymbolTable) :
    Except SymbolError (α × SymbolTable) → SymbolTable
  | .ok (_, changed) => changed
  | .error _ => table

/-- The table behind an operation, whether it succeeds or is refused. -/
def perform (table : SymbolTable) : TableOperation → SymbolTable
  | .declare scope request => table.settle (table.declare scope request)
  | .openNamespace scope name unit => table.settle (table.openNamespace scope name unit)
  | .move id scope => table.settle ((table.move id scope).map ((), ·))
  | .addUsing scope target => table.addUsing scope target
  | .setOrigin id origin => table.settle ((table.setOrigin id origin).map ((), ·))
  | .factoryFor container => table.settle (table.factoryFor container)
  | .openTemplate factory unit => table.settle (table.openTemplate factory unit)
  | .addParameter template request => table.settle (table.addParameter template request)
  | .declareTemplated factory target request => (table.declareTemplated factory target request).2
  | .popFrame factory => table.updateFactory factory TemplateFactory.popped
  | .discardFrames factory template => table.discardTemplate factory template

/-- What an operation asks of its caller: symbols that it moves or uses exist,
and templates are declared through a factory only. -/
def Admits (table : SymbolTable) : TableOperation → Prop
  | .declare _ request | .addParameter _ request | .declareTemplated _ _ request =>
      request.kind.templateInfo? = none
  | .move id _ => table.Has id
  | .addUsing _ target => table.Has target
  | _ => True

/-- Tables reached from the empty one by any operations. -/
inductive Reachable : SymbolTable → Prop
  | empty : Reachable .empty
  | perform {table : SymbolTable} {operation : TableOperation} (reached : Reachable table)
      (admitted : table.Admits operation) : Reachable (table.perform operation)

end SymbolTable

/-! ## What a symbol uses -/

theorem SymbolId.sortAscending_eq (ids : List SymbolId) :
    SymbolId.sortAscending ids = ids.insertionSort (·.index ≤ ·.index) := by
  have insert (id : SymbolId) (ids : List SymbolId) :
      id.insertAscending ids = ids.orderedInsert (·.index ≤ ·.index) id := by
    induction ids with
    | nil => rfl
    | cons other rest ih => rw [SymbolId.insertAscending, List.orderedInsert_cons, ih]
  induction ids with
  | nil => rfl
  | cons id rest ih =>
      rw [List.insertionSort_cons, ← ih, ← insert]
      rfl

theorem Symbol.mem_uses {symbol : Symbol} {target : SymbolId} :
    target ∈ symbol.uses ↔ target ∈ symbol.directives := by
  rw [Symbol.uses, SymbolId.sortAscending_eq, List.mem_insertionSort]

/-- A symbol that names no scope twice uses them in strictly ascending order. -/
theorem Symbol.pairwise_uses (symbol : Symbol) (distinct : symbol.directives.Nodup) :
    symbol.uses.Pairwise (·.index < ·.index) := by
  rw [Symbol.uses, SymbolId.sortAscending_eq]
  have sorted := symbol.directives.pairwise_insertionSort
    (·.index ≤ ·.index : SymbolId → SymbolId → Prop)
  have apart := (List.perm_insertionSort (·.index ≤ ·.index) _).nodup_iff.2 distinct
  refine (sorted.and apart).imp ?_
  rintro first second ⟨before, other⟩
  exact Nat.lt_of_le_of_ne before fun same => other (congrArg SymbolId.mk same)

/-! ## What every operation keeps -/

/-- Whether the handles that a symbol keeps besides its owner and members stand
for something: names are those of members, a template wraps a symbol declared
after itself, no scope is used twice, and everything else exists. -/
structure Symbol.Fits (id : SymbolId) (symbols factories : Nat) (symbol : Symbol) : Prop where
  names : ∀ members, symbol.members = some members →
    ∀ entry ∈ members.names, entry.2 ∈ members.order
  directives : ∀ target ∈ symbol.directives, target.index < symbols
  distinct : symbol.directives.Nodup
  factory : ∀ factory, symbol.factory = some factory → factory.index < factories
  parameters : ∀ info, symbol.kind = .template info →
    ∀ parameter ∈ info.parameters, parameter.index < symbols
  templated : ∀ info inner, symbol.kind = .template info → info.templated = some inner →
    id.index < inner.index ∧ inner.index < symbols

theorem Symbol.Fits.mono {id : SymbolId} {symbols factories symbols' factories' : Nat}
    {symbol : Symbol} (fits : symbol.Fits id symbols factories) (moreSymbols : symbols ≤ symbols')
    (moreFactories : factories ≤ factories') : symbol.Fits id symbols' factories' where
  names := fits.names
  directives target member := Nat.lt_of_lt_of_le (fits.directives target member) moreSymbols
  distinct := fits.distinct
  factory factory found := Nat.lt_of_lt_of_le (fits.factory factory found) moreFactories
  parameters info kind parameter member :=
    Nat.lt_of_lt_of_le (fits.parameters info kind parameter member) moreSymbols
  templated info inner kind wraps :=
    ⟨(fits.templated info inner kind wraps).1,
      Nat.lt_of_lt_of_le (fits.templated info inner kind wraps).2 moreSymbols⟩

/-- Whether a factory serves a scope and its open frames are scopes, the inner
ones created after the outer ones, as its history tells. -/
structure TemplateFactory.Fits (table : SymbolTable) (factory : TemplateFactory) : Prop where
  container : table.HasScope factory.container
  frames : ∀ template ∈ factory.stack, table.HasScope template
  descending : factory.stack.Pairwise fun inner outer => outer.index < inner.index
  replays : factory.Replays

namespace SymbolTable

/-- What holds of every table in use: ownership is a tree, and all handles that
symbols and factories keep stand for something. -/
structure Consistent (table : SymbolTable) : Prop where
  tree : table.OwnershipTree
  symbols : ∀ id symbol, table.get? id = some symbol →
    symbol.Fits id table.size table.factories.size
  factories : ∀ id factory, table.factory? id = some factory → factory.Fits table

end SymbolTable

end DeclTree
