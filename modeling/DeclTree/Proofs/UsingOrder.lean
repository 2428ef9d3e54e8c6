import DeclTree.Proofs.LookupView
import DeclTree.Proofs.VisibleScopes

/-!
# The order of using directives

A scope keeps the scopes that its using directives name in the order in which they were written.
What is seen through the directives is sorted, so it hangs on the set of them: two sequences that
make the same scopes visible leave tables behind that look alike, in whatever order they stand
and however often one of them is repeated.  So nothing that is looked up behind them can tell the
sequences apart, neither what is found nor how many candidates an ambiguous name has.
-/

namespace DeclTree

namespace SymbolTable

/-- Add using directives one after the other.  Each is given by the scope it stands in and the
scope whose members it makes visible there. -/
def addUsings (table : SymbolTable) (directives : List (SymbolId × SymbolId)) : SymbolTable :=
  directives.foldl (fun table directive => table.addUsing directive.1 directive.2) table

variable {table : SymbolTable} {directives first second : List (SymbolId × SymbolId)}

/-! ## Tables behind using directives -/

theorem addUsings_cons (table : SymbolTable) (directive : SymbolId × SymbolId)
    (rest : List (SymbolId × SymbolId)) :
    table.addUsings (directive :: rest) =
      (table.addUsing directive.1 directive.2).addUsings rest :=
  rfl

/-- Using directives change what scopes use and nothing else. -/
theorem get?_addUsings (table : SymbolTable) (directives : List (SymbolId × SymbolId))
    (id : SymbolId) : ∃ named, (table.addUsings directives).get? id =
      (table.get? id).map fun symbol => { symbol with directives := named } := by
  induction directives generalizing table with
  | nil =>
      cases found : table.get? id with
      | none => exact ⟨[], found⟩
      | some symbol => exact ⟨symbol.directives, found⟩
  | cons directive rest ih =>
      obtain ⟨named, later⟩ := ih (table.addUsing directive.1 directive.2)
      refine ⟨named, ?_⟩
      rw [addUsings_cons, later, addUsing, get?_update]
      split
      · rw [Option.map_map]
        rfl
      · rfl

theorem size_addUsings (table : SymbolTable) (directives : List (SymbolId × SymbolId)) :
    (table.addUsings directives).size = table.size := by
  induction directives generalizing table with
  | nil => rfl
  | cons directive rest ih => rw [addUsings_cons, ih, addUsing, size_update]

/-- A scope sees what it saw before and what directives in it name. -/
theorem mem_usings_addUsings {scope used : SymbolId} :
    used ∈ (table.addUsings directives).usings scope ↔
      used ∈ table.usings scope ∨ (scope, used) ∈ directives ∧ table.Has scope := by
  induction directives generalizing table with
  | nil => simp [addUsings]
  | cons directive rest ih =>
      obtain ⟨user, target⟩ := directive
      have has : (table.addUsing user target).Has scope ↔ table.Has scope := by
        rw [has_iff_lt, has_iff_lt, addUsing, size_update]
      rw [addUsings_cons, ih, mem_usings_addUsing, has, List.mem_cons, Prod.mk.injEq, eq_comm]
      tauto

theorem UsesDistinct.addUsings (distinct : table.UsesDistinct)
    (directives : List (SymbolId × SymbolId)) : (table.addUsings directives).UsesDistinct := by
  induction directives generalizing table with
  | nil => exact distinct
  | cons directive rest ih =>
      rw [addUsings_cons]
      refine ih fun id symbol found => ?_
      rw [SymbolTable.addUsing, get?_update] at found
      split at found
      · obtain ⟨before, there, rfl⟩ := Option.map_eq_some_iff.1 found
        exact (distinct id before there).insert
      · exact distinct id symbol found

/-- The tables behind two sequences that name the same scopes differ in the order at most in which
scopes keep what they use. -/
theorem UsesDistinct.looksAlike_addUsings (distinct : table.UsesDistinct)
    (same : ∀ directive, directive ∈ first ↔ directive ∈ second) :
    (table.addUsings second).LooksAlike (table.addUsings first) where
  size := by rw [size_addUsings, size_addUsings]
  symbols id := by
    obtain ⟨named, found⟩ := table.get?_addUsings first id
    obtain ⟨_, there⟩ := table.get?_addUsings second id
    rw [found, there]
    cases table.get? id with
    | none => exact ⟨none, [], rfl⟩
    | some symbol => exact ⟨symbol.origin, named, rfl⟩
  usings scope := by
    have : Std.Irrefl (·.index < ·.index : SymbolId → SymbolId → Prop) :=
      ⟨fun _ => Nat.lt_irrefl _⟩
    have : Std.Antisymm (·.index < ·.index : SymbolId → SymbolId → Prop) :=
      ⟨fun _ _ less greater => absurd greater (Nat.lt_asymm less)⟩
    apply ((distinct.addUsings first).pairwise_usings scope).eq_of_mem_iff
      ((distinct.addUsings second).pairwise_usings scope)
    intro used
    rw [mem_usings_addUsings, mem_usings_addUsings, same]

/-- Neither the order of using directives matters nor how often one of them is repeated.  Behind
two sequences that make the same scopes visible, every scope sees what it saw before and what the
directives name, in ascending order, and every name, qualified or not, is found, missed or
ambiguous in the same way, with as many candidates. -/
theorem Reachable.lookup_addUsings (reached : table.Reachable)
    {first second : List (SymbolId × SymbolId)}
    (same : ∀ directive, directive ∈ first ↔ directive ∈ second) :
    (∀ scope, table.Has scope →
      ((table.addUsings first).usings scope).Pairwise (·.index < ·.index) ∧
        ∀ target, target ∈ (table.addUsings first).usings scope ↔
          target ∈ table.usings scope ∨ (scope, target) ∈ first) ∧
      (∀ scope, (table.addUsings first).usings scope = (table.addUsings second).usings scope) ∧
      (∀ name scope,
        (table.addUsings first).lookup name scope = (table.addUsings second).lookup name scope) ∧
      ∀ path scope isGlobal, (table.addUsings first).lookupQualified path scope isGlobal =
        (table.addUsings second).lookupQualified path scope isGlobal := by
  have distinct := reached.consistent.usesDistinct
  have alike := distinct.looksAlike_addUsings same
  refine ⟨fun scope present => ⟨(distinct.addUsings first).pairwise_usings scope, ?_⟩,
    alike.usings, alike.lookup, alike.lookupQualified⟩
  intro target
  rw [mem_usings_addUsings, and_iff_left present]

/-- Two namespaces that know the same name make it ambiguous in the scope that uses both, with two
candidates, also where one of them is used first and last. -/
theorem lookup_addUsings_repeated :
    let table := ([.declare root { name := "f", kind := .function },
      .declare root { name := "N", kind := .namespaceScope },
      .declare ⟨2⟩ { name := "x", kind := .var },
      .declare root { name := "M", kind := .namespaceScope },
      .declare ⟨4⟩ { name := "x", kind := .var }] :
        List TableOperation).foldl SymbolTable.perform .empty
    let once := table.addUsings [(⟨1⟩, ⟨2⟩), (⟨1⟩, ⟨4⟩)]
    let repeated := table.addUsings [(⟨1⟩, ⟨4⟩), (⟨1⟩, ⟨2⟩), (⟨1⟩, ⟨4⟩)]
    repeated.usings ⟨1⟩ = [⟨2⟩, ⟨4⟩] ∧ once.lookup "x" ⟨1⟩ = .error (.ambiguous "x" 2) ∧
      repeated.lookup "x" ⟨1⟩ = .error (.ambiguous "x" 2) := by
  intro table
  have reached : table.Reachable := by
    simp only [table, List.foldl]
    exact .perform (.perform (.perform (.perform (.perform .empty rfl) rfl) rfl) rfl) rfl
  intro once repeated
  have ambiguous : once.lookup "x" ⟨1⟩ = .error (.ambiguous "x" 2) := by decide
  have seen : once.usings ⟨1⟩ = [⟨2⟩, ⟨4⟩] := by decide
  clear_value table
  have same (directive : SymbolId × SymbolId) : directive ∈ [(⟨1⟩, ⟨2⟩), (⟨1⟩, ⟨4⟩)] ↔
      directive ∈ [(⟨1⟩, ⟨4⟩), (⟨1⟩, ⟨2⟩), (⟨1⟩, ⟨4⟩)] := by
    simp only [List.mem_cons, List.not_mem_nil, or_false]
    tauto
  obtain ⟨-, usings, lookup, -⟩ := reached.lookup_addUsings same
  exact ⟨(usings ⟨1⟩).symm.trans seen, ambiguous, (lookup "x" ⟨1⟩).symm.trans ambiguous⟩

end SymbolTable

end DeclTree
