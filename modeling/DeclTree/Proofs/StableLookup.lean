import DeclTree.Proofs.AppendOnly
import DeclTree.Proofs.FoundSymbols
import Mathlib.Data.List.Find

/-!
# Definitions keep being found

A scope prefers its first definition of a name.  Later units enter new symbols behind the
old ones and leave the flags of the old ones alone, so a name that leads to a definition
entered in the scope itself leads there for good, and so does a qualified name all of
whose segments do.
-/

namespace DeclTree

/-- A symbol that keeps its members remains a scope or none. -/
theorem Symbol.Kept.isContainer_eq {before after : Symbol} (kept : before.Kept after) :
    after.isContainer = before.isContainer := by
  have related := kept.members
  unfold Symbol.isContainer
  generalize before.members = old at related
  generalize after.members = new at related
  cases related <;> rfl

namespace SymbolTable

/-- A name is settled in a scope if it leads to a definition that the scope itself has
entered under the name. -/
structure Settles (table : SymbolTable) (scope : SymbolId) (name : String) (id : SymbolId) :
    Prop where
  found : table.findLocal scope name = some id
  entered : id ∈ table.entries scope name
  defined : (table.get? id).any Symbol.defined = true

/-- A path is settled if each of its segments is, in the scope that the segment before it
names. -/
inductive SettlesPath (table : SymbolTable) : SymbolId → List String → SymbolId → Prop
  | last {scope id : SymbolId} {name : String} (settled : table.Settles scope name id) :
      SettlesPath table scope [name] id
  | further {scope id inner target : SymbolId} {name : String} {rest : List String}
      (settled : table.Settles scope name id) (inside : table.scopeOf id = some inner)
      (path : SettlesPath table inner rest target) :
      SettlesPath table scope (name :: rest) target

theorem preferred?_ne_none {table : SymbolTable} {entries : List SymbolId} {id : SymbolId}
    (entered : id ∈ entries) : table.preferred? entries ≠ none := by
  unfold preferred?
  split
  · simp
  · cases entries with
    | nil => cases entered
    | cons first rest => simp

/-- A settled name leads to the first definition among its entries. -/
theorem Settles.find?_eq {table : SymbolTable} (tree : table.OwnershipTree) {scope id : SymbolId}
    {name : String} (settled : table.Settles scope name id) :
    (table.entries scope name).find? (fun entry => (table.get? entry).any Symbol.defined) =
      some id := by
  have chosen : table.preferred? (table.entries scope name) = some id := by
    have found := settled.found
    rw [tree.findLocal_eq] at found
    cases preferred : table.preferred? (table.entries scope name) with
    | none => exact absurd preferred (preferred?_ne_none settled.entered)
    | some first => simpa only [preferred] using found
  unfold preferred? at chosen
  split at chosen
  · rename_i definition first
    rw [first, chosen]
  · rename_i missing
    have undefined := List.find?_eq_none.1 missing id settled.entered
    exact absurd settled.defined undefined

section Continues

variable {before after : SymbolTable}

theorem Continues.defined_eq (continues : before.Continues after) {id : SymbolId}
    (present : before.Has id) :
    (after.get? id).any Symbol.defined = (before.get? id).any Symbol.defined := by
  obtain ⟨symbol, found⟩ := Option.isSome_iff_exists.1 present
  obtain ⟨changed, there, kept⟩ := continues.symbols id symbol found
  simp [found, there, kept.defined]

/-- New entries stand behind the old ones, whose flags are as before. -/
theorem Continues.settles (continues : before.Continues after) (consistent : before.Consistent)
    (tree : after.OwnershipTree) {scope id : SymbolId} {name : String}
    (settled : before.Settles scope name id) : after.Settles scope name id := by
  obtain ⟨more, extended⟩ := (continues.members scope).2 name
  have entered : id ∈ after.entries scope name := by
    rw [← extended]
    exact List.mem_append_left more settled.entered
  have sameFlags : ∀ entry ∈ before.entries scope name,
      (after.get? entry).any Symbol.defined = (before.get? entry).any Symbol.defined :=
    fun entry member => continues.defined_eq (consistent.has_of_mem_entries member)
  have first : (after.entries scope name).find?
      (fun entry => (after.get? entry).any Symbol.defined) = some id := by
    rw [← extended, List.find?_append, List.find?_congr sameFlags,
      settled.find?_eq consistent.tree, Option.some_or]
  refine ⟨?_, entered, ?_⟩
  · rw [tree.findLocal_eq, preferred?, first]
  · rw [sameFlags id settled.entered]
    exact settled.defined

/-- A symbol that leads to a scope goes on to lead there. -/
theorem Continues.scopeOf (continues : before.Continues after) (consistent : before.Consistent)
    (consistentAfter : after.Consistent) {id scope : SymbolId}
    (inside : before.scopeOf id = some scope) : after.scopeOf id = some scope := by
  induction id using consistent.wellFounded_templated.induction with
  | _ id ih =>
    cases found : before.get? id with
    | none => simp [consistent.scopeOf_eq, found] at inside
    | some symbol =>
        obtain ⟨changed, there, kept⟩ := continues.symbols id symbol found
        have sameScope : changed.isContainer = symbol.isContainer := kept.isContainer_eq
        rw [consistent.scopeOf_eq, found] at inside
        rw [consistentAfter.scopeOf_eq, there]
        simp only [kept.kind, sameScope]
        cases kind : symbol.kind with
        | template info =>
            simp only [kind] at inside ⊢
            obtain ⟨inner, wraps, leads⟩ := Option.bind_eq_some_iff.1 inside
            have step : before.templated? id = some inner :=
              templated?_eq_some_iff.2 ⟨symbol, info, found, kind, wraps⟩
            rw [wraps]
            exact ih inner step leads
        | _ => simpa only [kind] using inside

theorem Continues.settlesPath (continues : before.Continues after)
    (consistent : before.Consistent) (consistentAfter : after.Consistent) {scope target : SymbolId}
    {path : List String} (settled : before.SettlesPath scope path target) :
    after.SettlesPath scope path target := by
  induction settled with
  | last settled => exact .last (continues.settles consistent consistentAfter.tree settled)
  | further settled inside _ ih =>
      exact .further (continues.settles consistent consistentAfter.tree settled)
        (continues.scopeOf consistent consistentAfter inside) ih

end Continues

/-! ## Qualified names -/

theorem lookupInScope_of_findLocal {table : SymbolTable} {scope id : SymbolId} {name : String}
    (found : table.findLocal scope name = some id) :
    table.lookupInScope name scope = .ok (some id) := by
  rw [lookupInScope, found]

/-- The segments behind a scope lead on through settled names. -/
theorem SettlesPath.lookupMembers {table : SymbolTable} {scope target current : SymbolId}
    {path : List String} (settled : table.SettlesPath scope path target)
    (inside : table.scopeOf current = some scope) :
    table.lookupMembers current path = .ok target := by
  induction settled generalizing current with
  | last settled => simp only [SymbolTable.lookupMembers, inside, settled.found]
  | further settled next _ ih =>
      simp only [SymbolTable.lookupMembers, inside, settled.found]
      exact ih next

/-- A settled path from the global scope is a global name of its target. -/
theorem SettlesPath.lookupQualified {table : SymbolTable} {target : SymbolId}
    {path : List String} (settled : table.SettlesPath root path target) (scope : SymbolId) :
    table.lookupQualified path scope true = .ok target := by
  cases settled with
  | last settled =>
      simp [SymbolTable.lookupQualified, lookupFirst, lookupInScope_of_findLocal settled.found,
        SymbolTable.lookupMembers]
  | further settled inside path =>
      simp [SymbolTable.lookupQualified, lookupFirst, lookupInScope_of_findLocal settled.found,
        path.lookupMembers inside]

end SymbolTable

namespace Session

theorem Placed.continues {session : Session} (placed : session.Placed) (call : SessionCall) :
    session.table.Continues (session.perform call).table := by
  have appends := continues_parseUnit session.options placed.reached placed.closed
    placed.namespaces ⟨session.units.size⟩
  cases call with
  | parse source => exact (appends source).2
  | parseStrict source => exact (appends source).2

/-- What passes from a table to one that continues it holds after any further calls. -/
theorem Placed.carries {session : Session} (placed : session.Placed)
    {holds : SymbolTable → Prop} (initially : holds session.table)
    (passes : ∀ before after : SymbolTable, before.Consistent → after.Consistent →
      before.Continues after → holds before → holds after)
    (further : List SessionCall) : holds (session.performAll further).table := by
  induction further generalizing session with
  | nil => exact initially
  | cons call rest ih =>
      have later : (session.perform call).Placed := placed.perform call
      exact ih later (passes session.table (session.perform call).table placed.reached.consistent
        later.reached.consistent (placed.continues call) initially)

/-- After any calls of a new session, a name that leads to a definition entered in the
scope itself leads to the same definition after any further calls; a global qualified name
each of whose segments is found in this way names the same symbol then. -/
theorem definitions_stay_found (options : ParseOptions) (calls further : List SessionCall) :
    let session := ({ options := options } : Session).performAll calls
    let later := session.performAll further
    (∀ scope name id, session.table.findLocal scope name = some id →
      id ∈ session.table.entries scope name → (session.table.get? id).any Symbol.defined = true →
        later.table.findLocal scope name = some id) ∧
      ∀ path id, session.table.SettlesPath SymbolTable.root path id → ∀ scope,
        session.table.lookupQualified path scope true = .ok id ∧
          later.table.lookupQualified path scope true = .ok id := by
  intro session later
  have placed : session.Placed := (placed_new options).performAll calls
  constructor
  · intro scope name id found entered defined
    have settled : session.table.Settles scope name id := ⟨found, entered, defined⟩
    have kept : later.table.Settles scope name id :=
      placed.carries settled (fun _ _ consistent consistentAfter continues settled =>
        continues.settles consistent consistentAfter.tree settled) further
    exact kept.found
  · intro path id settled scope
    have kept : later.table.SettlesPath SymbolTable.root path id :=
      placed.carries settled (fun _ _ consistent consistentAfter continues settled =>
        continues.settlesPath consistent consistentAfter settled) further
    exact ⟨settled.lookupQualified scope, kept.lookupQualified scope⟩

/-- A class template that is declared, then defined, and defined once more by a further
unit: its first definition and the member of that keep being found. -/
theorem definitions_stay_found_template :
    let session := ({} : Session).performAll
      [.parse "template<class T> struct b; template<class T> struct b { int x; };"]
    let later := session.performAll [.parse "template<class T> struct b { };"]
    later.table.entries SymbolTable.root "b" = [⟨1⟩, ⟨4⟩, ⟨8⟩] ∧
      later.table.findLocal SymbolTable.root "b" = some ⟨4⟩ ∧
      later.table.lookupQualified ["b", "x"] SymbolTable.root true = .ok ⟨7⟩ := by
  intro session later
  have stays := definitions_stay_found {}
    [.parse "template<class T> struct b; template<class T> struct b { int x; };"]
    [.parse "template<class T> struct b { };"]
  have facts : session.table.findLocal SymbolTable.root "b" = some ⟨4⟩ ∧
      ⟨4⟩ ∈ session.table.entries SymbolTable.root "b" ∧
      (session.table.get? ⟨4⟩).any Symbol.defined = true ∧
      session.table.scopeOf ⟨4⟩ = some ⟨6⟩ ∧ session.table.findLocal ⟨6⟩ "x" = some ⟨7⟩ ∧
      ⟨7⟩ ∈ session.table.entries ⟨6⟩ "x" ∧
      (session.table.get? ⟨7⟩).any Symbol.defined = true := by
    decide +kernel
  obtain ⟨found, entered, defined, inside, foundMember, enteredMember, definedMember⟩ := facts
  have path : session.table.SettlesPath SymbolTable.root ["b", "x"] ⟨7⟩ :=
    .further ⟨found, entered, defined⟩ inside (.last ⟨foundMember, enteredMember, definedMember⟩)
  exact ⟨by decide +kernel, stays.1 SymbolTable.root "b" ⟨4⟩ found entered defined,
    (stays.2 ["b", "x"] ⟨7⟩ path SymbolTable.root).2⟩

end Session

end DeclTree
