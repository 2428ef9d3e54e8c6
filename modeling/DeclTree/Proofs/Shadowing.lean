import DeclTree.Proofs.StableLookup
import DeclTree.Proofs.TemplateClosing
import Mathlib.Logic.Relation

/-!
# Declarations that a lookup does not see

A search in a scope looks at the scope and at its transparent members, and nowhere else.  A
declaration therefore leaves a lookup alone if it brings another name, or if it lands where the
lookup does not come by before it ends: a name that is found in a scope stays found there whatever
is declared under it further out, or in a member that has to be named.
-/

namespace DeclTree

namespace SymbolTable

/-- Whether a search in a scope comes by another one: the scope itself, or one nested in it
through transparent members. -/
def Sees (table : SymbolTable) : SymbolId → SymbolId → Prop :=
  Relation.ReflTransGen fun outer inner =>
    inner ∈ table.children outer ∧ table.isTransparent inner = true

/-- Whether looking a name up from a scope ends in a scope around it that knows the name itself,
behind others that do not know it at all. -/
structure EndsAt (table : SymbolTable) (name : String) (scope : SymbolId)
    (passed : List SymbolId) (last found : SymbolId) : Prop where
  outward : ∃ outer, scope :: table.ancestors scope = passed ++ last :: outer
  missed : ∀ other ∈ passed, table.lookupInScope name other = .ok none
  knows : table.findLocal last name = some found

/-- A scope whose members have to be named is seen from itself only. -/
theorem not_sees_of_ne {table : SymbolTable} {scope target : SymbolId}
    (closed : table.isTransparent target = false) (apart : scope ≠ target) :
    ¬ table.Sees scope target := by
  intro sees
  rcases sees.cases_tail with same | ⟨_, _, _, transparent⟩
  · exact apart same.symm
  · rw [closed] at transparent
    cases transparent

section Attached

variable {table : SymbolTable} {scope target : SymbolId} {name : String} {request : SymbolRequest}

theorem any_eq_bare {holds : Symbol → Bool} (same : ∀ symbol, holds symbol.bare = holds symbol)
    (id : SymbolId) : (table.get? id).any holds = (table.bare? id).any holds := by
  unfold bare?
  cases table.get? id <;> simp [same]

theorem Has.ne_fresh {id : SymbolId} (present : table.Has id) : id ≠ ⟨table.size⟩ := by
  rintro rfl
  exact table.not_has_fresh present

/-- Whatever does not hang on its members holds of a symbol before and after another is added. -/
theorem any_attach {holds : Symbol → Bool} (same : ∀ symbol, holds symbol.bare = holds symbol)
    (inside : table.HasScope target) {id : SymbolId} (present : table.Has id) :
    ((table.attach target request).2.get? id).any holds = (table.get? id).any holds := by
  rw [any_eq_bare same, any_eq_bare same, bare?_attach inside.has, if_neg present.ne_fresh]

theorem isTransparent_attach (inside : table.HasScope target) {id : SymbolId}
    (present : table.Has id) : (table.attach target request).2.isTransparent id =
      table.isTransparent id :=
  any_attach (fun _ => rfl) inside present

theorem preferred?_attach (inside : table.HasScope target) {entries : List SymbolId}
    (present : ∀ id ∈ entries, table.Has id) :
    (table.attach target request).2.preferred? entries = table.preferred? entries := by
  have flags : ∀ id ∈ entries, ((table.attach target request).2.get? id).any Symbol.defined =
      (table.get? id).any Symbol.defined :=
    fun id member => any_attach (fun _ => rfl) inside (present id member)
  unfold preferred?
  rw [List.find?_congr flags]

theorem usings_attach (inside : table.HasScope target) (present : table.Has scope) :
    (table.attach target request).2.usings scope = table.usings scope := by
  have bare (table : SymbolTable) :
      table.usings scope = ((table.bare? scope).map Symbol.uses).getD [] := by
    unfold usings bare?
    cases table.get? scope <;> rfl
  rw [bare, bare, bare?_attach inside.has, if_neg present.ne_fresh]

theorem Consistent.ancestors_attach (consistent : table.Consistent)
    (inside : table.HasScope target) (present : table.Has scope) :
    (table.attach target request).2.ancestors scope = table.ancestors scope := by
  have tree := consistent.tree
  refine tree.ancestors_congr (tree.attach inside request) present ?_
    ((has_attach table target request scope).2 (.inr present))
  intro other around
  have here := tree.has_of_chain (tree.ownedThrough_ancestors present) present other around
  rw [owner_attach inside.has, if_neg here.ne_fresh]

/-- Nothing is found in a symbol that was just added. -/
theorem OwnershipTree.findLocal_fresh (tree : table.OwnershipTree)
    (inside : table.HasScope target) (name : String) :
    (table.attach target request).2.findLocal ⟨table.size⟩ name = none := by
  have apart : target ≠ ⟨table.size⟩ := inside.has.ne_fresh
  have childless : (table.attach target request).2.children ⟨table.size⟩ = [] := by
    rw [children_attach inside, children_of_not_has table.not_has_fresh, if_neg (Ne.symm apart)]
    rfl
  have bare : (table.attach target request).2.entries ⟨table.size⟩ name = [] := by
    rw [entries_attach inside, entries_of_not_has table.not_has_fresh, if_neg fun same =>
      apart same.1]
    rfl
  rw [(tree.attach inside request).findLocal_eq, childless, bare]
  rfl

/-- A search finds what it found before a symbol was added under another name or where it does
not come by. -/
theorem Consistent.findLocal_attach (consistent : table.Consistent)
    (inside : table.HasScope target) (present : table.Has scope)
    (unseen : request.name ≠ name ∨ ¬ table.Sees scope target) :
    (table.attach target request).2.findLocal scope name = table.findLocal scope name := by
  have tree := consistent.tree
  induction scope using tree.wellFounded_children.induction with
  | _ scope ih =>
    have entered : (table.attach target request).2.entries scope name =
        table.entries scope name := by
      rw [entries_attach inside, if_neg, List.append_nil]
      rintro ⟨rfl, rfl, _⟩
      exact unseen.elim (fun other => other rfl) fun aside => aside .refl
    have inner : ∀ child ∈ (table.children scope).filter table.isTransparent,
        (table.attach target request).2.findLocal child name = table.findLocal child name := by
      intro child member
      obtain ⟨listed, transparent⟩ := List.mem_filter.1 member
      refine ih child listed (consistent.has_of_mem_children listed) (unseen.imp_right ?_)
      exact fun aside further => aside (.head ⟨listed, transparent⟩ further)
    have listed : ((table.attach target request).2.children scope).filter
        (table.attach target request).2.isTransparent =
          (table.children scope).filter table.isTransparent ++
            (if scope = target then [⟨table.size⟩] else []).filter
              (table.attach target request).2.isTransparent := by
      rw [children_attach inside, List.filter_append]
      congr 1
      exact List.filter_congr fun child member =>
        isTransparent_attach inside (consistent.has_of_mem_children member)
    have added : ((if scope = target then [⟨table.size⟩] else []).filter
        (table.attach target request).2.isTransparent).findSome?
          (fun child => (table.attach target request).2.findLocal child name) = none := by
      rw [List.findSome?_eq_none_iff]
      intro child member
      have fresh := List.mem_of_mem_filter member
      split at fresh
      · rw [List.mem_singleton.1 fresh]
        exact tree.findLocal_fresh inside name
      · cases fresh
    rw [(tree.attach inside request).findLocal_eq, tree.findLocal_eq, entered, listed,
      preferred?_attach inside fun id member => consistent.has_of_mem_entries member,
      List.findSome?_append, added, Option.or_none, findSome?_congr inner]

theorem Consistent.has_of_mem_usings (consistent : table.Consistent)
    {used : SymbolId} (member : used ∈ table.usings scope) : table.Has used := by
  obtain ⟨symbol, found, named⟩ := mem_usings.1 member
  exact (table.has_iff_lt used).2 ((consistent.symbols scope symbol found).directives used named)

theorem Consistent.lookupInScope_attach (consistent : table.Consistent)
    (inside : table.HasScope target) (present : table.Has scope) (other : request.name ≠ name) :
    (table.attach target request).2.lookupInScope name scope = table.lookupInScope name scope := by
  have candidates : (table.attach target request).2.usedCandidates scope name =
      table.usedCandidates scope name := by
    unfold usedCandidates
    rw [usings_attach inside present]
    congr 1
    refine List.filterMap_congr fun used member => ?_
    exact consistent.findLocal_attach inside (consistent.has_of_mem_usings member) (.inl other)
  unfold lookupInScope
  rw [consistent.findLocal_attach inside present (.inl other), candidates]

end Attached

/-! ## Looking names up from a scope outward -/

section Lookup

variable {table after : SymbolTable} {scope target last id found : SymbolId} {name : String}
  {passed : List SymbolId} {request : SymbolRequest}

theorem lookupAlong_congr {scopes : List SymbolId}
    (same : ∀ scope ∈ scopes, after.lookupInScope name scope = table.lookupInScope name scope) :
    after.lookupAlong name scopes = table.lookupAlong name scopes := by
  induction scopes with
  | nil => rfl
  | cons scope outer ih =>
      rw [lookupAlong, lookupAlong, same scope List.mem_cons_self,
        ih fun other member => same other (List.mem_cons_of_mem _ member)]

theorem lookupAlong_of_missed {outer : List SymbolId}
    (missed : ∀ other ∈ passed, table.lookupInScope name other = .ok none)
    (knows : table.findLocal last name = some found) :
    table.lookupAlong name (passed ++ last :: outer) = .ok found := by
  induction passed with
  | nil => rw [List.nil_append, lookupAlong, lookupInScope_of_findLocal knows]
  | cons scope rest ih =>
      rw [List.cons_append, lookupAlong, missed scope List.mem_cons_self,
        ih fun other member => missed other (List.mem_cons_of_mem _ member)]

theorem EndsAt.lookup_eq (ends : table.EndsAt name scope passed last found) :
    table.lookup name scope = .ok found := by
  obtain ⟨outer, outward⟩ := ends.outward
  rw [lookup, outward]
  exact lookupAlong_of_missed ends.missed ends.knows

/-- A name that is unknown in a scope without using directives is found nowhere in it. -/
theorem lookupInScope_eq_none_iff (plain : table.usings scope = []) :
    table.lookupInScope name scope = .ok none ↔ table.findLocal scope name = none := by
  unfold lookupInScope usedCandidates
  rw [plain]
  cases table.findLocal scope name <;> simp

/-- The scopes that a lookup comes by exist. -/
theorem Consistent.has_of_around (consistent : table.Consistent) (present : table.Has scope)
    {other : SymbolId} (around : other ∈ scope :: table.ancestors scope) : table.Has other :=
  consistent.tree.has_of_chain (consistent.tree.ownedThrough_ancestors present) present other around

/-- A declaration of another name does not change what a lookup yields. -/
theorem Consistent.lookup_attach_of_ne (consistent : table.Consistent)
    (inside : table.HasScope target) (present : table.Has scope) (other : request.name ≠ name) :
    (table.attach target request).2.lookup name scope = table.lookup name scope := by
  rw [lookup, consistent.ancestors_attach inside present, lookup]
  exact lookupAlong_congr fun around member =>
    consistent.lookupInScope_attach inside (consistent.has_of_around present member) other

/-- A lookup ends where it ended before if nothing it comes by up to there sees the scope that a
symbol is added to. -/
theorem Consistent.endsAt_attach (consistent : table.Consistent) (inside : table.HasScope target)
    (present : table.Has scope) (ends : table.EndsAt name scope passed last found)
    (plain : ∀ other ∈ passed, table.usings other = [])
    (unseen : ∀ other ∈ passed ++ [last], ¬ table.Sees other target) :
    (table.attach target request).2.EndsAt name scope passed last found := by
  obtain ⟨outer, outward⟩ := ends.outward
  have around (other : SymbolId) (member : other ∈ passed ++ [last]) : table.Has other := by
    refine consistent.has_of_around present ?_
    rw [outward, List.append_cons]
    exact List.mem_append_left _ member
  have same (other : SymbolId) (member : other ∈ passed ++ [last]) :
      (table.attach target request).2.findLocal other name = table.findLocal other name :=
    consistent.findLocal_attach inside (around other member) (.inr (unseen other member))
  refine ⟨⟨outer, ?_⟩, fun other member => ?_, ?_⟩
  · rw [consistent.ancestors_attach inside present, outward]
  · have member' : other ∈ passed ++ [last] := List.mem_append_left _ member
    have plain' : (table.attach target request).2.usings other = [] := by
      rw [usings_attach inside (around other member'), plain other member]
    rw [lookupInScope_eq_none_iff plain', same other member',
      ← lookupInScope_eq_none_iff (plain other member)]
    exact ends.missed other member
  · rw [same last (by simp)]
    exact ends.knows

/-- A declaration does not interfere with the lookup of other names, nor with the lookup of its
own name from where it is not seen: from a scope out to the one that knows the name, if the scopes
passed have no using directives and the declaration lands neither in one of these scopes nor in
what is visible there through transparent members. -/
theorem Reachable.lookup_declare (reached : table.Reachable)
    (declared : table.declare target request = .ok (id, after)) (present : table.Has scope) :
    (request.name ≠ name → after.lookup name scope = table.lookup name scope) ∧
      ∀ passed last found, table.EndsAt name scope passed last found →
        (∀ other ∈ passed, table.usings other = []) →
        (∀ other ∈ passed ++ [last], ¬ table.Sees other target) →
          table.lookup name scope = .ok found ∧ after.lookup name scope = .ok found := by
  obtain ⟨inside, attached⟩ := attach_of_declare declared
  obtain ⟨rfl, rfl⟩ := Prod.mk.inj attached
  have consistent := reached.consistent
  refine ⟨consistent.lookup_attach_of_ne inside present, ?_⟩
  intro passed last found ends plain unseen
  exact ⟨ends.lookup_eq, (consistent.endsAt_attach inside present ends plain unseen).lookup_eq⟩

/-- A variable that is declared in a namespace does not get in the way of a global one of the same
name, seen from a function. -/
theorem lookup_declare_beside :
    let table := ([.declare root { name := "x", kind := .var },
      .declare root { name := "f", kind := .function },
      .declare root { name := "N", kind := .namespaceScope }] :
        List TableOperation).foldl SymbolTable.perform .empty
    ∃ id after, table.declare ⟨3⟩ { name := "x", kind := .var } = .ok (id, after) ∧
      table.lookup "x" ⟨2⟩ = .ok ⟨1⟩ ∧ after.lookup "x" ⟨2⟩ = .ok ⟨1⟩ ∧
      after.lookup "f" ⟨3⟩ = table.lookup "f" ⟨3⟩ := by
  intro table
  have reached : table.Reachable := by
    simp only [table, List.foldl]
    exact .perform (.perform (.perform .empty rfl) rfl) rfl
  have free : table.checkContainer ⟨3⟩ = .ok () ∧ table.checkConflict ⟨3⟩ "x"
      (.ofRequest { name := "x", kind := .var } false) = .ok () := by decide
  have closed : table.isTransparent ⟨3⟩ = false := by decide
  have plain : table.usings ⟨2⟩ = [] := by decide
  have ends : table.EndsAt "x" ⟨2⟩ [⟨2⟩] root ⟨1⟩ := by
    refine ⟨⟨[], by decide⟩, ?_, by decide⟩
    simp only [List.mem_singleton, forall_eq]
    exact (lookupInScope_eq_none_iff plain).2 (by decide)
  have present : table.Has ⟨2⟩ ∧ table.Has ⟨3⟩ := by
    simp only [has_iff_lt]
    decide
  -- From here on the table matters through these facts only.
  clear_value table
  have declared : table.declare ⟨3⟩ { name := "x", kind := .var } =
      .ok (table.attach ⟨3⟩ { name := "x", kind := .var }) := by
    simp only [SymbolTable.declare, free]
    rfl
  have unseen : ∀ other ∈ [⟨2⟩] ++ [root], ¬ table.Sees other ⟨3⟩ := by
    intro other member
    refine not_sees_of_ne closed ?_
    rintro rfl
    revert member
    decide
  refine ⟨_, _, declared, ?_⟩
  obtain ⟨before, behind⟩ := (reached.lookup_declare declared present.1).2 [⟨2⟩] root ⟨1⟩ ends
    (by simpa using plain) unseen
  exact ⟨before, behind, (reached.lookup_declare declared present.2).1 (by decide)⟩

end Lookup

end SymbolTable

end DeclTree
