import DeclTree.Proofs.LookupTermination

/-!
# What a search finds

Members and entries of a scope are symbols of the table, so whatever a search
finds exists, however far it goes.
-/

namespace DeclTree

namespace SymbolTable

variable {table : SymbolTable} {scope id : SymbolId} {name : String}

theorem Consistent.has_of_mem_children (consistent : table.Consistent)
    (member : id ∈ table.children scope) : table.Has id :=
  has_of_owner ((consistent.tree.mem_children scope id).1 member)

/-- What is entered in a scope is declared in it. -/
theorem Consistent.mem_children_of_mem_entries (consistent : table.Consistent)
    (entered : id ∈ table.entries scope name) : id ∈ table.children scope := by
  cases inside : table.members? scope with
  | none => simp [entries, inside] at entered
  | some members =>
      obtain ⟨symbol, found, has⟩ := Option.bind_eq_some_iff.1 inside
      obtain ⟨entry, named, rfl⟩ : ∃ entry ∈ members.names.filter (·.1 = name), entry.2 = id := by
        simpa only [entries, inside, Option.map_some, Option.getD_some, Members.named,
          List.mem_map] using entered
      have listed := (consistent.symbols scope symbol found).names members has entry
        (List.mem_of_mem_filter named)
      simpa [children, inside] using listed

theorem Consistent.has_of_mem_entries (consistent : table.Consistent)
    (entered : id ∈ table.entries scope name) : table.Has id :=
  consistent.has_of_mem_children (consistent.mem_children_of_mem_entries entered)

theorem mem_of_preferred? {entries : List SymbolId}
    (chosen : table.preferred? entries = some id) : id ∈ entries := by
  unfold preferred? at chosen
  split at chosen
  · rename_i definition found
    obtain rfl := Option.some.inj chosen
    exact List.mem_of_find?_eq_some found
  · exact List.mem_of_mem_head? chosen

/-- A symbol found in a scope or in its transparent members exists. -/
theorem Consistent.has_of_findWithin (consistent : table.Consistent) {bound : Nat}
    (found : table.findWithin name bound scope = some id) : table.Has id := by
  induction bound generalizing scope with
  | zero => simp [findWithin] at found
  | succ bound ih =>
      unfold findWithin at found
      split at found
      · rename_i chosen preferred
        obtain rfl := Option.some.inj found
        exact consistent.has_of_mem_entries (mem_of_preferred? preferred)
      · obtain ⟨child, _, inside⟩ := List.exists_of_findSome?_eq_some found
        exact ih inside

theorem Consistent.has_of_lookupInScope (consistent : table.Consistent)
    (found : table.lookupInScope name scope = .ok (some id)) : table.Has id := by
  unfold lookupInScope at found
  split at found
  · rename_i direct here
    obtain rfl : direct = id := by simpa using found
    exact consistent.has_of_findWithin here
  · split at found
    · simp at found
    · rename_i single candidates
      obtain rfl : single = id := by simpa using found
      have member : single ∈ table.usedCandidates scope name := by simp [candidates]
      unfold usedCandidates at member
      rw [List.mem_eraseDups, List.mem_filterMap] at member
      obtain ⟨target, _, used⟩ := member
      exact consistent.has_of_findWithin used
    · simp at found

/-- A symbol found by an unqualified name exists. -/
theorem Consistent.has_of_lookup (consistent : table.Consistent)
    (found : table.lookup name scope = .ok id) : table.Has id := by
  unfold lookup at found
  generalize scope :: table.ancestors scope = scopes at found
  induction scopes with
  | nil => simp [lookupAlong] at found
  | cons inner outer ih =>
      unfold lookupAlong at found
      split at found
      · simp at found
      · rename_i here
        obtain rfl := Except.ok.inj found
        exact consistent.has_of_lookupInScope here
      · exact ih found

theorem Consistent.has_of_lookupFirst (consistent : table.Consistent) {isGlobal : Bool}
    (found : table.lookupFirst name scope isGlobal = .ok id) : table.Has id := by
  unfold lookupFirst at found
  split at found
  · split at found
    · simp at found
    · simp at found
    · rename_i here
      obtain rfl := Except.ok.inj found
      exact consistent.has_of_lookupInScope here
  · exact consistent.has_of_lookup found

theorem Consistent.has_of_lookupMembers (consistent : table.Consistent) {start : SymbolId}
    {segments : List String} (present : table.Has start)
    (found : table.lookupMembers start segments = .ok id) : table.Has id := by
  induction segments generalizing start with
  | nil =>
      obtain rfl := Except.ok.inj found
      exact present
  | cons segment rest ih =>
      unfold lookupMembers at found
      split at found
      · simp at found
      · split at found
        · simp at found
        · rename_i member here
          exact ih (consistent.has_of_findWithin here) found

/-- A symbol found by a qualified name exists. -/
theorem Consistent.has_of_lookupQualified (consistent : table.Consistent)
    {segments : List String} {isGlobal : Bool}
    (found : table.lookupQualified segments scope isGlobal = .ok id) : table.Has id := by
  unfold lookupQualified at found
  split at found
  · simp at found
  · split at found
    · simp at found
    · rename_i here
      exact consistent.has_of_lookupMembers (consistent.has_of_lookupFirst here) found

end SymbolTable

end DeclTree
