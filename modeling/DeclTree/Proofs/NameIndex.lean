import DeclTree.Proofs.OpenTemplates
import DeclTree.Proofs.RefusedOperation

/-!
# The name index of a scope

A scope lists its members and enters them under their names.  What is entered is always a
member of that name, and is entered once.  The converse, that members with a name are
entered under it and members without one nowhere, is kept by every operation but one kind:
a declaration behind template prefixes enters also the empty name, and names templates
before it finds out that it cannot move them.
-/

namespace DeclTree

namespace SymbolTable

/-- The index of a scope is exact if under every name it has the members of that name, each
once, and nothing under the empty name. -/
def Indexed (table : SymbolTable) : Prop :=
  ∀ scope name, (table.entries scope name).Nodup ∧
    (name ≠ "" → ∀ id, id ∈ table.entries scope name ↔
      id ∈ table.children scope ∧ table.nameOf id = some name) ∧
    (name = "" → table.entries scope name = [])

/-- Every entry is that of an owned symbol of its name, entered once, every owned symbol with
a name is entered, unless it is pending, and nothing is entered under the empty name, unless
that is tolerated. -/
structure Listed (table : SymbolTable) (tolerant : Prop) (pending : SymbolId → Prop) : Prop where
  nodup : ∀ scope name, (table.entries scope name).Nodup
  sound : ∀ scope name id, id ∈ table.entries scope name →
    table.owner id = some scope ∧ table.nameOf id = some name
  complete : ∀ scope name id, table.owner id = some scope → table.nameOf id = some name →
    name ≠ "" → ¬ pending id → id ∈ table.entries scope name
  silent : ¬ tolerant → ∀ scope, table.entries scope "" = []

theorem OwnershipTree.indexed_iff {table : SymbolTable} (tree : table.OwnershipTree) :
    table.Indexed ↔ table.Listed False fun _ => False := by
  constructor
  · intro indexed
    have silent (scope : SymbolId) : table.entries scope "" = [] := (indexed scope "").2.2 rfl
    refine ⟨fun scope name => (indexed scope name).1, ?_, ?_, fun _ => silent⟩
    · intro scope name id member
      by_cases named : name = ""
      · subst named
        rw [silent scope] at member
        cases member
      · obtain ⟨child, called⟩ := ((indexed scope name).2.1 named id).1 member
        exact ⟨(tree.mem_children scope id).1 child, called⟩
    · intro scope name id owned called named _
      exact ((indexed scope name).2.1 named id).2 ⟨(tree.mem_children scope id).2 owned, called⟩
  · intro listed scope name
    refine ⟨listed.nodup scope name, ?_, ?_⟩
    · intro named id
      constructor
      · intro member
        obtain ⟨owned, called⟩ := listed.sound scope name id member
        exact ⟨(tree.mem_children scope id).2 owned, called⟩
      · rintro ⟨child, called⟩
        exact listed.complete scope name id ((tree.mem_children scope id).1 child) called named
          not_false
    · rintro rfl
      exact listed.silent not_false scope

/-! ## Names across basic changes -/

theorem nameOf_update {table : SymbolTable} {id other : SymbolId} {change : Symbol → Symbol}
    (keeps : id = other → ∀ symbol, (change symbol).name = symbol.name) :
    (table.update id change).nameOf other = table.nameOf other := by
  unfold nameOf
  rw [get?_update]
  split
  · rename_i same
    cases table.get? other <;> simp [keeps same]
  · rfl

theorem nameOf_attach {table : SymbolTable} {scope : SymbolId} (present : table.Has scope)
    (request : SymbolRequest) (id : SymbolId) :
    (table.attach scope request).2.nameOf id =
      if id = ⟨table.size⟩ then some request.name else table.nameOf id := by
  have old : scope ≠ ⟨table.size⟩ := by
    rintro rfl
    exact table.not_has_fresh present
  unfold nameOf
  rw [get?_attach]
  by_cases fresh : id = ⟨table.size⟩
  · simp [fresh, Ne.symm old, Symbol.ofRequest]
  · simp only [fresh, if_false]
    cases table.get? id with
    | none => rfl
    | some symbol =>
        simp only [Option.map_some, Option.some.injEq]
        split <;> rfl

theorem nameOf_relocate (table : SymbolTable) (id scope other : SymbolId) :
    (table.relocate id scope).nameOf other = table.nameOf other := by
  unfold nameOf
  rw [get?_relocate]
  cases table.get? other with
  | none => rfl
  | some symbol =>
      simp only [Option.map_some, Option.some.injEq]
      split <;> split <;> split <;> rfl

theorem owner_update {table : SymbolTable} {id : SymbolId} {change : Symbol → Symbol}
    (keeps : ∀ symbol, (change symbol).owner = symbol.owner) (other : SymbolId) :
    (table.update id change).owner other = table.owner other := by
  unfold owner
  rw [get?_update]
  split
  · cases table.get? other <;> simp [keeps]
  · rfl

namespace Listed

variable {table after : SymbolTable} {tolerant : Prop} {pending : SymbolId → Prop}
  {id scope : SymbolId}

theorem mono {waiting : SymbolId → Prop} (listed : table.Listed tolerant pending)
    (more : ∀ id, pending id → waiting id) : table.Listed tolerant waiting where
  nodup := listed.nodup
  sound := listed.sound
  silent := listed.silent
  complete scope name id owned called named free :=
    listed.complete scope name id owned called named fun was => free (more id was)

theorem update (listed : table.Listed tolerant pending) {change : Symbol → Symbol}
    (names : ∀ symbol, (change symbol).name = symbol.name)
    (owners : ∀ symbol, (change symbol).owner = symbol.owner)
    (members : ∀ symbol, (change symbol).members = symbol.members) :
    (table.update id change).Listed tolerant pending where
  nodup scope name := by
    rw [entries_update members]
    exact listed.nodup scope name
  sound scope name other member := by
    rw [entries_update members] at member
    rw [owner_update owners, nameOf_update fun _ => names]
    exact listed.sound scope name other member
  complete scope name other owned called named free := by
    rw [owner_update owners] at owned
    rw [nameOf_update fun _ => names] at called
    rw [entries_update members]
    exact listed.complete scope name other owned called named free
  silent strict scope := by
    rw [entries_update members]
    exact listed.silent strict scope

/-- A new symbol is entered under its name in the scope that owns it. -/
theorem attach (listed : table.Listed tolerant pending) (consistent : table.Consistent)
    (inside : table.HasScope scope) (request : SymbolRequest) :
    (table.attach scope request).2.Listed tolerant pending where
  nodup other name := by
    rw [entries_attach inside, List.nodup_append]
    refine ⟨listed.nodup other name, ?_, ?_⟩
    · split <;> simp
    · intro entry member last fresh equal
      subst equal
      split at fresh
      · rw [List.mem_singleton.1 fresh] at member
        exact table.not_has_fresh (consistent.has_of_mem_entries member)
      · cases fresh
  sound other name entry member := by
    rw [entries_attach inside] at member
    rw [owner_attach inside.has, nameOf_attach inside.has]
    rcases List.mem_append.1 member with earlier | last
    · have old : entry ≠ ⟨table.size⟩ := by
        rintro rfl
        exact table.not_has_fresh (consistent.has_of_mem_entries earlier)
      rw [if_neg old, if_neg old]
      exact listed.sound other name entry earlier
    · split at last
      · rename_i added
        obtain ⟨rfl, rfl, _⟩ := added
        rw [List.mem_singleton.1 last]
        simp
      · cases last
  complete other name entry owned called named free := by
    rw [owner_attach inside.has] at owned
    rw [nameOf_attach inside.has] at called
    rw [entries_attach inside, List.mem_append]
    split at owned
    · rename_i fresh
      rw [if_pos fresh] at called
      exact .inr (by simp [Option.some.inj owned, Option.some.inj called, named, fresh])
    · rename_i old
      rw [if_neg old] at called
      exact .inl (listed.complete other name entry owned called named free)
  silent strict other := by
    rw [entries_attach inside, listed.silent strict other]
    simp

/-- A symbol that is moved is entered in its new scope and nowhere else. -/
theorem relocate (listed : table.Listed tolerant fun other => pending other ∨ other = id)
    (present : table.Has id) (inside : table.HasScope scope) :
    (table.relocate id scope).Listed tolerant pending := by
  obtain ⟨symbol, found⟩ := Option.isSome_iff_exists.1 present
  have nameOf : table.nameOf id = some symbol.name := by simp [SymbolTable.nameOf, found]
  -- Entries of the symbol are all in the scope that it leaves.
  have entered (other : SymbolId) (name : String) : (table.relocate id scope).entries other name =
      (table.entries other name).filter (· ≠ id) ++
        if scope = other ∧ symbol.name = name ∧ name ≠ "" then [id] else [] := by
    rw [entries_relocate inside, nameOf, Option.getD_some]
    congr 1
    split
    · rfl
    · rename_i elsewhere
      rw [eq_comm, List.filter_eq_self]
      intro entry member
      simp only [ne_eq, decide_eq_true_eq]
      rintro rfl
      exact elsewhere (listed.sound other name entry member).1
  constructor
  · intro other name
    rw [entered, List.nodup_append]
    refine ⟨(listed.nodup other name).filter _, ?_, ?_⟩
    · split <;> simp
    · intro entry member last fresh
      have different : entry ≠ id := by simpa using (List.mem_filter.1 member).2
      split at fresh
      · rw [List.mem_singleton.1 fresh]
        exact different
      · cases fresh
  · intro other name entry member
    rw [entered] at member
    rw [owner_relocate present, nameOf_relocate]
    rcases List.mem_append.1 member with earlier | last
    · obtain ⟨earlier, different⟩ := List.mem_filter.1 earlier
      rw [if_neg (by rintro rfl; simp at different)]
      exact listed.sound other name entry earlier
    · split at last
      · rename_i added
        obtain ⟨rfl, rfl, _⟩ := added
        obtain rfl := List.mem_singleton.1 last
        rw [if_pos rfl]
        exact ⟨rfl, nameOf⟩
      · cases last
  · intro other name entry owned called named free
    rw [owner_relocate present] at owned
    rw [nameOf_relocate] at called
    rw [entered, List.mem_append, List.mem_filter]
    split at owned
    · rename_i moved
      subst moved
      obtain rfl := Option.some.inj owned
      obtain rfl := Option.some.inj (nameOf.symm.trans called)
      exact .inr (by simp [named])
    · rename_i different
      refine .inl ⟨listed.complete other name entry owned called named ?_, ?_⟩
      · rintro (waiting | rfl)
        · exact free waiting
        · exact different rfl
      · simpa using Ne.symm different
  · intro strict other
    rw [entered, listed.silent strict other]
    simp

/-- A member that gets its entry is no longer pending. -/
theorem register (listed : table.Listed tolerant fun other => pending other ∨ other = id)
    (inside : table.HasScope scope) (owned : table.owner id = some scope) {given : String}
    (called : table.nameOf id = some given) (named : ¬ tolerant → given ≠ "") :
    (table.updateMembers scope (Members.register · given id)).Listed tolerant pending := by
  have owners (other : SymbolId) : (table.updateMembers scope
      (Members.register · given id)).owner other = table.owner other := by
    rw [updateMembers, owner_update (by simp [Symbol.mapMembers])]
  have names (other : SymbolId) : (table.updateMembers scope
      (Members.register · given id)).nameOf other = table.nameOf other := by
    rw [updateMembers, nameOf_update (by simp [Symbol.mapMembers])]
  constructor
  · intro other name
    rw [entries_register inside, List.nodup_append]
    refine ⟨listed.nodup other name, ?_, ?_⟩
    · split <;> simp
    · intro entry member last fresh
      split at fresh
      · rename_i added
        rw [List.mem_singleton.1 fresh]
        rintro rfl
        exact added.2.2 member
      · cases fresh
  · intro other name entry member
    rw [entries_register inside] at member
    rw [owners, names]
    rcases List.mem_append.1 member with earlier | last
    · exact listed.sound other name entry earlier
    · split at last
      · rename_i added
        obtain ⟨rfl, rfl, _⟩ := added
        rw [List.mem_singleton.1 last]
        exact ⟨owned, called⟩
      · cases last
  · intro other name entry ownedEntry calledEntry filled free
    rw [owners] at ownedEntry
    rw [names] at calledEntry
    rw [entries_register inside, List.mem_append]
    by_cases same : entry = id
    · subst same
      obtain rfl := Option.some.inj (owned.symm.trans ownedEntry)
      obtain rfl := Option.some.inj (called.symm.trans calledEntry)
      by_cases known : entry ∈ table.entries scope given
      · exact .inl known
      · exact .inr (by simp [known])
    · refine .inl (listed.complete other name entry ownedEntry calledEntry filled ?_)
      rintro (waiting | equal)
      · exact free waiting
      · exact same equal
  · intro strict other
    rw [entries_register inside, listed.silent strict other]
    simp [named strict]

theorem adopt (listed : table.Listed tolerant fun other => pending other ∨ other = id)
    (present : table.Has id) (inside : table.HasScope scope) {name : String}
    (called : table.nameOf id = some name) (named : ¬ tolerant → name ≠ "")
    (adopted : table.adopt name id scope = .ok after) : after.Listed tolerant pending := by
  unfold SymbolTable.adopt at adopted
  split at adopted
  · rename_i owned
    obtain rfl := Except.ok.inj adopted
    exact listed.register inside owned called named
  · obtain ⟨_, _, rfl⟩ := move_ok adopted
    exact listed.relocate present inside

/-- A blank template that gets a name is pending. -/
theorem bindTemplate (listed : table.Listed tolerant pending) {template : SymbolId}
    (blank : table.Blank template) (request : SymbolRequest) (inner : SymbolId) :
    (table.bindTemplate request template inner).Listed tolerant fun other =>
      pending other ∨ other = template := by
  have names {other : SymbolId} (different : other ≠ template) :
      (table.bindTemplate request template inner).nameOf other = table.nameOf other := by
    rw [SymbolTable.bindTemplate, nameOf_update fun same => absurd same.symm different]
  have owners (other : SymbolId) : (table.bindTemplate request template inner).owner other =
      table.owner other := by
    rw [SymbolTable.bindTemplate, owner_update (by simp)]
  have entered (scope : SymbolId) (name : String) : (table.bindTemplate request template
      inner).entries scope name = table.entries scope name := by
    rw [SymbolTable.bindTemplate, entries_update (by simp)]
  constructor
  · intro scope name
    rw [entered]
    exact listed.nodup scope name
  · intro scope name other member
    rw [entered] at member
    have different : other ≠ template := by
      rintro rfl
      exact blank.unlisted scope name member
    rw [owners, names different]
    exact listed.sound scope name other member
  · intro scope name other owned called named free
    rw [owners] at owned
    rw [names fun same => free (.inr same)] at called
    rw [entered]
    exact listed.complete scope name other owned called named fun waiting => free (.inl waiting)
  · intro strict scope
    rw [entered]
    exact listed.silent strict scope

end Listed

/-! ## Entries across an adoption -/

theorem adopt_of_owned {table : SymbolTable} {id scope : SymbolId} (name : String)
    (owned : table.owner id = some scope) : table.adopt name id scope =
      .ok (table.updateMembers scope (Members.register · name id)) :=
  if_pos owned

/-- An adoption takes no entry away but those of the symbol itself. -/
theorem mem_entries_adopt {table after : SymbolTable} {id scope other entry : SymbolId}
    {name given : String} (inside : table.HasScope scope) (different : entry ≠ id)
    (adopted : table.adopt given id scope = .ok after) :
    entry ∈ after.entries other name ↔ entry ∈ table.entries other name := by
  unfold SymbolTable.adopt at adopted
  split at adopted
  · obtain rfl := Except.ok.inj adopted
    rw [entries_register inside, List.mem_append]
    split <;> simp [different]
  · obtain ⟨_, _, rfl⟩ := move_ok adopted
    rw [entries_relocate inside, List.mem_append]
    split <;> split <;> simp [different]

theorem nameOf_adopt {table after : SymbolTable} {id scope : SymbolId} {given : String}
    (adopted : table.adopt given id scope = .ok after) (other : SymbolId) :
    after.nameOf other = table.nameOf other := by
  unfold SymbolTable.adopt at adopted
  split at adopted
  · obtain rfl := Except.ok.inj adopted
    rw [updateMembers, nameOf_update (by simp [Symbol.mapMembers])]
  · obtain ⟨_, _, rfl⟩ := move_ok adopted
    exact nameOf_relocate table id scope other

/-! ## Closing frames -/

namespace Closing

variable {table after : SymbolTable} {factory : FactoryId} {inner template target : SymbolId}
  {frames outer : List SymbolId} {request : SymbolRequest} {tolerant : Prop}
  {pending : SymbolId → Prop}

theorem inner_ne (closing : table.Closing factory inner frames) (member : template ∈ frames) :
    inner ≠ template := by
  rintro rfl
  exact Nat.lt_irrefl _ (closing.later inner member)

/-- Naming a template leaves all entries and the names of other symbols alone. -/
theorem bound (closing : table.Closing factory inner (template :: outer))
    (request : SymbolRequest) :
    let changed := (table.updateFactory factory TemplateFactory.popped).bindTemplate request
      template inner
    changed.Has inner ∧ (∀ scope, changed.HasScope scope ↔ table.HasScope scope) ∧
      (∀ scope name, changed.entries scope name = table.entries scope name) ∧
      changed.nameOf inner = table.nameOf inner ∧ changed.nameOf template = some request.name := by
  intro changed
  have sizes : changed.size = table.size := size_update _ _ _
  refine ⟨?_, ?_, ?_, ?_, ?_⟩
  · have present := closing.present
    rwa [has_iff_lt, ← sizes, ← has_iff_lt] at present
  · intro scope
    exact hasScope_update (by simp) scope
  · intro scope name
    simp only [changed, bindTemplate]
    rw [entries_update (by simp)]
    rfl
  · simp only [changed, bindTemplate]
    rw [nameOf_update fun same => absurd same.symm (closing.inner_ne List.mem_cons_self)]
    rfl
  · obtain ⟨symbol, found⟩ := Option.isSome_iff_exists.1 (closing.scope List.mem_cons_self).has
    have there : (table.updateFactory factory TemplateFactory.popped).get? template = some symbol :=
      found
    simp [changed, bindTemplate, nameOf, there]

/-- Frames that are all closed leave nothing pending. -/
theorem listed (closing : table.Closing factory inner frames) (container : table.HasScope target)
    (listed : table.Listed tolerant fun other => pending other ∨ other = inner)
    (called : table.nameOf inner = some request.name) (named : ¬ tolerant → request.name ≠ "") :
    (closeFrames factory target request table inner frames).2.Listed tolerant fun other =>
      pending other ∨ (closeFrames factory target request table inner frames).1 ≠ .ok () := by
  induction frames generalizing table inner with
  | nil =>
      unfold closeFrames
      split
      · exact listed.mono fun _ _ => .inr (by simp)
      · rename_i adopted
        exact (listed.adopt closing.present container called named adopted).mono fun _ => .inl
  | cons template outer ih =>
      obtain ⟨present, scopes, _, calledInner, calledTemplate⟩ := closing.bound request
      have inside := (scopes template).2 (closing.scope List.mem_cons_self)
      have blank := closing.blank List.mem_cons_self
      have popped : (table.updateFactory factory TemplateFactory.popped).Listed tolerant
          fun other => pending other ∨ other = inner :=
        ⟨listed.nodup, listed.sound, listed.complete, listed.silent⟩
      have listedBound := popped.bindTemplate ⟨blank.nonRoot, blank.isTemplate, blank.unnamed,
        blank.unbound, blank.unlisted⟩ request inner
      unfold closeFrames
      simp only
      split
      · exact listedBound.mono fun _ _ => .inr (by simp)
      · rename_i adopted
        have waiting : ((table.updateFactory factory TemplateFactory.popped).bindTemplate request
            template inner).Listed tolerant fun other =>
              (pending other ∨ other = template) ∨ other = inner :=
          listedBound.mono (by tauto)
        exact ih (closing.next adopted)
          ((hasScope_adopt adopted target).2 ((scopes target).2 container))
          (waiting.adopt present inside (calledInner.trans called) named adopted)
          ((nameOf_adopt adopted template).trans calledTemplate)

/-- Closing frames around a symbol takes entries away from these templates only. -/
theorem keeps_entry (closing : table.Closing factory inner frames) (request : SymbolRequest)
    (container : table.HasScope target) {entry scope : SymbolId} {name : String}
    (entered : entry ∈ table.entries scope name) (different : entry ≠ inner)
    (outside : entry ∉ frames) :
    entry ∈ (closeFrames factory target request table inner frames).2.entries scope name := by
  induction frames generalizing table inner with
  | nil =>
      unfold closeFrames
      split
      · exact entered
      · rename_i adopted
        exact (mem_entries_adopt container different adopted).2 entered
  | cons template outer ih =>
      obtain ⟨_, scopes, same, _, _⟩ := closing.bound request
      have inside := (scopes template).2 (closing.scope List.mem_cons_self)
      have enteredBound := (same scope name).symm ▸ entered
      unfold closeFrames
      simp only
      split
      · exact enteredBound
      · rename_i adopted
        refine ih (closing.next adopted)
          ((hasScope_adopt adopted target).2 ((scopes target).2 container))
          ((mem_entries_adopt inside different adopted).2 enteredBound) ?_ ?_
        · exact fun equal => outside (equal ▸ List.mem_cons_self)
        · exact fun member => outside (List.mem_cons_of_mem _ member)

/-- A symbol that stands in its template already is entered there at once. -/
theorem closeFrames_owned (closing : table.Closing factory inner (template :: outer))
    (request : SymbolRequest) (container : table.HasScope target)
    (owned : table.owner inner = some template) :
    ∃ entered : SymbolTable,
      closeFrames factory target request table inner (template :: outer) =
        closeFrames factory target request entered template outer ∧
      entered.Closing factory template outer ∧ entered.HasScope target ∧
      entered.nameOf template = some request.name ∧
      (∀ scope name, template ∉ entered.entries scope name) ∧
      inner ∈ entered.entries template request.name := by
  obtain ⟨_, scopes, same, _, calledTemplate⟩ := closing.bound request
  have inside := (scopes template).2 (closing.scope List.mem_cons_self)
  have blank := closing.blank List.mem_cons_self
  have ownedBound : ((table.updateFactory factory TemplateFactory.popped).bindTemplate request
      template inner).owner inner = some template := by
    rw [bindTemplate, owner_update (by simp)]
    exact owned
  have adopted := adopt_of_owned request.name ownedBound
  refine ⟨_, ?_, closing.next adopted, (hasScope_adopt adopted target).2
    ((scopes target).2 container), (nameOf_adopt adopted template).trans calledTemplate, ?_, ?_⟩
  · rw [closeFrames.eq_def]
    simp only [adopted]
  · intro scope name
    rw [mem_entries_adopt inside (closing.inner_ne List.mem_cons_self).symm adopted, same]
    exact blank.unlisted scope name
  · rw [entries_register inside, List.mem_append]
    by_cases known : inner ∈ ((table.updateFactory factory TemplateFactory.popped).bindTemplate
        request template inner).entries template request.name
    · exact .inl known
    · exact .inr (by simp [known])

/-- A template that has its name but cannot be moved stays without an entry. -/
theorem unlisted_of_refused (closing : table.Closing factory inner frames)
    (container : table.HasScope target) (called : table.nameOf inner = some request.name)
    (nonRoot : inner ≠ root) (unlisted : ∀ scope name, inner ∉ table.entries scope name)
    (refused : (closeFrames factory target request table inner frames).1 ≠ .ok ()) :
    ∃ id, id ≠ root ∧
      (closeFrames factory target request table inner frames).2.nameOf id = some request.name ∧
      ∀ scope name, id ∉
        (closeFrames factory target request table inner frames).2.entries scope name := by
  induction frames generalizing table inner with
  | nil =>
      unfold closeFrames at refused ⊢
      split
      · exact ⟨inner, nonRoot, called, unlisted⟩
      · rename_i adopted
        simp [adopted] at refused
  | cons template outer ih =>
      obtain ⟨_, scopes, same, calledInner, calledTemplate⟩ := closing.bound request
      have inside := (scopes template).2 (closing.scope List.mem_cons_self)
      have blank := closing.blank List.mem_cons_self
      unfold closeFrames at refused ⊢
      simp only at refused ⊢
      split
      · refine ⟨inner, nonRoot, calledInner.trans called, ?_⟩
        intro scope name
        rw [same]
        exact unlisted scope name
      · rename_i adopted
        simp only [adopted] at refused
        refine ih (closing.next adopted)
          ((hasScope_adopt adopted target).2 ((scopes target).2 container))
          ((nameOf_adopt adopted template).trans calledTemplate) blank.nonRoot ?_ refused
        intro scope name
        rw [mem_entries_adopt inside (closing.inner_ne List.mem_cons_self).symm adopted, same]
        exact blank.unlisted scope name

end Closing

/-! ## All operations -/

/-- Whether an operation leaves a name without its entry, or an entry without a name: a
declaration behind template prefixes does if it passes the checks and has no name or finds
its templates and its target entangled. -/
def SpoilsIndex (table : SymbolTable) : TableOperation → Prop
  | .declareTemplated factory target request =>
      ∃ innermost frames, table.openFrames factory target request = .ok (innermost, frames) ∧
        (request.name = "" ∨ ¬ table.Nestable (frames ++ [target]))
  | _ => False

section Operations

variable {table after : SymbolTable} {tolerant : Prop} {pending : SymbolId → Prop}

theorem Listed.settle {α : Type} (listed : table.Listed tolerant pending)
    {outcome : Except SymbolError (α × SymbolTable)}
    (changed : ∀ value after, outcome = .ok (value, after) → after.Listed tolerant pending) :
    (table.settle outcome).Listed tolerant pending := by
  cases outcome with
  | error _ => exact listed
  | ok result => exact changed result.1 result.2 rfl

theorem Listed.declare (listed : table.Listed tolerant pending) (consistent : table.Consistent)
    {scope id : SymbolId} {request : SymbolRequest}
    (declared : table.declare scope request = .ok (id, after)) : after.Listed tolerant pending := by
  obtain ⟨inside, added⟩ := attach_of_declare declared
  obtain rfl : after = (table.attach scope request).2 := congrArg Prod.snd added
  exact listed.attach consistent inside request

/-- A declaration behind template prefixes that can move its templates leaves nothing
pending. -/
theorem Listed.declareTemplated (listed : table.Listed tolerant pending)
    (consistent : table.Consistent) (framesBlank : table.FramesBlank) {factory : FactoryId}
    {target : SymbolId} {request : SymbolRequest} (plain : request.kind.templateInfo? = none)
    (fair : ∀ innermost frames,
      table.openFrames factory target request = .ok (innermost, frames) →
        (¬ tolerant → request.name ≠ "") ∧
        (table.Nestable (frames ++ [target]) ∨ ∀ other, pending other)) :
    (table.perform (.declareTemplated factory target request)).Listed tolerant pending := by
  cases checked : table.openFrames factory target request with
  | error _ =>
      simp only [SymbolTable.perform, SymbolTable.declareTemplated, checked]
      exact listed
  | ok opened =>
      obtain ⟨innermost, frames⟩ := opened
      obtain ⟨named, movable⟩ := fair innermost frames checked
      obtain ⟨_, _, _, _, _, container, _⟩ := openFrames_ok_iff.1 checked
      obtain ⟨inside, closing⟩ := consistent.closing framesBlank plain checked
      have containerAfter := (hasScope_attach inside.has request target).2
        (.inr (checkContainer_ok_iff.1 container))
      have called : (table.attach innermost request).2.nameOf ⟨table.size⟩ = some request.name := by
        rw [nameOf_attach inside.has, if_pos rfl]
      have attached : (table.attach innermost request).2.Listed tolerant fun other =>
          pending other ∨ other = ⟨table.size⟩ :=
        (listed.attach consistent inside request).mono fun _ => .inl
      have closed := closing.listed containerAfter attached called named
      have accepted := (consistent.declareTemplated_cases checked).2
      rw [refusal?, declareTemplated_of_openFrames checked] at accepted
      rw [SymbolTable.perform, declareTemplated_of_openFrames checked]
      apply closed.mono
      rintro other (waiting | refused)
      · exact waiting
      · rcases movable with nests | all
        · cases outcome : (closeFrames factory target request (table.attach innermost request).2
              ⟨table.size⟩ frames).1 with
          | ok value => exact absurd outcome refused
          | error error =>
              rw [outcome] at accepted
              rcases accepted with ⟨entangled, _⟩ | ⟨_, done⟩
              · exact absurd nests entangled
              · cases done
        · exact all other

/-- Whatever an operation does, its entries are those of members with the right names. -/
theorem Listed.perform (listed : table.Listed tolerant pending) (consistent : table.Consistent)
    (framesBlank : table.FramesBlank) {operation : TableOperation}
    (admitted : table.Admits operation)
    (fair : ¬ table.SpoilsIndex operation ∨ (tolerant ∧ ∀ other, pending other)) :
    (table.perform operation).Listed tolerant pending := by
  cases operation with
  | declare scope request => exact listed.settle fun _ _ => listed.declare consistent
  | openNamespace scope name unit =>
      apply listed.settle
      intro _ _ opened
      rcases openNamespace_ok opened with ⟨_, rfl⟩ | declared
      · exact listed
      · exact listed.declare consistent declared
  | move id scope =>
      apply listed.settle
      intro _ _ moved
      obtain ⟨inside, _, rfl⟩ := move_ok (map_pair_ok moved)
      exact (listed.mono fun _ => .inl).relocate admitted inside
  | addUsing scope target =>
      exact listed.update (fun _ => rfl) (fun _ => rfl) fun _ => rfl
  | setOrigin id origin =>
      apply listed.settle
      intro _ after changed
      rw [setOrigin_ok (map_pair_ok changed)]
      exact listed.update (fun _ => rfl) (fun _ => rfl) fun _ => rfl
  | factoryFor container =>
      apply listed.settle
      intro _ _ created
      obtain ⟨_, rfl | rfl⟩ := factoryFor_ok created
      · exact listed
      · have extended : ({ table with
            factories := table.factories.push { container := container } } :
              SymbolTable).Listed tolerant pending :=
          ⟨listed.nodup, listed.sound, listed.complete, listed.silent⟩
        exact extended.update (fun _ => rfl) (fun _ => rfl) fun _ => rfl
  | openTemplate factory unit =>
      apply listed.settle
      intro _ _ opened
      obtain ⟨opens, found, rfl, rfl⟩ := openTemplate_ok opened
      have attached := listed.attach consistent (consistent.parent_scope found)
        { name := "", kind := .template {}, unit := unit }
      exact ⟨attached.nodup, attached.sound, attached.complete, attached.silent⟩
  | addParameter template request =>
      apply listed.settle
      intro _ _ added
      obtain ⟨extended, declared, rfl⟩ := addParameter_ok added
      exact (listed.declare consistent declared).update (fun _ => rfl) (fun _ => rfl) fun _ => rfl
  | declareTemplated factory target request =>
      apply listed.declareTemplated consistent framesBlank admitted
      intro innermost frames checked
      rcases fair with spares | ⟨tolerated, all⟩
      · refine ⟨fun _ empty => spares ⟨innermost, frames, checked, .inl empty⟩, .inl ?_⟩
        by_contra entangled
        exact spares ⟨innermost, frames, checked, .inr entangled⟩
      · exact ⟨absurd tolerated, .inr all⟩
  | popFrame | discardFrames =>
      exact ⟨listed.nodup, listed.sound, listed.complete, listed.silent⟩

/-- A declaration without a name is entered in the innermost template, and one that cannot
move a template leaves it without the entry of its new name. -/
theorem not_indexed_of_spoils (reached : table.Reachable) {operation : TableOperation}
    (admitted : table.Admits operation) (spoils : table.SpoilsIndex operation) :
    ¬ (table.perform operation).Indexed := by
  cases operation with
  | declareTemplated factory target request =>
      obtain ⟨innermost, frames, checked, cause⟩ := spoils
      obtain ⟨_, outer, _, _, rfl, container, _⟩ := openFrames_ok_iff.1 checked
      obtain ⟨inside, closing⟩ := reached.consistent.closing reached.framesBlank admitted checked
      have containerAfter := (hasScope_attach inside.has request target).2
        (.inr (checkContainer_ok_iff.1 container))
      obtain ⟨entered, first, left, place, called, unlisted, member⟩ :=
        closing.closeFrames_owned request containerAfter
          (by rw [owner_attach inside.has, if_pos rfl])
      have result : table.perform (.declareTemplated factory target request) =
          (closeFrames factory target request entered innermost outer).2 := by
        rw [SymbolTable.perform, declareTemplated_of_openFrames checked, first]
      intro indexed
      by_cases empty : request.name = ""
      · have fresh : (⟨table.size⟩ : SymbolId) ∉ innermost :: outer := by
          intro frame
          exact closing.inner_ne frame rfl
        have kept := left.keeps_entry request place member
          (fun equal => fresh (equal ▸ List.mem_cons_self))
          fun later => fresh (List.mem_cons_of_mem _ later)
        rw [← result, empty, (indexed innermost "").2.2 rfl] at kept
        cases kept
      · have entangled := cause.resolve_left empty
        have refused : (closeFrames factory target request entered innermost outer).1 ≠ .ok () := by
          intro done
          have outcome := (reached.consistent.declareTemplated_cases checked).2
          rw [refusal?, declareTemplated_of_openFrames checked, first, done] at outcome
          rcases outcome with ⟨_, _, refused⟩ | ⟨nests, _⟩
          · cases refused
          · exact entangled nests
        obtain ⟨id, nonRoot, named, missing⟩ := left.unlisted_of_refused place called
          (closing.blank List.mem_cons_self).nonRoot unlisted refused
        rw [← result] at named missing
        have tree := (Reachable.perform reached admitted).consistent.tree
        have present : (table.perform (.declareTemplated factory target request)).Has id := by
          unfold nameOf at named
          obtain ⟨symbol, found, _⟩ := Option.map_eq_some_iff.1 named
          exact has_of_get? found
        obtain ⟨scope, owned⟩ := tree.owned id present nonRoot
        exact missing scope request.name (((indexed scope request.name).2.1 empty id).2
          ⟨(tree.mem_children scope id).2 owned, named⟩)
  | _ => exact spoils.elim

end Operations

/-! ## All tables in use -/

theorem entries_empty (scope : SymbolId) (name : String) :
    SymbolTable.empty.entries scope name = [] := by
  unfold entries members?
  cases found : SymbolTable.empty.get? scope with
  | none => rfl
  | some symbol =>
      have present := (SymbolTable.empty.has_iff_lt scope).1 (has_of_get? found)
      obtain rfl : scope = root := by
        cases scope
        simpa [root, SymbolTable.empty, size] using present
      obtain rfl := Option.some.inj found
      rfl

theorem listed_empty : SymbolTable.empty.Listed False fun _ => False where
  nodup scope name := by simp [entries_empty]
  sound scope name id member := by simp [entries_empty] at member
  complete scope name id owned := by
    have child := (consistent_empty.tree.mem_children scope id).2 owned
    unfold children members? at child
    cases found : SymbolTable.empty.get? scope with
    | none => simp [found] at child
    | some symbol =>
        have present := (SymbolTable.empty.has_iff_lt scope).1 (has_of_get? found)
        obtain rfl : scope = root := by
          cases scope
          simpa [root, SymbolTable.empty, size] using present
        cases child
  silent _ scope := entries_empty scope ""

theorem Reachable.listed {table : SymbolTable} (reached : table.Reachable) :
    table.Listed True fun _ => True := by
  induction reached with
  | empty =>
      have listed := listed_empty
      exact ⟨listed.nodup, listed.sound, fun _ _ _ _ _ _ free => absurd trivial free,
        fun strict => absurd trivial strict⟩
  | perform reached admitted ih =>
      exact ih.perform reached.consistent reached.framesBlank admitted
        (.inr ⟨trivial, fun _ => trivial⟩)

/-- An operation on an exact index leaves an exact index unless it spoils it. -/
theorem Indexed.perform_iff {table : SymbolTable} (indexed : table.Indexed)
    (reached : table.Reachable) {operation : TableOperation}
    (admitted : table.Admits operation) :
    (table.perform operation).Indexed ↔ ¬ table.SpoilsIndex operation := by
  constructor
  · intro after spoils
    exact not_indexed_of_spoils reached admitted spoils after
  · intro spares
    have listed := reached.consistent.tree.indexed_iff.1 indexed
    exact (Reachable.perform reached admitted).consistent.tree.indexed_iff.2
      (listed.perform reached.consistent reached.framesBlank admitted (.inl spares))

/-- Whether each of some operations is admitted when its turn comes. -/
def AdmitsAll (table : SymbolTable) : List TableOperation → Prop
  | [] => True
  | operation :: rest => table.Admits operation ∧ (table.perform operation).AdmitsAll rest

/-- Whether the index is exact before and behind each of some operations. -/
def IndexedThroughout (table : SymbolTable) : List TableOperation → Prop
  | [] => table.Indexed
  | operation :: rest => table.Indexed ∧ (table.perform operation).IndexedThroughout rest

/-- Whether none of some operations spoils the index when its turn comes. -/
def SparesIndex (table : SymbolTable) : List TableOperation → Prop
  | [] => True
  | operation :: rest => ¬ table.SpoilsIndex operation ∧ (table.perform operation).SparesIndex rest

theorem Indexed.throughout_iff {table : SymbolTable} (indexed : table.Indexed)
    (reached : table.Reachable) {operations : List TableOperation}
    (admitted : table.AdmitsAll operations) :
    table.IndexedThroughout operations ↔ table.SparesIndex operations := by
  induction operations generalizing table with
  | nil => exact ⟨fun _ => trivial, fun _ => indexed⟩
  | cons operation rest ih =>
      obtain ⟨now, later⟩ := admitted
      have step := indexed.perform_iff reached now
      constructor
      · rintro ⟨_, throughout⟩
        have after : (table.perform operation).Indexed := by
          cases rest with
          | nil => exact throughout
          | cons _ _ => exact throughout.1
        exact ⟨step.1 after, (ih after (.perform reached now) later).1 throughout⟩
      · rintro ⟨spares, spared⟩
        have after := step.2 spares
        exact ⟨indexed, (ih after (.perform reached now) later).2 spared⟩

/-- Whatever operations led to a table, its index enters members of the right name only, and
each once.  From a table with an exact index, as the empty one is, the index stays exact
exactly through those operations among which no declaration behind template prefixes passes
the checks without a name, or with templates that it cannot move to their places. -/
theorem name_index_exact_iff {table : SymbolTable} (reached : table.Reachable) :
    (∀ scope name, (table.entries scope name).Nodup ∧
      ∀ id ∈ table.entries scope name, id ∈ table.children scope ∧
        table.nameOf id = some name) ∧
    SymbolTable.empty.Indexed ∧
    (table.Indexed → ∀ operations, table.AdmitsAll operations →
      (table.IndexedThroughout operations ↔ table.SparesIndex operations)) := by
  have listed := reached.listed
  refine ⟨?_, consistent_empty.tree.indexed_iff.2 listed_empty, ?_⟩
  · intro scope name
    refine ⟨listed.nodup scope name, ?_⟩
    intro id member
    obtain ⟨owned, called⟩ := listed.sound scope name id member
    exact ⟨(reached.consistent.tree.mem_children scope id).2 owned, called⟩
  · intro indexed operations admitted
    exact indexed.throughout_iff reached admitted

/-- A template around a class without a name: up to there the index is exact, and then the
class is entered under the empty name. -/
theorem name_index_exact_unnamed :
    let operations := ([.factoryFor root, .openTemplate ⟨0⟩ none,
      .declareTemplated ⟨0⟩ root { name := "", kind := .classType .structKey }] :
        List TableOperation)
    SymbolTable.empty.IndexedThroughout (operations.take 2) ∧
      ¬ SymbolTable.empty.IndexedThroughout operations ∧
      (operations.foldl SymbolTable.perform .empty).entries ⟨1⟩ "" = [⟨2⟩] := by
  intro operations
  obtain ⟨_, indexed, exact_iff⟩ := name_index_exact_iff .empty
  have spoils : ¬ SymbolTable.empty.SparesIndex operations := by
    rintro ⟨_, _, spares, _⟩
    exact spares ⟨⟨1⟩, [⟨1⟩], by decide, .inl rfl⟩
  refine ⟨(exact_iff indexed _ ?_).2 ?_, fun throughout => spoils ((exact_iff indexed _ ?_).1
    throughout), by decide⟩
  · exact ⟨trivial, trivial, trivial⟩
  · exact ⟨not_false, not_false, trivial⟩
  · exact ⟨trivial, trivial, rfl, trivial⟩

end SymbolTable

end DeclTree
