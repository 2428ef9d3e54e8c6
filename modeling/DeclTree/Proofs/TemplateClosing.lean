import DeclTree.Proofs.FrameClosing

/-!
# What a declaration behind template prefixes leaves behind

A declaration that is accepted closes every frame of its factory: the history tells each closing,
innermost first, every template is named and flagged like the declaration and wraps what stands
directly inside it, and owners lead from the declaration out through the templates to the target.
This holds whatever became of the templates while they were open.  Nothing else changes but the
members of the scopes that symbols leave or enter.
-/

namespace DeclTree

/-- A symbol without its members. -/
def Symbol.bare (symbol : Symbol) : Symbol :=
  { symbol with members := none }

/-- A template with the name and flags of its declaration, around what stands inside it. -/
def Symbol.wrapping (request : SymbolRequest) (inner : SymbolId) (symbol : Symbol) : Symbol :=
  { symbol with
    name := request.name
    defined := request.defined
    specialization := request.specialization
    kind := symbol.kind.mapTemplate fun info => { info with templated := some inner } }

@[simp] theorem Symbol.isTemplate_wrapping (request : SymbolRequest) (inner : SymbolId)
    (symbol : Symbol) : (symbol.wrapping request inner).isTemplate = symbol.isTemplate := by
  unfold isTemplate wrapping
  cases symbol.kind <;> rfl

/-- A symbol without what the closing of a template sets. -/
def Symbol.lasting (symbol : Symbol) : Symbol :=
  { symbol with
    name := ""
    defined := true
    specialization := false
    kind := symbol.kind.mapTemplate fun info => { info with templated := none }
    owner := none
    members := none }

namespace SymbolTable

def bare? (table : SymbolTable) (id : SymbolId) : Option Symbol :=
  (table.get? id).map Symbol.bare

/-- A symbol of the table without what the closing of a template sets. -/
def lasting? (table : SymbolTable) (id : SymbolId) : Option Symbol :=
  (table.get? id).map Symbol.lasting

section Views

variable (table : SymbolTable) (id : SymbolId)

theorem has_iff_bare : table.Has id ↔ (table.bare? id).isSome := by
  simp [Has, bare?]

theorem owner_eq_bare : table.owner id = table.bare? id >>= Symbol.owner := by
  unfold owner bare?
  cases table.get? id <;> rfl

theorem nameOf_eq_bare : table.nameOf id = (table.bare? id).map Symbol.name := by
  unfold nameOf bare?
  cases table.get? id <;> rfl

theorem isTemplate_eq_bare : table.isTemplate id = (table.bare? id).any Symbol.isTemplate := by
  unfold isTemplate bare?
  cases table.get? id <;> rfl

theorem templated?_eq_bare : table.templated? id =
    table.bare? id >>= fun symbol => symbol.kind.templateInfo? >>= TemplateInfo.templated := by
  unfold templated? bare?
  cases table.get? id <;> rfl

theorem lasting?_eq_bare : table.lasting? id = (table.bare? id).map Symbol.lasting := by
  unfold lasting? bare?
  cases table.get? id <;> rfl

end Views

/-! ## Basic changes -/

section Changes

variable {table after : SymbolTable} {id scope : SymbolId} {name : String}

theorem bare?_update {change bared : Symbol → Symbol}
    (changed : ∀ symbol, (change symbol).bare = bared symbol.bare) (other : SymbolId) :
    (table.update id change).bare? other =
      if id = other then (table.bare? other).map bared else table.bare? other := by
  unfold bare?
  rw [get?_update]
  split
  · cases table.get? other <;> simp [changed]
  · rfl

theorem bare?_updateMembers (change : Members → Members) (other : SymbolId) :
    (table.updateMembers scope change).bare? other = table.bare? other := by
  have unchanged (symbol : Symbol) : (symbol.mapMembers change).bare = id symbol.bare := rfl
  rw [updateMembers, bare?_update unchanged]
  simp

theorem bare?_attach (present : table.Has scope) (request : SymbolRequest) (other : SymbolId) :
    (table.attach scope request).2.bare? other = if other = ⟨table.size⟩ then
      some (Symbol.ofRequest (some scope) request).bare else table.bare? other := by
  have old : scope ≠ ⟨table.size⟩ := by
    rintro rfl
    exact table.not_has_fresh present
  unfold bare?
  rw [get?_attach]
  by_cases fresh : other = ⟨table.size⟩
  · subst fresh
    simp [Ne.symm old]
  · rw [if_neg fresh, if_neg fresh]
    cases table.get? other with
    | none => rfl
    | some symbol =>
        simp only [Option.map_some, Option.some.injEq]
        split <;> rfl

theorem bare?_bindTemplate (request : SymbolRequest) (template inner other : SymbolId) :
    (table.bindTemplate request template inner).bare? other = if template = other then
      (table.bare? other).map (Symbol.wrapping request inner) else table.bare? other := by
  have wraps (symbol : Symbol) : (symbol.wrapping request inner).bare =
      symbol.bare.wrapping request inner := rfl
  exact bare?_update wraps other

/-- A symbol that is adopted has a new owner; that is all that happens outside the lists of
members. -/
theorem bare?_adopt (adopted : table.adopt name id scope = .ok after) (other : SymbolId) :
    after.bare? other = if id = other then
      (table.bare? other).map fun symbol => { symbol with owner := some scope }
      else table.bare? other := by
  unfold SymbolTable.adopt at adopted
  split at adopted
  · rename_i owned
    obtain rfl := Except.ok.inj adopted
    rw [bare?_updateMembers]
    split
    · rename_i same
      subst same
      rw [owner_eq_bare] at owned
      cases found : table.bare? id with
      | none => rfl
      | some symbol =>
          rw [found] at owned
          have outer : symbol.owner = some scope := owned
          rw [Option.map_some, ← outer]
    · rfl
  · obtain ⟨_, _, rfl⟩ := move_ok adopted
    unfold bare?
    rw [get?_relocate]
    generalize table.owner id = old
    cases table.get? other with
    | none => simp
    | some symbol =>
        by_cases left : old = some other <;> by_cases moved : id = other <;>
          by_cases target : scope = other <;>
            simp [left, moved, target, Symbol.bare, Symbol.mapMembers]

theorem members?_update_of_ne {change : Symbol → Symbol} {other : SymbolId} (apart : id ≠ other) :
    (table.update id change).members? other = table.members? other := by
  simp [members?, apart]

theorem members?_attach {other : SymbolId} (apart : scope ≠ other)
    (old : other ≠ ⟨table.size⟩) (request : SymbolRequest) :
    (table.attach scope request).2.members? other = table.members? other := by
  unfold members?
  rw [get?_attach, if_neg old]
  cases table.get? other with
  | none => rfl
  | some symbol => simp [Ne.symm apart]

/-- A symbol that is adopted leaves one list of members and enters another. -/
theorem members?_adopt (adopted : table.adopt name id scope = .ok after) {other : SymbolId}
    (entered : scope ≠ other) (left : table.owner id ≠ some other) :
    after.members? other = table.members? other := by
  unfold SymbolTable.adopt at adopted
  split at adopted
  · obtain rfl := Except.ok.inj adopted
    exact members?_update_of_ne entered
  · obtain ⟨_, _, rfl⟩ := move_ok adopted
    unfold members?
    rw [get?_relocate]
    cases table.get? other with
    | none => rfl
    | some symbol =>
        simp only [if_neg left, if_neg entered]
        split <;> rfl

/-- A symbol that is adopted under its name is entered in the scope, unless it has none. -/
theorem mem_entries_of_adopt (inside : table.HasScope scope) (named : table.nameOf id = some name)
    (nonempty : name ≠ "") (adopted : table.adopt name id scope = .ok after) :
    id ∈ after.entries scope name := by
  unfold SymbolTable.adopt at adopted
  split at adopted
  · obtain rfl := Except.ok.inj adopted
    rw [entries_register inside]
    by_cases known : id ∈ table.entries scope name <;> simp [known]
  · obtain ⟨_, _, rfl⟩ := move_ok adopted
    rw [entries_relocate inside, named]
    simp [nonempty]

end Changes

end SymbolTable

/-- A factory behind the closing of all its frames, innermost first. -/
def TemplateFactory.closed (factory : TemplateFactory) : TemplateFactory :=
  { factory with stack := [], history := factory.history ++ factory.stack.map .pop }

theorem TemplateFactory.popped_closed {factory : TemplateFactory} {template : SymbolId}
    {outer : List SymbolId} (stack : factory.stack = template :: outer) :
    factory.popped.stack = outer ∧ factory.popped.closed = factory.closed := by
  simp [popped, pop?, closed, stack]

namespace SymbolTable

/-! ## Closing all frames -/

/-- Whether the frames of a factory have been closed around a symbol, and the outermost template
has become a member of the target. -/
structure ClosedAround (before after : SymbolTable) (factory : FactoryId)
    (opened : TemplateFactory) (target : SymbolId) (request : SymbolRequest) (inner : SymbolId)
    (frames : List SymbolId) : Prop where
  closed : after.factory? factory = some opened.closed
  others : ∀ other, other ≠ factory → after.factory? other = before.factory? other
  moved : after.bare? inner = (before.bare? inner).map fun symbol =>
    { symbol with owner := (frames ++ [target]).head? }
  named : ∀ template ∈ frames, ∃ symbol, after.get? template = some symbol ∧
    symbol.name = request.name ∧ symbol.defined = request.defined ∧
    symbol.specialization = request.specialization
  wraps : (inner :: frames).IsChain fun inner outer => after.templated? outer = some inner
  owners : (inner :: frames ++ [target]).IsChain fun inner outer => after.owner inner = some outer
  entered : request.name ≠ "" →
    ∀ outermost ∈ (inner :: frames).getLast?, outermost ∈ after.entries target request.name
  lasting : ∀ template ∈ frames, after.lasting? template = before.lasting? template
  kept : ∀ id, id ∉ inner :: frames → after.bare? id = before.bare? id
  members : ∀ id, id ∉ frames → id ≠ target →
    (∀ moved ∈ inner :: frames, before.owner moved ≠ some id) →
    after.members? id = before.members? id

section Closing

variable {table bound after : SymbolTable} {factory : FactoryId} {opened : TemplateFactory}
  {inner template target : SymbolId} {outer : List SymbolId} {request : SymbolRequest}

/-- Without frames, the symbol itself becomes a member of the target. -/
theorem closedAround_nil (container : table.HasScope target)
    (found : table.factory? factory = some opened) (stack : opened.stack = [])
    (present : table.Has inner) (named : table.nameOf inner = some request.name)
    (adopted : table.adopt request.name inner target = .ok after) :
    table.ClosedAround after factory opened target request inner [] where
  closed := by
    have closed : opened.closed = opened := by
      cases opened
      simp_all [TemplateFactory.closed]
    rw [factory?, factories_adopt adopted, ← factory?, found, closed]
  others other _ := by rw [factory?, factories_adopt adopted, ← factory?]
  moved := by
    rw [bare?_adopt adopted, if_pos rfl]
    rfl
  named := by simp
  wraps := .singleton _
  owners := by
    obtain ⟨symbol, there⟩ := Option.isSome_iff_exists.1 ((table.has_iff_bare inner).1 present)
    refine List.isChain_pair.2 ?_
    rw [owner_eq_bare, bare?_adopt adopted, if_pos rfl, there]
    rfl
  entered nonempty outermost last := by
    obtain rfl : inner = outermost := by simpa using last
    exact mem_entries_of_adopt container named nonempty adopted
  lasting := by simp
  kept id outside := by
    rw [bare?_adopt adopted, if_neg]
    rintro rfl
    exact outside (List.mem_singleton_self _)
  members id _ apart left :=
    members?_adopt adopted (Ne.symm apart) (left inner (List.mem_singleton_self _))

/-- A symbol behind the closing of the innermost frame. -/
theorem bare?_innermost (apart : template ≠ inner)
    (adopted : ((table.updateFactory factory TemplateFactory.popped).bindTemplate request template
      inner).adopt request.name inner template = .ok bound) (id : SymbolId) :
    bound.bare? id =
      if inner = id then (table.bare? id).map fun symbol => { symbol with owner := some template }
      else if template = id then (table.bare? id).map (Symbol.wrapping request inner)
      else table.bare? id := by
  rw [bare?_adopt adopted, bare?_bindTemplate]
  change
    (if inner = id then (if template = id then (table.bare? id).map _ else table.bare? id).map _
    else if template = id then (table.bare? id).map _ else table.bare? id) = _
  by_cases here : inner = id
  · rw [if_pos here, if_pos here, if_neg fun same => apart (same.trans here.symm)]
  · rw [if_neg here, if_neg here]

/-- One frame is closed around a symbol, and then the others around its template. -/
theorem closedAround_cons (distinct : (inner :: template :: outer).Nodup)
    (present : table.Has inner) (isTemplate : table.isTemplate template = true)
    (stack : opened.stack = template :: outer)
    (adopted : ((table.updateFactory factory TemplateFactory.popped).bindTemplate request template
      inner).adopt request.name inner template = .ok bound)
    (rest : bound.ClosedAround after factory opened.popped target request template outer) :
    table.ClosedAround after factory opened target request inner (template :: outer) := by
  obtain ⟨⟨apart, aside⟩, fresh⟩ : (template ≠ inner ∧ inner ∉ outer) ∧ template ∉ outer := by
    simp only [List.nodup_cons, List.mem_cons, not_or] at distinct
    exact ⟨⟨Ne.symm distinct.1.1, distinct.1.2⟩, distinct.2.1⟩
  have steps := bare?_innermost apart adopted
  have outside : inner ∉ template :: outer := by simp [Ne.symm apart, aside]
  have innerAfter : after.bare? inner = (table.bare? inner).map fun symbol =>
      { symbol with owner := some template } := by
    rw [rest.kept inner outside, steps, if_pos rfl]
  have templateAfter : after.bare? template = (table.bare? template).map fun symbol =>
      { symbol.wrapping request inner with owner := (outer ++ [target]).head? } := by
    rw [rest.moved, steps, if_neg (Ne.symm apart), if_pos rfl, Option.map_map]
    rfl
  obtain ⟨symbol, there⟩ := Option.isSome_iff_exists.1 ((table.has_iff_bare inner).1 present)
  obtain ⟨wrapper, stands, form⟩ : ∃ wrapper, table.bare? template = some wrapper ∧
      wrapper.isTemplate = true := by
    rw [isTemplate_eq_bare] at isTemplate
    exact (Option.any_eq_true _ _).1 isTemplate
  rw [stands] at templateAfter
  refine ⟨?_, ?_, innerAfter, ?_, ?_, ?_, ?_, ?_, ?_, ?_⟩
  · rw [rest.closed, (TemplateFactory.popped_closed stack).2]
  · intro other different
    rw [rest.others other different, factory?, factories_adopt adopted, ← factory?]
    exact (factory?_updateFactory ..).trans (if_neg (Ne.symm different))
  · intro given member
    rcases List.mem_cons.1 member with rfl | later
    · obtain ⟨wrapped, found, bare⟩ := Option.map_eq_some_iff.1 templateAfter
      refine ⟨wrapped, found, ?_, ?_, ?_⟩
      · exact congrArg Symbol.name bare
      · exact congrArg Symbol.defined bare
      · exact congrArg Symbol.specialization bare
    · exact rest.named given later
  · refine List.isChain_cons_cons.2 ⟨?_, rest.wraps⟩
    obtain ⟨info, kind⟩ : ∃ info, wrapper.kind = .template info := by
      unfold Symbol.isTemplate SymbolKind.templateInfo? at form
      split at form
      · exact ⟨_, ‹_›⟩
      · cases form
    rw [templated?_eq_bare, templateAfter]
    simp [Symbol.wrapping, kind, SymbolKind.mapTemplate, SymbolKind.templateInfo?]
  · refine List.isChain_cons_cons.2 ⟨?_, rest.owners⟩
    rw [owner_eq_bare, innerAfter, there]
    rfl
  · intro nonempty outermost last
    rw [List.getLast?_cons_cons] at last
    exact rest.entered nonempty outermost last
  · intro given member
    rcases List.mem_cons.1 member with rfl | later
    · rw [lasting?_eq_bare, templateAfter, lasting?_eq_bare, stands]
      cases kind : wrapper.kind <;>
        simp [Symbol.lasting, Symbol.wrapping, kind, SymbolKind.mapTemplate]
    · have other : inner ≠ given := fun same => aside (same ▸ later)
      have different : template ≠ given := fun same => fresh (same ▸ later)
      rw [rest.lasting given later, lasting?_eq_bare, steps, if_neg other, if_neg different,
        ← lasting?_eq_bare]
  · intro id apart'
    rw [List.mem_cons, not_or] at apart'
    rw [rest.kept id apart'.2, steps, if_neg (Ne.symm apart'.1), if_neg]
    rintro rfl
    exact apart'.2 List.mem_cons_self
  · intro id different apart' left
    have owners (moved : SymbolId) (other : inner ≠ moved) :
        bound.owner moved = table.owner moved := by
      rw [owner_eq_bare, steps, if_neg other, owner_eq_bare]
      split
      · cases table.bare? moved <;> rfl
      · rfl
    have entered : template ≠ id := fun same => different (same ▸ List.mem_cons_self)
    have boundOwner : ((table.updateFactory factory TemplateFactory.popped).bindTemplate request
        template inner).owner inner ≠ some id := by
      rw [owner_eq_bare, bare?_bindTemplate, if_neg apart]
      change (table.bare? inner >>= Symbol.owner) ≠ _
      rw [← owner_eq_bare]
      exact left inner List.mem_cons_self
    rw [rest.members id (fun member => different (List.mem_cons_of_mem _ member)) apart',
      members?_adopt adopted entered boundOwner]
    · exact members?_update_of_ne entered
    · intro moved member
      rw [owners moved fun same => outside (same ▸ member)]
      exact left moved (List.mem_cons_of_mem _ member)

/-- Frames that are closed without a refusal are closed around the symbol. -/
theorem closedAround_closeFrames {frames : List SymbolId} (distinct : (inner :: frames).Nodup)
    (container : table.HasScope target) (present : table.Has inner)
    (templates : ∀ template ∈ frames, table.isTemplate template = true)
    (named : table.nameOf inner = some request.name)
    (found : table.factory? factory = some opened) (stack : opened.stack = frames)
    (closed : closeFrames factory target request table inner frames = (.ok (), after)) :
    table.ClosedAround after factory opened target request inner frames := by
  induction frames generalizing table inner opened with
  | nil =>
      unfold closeFrames at closed
      split at closed
      · cases closed
      · rename_i adopted
        cases closed
        exact closedAround_nil container found stack present named adopted
  | cons template outer ih =>
      unfold closeFrames at closed
      simp only at closed
      split at closed
      · cases closed
      · rename_i bound adopted
        have apart : template ≠ inner := by
          rintro rfl
          exact (List.nodup_cons.1 distinct).1 List.mem_cons_self
        have steps := bare?_innermost apart adopted
        have isTemplate := templates template List.mem_cons_self
        have still (other : SymbolId) (different : inner ≠ other) :
            bound.isTemplate other = table.isTemplate other := by
          rw [isTemplate_eq_bare, steps, if_neg different, isTemplate_eq_bare]
          split
          · cases table.bare? other with
            | none => rfl
            | some symbol => exact Symbol.isTemplate_wrapping request inner symbol
          · rfl
        have popped := TemplateFactory.popped_closed stack
        refine closedAround_cons distinct present isTemplate stack adopted (ih ?_ ?_ ?_ ?_ ?_ ?_
          popped.1 closed)
        · exact (List.nodup_cons.1 distinct).2
        · refine (hasScope_adopt adopted target).2 ?_
          rw [bindTemplate, hasScope_update (by simp)]
          exact container
        · rw [has_iff_bare, steps, if_neg (Ne.symm apart), if_pos rfl]
          rw [isTemplate_eq_bare] at isTemplate
          obtain ⟨symbol, there, _⟩ := (Option.any_eq_true _ _).1 isTemplate
          simp [there]
        · intro given member
          rw [still]
          · exact templates given (List.mem_cons_of_mem _ member)
          rintro rfl
          exact (List.nodup_cons.1 distinct).1 (List.mem_cons_of_mem _ member)
        · rw [nameOf_eq_bare, steps, if_neg (Ne.symm apart), if_pos rfl]
          rw [isTemplate_eq_bare] at isTemplate
          obtain ⟨symbol, there, _⟩ := (Option.any_eq_true _ _).1 isTemplate
          simp [there, Symbol.wrapping]
        · rw [factory?, factories_adopt adopted, ← factory?]
          refine (factory?_updateFactory table factory factory _).trans ?_
          rw [if_pos rfl, found]
          rfl

end Closing

/-! ## The declaration itself -/

/-- What an accepted declaration behind template prefixes leaves behind: the declared symbol is
new and is what was requested, inside the innermost template; the frames are closed around it;
and nothing else changes but members. -/
structure DeclaredInside (before after : SymbolTable) (factory : FactoryId)
    (opened : TemplateFactory) (target : SymbolId) (request : SymbolRequest)
    (declared : SymbolId) : Prop where
  fresh : ¬ before.Has declared
  asked : after.bare? declared = some (Symbol.ofRequest opened.stack.head? request).bare
  empty : after.members? declared = (Symbol.ofRequest none request).members
  closed : after.factory? factory = some opened.closed
  others : ∀ other, other ≠ factory → after.factory? other = before.factory? other
  named : ∀ template ∈ opened.stack, ∃ symbol, after.get? template = some symbol ∧
    symbol.name = request.name ∧ symbol.defined = request.defined ∧
    symbol.specialization = request.specialization
  wraps : (declared :: opened.stack).IsChain fun inner outer =>
    after.templated? outer = some inner
  owners : (declared :: opened.stack ++ [target]).IsChain fun inner outer =>
    after.owner inner = some outer
  entered : request.name ≠ "" →
    ∀ outermost ∈ opened.stack.getLast?, outermost ∈ after.entries target request.name
  lasting : ∀ template ∈ opened.stack, after.lasting? template = before.lasting? template
  kept : ∀ id, id ≠ declared → id ∉ opened.stack → after.bare? id = before.bare? id
  members : ∀ id, id ≠ declared → id ∉ opened.stack → id ≠ target →
    (∀ template ∈ opened.stack, before.owner template ≠ some id) →
    after.members? id = before.members? id

/-- A declaration behind template prefixes that is accepted has closed the frames of its factory
around a new symbol in the innermost template. -/
theorem declareTemplated_ok {table after : SymbolTable} {factory : FactoryId}
    {target declared : SymbolId} {request : SymbolRequest}
    (accepted : table.declareTemplated factory target request = (.ok declared, after)) :
    ∃ opened innermost outer, table.factory? factory = some opened ∧
      opened.stack = innermost :: outer ∧ table.HasScope target ∧ declared = ⟨table.size⟩ ∧
      closeFrames factory target request (table.attach innermost request).2 ⟨table.size⟩
        (innermost :: outer) = (.ok (), after) := by
  cases checked : table.openFrames factory target request with
  | error error => simp [SymbolTable.declareTemplated, checked] at accepted
  | ok frames =>
      obtain ⟨innermost, frames⟩ := frames
      obtain ⟨opened, outer, found, stack, rfl, container, _⟩ := openFrames_ok_iff.1 checked
      have result := declareTemplated_of_openFrames checked
      rw [accepted] at result
      generalize closed : closeFrames factory target request (table.attach innermost request).2
        ⟨table.size⟩ (innermost :: outer) = closing at result
      obtain ⟨outcome, closing⟩ := closing
      cases outcome with
      | error error => simp [Except.map] at result
      | ok _ =>
          simp only [Except.map, Prod.mk.injEq, Except.ok.injEq] at result
          obtain ⟨rfl, rfl⟩ := result
          exact ⟨opened, innermost, outer, found, stack, checkContainer_ok_iff.1 container, rfl,
            closed⟩

/-- A declaration behind template prefixes that is accepted closes all frames of its factory
around a new symbol, whatever the templates were moved to while they were open. -/
theorem Reachable.declareTemplated_closes {table after : SymbolTable} (reached : table.Reachable)
    {factory : FactoryId} {opened : TemplateFactory} (found : table.factory? factory = some opened)
    {target declared : SymbolId} {request : SymbolRequest}
    (accepted : table.declareTemplated factory target request = (.ok declared, after)) :
    table.DeclaredInside after factory opened target request declared := by
  obtain ⟨_, innermost, outer, found', stack, container, rfl, closed⟩ :=
    declareTemplated_ok accepted
  obtain rfl := Option.some.inj (found.symm.trans found')
  have fits := reached.consistent.factories factory opened found
  have blank (template : SymbolId) (member : template ∈ opened.stack) : table.Blank template :=
    reached.framesBlank.blank factory template (by simpa [stackOf, found] using member)
  have old (template : SymbolId) (member : template ∈ opened.stack) :
      template ≠ ⟨table.size⟩ := by
    rintro rfl
    exact table.not_has_fresh (blank _ member).has
  have inside : table.HasScope innermost := fits.frames innermost (by simp [stack])
  have bare := bare?_attach inside.has request
  have asked : (table.attach innermost request).2.bare? ⟨table.size⟩ =
      some (Symbol.ofRequest (some innermost) request).bare := by rw [bare, if_pos rfl]
  rw [← stack] at closed
  have around : ClosedAround _ after factory opened target request _ _ :=
    closedAround_closeFrames ?_ ?_ ?_ ?_ ?_ ?_ rfl closed
  · refine ⟨table.not_has_fresh, ?_, ?_, around.closed, around.others, around.named, around.wraps,
      around.owners, ?_, ?_, ?_, ?_⟩
    · rw [around.moved, asked, stack]
      rfl
    · have free (moved : SymbolId) :
          (table.attach innermost request).2.owner moved ≠ some ⟨table.size⟩ := by
        intro owned
        rw [owner_attach inside.has] at owned
        split at owned
        · exact old innermost (by simp [stack]) (Option.some.inj owned)
        · exact table.not_has_fresh (reached.consistent.tree.owner_scope _ _ owned).has
      have apart : (⟨table.size⟩ : SymbolId) ≠ target := by
        rintro rfl
        exact table.not_has_fresh container.has
      rw [around.members _ (fun member => old _ member rfl) apart fun moved _ => free moved,
        members?, get?_attach, if_pos rfl]
      simp [Ne.symm (old innermost (by simp [stack])), Symbol.ofRequest]
    · intro nonempty outermost last
      refine around.entered nonempty outermost ?_
      rw [stack] at last ⊢
      rwa [List.getLast?_cons_cons]
    · intro template member
      rw [around.lasting template member, lasting?_eq_bare, bare, if_neg (old template member),
        ← lasting?_eq_bare]
    · intro id different outside
      rw [around.kept id (by simp [different, outside]), bare, if_neg different]
    · intro id different outside apart left
      have entered : innermost ≠ id := by
        rintro rfl
        exact outside (by simp [stack])
      rw [around.members id outside apart, members?_attach entered different]
      intro moved member
      rw [owner_attach inside.has]
      split
      · exact fun same => entered (Option.some.inj same)
      · exact left moved ((List.mem_cons.1 member).resolve_left ‹_›)
  · refine List.nodup_cons.2 ⟨fun member => old _ member rfl, ?_⟩
    exact fits.descending.imp fun below same => by simp [same] at below
  · exact (hasScope_attach inside.has request target).2 (.inr container)
  · exact (has_attach table innermost request _).2 (.inl rfl)
  · intro template member
    rw [isTemplate_eq_bare, bare, if_neg (old template member), ← isTemplate_eq_bare]
    exact (blank template member).isTemplate
  · rw [nameOf_eq_bare, asked]
    rfl
  · rw [factory?_attach, found]

/-- Two templates are closed around a function.  The inner one was moved to a namespace in between
and comes back. -/
theorem declareTemplated_closes_moved :
    let table := ([.factoryFor root, .openTemplate ⟨0⟩ none, .openTemplate ⟨0⟩ none,
      .declare root { name := "N", kind := .namespaceScope }, .move ⟨2⟩ ⟨3⟩] :
        List TableOperation).foldl SymbolTable.perform .empty
    let request : SymbolRequest := { name := "f", kind := .function }
    let after := (table.declareTemplated ⟨0⟩ root request).2
    let opened : TemplateFactory := ⟨root, [⟨2⟩, ⟨1⟩], [.push ⟨1⟩, .push ⟨2⟩]⟩
    table.owner ⟨2⟩ = some ⟨3⟩ ∧ table.DeclaredInside after ⟨0⟩ opened root request ⟨4⟩ ∧
      after.owner ⟨2⟩ = some ⟨1⟩ := by
  intro table request after opened
  have reached : table.Reachable := by
    simp only [table, List.foldl]
    refine .perform (.perform (.perform (.perform (.perform .empty ?_) ?_) ?_) ?_) ?_
    · trivial
    · trivial
    · trivial
    · rfl
    · exact (has_iff_lt _ _).2 (by decide +kernel)
  have found : table.factory? ⟨0⟩ = some opened := by decide
  have outcome : (table.declareTemplated ⟨0⟩ root request).1 = .ok ⟨4⟩ := by decide +kernel
  have moved : table.owner ⟨2⟩ = some ⟨3⟩ := by decide +kernel
  -- From here on the table matters through these facts only.
  clear_value table
  have accepted : table.declareTemplated ⟨0⟩ root request = (.ok ⟨4⟩, after) :=
    Prod.ext outcome rfl
  have closes := reached.declareTemplated_closes found accepted
  exact ⟨moved, closes, (List.isChain_cons_cons.1 (List.isChain_cons_cons.1 closes.owners).2).1⟩

end SymbolTable

end DeclTree
