import DeclTree.Proofs.Coherence

/-!
# Nodes that are started and finished

A node that is started becomes the origin of its symbol.  It keeps scopes, nodes and open
templates together if it stands where its symbol is wrapped.  Changes of a node leave what its
template owns.
-/

namespace DeclTree

open TemplateDecl (originOf)

/-! ## Starting a node -/

/-- The table in which a new node is the origin of its symbol, if that has none yet. -/
def SymbolTable.recorded (table : SymbolTable) (kind : NodeKind) (reference : NodeRef) :
    SymbolTable :=
  match kind.symbol? with
  | some symbol => table.update symbol (ParseM.recordOrigin reference)
  | none => table

namespace SymbolTable

theorem standing?_recordOrigin (table : SymbolTable) (id : SymbolId) (reference : NodeRef)
    (other : SymbolId) :
    (table.update id (ParseM.recordOrigin reference)).standing? other = if id = other then
      (table.standing? other).map fun standing =>
        { standing with origin := standing.origin.or (some reference) }
      else table.standing? other := by
  apply standing?_update
  intro symbol
  unfold ParseM.recordOrigin
  cases origin : symbol.origin with
  | none => simp [Symbol.standing, Symbol.isTemplate, Symbol.isContainer, origin]
  | some earlier => simp [Symbol.standing, origin]

section Recorded

variable (table : SymbolTable) (kind : NodeKind) (reference : NodeRef) (id : SymbolId)

/-- Recording an origin leaves a symbol where it stands otherwise. -/
theorem standing?_recorded : (table.recorded kind reference).standing? id =
    if kind.symbol? = some id then (table.standing? id).map fun standing =>
      { standing with origin := standing.origin.or (some reference) }
    else table.standing? id := by
  unfold recorded
  cases kind.symbol? with
  | none => simp
  | some symbol => simp only [standing?_recordOrigin, Option.some.injEq]

theorem owner_recorded : (table.recorded kind reference).owner id = table.owner id := by
  rw [owner_eq_standing, standing?_recorded, owner_eq_standing]
  split
  · cases table.standing? id <;> rfl
  · rfl

theorem isNamespace_recorded :
    (table.recorded kind reference).isNamespace id = table.isNamespace id := by
  rw [isNamespace_eq_standing, standing?_recorded, isNamespace_eq_standing]
  split
  · cases table.standing? id <;> rfl
  · rfl

theorem templated?_recorded :
    (table.recorded kind reference).templated? id = table.templated? id := by
  rw [templated?_eq_standing, standing?_recorded, templated?_eq_standing]
  split
  · cases table.standing? id <;> rfl
  · rfl

theorem has_recorded : (table.recorded kind reference).Has id ↔ table.Has id := by
  rw [has_iff_standing, standing?_recorded, has_iff_standing]
  split <;> simp

theorem factories_recorded : (table.recorded kind reference).factories = table.factories := by
  unfold recorded
  split <;> rfl

variable {table kind reference id}

theorem originOf_recorded_of_some {origin : NodeRef} (known : originOf table id = some origin) :
    originOf (table.recorded kind reference) id = some origin := by
  rw [originOf_eq_standing] at known
  rw [originOf_eq_standing, standing?_recorded]
  split
  · cases there : table.standing? id with
    | none => simp [there] at known
    | some standing =>
        simp only [there, Option.bind_eq_bind, Option.bind_some] at known
        simp [known]
  · exact known

theorem originOf_recorded_of_none (present : table.Has id) (missing : originOf table id = none) :
    originOf (table.recorded kind reference) id =
      if kind.symbol? = some id then some reference else none := by
  rw [has_iff_standing] at present
  rw [originOf_eq_standing] at missing
  rw [originOf_eq_standing, standing?_recorded]
  cases there : table.standing? id with
  | none => simp [there] at present
  | some standing =>
      simp only [there, Option.bind_eq_bind, Option.bind_some] at missing
      split <;> simp [missing]

end Recorded

theorem Orderly.recorded {table : SymbolTable} (orderly : table.Orderly) (kind : NodeKind)
    (reference : NodeRef) (reached : (table.recorded kind reference).Reachable) :
    (table.recorded kind reference).Orderly where
  reachable := reached
  namespaces id owner scope owned := by
    rw [isNamespace_recorded] at scope
    rw [owner_recorded] at owned
    exact orderly.namespaces id owner scope owned
  wraps template inner wrapped := by
    rw [templated?_recorded] at wrapped
    rw [isNamespace_recorded]
    exact orderly.wraps template inner wrapped
  owners factory home served := by
    rw [homeOf_congr (factories_recorded table kind reference)] at served
    rw [stackOf_congr (factories_recorded table kind reference)]
    simp only [owner_recorded]
    exact orderly.owners factory home served

end SymbolTable

/-- Whether a node may be started inside another one: if a template wraps its symbol, it stands
in the node of that template, and a template is a new one. -/
structure NodeKind.Belongs (tree : Tree) (table : SymbolTable) (parent : NodeId)
    (kind : NodeKind) : Prop where
  present : tree.Has parent
  wrapped : ∀ symbol template, kind.symbol? = some symbol → originOf table symbol = none →
    table.templated? template = some symbol → kind.isTemplateParameter = false ∧ ∃ declaration,
      tree.kindAt parent = some (.template declaration) ∧ declaration.template = template
  entity : kind.isEntity = true → ∀ declaration,
    tree.kindAt parent = some (.template declaration) →
      table.templated? declaration.template = kind.symbol?
  template : ∀ declaration, kind = .template declaration → table.Has declaration.template ∧
    originOf table declaration.template = none ∧ table.templated? declaration.template = none

namespace Traced

variable {tree : Tree} {table : SymbolTable} {kind : NodeKind} {parent : NodeId}

/-- A template comes from its node, also if that is new. -/
theorem origins_add (traced : Traced tree table) (belongs : kind.Belongs tree table parent)
    {start : Span} {node : NodeId} {declaration : TemplateDecl}
    (found : (tree.add kind parent start).2.kindAt node = some (.template declaration)) :
    originOf (table.recorded kind (tree.ref ⟨tree.size⟩)) declaration.template =
      some (tree.ref node) := by
  rcases tree.kindAt_add_cases found with before | ⟨rfl, rfl⟩
  · exact SymbolTable.originOf_recorded_of_some (traced.origins node declaration before)
  · obtain ⟨present, missing, _⟩ := belongs.template declaration rfl
    rw [SymbolTable.originOf_recorded_of_none present missing]
    exact if_pos rfl

/-- A template wraps every declaration in its node, the new one included. -/
theorem entities_add (traced : Traced tree table) (belongs : kind.Belongs tree table parent)
    {start : Span} {node child : NodeId} {declaration : TemplateDecl} {other : NodeKind}
    (found : (tree.add kind parent start).2.kindAt node = some (.template declaration))
    (member : child ∈ (tree.add kind parent start).2.children node)
    (there : (tree.add kind parent start).2.kindAt child = some other)
    (entity : other.isEntity = true) :
    table.templated? declaration.template = other.symbol? := by
  rcases (tree.mem_children_add kind belongs.present start).1 member with listed | ⟨rfl, rfl⟩
  · rw [tree.kindAt_add_of_has kind parent start (tree.has_of_mem_children listed)] at found
    rw [tree.kindAt_add_of_has kind parent start (traced.children node child listed)] at there
    exact traced.entities node declaration child other found listed there entity
  · rw [tree.kindAt_add_of_has kind node start belongs.present] at found
    obtain rfl := Option.some.inj ((tree.kindAt_add_new kind node start).symm.trans there)
    exact belongs.entity entity declaration found

/-- What a template wraps stands in its node, and if it is new, it is the new node. -/
theorem wrapped_add (traced : Traced tree table) (orderly : table.Orderly)
    (belongs : kind.Belongs tree table parent) {start : Span} {node : NodeId}
    {declaration : TemplateDecl} {inner : SymbolId} {origin : NodeRef}
    (found : tree.kindAt node = some (.template declaration))
    (wraps : table.templated? declaration.template = some inner)
    (placed : originOf (table.recorded kind (tree.ref ⟨tree.size⟩)) inner = some origin) :
    ∃ child ∈ (tree.add kind parent start).2.children node, origin = tree.ref child ∧
      (tree.add kind parent start).2.faceAt child = some (false, some inner) := by
  cases known : originOf table inner with
  | some first =>
      rw [SymbolTable.originOf_recorded_of_some known] at placed
      obtain rfl := Option.some.inj placed
      obtain ⟨child, member, rfl, face⟩ :=
        traced.wrapped node declaration inner first found wraps known
      refine ⟨child, (tree.mem_children_add kind belongs.present start).2 (.inl member), rfl, ?_⟩
      exact (Tree.Keeps.add tree kind belongs.present start).faces child _ face
  | none =>
      have present := orderly.reachable.consistent.has_templated wraps
      rw [SymbolTable.originOf_recorded_of_none present known] at placed
      split at placed
      · rename_i symbol
        obtain rfl := Option.some.inj placed
        obtain ⟨noParameter, around, inParent, same⟩ :=
          belongs.wrapped inner declaration.template symbol known wraps
        obtain rfl := traced.node_eq inParent found same
        refine ⟨⟨tree.size⟩, ?_, rfl, ?_⟩
        · exact (tree.mem_children_add kind belongs.present start).2 (.inr ⟨rfl, rfl⟩)
        · rw [Tree.faceAt, tree.kindAt_add_new, Option.map_some, noParameter, symbol]
      · cases placed

theorem add (traced : Traced tree table) (orderly : table.Orderly)
    (belongs : kind.Belongs tree table parent) (start : Span) :
    Traced (tree.add kind parent start).2
      (table.recorded kind (tree.ref ⟨tree.size⟩)) := by
  refine ⟨?_, fun node declaration found => traced.origins_add belongs found, ?_, ?_⟩
  · intro node child member
    unfold Tree.Has
    rw [tree.size_add kind parent start]
    rcases (tree.mem_children_add kind belongs.present start).1 member with before | ⟨_, rfl⟩
    · exact Nat.lt_succ_of_lt (traced.children node child before)
    · exact Nat.lt_succ_self _
  · intro node declaration child other found member there entity
    rw [SymbolTable.templated?_recorded]
    exact traced.entities_add belongs found member there entity
  · intro node declaration inner origin found wraps placed
    rw [SymbolTable.templated?_recorded] at wraps
    rcases tree.kindAt_add_cases found with before | ⟨rfl, rfl⟩
    · exact traced.wrapped_add orderly belongs before wraps placed
    · -- A new template wraps nothing.
      rw [(belongs.template declaration rfl).2.2] at wraps
      cases wraps

end Traced

theorem ScopeFrame.Seated.add {tree : Tree} {table : SymbolTable} {frame : ScopeFrame}
    (seated : frame.Seated tree table) (kind : NodeKind) (parent : NodeId) (start : Span)
    (reference : NodeRef) :
    frame.Seated (tree.add kind parent start).2 (table.recorded kind reference) := by
  have old {other : NodeKind} (found : tree.kindAt frame.node = some other) :=
    tree.kindAt_add_of_some kind parent start found
  constructor
  · rw [SymbolTable.has_recorded]
    exact seated.present
  · intro template
    obtain ⟨leads, declaration, found, rest⟩ := seated.template template
    exact ⟨leads, declaration, old found, rest⟩
  · intro other
    obtain ⟨target, found, there, plain⟩ := seated.plain other
    exact ⟨target, found, old there, plain⟩
  · intro factory container leads
    rw [SymbolTable.homeOf_congr (SymbolTable.factories_recorded table kind reference)]
    exact seated.target factory container leads

namespace Coherent

variable {tree : Tree} {table : SymbolTable} {frames : List ScopeFrame} {kind : NodeKind}
  {parent : NodeId}

/-- A new node leaves all template declarations settled that are not around it. -/
theorem settled_add (coherent : Coherent tree table frames) (present : tree.Has parent)
    (within : ∀ declaration, tree.kindAt parent = some (.template declaration) →
      ∃ frame ∈ frames, frame.node = parent) (start : Span) {node : NodeId}
    {declaration : TemplateDecl} (found : tree.kindAt node = some (.template declaration))
    (outside : ∀ frame ∈ frames, frame.node ≠ node) :
    declaration.SettledIn (tree.add kind parent start).2 node := by
  have apart : node ≠ parent := by
    rintro rfl
    obtain ⟨frame, member, same⟩ := within declaration found
    exact outside frame member same
  have same : ParseM.ownedSymbol? (tree.add kind parent start).2 node =
      ParseM.ownedSymbol? tree node := by
    apply ParseM.ownedSymbol?_congr
    · rw [tree.children_add kind present, if_neg apart, List.append_nil]
    · intro child member
      have old := coherent.traced.children node child member
      rw [Tree.faceAt, tree.kindAt_add_of_has kind parent start old, ← Tree.faceAt]
  unfold TemplateDecl.SettledIn
  rw [same]
  exact coherent.settled node declaration found outside

/-- A node that is no template is started inside another one.  A template around it is one that
the parse is inside. -/
theorem add (coherent : Coherent tree table frames) (belongs : kind.Belongs tree table parent)
    (plain : kind.templateDecl? = none)
    (within : ∀ declaration, tree.kindAt parent = some (.template declaration) →
      ∃ frame ∈ frames, frame.node = parent) (start : Span)
    (reached : (table.recorded kind (tree.ref ⟨tree.size⟩)).Reachable) :
    Coherent (tree.add kind parent start).2 (table.recorded kind (tree.ref ⟨tree.size⟩))
      frames where
  orderly := coherent.orderly.recorded kind _ reached
  traced := coherent.traced.add coherent.orderly belongs start
  nested factory := by
    rw [SymbolTable.stackOf_congr (SymbolTable.factories_recorded table kind _)]
    exact (coherent.nested factory).imp fun inner outer inside =>
      inside.mono (.add tree kind belongs.present start) fun id origin known =>
        SymbolTable.originOf_recorded_of_some known
  seated frame member := (coherent.seated frame member).add kind parent start _
  inside := coherent.inside
  shares := coherent.shares
  opened factory := by
    rw [SymbolTable.stackOf_congr (SymbolTable.factories_recorded table kind _)]
    exact coherent.opened factory
  settled node declaration found outside := by
    rcases tree.kindAt_add_cases found with before | ⟨_, rfl⟩
    · exact coherent.settled_add belongs.present within start before outside
    · cases plain

end Coherent

/-! ## Changes of a node -/

section Amending

variable {tree later : Tree} {table : SymbolTable} {node : NodeId}
  {change : TemplateDecl → TemplateDecl} (amends : tree.Amends later node change)
  (same : ∀ declaration, tree.kindAt node = some (.template declaration) →
    (change declaration).template = declaration.template)

include amends same

theorem ParseM.ownedSymbol?_amends (id : NodeId) : ownedSymbol? later id = ownedSymbol? tree id :=
  ownedSymbol?_congr (amends.children id) fun child _ => amends.faceAt same child

theorem Traced.amend (traced : Traced tree table) : Traced later table := by
  have keeps := amends.keeps same
  have templates {id : NodeId} {changed : TemplateDecl}
      (found : later.kindAt id = some (.template changed)) : ∃ declaration,
        tree.kindAt id = some (.template declaration) ∧
          changed.template = declaration.template := by
    obtain ⟨declaration, before, rfl⟩ := amends.exists_template found
    refine ⟨declaration, before, ?_⟩
    split
    · rename_i here
      exact same declaration (here ▸ before)
    · rfl
  refine ⟨?_, ?_, ?_, ?_⟩
  · intro id child member
    unfold Tree.Has
    rw [amends.size]
    exact traced.children id child (amends.children id ▸ member)
  · intro id changed found
    obtain ⟨declaration, before, equal⟩ := templates found
    rw [equal, keeps.ref]
    exact traced.origins id declaration before
  · intro id changed child kind found member there entity
    obtain ⟨declaration, before, equal⟩ := templates found
    have plain : kind.templateDecl? = none := by
      cases kind <;> simp_all [NodeKind.isEntity, NodeKind.templateDecl?]
    rw [equal]
    exact traced.entities id declaration child kind before (amends.children id ▸ member)
      ((amends.kindAt_plain plain).1 there) entity
  · intro id changed inner origin found wraps placed
    obtain ⟨declaration, before, equal⟩ := templates found
    rw [equal] at wraps
    obtain ⟨child, member, rfl, face⟩ :=
      traced.wrapped id declaration inner origin before wraps placed
    refine ⟨child, amends.children id ▸ member, (keeps.ref child).symm, ?_⟩
    rw [amends.faceAt same]
    exact face

end Amending

namespace Coherent

variable {tree : Tree} {table : SymbolTable} {frames : List ScopeFrame} {kind : NodeKind}
  {parent : NodeId}

/-- A change of a node that leaves what its template owns. -/
theorem amend {later : Tree} {node : NodeId} {change : TemplateDecl → TemplateDecl}
    (coherent : Coherent tree table frames) (amends : tree.Amends later node change)
    (same : ∀ declaration, (change declaration).template = declaration.template ∧
      (change declaration).phase = declaration.phase ∧
        (change declaration).owned = declaration.owned) : Coherent later table frames := by
  have template (declaration : TemplateDecl)
      (_ : tree.kindAt node = some (.template declaration)) := (same declaration).1
  have equal (id : NodeId) (declaration : TemplateDecl) :
      (if node = id then change declaration else declaration).template = declaration.template ∧
        (if node = id then change declaration else declaration).phase = declaration.phase ∧
          (if node = id then change declaration else declaration).owned = declaration.owned := by
    split
    · exact same declaration
    · exact ⟨rfl, rfl, rfl⟩
  refine ⟨coherent.orderly, coherent.traced.amend amends template, ?_, ?_, coherent.inside,
    coherent.shares, coherent.opened, ?_⟩
  · intro factory
    exact (coherent.nested factory).imp fun inner outer inside =>
      inside.mono (amends.keeps template) fun id origin known => known
  · intro frame member
    have seated := coherent.seated frame member
    refine ⟨seated.present, ?_, ?_, seated.target⟩
    · intro isTemplate
      obtain ⟨leads, declaration, found, symbol, phase, owned⟩ := seated.template isTemplate
      obtain ⟨sameSymbol, samePhase, sameOwned⟩ := equal frame.node declaration
      exact ⟨leads, _, amends.kindAt_template found, sameSymbol.trans symbol,
        samePhase.trans phase, sameOwned.trans owned⟩
    · intro other
      obtain ⟨target, kind, found, plain⟩ := seated.plain other
      exact ⟨target, kind, (amends.kindAt_plain plain).2 found, plain⟩
  · intro id changed found outside
    obtain ⟨declaration, before, rfl⟩ := amends.exists_template found
    obtain ⟨_, samePhase, sameOwned⟩ := equal id declaration
    unfold TemplateDecl.SettledIn
    rw [ParseM.ownedSymbol?_amends amends template, samePhase, sameOwned]
    exact coherent.settled id declaration before outside

theorem finish (coherent : Coherent tree table frames) (node : NodeId) (last : Span) :
    Coherent (tree.finish node last) table frames :=
  coherent.amend (.finish tree node last) fun _ => ⟨rfl, rfl, rfl⟩

end Coherent

end DeclTree
