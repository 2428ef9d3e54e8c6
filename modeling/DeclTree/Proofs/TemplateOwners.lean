import DeclTree.Proofs.InternalErrors
import DeclTree.Proofs.NodeSymbols

/-!
# What a template owns

The tree and the table of a session both know what a template was made for: its node is bound to
the last declaration inside, and its symbol wraps the declaration behind the prefixes.  For a
class, an enum, a function, a variable or a name for a type these are the same.  They come apart
where something else stands last in the node: a namespace, which no template wraps, a further
prefix that was given up, or, behind the declaration that is wrapped, something without a symbol.
-/

namespace DeclTree

open TemplateDecl (originOf)

/-- Whether the tree and the table agree on what a template owns: what is attached to a bound
declaration is what its template wraps, and the template of an open one wraps nothing that has a
node. -/
def TemplateDecl.Agrees (table : SymbolTable) (declaration : TemplateDecl) : Prop :=
  (declaration.phase = .bound → ∀ owned, declaration.owned = some owned →
    table.templated? declaration.template = some owned) ∧
  (declaration.phase = .opened → ∀ inner, table.templated? declaration.template = some inner →
    originOf table inner = none)

namespace Tree

/-- What the last node in a template declares that is no parameter. -/
def lastInside (tree : Tree) (node : NodeId) : Option NodeKind :=
  ((tree.children node).reverse.filterMap tree.kindAt).find? fun kind => !kind.isTemplateParameter

/-- Whether a template wraps what stands last in its node.  It wraps every declaration that can be
made for a template and no namespace; if something without a symbol stands last, it must not wrap
what another node inside introduced. -/
def OwnsLast (tree : Tree) (table : SymbolTable) (node : NodeId) (template : SymbolId) : Prop :=
  ∀ kind, tree.lastInside node = some kind →
    match kind.symbol? with
    | some symbol => kind.isEntity = true ∨
        (kind.isNamespace = false ∧ table.templated? template = some symbol)
    | none => ∀ child ∈ tree.children node, ∀ inner,
        originOf table inner = some (tree.ref child) → table.templated? template ≠ some inner

theorem ownedSymbol?_eq_lastInside (tree : Tree) (node : NodeId) :
    ParseM.ownedSymbol? tree node = tree.lastInside node >>= NodeKind.symbol? := by
  have kinds : (tree.children node).reverse.filterMap tree.kindAt =
      ((tree.children node).reverse.filterMap tree.get?).map Node.kind := by
    rw [List.map_filterMap]
    rfl
  unfold ParseM.ownedSymbol? lastInside
  rw [kinds, List.find?_map]
  simp only [Function.comp_def]
  cases ((tree.children node).reverse.filterMap tree.get?).find?
    fun child => !child.kind.isTemplateParameter <;> rfl

variable {tree : Tree} {node : NodeId}

theorem exists_of_lastInside {kind : NodeKind} (last : tree.lastInside node = some kind) :
    ∃ child ∈ tree.children node, tree.kindAt child = some kind := by
  obtain ⟨child, member, found⟩ := List.mem_filterMap.1 (List.mem_of_find?_eq_some last)
  exact ⟨child, List.mem_reverse.1 member, found⟩

theorem faceAt_ne_of_lastInside (empty : tree.lastInside node = none) {child : NodeId}
    (member : child ∈ tree.children node) (symbol : Option SymbolId) :
    tree.faceAt child ≠ some (false, symbol) := by
  intro face
  obtain ⟨kind, found, same⟩ := Option.map_eq_some_iff.1 face
  have listed := List.mem_filterMap.2 ⟨child, List.mem_reverse.2 member, found⟩
  have parameter := List.find?_eq_none.1 empty kind listed
  simp [(Prod.mk.inj same).1] at parameter

end Tree

/-- The node of a namespace stands for a symbol that is one. -/
theorem Links.isNamespace {earlier : NodeRef → Option Bond} {tree : Tree} {table : SymbolTable}
    (links : Links earlier tree table) {child : NodeId} {kind : NodeKind} {symbol : SymbolId}
    (found : tree.kindAt child = some kind) (scope : kind.isNamespace = true)
    (named : kind.symbol? = some symbol) : table.isNamespace symbol = true := by
  have inner : kind.isUnit = false := by
    cases kind <;> first | rfl | cases scope
  obtain ⟨node, there, rfl⟩ := Option.map_eq_some_iff.1 found
  have tied : tree.bondAt earlier (tree.ref child) = some ⟨symbol, node.kind.name?, true⟩ := by
    simp [Tree.bondAt, Tree.ref, Tree.bond?, there, NodeKind.bond?, inner, named, scope]
  obtain ⟨present, _, known, _, suits, _⟩ := links.linked.symbols _ _ tied
  simp [SymbolTable.isNamespace, known, suits.scope.2 rfl]

/-! ## One template -/

namespace TemplateDecl

variable {tree : Tree} {table : SymbolTable} {node : NodeId} {declaration : TemplateDecl}
  {kind : NodeKind}

/-- A template that is bound to a symbol has to wrap it. -/
theorem agrees_iff_wraps (settled : declaration.SettledIn tree node)
    (last : tree.lastInside node = some kind) {symbol : SymbolId}
    (named : kind.symbol? = some symbol) :
    declaration.Agrees table ↔ table.templated? declaration.template = some symbol := by
  obtain ⟨owned, phase⟩ := settled
  have known : ParseM.ownedSymbol? tree node = some symbol := by
    rw [Tree.ownedSymbol?_eq_lastInside, last]
    exact named
  rw [known] at owned phase
  constructor
  · intro agrees
    exact agrees.1 phase symbol owned
  · intro wraps
    refine ⟨fun _ other same => ?_, fun opened => ?_⟩
    · rw [wraps, ← owned, same]
    · cases phase.symm.trans opened

/-- The template of a declaration that is left open has to wrap no node inside. -/
theorem agrees_iff_wraps_none (traced : Traced tree table)
    (found : tree.kindAt node = some (.template declaration))
    (settled : declaration.SettledIn tree node)
    (unnamed : tree.lastInside node >>= NodeKind.symbol? = none) :
    declaration.Agrees table ↔ ∀ child ∈ tree.children node, ∀ inner,
      originOf table inner = some (tree.ref child) →
        table.templated? declaration.template ≠ some inner := by
  obtain ⟨owned, phase⟩ := settled
  rw [Tree.ownedSymbol?_eq_lastInside, unnamed] at phase
  constructor
  · intro agrees child _ inner origin wraps
    rw [agrees.2 phase inner wraps] at origin
    cases origin
  · intro apart
    refine ⟨fun bound => ?_, fun _ inner wraps => ?_⟩
    · cases phase.symm.trans bound
    · cases placed : originOf table inner with
      | none => rfl
      | some origin =>
          obtain ⟨child, member, rfl, _⟩ :=
            traced.wrapped node declaration inner origin found wraps placed
          exact absurd wraps (apart child member inner placed)

/-- With nothing but parameters in its node, a template wraps no node. -/
theorem agrees_of_empty (traced : Traced tree table)
    (found : tree.kindAt node = some (.template declaration))
    (settled : declaration.SettledIn tree node) (empty : tree.lastInside node = none) :
    declaration.Agrees table := by
  rw [agrees_iff_wraps_none traced found settled (by rw [empty]; rfl)]
  intro child member inner origin wraps
  obtain ⟨other, listed, _, face⟩ := traced.wrapped node declaration inner _ found wraps origin
  exact Tree.faceAt_ne_of_lastInside empty listed _ face

/-- The tree and the table agree on what a template owns exactly if the template wraps what stands
last in its node. -/
theorem agrees_iff_ownsLast (orderly : table.Orderly) (traced : Traced tree table)
    (found : tree.kindAt node = some (.template declaration))
    (settled : declaration.SettledIn tree node) {earlier : NodeRef → Option Bond}
    (links : Links earlier tree table) :
    declaration.Agrees table ↔ tree.OwnsLast table node declaration.template := by
  cases last : tree.lastInside node with
  | none =>
      refine ⟨fun _ kind some => ?_, fun _ => agrees_of_empty traced found settled last⟩
      rw [last] at some
      cases some
  | some kind =>
      obtain ⟨child, member, there⟩ := Tree.exists_of_lastInside last
      have only : tree.OwnsLast table node declaration.template ↔ _ :=
        ⟨fun owns => owns kind last, fun holds other same =>
          Option.some.inj (last.symm.trans same) ▸ holds⟩
      rw [only]
      cases named : kind.symbol? with
      | none =>
          apply agrees_iff_wraps_none traced found settled
          rw [last]
          exact named
      | some symbol =>
          rw [agrees_iff_wraps settled last named]
          constructor
          · intro wraps
            refine .inr ⟨?_, wraps⟩
            -- No template wraps a namespace.
            cases scope : kind.isNamespace with
            | false => rfl
            | true =>
                have isNamespace := links.isNamespace there scope named
                rw [orderly.wraps _ _ wraps] at isNamespace
                cases isNamespace
          · rintro (entity | ⟨_, wraps⟩)
            · rw [traced.entities node declaration child kind found member there entity, named]
            · exact wraps

/-- Where tree and table agree, both lead to the same node. -/
theorem Agrees.same_node (agrees : declaration.Agrees table)
    (settled : declaration.SettledIn tree node) :
    declaration.owned >>= originOf table =
      table.templated? declaration.template >>= originOf table := by
  obtain ⟨owned, phase⟩ := settled
  cases known : ParseM.ownedSymbol? tree node with
  | some symbol =>
      rw [known] at owned phase
      rw [agrees.1 phase symbol owned, owned]
  | none =>
      rw [known] at owned phase
      rw [owned]
      cases wraps : table.templated? declaration.template with
      | none => rfl
      | some inner => exact (agrees.2 phase inner wraps).symm

/-- A template declaration that a parse leaves can be sealed.  That changes the node which it owns
only if it was open and its template wraps something with a node. -/
theorem exists_sealed (settled : declaration.SettledIn tree node) :
    ∃ finished, declaration.finalize = .ok finished ∧
      (finished.ownedDeclaration table = declaration.ownedDeclaration table ↔
        (declaration.phase = .opened → declaration.Agrees table)) := by
  obtain ⟨owned, phase⟩ := settled
  cases known : ParseM.ownedSymbol? tree node with
  | some symbol =>
      rw [known] at owned phase
      have bound : declaration.phase = .bound := phase
      refine ⟨{ declaration.release with phase := .sealed }, by simp [finalize, bound], ?_⟩
      simp [ownedDeclaration, release, bound]
  | none =>
      rw [known] at owned phase
      have opened : declaration.phase = .opened := phase
      refine ⟨{ declaration.release with phase := .sealed }, by simp [finalize, opened], ?_⟩
      simp only [ownedDeclaration, release, owned, opened, Agrees]
      cases wraps : table.templated? declaration.template <;> simp

end TemplateDecl

/-! ## Sessions -/

theorem Tree.kindAt_of_templateDecl {tree : Tree} {node : NodeId} {declaration : TemplateDecl}
    (found : tree.templateDecl node = .ok declaration) :
    tree.kindAt node = some (.template declaration) := by
  unfold templateDecl get at found
  unfold kindAt
  cases there : tree.get? node with
  | none => simp [there, Bind.bind, Except.bind] at found
  | some node =>
      have known : node.templateDecl = .ok declaration := by
        simpa [there, Bind.bind, Except.bind] using found
      unfold Node.templateDecl at known
      cases kind : node.kind <;> simp_all [NodeKind.templateDecl?]

/-- At the end of a unit no template is still being read. -/
theorem Coherent.settled_of_start {tree : Tree} {table : SymbolTable}
    (coherent : Coherent tree table ParseState.startScopes.frames) {node : NodeId}
    {declaration : TemplateDecl} (found : tree.kindAt node = some (.template declaration)) :
    declaration.SettledIn tree node := by
  apply coherent.settled node declaration found
  rintro frame member rfl
  have outermost : frame.kind ≠ .template := by
    rw [List.mem_singleton.1 member]
    rintro ⟨⟩
  obtain ⟨_, kind, there, other⟩ := (coherent.seated frame member).plain outermost
  obtain rfl := Option.some.inj (found.symm.trans there)
  cases other

namespace Session

theorem unit?_parse (session : Session) (source : String) :
    (session.parse source).2.2.unit? (session.parse source).1 =
      some (parseUnit session.options session.table ⟨session.units.size⟩ source).tree := by
  simp [parse, unit?]

/-- In every session, the tree and the table agree on what a template owns exactly if the template
wraps what stands last in its node.  Where they agree, both lead to the same node; sealing changes
the node that a template owns only where they do not agree and it is open. -/
theorem template_owners_agree_iff (options : ParseOptions) (calls : List SessionCall)
    (source : String) :
    let session := ({ options := options } : Session).performAll calls
    let table := (session.parse source).2.2.table
    ∃ tree, (session.parse source).2.2.unit? (session.parse source).1 = some tree ∧
      ∀ node declaration, tree.templateDecl node = .ok declaration →
        (declaration.Agrees table ↔ tree.OwnsLast table node declaration.template) ∧
        (declaration.Agrees table → declaration.owned >>= originOf table =
          table.templated? declaration.template >>= originOf table) ∧
        ∃ finished, declaration.finalize = .ok finished ∧
          (finished.ownedDeclaration table = declaration.ownedDeclaration table ↔
            (declaration.phase = .opened → declaration.Agrees table)) := by
  intro session table
  refine ⟨_, session.unit?_parse source, fun node declaration known => ?_⟩
  have composed : session.Composed := (composed_new options).performAll calls
  have tied : session.Tied := (tied_new options).performAll calls
  have coherent := (coherent_parseUnit session.options composed.orderly composed.balanced.closed
    ⟨session.units.size⟩ source).1
  have found := Tree.kindAt_of_templateDecl known
  have settled := coherent.settled_of_start found
  exact ⟨TemplateDecl.agrees_iff_ownsLast coherent.orderly coherent.traced found settled
      (tied.links_parse source).2,
    fun agrees => agrees.same_node settled, TemplateDecl.exists_sealed settled⟩

/-- The function is what the template wraps, and the namespace behind it is what stands last. -/
theorem template_owners_agree_iff_exported :
    let session :=
      (({} : Session).parse "template<class T> export { void f(); namespace N {} }").2.2
    ∃ tree declaration, session.unit? ⟨0⟩ = some tree ∧ tree.templateDecl ⟨1⟩ = .ok declaration ∧
      declaration.owned = some ⟨4⟩ ∧ session.table.templated? declaration.template = some ⟨3⟩ ∧
        ¬ declaration.Agrees session.table := by
  intro session
  obtain ⟨tree, parsed, owners⟩ := template_owners_agree_iff {} []
    "template<class T> export { void f(); namespace N {} }"
  let declaration : TemplateDecl :=
    { template := ⟨1⟩, scopeNode := ⟨0⟩, parameters := [⟨2⟩], owned := some ⟨4⟩,
      factory := some ⟨0⟩, phase := .bound }
  have found : (session.unit? ⟨0⟩).map (fun tree => tree.templateDecl ⟨1⟩) =
      some (.ok declaration) := by
    decide +kernel
  have last : session.unit? ⟨0⟩ >>= (fun tree => tree.lastInside ⟨1⟩) =
      some (.namespaceScope ⟨"N", false, ⟨4⟩⟩) := by
    decide +kernel
  have wraps : session.table.templated? declaration.template = some ⟨3⟩ := by
    decide +kernel
  have here : session.unit? ⟨0⟩ = some tree := parsed
  rw [here] at found last
  have known : tree.templateDecl ⟨1⟩ = .ok declaration := Option.some.inj found
  refine ⟨tree, declaration, here, known, rfl, wraps, fun agrees => ?_⟩
  have owns := (owners ⟨1⟩ declaration known).1.1 agrees _ last
  rcases owns with entity | ⟨scope, _⟩
  · cases entity
  · cases scope

end Session

end DeclTree
