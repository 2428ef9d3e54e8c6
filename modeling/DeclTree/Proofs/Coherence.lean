import DeclTree.Proofs.Activity
import DeclTree.Proofs.TableExtension
import DeclTree.Proofs.TreeFaces
import Mathlib.Data.List.Chain

/-!
# How scopes, nodes and open templates fit together

While a parse is on its way, three things know which templates it is inside: the scopes around
the cursor, the nodes of the tree, and the frames of the factories.  A scope of a template
belongs to a node that has no declaration yet; the frames of a factory are those of the
innermost scopes that lead to it; and what a template wraps in the table stands for a node
inside the node of the template.
-/

namespace DeclTree

open TemplateDecl (originOf)

/-! ## Scopes -/

namespace ScopeFrame

/-- Whether declarations of a scope go through the open templates of a factory. -/
def opens (factory : FactoryId) (frame : ScopeFrame) : Bool :=
  match frame.target with
  | .template other _ => other == factory
  | _ => false

/-- Whether a scope was entered after another one, for a node and a symbol behind those of the
other.  A scope that is no template may share its symbol with the one around it. -/
structure Inside (inner outer : ScopeFrame) : Prop where
  node : outer.node.index < inner.node.index
  symbol : outer.symbol.index ≤ inner.symbol.index
  strict : inner.kind = .template → outer.symbol.index < inner.symbol.index

/-- Whether a template leads where the template right around it does, unless that has been
done with. -/
def Shares (inner outer : ScopeFrame) : Prop :=
  inner.kind = .template → outer.kind = .template →
    outer.target = inner.target ∨ outer.target = .consumed

/-- Whether a scope is what its kind says: that of a template has a node without a declaration,
and any other one a node that is no template. -/
structure Seated (tree : Tree) (table : SymbolTable) (frame : ScopeFrame) : Prop where
  present : table.Has frame.symbol
  template : frame.kind = .template → frame.target ≠ .container ∧ ∃ declaration,
    tree.kindAt frame.node = some (.template declaration) ∧
      declaration.template = frame.symbol ∧ declaration.phase = .opened ∧ declaration.owned = none
  plain : frame.kind ≠ .template → frame.target = .container ∧ ∃ kind,
    tree.kindAt frame.node = some kind ∧ kind.templateDecl? = none
  target : ∀ factory container, frame.target = .template factory container →
    table.homeOf factory = some container ∧ container.index < frame.symbol.index

theorem Seated.isTemplate {tree : Tree} {table : SymbolTable} {frame : ScopeFrame}
    (seated : frame.Seated tree table) (inner : frame.target ≠ .container) :
    frame.kind = .template := by
  by_contra other
  exact inner (seated.plain other).1

theorem Seated.exists_kind {tree : Tree} {table : SymbolTable} {frame : ScopeFrame}
    (seated : frame.Seated tree table) : ∃ kind, tree.kindAt frame.node = some kind := by
  by_cases template : frame.kind = .template
  · obtain ⟨_, declaration, found, _⟩ := seated.template template
    exact ⟨_, found⟩
  · obtain ⟨_, kind, found, _⟩ := seated.plain template
    exact ⟨kind, found⟩

theorem Seated.has_node {tree : Tree} {table : SymbolTable} {frame : ScopeFrame}
    (seated : frame.Seated tree table) : tree.Has frame.node := by
  obtain ⟨kind, found⟩ := seated.exists_kind
  exact tree.has_of_kindAt found

/-- A scope for a new node and a new symbol is inside all others. -/
theorem Seated.inside_fresh {tree : Tree} {table : SymbolTable} {frame : ScopeFrame}
    (seated : frame.Seated tree table) (target : DeclareTarget) (kind : FrameKind) :
    Inside ⟨⟨tree.size⟩, ⟨table.size⟩, target, kind⟩ frame := by
  have symbol := (table.has_iff_lt frame.symbol).1 seated.present
  exact ⟨seated.has_node, Nat.le_of_lt symbol, fun _ => symbol⟩

theorem Remains.inside {inner outer later : ScopeFrame} (inside : inner.Inside outer)
    (remains : outer.Remains later) : inner.Inside later := by
  rcases remains with rfl | ⟨_, rfl⟩
  · exact inside
  · exact ⟨inside.node, inside.symbol, inside.strict⟩

theorem opens_iff {factory : FactoryId} {frame : ScopeFrame} :
    frame.opens factory = true ↔ ∃ container, frame.target = .template factory container := by
  unfold opens
  split
  · rename_i other container target
    simp [target]
  · rename_i target
    simp only [Bool.false_eq_true, false_iff, not_exists]
    exact fun container same => target factory container same

/-- Scopes of templates have different symbols. -/
theorem eq_of_inside {frames : List ScopeFrame} (inside : frames.Pairwise Inside)
    {first second : ScopeFrame} (left : first ∈ frames) (right : second ∈ frames)
    (one : first.kind = .template) (two : second.kind = .template)
    (same : first.symbol = second.symbol) : first = second := by
  induction frames with
  | nil => cases left
  | cons frame outer ih =>
      obtain ⟨here, rest⟩ := List.pairwise_cons.1 inside
      have index := congrArg SymbolId.index same
      rcases List.mem_cons.1 left with rfl | outerLeft <;>
        rcases List.mem_cons.1 right with rfl | outerRight
      · rfl
      · have later := (here second outerRight).strict one
        omega
      · have later := (here first outerLeft).strict two
        omega
      · exact ih rest outerLeft outerRight

end ScopeFrame

/-- The symbols of the scopes that lead to a factory, innermost first. -/
def opensOf (factory : FactoryId) (frames : List ScopeFrame) : List SymbolId :=
  (frames.filter (ScopeFrame.opens factory)).map ScopeFrame.symbol

theorem opensOf_cons (factory : FactoryId) (frame : ScopeFrame) (frames : List ScopeFrame) :
    opensOf factory (frame :: frames) =
      if frame.opens factory then frame.symbol :: opensOf factory frames
      else opensOf factory frames := by
  unfold opensOf
  rw [List.filter_cons]
  split <;> rfl

section Consuming

variable {frames : List ScopeFrame}

theorem pairwise_consumeFrames (inside : frames.Pairwise ScopeFrame.Inside) :
    (consumeFrames frames).Pairwise ScopeFrame.Inside := by
  induction frames with
  | nil => exact .nil
  | cons frame outer ih =>
      obtain ⟨here, rest⟩ := List.pairwise_cons.1 inside
      unfold consumeFrames
      split
      · refine List.pairwise_cons.2 ⟨?_, ih rest⟩
        intro other member
        obtain ⟨earlier, entered, remains⟩ :=
          ScopeStack.exists_remains (ScopeStack.remains_consumeFrames outer) member
        have still := remains.inside (here earlier entered)
        exact ⟨still.node, still.symbol, still.strict⟩
      · exact inside

theorem isChain_consumeFrames (shares : frames.IsChain ScopeFrame.Shares) :
    (consumeFrames frames).IsChain ScopeFrame.Shares := by
  induction frames with
  | nil => exact .nil
  | cons frame outer ih =>
      have rest := ih shares.tail
      unfold consumeFrames
      split
      · cases outer with
        | nil => exact .singleton _
        | cons next further =>
            rw [consumeFrames] at rest ⊢
            by_cases inner : next.kind = .template
            · rw [if_pos inner] at rest ⊢
              exact List.isChain_cons_cons.2 ⟨fun _ _ => .inr rfl, rest⟩
            · rw [if_neg inner] at rest ⊢
              exact List.isChain_cons_cons.2 ⟨fun _ template => absurd template inner, rest⟩
      · exact shares

/-- Templates that are done with lead nowhere; those of other factories stay as they are. -/
theorem opensOf_consumeFrames (shares : frames.IsChain ScopeFrame.Shares)
    {factory : FactoryId} {container : SymbolId}
    (leads : ∀ frame ∈ frames.head?, frame.kind = .template →
      frame.target = .template factory container ∨ frame.target = .consumed)
    {other : FactoryId} (different : factory ≠ other) :
    opensOf other (consumeFrames frames) = opensOf other frames := by
  induction frames with
  | nil => rfl
  | cons frame outer ih =>
      unfold consumeFrames
      split
      · rename_i template
        have here := leads frame rfl template
        have closed : frame.opens other = false := by
          rcases here with target | target <;> simp [ScopeFrame.opens, target, different]
        rw [opensOf_cons, opensOf_cons, closed, ih shares.tail]
        · simp [ScopeFrame.opens]
        · intro next member isTemplate
          obtain ⟨further, rfl⟩ : ∃ further, outer = next :: further := by
            cases outer with
            | nil => cases member
            | cons head further => exact ⟨further, by rw [Option.some.inj member]⟩
          rcases (List.isChain_cons_cons.1 shares).1 template isTemplate with same | consumed
          · rw [same]
            exact here
          · exact .inr consumed
      · rfl

theorem ScopeStack.frames_consume (stack : ScopeStack) :
    stack.consume.frames = consumeFrames stack.frames := by
  unfold ScopeStack.consume ScopeStack.frames
  split
  · rename_i template
    simp [consumeFrames, template]
  · rename_i other
    simp [consumeFrames, other]

theorem map_node_consumeFrames (frames : List ScopeFrame) :
    (consumeFrames frames).map ScopeFrame.node = frames.map ScopeFrame.node := by
  induction frames with
  | nil => rfl
  | cons frame outer ih =>
      unfold consumeFrames
      split
      · simp [ih]
      · rfl

end Consuming

/-! ## Tables, nodes and scopes -/

/-- What holds of a table during a parse: namespaces are declared after the scope around them,
no template wraps one, and open templates stand one inside the other. -/
structure SymbolTable.Orderly (table : SymbolTable) : Prop where
  reachable : table.Reachable
  namespaces : ∀ id owner, table.isNamespace id = true → table.owner id = some owner →
    owner.index < id.index
  wraps : ∀ template inner, table.templated? template = some inner →
    table.isNamespace inner = false
  owners : ∀ factory home, table.homeOf factory = some home →
    (table.stackOf factory ++ [home]).IsChain fun inner outer => table.owner inner = some outer

def NodeInside (tree : Tree) (table : SymbolTable) (inner outer : SymbolId) : Prop :=
  ∃ node declaration child, tree.kindAt node = some (.template declaration) ∧
    declaration.template = outer ∧ child ∈ tree.children node ∧
      originOf table inner = some (tree.ref child) ∧
        tree.faceAt child = some (false, some inner)

theorem NodeInside.mono {tree later : Tree} {table after : SymbolTable} {inner outer : SymbolId}
    (inside : NodeInside tree table inner outer) (keeps : tree.Keeps later)
    (origins : ∀ id origin, originOf table id = some origin → originOf after id = some origin) :
    NodeInside later after inner outer := by
  obtain ⟨node, declaration, child, found, same, member, origin, face⟩ := inside
  obtain ⟨changed, there, still⟩ := keeps.templates node declaration found
  refine ⟨node, changed, child, there, still.trans same, keeps.children node child member, ?_,
    keeps.faces child _ face⟩
  rw [keeps.ref]
  exact origins inner _ origin

/-- What holds of the template nodes of a tree: a template comes from its node, wraps every
declaration in that node, and if it wraps something with a node, that one is inside and no
parameter. -/
structure Traced (tree : Tree) (table : SymbolTable) : Prop where
  children : ∀ node child, child ∈ tree.children node → tree.Has child
  origins : ∀ node declaration, tree.kindAt node = some (.template declaration) →
    originOf table declaration.template = some (tree.ref node)
  entities : ∀ node declaration child kind, tree.kindAt node = some (.template declaration) →
    child ∈ tree.children node → tree.kindAt child = some kind → kind.isEntity = true →
      table.templated? declaration.template = kind.symbol?
  wrapped : ∀ node declaration inner origin,
    tree.kindAt node = some (.template declaration) →
      table.templated? declaration.template = some inner → originOf table inner = some origin →
        ∃ child ∈ tree.children node, origin = tree.ref child ∧
          tree.faceAt child = some (false, some inner)

/-- Whether a template declaration is bound to the last declaration in its node, or open if it
has none. -/
def TemplateDecl.SettledIn (tree : Tree) (node : NodeId) (declaration : TemplateDecl) : Prop :=
  declaration.owned = ParseM.ownedSymbol? tree node ∧
    declaration.phase = if (ParseM.ownedSymbol? tree node).isSome then .bound else .opened

/-- How scopes, nodes and open templates fit together. -/
structure Coherent (tree : Tree) (table : SymbolTable) (frames : List ScopeFrame) : Prop where
  orderly : table.Orderly
  traced : Traced tree table
  nested : ∀ factory, (table.stackOf factory).IsChain (NodeInside tree table)
  seated : ∀ frame ∈ frames, frame.Seated tree table
  inside : frames.Pairwise ScopeFrame.Inside
  shares : frames.IsChain ScopeFrame.Shares
  opened : ∀ factory, table.stackOf factory <+: opensOf factory frames
  settled : ∀ node declaration, tree.kindAt node = some (.template declaration) →
    (∀ frame ∈ frames, frame.node ≠ node) → declaration.SettledIn tree node

namespace SymbolTable

variable {table after : SymbolTable}

theorem has_of_originOf {id : SymbolId} {origin : NodeRef}
    (found : originOf table id = some origin) : table.Has id := by
  unfold originOf at found
  cases there : table.get? id with
  | none => simp [there] at found
  | some symbol => exact has_of_get? there

theorem Consistent.has_templated (consistent : table.Consistent) {template inner : SymbolId}
    (wraps : table.templated? template = some inner) : table.Has inner := by
  obtain ⟨symbol, info, found, kind, templated⟩ := templated?_eq_some_iff.1 wraps
  rw [has_iff_lt]
  exact ((consistent.symbols template symbol found).templated info inner kind templated).2

theorem stackOf_of_homeless {factory : FactoryId} (homeless : table.homeOf factory = none) :
    table.stackOf factory = [] := by
  have missing : table.factory? factory = none := by simpa [homeOf] using homeless
  simp [stackOf, missing]

theorem Reachable.has_frame (reached : table.Reachable) {factory : FactoryId}
    {template : SymbolId} (member : template ∈ table.stackOf factory) : table.Has template :=
  (reached.framesBlank.blank factory template member).has

theorem Reachable.has_home (reached : table.Reachable) {factory : FactoryId} {home : SymbolId}
    (served : table.homeOf factory = some home) : table.Has home := by
  obtain ⟨frames, found, rfl⟩ := Option.map_eq_some_iff.1 served
  exact (reached.consistent.factories factory frames found).container.has

/-- Adding things keeps a table in order, if open templates still stand one inside the
other. -/
theorem Orderly.extended (orderly : table.Orderly) (grown : table.Extends after)
    (reached : after.Reachable)
    (owners : ∀ factory home, after.homeOf factory = some home →
      (after.stackOf factory ++ [home]).IsChain fun inner outer =>
        after.owner inner = some outer) : after.Orderly where
  reachable := reached
  namespaces id owner scope owned := by
    by_cases present : table.Has id
    · rw [grown.isNamespace present] at scope
      rw [grown.owner present] at owned
      exact orderly.namespaces id owner scope owned
    · rw [owner_eq_standing] at owned
      cases there : after.standing? id with
      | none => simp [there] at owned
      | some standing =>
          obtain ⟨_, _, place, same, old⟩ := grown.added id standing present there
          simp only [there, Option.bind_eq_bind, Option.bind_some, same,
            Option.some.injEq] at owned
          subst owned
          rw [has_iff_lt] at old present
          omega
  wraps template inner wrapped := by
    rw [grown.templated?_eq] at wrapped
    rw [grown.isNamespace (orderly.reachable.consistent.has_templated wrapped)]
    exact orderly.wraps template inner wrapped
  owners := owners

/-- Open templates stand where they stood. -/
theorem Orderly.owners_extended (orderly : table.Orderly) (grown : table.Extends after)
    {factory : FactoryId} {home : SymbolId} (served : after.homeOf factory = some home) :
    (table.stackOf factory ++ [home]).IsChain fun inner outer =>
      after.owner inner = some outer := by
  cases before : table.homeOf factory with
  | none =>
      rw [stackOf_of_homeless before]
      exact .singleton _
  | some old =>
      obtain rfl := Option.some.inj ((grown.homes factory old before).symm.trans served)
      refine (orderly.owners factory old before).imp_of_mem_imp ?_
      intro inner outer member _ owned
      rw [grown.owner, owned]
      rcases List.mem_append.1 member with frame | last
      · exact orderly.reachable.has_frame frame
      · rw [List.mem_singleton.1 last]
        exact orderly.reachable.has_home before

theorem Orderly.retains (orderly : table.Orderly) (retains : table.Retains after)
    (reached : after.Reachable) : after.Orderly := by
  apply orderly.extended retains.toExtends reached
  intro factory home served
  rw [retains.frames]
  exact orderly.owners_extended retains.toExtends served

end SymbolTable

namespace Traced

variable {tree : Tree} {table after : SymbolTable}

theorem extended (traced : Traced tree table) (orderly : table.Orderly)
    (grown : table.Extends after) : Traced tree after where
  children := traced.children
  origins node declaration found := by
    have origin := traced.origins node declaration found
    rw [grown.originOf (SymbolTable.has_of_originOf origin), origin]
  entities node declaration child kind found member there entity := by
    rw [grown.templated?_eq]
    exact traced.entities node declaration child kind found member there entity
  wrapped node declaration inner origin found wraps placed := by
    rw [grown.templated?_eq] at wraps
    rw [grown.originOf (orderly.reachable.consistent.has_templated wraps)] at placed
    exact traced.wrapped node declaration inner origin found wraps placed

/-- A template has one node. -/
theorem node_eq (traced : Traced tree table) {first second : NodeId}
    {left right : TemplateDecl} (here : tree.kindAt first = some (.template left))
    (there : tree.kindAt second = some (.template right))
    (same : left.template = right.template) : first = second := by
  have one := traced.origins first left here
  rw [same, traced.origins second right there] at one
  exact (congrArg NodeRef.node (Option.some.inj one)).symm

end Traced

namespace ScopeFrame

theorem Seated.extended {tree : Tree} {table after : SymbolTable} {frame : ScopeFrame}
    (seated : frame.Seated tree table) (grown : table.Extends after) :
    frame.Seated tree after where
  present := grown.has seated.present
  template := seated.template
  plain := seated.plain
  target factory container leads := by
    obtain ⟨home, below⟩ := seated.target factory container leads
    exact ⟨grown.homes factory container home, below⟩

end ScopeFrame

namespace Coherent

variable {tree : Tree} {table after : SymbolTable} {frames : List ScopeFrame}

/-- Adding things to the table. -/
theorem retains (coherent : Coherent tree table frames) (retains : table.Retains after)
    (reached : after.Reachable) : Coherent tree after frames where
  orderly := coherent.orderly.retains retains reached
  traced := coherent.traced.extended coherent.orderly retains.toExtends
  nested factory := by
    rw [retains.frames]
    refine (coherent.nested factory).imp fun inner outer inside => inside.mono (.refl tree) ?_
    intro id origin known
    rw [retains.originOf (SymbolTable.has_of_originOf known), known]
  seated frame member := (coherent.seated frame member).extended retains.toExtends
  inside := coherent.inside
  shares := coherent.shares
  opened factory := by
    rw [retains.frames]
    exact coherent.opened factory
  settled := coherent.settled

/-! ## Entering and leaving scopes that are no template -/

/-- A scope that is no template is entered for a node and a symbol behind those of the scopes
around it. -/
theorem push (coherent : Coherent tree table frames) {frame : ScopeFrame}
    (seated : frame.Seated tree table) (plain : frame.kind ≠ .template)
    (inside : ∀ outer ∈ frames, frame.Inside outer) : Coherent tree table (frame :: frames) where
  orderly := coherent.orderly
  traced := coherent.traced
  nested := coherent.nested
  seated other member := by
    rcases List.mem_cons.1 member with rfl | outer
    · exact seated
    · exact coherent.seated other outer
  inside := List.pairwise_cons.2 ⟨inside, coherent.inside⟩
  shares := by
    cases frames with
    | nil => exact .singleton _
    | cons outer rest =>
        exact List.isChain_cons_cons.2 ⟨fun template => absurd template plain, coherent.shares⟩
  opened factory := by
    have closed : frame.opens factory = false := by
      simp [ScopeFrame.opens, (seated.plain plain).1]
    rw [opensOf_cons, closed]
    exact coherent.opened factory
  settled node declaration found outside :=
    coherent.settled node declaration found fun outer member =>
      outside outer (List.mem_cons_of_mem _ member)

theorem pop {frame : ScopeFrame} (coherent : Coherent tree table (frame :: frames))
    (plain : frame.kind ≠ .template) : Coherent tree table frames where
  orderly := coherent.orderly
  traced := coherent.traced
  nested := coherent.nested
  seated other member := coherent.seated other (List.mem_cons_of_mem _ member)
  inside := (List.pairwise_cons.1 coherent.inside).2
  shares := coherent.shares.tail
  opened factory := by
    have seated := coherent.seated frame List.mem_cons_self
    have closed : frame.opens factory = false := by
      simp [ScopeFrame.opens, (seated.plain plain).1]
    have opened := coherent.opened factory
    rwa [opensOf_cons, closed] at opened
  settled node declaration found outside := by
    apply coherent.settled node declaration found
    intro other member
    rcases List.mem_cons.1 member with rfl | outer
    · rintro rfl
      obtain ⟨_, kind, there, noTemplate⟩ :=
        (coherent.seated other List.mem_cons_self).plain plain
      obtain rfl := Option.some.inj (there.symm.trans found)
      cases noTemplate
    · exact outside other outer

end Coherent

end DeclTree
