import DeclTree.Parse.Unit

/-!
# Displaced sources

A piece of source behind another one has the same tokens as on its own, only some bytes and
lines further on, and its nodes come behind those of what stands in front of it.  Everything
that a parse makes of the piece is displaced in the same way: spans move by bytes and lines,
handles of nodes by a number of nodes.  The translation unit stays the first node.
-/

namespace DeclTree

/-- How far a piece of source is moved by what stands in front of it. -/
structure Displacement where
  bytes : Nat
  lines : Nat
  nodes : Nat

/-- What moves along with the source that it comes from. -/
class Displaceable (α : Type) where
  displaced : Displacement → α → α

namespace Displacement

/-- Move something along with its source. -/
abbrev move {α : Type} [Displaceable α] (displacement : Displacement) (value : α) : α :=
  Displaceable.displaced displacement value

end Displacement

/-! ## What has no place in the source -/

instance : Displaceable Unit := ⟨fun _ value => value⟩

instance : Displaceable Bool := ⟨fun _ value => value⟩

instance : Displaceable String := ⟨fun _ value => value⟩

instance : Displaceable Keyword := ⟨fun _ value => value⟩

instance : Displaceable Specifier := ⟨fun _ value => value⟩

instance : Displaceable SymbolId := ⟨fun _ value => value⟩

instance : Displaceable FactoryId := ⟨fun _ value => value⟩

instance : Displaceable UnitId := ⟨fun _ value => value⟩

instance : Displaceable TypeRef := ⟨fun _ value => value⟩

instance : Displaceable FunctionTail := ⟨fun _ value => value⟩

instance : Displaceable ParseM.QualifierSoFar := ⟨fun _ value => value⟩

instance : Displaceable ParseM.ParameterHead := ⟨fun _ value => value⟩

/-! ## What is made of several parts -/

section Parts

variable {α β : Type} [Displaceable α] [Displaceable β]

instance : Displaceable (Option α) := ⟨fun displacement => Option.map displacement.move⟩

instance : Displaceable (List α) := ⟨fun displacement => List.map displacement.move⟩

instance : Displaceable (α × β) :=
  ⟨fun displacement pair => (displacement.move pair.1, displacement.move pair.2)⟩

instance : Displaceable (ParseM.Step α β) where
  displaced displacement
    | .again state => .again (displacement.move state)
    | .done result => .done (displacement.move result)

end Parts

/-! ## What is read from a source -/

instance : Displaceable Span where
  displaced displacement span :=
    ⟨span.offset + displacement.bytes, span.line + displacement.lines, span.column, span.length⟩

instance : Displaceable Token where
  displaced displacement token := ⟨token.kind, token.lexeme, displacement.move token.span⟩

instance : Displaceable LexError where
  displaced displacement error := ⟨error.cause, displacement.move error.span⟩

instance : Displaceable ParseError where
  displaced displacement error := ⟨error.kind, displacement.move error.span, error.message⟩

instance {α : Type} [Displaceable α] : Displaceable (Except ParseError α) where
  displaced displacement
    | .ok value => .ok (displacement.move value)
    | .error error => .error (displacement.move error)

instance : Displaceable NamePath where
  displaced displacement path :=
    ⟨path.isGlobal, path.segments, path.hasArguments, displacement.move path.tokens,
      displacement.move path.span⟩

instance : Displaceable ForwardTag where
  displaced displacement forward := ⟨displacement.move forward.path, forward.kind⟩

instance : Displaceable DeclSpecs where
  displaced displacement specs :=
    ⟨displacement.move specs.tokens, specs.specifiers, specs.isTypedef, specs.hasType,
      specs.typeSymbol, displacement.move specs.forward⟩

instance : Displaceable DeclaratorId where
  displaced displacement id := ⟨id.qualifier, id.name, displacement.move id.span, id.hasArguments⟩

instance : Displaceable ParsedParameter where
  displaced displacement parameter :=
    ⟨parameter.name, parameter.type, parameter.hasDefault, parameter.isVariadic,
      displacement.move parameter.start, displacement.move parameter.last⟩

instance : Displaceable Declarator where
  displaced displacement declarator :=
    ⟨displacement.move declarator.id, displacement.move declarator.tokens,
      displacement.move declarator.parameters, declarator.isPack, declarator.isDirectInit⟩

/-! ## Nodes -/

instance : Displaceable NodeId where
  displaced displacement node :=
    if node = Tree.root then Tree.root else ⟨node.index + displacement.nodes⟩

instance : Displaceable NodeRef where
  displaced displacement reference := ⟨reference.unit, displacement.move reference.node⟩

instance : Displaceable InitDeclarator where
  displaced displacement declared := ⟨displacement.move declared.node, declared.hasBody⟩

instance : Displaceable TemplateDecl where
  displaced displacement declaration :=
    ⟨declaration.template, displacement.move declaration.scopeNode,
      displacement.move declaration.parameters, declaration.owned, declaration.factory,
      declaration.phase, declaration.exported⟩

instance : Displaceable NodeKind where
  displaced displacement
    | .template declaration => .template (displacement.move declaration)
    | kind => kind

instance : Displaceable SourceRange where
  displaced displacement range :=
    ⟨range.startOffset + displacement.bytes, range.endOffset + displacement.bytes,
      range.startLine + displacement.lines, range.endLine + displacement.lines, range.sealed⟩

instance : Displaceable Node where
  displaced displacement node :=
    ⟨displacement.move node.kind, displacement.move node.parent,
      displacement.move node.children, displacement.move node.range⟩

instance : Displaceable ScopeFrame where
  displaced displacement frame :=
    ⟨displacement.move frame.node, frame.symbol, frame.target, frame.kind⟩

instance : Displaceable ScopeStack where
  displaced displacement stack :=
    ⟨displacement.move stack.inner, displacement.move stack.outer⟩

namespace Displacement

variable (displacement : Displacement)

/-! ## Spans -/

theorem stop_move (span : Span) :
    (displacement.move span).stop = span.stop + displacement.bytes := by
  simp only [Displacement.move, Displaceable.displaced, Span.stop]
  omega

theorem move_merge (left right : Span) : displacement.move (left.merge right) =
    (displacement.move left).merge (displacement.move right) := by
  simp only [Span.merge, stop_move]
  simp only [Displacement.move, Displaceable.displaced, Nat.add_le_add_iff_right]
  split <;> simp only [Span.mk.injEq, true_and] <;> omega

theorem move_setStart (offset line : Nat) :
    displacement.move (({} : SourceRange).setStart offset line) =
      ({} : SourceRange).setStart (offset + displacement.bytes) (line + displacement.lines) := by
  simp [SourceRange.setStart, Displacement.move, Displaceable.displaced]

theorem move_setEnd (range : SourceRange) (offset line : Nat) :
    displacement.move ((range.setEnd offset line).finalize) =
      ((displacement.move range).setEnd (offset + displacement.bytes)
        (line + displacement.lines)).finalize := by
  simp only [Displacement.move, Displaceable.displaced, SourceRange.setEnd, SourceRange.finalize,
    SourceRange.mk.injEq, true_and, and_true]
  omega

/-! ## Handles of nodes -/

@[simp] theorem move_root : displacement.move Tree.root = Tree.root :=
  if_pos rfl

theorem move_of_ne_root {node : NodeId} (inner : node ≠ Tree.root) :
    displacement.move node = ⟨node.index + displacement.nodes⟩ :=
  if_neg inner

theorem move_ne_root {node : NodeId} (inner : node ≠ Tree.root) :
    displacement.move node ≠ Tree.root := by
  have positive : node.index ≠ 0 := fun zero => inner (congrArg NodeId.mk zero)
  rw [move_of_ne_root displacement inner]
  intro same
  have none : node.index + displacement.nodes = 0 := congrArg NodeId.index same
  omega

/-- Different nodes stay different. -/
@[simp] theorem move_node_inj {first second : NodeId} :
    displacement.move first = displacement.move second ↔ first = second := by
  refine ⟨fun same => ?_, congrArg _⟩
  by_cases inner : first = Tree.root
  · subst inner
    refine Decidable.byContradiction fun other => ?_
    exact move_ne_root displacement (Ne.symm other) (same.symm.trans (move_root displacement))
  · by_cases there : second = Tree.root
    · subst there
      exact absurd (same.trans (move_root displacement)) (move_ne_root displacement inner)
    · rw [move_of_ne_root displacement inner, move_of_ne_root displacement there] at same
      obtain ⟨index⟩ := first
      obtain ⟨other⟩ := second
      simpa using same

theorem index_move (node : NodeId) : (displacement.move node).index ≤
    node.index + displacement.nodes := by
  by_cases inner : node = Tree.root
  · rw [inner, move_root]
    exact Nat.zero_le _
  · exact Nat.le_of_eq (congrArg NodeId.index (move_of_ne_root displacement inner))

/-! ## Kinds of nodes and scopes -/

@[simp] theorem symbol?_move (kind : NodeKind) :
    (displacement.move kind).symbol? = kind.symbol? := by
  cases kind <;> rfl

@[simp] theorem isTemplateParameter_move (kind : NodeKind) :
    (displacement.move kind).isTemplateParameter = kind.isTemplateParameter := by
  cases kind <;> rfl

theorem templateDecl?_move (kind : NodeKind) :
    (displacement.move kind).templateDecl? = displacement.move kind.templateDecl? := by
  cases kind <;> rfl

@[simp] theorem frames_move (stack : ScopeStack) :
    (displacement.move stack).frames = displacement.move stack.frames := rfl

@[simp] theorem depth_move (stack : ScopeStack) :
    (displacement.move stack).depth = stack.depth := by
  simp [ScopeStack.depth, Displacement.move, Displaceable.displaced]

theorem push_move (stack : ScopeStack) (frame : ScopeFrame) :
    displacement.move (stack.push frame) =
      (displacement.move stack).push (displacement.move frame) := rfl

theorem pop_move (stack : ScopeStack) :
    displacement.move stack.pop = (displacement.move stack).pop := by
  obtain ⟨inner, outer⟩ := stack
  cases outer <;> rfl

theorem consumeFrames_move (frames : List ScopeFrame) :
    displacement.move (consumeFrames frames) = consumeFrames (displacement.move frames) := by
  induction frames with
  | nil => rfl
  | cons frame outer ih =>
      change List.map _ (consumeFrames (frame :: outer)) =
        consumeFrames (displacement.move frame :: displacement.move outer)
      simp only [consumeFrames]
      change _ = if frame.kind = .template then _ else _
      rw [← ih]
      split <;> rfl

theorem consume_move (stack : ScopeStack) :
    displacement.move stack.consume = (displacement.move stack).consume := by
  unfold ScopeStack.consume
  change _ = if stack.inner.kind = .template then _ else _
  rw [show (displacement.move stack).outer = displacement.move stack.outer from rfl,
    ← consumeFrames_move]
  split <;> rfl

@[simp] theorem className?_move (stack : ScopeStack) :
    (displacement.move stack).className? = stack.className? := by
  have found : (displacement.move stack.frames).find? (fun frame => frame.kind ≠ .template) =
      displacement.move (stack.frames.find? fun frame => frame.kind ≠ .template) := by
    exact List.find?_map
  unfold ScopeStack.className?
  rw [frames_move, found]
  cases stack.frames.find? fun frame => frame.kind ≠ .template with
  | none => rfl
  | some frame =>
      obtain ⟨node, symbol, target, kind⟩ := frame
      cases kind <;> rfl

/-! ## Texts -/

theorem spellAfter_move (previous : Token) (tokens : List Token) :
    spellAfter (displacement.move previous) (displacement.move tokens) =
      spellAfter previous tokens := by
  induction tokens generalizing previous with
  | nil => rfl
  | cons token rest ih => exact congrArg _ (ih token)

/-- A text does not tell where its tokens stand. -/
@[simp] theorem spell_move (tokens : List Token) :
    spell (displacement.move tokens) = spell tokens := by
  cases tokens with
  | nil => rfl
  | cons token rest =>
      change String.join (token.lexeme :: spellAfter (displacement.move token)
        (displacement.move rest)) = _
      rw [spellAfter_move]
      rfl

theorem text_move (path : NamePath) : (displacement.move path).text = path.text :=
  spell_move displacement path.tokens

theorem typeRef_move (specs : DeclSpecs) (declarator : Declarator) :
    (displacement.move specs).typeRef (displacement.move declarator) =
      specs.typeRef declarator := by
  have texts := spell_move displacement (specs.tokens ++ declarator.tokens)
  rw [show displacement.move (specs.tokens ++ declarator.tokens) =
    (displacement.move specs).tokens ++ (displacement.move declarator).tokens from
      List.map_append] at texts
  unfold DeclSpecs.typeRef
  rw [texts]
  rfl

end Displacement

/-! ## No displacement -/

namespace Displacement

/-- The displacement of what stands behind nothing. -/
def zero : Displacement :=
  ⟨0, 0, 0⟩

theorem zero_move_list {α : Type} [Displaceable α] (same : ∀ value : α, zero.move value = value)
    (values : List α) : zero.move values = values :=
  (List.map_congr_left fun value _ => same value).trans (List.map_id' values)

theorem zero_move_option {α : Type} [Displaceable α] (same : ∀ value : α, zero.move value = value)
    (value : Option α) : zero.move value = value := by
  cases value with
  | none => rfl
  | some value => exact congrArg some (same value)

theorem zero_move_tokens (tokens : List Token) : zero.move tokens = tokens :=
  zero_move_list (fun _ => rfl) tokens

theorem zero_move_errors (errors : List ParseError) : zero.move errors = errors :=
  zero_move_list (fun _ => rfl) errors

@[simp] theorem zero_move_id (id : NodeId) : zero.move id = id := by
  by_cases inner : id = Tree.root
  · rw [inner, move_root]
  · exact move_of_ne_root zero inner

theorem zero_move_kind (kind : NodeKind) : zero.move kind = kind := by
  cases kind with
  | template declaration =>
      obtain ⟨template, scopeNode, parameters, owned, factory, phase, exported⟩ := declaration
      have node := zero_move_id scopeNode
      have nodes := zero_move_list zero_move_id parameters
      simp only [Displacement.move] at node nodes
      simp only [Displacement.move, Displaceable.displaced] at node nodes ⊢
      simp only [node, nodes]
  | _ => rfl

theorem zero_move_node (node : Node) : zero.move node = node := by
  obtain ⟨kind, parent, children, range⟩ := node
  change Node.mk (zero.move kind) (zero.move parent) (zero.move children) _ = _
  rw [zero_move_kind, zero_move_option zero_move_id, zero_move_list zero_move_id]
  rfl

theorem zero_move_scopes (scopes : ScopeStack) : zero.move scopes = scopes := by
  have same (frame : ScopeFrame) : zero.move frame = frame :=
    congrArg (ScopeFrame.mk · frame.symbol frame.target frame.kind) (zero_move_id frame.node)
  obtain ⟨inner, outer⟩ := scopes
  change ScopeStack.mk (zero.move inner) (zero.move outer) = _
  rw [same, zero_move_list same]

end Displacement

end DeclTree
