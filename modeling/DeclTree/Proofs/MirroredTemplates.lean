import DeclTree.Proofs.MirroredFunctions
import DeclTree.Parse.Template

/-!
# Templates behind another source

A template opens its frame in the factory of the scope around it, whose other frames are closed
before; its node is bound to the last declaration in it.
-/

namespace DeclTree

namespace ParseM

variable {α β : Type} {front : Front} {start stop : Bool} {rules mirrored : Rules}

/-! ## Parameters -/

theorem mirrors_parameterName : MirrorsAs front start start id parameterName parameterName :=
  (mirrors_eat _).bind fun _ => mirrors_peek.bind fun _ => (mirrors_eat _).bind fun _ =>
    .ite (fun _ => .pure rfl) fun _ => .pure rfl

theorem mirrors_typeParameter : MirrorsAs front start start id typeParameter typeParameter :=
  (mirrors_skip 1).bind fun _ => mirrors_parameterName.bind fun _ => .pure rfl

theorem mirrors_templateTemplateParameter : MirrorsAs front start start id
    templateTemplateParameter templateTemplateParameter :=
  (mirrors_skip 1).bind fun _ => mirrors_skipTemplateArguments.bind fun _ =>
    mirrors_peek.bind fun found => .ite (fun _ => (mirrors_skip 1).bind fun _ =>
      mirrors_parameterName.bind fun _ => .pure rfl) fun _ => .refuse _ found.span

theorem mirrors_valueParameter (mirror : rules.Mirror front mirrored) (token : Token) :
    MirrorsAs front start start id (valueParameter rules token)
      (valueParameter mirrored (front.displacement.move token)) := by
  refine (mirrors_specifiers mirror _).bind fun specs => ?_
  have rest : MirrorsAs front start start id
      (do
        let declarator ← declarator rules .parameter
        return ⟨.nonType, declarator.id.map DeclaratorId.name, some (specs.typeRef declarator),
          declarator.isPack⟩ : ParseM ParameterHead)
      (do
        let declarator ← declarator mirrored .parameter
        return ⟨.nonType, declarator.id.map DeclaratorId.name,
          some ((front.displacement.move specs).typeRef declarator), declarator.isPack⟩) :=
    (mirrors_declarator mirror _).bind fun declarator => .pure (by
      rw [typeRef_move, name_move]
      rfl)
  exact .ite (fun _ => .refuses _ token.span) fun _ => rest

theorem mirrors_dependentTypeAhead :
    Mirrors front start start dependentTypeAhead dependentTypeAhead :=
  (mirrors_checkAhead _ _).bind fun _ => (mirrors_checkAhead _ _).bind fun _ => .pure rfl

theorem mirrors_parameterHead (mirror : rules.Mirror front mirrored) :
    MirrorsAs front start start id (parameterHead rules) (parameterHead mirrored) := by
  refine mirrors_peek.bind fun token => ?_
  simp only [Displacement.kind_move]
  split
  iterate 2
    · exact mirrors_dependentTypeAhead.bind fun _ =>
        .ite (fun _ => mirrors_valueParameter mirror token) fun _ => mirrors_typeParameter
  · exact mirrors_templateTemplateParameter
  · exact mirrors_valueParameter mirror token

theorem mirrors_templateParameter (mirror : rules.Mirror front mirrored) (node : NodeId)
    (template : SymbolId) :
    Mirrors front true true (templateParameter rules node template)
      (templateParameter mirrored (front.displacement.move node) template) := by
  refine mirrors_peek.bind fun token => (mirrors_parameterHead mirror).bind fun head =>
    (mirrors_eat _).bind fun hasDefault => ?_
  have amend (parameter : NodeId) : Mirrors front true true
      (modify fun state => { state with
        tree := state.tree.updateTemplate node (TemplateDecl.addParameter · parameter) } :
          ParseM Unit)
      (modify fun state => { state with
        tree := state.tree.updateTemplate (front.displacement.move node)
          (TemplateDecl.addParameter · (front.displacement.move parameter)) }) :=
    .modify fun _ _ joins => { joins with
      tree := joins.tree.updateTemplate node fun declaration =>
        congrArg (fun parameters => TemplateDecl.mk _ _ parameters _ _ _ _)
          (front.displacement.move_append declaration.parameters [parameter]).symm }
  have rest : Mirrors front true true
      (do
        let unit ← unit
        let symbol ← changeTable token.span fun table =>
          table.addParameter template
            { name := head.name.getD "", kind := .templateParameter head.kind, unit := some unit }
        let parameter ← addNodeUnder node
          (.templateParameter ⟨head.name, head.kind, head.type, some symbol, hasDefault,
            head.isVariadic⟩) token.span
        finishNode parameter
        modify fun state => { state with
          tree := state.tree.updateTemplate node (TemplateDecl.addParameter · parameter) })
      (do
        let unit ← unit
        let symbol ← changeTable (front.displacement.move token.span) fun table =>
          table.addParameter template
            { name := head.name.getD "", kind := .templateParameter head.kind, unit := some unit }
        let parameter ← addNodeUnder (front.displacement.move node)
          (.templateParameter ⟨head.name, head.kind, head.type, some symbol, hasDefault,
            head.isVariadic⟩) (front.displacement.move token.span)
        finishNode parameter
        modify fun state => { state with
          tree := state.tree.updateTemplate (front.displacement.move node)
            (TemplateDecl.addParameter · parameter) }) :=
    mirrors_unit.bind fun _ => (mirrors_changeTable token.span
      (fun _ => SymbolTable.addParameter_relabel _ _)
      fun _ _ _ added => SymbolTable.keepsOrigins_addParameter added).bind fun symbol =>
        (mirrors_addNodeUnder node (.templateParameter ⟨head.name, head.kind, head.type,
          some symbol, hasDefault, head.isVariadic⟩) token.span).bind fun parameter =>
            (mirrors_finishNode parameter).bind fun _ => amend parameter
  exact .ite (fun _ => mirrors_skipParameterDefault.bind fun _ => rest) fun _ => rest

theorem mirrors_templateParameterItem (mirror : rules.Mirror front mirrored) (node : NodeId)
    (template : SymbolId) (round : Unit) :
    MirrorsAs front true true (Step.map id id) (templateParameterItem rules node template round)
      (templateParameterItem mirrored (front.displacement.move node) template round) :=
  (mirrors_templateParameter mirror node template).bind fun _ => (mirrors_eat _).bind fun _ =>
    .ite (fun _ => .pure rfl) fun _ => .pure rfl

theorem mirrors_templateParameters (mirror : rules.Mirror front mirrored) (node : NodeId)
    (template : SymbolId) :
    Mirrors front start stop (templateParameters rules node template)
      (templateParameters mirrored (front.displacement.move node) template) :=
  (mirrors_expect _).behind fun _ => (mirrors_check _).bind fun _ => (mirrors_check _).bind fun _ =>
    .ite (fun _ => mirrors_expectClosingAngle) fun _ =>
      (MirrorsAs.iterate (mirrors_templateParameterItem mirror node template) ()).bind fun _ =>
        mirrors_expectClosingAngle

/-! ## What a template prefix leads -/

theorem mirrors_constraintOperand (round : Unit) :
    MirrorsAs front start start (Step.map id id) (constraintOperand round)
      (constraintOperand round) := by
  have rest : MirrorsAs front start start (Step.map id id)
      (do
        if ← eat (.punct .ampAmp) then
          return .again ()
        else if ← eat (.punct .pipePipe) then
          return .again ()
        else
          return .done () : ParseM (Step Unit Unit))
      (do
        if ← eat (.punct .ampAmp) then
          return .again ()
        else if ← eat (.punct .pipePipe) then
          return .again ()
        else
          return .done ()) :=
    (mirrors_eat _).bind fun _ => .ite (fun _ => .pure rfl) fun _ => (mirrors_eat _).bind fun _ =>
      .ite (fun _ => .pure rfl) fun _ => .pure rfl
  exact mirrors_peek.bind fun _ => .ite (fun _ => mirrors_skipGroup.bind fun _ => rest) fun _ =>
    .ite (fun _ => (mirrors_skip 1).bind fun _ => rest) fun _ => mirrors_namePath.bind fun _ => rest

theorem mirrors_skipConstraint : Mirrors front start start skipConstraint skipConstraint :=
  (mirrors_checkWord _).bind fun _ => .ite (fun _ => (mirrors_skip 1).bind fun _ =>
    .iterate mirrors_constraintOperand ()) fun _ => .pure rfl

theorem mirrors_templatedDeclaration (mirror : rules.Mirror front mirrored) :
    Mirrors front start start (templatedDeclaration rules) (templatedDeclaration mirrored) :=
  mirrors_skipConstraint.bind fun _ => mirrors_peek.bind fun token =>
    .ite (fun _ => (mirror.templateDeclaration token.span false).bind fun _ => .pure rfl) fun _ =>
      .ite (fun _ => mirrors_synchronize.bind fun _ => .pure rfl) fun _ =>
        mirror.declaration.bind fun _ => .pure rfl

theorem mirrors_prefixFactory (span : Span) :
    MirrorsAs front start start id (prefixFactory span)
      (prefixFactory (front.displacement.move span)) := by
  refine mirrors_frame.bind fun frame => ?_
  obtain ⟨node, symbol, target, kind⟩ := frame
  have factory : MirrorsAs front start start id
      (changeTable span fun table => table.factoryFor symbol)
      (changeTable (front.displacement.move span) fun table => table.factoryFor symbol) :=
    mirrors_changeTable span (fun _ => SymbolTable.factoryFor_relabel symbol)
      fun _ _ _ found => SymbolTable.keepsOrigins_factoryFor found
  cases target with
  | template factory container => exact .pure rfl
  | _ => exact factory.bind fun _ => .pure rfl

/-- What is said of a template whose declaration has been read without declaring anything. -/
def complainNothing (span : Span) : Except ParseError Bool → ParseM Unit
  | .ok true => complain .nothingDeclared span
  | _ => return ()

theorem mirrors_complainNothing (span : Span) (parsed : Except ParseError Bool) :
    Mirrors front start start (complainNothing span parsed)
      (complainNothing (front.displacement.move span) (front.displacement.move parsed)) := by
  cases parsed with
  | error error => exact .pure rfl
  | ok declared =>
      cases declared with
      | false => exact .pure rfl
      | true => exact mirrors_complain _ span

theorem discardPending_eq (factory : FactoryId) (template : SymbolId) (span : Span)
    (parsed : Except ParseError Bool) (state : ParseState) :
    discardPending factory template span parsed state =
      (if (state.table.factory? factory).any (TemplateFactory.isPending · template) then do
          setTable (state.table.discardTemplate factory template)
          complainNothing span parsed
        else pure () : ParseM Unit) state := rfl

theorem mirrors_discardPending (factory : FactoryId) (template : SymbolId) (span : Span)
    (parsed : Except ParseError Bool) :
    Mirrors front start start (discardPending factory template span parsed)
      (discardPending factory template (front.displacement.move span)
        (front.displacement.move parsed)) := by
  intro own joined joins begun
  unfold Meets
  rw [discardPending_eq, discardPending_eq, joins.table, SymbolTable.factory?_relabel,
    SymbolTable.discardTemplate_relabel]
  by_cases open? : (own.table.factory? factory).any (TemplateFactory.isPending · template)
  · rw [if_pos open?, if_pos open?]
    exact mirrors_complainNothing span parsed _ _
      (Joins.withTable joins (SymbolTable.keepsOrigins_discardTemplate factory template)) begun
  · rw [if_neg open?, if_neg open?]
    exact ⟨⟨joined, rfl, joins⟩, fun known => known.elim id begun⟩

/-- Binding a template to what it owns does not depend on where its node stands. -/
theorem bind_move (declaration : TemplateDecl) (owned : SymbolId) :
    (front.displacement.move declaration).bind owned =
      (declaration.bind owned).map front.displacement.move := by
  unfold TemplateDecl.bind
  change (if declaration.phase = .opened then _ else _) = _
  split <;> rfl

/-- What becomes of the template that a node is when it is bound to what it owns, if it is one and
owns something. -/
def binding (tree : Tree) (node : NodeId) : Option (Except TreeError TemplateDecl) :=
  ((tree.get? node).bind fun found => found.kind.templateDecl?).bind fun declaration =>
    (ownedSymbol? tree node).map declaration.bind

def binding? (node : NodeId) : ParseM (Option (Except TreeError TemplateDecl)) :=
  return binding (← get).tree node

/-- What a binding does to a template. -/
def applyBinding (node : NodeId) : Option (Except TreeError TemplateDecl) → ParseM Unit
  | none => return ()
  | some (.ok bound) =>
      modify fun state => { state with tree := state.tree.updateTemplate node fun _ => bound }
  | some (.error error) => do complain (.tree error) (← previousSpan)

theorem bindOwned_eq (node : NodeId) : bindOwned node = binding? node >>= applyBinding node := by
  funext state
  have whole : (binding? node >>= applyBinding node) state =
      applyBinding node (binding state.tree node) state := rfl
  rw [whole, bindOwned, bind_get, binding]
  cases ownedSymbol? state.tree node with
  | none =>
      simp only [Option.map_none, Option.bind_fun_none]
      rfl
  | some owned =>
      simp only [Option.map_some]
      cases (state.tree.get? node).bind fun found => found.kind.templateDecl? with
      | none => rfl
      | some declaration =>
          simp only [Option.bind_some]
          cases declaration.bind owned <;> rfl

theorem mirrors_binding? (node : NodeId) :
    MirrorsAs front start start (Option.map (Except.map front.displacement.move))
      (binding? node) (binding? (front.displacement.move node)) := by
  refine .looks fun own joined joins => ?_
  have there := joins.tree.templateDecl?_get? node
  unfold binding
  rw [there]
  cases known : (own.tree.get? node).bind fun found => found.kind.templateDecl? with
  | none => rfl
  | some declaration =>
      have inner : node ≠ Tree.root := by
        rintro rfl
        obtain ⟨first, _, found, _, shared⟩ := joins.tree.root
        rw [found] at known
        cases shared.plain.symm.trans known
      rw [joins.tree.ownedSymbol?_move inner]
      cases ownedSymbol? own.tree node with
      | none => rfl
      | some owned => exact congrArg some (bind_move declaration owned)

theorem mirrors_bindOwned (node : NodeId) :
    Mirrors front true true (bindOwned node) (bindOwned (front.displacement.move node)) := by
  rw [bindOwned_eq, bindOwned_eq]
  refine (mirrors_binding? node).bind fun binding => ?_
  cases binding with
  | none => exact .pure rfl
  | some outcome =>
      cases outcome with
      | ok bound =>
          exact .modify fun _ _ joins => { joins with
            tree := joins.tree.updateTemplate node fun _ => rfl }
      | error error => exact mirrors_previousSpan.bind fun last => mirrors_complain _ last

/-! ## Template declarations -/

theorem mirrors_templateContent (mirror : rules.Mirror front mirrored) (node : NodeId)
    (template : SymbolId) :
    Mirrors front start stop (templateContent rules node template)
      (templateContent mirrored (front.displacement.move node) template) :=
  (mirrors_templateParameters mirror node template).behind fun _ =>
    mirrors_templatedDeclaration mirror

theorem mirrors_openedTemplate (mirror : rules.Mirror front mirrored) (span : Span)
    (exported : Bool) :
    Mirrors front true true (openedTemplate rules span exported)
      (openedTemplate mirrored (front.displacement.move span) exported) :=
  (mirrors_checkNesting span).bind fun _ => (mirrors_prefixFactory span).bind fun home =>
    mirrors_unit.bind fun unit => (mirrors_changeTable span
      (fun _ => SymbolTable.openTemplate_relabel home.1 (some unit))
      fun _ _ _ opened => SymbolTable.keepsOrigins_openTemplate opened).bind fun template =>
        mirrors_frame.bind fun frame =>
          (mirrors_addNode (.template (.start template frame.node home.1 exported)) span).bind
            fun node => (mirrors_pushScope ⟨node, template, .template home.1 home.2,
              .template⟩).bind
              fun _ => (mirrors_templateContent mirror node template).attempt.bind fun parsed =>
                mirrors_popScope.bind fun _ =>
                  (mirrors_discardPending home.1 template span parsed).bind
                  fun _ => (mirrors_bindOwned node).bind fun _ => (mirrors_finishNode node).bind
                    fun _ => (MirrorsAs.resume parsed).bind fun _ => .pure rfl

theorem mirrors_templateDeclaration (mirror : rules.Mirror front mirrored) (span : Span)
    (exported : Bool) :
    Mirrors front start stop (templateDeclaration rules span exported)
      (templateDeclaration mirrored (front.displacement.move span) exported) :=
  (mirrors_expect _).behind fun _ => (mirrors_check _).bind fun _ =>
    .ite (fun _ => mirrors_openedTemplate mirror span exported) fun _ => mirrors_synchronize

end ParseM

end DeclTree
