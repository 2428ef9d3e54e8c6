import DeclTree.Proofs.MirroredBinding

/-!
# Names and specifiers behind another source

What a name stands for depends on the table and on the scope, and what is written on the tokens; so
both are the same wherever they stand.
-/

namespace DeclTree

/-- Rules that do the same behind what stands in front as others on their own. -/
structure Rules.Mirror (front : Front) (rules mirrored : Rules) : Prop where
  specifiers : ∀ {start : Bool} mode, ParseM.Mirrors front start start (rules.specifiers mode)
    (mirrored.specifiers mode)
  declarator : ∀ {start : Bool} mode, ParseM.Mirrors front start start (rules.declarator mode)
    (mirrored.declarator mode)
  declaration : ∀ {start : Bool}, ParseM.Mirrors front start start rules.declaration
    mirrored.declaration
  templateDeclaration : ∀ {start : Bool} span exported, ParseM.Mirrors front start start
    (rules.templateDeclaration span exported)
    (mirrored.templateDeclaration (front.displacement.move span) exported)
  declarations : ∀ {start : Bool} closing, ParseM.Mirrors front start start
    (rules.declarations closing) (mirrored.declarations closing)

namespace ParseM

variable {α β : Type} {front : Front} {start stop : Bool} {rules mirrored : Rules}

/-! ## Names -/

theorem mirrors_nameContinues :
    Mirrors front start start nameContinues nameContinues :=
  (mirrors_check _).bind fun _ => .ite (fun _ => (mirrors_ahead _).bind fun _ => .pure rfl)
    fun _ => .pure rfl

theorem mirrors_nameSegment (mark : Nat) (isGlobal : Bool) (segments : List String) :
    MirrorsAs front start stop (Step.map id front.displacement.move)
      (nameSegment mark isGlobal segments)
      (nameSegment (mark + front.tokens.length) isGlobal segments) :=
  .begins <| (mirrors_eat _).bind fun _ => mirrors_expectIdentifier.bind fun _ =>
    mirrors_skipClosedArguments.bind fun _ => mirrors_nameContinues.bind fun _ =>
      .ite (fun _ => mirrors_next.bind fun _ => .pure rfl) fun _ =>
        (mirrors_since mark).bind fun _ => .pure rfl

theorem mirrors_namePath : Mirrors front start stop namePath namePath :=
  .begins <| mirrors_mark.bind fun mark => (mirrors_eat _).bind fun isGlobal =>
    .iterateBegins (mirrors_nameSegment mark isGlobal) []

theorem mirrors_resolve? (path : NamePath) :
    MirrorsAs front start start id (resolve? path) (resolve? (front.displacement.move path)) :=
  mirrors_table.bind fun _ => mirrors_lookupScope.bind fun _ =>
    .pure (congrArg Except.toOption (SymbolTable.looksAlike_relabel.lookupQualified _ _ _))

theorem mirrors_pathScope (path : NamePath) :
    MirrorsAs front start start id (pathScope path) (pathScope (front.displacement.move path)) :=
  .ite (fun _ => (mirrors_resolveScope _ _ _).bind fun _ => .pure rfl) fun _ =>
    .ite (fun _ => .pure rfl) fun _ => .pure rfl

/-! ## Classes -/

theorem mirrors_tagPath? : Mirrors front start start tagPath? tagPath? :=
  (mirrors_check _).bind fun _ => (mirrors_check _).bind fun _ =>
    .ite (fun _ => mirrors_namePath.bind fun _ => .pure rfl) fun _ => .pure rfl

theorem mirrors_baseClass (bases : List TypeRef) :
    MirrorsAs front start start (Step.map id id) (baseClass bases) (baseClass bases) := by
  have words (rest : ParseM (Step (List TypeRef) (List TypeRef)))
      (further : MirrorsAs front start start (Step.map id id) rest rest) :
      MirrorsAs front start start (Step.map id id)
        (do
          skip ((← unread).takeWhile fun token => isBaseWord token.kind).length
          rest)
        (do
          skip ((← unread).takeWhile fun token => isBaseWord token.kind).length
          rest) :=
    (mirrors_skipWhile isBaseWord).bind fun _ => further
  refine mirrors_skipAttributes.bind fun _ => words _ (mirrors_namePath.behind fun path =>
    (mirrors_resolve? path).bind fun _ => (mirrors_eat _).bind fun _ =>
      (mirrors_eat _).bind fun _ =>
      ?_)
  rw [front.displacement.text_move]
  exact .ite (fun _ => .pure rfl) fun _ => .pure rfl

theorem mirrors_baseClause : MirrorsAs front start start id baseClause baseClause :=
  (mirrors_eat _).bind fun _ => .ite (fun _ => .iterate mirrors_baseClass []) fun _ => .pure rfl

theorem mirrors_forwardTag (specs : DeclSpecs) (path : Option NamePath) (kind : TagKind) :
    Mirrors front start start (forwardTag specs path kind)
      (forwardTag (front.displacement.move specs) (front.displacement.move path) kind) := by
  cases path with
  | none => exact mirrors_refuseName
  | some path => exact (mirrors_resolve? path).bind fun _ => .pure rfl

theorem mirrors_tagPlace (path : Option NamePath) (key : Token) :
    MirrorsAs front start start
      (fun (place : Option SymbolId × String × Span) =>
        (place.1, place.2.1, front.displacement.move place.2.2))
      (tagPlace path key)
      (tagPlace (front.displacement.move path) (front.displacement.move key)) := by
  cases path with
  | none => exact .pure rfl
  | some path => exact (mirrors_pathScope path).bind fun _ => .pure rfl

theorem mirrors_classBody (mirror : rules.Mirror front mirrored) (name : String)
    (symbol : SymbolId) (node : NodeId) :
    Mirrors front true true (classBody rules name symbol node)
      (classBody mirrored name symbol (front.displacement.move node)) := by
  refine (mirrors_expect _).attempt.bind fun outcome => ?_
  cases outcome with
  | error error => exact (mirrors_finishNode node).bind fun _ => .resume (.error error)
  | ok brace =>
      exact (mirrors_pushScope _).bind fun _ => (mirror.declarations true).bind fun _ =>
        mirrors_popScope.bind fun _ => (mirrors_eat _).bind fun _ => mirrors_finishNode node

theorem mirrors_classDefinition (mirror : rules.Mirror front mirrored) (specs : DeclSpecs)
    (key : Token) (path : Option NamePath) (isFinal : Bool) :
    Mirrors front true true (classDefinition rules specs key path isFinal)
      (classDefinition mirrored (front.displacement.move specs) (front.displacement.move key)
        (front.displacement.move path) isFinal) := by
  have special : (front.displacement.move path).any NamePath.hasArguments =
      path.any NamePath.hasArguments := by cases path <;> rfl
  refine mirrors_baseClause.bind fun bases => (mirrors_checkNesting key.span).bind fun _ =>
    (mirrors_tagPlace path key).bind fun place => ?_
  rw [special]
  exact (mirrors_declare _ _ _).bind fun symbol =>
    (mirrors_addNode (.classType ⟨_, _, bases, symbol, _, isFinal⟩) key.span).bind fun node =>
      (mirrors_classBody mirror _ symbol node).bind fun _ => .pure rfl

/-- Specifiers with the words of a type behind them, the last of which may be a name. -/
theorem move_withTokens (specs : DeclSpecs) (words : List Token) (path : Option NamePath) :
    { front.displacement.move specs with
      hasType := true
      tokens := (front.displacement.move specs).tokens ++ front.displacement.move words ++
        ((front.displacement.move path).map NamePath.tokens).getD [] } =
      front.displacement.move { specs with
        hasType := true
        tokens := specs.tokens ++ words ++ (path.map NamePath.tokens).getD [] } := by
  cases path <;> simp [Displacement.move, Displaceable.displaced]

theorem mirrors_classSpecifier (mirror : rules.Mirror front mirrored) (specs : DeclSpecs)
    (allowBody : Bool) :
    Mirrors front start stop (classSpecifier rules specs allowBody)
      (classSpecifier mirrored (front.displacement.move specs) allowBody) := by
  have rest (key : Token) (path : Option NamePath) (isFinal : Bool) {specs further : DeclSpecs}
      (same : further = front.displacement.move specs) : Mirrors front true true
        (do
          if allowBody && ((← check (.punct .leftBrace)) || (← check (.punct .colon))) then
            classDefinition rules specs key path isFinal
          else
            forwardTag specs path (.classTag (classKeyOf key.kind)))
        (do
          if allowBody && ((← check (.punct .leftBrace)) || (← check (.punct .colon))) then
            classDefinition mirrored further (front.displacement.move key)
              (front.displacement.move path) isFinal
          else
            forwardTag further (front.displacement.move path)
              (.classTag (classKeyOf key.kind))) := by
    subst same
    exact (mirrors_check _).bind fun _ => (mirrors_check _).bind fun _ =>
      .ite (fun _ => mirrors_classDefinition mirror specs key path isFinal) fun _ =>
        mirrors_forwardTag specs path _
  refine mirrors_advance.behind fun key => mirrors_skipAttributes.bind fun _ =>
    mirrors_tagPath?.bind fun path => (mirrors_checkWord _).bind fun isFinal => ?_
  have named : _ = front.displacement.move _ := move_withTokens specs [key] path
  simp only [List.append_assoc, List.singleton_append] at named
  exact .ite (fun _ => mirrors_next.bind fun _ => rest key path isFinal named) fun _ =>
    rest key path isFinal named

/-! ## Enums -/

theorem mirrors_enumerator (parent : NodeId) (scope : SymbolId) :
    Mirrors front start stop (enumerator parent scope)
      (enumerator (front.displacement.move parent) scope) :=
  mirrors_expectIdentifier.behind fun name => mirrors_skipAttributes.bind fun _ =>
    (mirrors_eat _).bind fun hasValue => by
      have rest : Mirrors front true true
          (do
            let unit ← unit
            let symbol ← changeTable name.span fun table =>
              table.declare scope { name := name.lexeme, kind := .enumerator, unit := some unit }
            let node ← addNodeUnder parent (.enumerator ⟨name.lexeme, symbol, hasValue⟩) name.span
            finishNode node)
          (do
            let unit ← unit
            let symbol ← changeTable (front.displacement.move name).span fun table =>
              table.declare scope { name := name.lexeme, kind := .enumerator, unit := some unit }
            let node ← addNodeUnder (front.displacement.move parent)
              (.enumerator ⟨name.lexeme, symbol, hasValue⟩) (front.displacement.move name).span
            finishNode node) :=
        mirrors_unit.bind fun _ => (mirrors_changeTable name.span
          (fun _ => SymbolTable.declare_relabel _ _)
          fun _ _ _ declared => SymbolTable.keepsOrigins_declare declared).bind fun symbol =>
            (mirrors_addNodeUnder parent (.enumerator ⟨name.lexeme, symbol, hasValue⟩)
              name.span).bind fun node => mirrors_finishNode node
      exact .ite (fun _ => (mirrors_skipExpression _).bind fun _ => rest) fun _ => rest

theorem mirrors_enumeratorItem (parent : NodeId) (scope : SymbolId) (round : Unit) :
    MirrorsAs front start start (Step.map id id) (enumeratorItem parent scope round)
      (enumeratorItem (front.displacement.move parent) scope round) := by
  have comma : MirrorsAs front start start (Step.map id id)
      (do if ← eat (.punct .comma) then return .again () else return .done () :
        ParseM (Step Unit Unit))
      (do if ← eat (.punct .comma) then return .again () else return .done ()) :=
    (mirrors_eat _).bind fun _ => .ite (fun _ => .pure rfl) fun _ => .pure rfl
  refine mirrors_peek.bind fun token => .ite (fun _ => .pure rfl) fun _ =>
    (mirrors_enumerator parent scope).attempt.bind fun outcome => ?_
  cases outcome with
  | ok value => exact comma
  | error error =>
      exact (mirrors_report error).bind fun _ =>
        (mirrors_passAhead (front.displacement.upTo_move _)).bind fun _ => comma

theorem mirrors_enumerators (parent : NodeId) (scope : SymbolId) :
    Mirrors front start start (enumerators parent scope)
      (enumerators (front.displacement.move parent) scope) :=
  (MirrorsAs.iterate (mirrors_enumeratorItem parent scope) ()).bind fun _ =>
    (mirrors_expect _).bind fun _ => .pure rfl

theorem mirrors_underlyingType (mirror : rules.Mirror front mirrored) (allowed : Bool) :
    MirrorsAs front start start id (underlyingType rules allowed)
      (underlyingType mirrored allowed) := by
  have base (specs : DeclSpecs) : MirrorsAs front start start id
      (do return some { text := spell specs.tokens, symbol := specs.typeSymbol } :
        ParseM (Option TypeRef))
      (do
        let specs := front.displacement.move specs
        return some { text := spell specs.tokens, symbol := specs.typeSymbol }) :=
    .pure (congrArg (fun text => some (TypeRef.mk text specs.typeSymbol))
      (front.displacement.spell_move specs.tokens))
  exact .ite (fun _ => (mirrors_eat _).bind fun _ =>
    .ite (fun _ => (mirror.specifiers _).bind base) fun _ => .pure rfl) fun _ => .pure rfl

theorem mirrors_enumBody (symbol : SymbolId) (node : NodeId) :
    Mirrors front true true (enumBody symbol node)
      (enumBody symbol (front.displacement.move node)) := by
  refine (mirrors_expect _).attempt.bind fun outcome => ?_
  cases outcome with
  | error error => exact (mirrors_finishNode node).bind fun _ => .resume (.error error)
  | ok brace =>
      exact (mirrors_enumerators node symbol).attempt.bind fun closed =>
        (mirrors_finishNode node).bind fun _ => .resume closed

theorem mirrors_enumDefinition (specs : DeclSpecs) (key : Token) (path : Option NamePath)
    (isScoped : Bool) (underlying : Option TypeRef) :
    Mirrors front true true (enumDefinition specs key path isScoped underlying)
      (enumDefinition (front.displacement.move specs) (front.displacement.move key)
        (front.displacement.move path) isScoped underlying) :=
  (mirrors_checkNesting key.span).bind fun _ => (mirrors_tagPlace path key).bind fun _ =>
    (mirrors_declare _ _ _).bind fun symbol =>
      (mirrors_addNode (.enumType ⟨_, isScoped, underlying, symbol⟩) key.span).bind fun node =>
        (mirrors_enumBody symbol node).bind fun _ => .pure rfl

theorem mirrors_scopedWord : Mirrors front start start scopedWord scopedWord :=
  (mirrors_check _).bind fun _ => (mirrors_check _).bind fun _ =>
    .ite (fun _ => mirrors_advance.bind fun _ => .pure rfl) fun _ => .pure rfl

theorem mirrors_enumSpecifier (mirror : rules.Mirror front mirrored) (specs : DeclSpecs)
    (allowBody : Bool) :
    Mirrors front start stop (enumSpecifier rules specs allowBody)
      (enumSpecifier mirrored (front.displacement.move specs) allowBody) := by
  have rest (key : Token) (path : Option NamePath) (isScoped : Bool) {specs further : DeclSpecs}
      (same : further = front.displacement.move specs) : Mirrors front true true
        (do
          let underlying ← underlyingType rules allowBody
          if allowBody && (← check (.punct .leftBrace)) then
            enumDefinition specs key path isScoped underlying
          else
            forwardTag specs path (.enumTag isScoped))
        (do
          let underlying ← underlyingType mirrored allowBody
          if allowBody && (← check (.punct .leftBrace)) then
            enumDefinition further (front.displacement.move key) (front.displacement.move path)
              isScoped underlying
          else
            forwardTag further (front.displacement.move path) (.enumTag isScoped)) := by
    subst same
    exact (mirrors_underlyingType mirror allowBody).bind fun underlying =>
      (mirrors_check _).bind fun _ =>
        .ite (fun _ => mirrors_enumDefinition specs key path isScoped underlying) fun _ =>
          mirrors_forwardTag specs path _
  refine mirrors_advance.behind fun key => mirrors_scopedWord.bind fun scopedTokens =>
    mirrors_skipAttributes.bind fun _ => mirrors_tagPath?.bind fun path => ?_
  have words : (front.displacement.move scopedTokens).isEmpty = scopedTokens.isEmpty := by
    cases scopedTokens <;> rfl
  rw [words]
  exact rest key path _ (move_withTokens specs (key :: scopedTokens) path)

/-! ## Specifiers -/

theorem mirrors_markedSpecifier (specs : DeclSpecs) (word : Keyword) (specifier : Specifier) :
    Mirrors front start start (markedSpecifier specs word specifier)
      (markedSpecifier (front.displacement.move specs) word specifier) := by
  have rest : Mirrors front start start
      (do
        if word = .externKw then
          let _ ← eat (.literal .string)
        return { specs with specifiers := specs.specifiers.insert specifier })
      (do
        if word = .externKw then
          let _ ← eat (.literal .string)
        return { front.displacement.move specs with
          specifiers := (front.displacement.move specs).specifiers.insert specifier }) :=
    .ite (fun _ => (mirrors_eat _).bind fun _ => .pure rfl) fun _ => .pure rfl
  exact (mirrors_skip 1).bind fun _ => .ite (fun _ => (mirrors_skipGroupIf _).bind fun _ => rest)
    fun _ => rest

theorem mirrors_namedType (specs : DeclSpecs) :
    Mirrors front start start (namedType specs) (namedType (front.displacement.move specs)) :=
  mirrors_namePath.bind fun path => (mirrors_resolve? path).bind fun _ => .pure (by
    simp [Displacement.move, Displaceable.displaced])

theorem mirrors_deducedType (specs : DeclSpecs) :
    Mirrors front start start (deducedType specs)
      (deducedType (front.displacement.move specs)) :=
  mirrors_mark.bind fun mark => (mirrors_skip 1).bind fun _ => (mirrors_skipGroupIf _).bind fun _ =>
    (mirrors_since mark).bind fun _ => .pure (by
      simp [Displacement.move, Displaceable.displaced])

theorem mirrors_typeWord (specs : DeclSpecs) (isType : Bool) :
    Mirrors front start start (typeWord specs isType)
      (typeWord (front.displacement.move specs) isType) :=
  mirrors_advance.bind fun token => .pure (by
    simp [Displacement.move, Displaceable.displaced])

theorem mirrors_keywordSpecifier (mirror : rules.Mirror front mirrored) (mode : SpecifierMode)
    (specs : DeclSpecs) (word : Keyword) :
    MirrorsAs front start start (Step.map front.displacement.move front.displacement.move)
      (keywordSpecifier rules mode specs word)
      (keywordSpecifier mirrored mode (front.displacement.move specs) word) := by
  unfold keywordSpecifier
  split
  · exact (mirrors_markedSpecifier specs word _).goesOn
  · refine .ite (fun _ => (mirrors_typeWord specs false).goesOn) fun _ =>
      .ite (fun _ => (mirrors_typeWord specs true).goesOn) fun _ => ?_
    split
    · exact (mirrors_skip 1).bind fun _ => .pure rfl
    · exact (mirrors_skip 1).bind fun _ => (mirrors_namedType specs).goesOn
    · exact (mirrors_deducedType specs).goesOn
    iterate 3
      · exact .ite (fun _ => .pure rfl) fun _ => (mirrors_classSpecifier mirror specs _).goesOn
    · exact .ite (fun _ => .pure rfl) fun _ => (mirrors_enumSpecifier mirror specs _).goesOn
    · exact mirrors_skipAttributes.bind fun _ => .pure rfl
    · exact .pure rfl

theorem mirrors_nameSpecifier (mode : SpecifierMode) (specs : DeclSpecs) :
    MirrorsAs front start start (Step.map front.displacement.move front.displacement.move)
      (nameSpecifier mode specs) (nameSpecifier mode (front.displacement.move specs)) := by
  refine .ite (fun _ => .pure rfl) fun _ => mirrors_className?.bind fun className =>
    mirrors_unread.bind fun tokens => ?_
  rw [front.displacement.isConstructor_move]
  exact .ite (fun _ => .pure rfl) fun _ => (mirrors_namedType specs).goesOn

theorem mirrors_nextSpecifier (mirror : rules.Mirror front mirrored) (mode : SpecifierMode)
    (specs : DeclSpecs) :
    MirrorsAs front start start (Step.map front.displacement.move front.displacement.move)
      (nextSpecifier rules mode specs)
      (nextSpecifier mirrored mode (front.displacement.move specs)) := by
  have attributes : MirrorsAs front start start
      (Step.map front.displacement.move front.displacement.move)
      (do
        skipAttributes
        return .again specs : ParseM (Step DeclSpecs DeclSpecs))
      (do
        skipAttributes
        return .again (front.displacement.move specs)) :=
    mirrors_skipAttributes.bind fun _ => .pure rfl
  refine mirrors_peek.bind fun token => ?_
  simp only [Displacement.kind_move]
  split
  · exact mirrors_keywordSpecifier mirror mode specs _
  · exact (mirrors_checkAhead _ _).bind fun _ => .ite (fun _ => attributes) fun _ => .pure rfl
  · exact .ite (fun _ => attributes) fun _ => mirrors_nameSpecifier mode specs
  · exact mirrors_nameSpecifier mode specs
  · exact .pure rfl

theorem mirrors_specifiers (mirror : rules.Mirror front mirrored) (mode : SpecifierMode) :
    Mirrors front start start (specifiers rules mode) (specifiers mirrored mode) :=
  MirrorsAs.iterate (mirrors_nextSpecifier mirror mode) {}

end ParseM

end DeclTree
