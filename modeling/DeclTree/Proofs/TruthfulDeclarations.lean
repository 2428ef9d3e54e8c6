import DeclTree.Proofs.TruthfulReading

/-!
# Declarations made of their tokens

The rules of the grammar hand spans on to one another: that of a name to the declaration that
enters it, that of a parameter to the function that owns it, that of the first token of a
declaration to whatever is refused because of it.  They hand on tokens, too, and what is spelled
from them: those of a type, of a qualifier, of the name of an operator.  All of them are what was
read, and so every error of a parsed unit tells where it is, and every text of a node is spelled
from tokens of its source.
-/

namespace DeclTree

/-! ## What rules hand on -/

theorem NamePath.From.text {origin : Origin} {path : NamePath} (known : path.From origin) :
    origin.text path.text :=
  origin.spelled known.tokens

/-- Whether the type that specifiers spell, and the class or enum that they only name, come from
tokens that are read. -/
structure DeclSpecs.From (origin : Origin) (specs : DeclSpecs) : Prop where
  tokens : origin.ReadsAll specs.tokens
  forward : ∀ forward ∈ specs.forward, forward.path.From origin

/-- Whether the name of a declarator comes from tokens that are read. -/
structure DeclaratorId.From (origin : Origin) (id : DeclaratorId) : Prop where
  name : origin.text id.name
  qualifier : ∀ qualifier ∈ id.qualifier, origin.text qualifier.text
  span : origin.span id.span

/-- Whether a parameter comes from tokens that are read. -/
structure ParsedParameter.From (origin : Origin) (parameter : ParsedParameter) : Prop where
  name : ∀ name ∈ parameter.name, origin.text name
  type : origin.text parameter.type.text
  start : origin.span parameter.start

/-- Whether a declarator comes from tokens that are read. -/
structure Declarator.From (origin : Origin) (declarator : Declarator) : Prop where
  id : ∀ id ∈ declarator.id, id.From origin
  tokens : origin.ReadsAll declarator.tokens
  parameters : ∀ parameters ∈ declarator.parameters, ∀ parameter ∈ parameters,
    parameter.From origin

/-- Whether all types of a list are spelled from tokens that are read. -/
def Origin.Types (origin : Origin) (types : List TypeRef) : Prop :=
  ∀ type ∈ types, origin.text type.text

theorem Origin.types_nil {origin : Origin} : origin.Types [] :=
  fun _ member => absurd member List.not_mem_nil

theorem DeclSpecs.From.typeRef {origin : Origin} {specs : DeclSpecs} {declarator : Declarator}
    (known : specs.From origin) (declared : declarator.From origin) :
    origin.text (specs.typeRef declarator).text :=
  origin.spelled (known.tokens.append declared.tokens)

theorem Declarator.From.name {origin : Origin} {declarator : Declarator}
    (known : declarator.From origin) :
    ∀ name ∈ declarator.id.map DeclaratorId.name, origin.text name := by
  intro name member
  obtain ⟨id, named, rfl⟩ := Option.map_eq_some_iff.1 member
  exact (known.id id named).name

/-- The texts of a name for a type. -/
theorem DeclSpecs.From.texts {origin : Origin} {specs : DeclSpecs} {declarator : Declarator}
    {name : String} (known : specs.From origin) (declared : declarator.From origin)
    (named : origin.text name) :
    ∀ text ∈ [name, (specs.typeRef declarator).text], origin.text text :=
  List.forall_mem_cons.2 ⟨named, List.forall_mem_singleton.2 (known.typeRef declared)⟩

/-- The texts of a function or variable: its name, its qualifier and its type. -/
theorem DeclaratorId.From.texts {origin : Origin} {id : DeclaratorId} (known : id.From origin)
    {types : List TypeRef} (spelled : origin.Types types) :
    ∀ text ∈ id.name :: (id.qualifier.map Qualifier.text).toList ++ types.map TypeRef.text,
      origin.text text := by
  refine List.forall_mem_append.2
    ⟨List.forall_mem_cons.2 ⟨known.name, ?_⟩, List.forall_mem_map.2 spelled⟩
  intro text member
  obtain ⟨qualifier, given, rfl⟩ := Option.map_eq_some_iff.1 (Option.mem_toList.1 member)
  exact known.qualifier qualifier given

/-- The texts of a parameter: its name, if it has one, and its type. -/
theorem ParsedParameter.From.texts {origin : Origin} {parameter : ParsedParameter}
    (known : parameter.From origin) :
    ∀ text ∈ parameter.name.toList ++ [parameter.type.text], origin.text text :=
  List.forall_mem_append.2 ⟨by simpa using known.name, List.forall_mem_singleton.2 known.type⟩

/-- Whether rules take all that they hand on from the tokens. -/
structure Rules.Truthful (origin : Origin) (rules : Rules) : Prop where
  specifiers : ∀ mode, ParseM.Tells origin (rules.specifiers mode) (DeclSpecs.From origin)
  declarator : ∀ mode, ParseM.Tells origin (rules.declarator mode) (Declarator.From origin)
  declaration : ParseM.Truthful origin rules.declaration
  templateDeclaration : ∀ {start : Span} (exported : Bool), origin.span start →
    ParseM.Truthful origin (rules.templateDeclaration start exported)
  declarations : ∀ closing, ParseM.Truthful origin (rules.declarations closing)

namespace ParseM

variable {origin : Origin} {rules : Rules} {state : ParseState}

/-! ## Classes and enums -/

theorem tells_tagPath? :
    Tells origin tagPath? fun path => ∀ named ∈ path, named.From origin := by
  refine .behind (truthful_check _) fun _ => .behind (truthful_check _) fun _ =>
    .ite ?_ (.pure (by simp))
  refine tells_namePath.bind fun path known => .pure ?_
  rintro _ ⟨⟩
  exact known

theorem readsAll_pathTokens {path : Option NamePath} (known : ∀ named ∈ path, named.From origin) :
    origin.ReadsAll ((path.map NamePath.tokens).getD []) := by
  cases path with
  | none => exact Origin.readsAll_nil
  | some path => exact (known path rfl).tokens

theorem tells_baseClass {bases : List TypeRef} (known : origin.Types bases) :
    Tells origin (baseClass bases) (Step.Holds origin.Types origin.Types) := by
  refine .behind truthful_skipAttributes fun _ => .behind truthful_unread fun tokens =>
    .behind (truthful_skip _) fun _ => tells_namePath.bind fun path named =>
      .behind (truthful_resolve? path) fun symbol => .behind (truthful_eat _) fun _ =>
        .behind (truthful_eat _) fun _ => ?_
  have further : origin.Types (bases ++ [{ text := path.text, symbol := symbol }]) :=
    List.forall_mem_append.2 ⟨known, List.forall_mem_singleton.2 named.text⟩
  exact .ite (.pure further) (.pure further)

theorem tells_baseClause : Tells origin baseClause origin.Types :=
  .behind (truthful_eat _) fun _ =>
    .ite (.iterate origin.Types Origin.types_nil fun _ known => tells_baseClass known)
      (.pure Origin.types_nil)

theorem tells_forwardTag {specs : DeclSpecs} {path : Option NamePath} (kind : TagKind)
    (known : specs.From origin) (named : ∀ named ∈ path, named.From origin) :
    Tells origin (forwardTag specs path kind) (DeclSpecs.From origin) := by
  cases path with
  | none => exact tells_refuseName
  | some path =>
      refine .behind (truthful_resolve? path) fun symbol => .pure ⟨known.tokens, ?_⟩
      rintro _ ⟨⟩
      exact named path rfl

theorem tells_tagPlace {path : Option NamePath} {key : Token}
    (named : ∀ named ∈ path, named.From origin) (start : origin.token key) :
    Tells origin (tagPlace path key) fun found => origin.span found.2.2 := by
  cases path with
  | none => exact .pure (origin.place start)
  | some path =>
      exact .behind (truthful_pathScope (named path rfl)) fun _ => .pure (named path rfl).span

theorem truthful_classBody (truthful : rules.Truthful origin) (name : String) (symbol : SymbolId)
    (node : NodeId) : Truthful origin (classBody rules name symbol node) := by
  refine Tells.bind (tells_expect _).truthful.attempt fun opened caught => ?_
  cases opened with
  | error error => exact .behind (truthful_finishNode node) fun _ => Tells.resume caught
  | ok opener =>
      refine .behind (truthful_pushScope _) fun _ =>
        .behind (truthful.declarations true) fun _ => ?_
      simp

theorem tells_classDefinition (truthful : rules.Truthful origin) {specs : DeclSpecs} {key : Token}
    {path : Option NamePath} (isFinal : Bool) (known : specs.From origin)
    (start : origin.token key) (named : ∀ named ∈ path, named.From origin) :
    Tells origin (classDefinition rules specs key path isFinal) (DeclSpecs.From origin) := by
  refine tells_baseClause.bind fun bases spelled =>
    .behind (truthful_checkNesting (origin.place start)) fun _ =>
      (tells_tagPlace named start).bind ?_
  rintro ⟨scope, name, span⟩ there
  exact .behind (truthful_declare _ scope there) fun symbol =>
    .behind (truthful_addNode (by exact List.forall_mem_map.2 spelled) _) fun node =>
      .behind (truthful_classBody truthful name symbol node) fun _ =>
        .pure ⟨known.tokens, known.forward⟩

theorem tells_classSpecifier (truthful : rules.Truthful origin) {specs : DeclSpecs}
    (known : specs.From origin) (allowBody : Bool) (here : state.From origin)
    (more : state.cursor.peek.kind ≠ .eof) :
    TellsAt origin state (classSpecifier rules specs allowBody) (DeclSpecs.From origin) := by
  refine (reads_advance here more).bind fun key read => .behind truthful_skipAttributes fun _ =>
    tells_tagPath?.bind fun path named => .behind (truthful_checkWord _) fun isFinal => ?_
  have rest (specs : DeclSpecs) (known : specs.From origin) : Tells origin (do
      if allowBody && ((← check (.punct .leftBrace)) || (← check (.punct .colon))) then
        classDefinition rules specs key path isFinal
      else
        forwardTag specs path (.classTag (classKeyOf key.kind))) (DeclSpecs.From origin) :=
    .behind (truthful_check _) fun _ => .behind (truthful_check _) fun _ =>
      .ite (tells_classDefinition truthful isFinal known read.1 named)
        (tells_forwardTag _ known named)
  have further : origin.ReadsAll (specs.tokens ++ key :: (path.map NamePath.tokens).getD []) :=
    known.tokens.append (.cons read (readsAll_pathTokens named))
  split
  · exact .behind (truthful_skip 1) fun _ => rest _ ⟨further, known.forward⟩
  · exact rest _ ⟨further, known.forward⟩

@[simp] theorem truthful_enumerator (parent : NodeId) (scope : SymbolId) :
    Truthful origin (enumerator parent scope) := by
  refine tells_expectIdentifier.bind fun name known => .behind truthful_skipAttributes fun _ =>
    .behind (truthful_eat _) fun hasValue => ?_
  have entry : Truthful origin (do
      let unit ← unit
      let symbol ← changeTable name.span fun table =>
        table.declare scope { name := name.lexeme, kind := .enumerator, unit := some unit }
      let node ← addNodeUnder parent (.enumerator ⟨name.lexeme, symbol, hasValue⟩) name.span
      finishNode node) :=
    .behind truthful_unit fun unit =>
      .behind (truthful_changeTable (origin.place known.1) _) fun symbol =>
        .behind (truthful_addNodeUnder _ (by simp [NodeKind.spellings]) _) fun node =>
          truthful_finishNode node
  exact .ite (.behind (truthful_skipExpression _) fun _ => entry) entry

theorem truthful_enumeratorItem (parent : NodeId) (scope : SymbolId) :
    Truthful origin (enumeratorItem parent scope ()) := by
  have comma : Truthful origin (do
      if ← eat (.punct .comma) then return Step.again () else return Step.done () :
        ParseM (Step Unit Unit)) := by
    simp
  refine .behind truthful_peek fun token => .ite (.pure _) ?_
  refine Tells.bind (truthful_enumerator parent scope).attempt fun outcome caught => ?_
  cases outcome with
  | ok value => exact comma
  | error error =>
      exact .behind (truthful_report caught) fun _ => tells_unread.bind fun tokens known =>
        .behind (truthful_pass (Stretch.opensIn_upTo _ tokens) known) fun _ => comma

@[simp] theorem truthful_enumerators (parent : NodeId) (scope : SymbolId) :
    Truthful origin (enumerators parent scope) := by
  refine .behind (.iterate (fun _ => truthful_enumeratorItem parent scope) ()) fun _ => ?_
  simp

theorem tells_underlyingType (truthful : rules.Truthful origin) (allowed : Bool) :
    Tells origin (underlyingType rules allowed) fun type => origin.Types type.toList := by
  refine .ite (.behind (truthful_eat _) fun _ => .ite ?_ (.pure Origin.types_nil))
    (.pure Origin.types_nil)
  exact (truthful.specifiers .typeOnly).bind fun base known =>
    .pure (List.forall_mem_singleton.2 (origin.spelled known.tokens))

@[simp] theorem truthful_enumBody (symbol : SymbolId) (node : NodeId) :
    Truthful origin (enumBody symbol node) := by
  refine Tells.bind (tells_expect _).truthful.attempt fun opened caught => ?_
  cases opened with
  | error error => exact .behind (truthful_finishNode node) fun _ => Tells.resume caught
  | ok opener =>
      exact Tells.bind (truthful_enumerators node symbol).attempt fun closed caught =>
        .behind (truthful_finishNode node) fun _ => Tells.resume caught

theorem tells_enumDefinition {specs : DeclSpecs} {key : Token} {path : Option NamePath}
    (isScoped : Bool) {underlying : Option TypeRef} (known : specs.From origin)
    (start : origin.token key) (named : ∀ named ∈ path, named.From origin)
    (spelled : origin.Types underlying.toList) :
    Tells origin (enumDefinition specs key path isScoped underlying) (DeclSpecs.From origin) := by
  refine .behind (truthful_checkNesting (origin.place start)) fun _ =>
    (tells_tagPlace named start).bind ?_
  rintro ⟨scope, name, span⟩ there
  exact .behind (truthful_declare _ scope there) fun symbol =>
    .behind (truthful_addNode (by exact List.forall_mem_map.2 spelled) _) fun node =>
      .behind (truthful_enumBody symbol node) fun _ => .pure ⟨known.tokens, known.forward⟩

theorem tells_scopedWord : Tells origin scopedWord origin.ReadsAll := by
  intro state here
  refine .sees rfl (.sees rfl ?_)
  split
  · rename_i word
    have more : state.cursor.peek.kind ≠ .eof := by
      intro ended
      simp [ended] at word
    exact (reads_advance here more).bind fun token read => .pure (Origin.readsAll_singleton read)
  · exact Tells.pure Origin.readsAll_nil state here

theorem tells_enumSpecifier (truthful : rules.Truthful origin) {specs : DeclSpecs}
    (known : specs.From origin) (allowBody : Bool) (here : state.From origin)
    (more : state.cursor.peek.kind ≠ .eof) :
    TellsAt origin state (enumSpecifier rules specs allowBody) (DeclSpecs.From origin) := by
  refine (reads_advance here more).bind fun key read => tells_scopedWord.bind fun words marked =>
    .behind truthful_skipAttributes fun _ => tells_tagPath?.bind fun path named =>
      (tells_underlyingType truthful allowBody).bind fun underlying spelled =>
        .behind (truthful_check _) fun _ => ?_
  have further : origin.ReadsAll
      (specs.tokens ++ key :: words ++ (path.map NamePath.tokens).getD []) :=
    (known.tokens.append (.cons read marked)).append (readsAll_pathTokens named)
  have extended : DeclSpecs.From origin { specs with
      hasType := true
      tokens := specs.tokens ++ key :: words ++ (path.map NamePath.tokens).getD [] } :=
    ⟨further, known.forward⟩
  exact .ite (tells_enumDefinition _ extended read.1 named spelled)
    (tells_forwardTag _ extended named)

/-! ## Specifiers -/

theorem tells_markedSpecifier {specs : DeclSpecs} (word : Keyword) (specifier : Specifier)
    (known : specs.From origin) :
    Tells origin (markedSpecifier specs word specifier) (DeclSpecs.From origin) := by
  have language : Tells origin (do
      if word = .externKw then
        let _ ← eat (.literal .string)
      return { specs with specifiers := specs.specifiers.insert specifier } :
        ParseM DeclSpecs) (DeclSpecs.From origin) :=
    .ite (.behind (truthful_eat _) fun _ => .pure ⟨known.tokens, known.forward⟩)
      (.pure ⟨known.tokens, known.forward⟩)
  exact .behind (truthful_skip 1) fun _ =>
    .ite (.behind (truthful_skipGroupIf _) fun _ => language) language

theorem tells_namedType {specs : DeclSpecs} (known : specs.From origin) :
    Tells origin (namedType specs) (DeclSpecs.From origin) :=
  tells_namePath.bind fun path named => .behind (truthful_resolve? path) fun _ =>
    .pure ⟨known.tokens.append named.tokens, known.forward⟩

theorem tells_deducedType {specs : DeclSpecs} (known : specs.From origin) :
    Tells origin (deducedType specs) (DeclSpecs.From origin) :=
  .behind truthful_mark fun start => .behind (truthful_skip 1) fun _ =>
    .behind (truthful_skipGroupIf _) fun _ => (tells_since start).bind fun _ read =>
      .pure ⟨known.tokens.append read, known.forward⟩

theorem tells_typeWord {specs : DeclSpecs} (isType : Bool) (known : specs.From origin)
    (here : state.From origin) (more : state.cursor.peek.kind ≠ .eof) :
    TellsAt origin state (typeWord specs isType) (DeclSpecs.From origin) :=
  (reads_advance here more).bind fun _ read =>
    .pure ⟨known.tokens.append (Origin.readsAll_singleton read), known.forward⟩

/-- What holds of specifiers that may go on. -/
abbrev SpecsHold (origin : Origin) : Step DeclSpecs DeclSpecs → Prop :=
  Step.Holds (DeclSpecs.From origin) (DeclSpecs.From origin)

/-- Specifiers that go on behind one more of them. -/
theorem TellsAt.again {parse : ParseM DeclSpecs}
    (tells : TellsAt origin state parse (DeclSpecs.From origin)) :
    TellsAt origin state (do return .again (← parse)) (SpecsHold origin) :=
  tells.bind fun _ known => .pure known

theorem tells_attributes {specs : DeclSpecs} (known : specs.From origin) :
    Tells origin (do
      skipAttributes
      return .again specs : ParseM (Step DeclSpecs DeclSpecs)) (SpecsHold origin) :=
  .behind truthful_skipAttributes fun _ => .pure known

theorem tells_keywordSpecifier (truthful : rules.Truthful origin) (mode : SpecifierMode)
    {specs : DeclSpecs} (word : Keyword) (known : specs.From origin) (here : state.From origin)
    (more : state.cursor.peek.kind ≠ .eof) :
    TellsAt origin state (keywordSpecifier rules mode specs word) (SpecsHold origin) := by
  have done : TellsAt origin state (return .done specs) (SpecsHold origin) := .pure known here
  unfold keywordSpecifier
  split
  · exact (tells_markedSpecifier word _ known state here).again
  · refine .ite (tells_typeWord false known here more).again
      (.ite (tells_typeWord true known here more).again ?_)
    split
    · exact .behind (truthful_skip 1) here fun _ => .pure ⟨known.tokens, known.forward⟩
    · exact .behind (truthful_skip 1) here fun _ next there =>
        (tells_namedType known next there).again
    · exact (tells_deducedType known state here).again
    · exact .ite done (tells_classSpecifier truthful known _ here more).again
    · exact .ite done (tells_classSpecifier truthful known _ here more).again
    · exact .ite done (tells_classSpecifier truthful known _ here more).again
    · exact .ite done (tells_enumSpecifier truthful known _ here more).again
    · exact tells_attributes known state here
    · exact done

theorem tells_nameSpecifier (mode : SpecifierMode) {specs : DeclSpecs}
    (known : specs.From origin) :
    Tells origin (nameSpecifier mode specs) (SpecsHold origin) :=
  .ite (.pure known) (.behind truthful_className? fun _ =>
    .behind truthful_unread fun _ => .ite (.pure known)
      fun state here => (tells_namedType known state here).again)

theorem tells_nextSpecifier (truthful : rules.Truthful origin) (mode : SpecifierMode)
    {specs : DeclSpecs} (known : specs.From origin) :
    Tells origin (nextSpecifier rules mode specs) (SpecsHold origin) := by
  intro state here
  refine .sees rfl ?_
  split
  · rename_i word ahead
    exact tells_keywordSpecifier truthful mode word known here (by simp [ahead])
  · exact .behind (truthful_checkAhead _ _) here fun _ =>
      .ite (tells_attributes known) (.pure known)
  · exact .ite (tells_attributes known state here) (tells_nameSpecifier mode known state here)
  · exact tells_nameSpecifier mode known state here
  · exact .pure known here

theorem tells_specifiers (truthful : rules.Truthful origin) (mode : SpecifierMode) :
    Tells origin (specifiers rules mode) (DeclSpecs.From origin) :=
  .iterate (DeclSpecs.From origin) ⟨Origin.readsAll_nil, by simp⟩
    fun _ known => tells_nextSpecifier truthful mode known

/-! ## Declarators -/

/-- What holds of tokens that may go on. -/
abbrev TokensHold (origin : Origin) : Step (List Token) (List Token) → Prop :=
  Step.Holds origin.ReadsAll origin.ReadsAll

theorem tells_memberPointer {tokens : List Token} (known : origin.ReadsAll tokens) :
    Tells origin (memberPointer tokens) (TokensHold origin) := by
  refine .behind truthful_unread fun unread => ?_
  split
  · exact .behind truthful_mark fun start => .behind (truthful_skip _) fun _ =>
      (tells_since start).bind fun _ read => .pure (known.append read)
  · exact .pure known

theorem tells_pointerOperator {tokens : List Token} (known : origin.ReadsAll tokens) :
    Tells origin (pointerOperator tokens) (TokensHold origin) := by
  intro state here
  have done : TellsAt origin state (return .done tokens) (TokensHold origin) := .pure known here
  have pointer (more : state.cursor.peek.kind ≠ .eof) :
      TellsAt origin state (do return .again (tokens ++ [← advance])) (TokensHold origin) :=
    (reads_advance here more).bind fun _ read =>
      .pure (known.append (Origin.readsAll_singleton read))
  refine .sees rfl ?_
  split
  · rename_i mark ahead
    refine .ite (pointer (by simp [ahead])) (.ite ?_ (.ite ?_ done))
    · exact .behind (truthful_checkAhead _ _) here fun _ =>
        .ite (.behind truthful_skipAttributes fun _ => .pure known) (.pure known)
    · exact tells_memberPointer known state here
  · rename_i word ahead
    exact .ite (pointer (by simp [ahead])) done
  · exact .ite (.behind (truthful_skip 1) here fun _ => .pure known)
      (tells_memberPointer known state here)
  · exact done

theorem tells_pointerOperators : Tells origin pointerOperators origin.ReadsAll :=
  .iterate origin.ReadsAll Origin.readsAll_nil fun _ known => tells_pointerOperator known

@[simp] theorem truthful_skipConversion : Truthful origin skipConversion := by
  simp [skipConversion]

theorem tells_operatorName : Tells origin operatorName origin.text := by
  refine .behind truthful_mark fun start => (tells_expect _).bind fun word known =>
    .behind truthful_peek fun token => ?_
  have spelled : Tells origin (do return spell (← since start)) origin.text :=
    (tells_since start).bind fun _ read => .pure (origin.spelled read)
  have array : Tells origin (do
      skip 1
      if (← check (.punct .leftBracket)) && (← checkAhead 1 (.punct .rightBracket)) then skip 2
      return spell (← since start)) origin.text :=
    .behind (truthful_skip 1) fun _ => .behind (truthful_check _) fun _ =>
      .behind (truthful_checkAhead _ _) fun _ => .ite (.behind (truthful_skip 2) fun _ => spelled)
        spelled
  have refused : Tells origin (do
      refuse .missingOperator word.span
      return spell (← since start)) origin.text :=
    .behind (Tells.refuse (origin.place known.1)) fun _ => spelled
  split
  · exact .behind (truthful_skip 1) fun _ => .behind (truthful_expect _) fun _ => spelled
  · exact .behind (truthful_skip 1) fun _ => .behind (truthful_expect _) fun _ => spelled
  · exact array
  · exact array
  · exact .behind (truthful_skip 1) fun _ => .behind (truthful_eat _) fun _ => spelled
  · exact refused
  · exact refused
  · exact refused
  · exact .ite (.behind (truthful_skip 1) fun _ => spelled)
      (.behind truthful_skipConversion fun _ => spelled)
  · exact .behind truthful_skipConversion fun _ => spelled

@[simp] theorem truthful_segmentQualifies : Truthful origin segmentQualifies := by
  simp [segmentQualifies]

theorem from_declaredName (isGlobal : Bool) {qualifier : QualifierSoFar} {name : String}
    {span : Span} (hasArguments : Bool) (written : origin.text qualifier.text)
    (named : origin.text name) (place : origin.span span) :
    (declaredName isGlobal qualifier name span hasArguments).From origin := by
  refine ⟨named, fun given member => ?_, place⟩
  simp only [declaredName, Option.mem_def, Option.ite_none_right_eq_some, Option.some.injEq]
    at member
  exact member.2 ▸ written

/-- The name of a destructor covers its mark and the name of its class. -/
theorem tells_declaredSegment (start : Nat) (isGlobal : Bool) {qualifier : QualifierSoFar}
    (written : origin.text qualifier.text) :
    Tells origin (declaredSegment start isGlobal qualifier)
      (Step.Holds (fun qualifier => origin.text qualifier.text) (DeclaratorId.From origin)) := by
  refine tells_peek.bind fun token known => ?_
  split
  · rename_i mark
    refine .behind (truthful_skip 1) fun _ => tells_expectIdentifier.bind
      fun className behind => .behind (truthful_check _) fun _ => ?_
    have named := from_declaredName isGlobal false written
      (origin.destructor known mark behind.1 behind.2)
      (origin.merge (origin.place known) (origin.place behind.1))
    exact .ite (.behind truthful_skipTemplateArguments fun _ => .pure named) (.pure named)
  · exact tells_operatorName.bind fun name named =>
      .pure (from_declaredName isGlobal false written named (origin.place known))
  · rename_i identifier
    have read : origin.Reads token := ⟨known, by simp [identifier]⟩
    refine .behind (truthful_skip 1) fun _ => .behind truthful_skipClosedArguments
      fun _ => .behind truthful_segmentQualifies fun _ => .ite ?_
        (.pure (from_declaredName isGlobal _ written (origin.lexeme read) (origin.place known)))
    exact (tells_since start).bind fun _ lead => .behind (truthful_skip 1) fun _ =>
      .behind (truthful_eat _) fun _ => .pure (origin.spelled lead)
  · exact tells_refuseName

theorem tells_declaratorId : Tells origin declaratorId (DeclaratorId.From origin) :=
  .behind truthful_mark fun start => .behind (truthful_eat _) fun isGlobal =>
    (tells_since start).bind fun _ lead =>
      .iterate (fun qualifier => origin.text qualifier.text) (origin.spelled lead)
        fun _ written => tells_declaredSegment start isGlobal written

@[simp] theorem truthful_parametersAhead : Truthful origin parametersAhead := by
  refine .behind (truthful_ahead 1) fun token => ?_
  split
  · simp
  · simp
  · simp
  · simp
  · split <;> simp
  · refine .behind truthful_table fun table => .behind truthful_lookupScope fun scope => ?_
    split
    · split <;> simp
    · simp
  · simp

theorem tells_typedParameter (truthful : rules.Truthful origin) {start : Span}
    (place : origin.span start) :
    Tells origin (typedParameter rules start) (ParsedParameter.From origin) := by
  refine .behind truthful_skipAttributes fun _ =>
    (tells_specifiers truthful .parameter).bind fun specs known => ?_
  have rest : Tells origin (do
      let declarator ← rules.declarator .parameter
      let hasDefault ← eat (.punct .equal)
      if hasDefault then skipExpression [.punct .comma, .punct .rightParen]
      return {
        name := declarator.id.map DeclaratorId.name
        type := specs.typeRef declarator
        hasDefault := hasDefault
        isVariadic := declarator.isPack
        start := start
        last := ← previousSpan : ParsedParameter }) (ParsedParameter.From origin) := by
    refine (truthful.declarator _).bind fun declarator declared =>
      .behind (truthful_eat _) fun _ => .ite ?_ ?_
    · exact .behind (truthful_skipExpression _) fun _ => .behind truthful_previousSpan fun _ =>
        .pure ⟨declared.name, known.typeRef declared, place⟩
    · exact .behind truthful_previousSpan fun _ =>
        .pure ⟨declared.name, known.typeRef declared, place⟩
  exact .ite (tells_peek.bind fun found there =>
    Tells.behind (.refuse (origin.place there)) fun _ => rest) rest

/-- Whether parameters come from tokens that are read. -/
def Placed (origin : Origin) (parameters : List ParsedParameter) : Prop :=
  ∀ parameter ∈ parameters, parameter.From origin

theorem Placed.append {parameters : List ParsedParameter} {parameter : ParsedParameter}
    (placed : Placed origin parameters) (known : parameter.From origin) :
    Placed origin (parameters ++ [parameter]) :=
  List.forall_mem_append.2 ⟨placed, List.forall_mem_singleton.2 known⟩

theorem placed_nil : Placed origin [] :=
  fun _ member => absurd member List.not_mem_nil

theorem from_variadicParameter {dots : Token} (known : origin.token dots)
    (kind : dots.kind = .punct .ellipsis) : (variadicParameter dots.span).From origin :=
  ⟨by simp [variadicParameter], origin.dots known kind, origin.place known⟩

theorem tells_nextParameter (truthful : rules.Truthful origin)
    {parameters : List ParsedParameter} (placed : Placed origin parameters) :
    Tells origin (nextParameter rules parameters)
      (Step.Holds (Placed origin) (Placed origin)) := by
  intro state here
  have ahead : origin.token state.cursor.peek := here.cursor.ahead 0
  refine .sees rfl ((tellsAt_eat here _).bind fun eaten dots => ?_)
  split
  · rename_i found
    exact .pure (placed.append (from_variadicParameter ahead (dots found)))
  · refine (tells_typedParameter truthful (origin.place ahead)).bind fun parameter known => ?_
    have further := placed.append known
    intro state here
    refine .sees rfl ?_
    split
    · rename_i found
      refine (tellsAt_advance here).bind fun dots same => .pure (further.append ?_)
      exact same ▸ from_variadicParameter (here.cursor.ahead 0) (by simpa using found)
    · exact .behind (truthful_eat _) here fun _ => .ite (.pure further) (.pure further)

theorem tells_parameterList (truthful : rules.Truthful origin) :
    Tells origin (parameterList rules) (Placed origin) := by
  have items : Tells origin (do
      if ← eat (.punct .rightParen) then
        return []
      else
        let parameters ← iterate (nextParameter rules) []
        let _ ← expect (.punct .rightParen)
        return parameters) (Placed origin) := by
    refine .behind (truthful_eat _) fun _ => .ite (.pure placed_nil) ?_
    refine Tells.bind (.iterate (Placed origin) placed_nil
      fun _ placed => tells_nextParameter truthful placed) fun parameters placed => ?_
    exact .behind (truthful_expect _) fun _ => .pure placed
  exact .behind (truthful_expect _) fun _ => .behind (truthful_check _) fun _ =>
    .behind (truthful_checkAhead _ _) fun _ =>
      .ite (.behind (truthful_skip 1) fun _ => items) items

theorem tells_typeGroup {declarator : Declarator} (known : declarator.From origin) :
    Tells origin (typeGroup declarator) (Declarator.From origin) :=
  .behind truthful_mark fun start => .behind truthful_skipGroup fun _ =>
    (tells_since start).bind fun _ read =>
      .pure ⟨known.id, known.tokens.append read, known.parameters⟩

theorem tells_declaratorSuffix (truthful : rules.Truthful origin) (mode : DeclaratorMode)
    {declarator : Declarator} (known : declarator.From origin) :
    Tells origin (declaratorSuffix rules mode declarator)
      (Step.Holds (Declarator.From origin) (Declarator.From origin)) := by
  have group : Tells origin (do return .again (← typeGroup declarator))
      (Step.Holds (Declarator.From origin) (Declarator.From origin)) :=
    (tells_typeGroup known).bind fun _ still => .pure still
  refine .behind truthful_peek fun token => ?_
  split
  · refine .ite (.pure known) (.ite (.behind truthful_parametersAhead fun _ => .ite ?_ ?_)
      group)
    · refine (tells_parameterList truthful).bind fun parameters placed =>
        .pure ⟨known.id, known.tokens, ?_⟩
      rintro _ ⟨⟩
      exact placed
    · exact .behind truthful_skipGroup fun _ => .pure ⟨known.id, known.tokens, known.parameters⟩
  · refine .behind (truthful_checkAhead _ _) fun _ => .ite ?_ (.ite (.pure known) group)
    exact .behind truthful_skipAttributes fun _ => .pure known
  · exact .pure known

/-- Where a nested declarator is seen, its parenthesis is. -/
theorem looks_nestedAhead (state : ParseState) :
    ∃ nested, nestedAhead state = .ok nested state ∧
      (nested = true → state.cursor.peek.kind = .punct .leftParen) := by
  have check : check (.punct .leftParen) state = .ok _ state := rfl
  have ahead : ahead 1 state = .ok _ state := rfl
  unfold nestedAhead
  rw [bind_of_ok check]
  split
  · rename_i opens
    rw [bind_of_ok ahead]
    have found := eq_of_beq opens
    cases (state.cursor.ahead 1).kind <;> exact ⟨_, rfl, fun _ => found⟩
  · exact ⟨false, rfl, by simp⟩

theorem tells_nestedDeclarator (truthful : rules.Truthful origin) (mode : DeclaratorMode)
    {declarator : Declarator} (known : origin.ReadsAll declarator.tokens)
    (here : state.From origin) (more : state.cursor.peek.kind ≠ .eof) :
    TellsAt origin state (nestedDeclarator rules mode declarator) (Declarator.From origin) :=
  (reads_advance here more).bind fun _ opener => (truthful.declarator mode).bind fun _ inner =>
    (tells_expect _).bind fun closer closes => .behind truthful_mark fun start =>
      tells_unread.bind fun tokens unread =>
        .behind (truthful_pass (Stretch.opensIn_suffixes tokens) unread) fun _ =>
          (tells_since start).bind fun _ suffixes => .pure
            { id := inner.id
              tokens := (known.append (.cons opener inner.tokens)).append
                (.cons ⟨closes.1, by simp [closes.2]⟩ suffixes)
              parameters := inner.parameters }

theorem tells_declaratorName (mode : DeclaratorMode) :
    Tells origin (declaratorName mode) fun id => ∀ named ∈ id, named.From origin := by
  have named : Tells origin (do return some (← declaratorId))
      fun id => ∀ named ∈ id, named.From origin := by
    refine tells_declaratorId.bind fun id known => .pure ?_
    rintro _ ⟨⟩
    exact known
  unfold declaratorName
  split
  · exact named
  · refine .behind truthful_peek fun token => ?_
    split
    · exact named
    · exact named
    · exact named
    · exact .pure (by simp)
  · exact .pure (by simp)

theorem tells_declarator (truthful : rules.Truthful origin) (mode : DeclaratorMode) :
    Tells origin (declarator rules mode) (Declarator.From origin) := by
  refine tells_pointerOperators.bind fun tokens pointers =>
    .behind (truthful_eat _) fun isPack => ?_
  intro state here
  obtain ⟨nested, looks, opens⟩ := looks_nestedAhead state
  refine .sees looks ?_
  split
  · rename_i found
    exact tells_nestedDeclarator truthful mode pointers here (by simp [opens found])
  · refine (tells_declaratorName mode state here).bind fun _ named =>
      .behind truthful_skipAttributes fun _ =>
        .iterate (Declarator.From origin) ⟨named, pointers, by simp⟩
          fun _ known => tells_declaratorSuffix truthful mode known

end ParseM

end DeclTree
