import DeclTree.Proofs.BalancedDeclarators
import DeclTree.Proofs.IgnoredNames

/-!
# Specifiers in front of a sequel

Specifiers end in front of the end of the text, apart from those that end with the body of a class
or enum.  Its node is a trace of that: it covers the last token.
-/

namespace DeclTree

/-- Whether rules do in front of a sequel what others do without one.  The declarations of a scope
and the specifiers never come to the end of the text, and a declaration ends with its last token. -/
structure Rules.Ignore (sequel : Sequel) (rules longer : Rules) : Prop where
  specifiers : ∀ old mode,
    ParseM.Ignores sequel old (fun _ => .never) (rules.specifiers mode) (longer.specifiers mode)
  declarator : ∀ old mode,
    ParseM.Ignores sequel old (fun _ => .anything) (rules.declarator mode) (longer.declarator mode)
  declaration : ∀ old,
    ParseM.Ignores sequel old (fun _ => .same) rules.declaration longer.declaration
  templateDeclaration : ∀ old start exported, ParseM.Ignores sequel old (fun _ => .same)
    (rules.templateDeclaration start exported) (longer.templateDeclaration start exported)
  declarations : ∀ old,
    ParseM.Ignores sequel old (fun _ => .never) (rules.declarations true) (longer.declarations true)

namespace ParseM

variable {α β : Type} {sequel : Sequel} {old : Nat} {state : ParseState} {atEnd : α → AtEnd}
  {rules longer : Rules}

/-! ## Classes -/

theorem ignores_tagPath? : Ignores sequel old (fun _ => .never) tagPath? tagPath? :=
  fun _ => .check (.check (.ite (fun _ => (ignores_namePath.inside fun _ => ignores_pure _) _)
    fun _ => ignores_pure _ _))

/-- The tokens that meet a condition are passed over.  They are the same in front of the sequel
unless they are all that is left. -/
theorem ignoresFrom_skipWhile {ending : AtEnd} {condition : Token → Bool}
    (ends : ending = .anything ∨
      ∀ token : Token, token.kind.endsDeclaration = true → condition token = false) :
    IgnoresFrom sequel old (fun _ => ending)
      (skip (state.cursor.unread.takeWhile condition).length)
      (skip ((state.cursor.unread ++ sequel.tokens).takeWhile condition).length) state := by
  have passed (count : Nat) : pass ⟨count, none⟩ = skip count := pass_of_closed rfl
  rw [← passed, ← passed]
  have prefixed := List.takeWhile_prefix condition (l := state.cursor.unread)
  refine ignoresFrom_pass prefixed.length_le fun approaches more _ => ?_
  rw [List.takeWhile_append]
  by_cases all : (state.cursor.unread.takeWhile condition).length = state.cursor.unread.length
  · refine .inr ⟨all, ends.resolve_right fun inner => ?_⟩
    obtain ⟨front, last, unread, closes⟩ := approaches.ended.exists_last more
    have whole := prefixed.eq_of_length all
    have member : last ∈ state.cursor.unread.takeWhile condition := by
      rw [whole, unread]
      simp
    have meets := List.all_eq_true.1 List.all_takeWhile last member
    rw [inner last closes] at meets
    cases meets
  · rw [if_neg all]
    refine .inl ⟨rfl, .inl fun spent => all ?_⟩
    exact Nat.le_antisymm prefixed.length_le (List.drop_eq_nil_iff.1 spent)

theorem endsDeclaration_of_baseWord {token : Token} (ends : token.kind.endsDeclaration = true) :
    isBaseWord token.kind = false := by
  rcases TokenKind.endsDeclaration_cases ends with kind | kind <;> rw [kind] <;> rfl

theorem ignores_baseClass (bases : List TypeRef) :
    Ignores sequel old (fun _ => .never) (baseClass bases) (baseClass bases) := by
  refine ignores_skipAttributes.inside fun _ state => .unread ?_
  refine (ignoresFrom_skipWhile (.inr fun _ => endsDeclaration_of_baseWord)).inside fun _ => ?_
  exact ignores_namePath.inside fun path => (disregards_resolve? path).ignores.inside fun _ =>
    (ignores_eatInside rfl).inside fun _ => (ignores_eatInside rfl).inside fun _ =>
      .ite (ignores_pure _) (ignores_pure _)

theorem ignores_baseClause :
    Ignores sequel old (fun _ => .never) baseClause baseClause :=
  (ignores_eatInside rfl).inside fun _ => .ite (.iterate ignores_baseClass []) (ignores_pure _)

theorem disregards_tagPlace (path : Option NamePath) (key : Token) :
    Disregards sequel old (tagPlace path key) (tagPlace path key) := by
  unfold tagPlace
  split
  · exact (disregards_pathScope _).bind fun _ => .pure _
  · exact .pure _

theorem ignores_forwardTag (specs : DeclSpecs) (path : Option NamePath) (kind : TagKind) :
    Ignores sequel old (fun _ => .never) (forwardTag specs path kind)
      (forwardTag specs path kind) := by
  unfold forwardTag
  split
  · exact ignores_refuseName
  · exact ((disregards_resolve? _).bind fun _ => .pure _).ignores

/-! ## Bodies -/

/-- Whether the node of a class or enum is open, and not among the first ones. -/
structure OpenTag (old : Nat) (node : NodeId) (state : ParseState) : Prop where
  new : old ≤ node.index
  begun : ∃ range, state.tree.bounds? node = some (true, range) ∧ range.sealed = false

namespace OpenTag

variable {node : NodeId} {next : ParseState}

theorem there (opened : OpenTag old node state) : node.index + 1 ≤ state.tree.size := by
  obtain ⟨range, found, _⟩ := opened.begun
  unfold Tree.bounds? at found
  obtain ⟨present, found, _⟩ := Option.map_eq_some_iff.1 found
  exact (Array.getElem?_eq_some_iff.1 found).1

/-- A node stays open while other nodes are added behind it. -/
theorem goesOn (opened : OpenTag old node state) (goesOn : state.GoesOn (node.index + 1) next) :
    OpenTag old node next :=
  ⟨opened.new, by rw [goesOn.old node (Nat.lt_succ_self _)]; exact opened.begun⟩

theorem of_addNode {kind : NodeKind} {parent : NodeId} {start : Span} (tag : kind.isTag = true)
    (new : old ≤ node.index) (added : (node, next) = state.addNode parent kind start) :
    OpenTag old node next := by
  obtain ⟨rfl, rfl⟩ := Prod.mk.inj added
  have covers : (state.tree.add kind parent start).2.bounds? ⟨state.tree.size⟩ = _ :=
    Tree.bounds?_add_new kind parent start
  rw [tag] at covers
  exact ⟨new, _, covers, rfl⟩

/-- A class or enum that ends with the last token leaves a trace of that. -/
theorem leads_finishNode {node : NodeId} (opened : OpenTag old node state)
    (approaches : state.cursor.Approaches sequel) (spent : state.cursor.unread = [])
    {refusal : ParseState → Prop} :
    Leads (finishNode node) state (fun _ next => next.Spoiled sequel) refusal := by
  obtain ⟨range, found, begun⟩ := opened.begun
  exact ParseState.spoiled_finish found begun approaches spent

variable {content longerContent : ParseM α}

theorem keeps (opened : OpenTag old node state)
    (ignores : Ignores sequel (node.index + 1) atEnd content longerContent) :
    Leads content state (fun _ => OpenTag old node) fun _ => True :=
  (ignores state opened.there).mono (fun _ _ both => opened.goesOn both.1) fun _ _ => trivial

variable {rest further : α → ParseM β} {ending : β → AtEnd}

/-- A part of what stands behind the opening brace. -/
theorem ignoresFrom_bind (opened : OpenTag old node state)
    (ignores : Ignores sequel (node.index + 1) atEnd content longerContent)
    (following : ∀ value next, OpenTag old node next →
      IgnoresFrom sequel old ending (rest value) (further value) next)
    (concludes : ∀ value next, OpenTag old node next → next.cursor.Approaches sequel →
      next.cursor.unread = [] →
        Concludes sequel old (atEnd value) ending (rest value) (further value) next) :
    IgnoresFrom sequel old ending (content >>= rest) (longerContent >>= further) state :=
  ((ignores state).weakenOld (Nat.le_succ_of_le opened.new) opened.there).knowing
    (opened.keeps ignores) (fun value next _ => following value next) concludes

theorem ignoresFrom_inside (opened : OpenTag old node state)
    (ignores : Ignores sequel (node.index + 1) (fun _ => .never) content longerContent)
    (following : ∀ value next, OpenTag old node next →
      IgnoresFrom sequel old ending (rest value) (further value) next) :
    IgnoresFrom sequel old ending (content >>= rest) (longerContent >>= further) state :=
  opened.ignoresFrom_bind ignores following fun _ _ _ _ _ => concludes_never

end OpenTag

variable {node : NodeId}

theorem spoils_finishNode (new : old ≤ node.index) (error : ParseError) :
    Spoils sequel old (do finishNode node; resume (.error error) : ParseM α) :=
  .behind (proceeding_finishNode new) fun _ => .resume error

theorem ignoresFrom_classBody (ignore : rules.Ignore sequel longer)
    (opened : OpenTag old node state)
    (name : String) (symbol : SymbolId) :
    IgnoresFrom sequel old (fun _ => .never) (classBody rules name symbol node)
      (classBody longer name symbol node) state := by
  have opening (old : Nat) : Ignores sequel old (fun _ => .never)
      (expect (.punct .leftBrace)) (expect (.punct .leftBrace)) := ignores_expectInside rfl
  refine (opening old state).attemptKnowing (opened.keeps (opening _)) (fun _ next _ opened => ?_)
    (fun _ _ _ _ _ => concludes_never) fun error => spoils_finishNode opened.new error
  refine opened.ignoresFrom_inside (disregards_pushScope _).ignores fun _ next opened =>
    opened.ignoresFrom_inside (ignore.declarations _) fun _ next opened =>
      opened.ignoresFrom_inside disregards_popScope.ignores fun _ next opened => ?_
  refine opened.ignoresFrom_bind (ignores_eat _) (fun _ next opened =>
    (disregards_finishNode opened.new).ignores next) fun _ next opened approaches spent _ => ?_
  exact (opened.leads_finishNode approaches spent).imp fun _ _ => .inl

theorem ignores_classDefinition (ignore : rules.Ignore sequel longer) (specs : DeclSpecs)
    (key : Token) (path : Option NamePath) (isFinal : Bool) :
    Ignores sequel old (fun _ => .never) (classDefinition rules specs key path isFinal)
      (classDefinition longer specs key path isFinal) := by
  refine ignores_baseClause.inside fun bases => (disregards_checkNesting _).ignores.inside fun _ =>
    (disregards_tagPlace path key).ignores.inside fun place =>
      (disregards_declare _ _ _).ignores.inside fun symbol state => .addNode ?_
  intro node next added new
  exact (ignoresFrom_classBody ignore (.of_addNode rfl new added) _ _).inside
    fun _ => ignores_pure _

theorem ignoresFrom_classSpecifier (ignore : rules.Ignore sequel longer) {word : Keyword}
    (peek : state.cursor.peek.kind = .keyword word) (specs : DeclSpecs) (allowBody : Bool) :
    IgnoresFrom sequel old (fun _ => .never) (classSpecifier rules specs allowBody)
      (classSpecifier longer specs allowBody) state := by
  refine (ignoresFrom_advance (peek ▸ rfl)).inside fun key => ignores_skipAttributes.inside
    fun _ => ignores_tagPath?.inside fun path state => ?_
  have rest (isFinal : Bool) (specs : DeclSpecs) : Ignores sequel old (fun _ => .never)
      (do
        if allowBody && ((← check (.punct .leftBrace)) || (← check (.punct .colon))) then
          classDefinition rules specs key path isFinal
        else
          forwardTag specs path (.classTag (classKeyOf key.kind)))
      (do
        if allowBody && ((← check (.punct .leftBrace)) || (← check (.punct .colon))) then
          classDefinition longer specs key path isFinal
        else
          forwardTag specs path (.classTag (classKeyOf key.kind))) :=
    fun state => .check (.check (.ite (fun _ => ignores_classDefinition ignore _ _ _ _ state)
      fun _ => ignores_forwardTag _ _ _ state))
  refine .checkWord (.ite (fun final => ?_) fun _ => rest _ _ _)
  have kind := eq_of_beq (Bool.and_eq_true_iff.1 final).1
  exact (ignoresFrom_nextInside (kind ▸ rfl)).inside fun _ => rest _ _

/-! ## Enums -/

theorem ignores_enumerator (parent : NodeId) (scope : SymbolId) :
    Ignores sequel old (fun _ => .anything) (enumerator parent scope)
      (enumerator parent scope) := by
  have entry (name : Token) (hasValue : Bool) : Ignores sequel old (fun _ => .anything)
      (do
        let unit ← unit
        let symbol ← changeTable name.span fun table =>
          table.declare scope { name := name.lexeme, kind := .enumerator, unit := some unit }
        let node ← addNodeUnder parent (.enumerator ⟨name.lexeme, symbol, hasValue⟩) name.span
        finishNode node)
      (do
        let unit ← unit
        let symbol ← changeTable name.span fun table =>
          table.declare scope { name := name.lexeme, kind := .enumerator, unit := some unit }
        let node ← addNodeUnder parent (.enumerator ⟨name.lexeme, symbol, hasValue⟩) name.span
        finishNode node) := by
    refine disregards_unit.ignores.inside fun unit =>
      (disregards_changeTable _ _).ignores.inside fun symbol state => ?_
    exact .addNodeUnder fun node next _ new => (disregards_finishNode new).ignores next
  refine ignores_expectIdentifier.inside fun name => ignores_skipAttributes.inside fun _ =>
    (ignores_eatInside rfl).inside fun hasValue => .ite ?_ (entry _ _)
  exact (ignores_skipExpression _).short fun _ => entry _ _

theorem ignores_enumeratorItem (parent : NodeId) (scope : SymbolId) (round : Unit) :
    Ignores sequel old (fun _ => .anything) (enumeratorItem parent scope round)
      (enumeratorItem parent scope round) := by
  have comma : Ignores sequel old (fun _ => .anything)
      (do if ← eat (.punct .comma) then return Step.again () else return Step.done () :
        ParseM (Step Unit Unit))
      (do if ← eat (.punct .comma) then return Step.again () else return Step.done ()) :=
    (ignores_eat _).short fun _ => .ite (ignores_pure _) (ignores_pure _)
  refine fun state => .peek (.ite (fun _ => ignores_pure _ state) fun _ => ?_)
  refine (ignores_enumerator parent scope state).attempt (fun _ next _ => comma next)
    (fun _ _ _ _ => concludes_anything) fun error => (Spoils.report error).bind fun _ => ?_
  exact (onlyReads_unread.bind fun _ => by simp).proceeding

theorem ignores_enumerators (parent : NodeId) (scope : SymbolId) :
    Ignores sequel old (fun _ => .same) (enumerators parent scope) (enumerators parent scope) := by
  have items : Ignores sequel old (fun _ => .anything)
      (iterate (enumeratorItem parent scope) ()) (iterate (enumeratorItem parent scope) ()) :=
    .iterateShort (ignores_enumeratorItem parent scope) ()
  exact fun state => (items state).expecting (by simp) fun _ =>
    (ignores_expect _).disregarding fun _ => .pure ()

theorem ignores_underlyingType (ignore : rules.Ignore sequel longer) (allowed : Bool) :
    Ignores sequel old (fun _ => .never) (underlyingType rules allowed)
      (underlyingType longer allowed) :=
  .ite ((ignores_eatInside rfl).inside fun _ => .ite ((ignore.specifiers _ _).inside
    fun _ => ignores_pure _) (ignores_pure _)) (ignores_pure _)

theorem ignoresFrom_enumBody (opened : OpenTag old node state) (symbol : SymbolId) :
    IgnoresFrom sequel old (fun _ => .never) (enumBody symbol node) (enumBody symbol node)
      state := by
  have opening (old : Nat) : Ignores sequel old (fun _ => .never)
      (expect (.punct .leftBrace)) (expect (.punct .leftBrace)) := ignores_expectInside rfl
  refine (opening old state).attemptKnowing (opened.keeps (opening _)) (fun _ next _ opened => ?_)
    (fun _ _ _ _ _ => concludes_never) fun error => spoils_finishNode opened.new error
  have items (old : Nat) : Ignores sequel old (fun _ => .same) (enumerators node symbol)
      (enumerators node symbol) := ignores_enumerators node symbol
  refine (items old next).attemptKnowing (opened.keeps (items _)) (fun _ next _ opened => ?_)
    (fun _ next opened approaches spent _ => ?_) fun error => spoils_finishNode opened.new error
  · exact ((disregards_finishNode opened.new).bind fun _ => .pure ()).ignores next
  · exact (opened.leads_finishNode approaches spent).bind fun _ last spoiled => .inl spoiled

theorem ignores_enumDefinition (specs : DeclSpecs) (key : Token) (path : Option NamePath)
    (isScoped : Bool) (underlying : Option TypeRef) :
    Ignores sequel old (fun _ => .never) (enumDefinition specs key path isScoped underlying)
      (enumDefinition specs key path isScoped underlying) := by
  refine (disregards_checkNesting _).ignores.inside fun _ =>
    (disregards_tagPlace path key).ignores.inside fun place =>
      (disregards_declare _ _ _).ignores.inside fun symbol state => .addNode ?_
  intro node next added new
  exact (ignoresFrom_enumBody (.of_addNode rfl new added) _).inside fun _ => ignores_pure _

theorem ignores_scopedWord : Ignores sequel old (fun _ => .never) scopedWord scopedWord := by
  refine fun state => .check (.check (.ite (fun word => ?_) fun _ => ignores_pure _ state))
  refine (ignoresFrom_advance ?_).inside fun _ => ignores_pure _
  rcases Bool.or_eq_true_iff.1 word with kind | kind <;> rw [eq_of_beq kind] <;> rfl

theorem ignoresFrom_enumSpecifier (ignore : rules.Ignore sequel longer) {word : Keyword}
    (peek : state.cursor.peek.kind = .keyword word) (specs : DeclSpecs) (allowBody : Bool) :
    IgnoresFrom sequel old (fun _ => .never) (enumSpecifier rules specs allowBody)
      (enumSpecifier longer specs allowBody) state :=
  (ignoresFrom_advance (peek ▸ rfl)).inside fun _ => ignores_scopedWord.inside fun _ =>
    ignores_skipAttributes.inside fun _ => ignores_tagPath?.inside fun _ =>
      (ignores_underlyingType ignore allowBody).inside fun _ state => .check (.ite
        (fun _ => ignores_enumDefinition _ _ _ _ _ state) fun _ => ignores_forwardTag _ _ _ state)

/-! ## Specifiers -/

theorem ignoresFrom_markedSpecifier {word : Keyword} (peek : state.cursor.peek.kind = .keyword word)
    (specs : DeclSpecs) (specifier : Specifier) :
    IgnoresFrom sequel old (fun _ => .never) (markedSpecifier specs word specifier)
      (markedSpecifier specs word specifier) state := by
  have language : Ignores sequel old (fun _ => .never)
      (do
        if word = .externKw then
          let _ ← eat (.literal .string)
        return { specs with specifiers := specs.specifiers.insert specifier })
      (do
        if word = .externKw then
          let _ ← eat (.literal .string)
        return { specs with specifiers := specs.specifiers.insert specifier }) :=
    .ite ((ignores_eatInside rfl).inside fun _ => ignores_pure _) (ignores_pure _)
  exact (ignoresFrom_nextInside (peek ▸ rfl)).inside fun _ =>
    .ite (ignores_skipGroupIf.inside fun _ => language) language

theorem ignores_namedType (specs : DeclSpecs) :
    Ignores sequel old (fun _ => .never) (namedType specs) (namedType specs) :=
  ignores_namePath.inside fun path => (disregards_resolve? path).ignores.inside
    fun _ => ignores_pure _

theorem ignoresFrom_deducedType {word : Keyword} (peek : state.cursor.peek.kind = .keyword word)
    (specs : DeclSpecs) :
    IgnoresFrom sequel old (fun _ => .never) (deducedType specs) (deducedType specs) state := by
  exact .mark ((ignoresFrom_nextInside (peek ▸ rfl)).inside fun _ => ignores_skipGroupIf.inside
    fun _ => (disregards_since _).ignores.inside fun _ => ignores_pure _)

theorem ignoresFrom_typeWord {word : Keyword} (peek : state.cursor.peek.kind = .keyword word)
    (specs : DeclSpecs) (isType : Bool) :
    IgnoresFrom sequel old (fun _ => .never) (typeWord specs isType) (typeWord specs isType)
      state :=
  (ignoresFrom_advance (peek ▸ rfl)).inside fun _ => ignores_pure _

theorem ignores_nameSpecifier (mode : SpecifierMode) (specs : DeclSpecs) :
    Ignores sequel old (fun _ => .never) (nameSpecifier mode specs) (nameSpecifier mode specs) := by
  refine .ite (ignores_pure _) (disregards_className?.ignores.inside fun name state => .unread ?_)
  refine .congr (fun approaches more => by rw [Ahead.isConstructor_append approaches.ended more]) ?_
  exact .ite (fun _ => ignores_pure _ state) fun _ =>
    ((ignores_namedType specs).inside fun _ => ignores_pure _) state

theorem ignoresFrom_keywordSpecifier (ignore : rules.Ignore sequel longer) {word : Keyword}
    (peek : state.cursor.peek.kind = .keyword word) (mode : SpecifierMode) (specs : DeclSpecs) :
    IgnoresFrom sequel old (fun _ => .never) (keywordSpecifier rules mode specs word)
      (keywordSpecifier longer mode specs word) state := by
  have done : Ignores sequel old (fun _ => .never)
      (return Step.done specs : ParseM (Step DeclSpecs DeclSpecs)) (return Step.done specs) :=
    ignores_pure _
  have next : state.cursor.peek.kind.endsDeclaration = false := by rw [peek]; rfl
  unfold keywordSpecifier
  split
  · exact (ignoresFrom_markedSpecifier peek _ _).inside fun _ => ignores_pure _
  · split
    · exact (ignoresFrom_typeWord peek _ _).inside fun _ => ignores_pure _
    · split
      · exact (ignoresFrom_typeWord peek _ _).inside fun _ => ignores_pure _
      · split
        · exact (ignoresFrom_nextInside next).inside fun _ => ignores_pure _
        · exact (ignoresFrom_nextInside next).inside fun _ =>
            (ignores_namedType specs).inside fun _ => ignores_pure _
        · exact (ignoresFrom_deducedType peek _).inside fun _ => ignores_pure _
        iterate 3
          · split
            · exact done state
            · exact (ignoresFrom_classSpecifier ignore peek _ _).inside fun _ => ignores_pure _
        · split
          · exact done state
          · exact (ignoresFrom_enumSpecifier ignore peek _ _).inside fun _ => ignores_pure _
        · exact (ignores_skipAttributes.inside fun _ => ignores_pure _) state
        · exact done state

theorem ignores_nextSpecifier (ignore : rules.Ignore sequel longer) (mode : SpecifierMode)
    (specs : DeclSpecs) : Ignores sequel old (fun _ => .never) (nextSpecifier rules mode specs)
      (nextSpecifier longer mode specs) := by
  have attributes : Ignores sequel old (fun _ => .never)
      (do skipAttributes; return Step.again specs : ParseM (Step DeclSpecs DeclSpecs))
      (do skipAttributes; return Step.again specs) :=
    ignores_skipAttributes.inside fun _ => ignores_pure _
  refine fun state => .peek ?_
  split
  · rename_i word peek
    exact ignoresFrom_keywordSpecifier ignore peek mode specs
  · rename_i peek
    refine .checkSecond (by rw [peek]; rfl) ?_
    exact .ite (fun _ => attributes state) fun _ => ignores_pure _ state
  · exact .ite (fun _ => attributes state) fun _ => ignores_nameSpecifier mode specs state
  · exact ignores_nameSpecifier mode specs state
  · exact ignores_pure _ state

theorem ignores_specifiers (ignore : rules.Ignore sequel longer) (mode : SpecifierMode) :
    Ignores sequel old (fun _ => .never) (specifiers rules mode) (specifiers longer mode) :=
  .iterate (ignores_nextSpecifier ignore mode) {}

end ParseM

end DeclTree
