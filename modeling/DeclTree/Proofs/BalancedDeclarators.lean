import DeclTree.Proofs.Activity
import DeclTree.Proofs.BalancedReading

/-!
# Specifiers and declarators that match braces

Class and enum bodies are read from their opening to their closing brace, the bodies of functions
and the initialisers of variables are passed over as groups.  The name of a conversion function and
what stands in brackets are passed over without a look at their braces.
-/

namespace DeclTree

open Braces (Matching)

/-- Whether rules read from brace to brace, where the declarations of a scope are read up to its
closing brace or the end of the text. -/
structure Rules.KeepBraces (rules : Rules) : Prop where
  specifiers : ∀ {many} mode, ParseM.KeepsBraces many (rules.specifiers mode)
  declarator : ∀ {many} mode, ParseM.KeepsBraces many (rules.declarator mode)
  declaration : ParseM.KeepsBraces true rules.declaration
  templateDeclaration : ∀ start exported,
    ParseM.KeepsBraces true (rules.templateDeclaration start exported)
  declarations : ∀ closing state, ParseM.Leads (rules.declarations closing) state
    (fun _ next => state.KeepsBraces true next ∧ (next.errors = #[] →
      next.cursor.peek.kind = if closing then .punct .rightBrace else .eof)) fun _ => True

namespace ParseM

variable {α β : Type} {many : Bool} {origin state : ParseState} {rules : Rules}

/-! ## Specifiers -/

@[simp] theorem keepsBraces_tagPath? : KeepsBraces many tagPath? :=
  .bind (keepsBraces_check _) fun _ => .bind (keepsBraces_check _) fun _ =>
    .ite (.bind keepsBraces_namePath fun _ => .pure _) (.pure none)

theorem isPlain_takeWhile {tokens : List Token} {condition : Token → Bool}
    (plain : ∀ token, condition token = true → token.kind.isPlain many = true) :
    Matching many tokens (tokens.drop (tokens.takeWhile condition).length) := by
  refine Braces.matching_drop fun token member => plain token ?_
  rw [← List.prefix_iff_eq_take.1 (List.takeWhile_prefix _)] at member
  exact List.all_eq_true.1 List.all_takeWhile token member

theorem isPlain_baseWord {token : Token} (word : isBaseWord token.kind = true) :
    token.kind.isPlain many = true := by
  unfold isBaseWord at word
  split at word <;> simp_all

@[simp] theorem keepsBraces_baseClass (bases : List TypeRef) :
    KeepsBraces many (baseClass bases) := by
  refine .bind keepsBraces_skipAttributes fun _ state => leads_unread.2 ?_
  refine Onward.bind
    (onward_skip (.refl state) fun _ => isPlain_takeWhile fun _ => isPlain_baseWord) ?_
  exact fun _ => .bind keepsBraces_namePath fun path => .bind (keepsBraces_resolve? path) fun _ =>
    .bind (keepsBraces_eat rfl) fun _ => .bind (keepsBraces_eat rfl) fun _ => by simp

@[simp] theorem keepsBraces_baseClause : KeepsBraces many baseClause :=
  .bind (keepsBraces_eat rfl) fun _ => .ite (.iterate keepsBraces_baseClass []) (.pure [])

@[simp] theorem keepsBraces_forwardTag (specs : DeclSpecs) (path : Option NamePath)
    (kind : TagKind) : KeepsBraces many (forwardTag specs path kind) := by
  unfold forwardTag
  split <;> simp

@[simp] theorem keepsBraces_tagPlace (path : Option NamePath) (key : Token) :
    KeepsBraces many (tagPlace path key) := by
  unfold tagPlace
  split <;> simp

@[simp] theorem keepsBraces_scopedWord : KeepsBraces many scopedWord := by
  refine fun state => leads_check.2 (leads_check.2 ?_)
  split
  · rename_i found
    refine Onward.advance (.refl state) ?_ fun _ => .pure _
    rw [Bool.or_eq_true, beq_iff_eq, beq_iff_eq] at found
    rcases found with found | found <;> simp [found]
  · exact KeepsBraces.pure _ state

/-! ## Classes and enums -/

@[simp] theorem leads_pushScope {frame : ScopeFrame} {rest : Unit → ParseM α}
    {accept : α → ParseState → Prop} {refusal : ParseState → Prop} :
    Leads (pushScope frame >>= rest) state accept refusal ↔
      Leads (rest ()) (state.enter frame) accept refusal :=
  Iff.rfl

@[simp] theorem leads_popScope {rest : Unit → ParseM α}
    {accept : α → ParseState → Prop} {refusal : ParseState → Prop} :
    Leads (popScope >>= rest) state accept refusal ↔
      Leads (rest ()) state.leave accept refusal :=
  Iff.rfl

/-- Behind the declarations of a scope its closing brace is next, unless there was an error. -/
theorem onward_declarations (keep : rules.KeepBraces) {before : ParseState}
    (entered : before.KeepsBraces true state) {rest : Unit → ParseM α}
    (following : ∀ next, before.KeepsBraces true next →
      (next.errors = #[] → next.cursor.peek.kind = .punct .rightBrace) →
        Onward many origin (rest ()) next) :
    Onward many origin (rules.declarations true >>= rest) state :=
  (keep.declarations true state).bind fun _ next body =>
    following next (entered.trans body.1) body.2

theorem leads_attempt_expect {kind : TokenKind} {rest : Except ParseError Token → ParseM α}
    (found : state.cursor.peek.kind = kind →
      Onward many origin (rest (.ok state.cursor.peek)) state.next)
    (refused : ∀ error next, Onward many origin (rest (.error error)) next) :
    Onward many origin (attempt (expect kind) >>= rest) state := by
  have expected : Leads (expect kind) state (fun token next =>
      state.cursor.peek.kind = kind ∧ token = state.cursor.peek ∧ next = state.next)
      fun _ => True := by
    by_cases same : state.cursor.peek.kind = kind
    · unfold Leads Meets
      rw [expect_of_eq same]
      exact ⟨same, rfl, rfl⟩
    · refine leads_peek.2 ?_
      rw [if_neg same]
      split <;> trivial
  refine (Leads.attempt expected).bind fun outcome next caught => ?_
  cases outcome with
  | ok token =>
      obtain ⟨same, rfl, rfl⟩ := caught.1 token rfl
      exact found same
  | error error => exact refused error next

theorem keepsBraces_classBody (keep : rules.KeepBraces) (name : String) (symbol : SymbolId)
    (node : NodeId) : KeepsBraces many (classBody rules name symbol node) := by
  refine fun state => leads_attempt_expect (fun opens => ?_) fun error next =>
    leads_behind fun _ _ => onward_resume_error _
  refine leads_pushScope.2 (onward_declarations keep (.of_eq rfl rfl) ?_)
  refine fun inside body closes => leads_popScope.2 ?_
  have left : state.next.KeepsBraces true inside.leave := body.trans (.of_eq rfl rfl)
  exact onward_eatCloser (.refl state) opens left closes fun _ => keepsBraces_finishNode node

theorem keepsBraces_classDefinition (keep : rules.KeepBraces) (specs : DeclSpecs) (key : Token)
    (path : Option NamePath) (isFinal : Bool) :
    KeepsBraces many (classDefinition rules specs key path isFinal) :=
  .bind keepsBraces_baseClause fun _ => .bind (keepsBraces_checkNesting _) fun _ =>
    .bind (keepsBraces_tagPlace path key) fun _ => .bind (keepsBraces_declare _ _ _) fun symbol =>
      .bind (keepsBraces_addNode _ _) fun node =>
        .bind (keepsBraces_classBody keep _ symbol node) fun _ => .pure _

theorem onward_classSpecifier (keep : rules.KeepBraces) {specs : DeclSpecs} {word : Keyword}
    (peek : state.cursor.peek.kind = .keyword word) (allowBody : Bool) :
    Onward many state (classSpecifier rules specs allowBody) state := by
  refine .advance (.refl state) (by simp [peek]) fun key => .bind keepsBraces_skipAttributes
    fun _ => .bind keepsBraces_tagPath? fun path => ?_
  have rest (isFinal : Bool) (specs : DeclSpecs) : KeepsBraces many (do
      if allowBody && ((← check (.punct .leftBrace)) || (← check (.punct .colon))) then
        classDefinition rules specs key path isFinal
      else
        forwardTag specs path (.classTag (classKeyOf key.kind))) :=
    .bind (keepsBraces_check _) fun _ => .bind (keepsBraces_check _) fun _ =>
      .ite (keepsBraces_classDefinition keep _ _ _ _) (keepsBraces_forwardTag _ _ _)
  refine fun next => Onward.look (tellsOf_checkWord _ next) fun isFinal found => ?_
  split
  · rename_i final
    refine Onward.nextToken (.refl next) (by simp [found final]) fun _ => rest _ _
  · exact rest _ _ next

@[simp] theorem keepsBraces_enumerator (parent : NodeId) (scope : SymbolId) :
    KeepsBraces many (enumerator parent scope) := by
  have entry (name : Token) (hasValue : Bool) : KeepsBraces many (do
      let unit ← unit
      let symbol ← changeTable name.span fun table =>
        table.declare scope { name := name.lexeme, kind := .enumerator, unit := some unit }
      let node ← addNodeUnder parent (.enumerator ⟨name.lexeme, symbol, hasValue⟩) name.span
      finishNode node) :=
    .bind keepsBraces_unit fun _ => .bind (keepsBraces_changeTable _ _) fun _ => by simp
  exact .bind keepsBraces_expectIdentifier fun name => .bind keepsBraces_skipAttributes fun _ =>
    .bind (keepsBraces_eat rfl) fun hasValue =>
      .ite (.bind (keepsBraces_skipExpression _) fun _ => entry _ _) (entry _ _)

@[simp] theorem keepsBraces_enumeratorItem (parent : NodeId) (scope : SymbolId) (round : Unit) :
    KeepsBraces many (enumeratorItem parent scope round) := by
  have comma : KeepsBraces many (do
      if ← eat (.punct .comma) then return Step.again () else return Step.done () :
        ParseM (Step Unit Unit)) :=
    .bind (keepsBraces_eat rfl) fun _ => by simp
  refine .bind keepsBraces_peek fun token => .ite (.pure _) fun state => ?_
  refine Onward.attempt (keepsBraces_enumerator parent scope state) (fun _ => comma)
    fun error next => onward_report fun _ reported => leads_unread.2 ?_
  exact (onward_pass (.refl reported) fun _ => Stretch.matching_upTo (by simp) (by simp) _).bind
    fun _ => comma

theorem onward_enumerators {parent : NodeId} {scope : SymbolId} {before : ParseState}
    (opens : before.cursor.peek.kind = .punct .leftBrace) :
    Onward many before (enumerators parent scope) before.next := by
  have items : KeepsBraces true (iterate (enumeratorItem parent scope) ()) :=
    .iterate (keepsBraces_enumeratorItem parent scope) ()
  refine Leads.bind (items before.next) fun _ next body => ?_
  exact onward_expectCloser (.refl before) opens body fun _ => .pure ()

@[simp] theorem keepsBraces_enumBody (symbol : SymbolId) (node : NodeId) :
    KeepsBraces many (enumBody symbol node) := by
  refine fun state => leads_attempt_expect (fun opens => ?_) fun error next =>
    leads_behind fun _ _ => onward_resume_error _
  refine Onward.attempt (onward_enumerators opens) (fun _ => ?_) fun error next =>
    leads_behind fun _ _ => onward_resume_error _
  exact .bind (keepsBraces_finishNode node) fun _ => .pure ()

theorem keepsBraces_underlyingType (keep : rules.KeepBraces) (allowed : Bool) :
    KeepsBraces many (underlyingType rules allowed) :=
  .ite (.bind (keepsBraces_eat rfl) fun _ =>
    .ite (.bind (keep.specifiers _) fun _ => .pure _) (.pure _)) (.pure _)

@[simp] theorem keepsBraces_enumDefinition (specs : DeclSpecs) (key : Token)
    (path : Option NamePath) (isScoped : Bool) (underlying : Option TypeRef) :
    KeepsBraces many (enumDefinition specs key path isScoped underlying) :=
  .bind (keepsBraces_checkNesting _) fun _ => .bind (keepsBraces_tagPlace path key) fun _ =>
    .bind (keepsBraces_declare _ _ _) fun symbol => .bind (keepsBraces_addNode _ _) fun node =>
      .bind (keepsBraces_enumBody symbol node) fun _ => .pure _

theorem onward_enumSpecifier (keep : rules.KeepBraces) {specs : DeclSpecs} {word : Keyword}
    (peek : state.cursor.peek.kind = .keyword word) (allowBody : Bool) :
    Onward many state (enumSpecifier rules specs allowBody) state :=
  .advance (.refl state) (by simp [peek]) fun _ => .bind keepsBraces_scopedWord fun _ =>
    .bind keepsBraces_skipAttributes fun _ => .bind keepsBraces_tagPath? fun path =>
      .bind (keepsBraces_underlyingType keep allowBody) fun _ => .bind (keepsBraces_check _)
        fun _ => .ite (keepsBraces_enumDefinition _ _ _ _ _) (keepsBraces_forwardTag _ _ _)

/-! ## Specifiers -/

theorem onward_markedSpecifier {specs : DeclSpecs} {word : Keyword} {specifier : Specifier}
    (peek : state.cursor.peek.kind = .keyword word) :
    Onward many state (markedSpecifier specs word specifier) state := by
  have language : KeepsBraces many (do
      if word = .externKw then
        let _ ← eat (.literal .string)
      return { specs with specifiers := specs.specifiers.insert specifier } :
        ParseM DeclSpecs) :=
    .ite (.bind (keepsBraces_eat rfl) fun _ => .pure _) (.pure _)
  exact .nextToken (.refl state) (by simp [peek]) fun _ =>
    .ite (.bind (keepsBraces_skipGroupIf rfl) fun _ => language) language

@[simp] theorem keepsBraces_namedType (specs : DeclSpecs) : KeepsBraces many (namedType specs) :=
  .bind keepsBraces_namePath fun path => .bind (keepsBraces_resolve? path) fun _ => .pure _

theorem onward_deducedType {specs : DeclSpecs} {word : Keyword}
    (peek : state.cursor.peek.kind = .keyword word) :
    Onward many state (deducedType specs) state := by
  refine leads_mark.2 (Onward.nextToken (.refl state) (by simp [peek]) fun _ => ?_)
  exact .bind (keepsBraces_skipGroupIf rfl) fun _ => by simp

theorem onward_typeWord {specs : DeclSpecs} {word : Keyword} {isType : Bool}
    (peek : state.cursor.peek.kind = .keyword word) :
    Onward many state (typeWord specs isType) state :=
  .advance (.refl state) (by simp [peek]) fun _ => .pure _

@[simp] theorem keepsBraces_nameSpecifier (mode : SpecifierMode) (specs : DeclSpecs) :
    KeepsBraces many (nameSpecifier mode specs) := by
  refine .ite (.pure _) (.bind keepsBraces_className? fun _ state => leads_unread.2 ?_)
  exact KeepsBraces.onward (by simp) (.refl state)

theorem onward_again {parse : ParseM α} (onward : Onward many state parse state) :
    Onward many state (do return Step.again (β := β) (← parse)) state :=
  onward.bind fun _ => .pure _

theorem onward_keywordSpecifier (keep : rules.KeepBraces) {mode : SpecifierMode}
    {specs : DeclSpecs} {word : Keyword} (peek : state.cursor.peek.kind = .keyword word) :
    Onward many state (keywordSpecifier rules mode specs word) state := by
  have done : KeepsBraces many (return Step.done specs : ParseM (Step DeclSpecs DeclSpecs)) :=
    .pure _
  unfold keywordSpecifier
  split
  · exact onward_again (onward_markedSpecifier peek)
  · split
    · exact onward_again (onward_typeWord peek)
    · split
      · exact onward_again (onward_typeWord peek)
      · split
        · exact Onward.nextToken (.refl state) (by simp [peek]) fun _ => .pure _
        · exact Onward.nextToken (.refl state) (by simp [peek]) fun _ =>
            .bind (keepsBraces_namedType specs) fun _ => .pure _
        · exact onward_again (onward_deducedType peek)
        iterate 3
          · split
            · exact done state
            · exact onward_again (onward_classSpecifier keep peek _)
        · split
          · exact done state
          · exact onward_again (onward_enumSpecifier keep peek _)
        · exact KeepsBraces.bind keepsBraces_skipAttributes (fun _ => .pure _) state
        · exact done state

theorem keepsBraces_nextSpecifier (keep : rules.KeepBraces) (mode : SpecifierMode)
    (specs : DeclSpecs) : KeepsBraces many (nextSpecifier rules mode specs) := by
  refine fun state => leads_peek.2 ?_
  split
  · rename_i word peek
    exact onward_keywordSpecifier keep peek
  all_goals refine KeepsBraces.onward ?_ (.refl state)
  · simp
  · simp
  · simp
  · simp

theorem keepsBraces_specifiers (keep : rules.KeepBraces) (mode : SpecifierMode) :
    KeepsBraces many (specifiers rules mode) :=
  .iterate (keepsBraces_nextSpecifier keep mode) {}

/-! ## Friends -/

/-- Whether a parse, wherever it comes to an end, does so with a value of some kind. -/
def Produces (fact : α → Prop) (parse : ParseM α) : Prop :=
  ∀ state, Leads parse state (fun value _ => fact value) fun _ => True

namespace Produces

variable {fact : α → Prop}

theorem pure {value : α} (holds : fact value) : Produces fact (Pure.pure value : ParseM α) :=
  fun _ => holds

theorem bind {first : ParseM β} {rest : β → ParseM α}
    (following : ∀ value, Produces fact (rest value)) :
    Produces fact (first >>= rest) :=
  fun _ => leads_behind fun value => following value

theorem ite {condition : Prop} [Decidable condition] {first second : ParseM α}
    (left : Produces fact first) (right : Produces fact second) :
    Produces fact (if condition then first else second) := by
  split
  · exact left
  · exact right

end Produces

/-- Whether specifiers are those of a friend just if others are. -/
def FriendLike (specs result : DeclSpecs) : Prop :=
  result.specifiers.contains .friend = specs.specifiers.contains .friend

/-- Whether a round goes on or ends with specifiers that are those of a friend just if others
are. -/
def StepsFriendLike (specs : DeclSpecs) : Step DeclSpecs DeclSpecs → Prop
  | .again result | .done result => FriendLike specs result

theorem gives_forwardTag (specs : DeclSpecs) (path : Option NamePath) (kind : TagKind) :
    Produces (FriendLike specs) (forwardTag specs path kind) := by
  unfold forwardTag
  split
  · exact .bind fun _ _ => trivial
  · exact .bind fun _ => .pure rfl

theorem gives_classSpecifier (specs : DeclSpecs) (allowBody : Bool) :
    Produces (FriendLike specs) (classSpecifier rules specs allowBody) := by
  have rest (key : Token) (path : Option NamePath) (isFinal : Bool) (tagged : DeclSpecs)
      (same : tagged.specifiers = specs.specifiers) : Produces (FriendLike specs) (do
        if allowBody && ((← check (.punct .leftBrace)) || (← check (.punct .colon))) then
          classDefinition rules tagged key path isFinal
        else
          forwardTag tagged path (.classTag (classKeyOf key.kind))) := by
    refine .bind fun _ => .bind fun _ => .ite ?_ ?_
    · exact .bind fun _ => .bind fun _ => .bind fun _ => .bind fun _ => .bind fun _ =>
        .bind fun _ => .pure (congrArg (Specifiers.contains · .friend) same)
    · have like : FriendLike specs = FriendLike tagged := by
        funext result
        rw [FriendLike, FriendLike, same]
      rw [like]
      exact gives_forwardTag tagged path _
  refine .bind fun key => .bind fun _ => .bind fun path => .bind fun isFinal => ?_
  exact .ite (.bind fun _ => rest key path isFinal _ rfl) (rest key path isFinal _ rfl)

theorem gives_enumSpecifier (specs : DeclSpecs) (allowBody : Bool) :
    Produces (FriendLike specs) (enumSpecifier rules specs allowBody) := by
  refine .bind fun key => .bind fun _ => .bind fun _ => .bind fun path => .bind fun _ =>
    .bind fun _ => .ite ?_ ?_
  · exact .bind fun _ => .bind fun _ => .bind fun _ => .bind fun _ => .bind fun _ => .pure rfl
  · exact gives_forwardTag _ path _

theorem Produces.again {specs : DeclSpecs} {parse : ParseM DeclSpecs}
    (produces : Produces (FriendLike specs) parse) :
    Produces (StepsFriendLike specs) (do return Step.again (← parse)) :=
  fun state => (produces state).bind fun _ _ like => like

/-- No other keyword makes a friend. -/
theorem gives_keywordSpecifier (mode : SpecifierMode) (specs : DeclSpecs) {word : Keyword}
    (other : word ≠ .friendKw) :
    Produces (StepsFriendLike specs) (keywordSpecifier rules mode specs word) := by
  have done : Produces (StepsFriendLike specs) (return Step.done specs) := .pure rfl
  have typed (isType : Bool) : Produces (FriendLike specs) (typeWord specs isType) :=
    .bind fun _ => .pure rfl
  unfold keywordSpecifier
  split
  · rename_i specifier found
    have marks :
        FriendLike specs { specs with specifiers := specs.specifiers.insert specifier } := by
      have unlike : (Specifier.friend == specifier) = false := by
        cases word <;> simp [Keyword.specifier?] at found other <;> (subst found; rfl)
      rw [FriendLike, Specifiers.contains_insert, unlike, Bool.false_or]
    have language : Produces (FriendLike specs) (do
        if word = .externKw then
          let _ ← eat (.literal .string)
        return { specs with specifiers := specs.specifiers.insert specifier }) :=
      .ite (.bind fun _ => .pure marks) (.pure marks)
    exact .again (.bind fun _ => .ite (.bind fun _ => language) language)
  · split
    · exact .again (typed false)
    · split
      · exact .again (typed true)
      · split
        · exact .bind fun _ => .pure rfl
        · exact .bind fun _ => .again (.bind fun _ => .bind fun _ => .pure rfl)
        · exact .again (.bind fun _ => .bind fun _ => .bind fun _ => .bind fun _ => .pure rfl)
        iterate 3
          · exact .ite done (.again (gives_classSpecifier specs _))
        · exact .ite done (.again (gives_enumSpecifier specs _))
        · exact .bind fun _ => .pure rfl
        · exact done

theorem gives_nameSpecifier (mode : SpecifierMode) (specs : DeclSpecs) :
    Produces (StepsFriendLike specs) (nameSpecifier mode specs) := by
  refine .ite (.pure rfl) (.bind fun _ => .bind fun _ => .ite (.pure rfl) ?_)
  exact .again (.bind fun _ => .bind fun _ => .pure rfl)

/-- A round makes specifiers those of a friend only by reading this word. -/
theorem leads_nextSpecifier_friend (mode : SpecifierMode) (specs : DeclSpecs)
    (state : ParseState) : Leads (nextSpecifier rules mode specs) state (fun outcome next =>
      StepsFriendLike specs outcome ∨
        state.cursor.peek.kind = .keyword .friendKw ∧ next = state.next) fun _ => True := by
  have like {parse : ParseM (Step DeclSpecs DeclSpecs)}
      (produces : Produces (StepsFriendLike specs) parse) :
      Leads parse state (fun outcome next => StepsFriendLike specs outcome ∨
        state.cursor.peek.kind = .keyword .friendKw ∧ next = state.next) fun _ => True :=
    (produces state).imp fun _ _ => .inl
  refine leads_peek.2 ?_
  split
  · rename_i word peek
    by_cases friend : word = .friendKw
    · subst friend
      have marked : Leads (markedSpecifier specs .friendKw .friend) state
          (fun _ next => next = state.next) fun _ => True :=
        (leads_of_ok (skip_one state)).2 rfl
      exact marked.bind fun _ _ same => Or.inr ⟨peek, same⟩
    · exact like (gives_keywordSpecifier mode specs friend)
  · exact like (.bind fun _ => .ite (.bind fun _ => .pure rfl) (.pure rfl))
  · exact like (.ite (.bind fun _ => .pure rfl) (gives_nameSpecifier mode specs))
  · exact like (gives_nameSpecifier mode specs)
  · exact like (.pure rfl)

/-- Whether the word of a friend is read on the way from a state to another one, all within one
declaration. -/
def Befriends (state next : ParseState) : Prop :=
  ∃ before : ParseState, before.cursor.peek.kind = .keyword .friendKw ∧
    state.KeepsBraces false before ∧ before.next.KeepsBraces false next

/-- Specifiers are those of a friend only if its word is among them. -/
theorem leads_specifiers (keep : rules.KeepBraces) (mode : SpecifierMode) (state : ParseState) :
    Leads (specifiers rules mode) state (fun specs next => state.KeepsBraces false next ∧
      (specs.specifiers.contains .friend = true → Befriends state next)) fun _ => True := by
  refine leads_iterate (fun specs next => state.KeepsBraces false next ∧
    (specs.specifiers.contains .friend = true → Befriends state next))
    ⟨.refl state, by simp [Specifiers.contains]⟩ fun specs next ⟨kept, friend⟩ => ?_
  have round : Onward false next (nextSpecifier rules mode specs) next :=
    keepsBraces_nextSpecifier keep mode specs next
  refine (round.and (leads_nextSpecifier_friend mode specs next)).mono
    (fun outcome after read => ?_) fun _ _ => trivial
  have read_on (result : DeclSpecs)
      (like : StepsFriendLike specs outcome → FriendLike specs result) :
      state.KeepsBraces false after ∧
        (result.specifiers.contains .friend = true → Befriends state after) := by
    refine ⟨kept.trans read.1, fun befriended => ?_⟩
    rcases read.2 with same | ⟨word, rfl⟩
    · obtain ⟨before, word, front, behind⟩ := friend ((like same) ▸ befriended)
      exact ⟨before, word, front, behind.trans read.1⟩
    · exact ⟨next, word, kept, .refl _⟩
  cases outcome with
  | again result => exact read_on result id
  | done result => exact read_on result id

/-! ## Declarators -/

@[simp] theorem keepsBraces_memberPointer (tokens : List Token) :
    KeepsBraces many (memberPointer tokens) := by
  refine fun state => leads_unread.2 ?_
  split
  · rename_i length found
    refine leads_mark.2 (Onward.bind (onward_skip (.refl state) fun _ =>
      Ahead.matching_memberPointer? found) fun _ => ?_)
    simp
  · exact KeepsBraces.pure _ state

theorem isPlain_of_isPointer {mark : Punct} (pointer : mark.isPointer) :
    (TokenKind.punct mark).isPlain many = true := by
  cases mark <;> simp_all [Punct.isPointer]

theorem isPlain_of_isOverloadable {mark : Punct} (overloadable : mark.isOverloadable) :
    (TokenKind.punct mark).isPlain many = true := by
  cases mark <;> simp_all [Punct.isOverloadable]

@[simp] theorem keepsBraces_pointerOperator (tokens : List Token) :
    KeepsBraces many (pointerOperator tokens) := by
  refine fun state => leads_peek.2 ?_
  split
  · rename_i mark peek
    split
    · rename_i pointer
      exact Onward.advance (.refl state) (peek ▸ isPlain_of_isPointer pointer) fun _ => .pure _
    · refine KeepsBraces.onward ?_ (.refl state)
      exact .ite (by simp) (.ite (by simp) (by simp))
  · rename_i word peek
    split
    · exact Onward.advance (.refl state) (by simp [peek]) fun _ => .pure _
    · exact KeepsBraces.pure _ state
  · rename_i peek
    split
    · exact Onward.nextToken (.refl state) (by simp [peek]) fun _ => .pure _
    · exact keepsBraces_memberPointer _ state
  · exact KeepsBraces.pure _ state

@[simp] theorem keepsBraces_pointerOperators : KeepsBraces many pointerOperators :=
  .iterate keepsBraces_pointerOperator []

/-- The name of a conversion function is passed over. -/
theorem onward_skipConversion (word : state.cursor.peek.kind = .keyword .operatorKw) :
    Onward many state skipConversion state.next := by
  refine leads_unread.2 (onward_skipTo fun quiet =>
    ⟨quiet, fun sound => ⟨(sound.skip 1).skip _, ?_⟩⟩)
  obtain ⟨name, rest, unread, kind⟩ := sound.exists_next (by simp) word
  have behind : state.next.cursor.unread = rest := by simp [ParseState.next, unread]
  simp only [Cursor.unread_skip, behind, unread]
  generalize condition : (fun token : Token =>
    token.kind != .punct .leftParen && token.kind != .punct .semicolon &&
      token.kind != .punct .leftBrace && token.kind != .eof) = inside
  have conversion : Braces.Passage (name :: rest.takeWhile inside) := by
    refine .conversion kind fun token member => ?_
    have allowed := List.all_eq_true.1 List.all_takeWhile token member
    subst condition
    simp only [bne_iff_ne, ne_eq, Bool.and_eq_true] at allowed
    exact ⟨allowed.1.1.1, allowed.1.1.2, allowed.1.2⟩
  have read : Matching many _ (rest.drop (rest.takeWhile inside).length) :=
    .passage conversion (.done _)
  have whole : rest.takeWhile inside ++ rest.drop (rest.takeWhile inside).length = rest := by
    conv_lhs => lhs; rw [List.prefix_iff_eq_take.1 (List.takeWhile_prefix inside)]
    exact List.take_append_drop _ _
  rw [List.cons_append, whole] at read
  exact .inl read

@[simp] theorem leads_since {start : Nat} {rest : List Token → ParseM α}
    {accept : α → ParseState → Prop} {refusal : ParseState → Prop} :
    Leads (since start >>= rest) state accept refusal ↔
      Leads (rest (state.cursor.since start)) state accept refusal :=
  Iff.rfl

theorem keepsBraces_operatorName : KeepsBraces many operatorName := by
  refine fun state => leads_mark.2 (leads_expect (fun word => ?_) fun _ => trivial)
  have named : state.KeepsBraces many state.next := .next_of_plain (by simp [word])
  have spelled {start : Nat} : KeepsBraces many (return spell (← since start) : ParseM String) :=
    .bind (keepsBraces_since start) fun _ => .pure _
  have conversion {start : Nat} : Onward many state (do
      skipConversion
      return spell (← since start) : ParseM String) state.next :=
    (onward_skipConversion word).bind fun _ => spelled
  refine leads_peek.2 ?_
  split
  · rename_i peek
    exact Onward.nextToken named (by simp [peek]) fun _ =>
      .bind (keepsBraces_expect rfl) fun _ => spelled
  · rename_i peek
    exact Onward.nextToken named (by simp [peek]) fun _ =>
      .bind (keepsBraces_expect rfl) fun _ => spelled
  iterate 2
    · rename_i peek
      refine Onward.nextToken named (by simp [peek]) fun _ next =>
        leads_check.2 (leads_checkAhead.2 ?_)
      split
      · rename_i brackets
        rw [Bool.and_eq_true, beq_iff_eq, beq_iff_eq] at brackets
        refine Onward.bind (onward_skip (.refl next) fun _ => next.cursor.matching_ahead ?_)
          fun _ => spelled
        intro distance inside
        obtain rfl | rfl : distance = 0 ∨ distance = 1 := by omega
        · rw [show next.cursor.ahead 0 = next.cursor.peek from rfl]
          simp [brackets.1]
        · simp [brackets.2]
      · exact spelled next
  · rename_i peek
    exact Onward.nextToken named (by simp [peek]) fun _ =>
      .bind (keepsBraces_eat rfl) fun _ => spelled
  iterate 3
    · trivial
  · rename_i mark _ _ peek
    split
    · rename_i overloadable
      exact Onward.nextToken named (peek ▸ isPlain_of_isOverloadable overloadable) fun _ => spelled
    · exact conversion
  · exact conversion

theorem tellsOf_segmentQualifies : TellsOf (.punct .colonColon) segmentQualifies := by
  refine fun state => leads_ifCheck (fun found => ?_) fun _ => ⟨rfl, by simp⟩
  exact ⟨rfl, fun _ => found⟩

@[simp] theorem keepsBraces_declaredSegment (start : Nat) (isGlobal : Bool)
    (qualifier : QualifierSoFar) : KeepsBraces many (declaredSegment start isGlobal qualifier) := by
  refine fun state => leads_peek.2 ?_
  split
  · rename_i peek
    refine Onward.nextToken (.refl state) (by simp [peek]) fun _ =>
      .bind keepsBraces_expectIdentifier fun _ => .bind (keepsBraces_check _) fun _ => ?_
    simp
  · exact KeepsBraces.bind keepsBraces_operatorName (fun _ => .pure _) state
  · rename_i peek
    refine Onward.nextToken (.refl state) (by simp [peek]) fun _ =>
      .bind keepsBraces_skipClosedArguments fun _ next => ?_
    refine tellsOf_segmentQualifies.choose (fun found => ?_) (KeepsBraces.pure _ next)
    exact leads_since.2 (Onward.nextToken (.refl next) (by simp [found]) fun _ =>
      .bind (keepsBraces_eat rfl) fun _ => .pure _)
  · exact keepsBraces_refuseName state

@[simp] theorem keepsBraces_declaratorId : KeepsBraces many declaratorId :=
  .bind keepsBraces_mark fun _ => .bind (keepsBraces_eat rfl) fun _ =>
    .bind (keepsBraces_since _) fun _ => .iterate (keepsBraces_declaredSegment _ _) _

/-- Whether parameters are ahead is told by looking. -/
theorem looks_parametersAhead (state : ParseState) :
    Leads parametersAhead state (fun _ next => next = state ∧ True) fun _ => True := by
  refine leads_ahead.2 ?_
  split
  iterate 3
    · exact ⟨rfl, trivial⟩
  · exact ⟨rfl, trivial⟩
  · split <;> exact ⟨rfl, trivial⟩
  · refine leads_table.2 (leads_lookupScope.2 ?_)
    split
    · split
      · exact ⟨rfl, trivial⟩
      · trivial
    · exact ⟨rfl, trivial⟩
  · exact ⟨rfl, trivial⟩

theorem keepsBraces_typedParameter (keep : rules.KeepBraces) (start : Span) :
    KeepsBraces many (typedParameter rules start) := by
  have rest (specs : DeclSpecs) : KeepsBraces many (do
      let declarator ← rules.declarator .parameter
      let hasDefault ← eat (.punct .equal)
      if hasDefault then skipExpression [.punct .comma, .punct .rightParen]
      return {
        name := declarator.id.map DeclaratorId.name
        type := specs.typeRef declarator
        hasDefault := hasDefault
        isVariadic := declarator.isPack
        start := start
        last := ← previousSpan } : ParseM ParsedParameter) :=
    .bind (keep.declarator _) fun _ => .bind (keepsBraces_eat rfl) fun _ =>
      .ite (.bind (keepsBraces_skipExpression _) fun _ => by simp) (by simp)
  refine .bind keepsBraces_skipAttributes fun _ =>
    .bind (keepsBraces_specifiers keep _) fun specs => ?_
  exact .ite (.bind keepsBraces_peek fun _ => .bind (.refuse _ _) fun _ => rest specs) (rest specs)

theorem keepsBraces_nextParameter (keep : rules.KeepBraces) (parameters : List ParsedParameter) :
    KeepsBraces many (nextParameter rules parameters) := by
  refine .bind keepsBraces_peek fun _ => .bind (keepsBraces_eat rfl) fun _ => .ite (.pure _) ?_
  refine .bind (keepsBraces_typedParameter keep _) fun parameter next => ?_
  refine (tellsOf_check (.punct .ellipsis)).choose (fun found => ?_)
    (KeepsBraces.onward ?_ (.refl next))
  · exact Onward.advance (.refl next) (by simp [found]) fun _ => .pure _
  · exact .bind (keepsBraces_eat rfl) fun _ => by simp

theorem keepsBraces_parameterList (keep : rules.KeepBraces) :
    KeepsBraces many (parameterList rules) := by
  have rest : KeepsBraces many (do
      if ← eat (.punct .rightParen) then
        return []
      else
        let parameters ← iterate (nextParameter rules) []
        let _ ← expect (.punct .rightParen)
        return parameters : ParseM (List ParsedParameter)) :=
    .bind (keepsBraces_eat rfl) fun _ => .ite (.pure _)
      (.bind (.iterate (keepsBraces_nextParameter keep) []) fun _ =>
        .bind (keepsBraces_expect rfl) fun _ => .pure _)
  refine .bind (keepsBraces_expect rfl) fun _ state => leads_check.2 (leads_checkAhead.2 ?_)
  split
  · rename_i empty
    rw [Bool.and_eq_true, beq_iff_eq] at empty
    exact Onward.nextToken (.refl state) (by simp [empty.1]) fun _ => rest
  · exact rest state

theorem onward_typeGroup {declarator : Declarator} (opens : state.cursor.peek.kind.opensGroup) :
    Onward many state (typeGroup declarator) state :=
  leads_mark.2 (Onward.bind (onward_skipGroup (.refl state) opens) fun _ =>
    .bind (keepsBraces_since _) fun _ => .pure _)

theorem keepsBraces_declaratorSuffix (keep : rules.KeepBraces) (mode : DeclaratorMode)
    (declarator : Declarator) : KeepsBraces many (declaratorSuffix rules mode declarator) := by
  refine fun state => leads_peek.2 ?_
  split
  · rename_i peek
    have opens : state.cursor.peek.kind.opensGroup := by rw [peek]; rfl
    split
    · exact KeepsBraces.pure _ state
    · split
      · refine Onward.look (looks_parametersAhead state) fun parameters _ => ?_
        split
        · exact KeepsBraces.bind (keepsBraces_parameterList keep) (fun _ => .pure _) state
        · exact (onward_skipGroup (.refl state) opens).bind fun _ => .pure _
      · exact onward_again (onward_typeGroup opens)
  · rename_i peek
    have opens : state.cursor.peek.kind.opensGroup := by rw [peek]; rfl
    refine leads_checkAhead.2 ?_
    split
    · exact KeepsBraces.bind keepsBraces_skipAttributes (fun _ => .pure _) state
    · split
      · exact KeepsBraces.pure _ state
      · exact onward_again (onward_typeGroup opens)
  · exact KeepsBraces.pure _ state

theorem tellsOf_nestedAhead : TellsOf (.punct .leftParen) nestedAhead := by
  refine fun state => leads_ifCheck (fun found => leads_ahead.2 ?_) fun _ => ⟨rfl, by simp⟩
  split
  · exact ⟨rfl, fun _ => found⟩
  · exact ⟨rfl, fun _ => found⟩

theorem onward_nestedDeclarator (keep : rules.KeepBraces) {mode : DeclaratorMode}
    {declarator : Declarator} (peek : state.cursor.peek.kind = .punct .leftParen) :
    Onward many state (nestedDeclarator rules mode declarator) state := by
  refine Onward.advance (.refl state) (by simp [peek]) fun opener =>
    .bind (keep.declarator mode) fun inner => .bind (keepsBraces_expect rfl) fun closer =>
      .bind keepsBraces_mark fun start next => leads_unread.2 ?_
  exact Onward.bind (onward_pass (.refl next) fun _ => Stretch.matching_suffixes _) fun _ =>
    .bind (keepsBraces_since _) fun _ => .pure _

@[simp] theorem keepsBraces_declaratorName (mode : DeclaratorMode) :
    KeepsBraces many (declaratorName mode) := by
  unfold declaratorName
  split
  · simp
  · refine .bind keepsBraces_peek fun token => ?_
    split <;> simp
  · simp

theorem keepsBraces_declarator (keep : rules.KeepBraces) (mode : DeclaratorMode) :
    KeepsBraces many (declarator rules mode) := by
  refine .bind keepsBraces_pointerOperators fun _ => .bind (keepsBraces_eat rfl) fun _ state => ?_
  refine tellsOf_nestedAhead.choose (fun found => onward_nestedDeclarator keep found)
    (KeepsBraces.onward ?_ (.refl state))
  exact .bind (keepsBraces_declaratorName mode) fun _ => .bind keepsBraces_skipAttributes fun _ =>
    .iterate (keepsBraces_declaratorSuffix keep mode) _

/-! ## Functions -/

@[simp] theorem keepsBraces_qualifierScope (id : DeclaratorId) :
    KeepsBraces many (qualifierScope id) := by
  unfold qualifierScope
  split <;> simp

theorem onward_trailingType (keep : rules.KeepBraces)
    (peek : state.cursor.peek.kind = .punct .arrow) :
    Onward many state (trailingType rules) state :=
  Onward.nextToken (.refl state) (by simp [peek]) fun _ =>
    .bind (keep.specifiers _) fun _ => .bind (keep.declarator _) fun _ => .pure _

theorem onward_functionWord {tail : FunctionTail} {token : Token}
    (peek : state.cursor.peek.kind = .identifier) :
    Onward many state (functionWord tail token) state := by
  have plain : state.cursor.peek.kind.isPlain many = true := by simp [peek]
  unfold functionWord
  split
  · exact Onward.nextToken (.refl state) plain fun _ => .pure _
  · split
    · exact Onward.nextToken (.refl state) plain fun _ => .pure _
    · split
      · exact Onward.nextToken (.refl state) plain fun _ =>
          .bind (keepsBraces_skipExpression _) fun _ => .pure _
      · split
        · exact KeepsBraces.bind keepsBraces_skipAttributes (fun _ => .pure _) state
        · exact KeepsBraces.pure _ state

theorem keepsBraces_functionItem (keep : rules.KeepBraces) (tail : FunctionTail) :
    KeepsBraces many (functionItem rules tail) := by
  refine fun state => leads_peek.2 ?_
  split
  iterate 2
    · rename_i peek
      exact Onward.nextToken (.refl state) (by simp [peek]) fun _ => .pure _
  iterate 2
    · rename_i peek
      exact Onward.nextToken (.refl state) (by simp [peek]) fun _ =>
        .bind (keepsBraces_skipGroupIf rfl) fun _ => .pure _
  · rename_i peek
    split
    · exact Onward.nextToken (.refl state) (by simp [peek]) fun _ => .pure _
    · exact KeepsBraces.pure _ state
  · rename_i peek
    exact onward_functionWord peek
  · rename_i peek
    exact (onward_trailingType keep peek).bind fun _ => .pure _
  · exact KeepsBraces.bind (keepsBraces_checkAhead _ _) (fun _ =>
      .ite (.bind keepsBraces_skipAttributes fun _ => .pure _) (.pure _)) state
  · exact KeepsBraces.pure _ state

theorem keepsBraces_functionMark : KeepsBraces many functionMark := by
  refine fun state =>
    leads_ifCheck (fun equal => leads_ahead.2 ?_) fun _ => KeepsBraces.pure _ state
  have read {result : Option (Specifier × Bool)}
      (plain : (state.cursor.ahead 1).kind.isPlain many = true) : Onward many state (do
        skip 2
        return result : ParseM (Option (Specifier × Bool))) state := by
    refine Onward.bind (onward_skip (.refl state) fun _ => state.cursor.matching_ahead ?_)
      fun _ => .pure _
    intro distance inside
    obtain rfl | rfl : distance = 0 ∨ distance = 1 := by omega
    · rw [show state.cursor.ahead 0 = state.cursor.peek from rfl]
      simp [equal]
    · exact plain
  split
  · rename_i value
    split
    · exact read (by simp [value])
    · trivial
  iterate 2
    · rename_i value
      exact read (by simp [value])
  · trivial

@[simp] theorem keepsBraces_bodyAhead : KeepsBraces many bodyAhead := by
  refine .bind keepsBraces_peek fun token => ?_
  split <;> exact .pure _

@[simp] theorem keepsBraces_skipBraces : KeepsBraces many skipBraces :=
  fun state => leads_ifCheck (fun opens => onward_skipGroup (.refl state) (by rw [opens]; rfl))
    onward_expect_other

@[simp] theorem keepsBraces_initializerSegment (round : Unit) :
    KeepsBraces many (initializerSegment round) :=
  .bind keepsBraces_expectIdentifier fun _ => .bind keepsBraces_jumpClosedArguments fun _ =>
    .bind (keepsBraces_eat rfl) fun _ => by simp

@[simp] theorem keepsBraces_constructorInitializer (round : Unit) :
    KeepsBraces many (constructorInitializer round) := by
  have rest : KeepsBraces many (do
      let _ ← eat (.punct .ellipsis)
      if ← eat (.punct .comma) then return .again () else return .done () :
        ParseM (Step Unit Unit)) :=
    .bind (keepsBraces_eat rfl) fun _ => .bind (keepsBraces_eat rfl) fun _ => by simp
  refine .bind (keepsBraces_eat rfl) fun _ => .bind (.iterate keepsBraces_initializerSegment ())
    fun _ state => leads_check.2 (leads_check.2 ?_)
  split
  · rename_i neither
    refine onward_expect_other ?_
    simp only [Bool.not_eq_true', Bool.or_eq_false_iff, beq_eq_false_iff_ne] at neither
    exact neither.1
  · rename_i either
    refine Onward.bind (onward_skipGroup (.refl state) ?_) fun _ => rest
    simp only [Bool.not_eq_true', Bool.not_eq_false, Bool.or_eq_true, beq_iff_eq] at either
    rcases either with opens | opens <;> rw [opens] <;> rfl

@[simp] theorem keepsBraces_exceptionHandler (round : Unit) :
    KeepsBraces many (exceptionHandler round) :=
  .bind (keepsBraces_eat rfl) fun _ => .ite (.bind (keepsBraces_skipGroupIf rfl) fun _ =>
    .bind keepsBraces_skipBraces fun _ => .pure _) (.pure _)

@[simp] theorem keepsBraces_skipBody : KeepsBraces many skipBody := by
  have rest (catches : Bool) : KeepsBraces many (do
      skipBraces
      if catches then iterate exceptionHandler () : ParseM Unit) :=
    .bind keepsBraces_skipBraces fun _ => .ite (.iterate keepsBraces_exceptionHandler ()) (.pure ())
  exact .bind (keepsBraces_eat rfl) fun _ => .bind (keepsBraces_eat rfl) fun _ =>
    .ite (.bind (.iterate keepsBraces_constructorInitializer ()) fun _ => rest _) (rest _)

@[simp] theorem keepsBraces_parameterSymbol (function : SymbolId) (parameter : ParsedParameter) :
    KeepsBraces many (parameterSymbol function parameter) := by
  unfold parameterSymbol
  split
  · exact .pure _
  · refine .bind keepsBraces_unit fun _ state => ?_
    exact Onward.attempt (keepsBraces_changeTable _ _ state) (fun _ => .pure _)
      fun _ _ => onward_report fun _ => .pure _

@[simp] theorem keepsBraces_addParameter (node : NodeId) (function : SymbolId)
    (parameter : ParsedParameter) : KeepsBraces many (addParameter node function parameter) :=
  .bind (keepsBraces_parameterSymbol _ _) fun _ => .bind (keepsBraces_addNodeUnder _ _ _) fun _ =>
    keepsBraces_finishNodeAt _ _

@[simp] theorem keepsBraces_addParameters (node : NodeId) (function : SymbolId)
    (parameters : List ParsedParameter) :
    KeepsBraces many (addParameters node function parameters) := by
  induction parameters with
  | nil => exact .pure ()
  | cons parameter rest ih => exact .bind (keepsBraces_addParameter _ _ _) fun _ => ih

@[simp] theorem keepsBraces_functionBody (node : NodeId) : KeepsBraces many (functionBody node) :=
  fun state => Onward.attempt (keepsBraces_skipBody state)
    (fun _ => .bind (keepsBraces_finishNode node) fun _ => .bind (.pure ()) fun _ => .pure _)
    fun _ _ => leads_behind fun _ _ => trivial

theorem keepsBraces_functionRest (keep : rules.KeepBraces) (specs : DeclSpecs)
    (declarator : Declarator) (id : DeclaratorId) (parameters : List ParsedParameter)
    (start : Span) : KeepsBraces many (functionRest rules specs declarator id parameters start) :=
  .bind (.iterate (keepsBraces_functionItem keep) _) fun _ => .bind keepsBraces_functionMark
    fun _ => .bind keepsBraces_bodyAhead fun _ => .bind (keepsBraces_qualifierScope id) fun _ =>
      .bind (keepsBraces_declare _ _ _) fun symbol => .bind (keepsBraces_addNode _ _) fun node =>
        .bind (keepsBraces_addParameters node symbol parameters) fun _ =>
          .ite (keepsBraces_functionBody node) (.pure _)

/-! ## Simple declarations -/

@[simp] theorem keepsBraces_declareForward (forward : ForwardTag) :
    KeepsBraces many (declareForward forward) :=
  .bind (keepsBraces_pathScope _) fun _ => .bind (keepsBraces_declare _ _ _) fun _ => .pure ()

@[simp] theorem keepsBraces_typedefDeclarator (specs : DeclSpecs) (declarator : Declarator)
    (id : DeclaratorId) (start : Span) :
    KeepsBraces many (typedefDeclarator specs declarator id start) :=
  .bind (keepsBraces_declare _ _ _) fun _ => .bind (keepsBraces_addNode _ _) fun _ => .pure _

@[simp] theorem keepsBraces_initializer (declarator : Declarator) :
    KeepsBraces many (initializer declarator) := by
  refine .ite (.pure _) (.bind (keepsBraces_eat rfl) fun _ => .ite ?_ fun state => ?_)
  · exact .bind (keepsBraces_skipExpression _) fun _ => .pure _
  · refine leads_ifCheck (fun opens => ?_) fun _ => KeepsBraces.pure _ state
    exact Onward.bind (onward_skipGroup (.refl state) (by rw [opens]; rfl)) fun _ => .pure _

@[simp] theorem keepsBraces_variableDeclarator (specs : DeclSpecs) (declarator : Declarator)
    (id : DeclaratorId) (start : Span) :
    KeepsBraces many (variableDeclarator specs declarator id start) := by
  have rest : KeepsBraces many (do
      let hasInitializer ← initializer declarator
      let scope ← qualifierScope id
      let declarationOnly ← isDeclarationOnly specs id hasInitializer
      let symbol ← declare
        { name := id.name
          kind := .var
          defined := !declarationOnly
          specialization := id.hasArguments } scope id.span
      let node ← addNode
        (.var ⟨id.name, id.qualifier.map Qualifier.text, specs.typeRef declarator,
          specs.specifiers, symbol, hasInitializer⟩) start
      return ⟨some node, false⟩ : ParseM InitDeclarator) :=
    .bind (keepsBraces_initializer _) fun _ => .bind (keepsBraces_qualifierScope id) fun _ =>
      .bind (.bind keepsBraces_className? fun _ => .pure _) fun _ =>
        .bind (keepsBraces_declare _ _ _) fun _ => .bind (keepsBraces_addNode _ _) fun _ => .pure _
  exact .bind (keepsBraces_eat rfl) fun _ =>
    .ite (.bind (keepsBraces_skipExpression _) fun _ => rest) rest

@[simp] theorem keepsBraces_dataDeclarator (specs : DeclSpecs) (declarator : Declarator)
    (id : DeclaratorId) (start : Span) :
    KeepsBraces many (dataDeclarator specs declarator id start) :=
  .ite (.refuse _ _) (.ite (keepsBraces_typedefDeclarator _ _ _ _)
    (keepsBraces_variableDeclarator _ _ _ _))

theorem keepsBraces_initDeclarator (keep : rules.KeepBraces) (specs : DeclSpecs) (start : Span) :
    KeepsBraces many (initDeclarator rules specs start) := by
  refine .bind (keepsBraces_declarator keep _) fun declarator => ?_
  split
  · simp
  · split
    · exact .ite (keepsBraces_dataDeclarator _ _ _ _) (keepsBraces_functionRest keep _ _ _ _ _)
    · exact keepsBraces_dataDeclarator _ _ _ _

@[simp] theorem keepsBraces_finishDeclarator (declared : InitDeclarator) :
    KeepsBraces many (finishDeclarator declared) := by
  unfold finishDeclarator
  split <;> simp

/-- Finishing a node leaves the cursor where it is. -/
theorem leads_finishDeclarator (declared : InitDeclarator) (state : ParseState) :
    Leads (finishDeclarator declared) state (fun _ next =>
      next.cursor = state.cursor ∧ next.errors = state.errors) fun _ => True := by
  unfold finishDeclarator
  split
  · exact ⟨rfl, rfl⟩
  · exact ⟨rfl, rfl⟩

theorem keepsBraces_declaratorItem (keep : rules.KeepBraces) (specs : DeclSpecs) (start : Span) :
    KeepsBraces true (declaratorItem rules specs start) := by
  refine .bind (keepsBraces_initDeclarator keep specs start) fun declared =>
    .ite (.pure _) fun state => leads_ifCheck (fun comma => ?_) fun _ => ?_
  · refine (leads_finishDeclarator declared state).bind fun _ next same => ?_
    refine Onward.nextToken (.of_eq same.1 same.2) (by simp [same.1, comma]) fun _ => ?_
    exact .bind keepsBraces_peek fun _ => .pure _
  · exact Onward.attempt (keepsBraces_expect rfl state)
      (fun _ => .bind (keepsBraces_finishDeclarator _) fun _ => .bind (.pure _) fun _ => .pure _)
      fun _ _ => leads_behind fun _ _ => trivial

/-- A friend is passed over behind its specifiers. -/
theorem Befriends.givesUp {next : ParseState} (friend : Befriends state next) :
    ∃ before : ParseState, state.KeepsBraces true before ∧ before.GivesUp next := by
  obtain ⟨before, peek, front, behind⟩ := friend
  refine ⟨before, front.widen, fun quiet => ?_⟩
  obtain ⟨first, read⟩ := behind quiet
  refine ⟨first, fun sound => ?_⟩
  obtain ⟨after, matching⟩ := read (sound.skip 1)
  obtain ⟨word, specifiers, unread, kind⟩ := sound.exists_next (by simp) peek
  have skipped : before.next.cursor.unread = specifiers := by simp [ParseState.next, unread]
  rw [skipped] at matching
  rw [unread]
  exact ⟨after, .friend kind (.plain (by rw [kind]; rfl) matching.within)⟩

theorem keepsBraces_simpleDeclaration (keep : rules.KeepBraces) (start : Span) :
    KeepsBraces true (simpleDeclaration rules start) := by
  refine fun state => (leads_specifiers keep _ state).bind fun specs next read => ?_
  by_cases friend : specs.specifiers.contains .friend = true
  · obtain ⟨before, front, givesUp⟩ := (read.2 friend).givesUp
    rw [if_pos friend]
    exact onward_synchronize front givesUp
  · rw [if_neg friend]
    refine KeepsBraces.onward (.bind (keepsBraces_eat rfl) fun _ => .ite ?_ ?_) read.1.widen
    · split <;> simp
    · exact .iterate (keepsBraces_declaratorItem keep specs) _

end ParseM

end DeclTree
