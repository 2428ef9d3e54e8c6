import DeclTree.Proofs.MirroredTemplates
import DeclTree.Parse.Declaration

/-!
# Declarations behind another source

All forms of declaration do the same behind another source, so that rules nested deep enough for
the source on its own do so as well.
-/

namespace DeclTree

namespace ParseM

variable {α β : Type} {front : Front} {start stop : Bool} {rules mirrored : Rules}

/-! ## Namespaces -/

theorem mirrors_openNamespace (span : Span) (name : String) (isInline : Bool) :
    Mirrors front start start (openNamespace span name isInline)
      (openNamespace (front.displacement.move span) name isInline) := by
  have rest (symbol : SymbolId) : Mirrors front start start
      (do
        let node ← addNode (.namespaceScope ⟨name, isInline, symbol⟩) span
        pushScope ⟨node, symbol, .container, .namespaceScope⟩
        return node)
      (do
        let node ← addNode (.namespaceScope ⟨name, isInline, symbol⟩)
          (front.displacement.move span)
        pushScope ⟨node, symbol, .container, .namespaceScope⟩
        return node) :=
    (mirrors_addNode (.namespaceScope ⟨name, isInline, symbol⟩) span).bind fun node =>
      (mirrors_pushScope ⟨node, symbol, .container, .namespaceScope⟩).bind fun _ => .pure rfl
  refine (mirrors_checkNesting span).bind fun _ => mirrors_lookupScope.bind fun parent =>
    mirrors_unit.bind fun unit => (mirrors_changeTable span
      (fun _ => SymbolTable.openNamespace_relabel parent name (some unit))
      fun _ _ _ opened => SymbolTable.keepsOrigins_openNamespace opened).bind fun symbol => ?_
  exact .ite (fun _ => .modifyTable (fun _ => SymbolTable.addUsing_relabel parent symbol)
    (fun _ => SymbolTable.keepsOrigins_addUsing parent symbol) (rest symbol)) fun _ => rest symbol

theorem mirrors_closeNamespaces (nodes : List NodeId) :
    Mirrors front true true (closeNamespaces nodes)
      (closeNamespaces (front.displacement.move nodes)) := by
  induction nodes with
  | nil => exact .pure rfl
  | cons node outer ih =>
      exact mirrors_popScope.bind fun _ => (mirrors_finishNode node).bind fun _ => ih

theorem mirrors_openNamespaces (span : Span) (entered : List NodeId)
    (segments : List (String × Bool)) :
    Mirrors front true true (openNamespaces span entered segments)
      (openNamespaces (front.displacement.move span) (front.displacement.move entered)
        segments) := by
  induction segments generalizing entered with
  | nil => exact .pure rfl
  | cons segment rest ih =>
      refine (mirrors_openNamespace span segment.1 segment.2).attempt.bind fun outcome => ?_
      cases outcome with
      | ok node => exact ih (node :: entered)
      | error error =>
          exact (mirrors_closeNamespaces entered).bind fun _ => .resume (.error error)

theorem mirrors_namespaceSegment (segments : List (String × Bool)) :
    MirrorsAs front start start (Step.map id id) (namespaceSegment segments)
      (namespaceSegment segments) :=
  (mirrors_eat _).bind fun _ => .ite (fun _ => (mirrors_eat _).bind fun _ =>
    mirrors_expectIdentifier.bind fun _ => .pure rfl) fun _ => .pure rfl

theorem mirrors_namespaceSegments (isInline : Bool) :
    MirrorsAs front start start id (namespaceSegments isInline) (namespaceSegments isInline) :=
  mirrors_peek.bind fun _ => (mirrors_eat _).bind fun _ =>
    .ite (fun _ => .iterate mirrors_namespaceSegment _) fun _ => .pure rfl

theorem mirrors_namespaceBody (mirror : rules.Mirror front mirrored) (span : Span)
    (isInline : Bool) :
    Mirrors front true true (namespaceBody rules span isInline)
      (namespaceBody mirrored (front.displacement.move span) isInline) := by
  have rest (segments : List (String × Bool)) : Mirrors front true true
      (do
        let nodes ← openNamespaces span [] segments
        let _ ← expect (.punct .leftBrace)
        rules.declarations true
        let _ ← eat (.punct .rightBrace)
        closeNamespaces nodes)
      (do
        let nodes ← openNamespaces (front.displacement.move span) [] segments
        let _ ← expect (.punct .leftBrace)
        mirrored.declarations true
        let _ ← eat (.punct .rightBrace)
        closeNamespaces nodes) :=
    (mirrors_openNamespaces span [] segments).bind fun nodes => (mirrors_expect _).behind fun _ =>
      (mirror.declarations true).bind fun _ => (mirrors_eat _).bind fun _ =>
        mirrors_closeNamespaces nodes
  exact (mirrors_namespaceSegments isInline).bind fun segments => mirrors_skipAttributes.bind
    fun _ => (mirrors_check _).bind fun _ =>
      .ite (fun _ => (mirrors_expect _).behind fun _ => rest segments) fun _ => rest segments

theorem mirrors_namespaceDeclaration (mirror : rules.Mirror front mirrored) (span : Span)
    (isInline : Bool) :
    Mirrors front start stop (namespaceDeclaration rules span isInline)
      (namespaceDeclaration mirrored (front.displacement.move span) isInline) :=
  (mirrors_expect _).behind fun _ => mirrors_skipAttributes.bind fun _ => (mirrors_check _).bind
    fun _ => (mirrors_checkAhead _ _).bind fun _ => .ite (fun _ => mirrors_synchronize) fun _ =>
      mirrors_namespaceBody mirror span isInline

/-! ## Linkage -/

theorem mirrors_linkageContent (mirror : rules.Mirror front mirrored) :
    Mirrors front start start (linkageContent rules) (linkageContent mirrored) :=
  (mirrors_eat _).bind fun _ => .ite (fun _ => (mirror.declarations true).bind fun _ =>
    (mirrors_eat _).bind fun _ => .pure rfl) fun _ => mirror.declaration

theorem mirrors_linkageDeclaration (mirror : rules.Mirror front mirrored) (span : Span) :
    Mirrors front start stop (linkageDeclaration rules span)
      (linkageDeclaration mirrored (front.displacement.move span)) :=
  (mirrors_expect _).behind fun _ => (mirrors_expect _).behind fun literal =>
    (mirrors_checkNesting span).bind fun _ => mirrors_lookupScope.bind fun symbol =>
      (mirrors_addNode (.linkage (trimQuotes literal.lexeme)) span).bind fun node =>
        (mirrors_pushScope ⟨node, symbol, .container, .linkage⟩).bind fun _ =>
          (mirrors_linkageContent mirror).attempt.bind fun result =>
            mirrors_popScope.bind fun _ => (mirrors_finishNode node).bind fun _ => .resume result

/-! ## Using -/

theorem mirrors_resolveNamespace? (path : NamePath) :
    MirrorsAs front start start id (resolveNamespace? path)
      (resolveNamespace? (front.displacement.move path)) := by
  refine (mirrors_resolve? path).bind fun target => ?_
  cases target with
  | none => exact .pure rfl
  | some target =>
      refine mirrors_table.bind fun table => ?_
      rw [SymbolTable.get?_relabel]
      cases table.get? target with
      | none => exact .stuck
      | some symbol => exact .pure rfl

theorem mirrors_usingDirective (span : Span) :
    Mirrors front start stop (usingDirective span)
      (usingDirective (front.displacement.move span)) := by
  refine mirrors_namePath.behind fun path => (mirrors_expect _).attempt.bind fun terminated =>
    mirrors_lookupScope.bind fun scope => (mirrors_resolveNamespace? path).bind fun target => ?_
  have rest : Mirrors front true true
      (do
        let node ← addNode (.usingDirective ⟨path.text, target⟩) span
        finishNode node
        let _ ← resume terminated)
      (do
        let node ← addNode (.usingDirective ⟨path.text, target⟩) (front.displacement.move span)
        finishNode node
        let _ ← resume (front.displacement.move terminated)) :=
    (mirrors_addNode (.usingDirective ⟨path.text, target⟩) span).bind fun node =>
      (mirrors_finishNode node).bind fun _ => (MirrorsAs.resume terminated).bind fun _ => .pure rfl
  rw [front.displacement.text_move]
  cases target with
  | none => exact rest
  | some target =>
      exact .modifyTable (fun _ => SymbolTable.addUsing_relabel scope target)
        (fun _ => SymbolTable.keepsOrigins_addUsing scope target) rest

theorem mirrors_aliasDeclaration (mirror : rules.Mirror front mirrored) (span : Span) :
    Mirrors front start stop (aliasDeclaration rules span)
      (aliasDeclaration mirrored (front.displacement.move span)) := by
  refine mirrors_expectIdentifier.behind fun name => mirrors_skipAttributes.bind fun _ =>
    (mirrors_expect _).behind fun _ => (mirrors_specifiers mirror _).bind fun specs => ?_
  have rest : Mirrors front true true
      (do
        let declarator ← declarator rules .abstract
        let symbol ← declare { name := name.lexeme, kind := .typedef } none name.span
        let node ← addNode (.typedef ⟨name.lexeme, specs.typeRef declarator, symbol⟩) span
        let terminated ← attempt (expect (.punct .semicolon))
        finishNode node
        let _ ← resume terminated)
      (do
        let declarator ← declarator mirrored .abstract
        let symbol ← declare { name := name.lexeme, kind := .typedef } none
          (front.displacement.move name.span)
        let node ← addNode
          (.typedef ⟨name.lexeme, (front.displacement.move specs).typeRef declarator, symbol⟩)
          (front.displacement.move span)
        let terminated ← attempt (expect (.punct .semicolon))
        finishNode node
        let _ ← resume terminated) := by
    refine (mirrors_declarator mirror _).bind fun declarator =>
      (mirrors_declare _ none name.span).bind fun symbol => ?_
    rw [typeRef_move]
    exact (mirrors_addNode (.typedef ⟨name.lexeme, specs.typeRef declarator, symbol⟩) span).bind
      fun node => (mirrors_expect _).attempt.bind fun terminated =>
        (mirrors_finishNode node).bind fun _ =>
          (MirrorsAs.resume terminated).bind fun _ => .pure rfl
  exact .ite (fun _ => mirrors_peek.bind fun found => .refuses _ found.span) fun _ => rest

theorem mirrors_aliasAhead : Mirrors front start start aliasAhead aliasAhead :=
  (mirrors_ahead 1).bind fun _ => (mirrors_check _).bind fun _ => .pure rfl

theorem mirrors_usingDeclaration (mirror : rules.Mirror front mirrored) (span : Span) :
    Mirrors front start stop (usingDeclaration rules span)
      (usingDeclaration mirrored (front.displacement.move span)) :=
  (mirrors_expect _).behind fun _ => (mirrors_eat _).bind fun _ =>
    .ite (fun _ => mirrors_usingDirective span) fun _ => mirrors_aliasAhead.bind fun _ =>
      .ite (fun _ => mirrors_aliasDeclaration mirror span) fun _ => mirrors_synchronize

/-! ## All declarations -/

theorem mirrors_exportedDeclarations (mirror : rules.Mirror front mirrored) :
    Mirrors front start start (exportedDeclarations rules) (exportedDeclarations mirrored) :=
  (mirrors_skip 1).bind fun _ => (mirrors_eat _).bind fun _ =>
    .ite (fun _ => (mirror.declarations true).bind fun _ => (mirrors_expect _).bind fun _ =>
      .pure rfl) fun _ => mirror.declaration

theorem mirrors_keywordDeclaration (mirror : rules.Mirror front mirrored) (span : Span)
    (word : Keyword) (next : TokenKind) :
    Mirrors front start start (keywordDeclaration rules span word next)
      (keywordDeclaration mirrored (front.displacement.move span) word next) := by
  unfold keywordDeclaration
  split
  · exact mirrors_namespaceDeclaration mirror span false
  · exact .ite (fun _ => (mirrors_skip 1).bind fun _ =>
      mirrors_namespaceDeclaration mirror span true) fun _ => mirrors_simpleDeclaration mirror span
  · exact .ite (fun _ => mirrors_linkageDeclaration mirror span) fun _ =>
      .ite (fun _ => mirrors_synchronize) fun _ => mirrors_simpleDeclaration mirror span
  · exact .ite (fun _ => (mirrors_skip 1).bind fun _ =>
      mirrors_templateDeclaration mirror span true)
      fun _ => mirrors_exportedDeclarations mirror
  · exact mirrors_templateDeclaration mirror span false
  · exact mirrors_usingDeclaration mirror span
  iterate 2
    · exact mirrors_synchronize
  iterate 3
    · exact .ite (fun _ => mirrors_skip 2) fun _ => mirrors_simpleDeclaration mirror span
  · exact mirrors_simpleDeclaration mirror span

theorem mirrors_declaration (mirror : rules.Mirror front mirrored) :
    Mirrors front start start (declaration rules) (declaration mirrored) := by
  refine mirrors_skipAttributes.bind fun _ => mirrors_peek.bind fun token =>
    (mirrors_ahead 1).bind fun next => ?_
  simp only [Displacement.kind_move, Displacement.lexeme_move]
  split
  · exact mirrors_skip 1
  · exact mirrors_keywordDeclaration mirror token.span _ next.kind
  · exact .ite (fun _ => mirrors_synchronize) fun _ => mirrors_simpleDeclaration mirror token.span
  · exact mirrors_simpleDeclaration mirror token.span

theorem mirrors_declarationItem (mirror : rules.Mirror front mirrored) (closing : Bool)
    (round : Unit) :
    MirrorsAs front start start (Step.map id id) (declarationItem rules closing round)
      (declarationItem mirrored closing round) := by
  refine mirrors_peek.bind fun token => ?_
  simp only [Displacement.kind_move]
  split
  · exact .ite (fun _ => (mirrors_complain _ token.span).bind fun _ => .pure rfl) fun _ => .pure rfl
  · exact .ite (fun _ => .pure rfl) fun _ => (mirrors_skip 1).bind fun _ =>
      (mirrors_complain _ token.span).bind fun _ => .pure rfl
  · refine (mirrors_declaration mirror).attempt.bind fun outcome => ?_
    cases outcome with
    | ok value => exact .pure rfl
    | error error =>
        exact (mirrors_report error).bind fun _ => mirrors_synchronize.bind fun _ => .pure rfl

theorem mirrors_declarations (mirror : rules.Mirror front mirrored) (closing : Bool) :
    Mirrors front start start (declarations rules closing) (declarations mirrored closing) :=
  MirrorsAs.iterate (mirrors_declarationItem mirror closing) ()

end ParseM

namespace Rules

open ParseM

theorem Mirror.nest {front : Front} {rules mirrored : Rules}
    (mirror : rules.Mirror front mirrored) :
    rules.nest.Mirror front mirrored.nest where
  specifiers := mirrors_specifiers mirror
  declarator := mirrors_declarator mirror
  declaration := mirrors_declaration mirror
  templateDeclaration span exported := mirrors_templateDeclaration mirror span exported
  declarations := mirrors_declarations mirror

/-- Rules nested deep enough for a source on its own are so behind another one. -/
theorem mirror_ofDepth (front : Front) {depth more : Nat} (le : depth ≤ more) :
    (ofDepth depth).Mirror front (ofDepth more) := by
  induction depth generalizing more with
  | zero =>
      exact {
        specifiers := fun _ => .stuck
        declarator := fun _ => .stuck
        declaration := .stuck
        templateDeclaration := fun _ _ => .stuck
        declarations := fun _ => .stuck }
  | succ depth ih =>
      obtain ⟨more, rfl⟩ : ∃ rest, more = rest + 1 := ⟨more - 1, by omega⟩
      exact (ih (Nat.le_of_succ_le_succ le)).nest

end Rules

end DeclTree
