import DeclTree.Proofs.CountedUnits
import DeclTree.Proofs.SpelledTokens

/-!
# Texts of nodes read back

Types, qualifiers, paths and the names that declarators give are kept as texts.  A parse spells
them from tokens of its source and from the halves of those it has split.  So each of them is read
back as these tokens if none goes on with the next one where no blank is put between the two.
-/

namespace DeclTree

/-- The texts that are spelled from some tokens, or from halves of them. -/
def SpelledFrom (tokens : List Token) (text : String) : Prop :=
  ∃ spelled : List Token,
    (∀ token ∈ spelled, token.PartOf tokens ∧ token.kind ≠ .eof) ∧ text = spell spelled

section

variable {dialect : Dialect} {source : String} {token : Token}

theorem Token.PartOf.lexeme_eq
    (part : token.PartOf (TokenStream.ofSource dialect source).valid) {mark : Punct}
    (kind : token.kind = .punct mark) : token.lexeme = String.ofList mark.spelling := by
  have scanned := part.scanned (by simp [kind])
  rw [← scanned.toList_punct kind, String.ofList_toList]

/-- The name of a destructor is spelled as its mark and the name of its class are. -/
theorem spell_destructor {mark name : Token}
    (part : mark.PartOf (TokenStream.ofSource dialect source).valid)
    (tilde : mark.kind = .punct .tilde) (identifier : name.kind = .identifier) :
    spell [mark, name] = "~" ++ name.lexeme := by
  have text : mark.lexeme = "~" := part.lexeme_eq tilde
  have tight : mark.needsSpace name = false := by
    simp [Token.needsSpace, Token.isWord, text, tilde, identifier, TokenKind.isQualifier]
  simp [spell, spellAfter, tight, text]

end

/-- The tokens of a source and the halves of those that may be split, with the texts that are
spelled from them. -/
def Origin.ofSpellings (dialect : Dialect) (source : String) : Origin where
  token := Token.PartOf (TokenStream.ofSource dialect source).valid
  span _ := True
  text := SpelledFrom (TokenStream.ofSource dialect source).valid
  half part shift member := part.half shift member
  place _ := trivial
  merge _ _ := trivial
  dots {mark} part kind := by
    refine ⟨[mark], List.forall_mem_singleton.2 ⟨part, by simp [kind]⟩, ?_⟩
    have text : mark.lexeme = "..." := part.lexeme_eq kind
    simp [spell, spellAfter, text]
  destructor {mark name} part tilde named identifier := by
    refine ⟨[mark, name], ?_, (spell_destructor part tilde identifier).symm⟩
    exact List.forall_mem_cons.2
      ⟨⟨part, by simp [tilde]⟩, List.forall_mem_singleton.2 ⟨named, by simp [identifier]⟩⟩
  spelled known := ⟨_, known, rfl⟩

theorem ParseState.spellings_start (options : ParseOptions) (table : SymbolTable) (unit : UnitId)
    (source : String) :
    (start options table unit source).From (.ofSpellings options.dialect source) where
  cursor := from_startCursor fun _ member right =>
    .inl (List.mem_filter.2 ⟨member, by simpa using right⟩)
  errors _ _ := trivial
  tree := Tree.from_empty _ unit

/-- All texts of a unit are spelled from tokens of its source. -/
theorem spelled_parseUnit (options : ParseOptions) (table : SymbolTable) (unit : UnitId)
    (source : String) {id : NodeId} {node : Node}
    (found : (parseUnit options table unit source).tree.get? id = some node) :
    ∀ text ∈ node.kind.spellings,
      SpelledFrom (TokenStream.ofSource options.dialect source).valid text :=
  ((ParseState.spellings_start options table unit source).finish.tree.finishRoot _ _) id node found

/-- In every source of less than 2 ^ 32 - 1 bytes, the types, qualifiers and paths of nodes and the
names that declarators give are spelled from tokens, or from halves of split ones.  Such tokens are
read back from what is spelled from them, two closing marks as one, if the first is no `#`, none
goes on with the next one where no blank is put between the two, and their text is as short. -/
theorem spellings_parseUnit? (options : ParseOptions) (table : SymbolTable) (unit : UnitId)
    {source : String} (short : source.utf8ByteSize < counterRange - 1) :
    ∃ stream parsed, TokenStream.ofSource? options.dialect source = some stream ∧
      parseUnit? options table unit source = some parsed ∧
      (∀ id node, parsed.tree.get? id = some node → ∀ text ∈ node.kind.spellings,
        SpelledFrom stream.valid text) ∧
      ∀ tokens : List Token, (∀ token ∈ tokens, token.PartOf stream.valid ∧ token.kind ≠ .eof) →
        (∀ token ∈ tokens.head?, token.kind ∉ [.punct .hash, .punct .hashHash]) →
        tokens.IsChain Token.Separates → (spell tokens).utf8ByteSize < counterRange - 1 →
        ∃ again, TokenStream.ofSource? options.dialect (spell tokens) = some again ∧
          again.errors = [] ∧ again.words = readBack tokens ++ [(.eof, "")] := by
  refine ⟨_, _, TokenStream.ofSource?_eq _ short, parseUnit?_eq options table unit short,
    fun _ _ found => spelled_parseUnit options table unit source found, ?_⟩
  intro tokens known plain separate brief
  exact ⟨_, TokenStream.ofSource?_eq _ brief, TokenStream.words_spell
    (fun token member => (known token member).1) (fun token member => (known token member).2)
    plain separate⟩

/-- A variable whose type has a number, an encoded character, a qualifier, a mark in front of
another one, and two closing marks that are read as one. -/
def denseSource : String :=
  "map < A :: B, vec<const unsigned (*)[0x1e + 2], L'a'>> && x;"

/-- The tokens of that source, with the closing marks apart. -/
def denseTokens : List Token :=
  ((TokenStream.ofSource .cpp denseSource).tokens.filter (·.kind != .eof)).flatMap fun token =>
    if token.kind = .punct .greaterGreater then Cursor.shiftHalves token else [token]

theorem spellings_parseUnit?_dense :
    denseSource.utf8ByteSize < counterRange - 1 ∧
      ∃ stream parsed, TokenStream.ofSource? .cpp denseSource = some stream ∧
        parseUnit? {} .empty ⟨0⟩ denseSource = some parsed ∧
        (∀ id node, parsed.tree.get? id = some node → ∀ text ∈ node.kind.spellings,
          SpelledFrom stream.valid text) ∧
        ∃ again, TokenStream.ofSource? .cpp (spell denseTokens) = some again ∧
          again.errors = [] ∧ again.words = readBack denseTokens ++ [(.eof, "")] := by
  have short : denseSource.utf8ByteSize < counterRange - 1 := by decide +kernel
  obtain ⟨stream, parsed, lexed, read, texts, back⟩ :=
    spellings_parseUnit? {} .empty ⟨0⟩ short
  have same : stream = TokenStream.ofSource .cpp denseSource :=
    Option.some.inj (lexed.symm.trans (TokenStream.ofSource?_eq .cpp short))
  refine ⟨short, stream, parsed, lexed, read, texts, back denseTokens ?_ ?_ ?_ ?_⟩
  · rw [same]
    unfold Token.PartOf
    decide +kernel
  · decide +kernel
  · decide +kernel
  · decide +kernel

-- What stands on both sides of a name makes one text, without needless blanks.
example : ((parseSource "const unsigned (* x)[0x1e + 2];").tree.nodes.toList.flatMap
    fun node => node.kind.spellings) = ["x", "const unsigned(*)[0x1e+2]"] := by
  decide +kernel

end DeclTree
