import DeclTree.Proofs.TokenSpans

/-!
# What a parse takes from its tokens

All that a parse knows of a source it takes from the tokens around its cursor.  The spans that it
points at are those of tokens, or cover two of them, and the texts that it keeps in nodes are
spelled from tokens that it has read.  So what holds of the tokens of a source, and with them of
spans and of spelled texts, is carried to all that a parse reports and keeps.
-/

namespace DeclTree

/-- The texts of a node that are spelled from tokens: names that a declarator may give, and types,
qualifiers and paths. -/
def NodeKind.spellings : NodeKind → List String
  | .classType declaration => declaration.bases.map TypeRef.text
  | .enumType declaration => declaration.underlying.toList.map TypeRef.text
  | .function declaration =>
      declaration.name :: declaration.qualifier.toList ++
        declaration.returnType.toList.map TypeRef.text
  | .parameter declaration => declaration.name.toList ++ [declaration.type.text]
  | .var declaration => declaration.name :: declaration.qualifier.toList ++ [declaration.type.text]
  | .typedef declaration => [declaration.name, declaration.type.text]
  | .usingDirective declaration => [declaration.path]
  | .templateParameter declaration =>
      declaration.name.toList ++ declaration.type.toList.map TypeRef.text
  | .translationUnit .. | .namespaceScope _ | .linkage _ | .enumerator _ | .template _ => []

/-- What holds of the tokens of a source, of the spans that are pointed at, and of the texts that
are spelled. -/
structure Origin where
  token : Token → Prop
  span : Span → Prop
  text : String → Prop
  half : ∀ {shift half : Token}, token shift → shift.kind = .punct .greaterGreater →
    half ∈ Cursor.shiftHalves shift → token half
  place : ∀ {found : Token}, token found → span found.span
  merge : ∀ {left right : Span}, span left → span right → span (left.merge right)
  dots : ∀ {mark : Token}, token mark → mark.kind = .punct .ellipsis → text "..."
  destructor : ∀ {mark name : Token}, token mark → mark.kind = .punct .tilde →
    token name → name.kind = .identifier → text ("~" ++ name.lexeme)
  spelled : ∀ {tokens : List Token},
    (∀ found ∈ tokens, token found ∧ found.kind ≠ .eof) → text (spell tokens)

namespace Origin

variable {origin : Origin}

/-- Whether a token can be read: it is not the end of the text. -/
def Reads (origin : Origin) (token : Token) : Prop :=
  origin.token token ∧ token.kind ≠ .eof

def ReadsAll (origin : Origin) (tokens : List Token) : Prop :=
  ∀ token ∈ tokens, origin.Reads token

theorem lexeme {token : Token} (read : origin.Reads token) : origin.text token.lexeme := by
  have single : spell [token] = token.lexeme := by simp [spell, spellAfter]
  exact single ▸ origin.spelled (List.forall_mem_singleton.2 read)

theorem ReadsAll.append {first second : List Token} (left : origin.ReadsAll first)
    (right : origin.ReadsAll second) : origin.ReadsAll (first ++ second) :=
  fun token member => (List.mem_append.1 member).elim (left token) (right token)

theorem ReadsAll.cons {first : Token} {rest : List Token} (head : origin.Reads first)
    (tail : origin.ReadsAll rest) : origin.ReadsAll (first :: rest) :=
  List.forall_mem_cons.2 ⟨head, tail⟩

theorem readsAll_nil : origin.ReadsAll [] :=
  fun _ member => absurd member List.not_mem_nil

theorem readsAll_singleton {token : Token} (read : origin.Reads token) :
    origin.ReadsAll [token] :=
  .cons read readsAll_nil

end Origin

/-! ## Cursors -/

namespace Cursor

/-- Whether the tokens around a cursor are known, and those that are read or to be read are not the
end of the text. -/
structure From (origin : Origin) (cursor : Cursor) : Prop where
  consumed : origin.ReadsAll cursor.consumed
  unread : origin.ReadsAll cursor.unread
  final : origin.token cursor.final

namespace From

variable {origin : Origin} {cursor start : Cursor}

theorem buffer (known : cursor.From origin) : ∀ token ∈ cursor.buffer, origin.token token := by
  intro token member
  rcases mem_buffer.1 member with read | more | rfl
  · exact (known.consumed token read).1
  · exact (known.unread token more).1
  · exact known.final

theorem ahead (known : cursor.From origin) (distance : Nat) :
    origin.token (cursor.ahead distance) :=
  known.buffer _ (cursor.ahead_mem_buffer distance)

theorem since (known : cursor.From origin) (mark : Nat) : origin.ReadsAll (cursor.since mark) :=
  fun token member => known.consumed token (List.mem_of_mem_take (List.mem_reverse.1 member))

theorem previousSpan (known : cursor.From origin) : origin.span cursor.previousSpan := by
  unfold Cursor.previousSpan
  split
  · exact origin.place (known.ahead 0)
  · rename_i token rest consumed
    exact origin.place (known.consumed token (by simp [consumed])).1

theorem skip (known : cursor.From origin) (count : Nat) : (cursor.skip count).From origin where
  consumed := .append
    (fun token member => known.unread token (List.mem_of_mem_take (List.mem_reverse.1 member)))
    known.consumed
  unread token member := known.unread token (List.mem_of_mem_drop member)
  final := known.final

theorem splitShift (known : cursor.From origin)
    (closes : cursor.peek.kind = .punct .greaterGreater) : cursor.splitShift.From origin := by
  unfold Cursor.splitShift
  split
  · exact known
  · rename_i token rest unread
    have shift : token.kind = .punct .greaterGreater := by
      simpa [peek, Cursor.ahead, unread] using closes
    have first : origin.token token := (known.unread token (by simp [unread])).1
    refine ⟨known.consumed, .append (fun half member => ?_) fun other member =>
      known.unread other (by simp [unread, member]), known.final⟩
    exact ⟨origin.half first shift member, by simp [kind_of_mem_shiftHalves member]⟩

theorem moves (known : start.From origin) (moves : start.Moves cursor) : cursor.From origin := by
  induction moves with
  | refl => exact known
  | skip _ _ ih => exact ih.skip _
  | split _ closes ih => exact ih.splitShift closes

end From

end Cursor

/-- The cursor in front of a source stands among its tokens that are no errors. -/
theorem ParseState.from_startCursor {origin : Origin} {dialect : Dialect} {source : String}
    (known : ∀ token ∈ (TokenStream.ofSource dialect source).tokens,
      token.kind ≠ .invalid → origin.token token) :
    (startCursor (TokenStream.ofSource dialect source)).From origin := by
  obtain ⟨body, final, stream, kind, _, _⟩ :=
    TokenStream.spaced_ofReader dialect (.ofSource source)
  have tokens : (TokenStream.ofSource dialect source).tokens = body ++ [final] := stream
  constructor
  case consumed => exact Origin.readsAll_nil
  case unread =>
    intro token member
    simp only [startCursor, Cursor.ofTokens, List.mem_filter, bne_iff_ne] at member
    exact ⟨known token member.1.1 member.1.2, member.2⟩
  case final =>
    have last : (startCursor (TokenStream.ofSource dialect source)).final = final := by
      simp [startCursor, Cursor.ofTokens, tokens, kind]
    rw [last]
    exact known final (by simp [tokens]) (by simp [kind])

/-! ## Trees -/

namespace Tree

/-- Whether the texts of all nodes are spelled as they should be. -/
def From (origin : Origin) (tree : Tree) : Prop :=
  ∀ id node, tree.get? id = some node → ∀ text ∈ node.kind.spellings, origin.text text

namespace From

variable {origin : Origin} {tree : Tree}

theorem update (known : tree.From origin) (id : NodeId) {change : Node → Node}
    (same : ∀ node, (change node).kind.spellings = node.kind.spellings) :
    (tree.update id change).From origin := by
  intro other node found
  rw [get?_update] at found
  split at found
  · obtain ⟨before, there, rfl⟩ := Option.map_eq_some_iff.1 found
    rw [same]
    exact known other before there
  · exact known other node found

theorem add (known : tree.From origin) {kind : NodeKind}
    (spelled : ∀ text ∈ kind.spellings, origin.text text) (parent : NodeId) (start : Span) :
    (tree.add kind parent start).2.From origin := by
  apply update
  · intro id node found
    rw [get?, Array.getElem?_push] at found
    split at found
    · obtain rfl := Option.some.inj found
      exact spelled
    · exact known id node found
  · exact fun _ => rfl

theorem finish (known : tree.From origin) (id : NodeId) (last : Span) :
    (tree.finish id last).From origin := by
  apply known.update
  intro node
  split <;> rfl

theorem finishRoot (known : tree.From origin) (offset line : Nat) :
    (tree.finishRoot offset line).From origin :=
  known.update root fun _ => rfl

theorem updateTemplate (known : tree.From origin) (id : NodeId)
    (change : TemplateDecl → TemplateDecl) : (tree.updateTemplate id change).From origin := by
  apply known.update
  intro node
  split
  · rename_i template
    simp [template, NodeKind.spellings]
  · rfl

end From

theorem from_empty (origin : Origin) (unit : UnitId) : (empty unit).From origin := by
  intro id node found
  have single : node.kind = .translationUnit unit SymbolTable.root := by
    obtain ⟨index⟩ := id
    cases index with
    | zero =>
        obtain rfl := Option.some.inj found
        rfl
    | succ index => simp [get?, empty] at found
  rw [single]
  exact fun _ member => absurd member List.not_mem_nil

end Tree

end DeclTree
