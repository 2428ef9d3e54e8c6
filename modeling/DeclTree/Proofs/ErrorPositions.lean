import DeclTree.Proofs.SourcePositions
import DeclTree.Proofs.TruthfulUnits

/-!
# Positions in tokens and errors are right

The tokens of a source tell where they stand, and so do the halves of those that may be split and
the spans that cover two of them.  A parse takes all spans from its tokens.  So the tokens it
reads, those it splits on the way, and all the errors it returns tell where they are.
-/

namespace DeclTree

/-- The tokens and spans of a source that tell where they are, with any texts. -/
def Origin.ofPositions (source : String) : Origin where
  token := Token.Located source
  span := Span.Located source
  text _ := True
  half located shift member := located.half shift member
  place located := located.span
  merge := Span.Located.merge
  dots _ _ := trivial
  destructor _ _ _ _ := trivial
  spelled _ := trivial

theorem ParseState.positions_start (options : ParseOptions) (table : SymbolTable) (unit : UnitId)
    (source : String) : (start options table unit source).From (.ofPositions source) := by
  obtain ⟨tokens, errors⟩ := TokenStream.located_ofSource options.dialect source
  constructor
  case cursor => exact from_startCursor fun token member _ => tokens token member
  case errors =>
    intro error member
    simp only [start, ofStream, List.mem_toArray, List.mem_map] at member
    obtain ⟨lexical, met, rfl⟩ := member
    exact errors lexical met
  case tree => exact fun _ _ _ _ _ => trivial

/-- All positions that come out of reading a source are right: those of its tokens and of the
halves that a closing mark can be split into, those of lexical errors, those of the tokens that
stand around the cursor behind the parse, with the spans that cover two of them, and those of
all errors of the unit. -/
theorem positions_located (options : ParseOptions) (table : SymbolTable) (unit : UnitId)
    (source : String) :
    (∀ token ∈ (TokenStream.ofSource options.dialect source).tokens, token.Located source) ∧
      (∀ error ∈ (TokenStream.ofSource options.dialect source).errors,
        error.span.Located source) ∧
      (∀ first ∈ (ParseState.start options table unit source).finish.cursor.buffer,
        first.span.Located source ∧
          ∀ second ∈ (ParseState.start options table unit source).finish.cursor.buffer,
            (first.span.merge second.span).Located source) ∧
      ∀ error ∈ (parseUnit options table unit source).errors, error.span.Located source := by
  obtain ⟨tokens, lexical⟩ := TokenStream.located_ofSource options.dialect source
  have final := (ParseState.positions_start options table unit source).finish
  refine ⟨tokens, lexical, fun first member => ?_, fun error member => ?_⟩
  · have place := (final.cursor.buffer first member).span
    exact ⟨place, fun second other => place.merge (final.cursor.buffer second other).span⟩
  · exact final.errors error (by simpa [parseUnit, ParseState.parsed] using member)

/-- The name of a destructor is pointed at from its mark on. -/
example : (parseSource "\nvoid N::~X();").errors.map ParseError.span = [⟨9, 2, 9, 2⟩] := by
  decide +kernel

end DeclTree
