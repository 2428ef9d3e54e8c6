import DeclTree.Parse.Counted
import DeclTree.Proofs.CountedTokens
import DeclTree.Proofs.ErrorPositions
import DeclTree.Proofs.Overrun
import DeclTree.Proofs.ParseTermination

/-!
# Units whose source is short enough

Below 2 ^ 32 - 1 bytes no counter runs over, neither in front of the parser nor in it, where spans
of tokens are split in two and put together.  So the parse reaches its end, the unit is the one
that is parsed with counters without a bound, and all positions are true.  One byte more is enough
for a line of blanks to run over its column.
-/

namespace DeclTree

/-! ## What counters show -/

/-- Whether counters of 32 bits show a position as it is. -/
def Position.Fits (position : Position) : Prop :=
  position.counted = position

/-- Whether counters of 32 bits show a span and the end of it as they are. -/
structure Span.Fits (span : Span) : Prop where
  stop : span.stop < counterRange
  line : span.line < counterRange
  column : span.column < counterRange

theorem Span.Fits.shown {span : Span} (fits : span.Fits) : span.shown = span := by
  rw [Span.shown, wrap_of_lt fits.column]

theorem Position.fits_after {source : String} (short : source.utf8ByteSize < counterRange - 1)
    {front : List Char} (starts : front <+: source.toList) : (Position.after {} front).Fits := by
  obtain ⟨offset, line, column⟩ := Position.after_start_le front
  have within := String.utf8Len_le_of_prefix starts
  rw [String.utf8Len_toList] at within
  simp only [counterRange] at short
  unfold Fits Position.counted
  rw [wrap_of_lt, wrap_of_lt, wrap_of_lt] <;> simp only [counterRange] <;> omega

theorem Span.Located.fits {source : String} (short : source.utf8ByteSize < counterRange - 1)
    {span : Span} (located : span.Located source) : span.Fits := by
  obtain ⟨front, starts, offset, line, column⟩ := located.start
  obtain ⟨_, lines, columns⟩ := Position.after_start_le front
  have within := String.utf8Len_le_of_prefix starts
  have inside := located.within
  rw [String.utf8Len_toList] at within
  simp only [Position.after_start] at lines columns
  simp only [counterRange] at short
  constructor <;> simp only [Span.stop, counterRange] <;> omega

/-! ## The same unit -/

theorem ParsedUnit.shown_eq {parsed : ParsedUnit}
    (fits : ∀ error ∈ parsed.errors, error.span.Fits) : parsed.shown = parsed := by
  have same : parsed.errors.map (fun error => { error with span := error.span.shown }) =
      parsed.errors := by
    conv_rhs => rw [← List.map_id parsed.errors]
    apply List.map_congr_left
    intro error member
    rw [(fits error member).shown]
    rfl
  rw [ParsedUnit.shown, same]

/-- A source of less than 2 ^ 32 - 1 bytes is parsed as if counters had no bound. -/
theorem parseUnit?_eq (options : ParseOptions) (table : SymbolTable) (unit : UnitId)
    {source : String} (short : source.utf8ByteSize < counterRange - 1) :
    parseUnit? options table unit source = some (parseUnit options table unit source) := by
  obtain ⟨_, _, _, errors⟩ := positions_located options table unit source
  rw [parseUnit?, TokenStream.ofSource?_eq _ short, Option.map_some]
  exact congrArg some (ParsedUnit.shown_eq fun error member => (errors error member).fits short)

/-! ## Termination -/

namespace ParseState

/-- Whether counters of 32 bits hold everything that is counted while a source is read and
parsed: the positions in it, and the spans of tokens that may stand around the cursor, of their
halves, and over two of them. -/
structure CountersSuffice (source : String) (start : ParseState) : Prop where
  positions : ∀ front, front <+: source.toList → (Position.after {} front).Fits
  spans : ∀ cursor, start.cursor.Moves cursor → ∀ token ∈ cursor.buffer, token.span.Fits
  halves : ∀ cursor, start.cursor.Moves cursor → ∀ token ∈ cursor.buffer,
    token.kind = .punct .greaterGreater → ∀ half ∈ Cursor.shiftHalves token, half.span.Fits
  merges : ∀ cursor, start.cursor.Moves cursor → ∀ first ∈ cursor.buffer,
    ∀ second ∈ cursor.buffer, (first.span.merge second.span).Fits

theorem countersSuffice_start (options : ParseOptions) (table : SymbolTable) (unit : UnitId)
    {source : String} (short : source.utf8ByteSize < counterRange - 1) :
    (start options table unit source).CountersSuffice source := by
  have around : ∀ cursor, (start options table unit source).cursor.Moves cursor →
      ∀ token ∈ cursor.buffer, token.Located source := fun cursor moves =>
    ((positions_start options table unit source).cursor.moves moves).buffer
  constructor
  case positions => exact fun _ starts => Position.fits_after short starts
  case spans =>
    intro cursor moves token member
    exact (around cursor moves token member).span.fits short
  case halves =>
    intro cursor moves token member shift half inside
    exact ((around cursor moves token member).halves shift half inside).fits short
  case merges =>
    intro cursor moves first member second other
    have left := (around cursor moves first member).span
    exact (left.merge (around cursor moves second other).span).fits short

/-- Every source of less than 2 ^ 32 - 1 bytes is read and parsed to its end with any options and
from any table in use, and no counter runs over on the way. -/
theorem parse_terminates_counted (options : ParseOptions) {table : SymbolTable}
    (reached : table.Reachable) (unit : UnitId) {source : String}
    (short : source.utf8ByteSize < counterRange - 1) :
    ∃ stream, TokenStream.ofSource? options.dialect source = some stream ∧
      (ofStream options table unit stream).Terminates ∧
        (ofStream options table unit stream).CountersSuffice source ∧
          parseUnit? options table unit source =
            some (ofStream options table unit stream).finish.parsed :=
  ⟨_, TokenStream.ofSource?_eq _ short, parse_terminates options reached unit source,
    countersSuffice_start options table unit short, parseUnit?_eq options table unit short⟩

/-- A second unit that ends inside its parameters, read with the table that a first
one with a missing name leaves. -/
theorem parse_terminates_counted_second_unit :
    (parseSource "template<class T> void f(A<A<T>> x); int;").table.Reachable ∧
      "template<class T> template<class U> void f(A<A<U>> x".utf8ByteSize < counterRange - 1 ∧
      ∃ stream, TokenStream.ofSource? .cpp
          "template<class T> template<class U> void f(A<A<U>> x" = some stream ∧
        (ofStream { maxNestingDepth := 3 }
          (parseSource "template<class T> void f(A<A<T>> x); int;").table ⟨1⟩ stream).Terminates ∧
        (ofStream { maxNestingDepth := 3 }
          (parseSource "template<class T> void f(A<A<T>> x); int;").table ⟨1⟩
            stream).CountersSuffice "template<class T> template<class U> void f(A<A<U>> x" ∧
        parseUnit? { maxNestingDepth := 3 }
          (parseSource "template<class T> void f(A<A<T>> x); int;").table ⟨1⟩
          "template<class T> template<class U> void f(A<A<U>> x" =
            some (ofStream { maxNestingDepth := 3 }
              (parseSource "template<class T> void f(A<A<T>> x); int;").table ⟨1⟩
                stream).finish.parsed := by
  have reached := reachable_parseUnit {} .empty ⟨0⟩ "template<class T> void f(A<A<T>> x); int;"
  have short : "template<class T> template<class U> void f(A<A<U>> x".utf8ByteSize <
      counterRange - 1 := by
    decide +kernel
  exact ⟨reached, short, parse_terminates_counted { maxNestingDepth := 3 } reached ⟨1⟩ short⟩

/-- With one byte more a counter may run over: behind a line of 2 ^ 32 - 1 blanks it has counted
the column 2 ^ 32. -/
theorem blankLine_overruns : SymbolTable.empty.Reachable ∧
    blankLine.utf8ByteSize < counterRange ∧
      Position.after {} blankLine.toList = ⟨counterRange - 1, 1, counterRange⟩ ∧
        ¬ (start {} .empty ⟨0⟩ blankLine).CountersSuffice blankLine := by
  have positive : 0 < counterRange := by simp [counterRange]
  have column : 1 + (counterRange - 1) = counterRange := Nat.add_sub_cancel' positive
  have place : Position.after {} blankLine.toList = ⟨counterRange - 1, 1, counterRange⟩ := by
    rw [blankLine, String.toList_ofList, Position.after_blanks, Nat.zero_add, column]
  refine ⟨.empty, ?_, place, fun suffice => ?_⟩
  · rw [utf8ByteSize_blankLine]
    exact Nat.sub_one_lt (Nat.ne_of_gt positive)
  · have fits := suffice.positions blankLine.toList List.prefix_rfl
    rw [place] at fits
    have wraps : wrap counterRange = counterRange := congrArg Position.column fits
    have below := wrap_lt counterRange
    omega

end ParseState

/-! ## Positions -/

/-- In every source of less than 2 ^ 32 - 1 bytes all positions are right: those of tokens, of
lexical errors, of the tokens around the cursor behind the parse and of the spans that cover two
of them, and those of all errors of the unit. -/
theorem positions_counted (options : ParseOptions) (table : SymbolTable) (unit : UnitId)
    {source : String} (short : source.utf8ByteSize < counterRange - 1) :
    ∃ stream parsed, TokenStream.ofSource? options.dialect source = some stream ∧
      parseUnit? options table unit source = some parsed ∧
      (∀ token ∈ stream.tokens, token.Located source) ∧
      (∀ error ∈ stream.errors, error.span.Located source) ∧
      (∀ first ∈ (ParseState.ofStream options table unit stream).finish.cursor.buffer,
        first.span.shown.Located source ∧
          ∀ second ∈ (ParseState.ofStream options table unit stream).finish.cursor.buffer,
            (first.span.merge second.span).shown.Located source) ∧
      ∀ error ∈ parsed.errors, error.span.Located source := by
  obtain ⟨tokens, lexical, around, errors⟩ := positions_located options table unit source
  refine ⟨_, _, TokenStream.ofSource?_eq _ short, parseUnit?_eq options table unit short, tokens,
    lexical, fun first member => ?_, errors⟩
  obtain ⟨place, merged⟩ := around first member
  refine ⟨?_, fun second other => ?_⟩
  · rwa [(place.fits short).shown]
  · rw [((merged second other).fits short).shown]
    exact merged second other

/-- The name of a destructor behind an empty line. -/
theorem positions_counted_destructor :
    "\nvoid N::~X();".utf8ByteSize < counterRange - 1 ∧
      ∃ stream parsed, TokenStream.ofSource? .cpp "\nvoid N::~X();" = some stream ∧
        parseUnit? {} .empty ⟨0⟩ "\nvoid N::~X();" = some parsed ∧
        (∀ token ∈ stream.tokens, token.Located "\nvoid N::~X();") ∧
        (∀ error ∈ stream.errors, error.span.Located "\nvoid N::~X();") ∧
        (∀ first ∈ (ParseState.ofStream {} .empty ⟨0⟩ stream).finish.cursor.buffer,
          first.span.shown.Located "\nvoid N::~X();" ∧
            ∀ second ∈ (ParseState.ofStream {} .empty ⟨0⟩ stream).finish.cursor.buffer,
              (first.span.merge second.span).shown.Located "\nvoid N::~X();") ∧
        ∀ error ∈ parsed.errors, error.span.Located "\nvoid N::~X();" :=
  ⟨by decide +kernel, positions_counted {} .empty ⟨0⟩ (by decide +kernel)⟩

/-- With one byte more the end of a source need not be told: behind a line of 2 ^ 32 - 1 blanks
its column is shown as 0. -/
theorem blankLine_mislaid : blankLine.utf8ByteSize < counterRange ∧
    ∃ stream, TokenStream.ofSource? .cpp blankLine = some stream ∧
      ∃ token ∈ stream.tokens, token.span = ⟨counterRange - 1, 1, 0, 0⟩ ∧
        ¬ token.span.Located blankLine := by
  refine ⟨?_, _, TokenStream.ofSource?_blankLine .cpp, _, List.mem_cons_self, rfl, ?_⟩
  · rw [utf8ByteSize_blankLine]
    exact Nat.sub_one_lt (by simp [counterRange])
  · rintro ⟨_, front, _, _, _, column⟩
    simp only at column
    omega

end DeclTree
