import DeclTree.Parse.Spelling
import DeclTree.Proofs.TokenTexts

/-!
# Reading spelled tokens

Some tokens of a source, spelled one behind the other, are read as the same tokens again, if none
of them goes on with the one behind it where no blank stands between the two.  A number goes on
with a letter or a dot, a mark with what makes a longer one of it or starts a comment, and a word
with the quote of a literal that it introduces.  Only two closing marks may stand together: they
are read as one.
-/

namespace DeclTree

/-! ## What goes on with a token -/

/-- Whether the spelling of a mark with one more character starts that of another mark. -/
def Punct.goesOn (mark : Punct) (character : Char) : Bool :=
  Punct.byLength.any fun longer => (mark.spelling ++ [character]).isPrefixOf longer.spelling

/-- Whether a number goes on with what stands behind it. -/
def Piece.numberGoesOn (number : List Char) : List Char → Bool
  | [] => false
  | character :: rest =>
      character.isAlphanum || character == '.' || character == '_' ||
        (character == '\'' && rest.head?.any Char.isAlphanum) ||
        ((character == '+' || character == '-') &&
          number.getLast?.any (isExponentMark (isHexadecimal number)))

/-- Whether a word goes on with a character, or introduces a literal with it. -/
def Piece.wordGoesOn (word : List Char) (character : Char) : Bool :=
  isWordPart character ||
    (character == '"' && (rawMarks.contains word || encodingMarks.contains word)) ||
    (character == '\'' && encodingMarks.contains word)

/-- Whether a mark goes on with a character as a mark, or is the start of a number or comment
with it. -/
def Piece.markGoesOn (mark : Punct) (character : Char) : Bool :=
  mark.goesOn character || (mark == .dot && character.isDigit) ||
    (mark == .slash && (character == '/' || character == '*'))

/-- Whether a token of some kind and text goes on with what stands behind it. -/
def TokenKind.goesOn (kind : TokenKind) (text behind : List Char) : Bool :=
  match kind with
  | .literal .integer | .literal .floating => Piece.numberGoesOn text behind
  | .identifier | .keyword _ => behind.head?.any (Piece.wordGoesOn text)
  | .punct mark => behind.head?.any (Piece.markGoesOn mark)
  | .literal .string | .literal .character | .eof | .invalid => false

/-- Whether a token goes on with the one behind it if no blank stands between them. -/
def Token.fuses (left right : Token) : Bool :=
  left.kind.goesOn left.lexeme.toList right.lexeme.toList

/-- Whether two tokens may be spelled one behind the other: a blank keeps them apart, or the first
does not go on with the second, or both are closing marks. -/
def Token.Separates (left right : Token) : Prop :=
  left.needsSpace right = true ∨ left.fuses right = false ∨
    (left.kind = .punct .greater ∧ right.kind = .punct .greater)

instance : DecidableRel Token.Separates := fun _ _ => inferInstanceAs (Decidable (_ ∨ _ ∨ _))

/-! ## Numbers in front of others -/

/-- A number ends in front of what it does not go on with. -/
theorem numberLength_append {hexadecimal : Bool} {text behind : List Char}
    (whole : numberLength hexadecimal text = text.length)
    (ends : numberLength hexadecimal behind = 0)
    (unsigned : text.getLast?.any (isExponentMark hexadecimal) = true →
      behind.head?.any (fun sign => sign == '+' || sign == '-') = false) :
    numberLength hexadecimal (text ++ behind) = text.length := by
  induction count : text.length using Nat.strong_induction_on generalizing text with
  | _ count ih =>
  subst count
  cases text with
  | nil => exact ends
  | cons character rest =>
      have lasting {later : List Char} (inside : later <:+ character :: rest) :
          later.getLast?.any (isExponentMark hexadecimal) = true →
            behind.head?.any (fun sign => sign == '+' || sign == '-') = false := by
        intro mark
        obtain ⟨last, same, known⟩ := (Option.any_eq_true _ _).1 mark
        obtain ⟨front, parts⟩ := inside
        apply unsigned
        rw [← parts, List.getLast?_append, same]
        exact known
      rw [numberLength_cons, List.length_cons] at whole
      rw [List.cons_append, numberLength_cons, List.length_cons]
      split at whole
      · rename_i signed
        cases rest with
        | nil => simp at signed
        | cons sign rest =>
            rw [List.tail_cons, List.length_cons] at whole
            have further := ih rest.length (by simp only [List.length_cons]; omega)
              (by omega) (lasting ⟨[character, sign], rfl⟩) rfl
            rw [if_pos (by simpa using signed), List.cons_append, List.tail_cons, further,
              List.length_cons]
            omega
      · rename_i single
        split at whole
        · rename_i goesOn
          have further := ih rest.length (by simp) (by omega) (lasting ⟨[character], rfl⟩) rfl
          have first : rest ≠ [] → (rest ++ behind).head? = rest.head? := by
            intro more
            cases rest with
            | nil => exact absurd rfl more
            | cons other rest => rfl
          rw [if_neg, if_pos, further]
          · omega
          · refine goesOn.imp_right fun ⟨quote, digit⟩ => ⟨quote, ?_⟩
            rw [first]
            · exact digit
            · rintro rfl
              simp at digit
          · rintro ⟨mark, sign⟩
            cases rest with
            | nil =>
                have plain := unsigned (by simpa using mark)
                rw [List.nil_append] at sign
                rw [plain] at sign
                cases sign
            | cons other rest => exact single ⟨mark, sign⟩
        · omega

namespace Piece

variable {dialect : Dialect} {text behind : List Char} {kind : TokenKind}

theorem isAlphanum_of_isExponentMark {hexadecimal : Bool} {character : Char}
    (mark : isExponentMark hexadecimal character = true) : character.isAlphanum = true := by
  cases hexadecimal <;> simp only [isExponentMark, if_true, Bool.false_eq_true, if_false,
    Bool.or_eq_true, beq_iff_eq] at mark <;> rcases mark with rfl | rfl <;> rfl

theorem numberLength_eq_zero {number : List Char} (hexadecimal : Bool)
    (ends : numberGoesOn number behind = false) : numberLength hexadecimal behind = 0 := by
  cases behind with
  | nil => rfl
  | cons character rest =>
      simp only [numberGoesOn, Bool.or_eq_false_iff] at ends
      obtain ⟨⟨⟨⟨plain, dot⟩, line⟩, quote⟩, _⟩ := ends
      rw [numberLength_cons, if_neg, if_neg]
      · simp only [plain, dot, line, Bool.or_false, Bool.false_eq_true, false_or]
        rintro ⟨rfl, digit⟩
        simp [digit] at quote
      · rintro ⟨mark, _⟩
        rw [isAlphanum_of_isExponentMark mark] at plain
        cases plain

/-- A number is read in front of what it does not go on with. -/
theorem number_before (whole : number text = ⟨text.length, .ok kind⟩)
    (ends : numberGoesOn text behind = false) :
    number (text ++ behind) = ⟨text.length, .ok kind⟩ := by
  have length : numberLength (isHexadecimal text) text = text.length :=
    congrArg Piece.length whole
  have same : isHexadecimal (text ++ behind) = isHexadecimal text := by
    cases text with
    | nil =>
        cases behind with
        | nil => rfl
        | cons character rest =>
            simp only [numberGoesOn, Bool.or_eq_false_iff] at ends
            rw [List.nil_append, isHexadecimal_cons]
            have zero : (character == '0') = false := by
              rw [beq_eq_false_iff_ne]
              rintro rfl
              cases ends.1.1.1.1
            rw [zero]
            rfl
    | cons character rest =>
        rw [List.cons_append, isHexadecimal_cons, isHexadecimal_cons]
        cases rest with
        | cons other rest => rfl
        | nil =>
            have letters : behind.head?.any (fun mark => mark == 'x' || mark == 'X') = false := by
              cases behind with
              | nil => rfl
              | cons mark rest =>
                  simp only [numberGoesOn, Bool.or_eq_false_iff] at ends
                  rw [List.head?_cons, Option.any_some, Bool.or_eq_false_iff, beq_eq_false_iff_ne,
                    beq_eq_false_iff_ne]
                  constructor <;> (rintro rfl; cases ends.1.1.1.1)
            rw [List.nil_append, letters]
            rfl
  have long : numberLength (isHexadecimal text) (text ++ behind) = text.length := by
    apply numberLength_append length (numberLength_eq_zero _ ends)
    intro mark
    cases behind with
    | nil => rfl
    | cons sign rest =>
        simp only [numberGoesOn, Bool.or_eq_false_iff, mark, Bool.and_true] at ends
        simpa using ends.2
  have given : number text = _ := number_eq rfl length
  rw [number_eq same long, List.take_left', ← whole, given, List.take_of_length_le (Nat.le_refl _)]
  rfl

theorem goesOn_number (known : (number text).outcome = .ok kind) (behind : List Char) :
    kind.goesOn text behind = numberGoesOn text behind := by
  obtain rfl := Except.ok.inj known
  split <;> rfl

theorem startsNumber_append {character : Char} {rest : List Char}
    (starts : startsNumber character rest = true) :
    startsNumber character (rest ++ behind) = true := by
  cases rest with
  | nil =>
      rw [startsNumber, List.head?_nil, Option.any_none, Bool.and_false, Bool.or_false] at starts
      rw [startsNumber, starts, Bool.true_or]
  | cons => exact starts

/-! ## Words and marks in front of others -/

theorem goesOn_wordKind (dialect : Dialect) (letters behind : List Char) :
    (wordKind dialect letters).goesOn letters behind =
      behind.head?.any (wordGoesOn letters) := by
  unfold wordKind
  split <;> rfl

/-- A word, or the literal it introduces, is read in front of what it does not go on with. -/
theorem word_before (whole : word dialect text = ⟨text.length, .ok kind⟩)
    (ends : kind.goesOn text behind = false) :
    word dialect (text ++ behind) = ⟨text.length, .ok kind⟩ := by
  obtain ⟨letters, rest, rfl, parts, stops⟩ := exists_letters text
  rw [word_append dialect parts stops] at whole
  rcases wordBefore_again (congrArg Piece.outcome whole) with
    plain | ⟨quote, body, inner, rfl, within, outside, length, again⟩
  · obtain ⟨extent, same⟩ := Piece.mk.inj (whole.symm.trans plain)
    obtain rfl := Except.ok.inj same
    obtain rfl : rest = [] := by
      rw [List.length_append] at extent
      exact List.eq_nil_of_length_eq_zero (by omega)
    rw [List.append_nil, goesOn_wordKind] at ends
    rw [List.append_nil]
    cases behind with
    | nil => rw [word_append dialect parts rfl]; rfl
    | cons character rest =>
        simp only [List.head?_cons, Option.any_some, wordGoesOn, Bool.or_eq_false_iff] at ends
        rw [word_append dialect parts (by simpa using ends.1.1)]
        unfold wordBefore
        split
        · simp_all
        · simp_all
        · rfl
  · rw [whole] at length again
    simp only [List.length_append, List.length_cons] at length
    obtain rfl : inner = body.length := by omega
    have restored := again behind
    rw [List.take_length] at restored
    rw [List.append_assoc, List.cons_append, word_append dialect parts (by simpa using outside),
      restored]

theorem punctuator_before {character : Char} {rest : List Char}
    (whole : punctuator character rest = ⟨rest.length + 1, .ok kind⟩)
    (ends : kind.goesOn (character :: rest) behind = false) :
    punctuator character (rest ++ behind) = ⟨rest.length + 1, .ok kind⟩ := by
  unfold punctuator at whole ⊢
  cases longest : Punct.longest? (character :: rest) with
  | none => simp [longest] at whole
  | some mark =>
      rw [longest] at whole
      obtain ⟨extent, same⟩ := Piece.mk.inj whole
      obtain rfl := Except.ok.inj same
      have spelled : mark.spelling = character :: rest :=
        (prefix_of_longest? longest).eq_of_length extent
      have again : Punct.longest? (mark.spelling ++ behind) = some mark := by
        apply longest?_append (longest?_spelling longest)
        intro next first other longer
        have goesOn : behind.head?.any (markGoesOn mark) = true := by
          rw [first, Option.any_some, markGoesOn, Punct.goesOn, List.any_eq_true.2]
          · rfl
          · exact ⟨other, Punct.mem_byLength other, List.isPrefixOf_iff_prefix.2 longer⟩
        exact Bool.false_ne_true (ends.symm.trans goesOn)
      rw [spelled, List.cons_append] at again
      rw [again]
      exact whole

/-- A dot that is a mark does not start a number in front of what it does not go on with. -/
theorem startsNumber_before {character : Char} {rest : List Char}
    (digits : ¬ startsNumber character rest = true)
    (whole : punctuator character rest = ⟨rest.length + 1, .ok kind⟩)
    (ends : kind.goesOn (character :: rest) behind = false) :
    ¬ startsNumber character (rest ++ behind) = true := by
  cases rest with
  | cons => exact digits
  | nil =>
      intro starts
      simp only [startsNumber, List.head?_nil, Option.any_none, Bool.and_false, Bool.or_false,
        List.nil_append, Bool.or_eq_true, Bool.and_eq_true, beq_iff_eq] at digits starts
      obtain ⟨rfl, digit⟩ := starts.resolve_left digits
      obtain rfl : TokenKind.punct .dot = kind := Except.ok.inj (congrArg Piece.outcome whole)
      obtain ⟨character, first, known⟩ := (Option.any_eq_true _ _).1 digit
      have goesOn : behind.head?.any (markGoesOn .dot) = true := by
        simp [first, markGoesOn, known]
      exact Bool.false_ne_true (ends.symm.trans goesOn)

/-! ## Pieces in front of others -/

/-- What is read from its own characters is read in front of what it does not go on with. -/
theorem scan_before (whole : scan dialect text = some ⟨text.length, .ok kind⟩)
    (ends : kind.goesOn text behind = false) :
    scan dialect (text ++ behind) = some ⟨text.length, .ok kind⟩ := by
  cases text with
  | nil => cases whole
  | cons character rest =>
      simp only [scan, List.cons_append, Option.some.injEq] at whole ⊢
      by_cases quote : character = '"' ∨ character = '\''
      · rw [if_pos quote] at whole ⊢
        obtain ⟨inner, within, length, again⟩ := quoted_again (congrArg Piece.outcome whole)
        simp only [whole, List.length_cons] at length
        obtain rfl : inner = rest.length := by omega
        have restored := again behind
        rw [List.take_length] at restored
        rw [restored, whole]
      rw [if_neg quote] at whole ⊢
      by_cases digits : startsNumber character rest = true
      · rw [if_pos digits] at whole
        rw [if_pos (startsNumber_append digits), ← List.cons_append]
        apply number_before whole
        rw [← goesOn_number (congrArg Piece.outcome whole)]
        exact ends
      rw [if_neg digits] at whole
      by_cases letter : isWordStart character = true
      · have undotted : character.isDigit = false ∧ character ≠ '.' := by
          rw [startsNumber, Bool.or_eq_true, not_or] at digits
          refine ⟨by simpa using digits.1, ?_⟩
          rintro rfl
          cases letter
        rw [if_pos letter] at whole
        rw [if_neg (by simp [startsNumber, undotted]), if_pos letter, ← List.cons_append]
        exact word_before whole ends
      · rw [if_neg letter] at whole
        have again := punctuator_before whole ends
        rw [if_neg (startsNumber_before digits whole ends), if_neg letter, again]
        rfl

/-- Behind a token its line is not blank. -/
theorem foldl_blankAfter_of_scan {text : List Char}
    (whole : scan dialect text = some ⟨text.length, .ok kind⟩) (lineIsBlank : Bool) :
    text.foldl Reader.blankAfter lineIsBlank = false := by
  have solid {character : Char} (visible : character ≠ byteOrderMark ∧ isSpace character = false)
      (blank : Bool) : Reader.blankAfter blank character = false := by
    simp only [isSpace, Bool.or_eq_false_iff, beq_eq_false_iff_ne] at visible
    simp [Reader.blankAfter, isIndent, visible]
  by_cases broken : '\n' ∈ text
  · have literal := quoted_of_newline whole rfl (by rwa [List.take_length])
    obtain ⟨quote, mark, front, ends⟩ := last_of_literal whole rfl literal
    rw [List.take_length] at ends
    rw [← ends, List.foldl_concat]
    apply solid
    rcases mark with rfl | rfl <;> decide
  · cases text with
    | nil => cases whole
    | cons character rest =>
        have first := head_of_scan whole rfl
        rw [List.foldl_cons, solid ⟨first.1, first.2.1⟩]
        -- Without a newline the line stays as it is behind the first character.
        have single : ∀ other ∈ rest, other ≠ '\n' := by
          rintro other member rfl
          exact broken (List.mem_cons_of_mem _ member)
        clear whole broken first
        induction rest with
        | nil => rfl
        | cons other rest ih =>
            have plain := single other List.mem_cons_self
            rw [List.foldl_cons, show Reader.blankAfter false other = false by
              simp [Reader.blankAfter, plain]]
            exact ih fun later member => single later (List.mem_cons_of_mem _ member)

end Piece

/-! ## Tokens in front of others -/

namespace TokenKind

theorem goesOn_nil (kind : TokenKind) (text : List Char) : kind.goesOn text [] = false := by
  cases kind with
  | literal form => cases form <;> rfl
  | identifier | keyword | punct | eof | invalid => rfl

/-- Nothing goes on with a blank. -/
theorem goesOn_blank (kind : TokenKind) (text behind : List Char) :
    kind.goesOn text (' ' :: behind) = false := by
  cases kind with
  | literal form => cases form <;> rfl
  | identifier | keyword | eof | invalid => rfl
  | punct mark => cases mark <;> rfl

/-- What goes on with a token shows in the text of the one behind it. -/
theorem goesOn_append {dialect : Dialect} {right : List Char} {other : TokenKind}
    (whole : Piece.scan dialect right = some ⟨right.length, .ok other⟩) (kind : TokenKind)
    (text behind : List Char) : kind.goesOn text (right ++ behind) = kind.goesOn text right := by
  cases right with
  | nil => cases whole
  | cons character rest =>
      have number : Piece.numberGoesOn text (character :: rest ++ behind) =
          Piece.numberGoesOn text (character :: rest) := by
        cases rest with
        | cons => rfl
        | nil =>
            have unquoted : (character == '\'') = false := by
              rw [beq_eq_false_iff_ne]
              rintro rfl
              cases whole
            simp [Piece.numberGoesOn, unquoted]
      cases kind with
      | literal form => cases form <;> first | exact number | rfl
      | identifier | keyword | punct | eof | invalid => rfl

end TokenKind

namespace Token.Scanned

variable {dialect : Dialect} {token : Token}

/-- A token is read from its own characters. -/
theorem whole (scanned : token.Scanned dialect) :
    Piece.scan dialect token.lexeme.toList =
      some ⟨token.lexeme.toList.length, .ok token.kind⟩ := by
  obtain ⟨upcoming, piece, found, known, text⟩ := scanned
  have nothing : Apart [] := by rintro _ ⟨⟩
  obtain ⟨within, again⟩ := Piece.scan_take nothing found known
  rw [List.append_nil] at again
  rw [text, again, List.length_take_of_le within, ← known]

end Token.Scanned

namespace Reader

variable {dialect : Dialect} {other : Reader} {lead text behind : List Char} {kind : TokenKind}

/-- No comment starts with a token in front of what it does not go on with, and no directive if
its line is not blank or the token is no `#`. -/
theorem skippedExtent_before {lineIsBlank : Bool}
    (whole : Piece.scan dialect text = some ⟨text.length, .ok kind⟩)
    (plain : lineIsBlank = true → kind ≠ .punct .hash ∧ kind ≠ .punct .hashHash)
    (ends : kind.goesOn text behind = false) :
    skippedExtent lineIsBlank (text ++ behind) = none := by
  cases text with
  | nil => cases whole
  | cons character rest =>
      apply skippedExtent_eq_none
      · intro next further spelled
        rw [List.cons_append] at spelled
        obtain ⟨rfl, tail⟩ := List.cons.inj spelled
        obtain ⟨mark, rfl, first⟩ :=
          Piece.punct_of_scan whole rfl (by decide) (by rfl) (by decide)
        have spelling := Piece.take_eq_spelling whole rfl
        rw [List.take_length] at spelling
        have slash : mark = .slash ∨ mark = .slashEqual := by
          cases mark <;> first | exact .inl rfl | exact .inr rfl | cases first
        rcases slash with rfl | rfl
        · obtain rfl := (List.cons.inj spelling).2
          rw [List.nil_append] at tail
          simp only [tail, TokenKind.goesOn, List.head?_cons, Option.any_some, Piece.markGoesOn,
            beq_self_eq_true, Bool.true_and, Bool.or_eq_false_iff] at ends
          simpa using ends.2
        · obtain rfl := (List.cons.inj spelling).2
          obtain ⟨rfl, -⟩ := List.cons.inj tail
          decide
      · rintro ⟨⟩
        by_contra blank
        obtain ⟨single, double⟩ := plain (Bool.eq_true_of_not_eq_false blank)
        exact ((Piece.head_of_scan whole rfl).2.2 rfl).elim single double

/-- A token is read in front of what it does not go on with, and its line is not blank then. -/
theorem next_before (whole : Piece.scan dialect text = some ⟨text.length, .ok kind⟩)
    (plain : other.lineIsBlank = true → kind ≠ .punct .hash ∧ kind ≠ .punct .hashHash)
    (ends : kind.goesOn text behind = false) (single : lead = [] ∨ lead = [' '])
    (unread : other.unread = lead ++ (text ++ behind)) :
    ((other.next dialect).token.kind = kind ∧
      (other.next dialect).token.lexeme = String.ofList text ∧
        (other.next dialect).error = none ∧ (other.next dialect).reader.unread = behind) ∧
      (other.next dialect).reader.lineIsBlank = false := by
  have line : (other.skip lead.length).lineIsBlank = other.lineIsBlank := by
    rw [Reader.skip, unread, List.take_left]
    rcases single with rfl | rfl
    · rfl
    · exact Bool.and_true _
  have found := Piece.scan_before whole ends
  have tight : skippedExtent (other.skip lead.length).lineIsBlank (text ++ behind) = none :=
    skippedExtent_before whole (by rwa [line]) ends
  refine ⟨next_of_front single unread found tight, ?_⟩
  rw [lineIsBlank_of_front single unread found tight, Piece.foldl_blankAfter_of_scan whole]

end Reader

/-! ## Lists of tokens -/

/-- What tokens that are spelled one behind the other are read as: two closing marks are one. -/
def readBack : List Token → List (TokenKind × String)
  | [] => []
  | [token] => [(token.kind, token.lexeme)]
  | left :: right :: rest =>
      if left.kind = .punct .greater ∧ right.kind = .punct .greater then
        (.punct .greaterGreater, ">>") :: readBack rest
      else (left.kind, left.lexeme) :: readBack (right :: rest)

/-- Whether some tokens can be read back from their spelling: each has a text that it is read
from, and none goes on with the next. -/
structure Spellable (dialect : Dialect) (tokens : List Token) : Prop where
  scanned : ∀ token ∈ tokens, token.Scanned dialect
  separate : tokens.IsChain Token.Separates

theorem Spellable.tail {dialect : Dialect} {token : Token} {rest : List Token}
    (spellable : Spellable dialect (token :: rest)) : Spellable dialect rest where
  scanned other member := spellable.scanned other (List.mem_cons_of_mem _ member)
  separate := spellable.separate.of_cons

/-- What stands between two tokens. -/
def Token.gap (left right : Token) : List Char :=
  if left.needsSpace right then [' '] else []

theorem Token.gap_eq (left right : Token) : left.gap right = [] ∨ left.gap right = [' '] := by
  unfold gap
  split
  · exact .inr rfl
  · exact .inl rfl

theorem toList_spell_cons (token : Token) (rest : List Token) :
    (spell (token :: rest)).toList =
      token.lexeme.toList ++ (String.join (spellAfter token rest)).toList := by
  simp [spell]

theorem toList_spell_singleton (token : Token) : (spell [token]).toList = token.lexeme.toList := by
  simp [spell, spellAfter]

theorem toList_spell_cons_cons (left right : Token) (rest : List Token) :
    (spell (left :: right :: rest)).toList =
      left.lexeme.toList ++ (left.gap right ++ (spell (right :: rest)).toList) := by
  rw [toList_spell_cons, toList_spell_cons, spellAfter, Token.gap]
  split <;> simp

namespace TokenKind

variable {dialect : Dialect} {left right : Token}

/-- A token does not go on with what stands behind it, if it does not with the next token or a
blank keeps that apart. -/
theorem goesOn_spell (scanned : right.Scanned dialect) (rest : List Token) {kind : TokenKind}
    {text : List Char}
    (apart : left.needsSpace right = true ∨ kind.goesOn text right.lexeme.toList = false) :
    kind.goesOn text (left.gap right ++ (spell (right :: rest)).toList) = false := by
  by_cases blank : left.needsSpace right = true
  · rw [Token.gap, if_pos blank]
    exact goesOn_blank ..
  · rw [Token.gap, if_neg blank, List.nil_append, toList_spell_cons, goesOn_append scanned.whole]
    exact apart.resolve_left blank

/-- What does not go on with one closing mark does not go on with two. -/
theorem goesOn_closers {text : List Char}
    (apart : (TokenKind.punct .greater).goesOn ['>'] text = false) :
    (TokenKind.punct .greaterGreater).goesOn ['>', '>'] text = false := by
  cases text with
  | nil => rfl
  | cons character rest =>
      have single : character ≠ '=' := by
        rintro rfl
        cases apart
      simp +decide [goesOn, Piece.markGoesOn, Punct.goesOn, Punct.byLength, Punct.spelling,
        List.isPrefixOf, single]

/-- No blank stands between two closing marks. -/
theorem gap_closers (scanned : left.Scanned dialect) (opens : left.kind = .punct .greater)
    (closes : right.kind = .punct .greater) : left.gap right = [] := by
  have unneeded : left.needsSpace right = false := by
    rw [Token.needsSpace, Token.isWord, scanned.toList_punct opens, opens, closes]
    rfl
  rw [Token.gap, unneeded]
  rfl

end TokenKind

/-- What is spelled behind a closing mark does not go on with two of them. -/
theorem Spellable.behind_closers {dialect : Dialect} {closer : Token} {rest : List Token}
    (spellable : Spellable dialect (closer :: rest)) (closes : closer.kind = .punct .greater) :
    ∃ gap, (gap = [] ∨ gap = [' ']) ∧
      (spell (closer :: rest)).toList = '>' :: (gap ++ (spell rest).toList) ∧
        (TokenKind.punct .greaterGreater).goesOn ['>', '>'] (gap ++ (spell rest).toList) =
          false := by
  have first : closer.lexeme.toList = ['>'] :=
    (spellable.scanned closer List.mem_cons_self).toList_punct closes
  cases rest with
  | nil => exact ⟨[], .inl rfl, by rw [toList_spell_singleton, first]; rfl, rfl⟩
  | cons next rest =>
      have scanned : next.Scanned dialect :=
        spellable.scanned next (List.mem_cons_of_mem _ List.mem_cons_self)
      refine ⟨closer.gap next, closer.gap_eq next, ?_, TokenKind.goesOn_spell scanned rest ?_⟩
      · rw [toList_spell_cons_cons, first]
        rfl
      · rcases (List.isChain_cons_cons.1 spellable.separate).1 with blank | apart | ⟨-, third⟩
        · exact .inl blank
        · rw [Token.fuses, closes, first] at apart
          exact .inr (TokenKind.goesOn_closers apart)
        · rw [scanned.toList_punct third]
          exact .inr rfl

namespace TokenStream

variable {dialect : Dialect} {other : Reader} {lead text behind : List Char} {kind : TokenKind}
  {read : List (TokenKind × String)}

theorem ofReader_nil (dialect : Dialect) (single : lead = [] ∨ lead = [' '])
    (empty : other.unread = lead) :
    (ofReader dialect other).errors = [] ∧ (ofReader dialect other).words = [(.eof, "")] := by
  obtain ⟨kind, lexeme, error⟩ := Reader.next_of_nil dialect single empty
  rw [ofReader_ended kind]
  simp [cons, words, kind, lexeme, error]

/-- A token is read, and then what stands behind it, on a line that is not blank. -/
theorem ofReader_before (whole : Piece.scan dialect text = some ⟨text.length, .ok kind⟩)
    (plain : other.lineIsBlank = true → kind ≠ .punct .hash ∧ kind ≠ .punct .hashHash)
    (ends : kind.goesOn text behind = false) (single : lead = [] ∨ lead = [' '])
    (unread : other.unread = lead ++ (text ++ behind))
    (others : ∀ reader : Reader, reader.unread = behind → reader.lineIsBlank = false →
      (ofReader dialect reader).errors = [] ∧ (ofReader dialect reader).words = read) :
    (ofReader dialect other).errors = [] ∧
      (ofReader dialect other).words = (kind, String.ofList text) :: read := by
  obtain ⟨⟨same, lexeme, error, rest⟩, line⟩ :=
    Reader.next_before whole plain ends single unread
  have more : (other.next dialect).token.kind ≠ .eof := by
    have front : Piece.scan dialect ({ unread := text } : Reader).unread = _ := whole
    rw [same]
    exact (Piece.weight_le front rfl).1
  obtain ⟨clean, words⟩ := others _ rest line
  rw [ofReader_more more]
  constructor
  · simp [cons, error, clean]
  · unfold TokenStream.words at words ⊢
    simp only [cons, List.map_cons, same, lexeme, words]

/-- Tokens are read from their spelling.  Only the first of them may stand on a blank line. -/
theorem ofReader_spell {tokens : List Token} (spellable : Spellable dialect tokens)
    (plain : other.lineIsBlank = true → ∀ token ∈ tokens.head?,
      token.kind ≠ .punct .hash ∧ token.kind ≠ .punct .hashHash)
    (single : lead = [] ∨ lead = [' ']) (unread : other.unread = lead ++ (spell tokens).toList) :
    (ofReader dialect other).errors = [] ∧
      (ofReader dialect other).words = readBack tokens ++ [(.eof, "")] := by
  fun_induction readBack tokens generalizing other lead with
  | case1 => exact ofReader_nil dialect single (by simpa [spell] using unread)
  | case2 token =>
      rw [toList_spell_singleton, ← List.append_nil token.lexeme.toList] at unread
      have read := ofReader_before (spellable.scanned token List.mem_cons_self).whole
        (fun blank => plain blank token rfl) (TokenKind.goesOn_nil _ _) single unread
        fun reader empty _ => ofReader_nil dialect (.inl rfl) empty
      simpa using read
  | case3 left right rest closers ih =>
      have first := spellable.scanned left List.mem_cons_self
      obtain ⟨gap, blank, behind, ends⟩ := spellable.tail.behind_closers closers.2
      rw [toList_spell_cons_cons, TokenKind.gap_closers first closers.1 closers.2, behind,
        first.toList_punct closers.1] at unread
      exact ofReader_before rfl (fun _ => ⟨by decide, by decide⟩) ends single unread
        fun reader upcoming line =>
          ih spellable.tail.tail (by simp [line]) blank upcoming
  | case4 left right rest unlike ih =>
      have first := spellable.scanned left List.mem_cons_self
      have second := spellable.tail.scanned right List.mem_cons_self
      have apart := (List.isChain_cons_cons.1 spellable.separate).1
      have ends := TokenKind.goesOn_spell second rest
        (apart.imp_right fun apart => apart.resolve_right unlike)
      rw [toList_spell_cons_cons] at unread
      have read := ofReader_before first.whole (fun blank => plain blank left rfl) ends
        single unread fun reader upcoming line =>
          ih spellable.tail (by simp [line]) (left.gap_eq right) upcoming
      simpa using read

/-- Tokens of a source, and halves of those that may be split, are read back from their spelling
if the first is no `#` and none goes on with the next one where no blank is put between them. -/
theorem words_spell {source : String} {tokens : List Token}
    (parts : ∀ token ∈ tokens, token.PartOf (ofSource dialect source).valid)
    (inner : ∀ token ∈ tokens, token.kind ≠ .eof)
    (plain : ∀ token ∈ tokens.head?, token.kind ∉ [.punct .hash, .punct .hashHash])
    (separate : tokens.IsChain Token.Separates) :
    (ofSource dialect (spell tokens)).errors = [] ∧
      (ofSource dialect (spell tokens)).words = readBack tokens ++ [(.eof, "")] := by
  have spellable : Spellable dialect tokens :=
    ⟨fun token member => (parts token member).scanned (inner token member), separate⟩
  have unread : (Reader.ofSource (spell tokens)).unread = [] ++ (spell tokens).toList := rfl
  refine ofReader_spell spellable (fun _ token first => ?_) (.inl rfl) unread
  simpa using plain token first

-- Two signs are read as one mark where the blank between them is left out.
example :
    let tokens := (ofSource .cpp "a + +b").tokens.filter (·.kind != .eof)
    spell tokens = "a++b" ∧ ¬ tokens.IsChain Token.Separates ∧
      (ofSource .cpp (spell tokens)).words =
        [(.identifier, "a"), (.punct .plusPlus, "++"), (.identifier, "b"), (.eof, "")] := by
  decide +kernel

end TokenStream

end DeclTree
