import DeclTree.Proofs.Overrun
import DeclTree.Proofs.TokenCoverage
import Mathlib.Data.List.Infix

/-!
# Reading lexemes again

A token depends on nothing but its own characters and where they end.  The piece of text that is
read for it is read again in front of anything that cannot go on with it, such as a space.  So a
text without errors and without `#` can be rebuilt from its lexemes: joined by single spaces they
are read as the same tokens.
-/

namespace DeclTree

/-- Whether nothing in front of a text goes on with it: it is empty or starts with a space. -/
def Apart (behind : List Char) : Prop :=
  ∀ character ∈ behind.head?, character = ' '

/-! ## Delimited pieces -/

namespace Extent

theorem shift_eq_closed {extent : Extent} {count length : Nat} :
    extent.shift count = .closed length ↔
      ∃ inner, extent = .closed inner ∧ length = count + inner := by
  cases extent with
  | closed inner => simp [shift, eq_comm]
  | cut inner => simp [shift]

theorem quoted_cons {quote character : Char} (plain : character ≠ '\\') (rest : List Char) :
    quoted quote (character :: rest) =
      if character = '\n' then .cut 0
      else if character = quote then .closed 1
      else (quoted quote rest).shift 1 := by
  rw [quoted.eq_def]
  simp [plain]

/-- A quoted literal ends with its closing quote, whatever stands behind. -/
theorem quoted_take {quote : Char} {text : List Char} {length : Nat}
    (closed : quoted quote text = .closed length) (behind : List Char) :
    quoted quote (text.take length ++ behind) = .closed length := by
  fun_induction quoted quote text generalizing length with
  | case1 => cases closed
  | case2 => cases closed
  | case3 escaped rest ih =>
      obtain ⟨inner, further, rfl⟩ := shift_eq_closed.1 closed
      rw [Nat.add_comm, List.take_succ_cons, List.take_succ_cons, List.cons_append,
        List.cons_append, quoted, ih further, shift, Nat.add_comm]
  | case4 => cases closed
  | case5 rest single escaped line =>
      obtain rfl := Extent.closed.inj closed
      have plain : quote ≠ '\\' := by
        rintro rfl
        cases rest with
        | nil => exact single rfl rfl
        | cons head tail => exact escaped head tail rfl rfl
      rw [List.take_succ_cons, List.cons_append, quoted_cons plain, if_neg line, if_pos rfl]
  | case6 character rest single escaped line other ih =>
      obtain ⟨inner, further, rfl⟩ := shift_eq_closed.1 closed
      have plain : character ≠ '\\' := by
        rintro rfl
        cases rest with
        | nil => exact single rfl rfl
        | cons head tail => exact escaped head tail rfl rfl
      rw [Nat.add_comm, List.take_succ_cons, List.cons_append, quoted_cons plain, if_neg line,
        if_neg other, ih further, shift, Nat.add_comm]

theorem quoted_le {quote : Char} {text : List Char} {length : Nat}
    (closed : quoted quote text = .closed length) : length ≤ text.length := by
  fun_induction quoted quote text generalizing length with
  | case1 | case2 | case4 => cases closed
  | case3 escaped rest ih =>
      obtain ⟨inner, further, rfl⟩ := shift_eq_closed.1 closed
      have within := ih further
      simp only [List.length_cons]
      omega
  | case5 rest single escaped line =>
      obtain rfl := Extent.closed.inj closed
      simp
  | case6 character rest single escaped line other ih =>
      obtain ⟨inner, further, rfl⟩ := shift_eq_closed.1 closed
      have within := ih further
      rw [List.length_cons]
      omega

theorem through_bounds {mark text : List Char} {length : Nat}
    (closed : through mark text = .closed length) :
    mark.length ≤ length ∧ length ≤ text.length := by
  induction text generalizing length with
  | nil => cases closed
  | cons character rest ih =>
      unfold through at closed
      split at closed
      · rename_i starts
        obtain rfl := Extent.closed.inj closed
        exact ⟨Nat.le_refl _, (List.isPrefixOf_iff_prefix.1 starts).length_le⟩
      · obtain ⟨inner, further, rfl⟩ := shift_eq_closed.1 closed
        have bounds := ih further
        rw [List.length_cons]
        omega

/-- The first occurrence of a mark is found whatever stands behind it. -/
theorem through_take {mark text : List Char} {length : Nat} (nonempty : mark ≠ [])
    (closed : through mark text = .closed length) (behind : List Char) :
    through mark (text.take length ++ behind) = .closed length := by
  induction text generalizing length with
  | nil => cases closed
  | cons character rest ih =>
      unfold through at closed
      split at closed
      · rename_i starts
        obtain rfl := Extent.closed.inj closed
        rw [← List.prefix_iff_eq_take.1 (List.isPrefixOf_iff_prefix.1 starts)]
        cases mark with
        | nil => exact absurd rfl nonempty
        | cons first others =>
            rw [List.cons_append, through, if_pos]
            rw [List.isPrefixOf_iff_prefix, ← List.cons_append]
            exact List.prefix_append _ _
      · rename_i other
        obtain ⟨inner, further, rfl⟩ := shift_eq_closed.1 closed
        have bounds := through_bounds further
        rw [Nat.add_comm, List.take_succ_cons, List.cons_append, through, if_neg, ih further, shift,
          Nat.add_comm]
        rw [List.isPrefixOf_iff_prefix, ← List.cons_append]
        intro starts
        apply other
        rw [List.isPrefixOf_iff_prefix]
        -- The mark is no longer than what is kept of the text.
        have kept : mark <+: character :: rest.take inner := by
          apply List.prefix_of_prefix_length_le starts (List.prefix_append _ _)
          rw [List.length_cons, List.length_take]
          omega
        exact kept.trans (List.cons_prefix_cons.2 ⟨rfl, List.take_prefix _ _⟩)

theorem rawString_append {delimiter : List Char}
    (allowed : ∀ character ∈ delimiter, isDelimiter character = true) (body : List Char) :
    rawString (delimiter ++ '(' :: body) =
      (through (')' :: delimiter ++ ['"']) body).shift (delimiter.length + 1) := by
  have first : (delimiter ++ '(' :: body).takeWhile isDelimiter = delimiter := by
    rw [List.takeWhile_append_of_pos allowed, List.takeWhile_cons_of_neg (by decide),
      List.append_nil]
  unfold rawString
  simp only [first, List.drop_left]

/-- A raw string ends with its delimiter, whatever stands behind. -/
theorem rawString_take {text : List Char} {length : Nat}
    (closed : rawString text = .closed length) : length ≤ text.length ∧
      ∀ behind, rawString (text.take length ++ behind) = .closed length := by
  let delimiter := text.takeWhile isDelimiter
  have allowed : ∀ character ∈ delimiter, isDelimiter character = true :=
    List.all_eq_true.1 List.all_takeWhile
  have whole : text = delimiter ++ text.drop delimiter.length :=
    List.prefix_append_drop (List.takeWhile_prefix _)
  unfold rawString at closed
  simp only at closed
  split at closed
  · rename_i body opened
    rw [opened] at whole
    obtain ⟨inner, further, rfl⟩ := shift_eq_closed.1 closed
    have kept : text.take (delimiter.length + 1 + inner) = delimiter ++ '(' :: body.take inner := by
      rw [whole, Nat.add_assoc, List.take_length_add_append, Nat.add_comm 1, List.take_succ_cons]
    constructor
    · have bounds := through_bounds further
      have parts := congrArg List.length whole
      rw [List.length_append, List.length_cons] at parts
      change delimiter.length + 1 + inner ≤ text.length
      omega
    · intro behind
      have again := through_take (by simp) further behind
      rw [kept, List.append_assoc, List.cons_append, rawString_append allowed, again, shift]
  · cases closed

end Extent

/-! ## Numbers -/

/-- What a number goes on with behind its first character, by the character right behind. -/
theorem numberLength_cons (hexadecimal : Bool) (character : Char) (rest : List Char) :
    numberLength hexadecimal (character :: rest) =
      if isExponentMark hexadecimal character = true ∧
          rest.head?.any (fun following => following == '+' || following == '-') = true then
        2 + numberLength hexadecimal rest.tail
      else if (character.isAlphanum || character == '.' || character == '_') = true ∨
          (character = '\'' ∧ rest.head?.any Char.isAlphanum = true) then
        1 + numberLength hexadecimal rest
      else 0 := by
  cases rest with
  | nil => simp [numberLength]
  | cons following rest => simp [numberLength]

theorem numberLength_apart (hexadecimal : Bool) {behind : List Char} (apart : Apart behind) :
    numberLength hexadecimal behind = 0 := by
  cases behind with
  | nil => rfl
  | cons character rest =>
      obtain rfl := apart character rfl
      rw [numberLength_cons, if_neg, if_neg]
      · rintro (plain | ⟨mark, _⟩)
        · cases plain
        · cases mark
      · rintro ⟨mark, _⟩
        cases hexadecimal <;> cases mark

/-- The first character of what is kept of a text and put in front of another one. -/
theorem head?_take_append {text : List Char} (behind : List Char) {count : Nat}
    (within : count ≤ text.length) :
    (text.take count ++ behind).head? = if count = 0 then behind.head? else text.head? := by
  cases count with
  | zero => rfl
  | succ count =>
      cases text with
      | nil => simp at within
      | cons character rest => rfl

theorem numberLength_le (hexadecimal : Bool) (text : List Char) :
    numberLength hexadecimal text ≤ text.length := by
  fun_induction numberLength hexadecimal text with
  | case1 => exact Nat.le_refl _
  | case2 | case3 | case6 => simp
  | case4 | case5 => simp only [List.length_cons] at *; omega

theorem numberLength_pos (hexadecimal : Bool) {text : List Char}
    (plain : text.head?.any Char.isAlphanum = true) : 0 < numberLength hexadecimal text := by
  cases text with
  | nil => cases plain
  | cons character rest =>
      have alphanumeric : character.isAlphanum = true := plain
      rw [numberLength_cons]
      split
      · omega
      · rw [if_pos (.inl (by simp [alphanumeric]))]
        omega

/-- A number ends where nothing goes on with it. -/
theorem numberLength_take (hexadecimal : Bool) (text : List Char) {behind : List Char}
    (apart : Apart behind) :
    numberLength hexadecimal (text.take (numberLength hexadecimal text) ++ behind) =
      numberLength hexadecimal text := by
  induction count : text.length using Nat.strong_induction_on generalizing text with
  | _ count ih =>
  cases text with
  | nil => exact numberLength_apart hexadecimal apart
  | cons character rest =>
      subst count
      rw [numberLength_cons hexadecimal character rest]
      split
      · rename_i signed
        cases rest with
        | nil => simp at signed
        | cons sign rest =>
            have again := ih rest.length (by simp only [List.length_cons]; omega) rest rfl
            rw [Nat.add_comm 2, List.take_succ_cons, List.tail_cons, List.take_succ_cons,
              List.cons_append, List.cons_append, numberLength_cons, if_pos, List.tail_cons, again,
              Nat.add_comm]
            exact signed
      · rename_i unsigned
        split
        · rename_i goesOn
          have again := ih rest.length (by simp) rest rfl
          have first := head?_take_append behind (numberLength_le hexadecimal rest)
          rw [Nat.add_comm 1, List.take_succ_cons, List.cons_append, numberLength_cons, again,
            if_neg, if_pos, Nat.add_comm]
          · refine goesOn.imp_right fun ⟨mark, digit⟩ => ⟨mark, ?_⟩
            rw [first, if_neg (Nat.ne_of_gt (numberLength_pos hexadecimal digit))]
            exact digit
          · rintro ⟨mark, sign⟩
            rw [first] at sign
            split at sign
            · obtain ⟨other, here, known⟩ := (Option.any_eq_true _ _).1 sign
              rw [apart other here] at known
              cases known
            · exact unsigned ⟨mark, sign⟩
        · exact numberLength_apart hexadecimal apart

theorem isHexadecimal_cons (character : Char) (rest : List Char) :
    isHexadecimal (character :: rest) = (character == '0' &&
      rest.head?.any (fun mark => mark == 'x' || mark == 'X')) := by
  cases rest with
  | nil => simp [isHexadecimal]
  | cons mark rest =>
      by_cases zero : character = '0'
      · subst zero
        simp [isHexadecimal]
      · simp [isHexadecimal, zero]

theorem any_apart {behind : List Char} (apart : Apart behind) {test : Char → Bool}
    (blank : test ' ' = false) : behind.head?.any test = false := by
  cases behind with
  | nil => rfl
  | cons character rest =>
      obtain rfl := apart character rfl
      exact blank

/-- The mark of a hexadecimal number is part of the number. -/
theorem isHexadecimal_take (hexadecimal : Bool) (character : Char) (rest : List Char)
    {behind : List Char} (apart : Apart behind)
    (positive : 0 < numberLength hexadecimal (character :: rest)) :
    isHexadecimal
        ((character :: rest).take (numberLength hexadecimal (character :: rest)) ++ behind) =
      isHexadecimal (character :: rest) := by
  obtain ⟨count, length⟩ : ∃ count, numberLength hexadecimal (character :: rest) = count + 1 :=
    ⟨_, (Nat.sub_add_cancel positive).symm⟩
  have within := numberLength_le hexadecimal (character :: rest)
  rw [length, List.length_cons] at within
  rw [length, List.take_succ_cons, List.cons_append, isHexadecimal_cons, isHexadecimal_cons,
    head?_take_append behind (by omega)]
  split
  · rename_i alone
    rw [any_apart apart (by decide), Bool.and_false, Eq.comm, Bool.and_eq_false_imp]
    intro zero
    rw [beq_iff_eq] at zero
    -- A mark behind the zero would have been read as part of the number.
    by_contra mark
    have plain : rest.head?.any Char.isAlphanum = true := by
      obtain ⟨letter, here, known⟩ := (Option.any_eq_true _ _).1 (by simpa using mark)
      rw [here]
      rcases Bool.or_eq_true_iff.1 known with small | large
      · rw [beq_iff_eq.1 small]
        rfl
      · rw [beq_iff_eq.1 large]
        rfl
    have further := numberLength_pos hexadecimal plain
    rw [numberLength_cons, if_neg, if_pos (.inl (by rw [zero]; rfl))] at length
    · omega
    · rw [zero]
      rintro ⟨exponent, _⟩
      cases hexadecimal <;> cases exponent
  · rfl

namespace Piece

variable {behind : List Char}

theorem number_eq {text : List Char} {hexadecimal : Bool} {length : Nat}
    (marked : isHexadecimal text = hexadecimal) (long : numberLength hexadecimal text = length) :
    number text = ⟨length, .ok (.literal
      (if isFloating hexadecimal (text.take length) then .floating else .integer))⟩ := by
  subst marked long
  rfl

/-- A number is read again from its own characters. -/
theorem number_take {character : Char} {rest : List Char} (apart : Apart behind)
    (starts : startsNumber character rest = true) :
    number ((character :: rest).take (number (character :: rest)).length ++ behind) =
      number (character :: rest) := by
  have positive : 0 < numberLength (isHexadecimal (character :: rest)) (character :: rest) :=
    length_number_pos character rest starts
  have within := numberLength_le (isHexadecimal (character :: rest)) (character :: rest)
  have whole : number (character :: rest) = _ := number_eq rfl rfl
  rw [whole, number_eq (isHexadecimal_take _ character rest apart positive)
    (numberLength_take _ _ apart), List.take_left' (List.length_take_of_le within)]

/-! ## Literals and words -/

theorem exists_closed {given kind : TokenKind} {cause : LexCause} {extent : Extent} {lead : Nat}
    (known : (ofExtent given cause (extent.shift lead)).outcome = .ok kind) :
    ∃ inner, extent = .closed inner := by
  cases extent with
  | closed inner => exact ⟨inner, rfl⟩
  | cut inner => cases known

/-- A literal between quotes is read again from its own characters. -/
theorem quoted_again {lead : Nat} {quote : Char} {body : List Char} {kind : TokenKind}
    (known : (quoted lead quote body).outcome = .ok kind) : ∃ inner ≤ body.length,
      (quoted lead quote body).length = lead + inner ∧
        ∀ behind, quoted lead quote (body.take inner ++ behind) = quoted lead quote body := by
  have closed : ∃ inner, Extent.quoted quote body = .closed inner := by
    unfold quoted at known
    simp only at known
    split at known
    · exact exists_closed known
    · exact exists_closed known
  obtain ⟨inner, closed⟩ := closed
  refine ⟨inner, Extent.quoted_le closed, ?_, fun behind => ?_⟩
  · unfold quoted
    simp only [closed]
    split <;> rfl
  · unfold quoted
    rw [closed, Extent.quoted_take closed]

/-- A raw string is read again from its own characters. -/
theorem rawString_again {lead : Nat} {body : List Char} {kind : TokenKind}
    (known : (rawString lead body).outcome = .ok kind) : ∃ inner ≤ body.length,
      (rawString lead body).length = lead + inner ∧
        ∀ behind, rawString lead (body.take inner ++ behind) = rawString lead body := by
  obtain ⟨inner, closed⟩ := exists_closed known
  obtain ⟨within, again⟩ := Extent.rawString_take closed
  refine ⟨inner, within, ?_, fun behind => ?_⟩
  · unfold rawString
    rw [closed]
    rfl
  · unfold rawString
    rw [closed, again]

/-- What a word is read as, by what stands behind its letters. -/
def wordBefore (dialect : Dialect) (letters : List Char) : List Char → Piece
  | '"' :: body =>
      if rawMarks.contains letters then rawString (letters.length + 1) body
      else if encodingMarks.contains letters then quoted (letters.length + 1) '"' body
      else ⟨letters.length, .ok (wordKind dialect letters)⟩
  | '\'' :: body =>
      if encodingMarks.contains letters then quoted (letters.length + 1) '\'' body
      else ⟨letters.length, .ok (wordKind dialect letters)⟩
  | _ => ⟨letters.length, .ok (wordKind dialect letters)⟩

theorem word_append (dialect : Dialect) {letters rest : List Char}
    (parts : ∀ character ∈ letters, isWordPart character = true)
    (ends : rest.head?.any isWordPart = false) :
    word dialect (letters ++ rest) = wordBefore dialect letters rest := by
  have first : upcomingWord (letters ++ rest) = letters := by
    unfold upcomingWord
    rw [List.takeWhile_append_of_pos parts]
    cases rest with
    | nil => simp
    | cons character rest =>
        have stops : isWordPart character = false := ends
        rw [List.takeWhile_cons_of_neg (by simp [stops]), List.append_nil]
  unfold word
  simp only [first, List.drop_left]
  split
  · simp [wordBefore]
  · simp [wordBefore]
  · rename_i unquoted unmarked
    unfold wordBefore
    split
    · exact absurd rfl (unquoted _)
    · exact absurd rfl (unmarked _)
    · rfl

theorem wordBefore_apart (dialect : Dialect) (letters : List Char) (apart : Apart behind) :
    wordBefore dialect letters behind = ⟨letters.length, .ok (wordKind dialect letters)⟩ := by
  cases behind with
  | nil => rfl
  | cons character rest =>
      obtain rfl := apart character rfl
      rfl

/-- What stands behind the letters of a word is part of a literal or nothing. -/
theorem wordBefore_again {dialect : Dialect} {letters rest : List Char} {kind : TokenKind}
    (known : (wordBefore dialect letters rest).outcome = .ok kind) :
    wordBefore dialect letters rest = ⟨letters.length, .ok (wordKind dialect letters)⟩ ∨
      ∃ quote body inner, rest = quote :: body ∧ inner ≤ body.length ∧ isWordPart quote = false ∧
        (wordBefore dialect letters rest).length = letters.length + 1 + inner ∧
          ∀ behind, wordBefore dialect letters (quote :: (body.take inner ++ behind)) =
            wordBefore dialect letters rest := by
  unfold wordBefore at known ⊢
  simp only [List.contains_iff_mem] at known ⊢
  split at known
  · rename_i body
    split at known
    · rename_i raw
      obtain ⟨inner, within, length, again⟩ := rawString_again known
      exact .inr
        ⟨_, body, inner, rfl, within, by decide, by simp [raw, length], by simp [raw, again]⟩
    · rename_i cooked
      split at known
      · rename_i marked
        obtain ⟨inner, within, length, again⟩ := quoted_again known
        exact .inr ⟨_, body, inner, rfl, within, by decide, by simp [cooked, marked, length],
          by simp [cooked, marked, again]⟩
      · rename_i unmarked
        exact .inl (by simp [cooked, unmarked])
  · rename_i body
    split at known
    · rename_i marked
      obtain ⟨inner, within, length, again⟩ := quoted_again known
      exact .inr ⟨_, body, inner, rfl, within, by decide, by simp [marked, length],
        by simp [marked, again]⟩
    · rename_i unmarked
      exact .inl (by simp [unmarked])
  · exact .inl rfl

/-- The letters at the front of a text. -/
theorem exists_letters (text : List Char) : ∃ letters rest, text = letters ++ rest ∧
    (∀ character ∈ letters, isWordPart character = true) ∧ rest.head?.any isWordPart = false := by
  refine ⟨text.takeWhile isWordPart, text.dropWhile isWordPart,
    List.takeWhile_append_dropWhile.symm, List.all_eq_true.1 List.all_takeWhile, ?_⟩
  have stops := List.head?_dropWhile_not isWordPart text
  cases behind : (text.dropWhile isWordPart).head? with
  | none => rfl
  | some character => simpa [behind] using stops

/-- A word, or the literal it introduces, is read again from its own characters. -/
theorem word_take {dialect : Dialect} {text : List Char} {kind : TokenKind}
    (apart : Apart behind) (known : (word dialect text).outcome = .ok kind) :
    (word dialect text).length ≤ text.length ∧
      word dialect (text.take (word dialect text).length ++ behind) = word dialect text := by
  obtain ⟨letters, rest, rfl, parts, ends⟩ := exists_letters text
  rw [word_append dialect parts ends] at known ⊢
  rcases wordBefore_again known with
    plain | ⟨quote, body, inner, rfl, within, outside, length, again⟩
  · refine ⟨by simp [plain], ?_⟩
    rw [plain, List.take_left, word_append dialect parts (any_apart apart (by decide)),
      wordBefore_apart dialect letters apart]
  · constructor
    · rw [length, List.length_append, List.length_cons]
      omega
    · rw [length, Nat.add_assoc, List.take_length_add_append, Nat.add_comm 1, List.take_succ_cons,
        List.append_assoc, List.cons_append, word_append dialect parts, again]
      exact outside

/-! ## Punctuators -/

theorem not_mem_spelling (mark : Punct) : ' ' ∉ mark.spelling := by
  cases mark <;> decide

theorem prefix_of_longest? {text : List Char} {mark : Punct}
    (longest : Punct.longest? text = some mark) : mark.spelling <+: text := by
  have starts := List.find?_some longest
  exact List.isPrefixOf_iff_prefix.1 starts

/-- A punctuator is found in front of a text whose first character makes no longer one of it. -/
theorem longest?_append {mark : Punct} (longest : Punct.longest? mark.spelling = some mark)
    (ends : ∀ character ∈ behind.head?, ∀ other : Punct,
      ¬ mark.spelling ++ [character] <+: other.spelling) :
    Punct.longest? (mark.spelling ++ behind) = some mark := by
  unfold Punct.longest? at longest ⊢
  rw [List.find?_eq_some_iff_append] at longest ⊢
  obtain ⟨starts, before, after, order, others⟩ := longest
  refine ⟨List.isPrefixOf_iff_prefix.2 (List.prefix_append _ _), before, after, order, ?_⟩
  intro other member
  have absent := others other member
  rw [Bool.not_eq_true', ← Bool.not_eq_true, List.isPrefixOf_iff_prefix] at absent ⊢
  intro begins
  rcases List.prefix_or_prefix_of_prefix begins (List.prefix_append mark.spelling behind) with
    shorter | ⟨more, longer⟩
  · exact absent shorter
  · rw [← longer, List.prefix_append_right_inj] at begins
    cases more with
    | nil =>
        rw [← longer, List.append_nil] at absent
        exact absent (List.prefix_refl _)
    | cons character more =>
        obtain ⟨rest, rfl⟩ := begins
        exact ends character rfl other ⟨more, by simp [← longer]⟩

/-- No other punctuator that comes first has the spelling that was found. -/
theorem longest?_spelling {text : List Char} {mark : Punct}
    (longest : Punct.longest? text = some mark) : Punct.longest? mark.spelling = some mark := by
  unfold Punct.longest? at longest ⊢
  rw [List.find?_eq_some_iff_append] at longest ⊢
  obtain ⟨starts, before, after, order, others⟩ := longest
  refine ⟨List.isPrefixOf_iff_prefix.2 (List.prefix_refl _), before, after, order, ?_⟩
  intro other member
  have absent := others other member
  rw [Bool.not_eq_true', ← Bool.not_eq_true, List.isPrefixOf_iff_prefix] at absent ⊢
  exact fun shorter => absent (shorter.trans (List.isPrefixOf_iff_prefix.1 starts))

/-- The longest punctuator is found again, as nothing in front of a space goes on with it. -/
theorem longest?_take {text : List Char} {mark : Punct} (apart : Apart behind)
    (longest : Punct.longest? text = some mark) :
    Punct.longest? (mark.spelling ++ behind) = some mark := by
  apply longest?_append (longest?_spelling longest)
  intro character first other starts
  rw [apart character first] at starts
  exact not_mem_spelling other (starts.subset (by simp))

theorem punctuator_take {character : Char} {rest : List Char} {kind : TokenKind}
    (apart : Apart behind) (known : (punctuator character rest).outcome = .ok kind) :
    ∃ count, (punctuator character rest).length = count + 1 ∧ count ≤ rest.length ∧
      punctuator character (rest.take count ++ behind) = punctuator character rest := by
  unfold punctuator at known ⊢
  cases longest : Punct.longest? (character :: rest) with
  | none => simp [longest] at known
  | some mark =>
      have starts := prefix_of_longest? longest
      have again := longest?_take apart longest
      obtain ⟨first, spelled, spelling⟩ := List.exists_cons_of_ne_nil (Punct.spelling_ne_nil mark)
      rw [spelling] at starts again
      obtain ⟨rfl, further⟩ := List.cons_prefix_cons.1 starts
      refine ⟨spelled.length, by simp [spelling], further.length_le, ?_⟩
      rw [← List.prefix_iff_eq_take.1 further, ← List.cons_append, again]

/-! ## The piece at the front -/

theorem startsNumber_take {character : Char} {rest : List Char} {count : Nat}
    (apart : Apart behind) (within : count ≤ rest.length)
    (whole : startsNumber character rest = true → character = '.' → count ≠ 0) :
    startsNumber character (rest.take count ++ behind) = startsNumber character rest := by
  unfold startsNumber at whole ⊢
  rw [head?_take_append behind within]
  split
  · rename_i none
    rw [any_apart apart (by decide), Bool.and_false, Bool.or_false]
    by_cases digit : character.isDigit = true
    · simp [digit]
    · by_cases dot : character = '.'
      · by_cases digits : rest.head?.any Char.isDigit = true
        · exact absurd none (whole (by simp [dot, digits]) dot)
        · simp [digit, digits]
      · simp [digit, dot]
  · rfl

/-- A number that starts with a dot goes on with a digit. -/
theorem numberLength_dot (hexadecimal : Bool) {rest : List Char}
    (starts : startsNumber '.' rest = true) : numberLength hexadecimal ('.' :: rest) ≠ 1 := by
  have digit : rest.head?.any Char.isAlphanum = true := by
    obtain ⟨character, here, known⟩ :=
      (Option.any_eq_true _ _).1 (by simpa [startsNumber] using starts)
    simp [here, Char.isAlphanum, known]
  have further := numberLength_pos hexadecimal digit
  rw [numberLength_cons, if_neg, if_pos (.inl (by rfl))]
  · omega
  · rintro ⟨exponent, _⟩
    cases hexadecimal <;> cases exponent

/-- What is read at the front of a text is read again from its own characters. -/
theorem scan_take {dialect : Dialect} {text : List Char} {piece : Piece} {kind : TokenKind}
    (apart : Apart behind) (found : scan dialect text = some piece)
    (known : piece.outcome = .ok kind) :
    piece.length ≤ text.length ∧
      scan dialect (text.take piece.length ++ behind) = some piece := by
  cases text with
  | nil => cases found
  | cons character rest =>
      simp only [scan, Option.some.injEq] at found
      subst found
      by_cases quote : character = '"' ∨ character = '\''
      · rw [if_pos quote] at known ⊢
        obtain ⟨inner, within, length, again⟩ := quoted_again known
        refine ⟨by rw [length, List.length_cons]; omega, ?_⟩
        rw [length, Nat.add_comm, List.take_succ_cons, List.cons_append, scan, if_pos quote, again]
      rw [if_neg quote] at known ⊢
      by_cases digits : startsNumber character rest = true
      · rw [if_pos digits] at known ⊢
        have again := number_take apart digits
        obtain ⟨count, length⟩ : ∃ count, (number (character :: rest)).length = count + 1 :=
          ⟨_, (Nat.sub_add_cancel (length_number_pos character rest digits)).symm⟩
        have within := numberLength_le (isHexadecimal (character :: rest)) (character :: rest)
        change (number (character :: rest)).length ≤ _ at within
        refine ⟨within, ?_⟩
        rw [length, List.length_cons] at within
        rw [length, List.take_succ_cons, List.cons_append] at again ⊢
        rw [scan, if_neg quote, startsNumber_take apart (by omega), if_pos digits, again]
        rintro - rfl rfl
        have fraction := numberLength_dot (isHexadecimal ('.' :: rest)) digits
        change (number ('.' :: rest)).length ≠ 1 at fraction
        exact fraction length
      rw [if_neg digits] at known ⊢
      by_cases letter : isWordStart character = true
      · rw [if_pos letter] at known ⊢
        obtain ⟨within, again⟩ := word_take apart known
        refine ⟨within, ?_⟩
        obtain ⟨count, length⟩ : ∃ count, (word dialect (character :: rest)).length = count + 1 :=
          ⟨_, (Nat.sub_add_cancel (length_word_pos dialect character rest letter)).symm⟩
        rw [length, List.take_succ_cons, List.cons_append] at again ⊢
        rw [scan, if_neg quote, if_neg, if_pos letter, again]
        simp only [startsNumber, Bool.or_eq_true, Bool.and_eq_true, not_or] at digits ⊢
        refine ⟨digits.1, fun dot => ?_⟩
        rw [beq_iff_eq.1 dot.1] at letter
        cases letter
      · rw [if_neg letter] at known ⊢
        obtain ⟨count, length, within, again⟩ := punctuator_take apart known
        refine ⟨by rw [length, List.length_cons]; omega, ?_⟩
        rw [length, List.take_succ_cons, List.cons_append, scan, if_neg quote,
          startsNumber_take apart within, if_neg digits, if_neg letter, again]
        exact fun starts => absurd starts digits

/-- What starts like no literal, number or word is a punctuator. -/
theorem punct_of_scan {dialect : Dialect} {character : Char} {rest : List Char} {piece : Piece}
    {kind : TokenKind} (found : scan dialect (character :: rest) = some piece)
    (known : piece.outcome = .ok kind) (quote : ¬ (character = '"' ∨ character = '\''))
    (digits : startsNumber character rest = false) (letter : isWordStart character = false) :
    ∃ mark : Punct, kind = .punct mark ∧ mark.spelling.head? = some character := by
  simp only [scan, Option.some.injEq, if_neg quote, digits, letter] at found
  subst found
  cases longest : Punct.longest? (character :: rest) with
  | none => simp [punctuator, longest] at known
  | some mark =>
      obtain ⟨first, spelled, spelling⟩ := List.exists_cons_of_ne_nil (Punct.spelling_ne_nil mark)
      have starts := prefix_of_longest? longest
      rw [spelling] at starts
      obtain ⟨rfl, _⟩ := List.cons_prefix_cons.1 starts
      have same : TokenKind.punct mark = kind := by simpa [punctuator, longest] using known
      exact ⟨mark, same.symm, by rw [spelling]; rfl⟩

/-- What is read starts with no blank, and with `#` only if it is that. -/
theorem head_of_scan {dialect : Dialect} {character : Char} {rest : List Char} {piece : Piece}
    {kind : TokenKind} (found : scan dialect (character :: rest) = some piece)
    (known : piece.outcome = .ok kind) :
    character ≠ byteOrderMark ∧ isSpace character = false ∧
      (character = '#' → kind = .punct .hash ∨ kind = .punct .hashHash) := by
  have visible : character ∉ [' ', '\t', '\n', '\x0C', '\r', byteOrderMark] := by
    intro blank
    have plain : ¬ (character = '"' ∨ character = '\'') ∧ startsNumber character rest = false ∧
        isWordStart character = false ∧ ∀ mark : Punct, mark.spelling.head? ≠ some character := by
      simp only [List.mem_cons, List.not_mem_nil, or_false] at blank
      rcases blank with rfl | rfl | rfl | rfl | rfl | rfl <;>
        exact ⟨by decide, rfl, by decide, fun mark => by cases mark <;> decide⟩
    obtain ⟨quote, digits, letter, unmarked⟩ := plain
    obtain ⟨mark, _, first⟩ := punct_of_scan found known quote digits letter
    exact unmarked mark first
  simp only [List.mem_cons, List.not_mem_nil, or_false, not_or] at visible
  refine ⟨visible.2.2.2.2.2, ?_, ?_⟩
  · simp [isSpace, visible]
  · rintro rfl
    obtain ⟨mark, rfl, first⟩ := punct_of_scan found known (by decide) rfl (by decide)
    cases mark <;> first | exact .inl rfl | exact .inr rfl | cases first

end Piece

/-! ## Reading tokens again -/

theorem skippedExtent_eq_none {lineIsBlank : Bool} {text : List Char}
    (slash : ∀ mark rest, text = '/' :: mark :: rest → mark ≠ '/' ∧ mark ≠ '*')
    (hash : '#' ∈ text.head? → lineIsBlank = false) : skippedExtent lineIsBlank text = none := by
  unfold skippedExtent
  split
  · exact absurd rfl (slash _ _ rfl).1
  · exact absurd rfl (slash _ _ rfl).2
  · rw [hash rfl]
    rfl
  · rfl

namespace Reader

variable {dialect : Dialect} {reader other : Reader} {lead text behind : List Char}

/-- Behind at most one space, nothing is skipped in front of a token. -/
theorem skipTrivia_of_lead (unread : other.unread = lead ++ text)
    (single : lead = [] ∨ lead = [' '])
    (visible : ∀ character ∈ text.head?, character ≠ byteOrderMark ∧ isSpace character = false)
    (plain : skippedExtent (other.skip lead.length).lineIsBlank text = none) :
    other.skipTrivia = (none, other.skip lead.length) := by
  have blanks : blankLength other.unread = lead.length := by
    rw [unread]
    have unspaced : text.takeWhile isSpace = [] := by
      cases text with
      | nil => rfl
      | cons character rest => rw [List.takeWhile_cons_of_neg]; simp [visible character rfl]
    rcases single with rfl | rfl
    · cases text with
      | nil => rfl
      | cons character rest =>
          rw [List.nil_append, blankLength, if_neg (visible character rfl).1, unspaced]
    · rw [List.singleton_append, blankLength, if_neg (by decide),
        List.takeWhile_cons_of_pos (by decide), unspaced]
  have behindLead : (other.skip lead.length).unread = text := by
    rw [unread_skip, unread, List.drop_left]
  rw [skipTrivia]
  simp only [blanks]
  split
  · rfl
  · rename_i found
    rw [blanks, behindLead, plain] at found
    cases found
  · rename_i found
    rw [blanks, behindLead, plain] at found
    cases found

/-- The end of a text has no characters. -/
theorem lexeme_of_eof (ended : (reader.next dialect).token.kind = .eof) :
    (reader.next dialect).token.lexeme = "" := by
  unfold next at ended ⊢
  split at ended
  · cases ended
  · rename_i start skipped
    split at ended
    · rfl
    · rename_i piece found
      split at ended
      · rename_i kind known
        exact absurd ended (Piece.weight_le found known).1
      · cases ended

/-- Without characters but a space, the end is read. -/
theorem next_of_nil (dialect : Dialect) (single : lead = [] ∨ lead = [' '])
    (empty : reader.unread = lead) :
    (reader.next dialect).token.kind = .eof ∧ (reader.next dialect).token.lexeme = "" ∧
      (reader.next dialect).error = none := by
  have split : reader.unread = lead ++ [] := by rw [empty, List.append_nil]
  have trivia : reader.skipTrivia = (none, reader.skip lead.length) :=
    skipTrivia_of_lead split single (by simp) rfl
  have nothing : (reader.skip lead.length).unread = [] := by
    rw [unread_skip, empty, List.drop_length]
  rw [next, trivia]
  simp only [nothing]
  exact ⟨rfl, rfl, rfl⟩

section Front

variable {kind : TokenKind} (single : lead = [] ∨ lead = [' '])
  (unread : other.unread = lead ++ (text ++ behind))
  (found : Piece.scan dialect (text ++ behind) = some ⟨text.length, .ok kind⟩)
  (plain : skippedExtent (other.skip lead.length).lineIsBlank (text ++ behind) = none)

include single unread found plain

theorem skipTrivia_of_front : other.skipTrivia = (none, other.skip lead.length) := by
  apply skipTrivia_of_lead unread single _ plain
  intro character first
  obtain ⟨rest, starts⟩ := List.head?_eq_some_iff.1 first
  rw [starts] at found
  have visible := Piece.head_of_scan found rfl
  exact ⟨visible.1, visible.2.1⟩

/-- Behind at most one space, the piece at the front of what follows is read. -/
theorem next_of_front : (other.next dialect).token.kind = kind ∧
    (other.next dialect).token.lexeme = String.ofList text ∧
      (other.next dialect).error = none ∧ (other.next dialect).reader.unread = behind := by
  have located : (other.skip lead.length).unread = text ++ behind := by
    rw [unread_skip, unread, List.drop_left]
  rw [next, skipTrivia_of_front single unread found plain]
  simp only [located, found, unread_skip]
  rw [List.take_left, List.drop_left]
  exact ⟨trivial, rfl, trivial, rfl⟩

theorem lineIsBlank_of_front : (other.next dialect).reader.lineIsBlank =
    text.foldl blankAfter (other.skip lead.length).lineIsBlank := by
  have located : (other.skip lead.length).unread = text ++ behind := by
    rw [unread_skip, unread, List.drop_left]
  rw [next, skipTrivia_of_front single unread found plain]
  simp only [located, found]
  rw [Reader.skip, located, List.take_left]

end Front

end Reader

namespace TokenStream

/-- Some lexemes one behind the other, with a space between any two of them. -/
def joined (lead : List Char) : List String → List Char
  | [] => []
  | lexeme :: others => lead ++ (lexeme.toList ++ joined [' '] others)

/-- The lexemes of the tokens in front of the end of a text. -/
def lexemes (stream : TokenStream) : List String :=
  (stream.tokens.filter (·.kind != .eof)).map Token.lexeme

variable {dialect : Dialect} {reader : Reader}

theorem ofReader_ended (ended : (reader.next dialect).token.kind = .eof) :
    ofReader dialect reader = cons (reader.next dialect) ⟨[], []⟩ := by
  rw [ofReader, dif_pos ended]

theorem ofReader_more (more : (reader.next dialect).token.kind ≠ .eof) :
    ofReader dialect reader =
      cons (reader.next dialect) (ofReader dialect (reader.next dialect).reader) := by
  rw [ofReader, dif_neg more]

/-- What is compared of tokens: their kinds and lexemes, in order. -/
def words (stream : TokenStream) : List (TokenKind × String) :=
  stream.tokens.map fun token => (token.kind, token.lexeme)

-- A `#` that is a token stands at the start of a line once what was before it is gone.
example : ((ofSource .cpp "a ## b").words, (ofSource .cpp "## b").words) =
    ([(.identifier, "a"), (.punct .hashHash, "##"), (.identifier, "b"), (.eof, "")],
      [(.eof, "")]) := by
  decide +kernel

end TokenStream

end DeclTree
