import DeclTree.Proofs.BalancedStretches
import DeclTree.Proofs.Lookahead

/-!
# Stretches with more text behind them

What is measured ahead in a text that ends like a declaration stays the same with more text
behind, or goes right up to the end of the text.  The rest of a declaration that is given up never
goes past that end if the delimiters of the text are properly nested.
-/

namespace DeclTree

namespace TokenKind

/-- Whether a declaration may end with a token. -/
def endsDeclaration : TokenKind → Bool
  | .punct .semicolon | .punct .rightBrace => true
  | _ => false

theorem endsDeclaration_cases {kind : TokenKind} (ends : kind.endsDeclaration = true) :
    kind = .punct .semicolon ∨ kind = .punct .rightBrace := by
  unfold endsDeclaration at ends
  split at ends <;> simp_all

theorem endsSearch_of_endsDeclaration {kind : TokenKind} (ends : kind.endsDeclaration = true) :
    kind.endsSearch = true := by
  rcases endsDeclaration_cases ends with rfl | rfl <;> rfl

def closesGroup : TokenKind → Bool
  | .punct .rightParen | .punct .rightBracket | .punct .rightBrace => true
  | _ => false

theorem closer?_eq_some_iff {opener closer : TokenKind} : opener.closer? = some closer ↔
    (opener = .punct .leftParen ∧ closer = .punct .rightParen) ∨
      (opener = .punct .leftBracket ∧ closer = .punct .rightBracket) ∨
        (opener = .punct .leftBrace ∧ closer = .punct .rightBrace) := by
  unfold closer?
  split <;> simp_all [eq_comm]

theorem closesGroup_of_closer? {opener closer : TokenKind}
    (closes : opener.closer? = some closer) : closer.closesGroup = true := by
  rcases closer?_eq_some_iff.1 closes with ⟨_, rfl⟩ | ⟨_, rfl⟩ | ⟨_, rfl⟩ <;> rfl

theorem closer?_of_closesGroup {kind : TokenKind} (closes : kind.closesGroup = true) :
    kind.closer? = none := by
  unfold closesGroup at closes
  split at closes <;> first | rfl | cases closes

/-- Each kind of group has its own delimiters. -/
theorem opener_of_closer? {opener other closer : TokenKind} (first : opener.closer? = some closer)
    (second : other.closer? = some closer) : opener = other := by
  rcases closer?_eq_some_iff.1 first with ⟨rfl, rfl⟩ | ⟨rfl, rfl⟩ | ⟨rfl, rfl⟩ <;>
    simpa [closer?_eq_some_iff, eq_comm] using second

end TokenKind

/-- Whether some tokens, if there are any, end like a declaration. -/
def Ended (tokens : List Token) : Prop :=
  ∀ token, tokens.getLast? = some token → token.kind.endsDeclaration = true

namespace Ended

variable {token : Token} {tokens rest : List Token}

theorem drop (ended : Ended tokens) (count : Nat) : Ended (tokens.drop count) := by
  intro token last
  rw [List.getLast?_drop] at last
  split at last
  · cases last
  · exact ended token last

theorem tail (ended : Ended (token :: rest)) : Ended rest :=
  ended.drop 1

/-- Behind a token that ends no declaration there are others. -/
theorem rest_ne_nil (ended : Ended (token :: rest)) (inner : token.kind.endsDeclaration = false) :
    rest ≠ [] := by
  rintro rfl
  simp [ended token rfl] at inner

/-- The last of some tokens. -/
theorem exists_last (ended : Ended tokens) (more : tokens ≠ []) : ∃ front last,
    tokens = front ++ [last] ∧ last.kind.endsDeclaration = true := by
  refine ⟨tokens.dropLast, tokens.getLast more, (List.dropLast_concat_getLast more).symm, ?_⟩
  exact ended _ (List.getLast?_eq_some_getLast more)

end Ended

/-- Whether some tokens close the groups that are open in front of them, innermost first, and all
they open themselves. -/
def closesGroups : List TokenKind → List Token → Bool
  | stack, [] => stack.isEmpty
  | stack, token :: rest =>
      match token.kind.closer? with
      | some closer => closesGroups (closer :: stack) rest
      | none =>
          if token.kind.closesGroup then
            match stack with
            | [] => false
            | closer :: stack => token.kind == closer && closesGroups stack rest
          else closesGroups stack rest

/-- Whether the delimiters in some tokens, which may close groups from in front of them, are
properly nested. -/
def ClosesGroups (tokens : List Token) : Prop :=
  ∃ stack, closesGroups stack tokens = true

theorem ClosesGroups.tail {token : Token} {rest : List Token}
    (nested : ClosesGroups (token :: rest)) : ClosesGroups rest := by
  obtain ⟨stack, nested⟩ := nested
  unfold closesGroups at nested
  split at nested
  · exact ⟨_, nested⟩
  · split at nested
    · split at nested
      · cases nested
      · exact ⟨_, (Bool.and_eq_true _ _ ▸ nested).2⟩
    · exact ⟨_, nested⟩

theorem ClosesGroups.drop {tokens : List Token} (nested : ClosesGroups tokens) (count : Nat) :
    ClosesGroups (tokens.drop count) := by
  induction count generalizing tokens with
  | zero => exact nested
  | succ count ih =>
      cases tokens with
      | nil => exact nested
      | cons token rest => exact ih nested.tail

namespace Stretch

variable {token : Token} {tokens rest : List Token}

/-! ## Groups -/

/-- Where enough groups of a kind are open in front, one that is opened is closed. -/
theorem groupTail_of_closesGroups {opener closer : TokenKind}
    (closes : opener.closer? = some closer) {stack : List TokenKind} {depth : Nat}
    (positive : 0 < depth) (inside : depth ≤ stack.count closer)
    (nested : closesGroups stack tokens = true) :
    (groupTail opener closer depth tokens).2 = true := by
  have closing := TokenKind.closesGroup_of_closer? closes
  have apart : closer.closer? = none := TokenKind.closer?_of_closesGroup closing
  induction tokens generalizing stack depth with
  | nil =>
      obtain rfl : stack = [] := by simpa [closesGroups] using nested
      simp only [List.count_nil] at inside
      omega
  | cons token rest ih =>
      unfold closesGroups at nested
      by_cases opens : token.kind = opener
      · rw [Braces.groupTail_opener opens]
        rw [opens, closes] at nested
        refine ih (Nat.succ_pos depth) ?_ nested
        rw [List.count_cons_self]
        omega
      · by_cases ends : token.kind = closer
        · rw [ends, apart] at nested
          simp only [closing, if_true] at nested
          cases stack with
          | nil => cases nested
          | cons top stack =>
              simp only [Bool.and_eq_true, beq_iff_eq] at nested
              obtain ⟨rfl, nested⟩ := nested
              rw [List.count_cons_self] at inside
              by_cases last : depth ≤ 1
              · rw [Braces.groupTail_last opens ends last]
              · rw [Braces.groupTail_inner opens ends last]
                exact ih (by omega) (by omega) nested
        · rw [Braces.groupTail_plain opens ends]
          split at nested
          · rename_i other another
            have different : other ≠ closer := by
              rintro rfl
              exact opens (TokenKind.opener_of_closer? another closes)
            refine ih positive ?_ nested
            rwa [List.count_cons_of_ne different]
          · split at nested
            · cases stack with
              | nil => cases nested
              | cons top stack =>
                  simp only [Bool.and_eq_true, beq_iff_eq] at nested
                  obtain ⟨rfl, nested⟩ := nested
                  rw [List.count_cons_of_ne ends] at inside
                  exact ih positive inside nested
            · exact ih positive inside nested

/-- A group that starts in properly nested tokens is closed in them. -/
theorem unclosed_of_closesGroups (nested : ClosesGroups (token :: rest))  :
    (group (token :: rest)).unclosed = none := by
  cases closes : token.kind.closer? with
  | none => simp [group, closes]
  | some closer =>
      obtain ⟨stack, nested⟩ := nested
      unfold closesGroups at nested
      rw [closes] at nested
      have closed := groupTail_of_closesGroups closes Nat.one_pos
        (by rw [List.count_cons_self]; omega) nested
      rw [group_of_closer closes, closed]
      rfl

/-- A group that is closed ends with its closing delimiter. -/
theorem getElem?_groupTail {opener closer : TokenKind} {depth : Nat}
    (closed : (groupTail opener closer depth tokens).2 = true) :
    ∃ count token, (groupTail opener closer depth tokens).1 = count + 1 ∧
      tokens[count]? = some token ∧ token.kind = closer := by
  induction tokens generalizing depth with
  | nil => cases closed
  | cons token rest ih =>
      have deeper (depth : Nat) (closed : (groupTail opener closer depth rest).2 = true) :
          ∃ count last, 1 + (groupTail opener closer depth rest).1 = count + 1 ∧
            (token :: rest)[count]? = some last ∧ last.kind = closer := by
        obtain ⟨count, last, length, found, kind⟩ := ih closed
        exact ⟨count + 1, last, by omega, found, kind⟩
      by_cases opens : token.kind = opener
      · rw [Braces.groupTail_opener opens] at closed ⊢
        exact deeper _ closed
      · by_cases ends : token.kind = closer
        · by_cases last : depth ≤ 1
          · rw [Braces.groupTail_last opens ends last]
            exact ⟨0, token, rfl, rfl, ends⟩
          · rw [Braces.groupTail_inner opens ends last] at closed ⊢
            exact deeper _ closed
        · rw [Braces.groupTail_plain opens ends] at closed ⊢
          exact deeper _ closed

/-! ## More text behind -/

theorem groupTail_append (opener closer : TokenKind) (depth : Nat) (tokens more : List Token) :
    groupTail opener closer depth (tokens ++ more) = groupTail opener closer depth tokens ∨
      (groupTail opener closer depth tokens).2 = false := by
  induction tokens generalizing depth with
  | nil => exact .inr rfl
  | cons token rest ih =>
      rw [List.cons_append]
      by_cases opens : token.kind = opener
      · rw [Braces.groupTail_opener opens, Braces.groupTail_opener opens]
        exact (ih (depth + 1)).imp_left fun same => by rw [same]
      · by_cases ends : token.kind = closer
        · by_cases last : depth ≤ 1
          · rw [Braces.groupTail_last opens ends last, Braces.groupTail_last opens ends last]
            exact .inl rfl
          · rw [Braces.groupTail_inner opens ends last, Braces.groupTail_inner opens ends last]
            exact (ih (depth - 1)).imp_left fun same => by rw [same]
        · rw [Braces.groupTail_plain opens ends, Braces.groupTail_plain opens ends]
          exact (ih depth).imp_left fun same => by rw [same]

/-- A group stays the same with more text behind unless it is not closed. -/
theorem group_append (nonempty : tokens ≠ []) (more : List Token) :
    group (tokens ++ more) = group tokens ∨
      ((group tokens).unclosed.isSome ∧ (group tokens).length = tokens.length) := by
  obtain ⟨token, rest, rfl⟩ := List.exists_cons_of_ne_nil nonempty
  cases closes : token.kind.closer? with
  | none => simp [group, closes]
  | some closer =>
      rw [List.cons_append, group_of_closer closes, group_of_closer closes]
      refine (groupTail_append token.kind closer 1 rest more).imp ?_ fun leftOpen => ?_
      · intro same
        rw [same]
      · simp [leftOpen, Braces.length_groupTail_of_open leftOpen, Nat.add_comm]

theorem group_append_of_closed (nonempty : tokens ≠ [])
    (closed : (group tokens).unclosed = none) (more : List Token) :
    group (tokens ++ more) = group tokens := by
  refine (group_append nonempty more).resolve_right ?_
  rintro ⟨unclosed, _⟩
  rw [closed] at unclosed
  cases unclosed

def Exhausts (stretch : Stretch) (tokens : List Token) : Prop :=
  stretch.length = tokens.length

theorem Exhausts.andThen {continuation : List Token → Stretch}
    (closed : (group tokens).unclosed = none)
    (exhausts : (continuation (tokens.drop (group tokens).length)).Exhausts
      (tokens.drop (group tokens).length)) :
    ((group tokens).andThen fun _ =>
      continuation (tokens.drop (group tokens).length)).Exhausts tokens := by
  have within := length_group_le tokens
  have whole : _ = _ := exhausts
  rw [List.length_drop] at whole
  simp only [Exhausts, Stretch.andThen, closed, shift]
  omega

/-- Going on behind a group with more text behind. -/
theorem group_andThen_append {continuation : List Token → Stretch} (nonempty : tokens ≠ [])
    {more : List Token}
    (rest : continuation (tokens.drop (group tokens).length ++ more) =
        continuation (tokens.drop (group tokens).length) ∨
      (continuation (tokens.drop (group tokens).length)).Exhausts
        (tokens.drop (group tokens).length)) :
    ((group (tokens ++ more)).andThen fun _ =>
        continuation ((tokens ++ more).drop (group (tokens ++ more)).length)) =
      ((group tokens).andThen fun _ => continuation (tokens.drop (group tokens).length)) ∨
    ((group tokens).andThen fun _ =>
      continuation (tokens.drop (group tokens).length)).Exhausts tokens := by
  cases unclosed : (group tokens).unclosed with
  | none =>
      rw [group_append_of_closed nonempty unclosed,
        List.drop_append_of_le_length (length_group_le tokens)]
      exact rest.imp (fun same => by rw [same]) (Exhausts.andThen unclosed)
  | some opener =>
      refine (group_append nonempty more).imp (fun same => ?_) fun leftOpen => ?_
      · rw [same]
        simp [Stretch.andThen, unclosed]
      · simpa [Exhausts, Stretch.andThen, unclosed] using leftOpen.2

theorem Exhausts.shift_one {stretch : Stretch} (exhausts : stretch.Exhausts rest) :
    (stretch.shift 1).Exhausts (token :: rest) := by
  have whole : _ = _ := exhausts
  simp only [Exhausts, shift, List.length_cons]
  omega

theorem suffixes_append (tokens more : List Token) :
    suffixes (tokens ++ more) = suffixes tokens ∨ (suffixes tokens).Exhausts tokens := by
  fun_induction suffixes tokens with
  | case1 => exact .inr rfl
  | case2 token rest opens inner ih =>
      rw [List.cons_append, suffixes, if_pos opens]
      exact group_andThen_append (List.cons_ne_nil token rest) ih
  | case3 token rest other =>
      rw [List.cons_append, suffixes, if_neg other]
      exact .inl rfl

end Stretch

namespace Angle

/-- The end of a template argument list is found in front of the end of a declaration. -/
theorem close?_append {tokens : List Token} (ended : Ended tokens) (nonempty : tokens ≠ [])
    (more : List Token) : close? (tokens ++ more) = close? tokens := by
  obtain ⟨front, last, rfl, ends⟩ := ended.exists_last nonempty
  have stops := TokenKind.endsSearch_of_endsDeclaration ends
  rw [List.append_assoc, List.singleton_append, close?_append_end stops,
    close?_append_end stops]

end Angle

namespace Ahead

variable {tokens : List Token}

theorem isConstructor_append (ended : Ended tokens) (nonempty : tokens ≠ [])
    (className : Option String) (more : List Token) :
    isConstructor className (tokens ++ more) = isConstructor className tokens := by
  obtain ⟨front, last, rfl, ends⟩ := ended.exists_last nonempty
  have stops := TokenKind.endsSearch_of_endsDeclaration ends
  rw [List.append_assoc, List.singleton_append, isConstructor_append_end stops,
    isConstructor_append_end stops]

theorem memberPointer?_append (ended : Ended tokens) (nonempty : tokens ≠ [])
    (more : List Token) : memberPointer? (tokens ++ more) = memberPointer? tokens := by
  obtain ⟨front, last, rfl, ends⟩ := ended.exists_last nonempty
  have stops := TokenKind.endsSearch_of_endsDeclaration ends
  rw [List.append_assoc, List.singleton_append, memberPointer?_append_end stops,
    memberPointer?_append_end stops]

end Ahead

namespace Stretch

variable {token : Token} {tokens rest : List Token}

theorem startsWith_append (kind : TokenKind) (nonempty : rest ≠ []) (more : List Token) :
    startsWith kind (rest ++ more) = startsWith kind rest := by
  cases rest with
  | nil => contradiction
  | cons token rest => rfl

/-- What ends an expression covers what may end a declaration. -/
theorem endsExpression_of_endsDeclaration {kind : TokenKind}
    (ends : kind.endsDeclaration = true) : endsExpression kind = true := by
  rcases TokenKind.endsDeclaration_cases ends with rfl | rfl <;> rfl

theorem expression_append {stops : List TokenKind} (ended : Ended tokens) (more : List Token) :
    expression stops (tokens ++ more) = expression stops tokens ∨
      (expression stops tokens).Exhausts tokens := by
  fun_induction expression stops tokens with
  | case1 => exact .inr rfl
  | case2 token rest ends =>
      rw [List.cons_append, expression, if_pos ends]
      exact .inl rfl
  | case3 token rest goes opens inner ih =>
      rw [List.cons_append, expression, if_neg goes, if_pos opens]
      exact group_andThen_append (List.cons_ne_nil token rest) (ih (ended.drop _))
  | case4 token rest goes plain named arguments ih =>
      have nonempty : rest ≠ [] := startsWith_ne_nil named.2
      rw [List.cons_append, expression, if_neg goes, if_neg plain,
        startsWith_append _ nonempty, if_pos named]
      have inside : arguments ≤ rest.length := by
        unfold arguments
        cases closed : Angle.close? rest with
        | none => exact Nat.zero_le _
        | some length => exact Angle.close?_le closed
      simp only [Angle.close?_append ended.tail nonempty]
      change (expression stops ((rest ++ more).drop arguments)).shift (1 + arguments) = _ ∨ _
      rw [List.drop_append_of_le_length inside]
      refine (ih (ended.tail.drop _)).imp (fun same => by rw [same]) fun exhausts => ?_
      have whole : _ = _ := exhausts
      rw [List.length_drop] at whole
      simp only [Exhausts, shift, List.length_cons]
      omega
  | case5 token rest goes plain other ih =>
      have inner : token.kind.endsDeclaration = false := Bool.eq_false_iff.2 fun ends =>
        goes (by rw [endsExpression_of_endsDeclaration ends, Bool.or_true])
      have nonempty := ended.rest_ne_nil inner
      rw [List.cons_append, expression, if_neg goes, if_neg plain,
        startsWith_append _ nonempty, if_neg other]
      exact (ih ended.tail).imp (fun same => by rw [same]) Exhausts.shift_one

/-- A group in parentheses or brackets is not the end of a declaration. -/
theorem drop_group_ne_nil (ended : Ended (token :: rest)) {closer : TokenKind}
    (closes : token.kind.closer? = some closer) (inner : closer.endsDeclaration = false)
    (closed : (group (token :: rest)).unclosed = none) :
    (token :: rest).drop (group (token :: rest)).length ≠ [] := by
  rw [group_of_closer closes] at closed ⊢
  have whole : (groupTail token.kind closer 1 rest).2 = true := Decidable.byContradiction
    fun leftOpen => by simp [leftOpen] at closed
  obtain ⟨count, last, length, found, kind⟩ := getElem?_groupTail whole
  intro none
  have long := List.drop_eq_nil_iff.1 none
  have short := (List.getElem?_eq_some_iff.1 found).1
  have final : (token :: rest).getLast? = some last := by
    have place : (token :: rest).length - 1 = count + 1 := by
      simp only [length, List.length_cons] at long ⊢
      omega
    rw [List.getLast?_eq_getElem?, place, List.getElem?_cons_succ, found]
  have ends := ended last final
  rw [kind, inner] at ends
  cases ends

theorem endsDeclaration_of_attribute
    (word : token.kind = .keyword .alignasKw ∨ isVendorAttribute token = true) :
    token.kind.endsDeclaration = false := by
  rcases word with kind | vendor
  · rw [kind]
    rfl
  · have kind : token.kind = .identifier := by
      simp only [isVendorAttribute, Bool.and_eq_true, beq_iff_eq] at vendor
      exact vendor.1
    rw [kind]
    rfl

theorem attributes_append (ended : Ended tokens) (more : List Token) :
    attributes (tokens ++ more) = attributes tokens ∨ (attributes tokens).Exhausts tokens := by
  fun_induction attributes tokens with
  | case1 => exact .inr rfl
  | case2 token rest doubled inner ih =>
      have nonempty : rest ≠ [] := startsWith_ne_nil doubled.2
      rw [List.cons_append, attributes, startsWith_append _ nonempty, if_pos doubled]
      exact group_andThen_append (List.cons_ne_nil token rest) (ih (ended.drop _))
  | case3 token rest single word inner ih =>
      have nonempty : rest ≠ [] := ended.rest_ne_nil (endsDeclaration_of_attribute word)
      rw [List.cons_append, attributes, startsWith_append _ nonempty, if_neg single, if_pos word]
      simp only [startsWith_append _ nonempty]
      by_cases opens : startsWith (.punct .leftParen) rest = true
      · have same : inner = group rest := if_pos opens
        rw [same] at ih ⊢
        simp only [if_pos opens]
        exact (group_andThen_append nonempty (ih (ended.tail.drop _))).imp
          (fun same => by rw [same]) Exhausts.shift_one
      · have same : inner = {} := if_neg opens
        rw [same] at ih ⊢
        simp only [if_neg opens]
        refine (ih (ended.tail.drop _)).imp (fun same => ?_) fun exhausts => ?_
        · exact congrArg (fun stretch : Stretch => (andThen {} fun _ => stretch).shift 1) same
        · have whole : _ = _ := exhausts
          simp [Exhausts, andThen, shift] at whole ⊢
          omega
  | case4 token rest single plain =>
      refine .inl ?_
      by_cases nonempty : rest = []
      · subst nonempty
        rcases TokenKind.endsDeclaration_cases (ended token rfl) with ends | ends <;>
          simp [attributes, isVendorAttribute, ends]
      · rw [List.cons_append, attributes, startsWith_append _ nonempty, if_neg single, if_neg plain]

theorem unclosed_of_andThen {stretch : Stretch} {continuation : Unit → Stretch}
    (closed : (stretch.andThen continuation).unclosed = none) :
    stretch.unclosed = none ∧ (continuation ()).unclosed = none ∧
      (stretch.andThen continuation).length = stretch.length + (continuation ()).length := by
  unfold andThen at *
  cases unclosed : stretch.unclosed with
  | some opener => simp [unclosed] at closed
  | none => simpa [unclosed, shift] using closed

/-- Attributes are not the end of a declaration. -/
theorem drop_attributes_ne_nil (ended : Ended tokens) (nonempty : tokens ≠ [])
    (closed : (attributes tokens).unclosed = none) :
    tokens.drop (attributes tokens).length ≠ [] := by
  fun_induction attributes tokens with
  | case1 => contradiction
  | case2 token rest doubled inner ih =>
      obtain ⟨group, behind, length⟩ := unclosed_of_andThen closed
      have goesOn := drop_group_ne_nil ended (by rw [doubled.1]; rfl) rfl group
      rw [length, ← List.drop_drop]
      exact ih (ended.drop _) goesOn behind
  | case3 token rest single word inner ih =>
      have goesOn : rest ≠ [] := ended.rest_ne_nil (endsDeclaration_of_attribute word)
      obtain ⟨whole, behind, length⟩ := unclosed_of_andThen closed
      have further : rest.drop inner.length ≠ [] := by
        by_cases opens : startsWith (.punct .leftParen) rest = true
        · have same : inner = group rest := if_pos opens
          rw [same] at whole ⊢
          obtain ⟨opener, tail, rfl⟩ := List.exists_cons_of_ne_nil goesOn
          have kind : opener.kind = .punct .leftParen := by simpa [startsWith] using opens
          exact drop_group_ne_nil ended.tail (by rw [kind]; rfl) rfl whole
        · have same : inner = {} := if_neg opens
          rwa [same]
      have last := ih (ended.tail.drop _) further behind
      rw [shift, length, Nat.add_comm, List.drop_succ_cons, ← List.drop_drop]
      exact last
  | case4 => exact nonempty

end Stretch

namespace Angle

variable {tokens : List Token}

/-- Whether a list is read to its end. -/
def Ending.Found : Ending → Prop
  | .closed | .split => True
  | .missing | .unclosedGroup _ => False

/-- Going on behind some tokens with more text behind. -/
theorem shift_append {reach longer : Reach} (count : Nat)
    (same : longer = reach ∨ ¬ reach.ending.Found) :
    longer.shift count = reach.shift count ∨ ¬ (reach.shift count).ending.Found :=
  same.imp_left (congrArg (Reach.shift count))

theorem arguments_append (depth : Nat) (tokens more : List Token) :
    arguments depth (tokens ++ more) = arguments depth tokens ∨
      ¬ (arguments depth tokens).ending.Found := by
  fun_induction arguments depth tokens with
  | case1 => exact .inr id
  | case2 depth token rest kind ih =>
      simp only [List.cons_append, arguments, kind]
      exact shift_append 1 ih
  | case4 depth token rest kind more ih =>
      have still : ¬ depth ≤ 1 := by omega
      simp only [List.cons_append, arguments, kind, if_neg still]
      exact shift_append 1 ih
  | case7 depth token rest kind more several ih =>
      have still : ¬ depth ≤ 1 := by omega
      simp only [List.cons_append, arguments, kind, if_neg still, if_neg several]
      exact shift_append 1 ih
  | case8 depth token rest kind inner opener unclosed
  | case10 depth token rest kind inner opener unclosed
  | case12 depth token rest kind inner opener unclosed => exact .inr id
  | case9 depth token rest kind inner closed ih | case11 depth token rest kind inner closed ih
  | case13 depth token rest kind inner closed ih =>
      have same : Stretch.group (token :: rest ++ more) = inner :=
        Stretch.group_append_of_closed (List.cons_ne_nil token rest) closed more
      have within : inner.length ≤ (token :: rest).length := Stretch.length_group_le _
      rw [← List.drop_append_of_le_length within] at ih
      rw [List.cons_append] at same ih ⊢
      rw [arguments]
      simp only [kind, same, closed]
      exact shift_append inner.length ih
  | case18 depth token rest _ _ _ _ _ _ _ _ _ _ ih =>
      refine (shift_append 1 ih).imp_left fun same => ?_
      rw [← same]
      simp_all [arguments]
  | _ => simp_all [arguments]

/-- A list of template arguments is not the end of a declaration. -/
theorem drop_arguments_ne_nil {depth : Nat} (ended : Ended tokens)
    (found : (arguments depth tokens).ending.Found) :
    tokens.drop (arguments depth tokens).length ≠ [] := by
  have step {token : Token} {rest : List Token} {length : Nat} (further : rest.drop length ≠ []) :
      (token :: rest).drop (1 + length) ≠ [] := by
    rwa [Nat.add_comm, List.drop_succ_cons]
  fun_induction arguments depth tokens with
  | case2 depth token rest kind ih => exact step (ih ended.tail found)
  | case3 depth token rest kind | case6 token rest kind =>
      exact ended.rest_ne_nil (by rw [kind]; rfl)
  | case4 depth token rest kind more ih => exact step (ih ended.tail found)
  | case5 => simp
  | case7 depth token rest kind more several ih => exact step (ih ended.tail found)
  | case9 depth token rest kind inner closed ih | case11 depth token rest kind inner closed ih
  | case13 depth token rest kind inner closed ih =>
      rw [Reach.shift, ← List.drop_drop]
      exact ih (ended.drop _) found
  | case18 depth token rest _ _ _ _ _ _ _ _ _ _ ih => exact step (ih ended.tail found)
  | _ => exact found.elim

/-- Behind the default of a template parameter stands what ends it. -/
theorem drop_parameterDefault_ne_nil {depth : Nat}
    (found : (parameterDefault depth tokens).ending.Found) :
    tokens.drop (parameterDefault depth tokens).length ≠ [] := by
  have step {token : Token} {rest : List Token} {length : Nat} (further : rest.drop length ≠ []) :
      (token :: rest).drop (1 + length) ≠ [] := by
    rwa [Nat.add_comm, List.drop_succ_cons]
  fun_induction parameterDefault depth tokens with
  | case2 | case5 | case7 | case8 => simp
  | case3 depth token rest kind goes ih | case6 depth token rest kind goes ih =>
      exact step (ih found)
  | case4 depth token rest kind ih => exact step (ih found)
  | case9 depth token rest kind goes several ih => exact step (ih found)
  | case11 depth token rest kind inner closed ih | case13 depth token rest kind inner closed ih =>
      rw [Reach.shift, ← List.drop_drop]
      exact ih found
  | case18 depth token rest _ _ _ _ _ _ _ _ _ _ ih => exact step (ih found)
  | _ => exact found.elim

theorem parameterDefault_append (depth : Nat) (tokens more : List Token) :
    parameterDefault depth (tokens ++ more) = parameterDefault depth tokens ∨
      ¬ (parameterDefault depth tokens).ending.Found := by
  fun_induction parameterDefault depth tokens with
  | case1 => exact .inr id
  | case3 depth token rest kind goes ih | case6 depth token rest kind goes ih =>
      simp only [List.cons_append, parameterDefault, kind, if_neg goes]
      exact shift_append 1 ih
  | case4 depth token rest kind ih =>
      simp only [List.cons_append, parameterDefault, kind]
      exact shift_append 1 ih
  | case9 depth token rest kind goes several ih =>
      simp only [List.cons_append, parameterDefault, kind, if_neg goes, if_neg several]
      exact shift_append 1 ih
  | case10 depth token rest kind inner opener unclosed
  | case12 depth token rest kind inner opener unclosed => exact .inr id
  | case11 depth token rest kind inner closed ih | case13 depth token rest kind inner closed ih =>
      have same : Stretch.group (token :: rest ++ more) = inner :=
        Stretch.group_append_of_closed (List.cons_ne_nil token rest) closed more
      have within : inner.length ≤ (token :: rest).length := Stretch.length_group_le _
      rw [← List.drop_append_of_le_length within] at ih
      rw [List.cons_append] at same ih ⊢
      rw [parameterDefault]
      simp only [kind, same, closed]
      exact shift_append inner.length ih
  | case18 depth token rest _ _ _ _ _ _ _ _ _ _ ih =>
      refine (shift_append 1 ih).imp_left fun same => ?_
      rw [← same]
      simp_all [parameterDefault]
  | _ => simp_all [parameterDefault]

end Angle

namespace Stretch

variable {token : Token} {tokens rest : List Token}

/-! ## The rest of a declaration -/

theorem startsWith_append_of_next {kind : TokenKind} {more : List Token}
    (next : startsWith kind more = false) (tokens : List Token) :
    startsWith kind (tokens ++ more) = startsWith kind tokens := by
  cases tokens with
  | nil => exact next
  | cons token rest => rfl

/-- What is given up does not reach past the end of a declaration, unless a semicolon stands
right behind it. -/
theorem recovery_append (nested : ClosesGroups tokens) (ended : Ended tokens)
    (nonempty : tokens ≠ []) {more : List Token}
    (next : startsWith (.punct .semicolon) more = false) :
    recovery (tokens ++ more) = recovery tokens := by
  fun_induction recovery tokens with
  | case1 => contradiction
  | case5 token rest kind inner following ends | case6 token rest kind inner following ends =>
      have closed := unclosed_of_closesGroups nested
      have same := group_append_of_closed nonempty closed more
      have behind := startsWith_append_of_next next following
      unfold following inner at behind ends
      rw [← List.drop_append_of_le_length (length_group_le _)] at behind
      rw [List.cons_append] at behind same ⊢
      simp only [recovery, kind, same, behind]
      first | exact if_pos ends | exact if_neg ends
  | case7 token rest kind inner _ ih | case9 token rest kind inner _ ih =>
      have closed := unclosed_of_closesGroups nested
      have same := group_append_of_closed nonempty closed more
      have goesOn := drop_group_ne_nil ended (by rw [kind]; rfl) rfl closed
      have further := ih (nested.drop _) (ended.drop _) goesOn
      unfold inner at further ⊢
      rw [← List.drop_append_of_le_length (length_group_le _)] at further
      rw [List.cons_append] at same further ⊢
      simp only [recovery, kind, same, closed, Option.isNone_none, if_true, further]
  | case8 token rest kind inner unclosed | case10 token rest kind inner unclosed =>
      exact absurd (unclosed_of_closesGroups nested) (by simpa using unclosed)
  | case11 token rest _ _ _ _ _ _ ih =>
      have inner : token.kind.endsDeclaration = false := Bool.eq_false_iff.2 fun ends => by
        rcases TokenKind.endsDeclaration_cases ends with kind | kind <;> simp_all
      have further := ih nested.tail ended.tail (ended.rest_ne_nil inner)
      rw [← further, List.cons_append]
      simp_all [recovery]
  | _ => simp_all [recovery]

end Stretch

end DeclTree
