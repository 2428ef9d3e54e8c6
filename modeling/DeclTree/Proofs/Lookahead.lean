import DeclTree.Proofs.StretchBounds

/-!
# Looking ahead

Searches ahead of the cursor stop at the end of the text at the latest, and the
numbers in which they count open delimiters never fall below zero.  For the
latter every search is compared with one that counts in checked steps and gives
up where a step would go below zero: the two agree.
-/

namespace DeclTree

/-! ## The end of the text -/

/-- Whether a token ends every search ahead: the end of the text, or what may end a
declaration. -/
def TokenKind.endsSearch : TokenKind → Bool
  | .eof | .punct .semicolon | .punct .rightBrace => true
  | _ => false

theorem TokenKind.endsSearch_cases {kind : TokenKind} (ends : kind.endsSearch = true) :
    kind = .eof ∨ kind = .punct .semicolon ∨ kind = .punct .rightBrace := by
  unfold endsSearch at ends
  split at ends <;> simp_all

theorem TokenKind.ne_of_endsSearch {kind other : TokenKind} (ends : kind.endsSearch = true)
    (plain : other.endsSearch = false) : kind ≠ other := by
  rintro rfl
  simp [ends] at plain

namespace Angle

/-- No search for the end of a template argument list goes past a token that ends it. -/
theorem closeTail_append_end {final : Token} (ends : final.kind.endsSearch = true)
    (depth groups : Nat) (tokens rest : List Token) :
    closeTail depth groups (tokens ++ final :: rest) = closeTail depth groups tokens := by
  induction tokens generalizing depth groups with
  | nil => rcases TokenKind.endsSearch_cases ends with same | same | same <;> simp [closeTail, same]
  | cons token tokens ih => simp only [List.cons_append, closeTail, ih]

theorem close?_append_end {final : Token} (ends : final.kind.endsSearch = true)
    (tokens rest : List Token) : close? (tokens ++ final :: rest) = close? tokens := by
  cases tokens with
  | nil => rcases TokenKind.endsSearch_cases ends with same | same | same <;> simp [close?, same]
  | cons token tokens => simp only [List.cons_append, close?, closeTail_append_end ends]

end Angle

namespace Ahead

theorem startsWith_append_end {final : Token} (ends : final.kind.endsSearch = true)
    {kind : TokenKind} (other : kind.endsSearch = false) (tokens rest : List Token) :
    Stretch.startsWith kind (tokens ++ final :: rest) = Stretch.startsWith kind tokens := by
  cases tokens with
  | nil => simp [Stretch.startsWith, TokenKind.ne_of_endsSearch ends other]
  | cons token tokens => rfl

theorem afterArguments?_append_end {final : Token} (ends : final.kind.endsSearch = true)
    (tokens rest : List Token) :
    afterArguments? (tokens ++ final :: rest) =
      (afterArguments? tokens).map (· ++ final :: rest) := by
  unfold afterArguments?
  rw [startsWith_append_end ends rfl, Angle.close?_append_end ends]
  split
  · cases closed : Angle.close? tokens with
    | none => rfl
    | some length =>
        simp only [Option.map_some, Option.some.injEq]
        exact List.drop_append_of_le_length (Angle.close?_le closed)
  · rfl

/-- How a name is read ahead, segment by segment. -/
theorem isConstructorFrom_cons (className outer : Option String) (token : Token)
    (rest : List Token) :
    isConstructorFrom className outer (token :: rest) =
      if token.kind ≠ .identifier then false
      else
        match afterArguments? rest with
        | none => false
        | some [] => false
        | some (next :: following) =>
            match next.kind with
            | .punct .leftParen =>
                match outer with
                | some segment => segment == token.lexeme
                | none => className == some token.lexeme
            | .punct .colonColon =>
                if Stretch.startsWith (.punct .tilde) following then true
                else isConstructorFrom className (some token.lexeme) following
            | _ => false := by
  rw [isConstructorFrom.eq_def]
  simp only
  split
  · rfl
  · split
    · rw [‹afterArguments? rest = none›]
    · rw [‹afterArguments? rest = some []›]
    · rename_i next following behind
      rcases next with ⟨kind⟩
      cases outer <;> cases kind <;> exact behind ▸ rfl

theorem afterMemberPointer?_cons (token : Token) (rest : List Token) :
    afterMemberPointer? (token :: rest) =
      if token.kind ≠ .identifier then none
      else
        match afterArguments? rest with
        | none => none
        | some [] => none
        | some (next :: following) =>
            if next.kind ≠ .punct .colonColon then none
            else if Stretch.startsWith (.punct .star) following then some (following.drop 1)
            else afterMemberPointer? following := by
  rw [afterMemberPointer?.eq_def]
  simp only
  split
  · rfl
  · split <;> simp_all
/-- Telling a constructor from a type never looks past the end of the text. -/
theorem isConstructorFrom_append_end {final : Token} (ends : final.kind.endsSearch = true)
    (className outer : Option String) (tokens rest : List Token) :
    isConstructorFrom className outer (tokens ++ final :: rest) =
      isConstructorFrom className outer tokens := by
  have nameless : final.kind ≠ .identifier := TokenKind.ne_of_endsSearch ends rfl
  have tilde (tokens : List Token) : Stretch.startsWith (.punct .tilde) (tokens ++ final :: rest) =
      Stretch.startsWith (.punct .tilde) tokens := startsWith_append_end ends rfl tokens rest
  fun_induction isConstructorFrom className outer tokens with
  | case1 => simp [isConstructorFrom_cons, nameless]
  | case2 outer token tokens other => simp [isConstructorFrom_cons, other]
  | case3 outer token tokens _ behind =>
      simp [isConstructorFrom_cons, afterArguments?_append_end ends, behind]
  | case4 outer token tokens _ behind =>
      rcases TokenKind.endsSearch_cases ends with same | same | same <;>
        simp [isConstructorFrom_cons, afterArguments?_append_end ends, behind, same]
  | case5 token tokens _ next following behind opens segment =>
      simp_all [isConstructorFrom_cons, afterArguments?_append_end ends]
  | case6 token tokens _ next following behind opens =>
      simp_all [isConstructorFrom_cons, afterArguments?_append_end ends]
  | case7 outer token tokens _ next following behind qualifies destructor =>
      simp_all [isConstructorFrom_cons, afterArguments?_append_end ends]
  | case8 outer token tokens _ next following behind qualifies plain ih =>
      simp_all [isConstructorFrom_cons, afterArguments?_append_end ends]
  | case9 outer token tokens _ next following behind =>
      simp_all [isConstructorFrom_cons, afterArguments?_append_end ends]

theorem afterMemberPointer?_append_end {final : Token} (ends : final.kind.endsSearch = true)
    (tokens rest : List Token) :
    afterMemberPointer? (tokens ++ final :: rest) =
      (afterMemberPointer? tokens).map (· ++ final :: rest) := by
  have nameless : final.kind ≠ .identifier := TokenKind.ne_of_endsSearch ends rfl
  have unscoped : final.kind ≠ .punct .colonColon := TokenKind.ne_of_endsSearch ends rfl
  have star (tokens : List Token) : Stretch.startsWith (.punct .star) (tokens ++ final :: rest) =
      Stretch.startsWith (.punct .star) tokens := startsWith_append_end ends rfl tokens rest
  fun_induction afterMemberPointer? tokens with
  | case1 => simp [afterMemberPointer?_cons, nameless]
  | case2 token tokens other => simp [afterMemberPointer?_cons, other]
  | case3 token tokens _ behind =>
      simp [afterMemberPointer?_cons, afterArguments?_append_end ends, behind]
  | case4 token tokens _ behind =>
      simp [afterMemberPointer?_cons, afterArguments?_append_end ends, behind, unscoped]
  | case5 token tokens _ next following behind other =>
      simp_all [afterMemberPointer?_cons, afterArguments?_append_end ends]
  | case6 token tokens _ next following behind _ pointer =>
      have more := Stretch.startsWith_ne_nil pointer
      simp_all [afterMemberPointer?_cons, afterArguments?_append_end ends,
        List.tail_append_of_ne_nil more]
  | case7 token tokens _ next following behind _ plain ih =>
      simp_all [afterMemberPointer?_cons, afterArguments?_append_end ends]

theorem afterGlobal_append_end {final : Token} (ends : final.kind.endsSearch = true)
    (tokens rest : List Token) :
    afterGlobal (tokens ++ final :: rest) = afterGlobal tokens ++ final :: rest := by
  cases tokens with
  | nil =>
      have unscoped : final.kind ≠ .punct .colonColon := TokenKind.ne_of_endsSearch ends rfl
      simp [afterGlobal, unscoped]
  | cons token tokens =>
      simp only [List.cons_append, afterGlobal]
      split <;> rfl

theorem isConstructor_append_end {final : Token} (ends : final.kind.endsSearch = true)
    (className : Option String) (tokens rest : List Token) :
    isConstructor className (tokens ++ final :: rest) = isConstructor className tokens := by
  unfold isConstructor
  rw [afterGlobal_append_end ends, isConstructorFrom_append_end ends]

theorem memberPointer?_append_end {final : Token} (ends : final.kind.endsSearch = true)
    (tokens rest : List Token) :
    memberPointer? (tokens ++ final :: rest) = memberPointer? tokens := by
  unfold memberPointer?
  rw [afterGlobal_append_end ends, afterMemberPointer?_append_end ends, Option.map_map]
  congr 1
  funext behind
  simp only [Function.comp_apply, List.length_append]
  omega

end Ahead

/-! ## Counters -/

/-- A step down that is refused where it would go below zero. -/
def countDown? (count amount : Nat) : Option Nat :=
  if amount ≤ count then some (count - amount) else none

theorem countDown?_eq {count amount : Nat} (enough : amount ≤ count) :
    countDown? count amount = some (count - amount) :=
  if_pos enough

namespace Stretch

/-- A group measured with a checked counter of open delimiters: each closing one
is counted before it is asked whether any is still open. -/
def groupTail? (opener closer : TokenKind) : Nat → List Token → Option (Nat × Bool)
  | _, [] => some (0, false)
  | depth, token :: rest =>
      if token.kind = opener then
        (groupTail? opener closer (depth + 1) rest).map fun (length, closed) => (1 + length, closed)
      else if token.kind = closer then do
        let depth ← countDown? depth 1
        if depth = 0 then return (1, true)
        else
          (groupTail? opener closer depth rest).map fun (length, closed) => (1 + length, closed)
      else
        (groupTail? opener closer depth rest).map fun (length, closed) => (1 + length, closed)

/-- Inside a group the counter of open delimiters is positive. -/
theorem groupTail?_eq (opener closer : TokenKind) {depth : Nat} (inside : 0 < depth)
    (tokens : List Token) :
    groupTail? opener closer depth tokens = some (groupTail opener closer depth tokens) := by
  induction tokens generalizing depth with
  | nil => rfl
  | cons token rest ih =>
      unfold groupTail? groupTail
      split
      · rw [ih (Nat.succ_pos depth)]
        rfl
      · split
        · rw [countDown?_eq inside]
          by_cases last : depth ≤ 1
          · have closed : depth - 1 = 0 := by omega
            simp [last, closed]
          · have open_ : depth - 1 ≠ 0 := by omega
            simp [last, open_, ih (Nat.pos_of_ne_zero open_)]
        · rw [ih inside]
          rfl

end Stretch

namespace Angle

/-- Template arguments measured with a checked counter of open lists. -/
def arguments? (depth : Nat) (tokens : List Token) : Option Reach :=
  match tokens with
  | [] => some ⟨0, .missing⟩
  | token :: rest =>
      match token.kind with
      | .punct .less => (arguments? (depth + 1) rest).map (.shift 1)
      | .punct .greater => do
          let depth ← countDown? depth 1
          if depth = 0 then return ⟨1, .closed⟩ else (arguments? depth rest).map (.shift 1)
      | .punct .greaterGreater =>
          if depth = 1 then some ⟨0, .split⟩
          else do
            let depth ← countDown? depth 2
            if depth = 0 then return ⟨1, .closed⟩ else (arguments? depth rest).map (.shift 1)
      | .punct .leftParen | .punct .leftBracket | .punct .leftBrace =>
          let inner := Stretch.group (token :: rest)
          match inner.unclosed with
          | some opener => some ⟨inner.length, .unclosedGroup opener⟩
          | none =>
              (arguments? depth ((token :: rest).drop inner.length)).map (.shift inner.length)
      | .punct .semicolon | .punct .rightParen | .punct .rightBrace | .eof => some ⟨0, .missing⟩
      | _ => (arguments? depth rest).map (.shift 1)
termination_by tokens.length
decreasing_by
  all_goals
    have := Stretch.length_group_pos (List.cons_ne_nil token rest)
    simp +zetaDelta only [List.length_drop, List.length_cons]
    omega

/-- Inside template arguments the counter of open lists is positive, and at least
two where a token closes two of them. -/
theorem arguments?_eq {depth : Nat} (inside : 0 < depth) (tokens : List Token) :
    arguments? depth tokens = some (arguments depth tokens) := by
  fun_induction arguments depth tokens with
  | case1 => simp [arguments?]
  | case2 depth token rest kind ih => simp [arguments?, kind, ih (by omega)]
  | case3 depth token rest kind last =>
      have closed : depth - 1 = 0 := by omega
      simp [arguments?, kind, countDown?_eq inside, closed]
  | case4 depth token rest kind more ih =>
      have still : depth - 1 ≠ 0 := by omega
      simp [arguments?, kind, countDown?_eq inside, still, ih (by omega)]
  | case5 depth token rest kind last =>
      have single : depth = 1 := by omega
      simp [arguments?, kind, single]
  | case6 token rest kind => simp [arguments?, kind, countDown?]
  | case7 depth token rest kind more several ih =>
      have enough : 2 ≤ depth := by omega
      have single : depth ≠ 1 := by omega
      have still : depth - 2 ≠ 0 := by omega
      simp [arguments?, kind, single, countDown?_eq enough, still, ih (by omega)]
  | case8 depth token rest kind inner opener unclosed
  | case10 depth token rest kind inner opener unclosed
  | case12 depth token rest kind inner opener unclosed =>
      unfold inner at unclosed
      simp [arguments?, kind, unclosed, inner]
  | case9 depth token rest kind inner closed ih | case11 depth token rest kind inner closed ih
  | case13 depth token rest kind inner closed ih =>
      unfold inner at closed
      simp [arguments?, kind, closed, ih inside, inner]
  | case14 depth token rest kind | case15 depth token rest kind | case16 depth token rest kind
  | case17 depth token rest kind => simp [arguments?, kind]
  | case18 depth token rest _ _ _ _ _ _ _ _ _ _ ih => simp_all [arguments?]

/-- The default of a template parameter measured with a checked counter of the
lists open inside it. -/
def parameterDefault? (depth : Nat) (tokens : List Token) : Option Reach :=
  match tokens with
  | [] => some ⟨0, .missing⟩
  | token :: rest =>
      match token.kind with
      | .punct .comma =>
          if depth = 0 then some ⟨0, .closed⟩ else (parameterDefault? depth rest).map (.shift 1)
      | .punct .less => (parameterDefault? (depth + 1) rest).map (.shift 1)
      | .punct .greater =>
          if depth = 0 then some ⟨0, .closed⟩
          else do (parameterDefault? (← countDown? depth 1) rest).map (.shift 1)
      | .punct .greaterGreater =>
          if depth = 0 then some ⟨0, .closed⟩
          else if depth = 1 then some ⟨0, .split⟩
          else do (parameterDefault? (← countDown? depth 2) rest).map (.shift 1)
      | .punct .leftParen | .punct .leftBracket =>
          let inner := Stretch.group (token :: rest)
          match inner.unclosed with
          | some opener => some ⟨inner.length, .unclosedGroup opener⟩
          | none =>
              (parameterDefault? depth ((token :: rest).drop inner.length)).map
                (.shift inner.length)
      | .punct .semicolon | .punct .leftBrace | .punct .rightBrace | .eof => some ⟨0, .missing⟩
      | _ => (parameterDefault? depth rest).map (.shift 1)
termination_by tokens.length
decreasing_by
  all_goals
    have := Stretch.length_group_pos (List.cons_ne_nil token rest)
    simp +zetaDelta only [List.length_drop, List.length_cons]
    omega

/-- Behind the equals sign no list is open at first, and none is closed that is
not open. -/
theorem parameterDefault?_eq (depth : Nat) (tokens : List Token) :
    parameterDefault? depth tokens = some (parameterDefault depth tokens) := by
  fun_induction parameterDefault depth tokens with
  | case1 => simp [parameterDefault?]
  | case2 token rest kind | case5 token rest kind | case7 token rest kind =>
      simp [parameterDefault?, kind]
  | case8 token rest kind => simp [parameterDefault?, kind]
  | case3 depth token rest kind more ih | case4 depth token rest kind ih =>
      simp [parameterDefault?, *]
  | case6 depth token rest kind more ih =>
      have enough : 1 ≤ depth := by omega
      simp [parameterDefault?, kind, more, countDown?_eq enough, ih]
  | case9 depth token rest kind more several ih =>
      have enough : 2 ≤ depth := by omega
      simp [parameterDefault?, kind, more, several, countDown?_eq enough, ih]
  | case10 depth token rest kind inner opener unclosed
  | case12 depth token rest kind inner opener unclosed =>
      unfold inner at unclosed
      simp [parameterDefault?, kind, unclosed, inner]
  | case11 depth token rest kind inner closed ih | case13 depth token rest kind inner closed ih =>
      unfold inner at closed
      simp [parameterDefault?, kind, closed, ih, inner]
  | case14 depth token rest kind | case15 depth token rest kind | case16 depth token rest kind
  | case17 depth token rest kind => simp [parameterDefault?, kind]
  | case18 depth token rest _ _ _ _ _ _ _ _ _ _ ih => simp_all [parameterDefault?]

end Angle

end DeclTree
