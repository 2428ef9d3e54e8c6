import DeclTree.Proofs.Displacement
import DeclTree.Proofs.Lookahead

/-!
# Stretches of displaced tokens

What is measured ahead does not depend on where the tokens stand.
-/

namespace DeclTree

instance : Displaceable Stretch where
  displaced displacement stretch := ⟨stretch.length, displacement.move stretch.unclosed⟩

instance : Displaceable Angle.Ending where
  displaced displacement
    | .unclosedGroup opener => .unclosedGroup (displacement.move opener)
    | ending => ending

instance : Displaceable Angle.Reach where
  displaced displacement reach := ⟨reach.length, displacement.move reach.ending⟩

namespace Displacement

variable (displacement : Displacement)

theorem move_cons {α : Type} [Displaceable α] (value : α) (rest : List α) :
    displacement.move (value :: rest) = displacement.move value :: displacement.move rest := rfl

@[simp] theorem move_nil {α : Type} [Displaceable α] :
    displacement.move ([] : List α) = [] := rfl

theorem move_append {α : Type} [Displaceable α] (first second : List α) :
    displacement.move (first ++ second) = displacement.move first ++ displacement.move second :=
  List.map_append

theorem move_tail {α : Type} [Displaceable α] (values : List α) :
    displacement.move values.tail = (displacement.move values).tail :=
  List.map_tail

theorem move_drop {α : Type} [Displaceable α] (values : List α) (count : Nat) :
    displacement.move (values.drop count) = (displacement.move values).drop count :=
  List.map_drop

@[simp] theorem move_some {α : Type} [Displaceable α] (value : α) :
    displacement.move (some value) = some (displacement.move value) := rfl

@[simp] theorem isNone_move {α : Type} [Displaceable α] (value : Option α) :
    (displacement.move value).isNone = value.isNone := by
  cases value <;> rfl

@[simp] theorem move_none {α : Type} [Displaceable α] :
    displacement.move (none : Option α) = none := rfl

theorem length_move {α : Type} [Displaceable α] (values : List α) :
    (displacement.move values).length = values.length :=
  List.length_map _

@[simp] theorem kind_move (token : Token) : (displacement.move token).kind = token.kind := rfl

@[simp] theorem lexeme_move (token : Token) : (displacement.move token).lexeme = token.lexeme :=
  rfl

theorem startsWith_move (kind : TokenKind) (tokens : List Token) :
    Stretch.startsWith kind (displacement.move tokens) = Stretch.startsWith kind tokens := by
  cases tokens <;> rfl

/-! ## Groups -/

theorem groupTail_move (opener closer : TokenKind) (depth : Nat) (tokens : List Token) :
    Stretch.groupTail opener closer depth (displacement.move tokens) =
      Stretch.groupTail opener closer depth tokens := by
  induction tokens generalizing depth with
  | nil => rfl
  | cons token rest ih =>
      simp only [move_cons, Stretch.groupTail, ih]
      rfl

theorem group_move (tokens : List Token) :
    Stretch.group (displacement.move tokens) = displacement.move (Stretch.group tokens) := by
  cases tokens with
  | nil => rfl
  | cons token rest =>
      simp only [move_cons, Stretch.group, groupTail_move, kind_move]
      cases token.kind.closer? with
      | none => rfl
      | some closer =>
          simp only
          cases (Stretch.groupTail token.kind closer 1 rest).2 <;> rfl

@[simp] theorem length_move_stretch (stretch : Stretch) :
    (displacement.move stretch).length = stretch.length := rfl

@[simp] theorem unclosed_move_stretch (stretch : Stretch) :
    (displacement.move stretch).unclosed = displacement.move stretch.unclosed := rfl

theorem move_andThen {stretch : Stretch} {continuation : Unit → Stretch} :
    displacement.move (stretch.andThen continuation) =
      (displacement.move stretch).andThen fun _ => displacement.move (continuation ()) := by
  obtain ⟨length, unclosed⟩ := stretch
  cases unclosed <;> rfl

/-- Going on behind a group. -/
theorem move_group_andThen {tokens : List Token} {next : List Token → Stretch}
    (rest : next (displacement.move (tokens.drop (Stretch.group tokens).length)) =
      displacement.move (next (tokens.drop (Stretch.group tokens).length))) :
    ((Stretch.group (displacement.move tokens)).andThen fun _ =>
      next ((displacement.move tokens).drop (Stretch.group (displacement.move tokens)).length)) =
      displacement.move ((Stretch.group tokens).andThen fun _ =>
        next (tokens.drop (Stretch.group tokens).length)) := by
  rw [group_move, length_move_stretch, ← move_drop, rest, move_andThen]

/-! ## Template argument lists -/

theorem closeTail_move (depth groups : Nat) (tokens : List Token) :
    Angle.closeTail depth groups (displacement.move tokens) =
      Angle.closeTail depth groups tokens := by
  induction tokens generalizing depth groups with
  | nil => rfl
  | cons token rest ih =>
      simp only [move_cons, Angle.closeTail, ih]
      rfl

theorem close?_move (tokens : List Token) :
    Angle.close? (displacement.move tokens) = Angle.close? tokens := by
  cases tokens with
  | nil => rfl
  | cons token rest =>
      simp only [move_cons, Angle.close?, closeTail_move]
      rfl

@[simp] theorem move_shift_reach (count : Nat) (reach : Angle.Reach) :
    displacement.move (reach.shift count) = (displacement.move reach).shift count := rfl

@[simp] theorem move_reach (length : Nat) (ending : Angle.Ending) :
    displacement.move (⟨length, ending⟩ : Angle.Reach) = ⟨length, displacement.move ending⟩ := rfl

@[simp] theorem move_closed : displacement.move Angle.Ending.closed = .closed := rfl

@[simp] theorem move_split : displacement.move Angle.Ending.split = .split := rfl

@[simp] theorem move_missing : displacement.move Angle.Ending.missing = .missing := rfl

theorem arguments_move (depth : Nat) (tokens : List Token) :
    Angle.arguments depth (displacement.move tokens) =
      displacement.move (Angle.arguments depth tokens) := by
  fun_induction Angle.arguments depth tokens with
  | case1 => simp [Angle.arguments, Displacement.move, Displaceable.displaced]
  | case4 depth token rest kind more ih =>
      have still : ¬ depth ≤ 1 := by omega
      simp [move_cons, Angle.arguments, kind, still, ih]
  | case7 depth token rest kind more several ih =>
      have still : ¬ depth ≤ 1 := by omega
      simp [move_cons, Angle.arguments, kind, still, several, ih]
  | case8 depth token rest kind inner opener unclosed
  | case10 depth token rest kind inner opener unclosed
  | case12 depth token rest kind inner opener unclosed =>
      have same := group_move displacement (token :: rest)
      rw [move_cons] at same ⊢
      unfold inner at unclosed ⊢
      simp [Angle.arguments, kind, same, unclosed]
      rfl
  | case9 depth token rest kind inner closed ih | case11 depth token rest kind inner closed ih
  | case13 depth token rest kind inner closed ih =>
      have same := group_move displacement (token :: rest)
      rw [move_drop, move_cons] at ih
      rw [move_cons] at same ⊢
      unfold inner at closed ih ⊢
      simp [Angle.arguments, kind, same, closed, ih]
  | _ => simp_all [Angle.arguments, move_cons]

theorem parameterDefault_move (depth : Nat) (tokens : List Token) :
    Angle.parameterDefault depth (displacement.move tokens) =
      displacement.move (Angle.parameterDefault depth tokens) := by
  fun_induction Angle.parameterDefault depth tokens with
  | case1 => simp [Angle.parameterDefault, Displacement.move, Displaceable.displaced]
  | case10 depth token rest kind inner opener unclosed
  | case12 depth token rest kind inner opener unclosed =>
      have same := group_move displacement (token :: rest)
      rw [move_cons] at same ⊢
      unfold inner at unclosed ⊢
      simp [Angle.parameterDefault, kind, same, unclosed]
      rfl
  | case11 depth token rest kind inner closed ih | case13 depth token rest kind inner closed ih =>
      have same := group_move displacement (token :: rest)
      rw [move_drop, move_cons] at ih
      rw [move_cons] at same ⊢
      unfold inner at closed ih ⊢
      simp [Angle.parameterDefault, kind, same, closed, ih]
  | _ => simp_all [Angle.parameterDefault, move_cons]

/-! ## Stretches -/

theorem move_shift (count : Nat) (stretch : Stretch) :
    displacement.move (stretch.shift count) = (displacement.move stretch).shift count := rfl

theorem expression_move (stops : List TokenKind) (tokens : List Token) :
    Stretch.expression stops (displacement.move tokens) =
      displacement.move (Stretch.expression stops tokens) := by
  fun_induction Stretch.expression stops tokens with
  | case1 => simp [Stretch.expression, Displacement.move, Displaceable.displaced]
  | case2 token rest ends =>
      rw [move_cons, Stretch.expression, kind_move, if_pos ends]
      rfl
  | case3 token rest more opens inner ih =>
      rw [move_cons, Stretch.expression, kind_move, if_neg more, if_pos opens]
      exact move_group_andThen displacement ih
  | case4 token rest more plain named arguments ih =>
      rw [move_cons, Stretch.expression, kind_move, if_neg more, if_neg plain, startsWith_move,
        if_pos named]
      simp only [close?_move, ← move_drop, ih, move_shift, arguments]
  | case5 token rest more plain other ih =>
      rw [move_cons, Stretch.expression, kind_move, if_neg more, if_neg plain, startsWith_move,
        if_neg other, ih, move_shift]

theorem upTo_move (stops : List TokenKind) (tokens : List Token) :
    Stretch.upTo stops (displacement.move tokens) =
      displacement.move (Stretch.upTo stops tokens) := by
  fun_induction Stretch.upTo stops tokens with
  | case1 => simp [Stretch.upTo, Displacement.move, Displaceable.displaced]
  | case2 token rest ends =>
      rw [move_cons, Stretch.upTo, kind_move, if_pos ends]
      rfl
  | case3 token rest more inner ih =>
      rw [move_cons, Stretch.upTo, kind_move, if_neg more]
      exact move_group_andThen displacement ih

theorem suffixes_move (tokens : List Token) :
    Stretch.suffixes (displacement.move tokens) =
      displacement.move (Stretch.suffixes tokens) := by
  fun_induction Stretch.suffixes tokens with
  | case1 => simp [Stretch.suffixes, Displacement.move, Displaceable.displaced]
  | case2 token rest opens inner ih =>
      rw [move_cons, Stretch.suffixes, kind_move, if_pos opens]
      exact move_group_andThen displacement ih
  | case3 token rest other =>
      rw [move_cons, Stretch.suffixes, kind_move, if_neg other]
      rfl

theorem isVendorAttribute_move (token : Token) :
    Stretch.isVendorAttribute (displacement.move token) = Stretch.isVendorAttribute token := rfl

theorem attributes_move (tokens : List Token) :
    Stretch.attributes (displacement.move tokens) =
      displacement.move (Stretch.attributes tokens) := by
  fun_induction Stretch.attributes tokens with
  | case1 => simp [Stretch.attributes, Displacement.move, Displaceable.displaced]
  | case2 token rest doubled inner ih =>
      rw [move_cons, Stretch.attributes, kind_move, startsWith_move, if_pos doubled]
      exact move_group_andThen displacement ih
  | case3 token rest single word inner ih =>
      rw [move_cons, Stretch.attributes, kind_move, startsWith_move, if_neg single,
        isVendorAttribute_move, if_pos word]
      have inside : (if Stretch.startsWith (.punct .leftParen) rest then
          Stretch.group (displacement.move rest) else {}) = displacement.move inner := by
        unfold inner
        split
        · exact group_move displacement rest
        · rfl
      simp only [startsWith_move, inside, length_move_stretch, ← move_drop, ih]
      rw [move_shift, move_andThen]
  | case4 token rest single plain =>
      rw [move_cons, Stretch.attributes, kind_move, startsWith_move, if_neg single,
        isVendorAttribute_move, if_neg plain]
      rfl

theorem recovery_move (tokens : List Token) :
    Stretch.recovery (displacement.move tokens) = Stretch.recovery tokens := by
  fun_induction Stretch.recovery tokens with
  | case1 => simp [Stretch.recovery, Displacement.move, Displaceable.displaced]
  | case5 token rest kind inner following ends | case6 token rest kind inner following ends =>
      have same := group_move displacement (token :: rest)
      have behind := startsWith_move displacement (.punct .semicolon) following
      unfold following inner at behind ends
      rw [move_drop, move_cons] at behind
      rw [move_cons] at same ⊢
      simp only [Stretch.recovery, kind_move, kind, same, length_move_stretch,
        unclosed_move_stretch, isNone_move, behind]
      first | exact if_pos ends | exact if_neg ends
  | case7 token rest kind inner closed ih | case9 token rest kind inner closed ih =>
      have same := group_move displacement (token :: rest)
      rw [move_drop, move_cons] at ih
      rw [move_cons] at same ⊢
      unfold inner at closed ih ⊢
      simp [Stretch.recovery, kind, same, Option.isNone_iff_eq_none.1 closed, ih]
  | case8 token rest kind inner unclosed | case10 token rest kind inner unclosed =>
      have same := group_move displacement (token :: rest)
      rw [move_cons] at same ⊢
      unfold inner at unclosed ⊢
      simp [Stretch.recovery, kind, same, unclosed]
  | _ => simp_all [Stretch.recovery, move_cons]

/-! ## Names ahead -/

theorem afterArguments?_move (tokens : List Token) :
    Ahead.afterArguments? (displacement.move tokens) =
      displacement.move (Ahead.afterArguments? tokens) := by
  unfold Ahead.afterArguments?
  rw [startsWith_move, close?_move]
  split
  · cases Angle.close? tokens with
    | none => rfl
    | some length => exact congrArg some (move_drop displacement tokens length).symm
  · rfl

theorem isConstructorFrom_move (className outer : Option String) (tokens : List Token) :
    Ahead.isConstructorFrom className outer (displacement.move tokens) =
      Ahead.isConstructorFrom className outer tokens := by
  fun_induction Ahead.isConstructorFrom className outer tokens with
  | case1 => simp [Ahead.isConstructorFrom, Displacement.move, Displaceable.displaced]
  | _ => simp_all [move_cons, Ahead.isConstructorFrom_cons, afterArguments?_move, startsWith_move]

theorem afterMemberPointer?_move (tokens : List Token) :
    Ahead.afterMemberPointer? (displacement.move tokens) =
      displacement.move (Ahead.afterMemberPointer? tokens) := by
  fun_induction Ahead.afterMemberPointer? tokens with
  | case1 => simp [Ahead.afterMemberPointer?, Displacement.move, Displaceable.displaced]
  | _ =>
    simp_all [move_cons, Ahead.afterMemberPointer?_cons, afterArguments?_move, startsWith_move,
      move_tail]

theorem afterGlobal_move (tokens : List Token) :
    Ahead.afterGlobal (displacement.move tokens) =
      displacement.move (Ahead.afterGlobal tokens) := by
  cases tokens with
  | nil => rfl
  | cons token rest =>
      simp only [move_cons, Ahead.afterGlobal, kind_move]
      split <;> rfl

theorem isConstructor_move (className : Option String) (tokens : List Token) :
    Ahead.isConstructor className (displacement.move tokens) =
      Ahead.isConstructor className tokens := by
  unfold Ahead.isConstructor
  rw [afterGlobal_move, isConstructorFrom_move]

theorem memberPointer?_move (tokens : List Token) :
    Ahead.memberPointer? (displacement.move tokens) = Ahead.memberPointer? tokens := by
  unfold Ahead.memberPointer?
  rw [afterGlobal_move, afterMemberPointer?_move, length_move]
  cases Ahead.afterMemberPointer? (Ahead.afterGlobal tokens) with
  | none => rfl
  | some rest => simp [length_move]

end Displacement

end DeclTree
