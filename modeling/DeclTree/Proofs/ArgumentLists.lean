import DeclTree.Proofs.PartialOutcome
import DeclTree.Proofs.StretchBounds

/-!
# Looking at argument lists and reading them

Whether a template argument list is closed is found out by looking ahead, with one counter for the
lists and one for the groups that are open.  What is then read goes from group to group, and splits
a token that closes two lists where only one is open.  On tokens whose parentheses and brackets
match, both come to the same place.
-/

namespace DeclTree

/-! ## Matching parentheses and brackets -/

namespace TokenKind

/-- The delimiter that closes a group in parentheses or brackets. -/
def partner? : TokenKind → Option TokenKind
  | .punct .leftParen => some (.punct .rightParen)
  | .punct .leftBracket => some (.punct .rightBracket)
  | _ => none

/-- Whether a token closes a group in parentheses or brackets. -/
def closesPair : TokenKind → Bool
  | .punct .rightParen | .punct .rightBracket => true
  | _ => false

theorem partner?_eq_some_iff {opener closer : TokenKind} : opener.partner? = some closer ↔
    (opener = .punct .leftParen ∧ closer = .punct .rightParen) ∨
      (opener = .punct .leftBracket ∧ closer = .punct .rightBracket) := by
  unfold partner?
  split <;> simp_all [eq_comm]

theorem closer?_of_partner? {opener closer : TokenKind}
    (pair : opener.partner? = some closer) : opener.closer? = some closer := by
  rcases partner?_eq_some_iff.1 pair with ⟨rfl, rfl⟩ | ⟨rfl, rfl⟩ <;> rfl

theorem closesPair_of_partner? {opener closer : TokenKind}
    (pair : opener.partner? = some closer) : closer.closesPair = true := by
  rcases partner?_eq_some_iff.1 pair with ⟨_, rfl⟩ | ⟨_, rfl⟩ <;> rfl

theorem closesPair_eq_true_iff {kind : TokenKind} :
    kind.closesPair = true ↔ kind = .punct .rightParen ∨ kind = .punct .rightBracket := by
  unfold closesPair
  split <;> simp_all

end TokenKind

/-- Tokens whose parentheses and brackets match: each is closed by its partner, behind all that are
opened inside it. -/
inductive Paired : List Token → Prop
  | nil : Paired []
  | plain {token : Token} {rest : List Token} (opens : token.kind.partner? = none)
      (closes : token.kind.closesPair = false) (behind : Paired rest) : Paired (token :: rest)
  | group {opener closer : Token} {inside rest : List Token}
      (pair : opener.kind.partner? = some closer.kind) (within : Paired inside)
      (behind : Paired rest) : Paired (opener :: (inside ++ closer :: rest))

namespace Paired

variable {front tokens : List Token}

theorem tail {token : Token} (paired : Paired (token :: tokens))
    (opens : token.kind.partner? = none) : Paired tokens := by
  cases paired with
  | plain _ _ behind => exact behind
  | group pair => cases opens.symm.trans pair

theorem append (left : Paired front) (right : Paired tokens) : Paired (front ++ tokens) := by
  induction left with
  | nil => exact right
  | plain opens closes _ ih => exact .plain opens closes ih
  | group pair within _ _ ih =>
      rw [List.cons_append, List.append_assoc, List.cons_append]
      exact .group pair within ih

/-- Whether some tokens close the groups that are open in front of them, innermost first, and all
they open themselves. -/
def check : List TokenKind → List Token → Bool
  | stack, [] => stack.isEmpty
  | stack, token :: rest =>
      match token.kind.partner? with
      | some closer => check (closer :: stack) rest
      | none =>
          if token.kind.closesPair then
            match stack with
            | [] => false
            | closer :: stack => token.kind == closer && check stack rest
          else check stack rest

/-- Tokens that close some groups, innermost first, with matching ones in front of each closing
delimiter and behind the last. -/
def Closing : List TokenKind → List Token → Prop
  | [], tokens => Paired tokens
  | kind :: stack, tokens => ∃ inside closer rest, tokens = inside ++ closer :: rest ∧
      Paired inside ∧ closer.kind = kind ∧ Closing stack rest

theorem Closing.prepend {stack : List TokenKind} (paired : Paired front)
    (closing : Closing stack tokens) : Closing stack (front ++ tokens) := by
  cases stack with
  | nil => exact paired.append closing
  | cons kind stack =>
      obtain ⟨inside, closer, rest, rfl, within, closes, outer⟩ := closing
      exact ⟨front ++ inside, closer, rest, by simp, paired.append within, closes, outer⟩

theorem closing_of_check {stack : List TokenKind} (checked : check stack tokens = true) :
    Closing stack tokens := by
  induction tokens generalizing stack with
  | nil =>
      obtain rfl := List.isEmpty_iff.1 checked
      exact .nil
  | cons token rest ih =>
      unfold check at checked
      split at checked
      · rename_i closer pair
        -- The group opened here is closed by the first part of what follows.
        obtain ⟨inside, last, outer, rfl, within, rfl, closing⟩ := ih checked
        have group : Paired (token :: (inside ++ last :: [])) := .group pair within .nil
        simpa using closing.prepend group
      · rename_i opens
        split at checked
        · cases stack with
          | nil => cases checked
          | cons closer stack =>
              obtain ⟨same, outer⟩ := Bool.and_eq_true_iff.1 checked
              exact ⟨[], token, rest, rfl, .nil, beq_iff_eq.1 same, ih outer⟩
        · rename_i closes
          have single : Paired [token] := .plain opens (Bool.of_not_eq_true closes) .nil
          exact (ih checked).prepend single

theorem check_append {stack : List TokenKind} (paired : Paired front) :
    check stack (front ++ tokens) = check stack tokens := by
  induction paired generalizing stack tokens with
  | nil => rfl
  | plain opens closes _ ih => simp [check, opens, closes, ih]
  | @group opener closer inside rest pair _ _ within behind =>
      have closes : closer.kind.partner? = none ∧ closer.kind.closesPair = true := by
        rcases TokenKind.partner?_eq_some_iff.1 pair with ⟨_, kind⟩ | ⟨_, kind⟩ <;>
          rw [kind] <;> exact ⟨rfl, rfl⟩
      rw [List.cons_append, List.append_assoc, List.cons_append]
      simp [check, pair, within, closes, behind]

theorem iff_check : Paired tokens ↔ check [] tokens = true := by
  refine ⟨fun paired => ?_, closing_of_check⟩
  have whole : check [] (tokens ++ []) = check [] [] := paired.check_append
  rwa [List.append_nil] at whole

instance (tokens : List Token) : Decidable (Paired tokens) :=
  decidable_of_iff _ iff_check.symm

end Paired

/-! ## How deep a token lies -/

namespace Angle

/-- How deep a place lies: the template argument lists open there, and the groups around it. -/
structure Level where
  lists : Int := 0
  groups : Nat := 0
  deriving DecidableEq

/-- The level behind one more token.  Inside a group no list is opened or closed. -/
def Level.after (level : Level) (token : Token) : Level :=
  match token.kind with
  | .punct .less => if level.groups = 0 then ⟨level.lists + 1, 0⟩ else level
  | .punct .greater => if level.groups = 0 then ⟨level.lists - 1, 0⟩ else level
  | .punct .greaterGreater => if level.groups = 0 then ⟨level.lists - 2, 0⟩ else level
  | .punct .leftParen | .punct .leftBracket => ⟨level.lists, level.groups + 1⟩
  | .punct .rightParen | .punct .rightBracket => ⟨level.lists, level.groups - 1⟩
  | _ => level

/-- The level behind some tokens. -/
def Level.behind (level : Level) (tokens : List Token) : Level :=
  tokens.foldl Level.after level

variable {token opener closer : Token} {inside front tokens rest : List Token}
  {depth groups length : Nat} {lists : Int}

theorem Level.behind_cons (level : Level) (token : Token) (rest : List Token) :
    level.behind (token :: rest) = (level.after token).behind rest :=
  rfl

theorem Level.behind_append (level : Level) (front rest : List Token) :
    level.behind (front ++ rest) = (level.behind front).behind rest :=
  List.foldl_append

theorem Level.after_opener (opens : token.kind.partner?.isSome) :
    Level.after ⟨lists, groups⟩ token = ⟨lists, groups + 1⟩ := by
  obtain ⟨closer, pair⟩ := Option.isSome_iff_exists.1 opens
  rcases TokenKind.partner?_eq_some_iff.1 pair with ⟨kind, _⟩ | ⟨kind, _⟩ <;> simp [after, kind]

theorem Level.after_closer (closes : token.kind.closesPair = true) :
    Level.after ⟨lists, groups + 1⟩ token = ⟨lists, groups⟩ := by
  rcases TokenKind.closesPair_eq_true_iff.1 closes with kind | kind <;> simp [after, kind]

/-- Inside a group only its delimiters count. -/
theorem Level.after_plain (opens : token.kind.partner? = none)
    (closes : token.kind.closesPair = false) :
    Level.after ⟨lists, groups + 1⟩ token = ⟨lists, groups + 1⟩ := by
  unfold after
  split <;> simp_all [TokenKind.partner?, TokenKind.closesPair]

theorem Level.groups_after {level : Level} (opens : token.kind.partner? = none)
    (closes : token.kind.closesPair = false) : (level.after token).groups = level.groups := by
  unfold after
  split <;> try split
  all_goals simp_all [TokenKind.partner?, TokenKind.closesPair]

/-- What matches inside a group leaves the level as it is. -/
theorem Level.behind_paired (paired : Paired inside) :
    Level.behind ⟨lists, groups + 1⟩ inside = ⟨lists, groups + 1⟩ := by
  induction paired generalizing groups with
  | nil => rfl
  | plain opens closes _ ih => rw [behind_cons, after_plain opens closes, ih]
  | group pair _ _ within behind =>
      rw [behind_cons, after_opener (by rw [pair]; rfl), behind_append, within, behind_cons,
        after_closer (TokenKind.closesPair_of_partner? pair), behind]

theorem Level.behind_group (pair : opener.kind.partner? = some closer.kind)
    (paired : Paired inside) :
    Level.behind ⟨lists, groups⟩ (opener :: (inside ++ [closer])) = ⟨lists, groups⟩ := by
  rw [behind_cons, after_opener (by rw [pair]; rfl), behind_append, behind_paired paired,
    behind_cons, after_closer (TokenKind.closesPair_of_partner? pair)]
  rfl

/-! ## Looking ahead -/

/-- Looking ahead goes past a token and ends a number of tokens behind it. -/
def PassesBy (depth groups : Nat) (token : Token) (rest : List Token) (length : Nat) : Prop :=
  ∃ next inner count, Level.after ⟨depth, groups⟩ token = ⟨(next : Nat), inner⟩ ∧ 0 < next ∧
    closeTail next inner rest = some count ∧ length = 1 + count ∧
      token.kind ∉ [.punct .semicolon, .punct .leftBrace, .punct .rightBrace, .eof]

/-- Looking ahead ends with a token: a list is closed there, of one or two that are open. -/
def EndsAt (depth groups : Nat) (token : Token) (length : Nat) : Prop :=
  length = 1 ∧ groups = 0 ∧ (token.kind = .punct .greater ∧ depth = 1 ∨
    token.kind = .punct .greaterGreater ∧ depth ≤ 2)

/-- A token that looking ahead goes past, or at which it ends. -/
theorem closeTail_cons (closed : closeTail depth groups (token :: rest) = some length)
    (positive : 0 < depth) :
    EndsAt depth groups token length ∨ PassesBy depth groups token rest length := by
  have later {next inner : Nat} (same : Level.after ⟨depth, groups⟩ token = ⟨next, inner⟩)
      (still : 0 < next)
      (other : token.kind ∉ [.punct .semicolon, .punct .leftBrace, .punct .rightBrace, .eof])
      (found : (closeTail next inner rest).map (1 + ·) = some length) :
      EndsAt depth groups token length ∨ PassesBy depth groups token rest length := by
    obtain ⟨count, tail, rfl⟩ := Option.map_eq_some_iff.1 found
    exact .inr ⟨next, inner, count, same, still, tail, rfl, other⟩
  unfold closeTail at closed
  split at closed
  case h_1 kind =>
    by_cases inside : groups = 0
    · rw [if_pos inside] at closed
      exact later (by simp [Level.after, kind, inside]) (by omega) (by simp [kind]) closed
    · rw [if_neg inside] at closed
      exact later (by simp [Level.after, kind, inside]) positive (by simp [kind]) closed
  case h_2 kind =>
    by_cases inside : groups = 0
    · rw [if_pos inside] at closed
      by_cases last : depth ≤ 1
      · rw [if_pos last, Option.some_inj] at closed
        exact .inl ⟨closed.symm, inside, .inl ⟨kind, by omega⟩⟩
      · rw [if_neg last] at closed
        exact later (by simp [Level.after, kind, inside]; omega) (by omega) (by simp [kind]) closed
    · rw [if_neg inside] at closed
      exact later (by simp [Level.after, kind, inside]) positive (by simp [kind]) closed
  case h_3 kind =>
    by_cases inside : groups = 0
    · rw [if_pos inside] at closed
      by_cases last : depth ≤ 2
      · rw [if_pos last, Option.some_inj] at closed
        exact .inl ⟨closed.symm, inside, .inr ⟨kind, last⟩⟩
      · rw [if_neg last] at closed
        exact later (by simp [Level.after, kind, inside]; omega) (by omega) (by simp [kind]) closed
    · rw [if_neg inside] at closed
      exact later (by simp [Level.after, kind, inside]) positive (by simp [kind]) closed
  case h_4 kind | h_5 kind =>
    exact later (by simp [Level.after, kind]) positive (by simp [kind]) closed
  case h_6 kind | h_7 kind =>
    split at closed
    · cases closed
    · exact later (by simp [Level.after, kind]) positive (by simp [kind]) closed
  case h_8 | h_9 | h_10 | h_11 => cases closed
  case h_12 =>
    refine later ?_ positive ?_ closed
    · unfold Level.after
      split <;> first | rfl | contradiction
    · simp_all

theorem PassesBy.level {next inner : Nat} (passes : PassesBy depth groups token rest length)
    (same : Level.after ⟨depth, groups⟩ token = ⟨next, inner⟩) :
    ∃ count, closeTail next inner rest = some count ∧ length = 1 + count := by
  obtain ⟨found, within, count, level, _, tail, total, _⟩ := passes
  rw [level] at same
  obtain ⟨lists, groups⟩ := Level.mk.inj same
  exact ⟨count, Int.ofNat_inj.1 lists ▸ groups ▸ tail, total⟩

/-- The token that closes a list belongs to it. -/
theorem ne_nil_of_closeTail (closed : closeTail depth groups rest = some tokens.length)
    (positive : 0 < depth) : tokens ≠ [] := by
  rintro rfl
  cases rest with
  | nil => cases closed
  | cons token rest =>
      rcases closeTail_cons closed positive with ends | ⟨_, _, count, _, _, _, total, _⟩
      · cases ends.1
      · rw [List.length_nil] at total
        omega

theorem closeTail_opener {kind : TokenKind} (opens : token.kind.partner? = some kind) :
    closeTail depth groups (token :: rest) =
      (closeTail depth (groups + 1) rest).map (1 + ·) := by
  rcases TokenKind.partner?_eq_some_iff.1 opens with ⟨kind, _⟩ | ⟨kind, _⟩ <;>
    simp only [closeTail, kind]

theorem closeTail_closer (closes : token.kind.closesPair = true) :
    closeTail depth (groups + 1) (token :: rest) =
      (closeTail depth groups rest).map (1 + ·) := by
  rcases TokenKind.closesPair_eq_true_iff.1 closes with kind | kind <;> simp [closeTail, kind]

/-- Looking ahead goes past all that matches inside a group. -/
theorem closeTail_paired (paired : Paired inside)
    (closed : closeTail depth (groups + 1) (inside ++ rest) = some length)
    (positive : 0 < depth) :
    ∃ count, closeTail depth (groups + 1) rest = some count ∧ length = inside.length + count := by
  induction paired generalizing groups rest length with
  | nil => exact ⟨length, closed, (Nat.zero_add length).symm⟩
  | plain opens closes _ ih =>
      rcases closeTail_cons closed positive with ends | passes
      · cases ends.2.1
      · obtain ⟨_, tail, rfl⟩ := passes.level (Level.after_plain opens closes)
        obtain ⟨count, behind, rfl⟩ := ih tail
        exact ⟨count, behind, by simp only [List.length_cons]; omega⟩
  | @group opener closer inside after pair _ _ within behind =>
      rw [List.cons_append, List.append_assoc, List.cons_append, closeTail_opener pair] at closed
      obtain ⟨_, opened, rfl⟩ := Option.map_eq_some_iff.1 closed
      obtain ⟨_, inner, rfl⟩ := within opened
      rw [closeTail_closer (TokenKind.closesPair_of_partner? pair)] at inner
      obtain ⟨_, outer, rfl⟩ := Option.map_eq_some_iff.1 inner
      obtain ⟨count, tail, rfl⟩ := behind outer
      exact ⟨count, tail, by simp only [List.length_cons, List.length_append]; omega⟩

/-- Looking ahead goes past a group, wherever it stands. -/
theorem closeTail_group (pair : opener.kind.partner? = some closer.kind) (paired : Paired inside)
    (closed : closeTail depth groups (opener :: (inside ++ closer :: rest)) = some length)
    (positive : 0 < depth) :
    ∃ count, closeTail depth groups rest = some count ∧ length = inside.length + 2 + count := by
  rw [closeTail_opener pair] at closed
  obtain ⟨_, opened, rfl⟩ := Option.map_eq_some_iff.1 closed
  obtain ⟨_, inner, rfl⟩ := closeTail_paired paired opened positive
  rw [closeTail_closer (TokenKind.closesPair_of_partner? pair)] at inner
  obtain ⟨count, outer, rfl⟩ := Option.map_eq_some_iff.1 inner
  exact ⟨count, outer, by omega⟩

end Angle

/-! ## Passing over groups -/

namespace Stretch

variable {opener closer : Token} {inside rest : List Token}

/-- What matches does not change how often a group is open, whatever delimiters are counted. -/
theorem groupTail_paired {opener closer : TokenKind} (pair : opener.partner? = some closer)
    (paired : Paired inside) (depth : Nat) :
    groupTail opener closer (depth + 1) (inside ++ rest) =
      (inside.length + (groupTail opener closer (depth + 1) rest).1,
        (groupTail opener closer (depth + 1) rest).2) := by
  have opens {kind : TokenKind} (other : kind.partner? = none) : kind ≠ opener := by
    rintro rfl
    cases pair.symm.trans other
  have closes {kind : TokenKind} (other : kind.closesPair = false) : kind ≠ closer := by
    rintro rfl
    cases other.symm.trans (TokenKind.closesPair_of_partner? pair)
  induction paired generalizing depth rest with
  | nil => simp
  | plain plainOpens plainCloses _ ih =>
      rw [List.cons_append, groupTail, if_neg (opens plainOpens), if_neg (closes plainCloses), ih]
      simp only [List.length_cons, Prod.mk.injEq, and_true]
      omega
  | @group first last inside after innerPair _ _ within behind =>
      rw [List.cons_append, List.append_assoc, List.cons_append]
      -- Only a group of the same delimiters is counted.
      rcases TokenKind.partner?_eq_some_iff.1 pair with ⟨rfl, rfl⟩ | ⟨rfl, rfl⟩ <;>
        rcases TokenKind.partner?_eq_some_iff.1 innerPair with ⟨left, right⟩ | ⟨left, right⟩ <;>
          simp [groupTail, left, right, within, behind] <;> omega

/-- A group in parentheses or brackets ends where its delimiters match. -/
theorem group_paired (pair : opener.kind.partner? = some closer.kind) (paired : Paired inside) :
    group (opener :: (inside ++ closer :: rest)) = { length := inside.length + 2 } := by
  have last : groupTail opener.kind closer.kind 1 (closer :: rest) = (1, true) := by
    rcases TokenKind.partner?_eq_some_iff.1 pair with ⟨left, right⟩ | ⟨left, right⟩ <;>
      simp [groupTail, left, right]
  simp only [group, TokenKind.closer?_of_partner? pair, groupTail_paired pair paired 0, last]
  simp only [if_true, Stretch.mk.injEq, and_true]
  omega

end Stretch

/-! ## Reading an argument list -/

namespace Angle

variable {token opener closer : Token} {inside tokens rest : List Token} {depth next length : Nat}

/-- A token that ends no list by itself is read, and changes how many lists are open. -/
theorem arguments_plain (opens : token.kind.partner? = none)
    (closes : token.kind.closesPair = false)
    (other : token.kind ∉ [.punct .semicolon, .punct .leftBrace, .punct .rightBrace, .eof])
    (same : Level.after ⟨depth, 0⟩ token = ⟨next, 0⟩) (still : 0 < next) :
    arguments depth (token :: rest) = (arguments next rest).shift 1 := by
  have lists := congrArg Level.lists same
  rw [arguments]
  split
  case h_1 kind =>
    obtain rfl : next = depth + 1 := by simp [Level.after, kind] at lists; omega
    rfl
  case h_2 kind =>
    have less : (depth : Int) - 1 = next := by simpa [Level.after, kind] using lists
    obtain rfl : next = depth - 1 := by omega
    rw [if_neg (by omega)]
  case h_3 kind =>
    have less : (depth : Int) - 2 = next := by simpa [Level.after, kind] using lists
    obtain rfl : next = depth - 2 := by omega
    rw [if_neg (by omega), if_neg (by omega)]
  case h_4 kind | h_5 kind => simp [kind, TokenKind.partner?] at opens
  case h_6 kind | h_7 kind | h_9 kind | h_10 kind => simp [kind] at other
  case h_8 kind => simp [kind, TokenKind.closesPair] at closes
  case h_11 =>
    obtain rfl : next = depth := by
      unfold Level.after at lists
      split at lists <;> first | contradiction | exact (Int.ofNat_inj.1 lists).symm
    rfl

/-- A group is read as a whole. -/
theorem arguments_group (pair : opener.kind.partner? = some closer.kind) (paired : Paired inside) :
    arguments depth (opener :: (inside ++ closer :: rest)) =
      (arguments depth rest).shift (inside.length + 2) := by
  have group : Stretch.group (opener :: (inside ++ closer :: rest)) =
      { length := inside.length + 2 } := Stretch.group_paired pair paired
  have behind : (opener :: (inside ++ closer :: rest)).drop (inside.length + 2) = rest := by simp
  rw [arguments]
  rcases TokenKind.partner?_eq_some_iff.1 pair with ⟨left, _⟩ | ⟨left, _⟩ <;>
    simp only [left, group, behind]

/-- Some tokens end with one that closes two lists, where only one is open in front of it. -/
def ClosesHalf (level : Level) (tokens : List Token) : Prop :=
  tokens.getLast?.map Token.kind = some (.punct .greaterGreater) ∧
    (level.behind tokens.dropLast).lists = 1

instance (level : Level) (tokens : List Token) : Decidable (ClosesHalf level tokens) :=
  inferInstanceAs (Decidable (_ ∧ _))

theorem closesHalf_append (level : Level) (front : List Token) (more : tokens ≠ []) :
    ClosesHalf level (front ++ tokens) ↔ ClosesHalf (level.behind front) tokens := by
  simp [ClosesHalf, more, List.dropLast_append_of_ne_nil more, Level.behind_append]

/-- How a list that ends with some tokens is read through its end. -/
def reachOf (level : Level) (tokens : List Token) : Reach :=
  if ClosesHalf level tokens then ⟨tokens.length - 1, .split⟩ else ⟨tokens.length, .closed⟩

theorem reachOf_append (level : Level) (front : List Token) (more : tokens ≠ []) :
    reachOf level (front ++ tokens) = (reachOf (level.behind front) tokens).shift front.length := by
  have positive := List.length_pos_iff.2 more
  simp only [reachOf, closesHalf_append level front more, List.length_append]
  split
  · simp only [Reach.shift, Reach.mk.injEq, and_true]
    omega
  · rfl

theorem arguments_of_endsAt (ends : EndsAt depth 0 token 1) (positive : 0 < depth) :
    arguments depth (token :: rest) = reachOf ⟨depth, 0⟩ [token] := by
  rw [arguments]
  obtain ⟨_, _, ⟨kind, rfl⟩ | ⟨kind, within⟩⟩ := ends
  · simp [reachOf, ClosesHalf, kind]
  · obtain rfl | rfl : depth = 1 ∨ depth = 2 := by omega
    · simp [reachOf, ClosesHalf, kind, Level.behind]
    · simp [reachOf, ClosesHalf, kind, Level.behind]

/-- Where looking ahead finds the end of a list, reading the list ends. -/
theorem arguments_of_closeTail (paired : Paired tokens) (positive : 0 < depth)
    (closed : closeTail depth 0 (tokens ++ rest) = some tokens.length) :
    arguments depth (tokens ++ rest) = reachOf ⟨depth, 0⟩ tokens := by
  -- Both pass over a group as a whole, and count the same lists outside of groups.
  induction paired generalizing depth with
  | nil => exact absurd rfl (ne_nil_of_closeTail closed positive)
  | @plain token after opens closes _ ih =>
      rw [List.cons_append, List.length_cons] at closed
      rcases closeTail_cons closed positive with ends | passes
      · obtain rfl := List.length_eq_zero_iff.1 (Nat.succ.inj ends.1)
        exact arguments_of_endsAt ends positive
      · obtain ⟨next, inner, count, level, still, tail, total, other⟩ := passes
        obtain rfl : inner = 0 :=
          (congrArg Level.groups level).symm.trans (Level.groups_after opens closes)
        obtain rfl : count = after.length := by omega
        have read := reachOf_append ⟨depth, 0⟩ [token] (ne_nil_of_closeTail tail still)
        rw [List.cons_append, arguments_plain opens closes other level still, ih still tail]
        rw [List.singleton_append, Level.behind_cons, level] at read
        exact read.symm
  | @group opener closer inside after pair within _ _ ih =>
      rw [List.cons_append, List.append_assoc, List.cons_append] at closed ⊢
      obtain ⟨count, tail, total⟩ := closeTail_group pair within closed positive
      obtain rfl : count = after.length := by
        simp only [List.length_cons, List.length_append] at total
        omega
      have read := reachOf_append ⟨depth, 0⟩ (opener :: (inside ++ [closer]))
        (ne_nil_of_closeTail tail positive)
      rw [Level.behind_group pair within] at read
      rw [arguments_group pair within, ih positive tail]
      simpa using read.symm

theorem close?_cons (closed : close? (opener :: rest) = some length) :
    opener.kind = .punct .less ∧
      ∃ count, closeTail 1 0 rest = some count ∧ length = count + 1 := by
  simp only [close?, Option.ite_none_right_eq_some, Option.map_eq_some_iff] at closed
  obtain ⟨kind, count, tail, rfl⟩ := closed
  exact ⟨kind, count, tail, Nat.add_comm 1 count⟩

/-- Where looking ahead finds the end of a list, reading it ends. -/
theorem arguments_of_close? (closed : close? (opener :: rest) = some length)
    (paired : Paired ((opener :: rest).take length)) :
    (arguments 1 rest).shift 1 = reachOf {} ((opener :: rest).take length) := by
  obtain ⟨kind, count, tail, rfl⟩ := close?_cons closed
  have size : (rest.take count).length = count := List.length_take_of_le (closeTail_le tail)
  have more : rest.take count ≠ [] := by
    rw [← size] at tail
    exact ne_nil_of_closeTail tail Nat.one_pos
  have opens : opener.kind.partner? = none := by rw [kind]; rfl
  have first : Level.behind {} [opener] = ⟨1, 0⟩ := by simp [Level.behind, Level.after, kind]
  rw [List.take_succ_cons] at paired ⊢
  have whole : closeTail 1 0 (rest.take count ++ rest.drop count) =
      some (rest.take count).length := by
    rw [List.take_append_drop, size]
    exact tail
  have read := arguments_of_closeTail (paired.tail opens) Nat.one_pos whole
  rw [List.take_append_drop] at read
  rw [read, ← List.singleton_append, reachOf_append {} [opener] more, first]
  rfl

end Angle

/-! ## The cursor behind a list -/

namespace Cursor

variable {cursor : Cursor} {count : Nat}

theorem skip_skip (cursor : Cursor) (first second : Nat) :
    (cursor.skip first).skip second = cursor.skip (first + second) := by
  simp [skip, List.take_add]

theorem mark_skip (within : count ≤ cursor.unread.length) :
    (cursor.skip count).mark = cursor.mark + count :=
  (cursor.inRange.jump count within).1

/-- Reading leaves the buffer as it is. -/
theorem buffer_skip (cursor : Cursor) (count : Nat) :
    (cursor.skip count).buffer = cursor.buffer := by
  simp only [buffer, skip, List.reverse_append, List.reverse_reverse, List.append_assoc]
  rw [← List.append_assoc (cursor.unread.take count), List.take_append_drop]

theorem peek_skip (cursor : Cursor) (count : Nat) :
    (cursor.skip count).peek = cursor.ahead count := by
  simp [peek, ahead, skip]

theorem mark_splitShift (cursor : Cursor) : cursor.splitShift.mark = cursor.mark := by
  rw [mark, consumed_splitShift, mark]

theorem unread_splitShift (more : cursor.unread ≠ []) :
    cursor.splitShift.unread = shiftHalves cursor.peek ++ cursor.unread.drop 1 := by
  obtain ⟨token, rest, unread⟩ := List.exists_cons_of_ne_nil more
  simp [splitShift, peek, ahead, unread]

/-- A token ahead that closes two lists is split, and its first half is read. -/
theorem splitShift_ahead {distance : Nat} (inside : distance < cursor.unread.length) :
    ((cursor.skip distance).splitShift.skip 1).mark = cursor.mark + distance + 1 ∧
      ∃ first second, shiftHalves (cursor.ahead distance) = [first, second] ∧
        ((cursor.skip distance).splitShift.skip 1).buffer = cursor.buffer.take
          (cursor.mark + distance) ++ first :: second ::
            cursor.buffer.drop (cursor.mark + distance + 1) ∧
        ((cursor.skip distance).splitShift.skip 1).peek = second := by
  have more : (cursor.skip distance).unread ≠ [] := by simpa using inside
  have place := mark_skip (Nat.le_of_lt inside)
  have unread := unread_splitShift more
  have halves := buffer_splitShift more
  rw [peek_skip] at unread halves
  rw [place, buffer_skip] at halves
  refine ⟨?_, _, _, rfl, ?_, ?_⟩
  · rw [mark_skip (by simp [unread, shiftHalves]), mark_splitShift, place]
  · rw [buffer_skip, halves]
    rfl
  · rw [peek_skip]
    simp [Cursor.ahead, unread, shiftHalves]

theorem kind_of_closesHalf {level : Angle.Level} {length : Nat}
    (within : length ≤ cursor.unread.length)
    (half : Angle.ClosesHalf level (cursor.unread.take length)) :
    (cursor.ahead (length - 1)).kind = .punct .greaterGreater ∧ 0 < length := by
  have last := half.1
  rw [List.getLast?_take] at last
  split at last
  · cases last
  · have place : length - 1 < cursor.unread.length := by omega
    rw [List.getElem?_eq_getElem place, Option.some_or, Option.map_some, Option.some_inj] at last
    refine ⟨?_, by omega⟩
    rw [ahead, List.getD_eq_getElem?_getD, List.getElem?_eq_getElem place]
    exact last

end Cursor

namespace ParseM

variable {state : ParseState} {reach : Angle.Reach} {missing : ParseM Unit} {length : Nat}

theorem passAngle_closed (closed : reach.ending = .closed)
    (within : reach.length ≤ state.cursor.unread.length) :
    passAngle reach missing state =
      .ok () { state with cursor := state.cursor.skip reach.length } := by
  unfold passAngle
  rw [closed]
  change EStateM.bind (skip reach.length) _ state = _
  rw [EStateM.bind, skip_within (.inl within)]
  rfl

theorem splitShift_of_eq (closes : state.cursor.peek.kind = .punct .greaterGreater) :
    splitShift state = .ok () { state with cursor := state.cursor.splitShift } := by
  change (if _ then _ else _ : ParseM Unit) state = _
  rw [if_pos closes]
  rfl

theorem passAngle_split (split : reach.ending = .split)
    (within : reach.length ≤ state.cursor.unread.length)
    (closes : (state.cursor.ahead reach.length).kind = .punct .greaterGreater) :
    passAngle reach missing state =
      .ok () { state with cursor := (state.cursor.skip reach.length).splitShift.skip 1 } := by
  unfold passAngle
  rw [split]
  change EStateM.bind (skip reach.length) _ state = _
  rw [EStateM.bind, skip_within (.inl within)]
  change EStateM.bind splitShift _ _ = _
  rw [EStateM.bind, splitShift_of_eq ((Cursor.peek_skip _ _).symm ▸ closes)]
  exact skip_within (.inr rfl)

theorem le_unread_next {count : Nat} (within : 1 + count ≤ state.cursor.unread.length) :
    count ≤ state.next.cursor.unread.length := by
  rw [ParseState.next, Cursor.unread_skip, List.length_drop]
  omega

section Opened

variable {opener : Token} {rest : List Token} (unread : state.cursor.unread = opener :: rest)
  (opens : opener.kind = .punct .less)

include unread opens

/-- A list is read from its opening token on. -/
theorem skipTemplateArguments_eq : skipTemplateArguments state =
    passAngle (Angle.arguments 1 rest) (refuse .unclosedArguments opener.span) state.next := by
  have first : state.cursor.peek = opener := by simp [Cursor.peek, Cursor.ahead, unread]
  have behind : state.next.cursor.unread = rest := by simp [ParseState.next, unread]
  change EStateM.bind (expect _) _ state = _
  rw [EStateM.bind, expect_of_eq (first ▸ opens), ← behind, ← first]
  rfl

theorem skipTemplateArguments_closed
    (read : (Angle.arguments 1 rest).shift 1 = ⟨length, .closed⟩)
    (within : length ≤ state.cursor.unread.length) :
    skipTemplateArguments state = .ok () { state with cursor := state.cursor.skip length } := by
  obtain ⟨rfl, closed⟩ := Angle.Reach.mk.inj read
  rw [skipTemplateArguments_eq unread opens, passAngle_closed closed (le_unread_next within),
    ParseState.next, Cursor.skip_skip]

theorem skipTemplateArguments_split
    (read : (Angle.arguments 1 rest).shift 1 = ⟨length, .split⟩)
    (within : length ≤ state.cursor.unread.length)
    (closes : (state.cursor.ahead length).kind = .punct .greaterGreater) :
    skipTemplateArguments state =
      .ok () { state with cursor := (state.cursor.skip length).splitShift.skip 1 } := by
  obtain ⟨rfl, split⟩ := Angle.Reach.mk.inj read
  rw [← Cursor.peek_skip, ← Cursor.skip_skip, Cursor.peek_skip] at closes
  rw [skipTemplateArguments_eq unread opens, passAngle_split split (le_unread_next within) closes,
    ParseState.next, Cursor.skip_skip]

end Opened

/-- A list that looking ahead finds closed, with matching parentheses and brackets, is read through
the end found there.  The buffer stays as it is, unless a token that closes two lists is met where
one is open: it is split then, and only its first half is read. -/
theorem skipTemplateArguments_of_close? (closed : Angle.close? state.cursor.unread = some length)
    (paired : Paired (state.cursor.unread.take length)) :
    ∃ cursor, skipTemplateArguments state = .ok () { state with cursor := cursor } ∧
      cursor.mark = state.cursor.mark + length ∧
      if Angle.ClosesHalf {} (state.cursor.unread.take length) then
        ∃ first second, Cursor.shiftHalves (state.cursor.ahead (length - 1)) = [first, second] ∧
          cursor.buffer = state.cursor.buffer.take (state.cursor.mark + length - 1) ++
            first :: second :: state.cursor.buffer.drop (state.cursor.mark + length) ∧
          cursor.peek = second
      else cursor.buffer = state.cursor.buffer := by
  have within := Angle.close?_le closed
  have size : (state.cursor.unread.take length).length = length := List.length_take_of_le within
  cases unread : state.cursor.unread with
  | nil => simp [unread, Angle.close?] at closed
  | cons opener rest =>
      rw [unread] at closed paired
      have opens := (Angle.close?_cons closed).1
      have read := Angle.arguments_of_close? closed paired
      rw [← unread, Angle.reachOf, size] at read
      rw [← unread]
      split
      · rename_i half
        rw [if_pos half] at read
        obtain ⟨closes, positive⟩ := Cursor.kind_of_closesHalf within half
        have inside : length - 1 < state.cursor.unread.length := by omega
        obtain ⟨place, halves⟩ := Cursor.splitShift_ahead inside
        have last : state.cursor.mark + (length - 1) + 1 = state.cursor.mark + length := by omega
        rw [last] at place halves
        rw [Nat.add_sub_assoc positive]
        exact ⟨_, skipTemplateArguments_split unread opens read (Nat.le_of_lt inside) closes,
          place, halves⟩
      · rename_i whole
        rw [if_neg whole] at read
        exact ⟨_, skipTemplateArguments_closed unread opens read within, Cursor.mark_skip within,
          Cursor.buffer_skip _ _⟩

/-- The token that closes both lists is met where only the outer one is open. -/
theorem skipTemplateArguments_nested_lists :
    let state := ParseState.start {} .empty ⟨0⟩ "<Pair<int, f(a > b)>, c[0]>> x"
    Angle.close? state.cursor.unread = some 18 ∧ Paired (state.cursor.unread.take 18) ∧
      ∃ cursor, skipTemplateArguments state = .ok () { state with cursor := cursor } ∧
        cursor.mark = 18 ∧ cursor.peek = ⟨.punct .greater, ">", ⟨27, 1, 28, 1⟩⟩ := by
  intro state
  have closed : Angle.close? state.cursor.unread = some 18 := by decide +kernel
  have paired : Paired (state.cursor.unread.take 18) := by decide +kernel
  obtain ⟨cursor, run, place, read⟩ := skipTemplateArguments_of_close? closed paired
  have half : Angle.ClosesHalf {} (state.cursor.unread.take 18) := by decide +kernel
  rw [if_pos half] at read
  obtain ⟨first, second, halves, _, next⟩ := read
  have split : Cursor.shiftHalves (state.cursor.ahead 17) =
      [⟨.punct .greater, ">", ⟨26, 1, 27, 1⟩⟩, ⟨.punct .greater, ">", ⟨27, 1, 28, 1⟩⟩] := by
    decide +kernel
  cases split.symm.trans halves
  exact ⟨closed, paired, cursor, run, place, next⟩

end ParseM

end DeclTree
