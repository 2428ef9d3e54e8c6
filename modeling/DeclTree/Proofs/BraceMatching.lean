import DeclTree.Proofs.StretchBounds

/-!
# Braces that match

A reader of declarations goes from one brace to the one that closes it, except where it passes
over a piece of text without looking at the braces in it: a group in parentheses or brackets, of
which only its own kind of delimiter is counted, and the name of a conversion function.  Wherever
such pieces are balanced in themselves, the braces of everything that is read match.
-/

namespace DeclTree

/-- Whether a token opens or closes a braced group. -/
def TokenKind.isBrace (kind : TokenKind) : Bool :=
  kind == .punct .leftBrace || kind == .punct .rightBrace

namespace TokenKind

@[simp] theorem isBrace_punct (mark : Punct) :
    (TokenKind.punct mark).isBrace =
      (decide (mark = .leftBrace) || decide (mark = .rightBrace)) := by
  rw [Bool.eq_iff_iff]
  simp [isBrace]

@[simp] theorem isBrace_keyword (word : Keyword) : (TokenKind.keyword word).isBrace = false :=
  rfl

@[simp] theorem isBrace_literal (literal : LiteralKind) :
    (TokenKind.literal literal).isBrace = false :=
  rfl

@[simp] theorem isBrace_identifier : TokenKind.identifier.isBrace = false :=
  rfl

theorem isBrace_eq_false_iff {kind : TokenKind} :
    kind.isBrace = false ↔ kind ≠ .punct .leftBrace ∧ kind ≠ .punct .rightBrace := by
  simp [isBrace]

/-- Whether a token is read by itself: it is no brace, and where reading stays within one
declaration it does not end it either. -/
def isPlain (many : Bool) (kind : TokenKind) : Bool :=
  (kind != .punct .semicolon || many) && !kind.isBrace

variable {many : Bool} {kind : TokenKind}

@[simp] theorem isPlain_punct (mark : Punct) : (TokenKind.punct mark).isPlain many =
    ((decide (mark ≠ .semicolon) || many) && decide (mark ≠ .leftBrace ∧ mark ≠ .rightBrace)) := by
  rw [Bool.eq_iff_iff]
  simp [isPlain]

@[simp] theorem isPlain_keyword (word : Keyword) : (TokenKind.keyword word).isPlain many = true :=
  rfl

@[simp] theorem isPlain_literal (literal : LiteralKind) :
    (TokenKind.literal literal).isPlain many = true :=
  rfl

@[simp] theorem isPlain_identifier : TokenKind.identifier.isPlain many = true :=
  rfl

theorem isPlain_iff : kind.isPlain many = true ↔ (kind = .punct .semicolon → many = true) ∧
    kind ≠ .punct .leftBrace ∧ kind ≠ .punct .rightBrace := by
  rw [isPlain, Bool.and_eq_true, Bool.not_eq_true', isBrace_eq_false_iff]
  simp [Classical.or_iff_not_imp_left]

/-- A token that is read by itself is no brace. -/
theorem isBrace_of_isPlain (plain : kind.isPlain many = true) : kind.isBrace = false :=
  isBrace_eq_false_iff.2 (isPlain_iff.1 plain).2

end TokenKind

namespace Braces

def openings (tokens : List Token) : Nat :=
  tokens.countP fun token => token.kind == .punct .leftBrace

def closings (tokens : List Token) : Nat :=
  tokens.countP fun token => token.kind == .punct .rightBrace

/-- Whether the braces in some tokens match: none is closed before it is opened, and all that are
opened are closed. -/
structure Balanced (tokens : List Token) : Prop where
  ordered : ∀ start, start <+: tokens → closings start ≤ openings start
  closed : closings tokens = openings tokens

/-! ## Counting open braces -/

/-- The number of braced groups that are open behind some tokens, where a number of them is open
in front; nothing if one is closed that is not open. -/
def depthBehind : Nat → List Token → Option Nat
  | depth, [] => some depth
  | depth, token :: rest =>
      if token.kind = .punct .leftBrace then depthBehind (depth + 1) rest
      else if token.kind = .punct .rightBrace then
        match depth with
        | 0 => none
        | depth + 1 => depthBehind depth rest
      else depthBehind depth rest

variable {token : Token} {tokens rest : List Token} {depth left : Nat}

theorem depthBehind_opener (opens : token.kind = .punct .leftBrace) :
    depthBehind depth (token :: rest) = depthBehind (depth + 1) rest := by
  simp [depthBehind, opens]

theorem depthBehind_closer (closes : token.kind = .punct .rightBrace) :
    depthBehind (depth + 1) (token :: rest) = depthBehind depth rest := by
  simp [depthBehind, closes]

theorem depthBehind_plain (plain : token.kind.isBrace = false) :
    depthBehind depth (token :: rest) = depthBehind depth rest := by
  simp [depthBehind, TokenKind.isBrace_eq_false_iff.1 plain]

theorem depthBehind_append (depth : Nat) (tokens rest : List Token) :
    depthBehind depth (tokens ++ rest) =
      (depthBehind depth tokens).bind fun left => depthBehind left rest := by
  induction tokens generalizing depth with
  | nil => rfl
  | cons token tokens ih =>
      simp only [List.cons_append, depthBehind]
      split
      · exact ih (depth + 1)
      · split
        · cases depth with
          | zero => rfl
          | succ depth => exact ih depth
        · exact ih depth

/-- What is open around some tokens stays open behind them. -/
theorem depthBehind_add (read : depthBehind depth tokens = some left) (around : Nat) :
    depthBehind (depth + around) tokens = some (left + around) := by
  induction tokens generalizing depth with
  | nil =>
      obtain rfl : depth = left := by simpa [depthBehind] using read
      rfl
  | cons token tokens ih =>
      simp only [depthBehind] at read ⊢
      split at read
      · rename_i opens
        rw [if_pos opens, Nat.add_right_comm]
        exact ih read
      · rename_i other
        rw [if_neg other]
        split at read
        · rename_i closes
          rw [if_pos closes]
          cases depth with
          | zero => cases read
          | succ depth =>
              rw [Nat.add_right_comm]
              exact ih read
        · rename_i plain
          rw [if_neg plain]
          exact ih read

theorem depthBehind_eq_some_iff : depthBehind depth tokens = some left ↔
    (∀ start, start <+: tokens → closings start ≤ depth + openings start) ∧
      closings tokens + left = depth + openings tokens := by
  induction tokens generalizing depth with
  | nil => simp [depthBehind, closings, openings, eq_comm]
  | cons token rest ih =>
      have starts (property : List Token → Prop) : (∀ start, start <+: token :: rest →
          property start) ↔ property [] ∧ ∀ start, start <+: rest → property (token :: start) := by
        simp only [List.prefix_cons_iff]
        constructor
        · intro all
          exact ⟨all [] (.inl rfl), fun start inside => all _ (.inr ⟨start, rfl, inside⟩)⟩
        · rintro ⟨none, some⟩ _ (rfl | ⟨start, rfl, inside⟩)
          · exact none
          · exact some start inside
      rw [starts]
      by_cases opens : token.kind = .punct .leftBrace
      · rw [depthBehind_opener opens, ih]
        simp [closings, openings, opens, Nat.add_assoc, Nat.add_comm 1]
      · by_cases closes : token.kind = .punct .rightBrace
        · cases depth with
          | zero =>
              simp only [depthBehind, if_neg opens, if_pos closes, reduceCtorEq, false_iff]
              rintro ⟨⟨_, ordered⟩, _⟩
              have first := ordered [] List.nil_prefix
              simp [closings, openings, closes] at first
          | succ depth =>
              rw [depthBehind_closer closes, ih]
              simp only [closings, openings, closes, List.countP_cons, List.countP_nil]
              simp
              grind
        · have plain := TokenKind.isBrace_eq_false_iff.2 ⟨opens, closes⟩
          rw [depthBehind_plain plain, ih]
          simp [closings, openings, opens, closes]

/-- Braces match where none is open at the end that was not open at the start. -/
theorem balanced_iff : Balanced tokens ↔ depthBehind 0 tokens = some 0 := by
  rw [depthBehind_eq_some_iff]
  constructor
  · rintro ⟨ordered, closed⟩
    simpa using ⟨ordered, closed⟩
  · rintro ⟨ordered, closed⟩
    exact ⟨by simpa using ordered, by simpa using closed⟩

instance (tokens : List Token) : Decidable (Balanced tokens) :=
  decidable_of_iff _ balanced_iff.symm

/-- Balanced tokens leave open what is open around them. -/
theorem Balanced.depthBehind_append (balanced : Balanced tokens) (depth : Nat)
    (rest : List Token) : depthBehind depth (tokens ++ rest) = depthBehind depth rest := by
  have kept := depthBehind_add (balanced_iff.1 balanced) depth
  rw [Nat.zero_add] at kept
  rw [Braces.depthBehind_append, kept]
  rfl

/-! ## Pieces that are passed over -/

/-- A piece of text whose braces are not looked at: a group in parentheses or brackets up to the
delimiter of its own kind that closes it, or the name of a conversion function. -/
inductive Passage : List Token → Prop
  | group {opener : Token} {rest : List Token}
      (opens : opener.kind = .punct .leftParen ∨ opener.kind = .punct .leftBracket)
      (closed : (Stretch.group (opener :: rest)).unclosed = none)
      (whole : (Stretch.group (opener :: rest)).length = (opener :: rest).length) :
      Passage (opener :: rest)
  | conversion {word : Token} {type : List Token} (kind : word.kind = .keyword .operatorKw)
      (plain : ∀ token ∈ type, token.kind ≠ .punct .leftParen ∧
        token.kind ≠ .punct .semicolon ∧ token.kind ≠ .punct .leftBrace) :
      Passage (word :: type)

/-- A piece of some tokens that is passed over without a look at its braces. -/
structure PassedOver (tokens passage : List Token) : Prop where
  inside : passage <:+: tokens
  closed : Passage passage

/-! ## Reading from brace to brace -/

/-- Whether reading from some tokens to others among them goes from every brace to the one that
closes it and otherwise passes over pieces of text, either within one declaration or through many
of them.  A token that closes two template argument lists may be split on the way. -/
inductive Matching : Bool → List Token → List Token → Prop
  | done {many : Bool} (tokens : List Token) : Matching many tokens tokens
  | plain {many : Bool} {token : Token} {rest after : List Token}
      (kind : token.kind.isPlain many = true) (further : Matching many rest after) :
      Matching many (token :: rest) after
  | split {many : Bool} {token : Token} {rest after : List Token}
      (kind : token.kind = .punct .greaterGreater)
      (further : Matching many (Cursor.shiftHalves token ++ rest) after) :
      Matching many (token :: rest) after
  | braces {many : Bool} {opener closer : Token} {inside behind after : List Token}
      (opens : opener.kind = .punct .leftBrace) (body : Matching true inside (closer :: behind))
      (closes : closer.kind = .punct .rightBrace) (further : Matching many behind after) :
      Matching many (opener :: inside) after
  | passage {many : Bool} {passage rest after : List Token} (closed : Passage passage)
      (further : Matching many rest after) : Matching many (passage ++ rest) after

variable {many : Bool} {before between after passage : List Token}

theorem Passage.ne_nil (closed : Passage passage) : passage ≠ [] := by
  cases closed <;> simp

theorem Matching.eq_nil (matching : Matching many before after) (none : before = []) :
    after = [] := by
  cases matching with
  | done => exact none
  | passage closed => exact absurd (List.append_eq_nil_iff.1 none).1 closed.ne_nil
  | plain | split | braces => cases none

theorem Matching.trans (left : Matching many before between)
    (right : Matching many between after) : Matching many before after := by
  induction left with
  | done => exact right
  | plain kind _ ih => exact .plain kind (ih right)
  | split kind _ ih => exact .split kind (ih right)
  | braces opens body closes _ _ ih => exact .braces opens body closes (ih right)
  | passage closed _ ih => exact .passage closed (ih right)

/-- What is read of one declaration may be read of many. -/
theorem Matching.widen (matching : Matching many before after) : Matching true before after := by
  induction matching with
  | done => exact .done _
  | plain kind _ ih =>
      exact .plain (TokenKind.isPlain_iff.2 ⟨fun _ => rfl, (TokenKind.isPlain_iff.1 kind).2⟩) ih
  | split kind _ ih => exact .split kind ih
  | braces opens body closes _ _ ih => exact .braces opens body closes ih
  | passage closed _ ih => exact .passage closed ih

/-- Tokens that are no braces are read one by one. -/
theorem matching_append (plain : ∀ token ∈ before, token.kind.isPlain many = true)
    (after : List Token) : Matching many (before ++ after) after := by
  induction before with
  | nil => exact .done after
  | cons token rest ih =>
      exact .plain (plain token List.mem_cons_self)
        (ih fun other member => plain other (List.mem_cons_of_mem _ member))

theorem matching_drop {count : Nat}
    (plain : ∀ token ∈ tokens.take count, token.kind.isPlain many = true) :
    Matching many tokens (tokens.drop count) := by
  have read := matching_append plain (tokens.drop count)
  rwa [List.take_append_drop] at read

/-! ## Where all pieces are balanced -/

theorem Passage.kind_ne (closed : Passage (token :: rest)) : token.kind ≠ .punct .greater := by
  cases closed with
  | group opens => rcases opens with opens | opens <;> simp [opens]
  | conversion word => simp [word]

theorem PassedOver.append (passed : PassedOver rest passage) (before : List Token) :
    PassedOver (before ++ rest) passage :=
  ⟨passed.inside.trans (List.suffix_append _ _).isInfix, passed.closed⟩

theorem PassedOver.cons (passed : PassedOver rest passage) (token : Token) :
    PassedOver (token :: rest) passage :=
  passed.append [token]

/-- No piece that is passed over starts with a closing angle bracket. -/
theorem PassedOver.of_half {half : Token} (passed : PassedOver (half :: rest) passage)
    (kind : half.kind = .punct .greater) : PassedOver rest passage := by
  obtain ⟨inside, closed⟩ := passed
  rcases List.infix_cons_iff.1 inside with start | later
  · cases passage with
    | nil => exact absurd rfl closed.ne_nil
    | cons first others =>
        obtain ⟨rfl, _⟩ := List.cons_prefix_cons.1 start
        exact absurd kind closed.kind_ne
  · exact ⟨later, closed⟩

theorem PassedOver.of_split
    (passed : PassedOver (Cursor.shiftHalves token ++ rest) passage) :
    PassedOver (token :: rest) passage :=
  ((passed.of_half rfl).of_half rfl).cons token

/-- What is passed over behind some reading is a part of what was there in front of it. -/
theorem Matching.passedOver (matching : Matching many before after)
    (passed : PassedOver after passage) : PassedOver before passage := by
  induction matching with
  | done => exact passed
  | plain _ _ ih => exact (ih passed).cons _
  | split _ _ ih => exact (ih passed).of_split
  | braces _ _ _ _ body further =>
      exact (body ((further passed).cons _)).cons _
  | passage _ _ ih => exact (ih passed).append _

/-- Reading from brace to brace leaves as many groups open as there were, if all pieces passed
over are balanced. -/
theorem Matching.depthBehind_eq (matching : Matching many before after)
    (balanced : ∀ passage, PassedOver before passage → Balanced passage) (depth : Nat) :
    depthBehind depth before = depthBehind depth after := by
  induction matching generalizing depth with
  | done => rfl
  | plain kind _ ih =>
      rw [depthBehind_plain (TokenKind.isBrace_of_isPlain kind)]
      exact ih (fun passage passed => balanced passage (passed.cons _)) depth
  | @split _ token rest after kind _ ih =>
      have halves : depthBehind depth (Cursor.shiftHalves token ++ rest) =
          depthBehind depth rest := rfl
      rw [depthBehind_plain (by simp [kind, TokenKind.isBrace]), ← halves]
      exact ih (fun passage passed => balanced passage passed.of_split) depth
  | @braces _ opener closer inside behind after opens body closes _ bodyIh ih =>
      have outer passage (passed : PassedOver behind passage) : Balanced passage :=
        balanced passage ((body.passedOver (passed.cons closer)).cons opener)
      calc depthBehind depth (opener :: inside)
        _ = depthBehind (depth + 1) inside := depthBehind_opener opens
        _ = depthBehind (depth + 1) (closer :: behind) :=
            bodyIh (fun passage passed => balanced passage (passed.cons opener)) (depth + 1)
        _ = depthBehind depth behind := depthBehind_closer closes
        _ = depthBehind depth after := ih outer depth
  | @passage _ passage rest after closed _ ih =>
      have even := balanced passage ⟨(List.prefix_append _ _).isInfix, closed⟩
      rw [even.depthBehind_append]
      exact ih (fun other passed => balanced other (passed.append passage)) depth

/-- The braces of a text match if it is read up to a part whose braces match, unless a piece of it
that is passed over has braces that do not. -/
theorem Matching.balanced_or (matching : Matching many tokens rest) (behind : Balanced rest) :
    Balanced tokens ∨ ∃ passage, PassedOver tokens passage ∧ ¬ Balanced passage := by
  by_cases even : ∀ passage, PassedOver tokens passage → Balanced passage
  · left
    rw [balanced_iff, matching.depthBehind_eq even 0]
    exact balanced_iff.1 behind
  · right
    simpa using even

/-! ## Groups -/

/-- Whether some braced groups are closed one behind the other, through the last of which
reading goes from some tokens to others. -/
def Closes : Nat → List Token → List Token → Prop
  | 0, inside, behind => inside = behind
  | depth + 1, inside, behind => ∃ closer next, closer.kind = .punct .rightBrace ∧
      Matching true inside (closer :: next) ∧ Closes depth next behind

section GroupTails

variable {opener closer : TokenKind}

theorem groupTail_opener (opens : token.kind = opener) :
    Stretch.groupTail opener closer depth (token :: rest) =
      (1 + (Stretch.groupTail opener closer (depth + 1) rest).1,
        (Stretch.groupTail opener closer (depth + 1) rest).2) := by
  simp [Stretch.groupTail, opens]

theorem groupTail_last (other : token.kind ≠ opener) (closes : token.kind = closer)
    (last : depth ≤ 1) : Stretch.groupTail opener closer depth (token :: rest) = (1, true) := by
  rw [Stretch.groupTail.eq_def]
  simp only [if_neg other, if_pos closes, if_pos last]

theorem groupTail_inner (other : token.kind ≠ opener) (closes : token.kind = closer)
    (inner : ¬ depth ≤ 1) : Stretch.groupTail opener closer depth (token :: rest) =
      (1 + (Stretch.groupTail opener closer (depth - 1) rest).1,
        (Stretch.groupTail opener closer (depth - 1) rest).2) := by
  rw [Stretch.groupTail.eq_def]
  simp only [if_neg other, if_pos closes, if_neg inner]

theorem groupTail_plain (other : token.kind ≠ opener) (plain : token.kind ≠ closer) :
    Stretch.groupTail opener closer depth (token :: rest) =
      (1 + (Stretch.groupTail opener closer depth rest).1,
        (Stretch.groupTail opener closer depth rest).2) := by
  simp [Stretch.groupTail, other, plain]

/-- Up to its closing delimiter a group does not depend on what is behind it. -/
theorem groupTail_take (closed : (Stretch.groupTail opener closer depth tokens).2) :
    Stretch.groupTail opener closer depth
        (tokens.take (Stretch.groupTail opener closer depth tokens).1) =
      ((Stretch.groupTail opener closer depth tokens).1, true) := by
  induction tokens generalizing depth with
  | nil => cases closed
  | cons token rest ih =>
      by_cases opens : token.kind = opener
      · rw [groupTail_opener opens] at closed ⊢
        rw [Nat.add_comm, List.take_succ_cons, groupTail_opener opens, ih closed, Nat.add_comm]
      · by_cases closes : token.kind = closer
        · by_cases last : depth ≤ 1
          · rw [groupTail_last opens closes last, List.take_succ_cons,
              groupTail_last opens closes last]
          · rw [groupTail_inner opens closes last] at closed ⊢
            rw [Nat.add_comm, List.take_succ_cons, groupTail_inner opens closes last, ih closed,
              Nat.add_comm]
        · rw [groupTail_plain opens closes] at closed ⊢
          rw [Nat.add_comm, List.take_succ_cons, groupTail_plain opens closes, ih closed,
            Nat.add_comm]

/-- A group that is not closed takes all tokens. -/
theorem length_groupTail_of_open
    (leftOpen : (Stretch.groupTail opener closer depth tokens).2 = false) :
    (Stretch.groupTail opener closer depth tokens).1 = tokens.length := by
  induction tokens generalizing depth with
  | nil => rfl
  | cons token rest ih =>
      by_cases opens : token.kind = opener
      · rw [groupTail_opener opens] at leftOpen ⊢
        simp only [ih leftOpen, List.length_cons, Nat.add_comm]
      · by_cases closes : token.kind = closer
        · by_cases last : depth ≤ 1
          · rw [groupTail_last opens closes last] at leftOpen
            cases leftOpen
          · rw [groupTail_inner opens closes last] at leftOpen ⊢
            simp only [ih leftOpen, List.length_cons, Nat.add_comm]
        · rw [groupTail_plain opens closes] at leftOpen ⊢
          simp only [ih leftOpen, List.length_cons, Nat.add_comm]

end GroupTails

/-- Behind a number of opened braces a group ends where all of them are closed. -/
theorem closes_groupTail
    (closed : (Stretch.groupTail (.punct .leftBrace) (.punct .rightBrace) (depth + 1) tokens).2) :
    Closes (depth + 1) tokens (tokens.drop
      (Stretch.groupTail (.punct .leftBrace) (.punct .rightBrace) (depth + 1) tokens).1) := by
  induction tokens generalizing depth with
  | nil => cases closed
  | cons token rest ih =>
      by_cases opens : token.kind = .punct .leftBrace
      · rw [groupTail_opener opens] at closed ⊢
        obtain ⟨closer, next, closes, body, second, following, ends, further, outer⟩ := ih closed
        rw [Nat.add_comm 1, List.drop_succ_cons]
        exact ⟨second, following, ends, .braces opens body closes further, outer⟩
      · by_cases closes : token.kind = .punct .rightBrace
        · cases depth with
          | zero =>
              rw [groupTail_last opens closes (Nat.le_refl 1)]
              exact ⟨token, rest, closes, .done _, rfl⟩
          | succ depth =>
              rw [groupTail_inner opens closes (by omega)] at closed ⊢
              rw [Nat.add_comm 1, List.drop_succ_cons]
              exact ⟨token, rest, closes, .done _, ih closed⟩
        · rw [groupTail_plain opens closes] at closed ⊢
          obtain ⟨closer, next, last, body, outer⟩ := ih closed
          rw [Nat.add_comm 1, List.drop_succ_cons]
          have plain : token.kind.isPlain true = true :=
            TokenKind.isPlain_iff.2 ⟨fun _ => rfl, opens, closes⟩
          exact ⟨closer, next, last, .plain plain body, outer⟩

end Braces

end DeclTree
