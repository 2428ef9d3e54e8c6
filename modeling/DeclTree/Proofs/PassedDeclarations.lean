import DeclTree.Proofs.BalancedStretches

/-!
# Declarations that are passed over

Some declarations are not read: what follows the words that introduce them is passed over like the
rest of a declaration with an error, only that no error is reported.  If it runs into a group that
is left open, then all tokens from there on are swallowed, and nobody hears of it.
-/

namespace DeclTree

open Braces (Matching)

namespace Stretch

/-- The tokens from a group on that is left open, if passing over the rest of a declaration runs
into such a group. -/
def swallowed (tokens : List Token) : Option (List Token) :=
  match tokens with
  | [] => none
  | token :: rest =>
      match token.kind with
      | .eof | .punct .rightBrace | .punct .semicolon => none
      | .punct .leftBrace =>
          if (group (token :: rest)).unclosed.isNone then none else some (token :: rest)
      | .punct .leftParen | .punct .leftBracket =>
          let inner := group (token :: rest)
          if inner.unclosed.isNone then swallowed ((token :: rest).drop inner.length)
          else some (token :: rest)
      | _ => swallowed rest
termination_by tokens.length
decreasing_by
  all_goals
    have := length_group_pos (List.cons_ne_nil token rest)
    simp +zetaDelta only [List.length_drop, List.length_cons]
    omega

variable {tokens passage : List Token}

/-- The rest of a declaration is read from brace to brace if it swallows nothing. -/
theorem matching_recovery (tokens : List Token) (none : swallowed tokens = none) :
    Matching true tokens (tokens.drop (recovery tokens)) := by
  fun_induction recovery tokens with
  | case1 | case2 | case3 => exact .done _
  | case4 token rest kind => exact Angle.matching_one (by rw [kind]; rfl)
  | case5 token rest kind inner following closed =>
      rw [← List.drop_drop]
      refine (matching_opener (by rw [kind]; rfl) (by simpa using closed.1)).trans ?_
      exact Braces.matching_drop fun other member => isPlain_of_startsWith closed.2 rfl member
  | case6 token rest kind inner following closed =>
      refine matching_opener (by rw [kind]; rfl) ?_
      rw [swallowed.eq_def] at none
      simpa [kind] using none
  | case7 token rest kind inner closed ih | case9 token rest kind inner closed ih =>
      rw [← List.drop_drop]
      refine (matching_opener (by rw [kind]; rfl) (by simpa using closed)).trans (ih ?_)
      rw [swallowed.eq_def] at none
      simpa [kind, closed, inner] using none
  | case8 token rest kind inner leftOpen | case10 token rest kind inner leftOpen =>
      rw [swallowed.eq_def] at none
      simp [kind, leftOpen, inner] at none
  | case11 token rest _ closer semicolon opener paren bracket ih =>
      rw [Nat.add_comm, List.drop_succ_cons]
      rw [swallowed.eq_def] at none
      exact .plain (TokenKind.isPlain_iff.2 ⟨fun _ => rfl, opener, closer⟩)
        (ih (by simpa using none))

/-- A group that is left open takes all tokens. -/
theorem drop_group_of_open {token : Token} {rest : List Token}
    (leftOpen : ¬ (group (token :: rest)).unclosed.isNone) :
    (token :: rest).drop (group (token :: rest)).length = [] := by
  cases closes : token.kind.closer? with
  | none => simp [group, closes] at leftOpen
  | some closer =>
      rw [group_of_closer closes] at leftOpen ⊢
      have opened : (groupTail token.kind closer 1 rest).2 = false := by
        simpa using leftOpen
      rw [Braces.length_groupTail_of_open opened, Nat.add_comm]
      exact List.drop_length

/-- What is swallowed is all that is left from a group on, which is reached from brace to brace. -/
theorem swallowed_eq_some (found : swallowed tokens = some passage) :
    tokens.drop (recovery tokens) = [] ∧ Matching true tokens passage := by
  fun_induction recovery tokens with
  | case1 => simp [swallowed] at found
  | case2 token rest kind | case3 token rest kind | case4 token rest kind =>
      rw [swallowed.eq_def] at found
      simp [kind] at found
  | case5 token rest kind inner following closed =>
      rw [swallowed.eq_def] at found
      simp [kind, inner, closed.1] at found
  | case6 token rest kind inner following closed =>
      rw [swallowed.eq_def] at found
      simp only [kind, Option.ite_none_left_eq_some, Option.some.injEq] at found
      obtain ⟨leftOpen, rfl⟩ := found
      exact ⟨drop_group_of_open leftOpen, .done _⟩
  | case7 token rest kind inner closed ih | case9 token rest kind inner closed ih =>
      rw [swallowed.eq_def] at found
      obtain ⟨whole, matching⟩ := ih (by simpa [kind, closed, inner] using found)
      rw [← List.drop_drop]
      exact ⟨whole, (matching_opener (by rw [kind]; rfl) (by simpa using closed)).trans matching⟩
  | case8 token rest kind inner leftOpen | case10 token rest kind inner leftOpen =>
      rw [swallowed.eq_def] at found
      obtain rfl : token :: rest = passage := by simpa [kind, leftOpen, inner] using found
      exact ⟨drop_group_of_open leftOpen, .done _⟩
  | case11 token rest ends closer semicolon opener paren bracket ih =>
      rw [swallowed.eq_def] at found
      obtain ⟨whole, matching⟩ := ih (by simpa using found)
      rw [Nat.add_comm, List.drop_succ_cons]
      exact ⟨whole, .plain (TokenKind.isPlain_iff.2 ⟨fun _ => rfl, opener, closer⟩) matching⟩

end Stretch

namespace Braces

open Stretch (startsWith)

/-- Whether a declaration that some tokens start with is not read, and from which of its tokens on
it is passed over. -/
inductive GivesUp : List Token → List Token → Prop
  /-- A name is repeated. -/
  | repeated {word : Token} {rest : List Token} (kind : word.kind = .keyword .usingKw)
      (noDirective : ¬ startsWith (.keyword .namespaceKw) rest)
      (noAlias : ¬ (startsWith .identifier rest ∧
        (startsWith (.punct .equal) (rest.drop 1) ∨
          startsWith (.punct .leftBracket) (rest.drop 1)))) :
      GivesUp (word :: rest) rest
  /-- Another name for a namespace. -/
  | namespaceAlias {word : Token} {rest : List Token} (kind : word.kind = .keyword .namespaceKw)
      (closed : (Stretch.attributes rest).unclosed = none)
      (named : startsWith .identifier (rest.drop (Stretch.attributes rest).length))
      (equals : startsWith (.punct .equal) (rest.drop ((Stretch.attributes rest).length + 1))) :
      GivesUp (word :: rest) (rest.drop (Stretch.attributes rest).length)
  /-- An explicit instantiation. -/
  | instantiation {word : Token} {rest : List Token} (kind : word.kind = .keyword .templateKw)
      (noParameters : ¬ startsWith (.punct .less) rest) : GivesUp (word :: rest) rest
  | external {word : Token} {rest : List Token} (kind : word.kind = .keyword .externKw)
      (template : startsWith (.keyword .templateKw) rest) : GivesUp (word :: rest) (word :: rest)
  | assertion {word : Token} {rest : List Token} (kind : word.kind = .keyword .staticAssertKw) :
      GivesUp (word :: rest) (word :: rest)
  /-- A friend, from this word on or behind the specifiers that are read with it. -/
  | friend {word : Token} {specifiers rest : List Token} (kind : word.kind = .keyword .friendKw)
      (read : Matching false (word :: specifiers) rest) : GivesUp (word :: specifiers) rest
  | concept {word : Token} {rest : List Token} (kind : word.kind = .identifier)
      (text : word.lexeme = "concept") : GivesUp (word :: rest) (word :: rest)
  /-- The declaration of a module. -/
  | moduleName {word : Token} {rest : List Token} (kind : word.kind = .identifier)
      (text : word.lexeme = "module" ∨ word.lexeme = "import")
      (next : startsWith .identifier rest ∨ startsWith (.punct .semicolon) rest ∨
        startsWith (.punct .less) rest) : GivesUp (word :: rest) (word :: rest)

/-- Whether some tokens are read from brace to brace up to a declaration that is passed over and
runs into a group that is left open, which stands at the start of the others. -/
def Swallowed (tokens passage : List Token) : Prop :=
  ∃ declaration rest, Matching true tokens declaration ∧ GivesUp declaration rest ∧
    Stretch.swallowed rest = some passage

/-- Whether reading from some tokens to others goes from brace to brace, or, where it goes through
many declarations, ends in one that swallows the rest. -/
def Reads (many : Bool) (before after : List Token) : Prop :=
  Matching many before after ∨ (many = true ∧ after = [] ∧ ∃ passage, Swallowed before passage)

variable {many : Bool} {tokens before between after rest passage : List Token}

theorem GivesUp.matching (givesUp : GivesUp tokens rest) : Matching false tokens rest := by
  cases givesUp with
  | repeated kind | instantiation kind => exact .plain (by rw [kind]; rfl) (.done _)
  | namespaceAlias kind closed =>
      exact .plain (by rw [kind]; rfl) (Stretch.matching_attributes _ closed)
  | external | assertion | concept | moduleName => exact .done _
  | friend _ read => exact read

theorem Swallowed.matching (swallowed : Swallowed tokens passage) :
    Matching true tokens passage := by
  obtain ⟨declaration, rest, reached, givesUp, found⟩ := swallowed
  exact (reached.trans givesUp.matching.widen).trans (Stretch.swallowed_eq_some found).2

namespace Reads

theorem done (tokens : List Token) : Reads many tokens tokens :=
  .inl (.done tokens)

theorem trans (left : Reads many before between) (right : Reads many between after) :
    Reads many before after := by
  rcases left with left | ⟨wide, rfl, swallowed⟩
  · rcases right with right | ⟨wide, ended, passage, declaration, rest, reached, givesUp, found⟩
    · exact .inl (left.trans right)
    · subst wide
      exact .inr ⟨rfl, ended, passage, declaration, rest, left.trans reached, givesUp, found⟩
  · refine .inr ⟨wide, ?_, swallowed⟩
    rcases right with right | ⟨_, ended, _⟩
    · exact right.eq_nil rfl
    · exact ended

theorem widen (reads : Reads many before after) : Reads true before after :=
  reads.imp Matching.widen fun ⟨_, ended, swallowed⟩ => ⟨rfl, ended, swallowed⟩

/-- Within one declaration nothing is swallowed. -/
theorem within (reads : Reads false before after) : Matching false before after :=
  reads.resolve_right fun ⟨wide, _⟩ => Bool.false_ne_true wide

/-- Where something is left, nothing was swallowed. -/
theorem matching {token : Token} (reads : Reads many before (token :: after)) :
    Matching many before (token :: after) :=
  reads.resolve_right fun ⟨_, ended, _⟩ => List.cons_ne_nil _ _ ended

end Reads

/-- The rest of a declaration that is given up is read from brace to brace or swallowed. -/
theorem GivesUp.reads (givesUp : GivesUp tokens rest) :
    Reads true tokens (rest.drop (Stretch.recovery rest)) := by
  cases found : Stretch.swallowed rest with
  | none => exact .inl (givesUp.matching.widen.trans (Stretch.matching_recovery rest found))
  | some passage =>
      exact .inr ⟨rfl, (Stretch.swallowed_eq_some found).1, passage, tokens, rest, .done _, givesUp,
        found⟩

/-- The braces of a text that is read to its end match, unless a piece of it that is passed over or
swallowed has braces that do not. -/
theorem Reads.balanced_or (reads : Reads true tokens []) :
    Balanced tokens ∨ (∃ passage, PassedOver tokens passage ∧ ¬ Balanced passage) ∨
      ∃ passage, Swallowed tokens passage ∧ ¬ Balanced passage := by
  rcases reads with matching | ⟨_, _, passage, swallowed⟩
  · exact (matching.balanced_or (balanced_iff.2 rfl)).imp_right .inl
  · by_cases even : Balanced passage
    · exact (swallowed.matching.balanced_or even).imp_right .inl
    · exact .inr (.inr ⟨passage, swallowed, even⟩)

end Braces

end DeclTree
