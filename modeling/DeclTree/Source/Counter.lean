/-!
# Counters of 32 bits

Offsets, lines, columns and lengths are kept in 32 bits.  A counter that has
shown its largest number starts again at zero.  Text is found again in its
source by the offsets that counters show, and not at all if these are no longer
the start and the end of a piece of text.
-/

namespace DeclTree

/-- How many numbers a counter can show. -/
def counterRange : Nat := 4294967296

/-- What a counter shows when it has counted so far. -/
def wrap (count : Nat) : Nat :=
  (UInt32.ofNat count).toNat

theorem wrap_eq_mod (count : Nat) : wrap count = count % counterRange :=
  UInt32.toNat_ofNat

theorem wrap_of_lt {count : Nat} (within : count < counterRange) : wrap count = count := by
  rw [wrap_eq_mod, Nat.mod_eq_of_lt within]

theorem wrap_lt (count : Nat) : wrap count < counterRange := by
  rw [wrap_eq_mod]
  exact Nat.mod_lt _ (by decide)

/-- A counter that has run over counts on like any other. -/
theorem wrap_add (first second : Nat) : wrap (wrap first + second) = wrap (first + second) := by
  simp only [wrap_eq_mod, Nat.mod_add_mod]

/-- The rest of a text behind a number of bytes; none from inside a character
or from behind the end. -/
def dropBytes : Nat → List Char → Option (List Char)
  | 0, text => some text
  | _ + 1, [] => none
  | count + 1, character :: rest =>
      if character.utf8Size ≤ count + 1 then
        dropBytes (count + 1 - character.utf8Size) rest
      else none

/-- The text between two byte offsets of a source; none if they do not name the
start and the end of a piece of text. -/
def textBetween (source : List Char) (start finish : Nat) : Option (List Char) :=
  if start ≤ finish then
    match dropBytes start source, dropBytes finish source with
    | some text, some rest => some (text.take (text.length - rest.length))
    | _, _ => none
  else none

end DeclTree
