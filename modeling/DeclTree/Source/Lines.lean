/-!
# Lines of a text

A newline ends a line, together with a carriage return right before it.  Text
behind the last newline is a line of its own unless it is empty.
-/

namespace DeclTree

/-- The characters of the first line, its newline left out, and what follows
the newline. -/
def splitLine : List Char → List Char × Option (List Char)
  | [] => ([], none)
  | '\n' :: rest => ([], some rest)
  | character :: rest =>
      let (line, following) := splitLine rest
      (character :: line, following)

def dropReturn (line : List Char) : List Char :=
  if line.getLast? = some '\r' then line.dropLast else line

def lineAt (source : List Char) : Nat → Option (List Char)
  | 0 =>
      match splitLine source with
      | (line, some _) => some (dropReturn line)
      | ([], none) => none
      | (line, none) => some line
  | index + 1 =>
      match splitLine source with
      | (_, some following) => lineAt following index
      | (_, none) => none

end DeclTree
