/-!
# Paths

The names in a path. A path is cut at its slashes into segments, of which the empty
ones and `.` count for nothing (`Chip8.Path.segments`). The last one is the file name
(`Chip8.Path.fileName?`), unless it is `..`, which names no file. The stem of a name is
what stands before its last dot (`Chip8.Path.stem`), or the whole name if nothing stands
before a dot.
-/

namespace Chip8

namespace Path

/-- The parts of a path between slashes. -/
def split : List Char → List (List Char)
  | [] => [[]]
  | c :: rest =>
    match split rest with
    | [] => [[c]]
    | part :: parts => if c = '/' then [] :: part :: parts else (c :: part) :: parts

/-- The parts of a path that lead somewhere. -/
def segments (path : List Char) : List (List Char) :=
  (split path).filter fun part => part ≠ [] ∧ part ≠ ['.']

/-- The name of the file that a path leads to. -/
def fileName? (path : List Char) : Option (List Char) :=
  (segments path).getLast?.filter fun name => name ≠ ['.', '.']

/-- What stands before the last dot of a name, if anything does. -/
def stem (name : List Char) : List Char :=
  match name.reverse.dropWhile (· ≠ '.') with
  | _ :: c :: before => (c :: before).reverse
  | _ => name

/-- Whether two names are the same but for the case of the letters `A` to `Z`. -/
def sameName (a b : List Char) : Bool := a.map Char.toLower == b.map Char.toLower

end Path

end Chip8
