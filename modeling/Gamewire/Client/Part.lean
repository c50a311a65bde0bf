/-! The text of a client module as parts, each with the names that it declares. -/
namespace Gamewire.Client
set_option autoImplicit false

structure Part where
  /-- Names that the part adds to the scope of the module. -/
  names : List String := []
  lines : List String
deriving Repr, DecidableEq

/-- Moves lines one step to the right; an empty line stays empty. -/
def indented (lines : List String) : List String :=
  lines.map fun line => if line.isEmpty then line else "  " ++ line

/-- An opening line, indented lines and a closing line. -/
def block (first : String) (inner : List String) (last : String) : List String :=
  first :: indented inner ++ [last]

/-- The lines of parts with an empty line between two of them. -/
def partLines : List Part → List String
  | [] => []
  | [p] => p.lines
  | p :: rest => p.lines ++ "" :: partLines rest

/-- The text of a file with the given lines. -/
def fileText (lines : List String) : String := String.join (lines.map (· ++ "\n"))

end Gamewire.Client
