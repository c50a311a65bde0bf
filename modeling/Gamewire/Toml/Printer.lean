import Gamewire.Toml.Quoted

/-! Writing documents of a simple shape: sections of single-line assignments, a section without a
header first, and an empty line between sections. -/
namespace Gamewire.Toml
set_option autoImplicit false

/-- What stands after the equals sign. -/
inductive Atom where
  | text (s : String)
  | integer (n : Int)
  | boolean (b : Bool)
  | emptyArray
deriving Repr, DecidableEq

def Atom.write : Atom → List Char
  | text s => writeText s.toList
  | integer n => (toString n).toList
  | boolean b => if b then "true".toList else "false".toList
  | emptyArray => "[]".toList

/-- One line; the key has to be bare. -/
structure Line where
  key : String
  value : Atom

def Line.write (l : Line) : List Char :=
  l.key.toList ++ " = ".toList ++ l.value.write ++ ['\n']

/-- Assignments under the header of a list of tables, whose path is joined by points; the section
in front of all headers has none. -/
structure Section where
  header : List String
  lines : List Line

def Section.write (s : Section) : List Char :=
  (if s.header.isEmpty then []
   else "[[".toList ++ (".".intercalate s.header).toList ++ "]]\n".toList) ++
    s.lines.flatMap Line.write

/-- Sections with empty lines between them. -/
def writeSections : List Section → List Char
  | [] => []
  | [s] => s.write
  | s :: rest => s.write ++ '\n' :: writeSections rest

end Gamewire.Toml
