/-! Names of messages and fields: which texts are identifiers, and the name under which a message
appears in generated code. -/
namespace Gamewire
set_option autoImplicit false

/-! ## Identifiers -/

def isAsciiLetter (c : Char) : Bool := ('a' ≤ c && c ≤ 'z') || ('A' ≤ c && c ≤ 'Z')

def isNameStart (c : Char) : Bool := isAsciiLetter c || c == '_'

def isNameChar (c : Char) : Bool := isNameStart c || ('0' ≤ c && c ≤ '9')

/-- A letter or an underscore followed by letters, digits and underscores, all of ASCII. -/
def isIdentifier (name : String) : Bool :=
  match name.toList with
  | [] => false
  | c :: cs => isNameStart c && cs.all isNameChar

/-! ## Generated names -/

/-- Upper case for an ASCII letter; every other character stays. -/
def upperAscii (c : Char) : Char :=
  if 'a' ≤ c ∧ c ≤ 'z' then Char.ofNat (c.toNat - 32) else c

/-- Lower case for an ASCII letter; every other character stays. -/
def lowerAscii (c : Char) : Char :=
  if 'A' ≤ c ∧ c ≤ 'Z' then Char.ofNat (c.toNat + 32) else c

/-- Walks over a name: underscores vanish, and the character after one (or at the start, when
`fresh`) is put in upper case. -/
def pascalChars : (fresh : Bool) → List Char → List Char
  | _, [] => []
  | fresh, c :: cs =>
    if c = '_' then pascalChars true cs
    else (if fresh then upperAscii c else c) :: pascalChars false cs

/-- The parts between underscores, each with its first character in upper case, joined. -/
def pascalCase (name : String) : String := String.ofList (pascalChars true name.toList)

end Gamewire
