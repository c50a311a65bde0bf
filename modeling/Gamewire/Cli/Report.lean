import Gamewire.Text.Numeral

/-! What a command leaves behind: what it printed, and how it failed. -/
namespace Gamewire.Cli
set_option autoImplicit false

/-- A failure with the faults behind it, each the cause of the one before. -/
structure Failure where
  text : String
  causes : List String := []
deriving Repr, DecidableEq

namespace Failure

/-- Indents the second and all further lines of a text. -/
def indentLines (margin text : String) : String := ("\n" ++ margin).intercalate (text.splitOn "\n")

/-- Causes on lines of their own. They are numbered if there is more than one. -/
def renderCauses : List String → String
  | [] => ""
  | [cause] => "\n\nCaused by:\n    " ++ indentLines "    " cause
  | causes =>
    "\n\nCaused by:" ++ String.join (causes.mapIdx fun i cause =>
      "\n" ++ Text.padLeft 5 (toString i) ++ ": " ++ indentLines "       " cause)

def render (f : Failure) : String := "Error: " ++ f.text ++ renderCauses f.causes ++ "\n"

/-- Says what was done when a fault occurred. -/
def inContext (context text : String) (causes : List String) : Failure := ⟨context, text :: causes⟩

end Failure

/-- The two outputs of a command. -/
structure Console where
  out : String := ""
  err : String := ""
deriving Repr, DecidableEq

/-- The end of a command. -/
structure Outcome where
  exit : Nat
  console : Console := {}
deriving Repr, DecidableEq

end Gamewire.Cli
