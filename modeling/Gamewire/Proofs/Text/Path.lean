import Gamewire.Proofs.Wire.Bytes
import Gamewire.Text.Percent
import Mathlib.Tactic

/-! Paths as texts: the segments between slashes, and texts without a percent sign. -/
namespace Gamewire.Text
set_option autoImplicit false

/-! ## Segments -/

section

variable {α : Type} [BEq α] [LawfulBEq α] {a : α} {xs l : List α} {parts : List (List α)}

end

/-! ## Percent-encoding -/

end Gamewire.Text
