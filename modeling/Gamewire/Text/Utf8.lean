/-! Texts as bytes in UTF-8. -/
namespace Gamewire.Text
set_option autoImplicit false

def utf8Bytes (s : String) : List UInt8 := s.toUTF8.data.toList

/-- The text that bytes encode, if they are well-formed. -/
def ofUtf8? (bytes : List UInt8) : Option String := String.fromUTF8? ⟨bytes.toArray⟩

/-- The longest run of characters from the start that takes at most `max` bytes. -/
def takeBytes : (max : Nat) → List Char → List Char
  | _, [] => []
  | max, c :: cs => if c.utf8Size ≤ max then c :: takeBytes (max - c.utf8Size) cs else []

/-- Cuts a text to at most `max` bytes without splitting a character. -/
def truncateBytes (max : Nat) (s : String) : String :=
  if s.utf8ByteSize ≤ max then s else String.ofList (takeBytes max s.toList)

end Gamewire.Text
