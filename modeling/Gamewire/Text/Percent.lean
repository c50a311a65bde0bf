import Gamewire.Text.Numeral
import Gamewire.Text.Utf8

/-! Percent-encoded text: `%` and two hexadecimal digits stand for a byte. -/
namespace Gamewire.Text
set_option autoImplicit false

/-- The bytes of a percent-encoded text. A percent sign without two digits stands for itself. -/
def percentBytes : List Char → List UInt8
  | [] => []
  | c :: r =>
    if c = '%' then
      match r with
      | a :: b :: r' =>
        match digitValue? 16 a, digitValue? 16 b with
        | some high, some low => UInt8.ofNat (16 * high + low) :: percentBytes r'
        | _, _ => utf8Bytes "%" ++ percentBytes (a :: b :: r')
      | r => utf8Bytes "%" ++ percentBytes r
    else utf8Bytes (String.singleton c) ++ percentBytes r

/-- The text that a percent-encoded text stands for, if its bytes are well-formed. -/
def percentDecode? (cs : List Char) : Option String := ofUtf8? (percentBytes cs)

end Gamewire.Text
