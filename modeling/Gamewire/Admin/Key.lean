import Gamewire.Admin.Action
import Gamewire.Schema.Name

/-! The key of an administrator: a secret in a header of the request. Names of headers do not
depend on case, and of a repeated header the first value counts. -/
namespace Gamewire
set_option autoImplicit false

/-- The characters of a header name. -/
def isHeaderChar (c : Char) : Bool :=
  isAsciiLetter c || ('0' ≤ c && c ≤ '9') ||
    ['!', '#', '$', '%', '&', '\'', '*', '+', '-', '.', '^', '_', '`', '|', '~'].contains c

/-- Most characters of a header name. -/
def maxHeaderName : Nat := 65535

def isHeaderName (name : String) : Bool :=
  !name.isEmpty && name.toList.all isHeaderChar && name.length ≤ maxHeaderName

/-- The value of a header has no control but the tab. -/
def isHeaderValue (value : String) : Bool :=
  value.toList.all fun c => c == '\t' || (' ' ≤ c && c != '\x7f')

/-- The form of a header name in which names are compared. -/
def normalHeader (name : String) : String := String.ofList (name.toList.map lowerAscii)

/-- The headers of a request in order; the bytes of a value need not be a text. -/
abbrev Headers := List (String × List UInt8)

def Headers.first? (name : String) (headers : Headers) : Option (List UInt8) :=
  (headers.find? fun h => normalHeader h.1 == name).map (·.2)

def defaultAdminHeader : String := "HOPNPOP16_ADMIN"

def defaultAdminSecret : String := "bloodisthickerthanwater"

structure AdminKey where
  /-- In normal form. -/
  header : String
  secret : String
deriving Repr, DecidableEq

namespace AdminKey

def make (header secret : String) : Except AdminFault AdminKey :=
  if isHeaderName header then .ok ⟨normalHeader header, secret⟩ else .error (.invalidHeader header)

/-- A description that does not show the secret. -/
def summary (k : AdminKey) : String :=
  "AdminAuth \x7b header: \"" ++ k.header ++ "\", .. \x7d"

/-- Whether a request carries the secret. -/
def admits (k : AdminKey) (headers : Headers) : Bool :=
  headers.first? k.header == some (Text.utf8Bytes k.secret)

end AdminKey

end Gamewire
