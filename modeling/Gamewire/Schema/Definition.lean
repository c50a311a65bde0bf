/-! A protocol as it is written down: nothing is checked yet, and type names are plain texts. The
position of a message in the list is its tag on the wire. -/
namespace Gamewire
set_option autoImplicit false

/-- Which side may send a message. -/
inductive Direction where
  | clientToServer
  | serverToClient
  | bidirectional
deriving Repr, DecidableEq, Inhabited

namespace Direction

def all : List Direction := [clientToServer, serverToClient, bidirectional]

def clientSends : Direction → Bool
  | clientToServer | bidirectional => true
  | serverToClient => false

def serverSends : Direction → Bool
  | serverToClient | bidirectional => true
  | clientToServer => false

/-- The name used in protocol files. -/
def name : Direction → String
  | clientToServer => "client_to_server"
  | serverToClient => "server_to_client"
  | bidirectional => "bidirectional"

def ofName? (s : String) : Option Direction := all.find? (·.name == s)

/-- The number that stands for the direction in a fingerprint. -/
def code : Direction → UInt8
  | clientToServer => 0
  | serverToClient => 1
  | bidirectional => 2

end Direction

/-- A field as written. An optional field carries a presence byte on the wire. -/
structure FieldDef where
  name : String
  typeName : String
  optional : Bool := false
  capacity : Option UInt16 := none
deriving Repr, DecidableEq, Inhabited

/-- A message as written. A heartbeat is a keep-alive that is empty on purpose. -/
structure MessageDef where
  name : String
  direction : Direction
  heartbeat : Bool := false
  fields : List FieldDef := []
deriving Repr, DecidableEq, Inhabited

/-- The messages of a protocol in order. -/
structure Schema where
  messages : List MessageDef := []
deriving Repr, DecidableEq, Inhabited

end Gamewire
