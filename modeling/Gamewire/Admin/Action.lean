import Gamewire.Admin.Url
import Gamewire.Room.Lobby

/-! What an administrator can ask of a server, what can go wrong, and what the answer is. -/
namespace Gamewire
set_option autoImplicit false

inductive AdminAction where
  | listRooms
  | shutdown
  | shutdownRoom (room : RoomId)
deriving Repr, DecidableEq

/-- Why a request was not made, or what came back was of no use. -/
inductive RequestFault where
  | url (fault : UrlFault)
  | headerName
  | headerValue
  | unsent (detail : String)
  | unreadable
deriving Repr, DecidableEq

inductive AdminFault where
  /-- The header is missing or the secret is wrong; which of them is not told. -/
  | auth
  | room (fault : RoomFault)
  | unknownAction (name : String)
  | missingRoom (action : String)
  | invalidHeader (name : String)
  /-- The request failed on its way. -/
  | http (fault : RequestFault)
  /-- The server answered with an unexpected status. -/
  | status (code : Nat) (body : String)
deriving Repr, DecidableEq

inductive AdminResponse where
  | rooms (rooms : List RoomSnapshot)
  | shutDown (room : Option RoomId)
deriving Repr, DecidableEq

namespace RequestFault

def message : RequestFault → String
  | url (.foreignScheme address) => s!"builder error for url ({address})"
  | url _ | headerName | headerValue => "builder error"
  | unsent detail => detail
  | unreadable => "error decoding response body"

/-- The fault behind the fault. -/
def cause? : RequestFault → Option String
  | url fault => some fault.message
  | headerName => some "invalid HTTP header name"
  | headerValue => some "failed to parse header value"
  | unsent _ | unreadable => none

end RequestFault

namespace AdminFault

def message : AdminFault → String
  | auth => "unauthorized"
  | room fault => fault.message
  | unknownAction name => s!"unknown admin action: {name}"
  | missingRoom action => s!"action {action} needs a room id"
  | invalidHeader name => s!"invalid admin header name: {name}"
  | http fault => "admin request failed: " ++ fault.message
  | status code body => s!"admin server answered {code}: {body}"

/-- The faults behind the fault. -/
def causes : AdminFault → List String
  | http fault => fault.message :: fault.cause?.toList
  | auth | room _ | unknownAction _ | missingRoom _ | invalidHeader _ | status _ _ => []

/-- The status under which a server reports the fault. -/
def httpStatus : AdminFault → Nat
  | auth => 401
  | room (.notFound _) => 404
  | room _ => 503
  | unknownAction _ | missingRoom _ | invalidHeader _ => 400
  | http _ | status _ _ => 500

end AdminFault

/-- What members are told when an administrator closes their room. -/
def roomShutdownReason : String := "room closed by admin"

/-- What members are told when an administrator stops the server. -/
def serverShutdownReason : String := "server shutting down"

namespace AdminAction

/-- Reads the name of an action; only one of them takes a room. -/
def parse (name : String) (room : Option RoomId) : Except AdminFault AdminAction :=
  if name = "list-rooms" then .ok .listRooms
  else if name = "shutdown" then .ok .shutdown
  else if name = "shutdown-room" then
    match room with
    | some id => .ok (.shutdownRoom id)
    | none => .error (.missingRoom "shutdown-room")
  else .error (.unknownAction name)

/-- Runs an action whose sender is known to be an administrator. -/
def execute {σ : Type} (g : Game σ) (l : Lobby σ) :
    AdminAction → Except AdminFault AdminResponse × Lobby σ
  | .listRooms =>
    match l.list with
    | .ok rooms => (.ok (.rooms rooms), l)
    | .error e => (.error (.room e), l)
  | .shutdown =>
    match l.shutdown g serverShutdownReason with
    | (.ok (), l) => (.ok (.shutDown none), l)
    | (.error e, l) => (.error (.room e), l)
  | .shutdownRoom room =>
    match l.shutdownRoom g room roomShutdownReason with
    | (.ok (), l) => (.ok (.shutDown (some room)), l)
    | (.error e, l) => (.error (.room e), l)

end AdminAction

end Gamewire
