import Gamewire.Admin.Action
import Gamewire.Json.Reader

/-! The JSON text of an administrator's answer. An object has its kind under `result`, in any
place; unknown keys do not count, and a key that counts may occur once only. Wherever an object is
read, the array of its members in order will do. -/
namespace Gamewire.AdminResponse
set_option autoImplicit false

/-- The largest count that a text may give. -/
def maxCount : Nat := 18446744073709551615

/-! ## Writing -/

def ofSnapshot (s : RoomSnapshot) : Json.Value :=
  .object [("id", .integer s.id.toNat), ("members", .integer s.members),
    ("capacity", .integer s.capacity), ("state", .text s.state.name)]

def toJson : AdminResponse → Json.Value
  | .rooms list => .object [("result", .text "rooms"), ("rooms", .array (list.map ofSnapshot))]
  | .shutDown room =>
    .object [("result", .text "shut_down"),
      ("room", match room with | some id => .integer id.toNat | none => .null)]

/-- The compact text. -/
def render (r : AdminResponse) : String := r.toJson.render

/-! ## Reading -/

def readId (v : Json.Value) : Option RoomId := (v.asNat? 4294967295).map UInt32.ofNat

def readState (v : Json.Value) : Option RoomState := v.asChoice?.bind RoomState.ofName?

/-- A snapshot from the values of its four members. -/
def snapshotOf? (id members capacity state : Option Json.Value) : Option RoomSnapshot := do
  let id ← id.bind readId
  let members ← members.bind (Json.Value.asNat? maxCount)
  let capacity ← capacity.bind (Json.Value.asNat? maxCount)
  let state ← state.bind readState
  return ⟨id, members, capacity, state⟩

def readSnapshot : Json.Value → Option RoomSnapshot
  | .object entries => do
    let id ← Json.uniqueKey? "id" entries
    let members ← Json.uniqueKey? "members" entries
    let capacity ← Json.uniqueKey? "capacity" entries
    let state ← Json.uniqueKey? "state" entries
    snapshotOf? id members capacity state
  | .array [id, members, capacity, state] =>
    snapshotOf? (some id) (some members) (some capacity) (some state)
  | _ => none

def readRooms : Json.Value → Option AdminResponse
  | .array xs => (xs.mapM readSnapshot).map .rooms
  | _ => none

def readShutDown (v : Json.Value) : Option AdminResponse := (v.nullable readId).map .shutDown

/-- The answer that a value stands for. -/
def ofJson? : Json.Value → Option AdminResponse
  | .object entries => do
    match ← Json.uniqueKey? "result" entries with
    | some (.text "rooms") => (← Json.uniqueKey? "rooms" entries).bind readRooms
    | some (.text "shut_down") => readShutDown ((← Json.uniqueKey? "room" entries).getD .null)
    | _ => none
  | .array [.text "rooms", list] => readRooms list
  | .array [.text "shut_down", room] => readShutDown room
  | _ => none

def parse? (s : String) : Option AdminResponse := (Json.parse? s).bind ofJson?

end Gamewire.AdminResponse
