import Gamewire.Room.Limits

/-! The register of live rooms: who is where, which room an admission goes to, and the state of
each room. Every change between empty and not empty gets a new generation number, by which a
timer can tell whether it still means the same stretch of emptiness. -/
namespace Gamewire
set_option autoImplicit false

structure Entry where
  state : RoomState := .open
  /-- In ascending order. -/
  members : List ConnId := []
  generation : Nat := 0
deriving Repr, DecidableEq

structure Registry where
  maxRooms : Nat
  capacity : Nat
  /-- The live rooms in ascending order. -/
  rooms : List (RoomId × Entry) := []
  /-- The number that the next room gets. -/
  nextId : Nat := 1
deriving Repr, DecidableEq

/-- Where an admission goes. -/
inductive Slot where
  | existing (room : RoomId)
  | new
deriving Repr, DecidableEq

/-- Adds a connection to an ascending list, once. -/
def insertConn (conn : ConnId) : List ConnId → List ConnId
  | [] => [conn]
  | c :: rest =>
    if conn < c then conn :: c :: rest
    else if conn = c then c :: rest
    else c :: insertConn conn rest

namespace Registry

def hasSpace (r : Registry) (e : Entry) : Bool :=
  e.state.acceptsMembers && decide (e.members.length < r.capacity)

/-- The policy. A live room that is asked for is taken if it has space and otherwise refused; all
other requests go to the lowest room with space, else to a new room, while there may be more. -/
def choose (r : Registry) (requested : Option RoomId) : Except AdmissionFault Slot :=
  match requested.bind fun id => (r.rooms.lookup id).map (id, ·) with
  | some (id, entry) => if r.hasSpace entry then .ok (.existing id) else .error (.roomFull id)
  | none =>
    match r.rooms.find? fun room => r.hasSpace room.2 with
    | some (id, _) => .ok (.existing id)
    | none => if r.rooms.length < r.maxRooms then .ok .new else .error .serverFull

/-- Whether a room ever had this number. -/
def everExisted (r : Registry) (id : RoomId) : Bool := 1 ≤ id.toNat && id.toNat < r.nextId

/-- Adds an empty room under the next number, unless the numbers of 32 bits are used up. A build
without overflow checks is meant, as far as its numbers go: it gives out 1 to 2^32 - 1. Behind them its
counter begins again at 0, where this one has no number to give and the manager crashes. A build with
overflow checks already crashes over giving out 2^32 - 1. -/
def create (r : Registry) : Option (RoomId × Registry) :=
  if r.nextId < UInt32.size then
    let id := UInt32.ofNat r.nextId
    some (id, { r with rooms := r.rooms ++ [(id, {})], nextId := r.nextId + 1 })
  else none

def remove (r : Registry) (id : RoomId) : Registry :=
  { r with rooms := r.rooms.filter (·.1 != id) }

def setEntry (r : Registry) (id : RoomId) (e : Entry) : Registry :=
  { r with rooms := r.rooms.map fun room => if room.1 = id then (id, e) else room }

/-- Records a member of a live room. -/
def addMember (r : Registry) (id : RoomId) (conn : ConnId) : Registry :=
  match r.rooms.lookup id with
  | none => r
  | some e =>
    let members := insertConn conn e.members
    let generation := if e.state = .closing then e.generation + 1 else e.generation
    r.setEntry id ⟨.ofCount members.length r.capacity, members, generation⟩

/-- Strikes a member off and tells the new entry; `none` if there is no such member. -/
def removeMember (r : Registry) (id : RoomId) (conn : ConnId) : Option (Entry × Registry) :=
  match r.rooms.lookup id with
  | none => none
  | some e =>
    if e.members.contains conn then
      let members := e.members.filter (· != conn)
      let state := RoomState.ofCount members.length r.capacity
      let generation := if state = .closing then e.generation + 1 else e.generation
      let e : Entry := ⟨state, members, generation⟩
      some (e, r.setEntry id e)
    else none

/-- Whether a room is empty since the start of the given generation. -/
def isExpired (r : Registry) (id : RoomId) (generation : Nat) : Bool :=
  match r.rooms.lookup id with
  | some e => e.state == .closing && e.generation == generation
  | none => false

def snapshots (r : Registry) : List RoomSnapshot :=
  r.rooms.map fun (id, e) => ⟨id, e.members.length, r.capacity, e.state⟩

/-! ## The policy looks only at live rooms -/

theorem mem_of_choose {r : Registry} {requested : Option RoomId} {id : RoomId}
    (h : r.choose requested = .ok (.existing id)) :
    ∃ e, (id, e) ∈ r.rooms ∧ r.hasSpace e = true := by
  unfold choose at h
  split at h
  · rename_i id' e hasked
    split at h
    · rename_i hspace
      cases h
      obtain ⟨asked, -, hlookup⟩ := Option.bind_eq_some_iff.mp hasked
      obtain ⟨e', he, hpair⟩ := Option.map_eq_some_iff.mp hlookup
      cases hpair
      obtain ⟨before, after, hrooms, -⟩ := List.lookup_eq_some_iff.mp he
      exact ⟨e, by rw [hrooms]; simp, hspace⟩
    · cases h
  · split at h
    · rename_i id' e hfirst
      cases h
      have hspace := List.find?_some hfirst
      exact ⟨e, List.mem_of_find?_eq_some hfirst, hspace⟩
    · split at h
      · cases h
      · cases h

theorem length_remove_lt {r : Registry} {id : RoomId} {e : Entry} (h : (id, e) ∈ r.rooms) :
    (r.remove id).rooms.length < r.rooms.length := by
  apply List.length_filter_lt_length_iff_exists.mpr
  exact ⟨(id, e), h, by simp⟩

end Registry

end Gamewire
