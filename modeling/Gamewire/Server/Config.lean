import Gamewire.Admin.Key
import Gamewire.Files.System
import Gamewire.Server.Address
import Gamewire.Text.Blank
import Gamewire.Toml.Document
import Gamewire.Toml.Printer

/-! The settings of a server: their defaults, the file that they are read from and written to, and
what a server cannot be started with. -/
namespace Gamewire
set_option autoImplicit false

structure ServerConfig where
  /-- Where both listeners bind. -/
  host : String := "0.0.0.0"
  port : UInt16 := 57000
  adminPort : UInt16 := 57001
  maxRooms : Nat := 8
  maxMembers : Nat := 16
  /-- Seconds that an empty room is kept. -/
  gracePeriod : Nat := 30
  adminHeader : String := defaultAdminHeader
  adminSecret : String := defaultAdminSecret
  /-- Frames that may wait for one connection. -/
  outboundBuffer : Nat := 64
  /-- Seconds that sending a frame may take. -/
  sendTimeout : Nat := 5
  /-- Seconds within which a connection has to ask for a room. -/
  joinTimeout : Nat := 5
  protocolFile : String := "protocol.toml"
deriving Repr, DecidableEq

inductive ConfigFault where
  | io (path : String) (fault : FileFault)
  | parse
  | render
  | notPositive (name : String)
  | portClash (port : UInt16)
  | empty (name : String)
  | invalidAddress (text : String)
deriving Repr, DecidableEq

def ConfigFault.message : ConfigFault → String
  | io path fault => "failed to read config file " ++ path ++ ": " ++ fault.message
  | parse => "failed to parse config: " ++ Toml.faultMessage
  | render => "failed to render config: " ++ Toml.limitMessage
  | notPositive name => name ++ " must be greater than zero"
  | portClash port => s!"game port and admin port are both {port.toNat}"
  | empty name => name ++ " must not be empty"
  | invalidAddress text => "invalid bind address " ++ text

/-- The faults behind the fault. -/
def ConfigFault.causes : ConfigFault → List String
  | io _ fault => [fault.message]
  | parse => [Toml.faultMessage]
  | render => [Toml.limitMessage]
  | notPositive _ | portClash _ | empty _ | invalidAddress _ => []

namespace ServerConfig

/-! ## Reading -/

open Toml (withDefault) in
/-- Settings from a document; a missing key keeps its default and unknown keys do not count. -/
def ofValue? (v : Toml.Value) : Option ServerConfig := do
  let d : ServerConfig := {}
  let member ← v.members?
  let text (default key : String) (position : Nat) :=
    withDefault default Toml.Value.asText? (member key position)
  let port (default : UInt16) (key : String) (position : Nat) :=
    withDefault default (fun v => (v.asNat? 65535).map UInt16.ofNat) (member key position)
  let count (default : Nat) (key : String) (position : Nat) :=
    withDefault default (Toml.Value.asNat? Toml.maxInteger.toNat) (member key position)
  return {
    host := ← text d.host "host" 0
    port := ← port d.port "port" 1
    adminPort := ← port d.adminPort "admin_port" 2
    maxRooms := ← count d.maxRooms "max_rooms" 3
    maxMembers := ← count d.maxMembers "max_conn_per_room" 4
    gracePeriod := ← count d.gracePeriod "grace_period_secs" 5
    adminHeader := ← text d.adminHeader "admin_header" 6
    adminSecret := ← text d.adminSecret "admin_secret" 7
    outboundBuffer := ← count d.outboundBuffer "outbound_buffer" 8
    sendTimeout := ← count d.sendTimeout "send_timeout_secs" 9
    joinTimeout := ← count d.joinTimeout "join_timeout_secs" 10
    protocolFile := ← text d.protocolFile "protocol_file" 11 }

def parse (source : String) : Except ConfigFault ServerConfig :=
  match (Toml.parse? source).bind ofValue? with
  | some c => .ok c
  | none => .error .parse

/-- Reads the file at a path. -/
def load {m : Type → Type} [Monad m] (files : FileSystem m) (path : String) :
    m (Except ConfigFault ServerConfig) := do
  match ← files.readText path with
  | .ok source => return parse source
  | .error e => return .error (.io path e)

/-! ## Writing -/

/-- The numbers that have no bound of their own. -/
def counts (c : ServerConfig) : List Nat :=
  [c.maxRooms, c.maxMembers, c.gracePeriod, c.outboundBuffer, c.sendTimeout, c.joinTimeout]

def lines (c : ServerConfig) : List Toml.Line := [
  ⟨"host", .text c.host⟩, ⟨"port", .integer c.port.toNat⟩,
  ⟨"admin_port", .integer c.adminPort.toNat⟩, ⟨"max_rooms", .integer c.maxRooms⟩,
  ⟨"max_conn_per_room", .integer c.maxMembers⟩, ⟨"grace_period_secs", .integer c.gracePeriod⟩,
  ⟨"admin_header", .text c.adminHeader⟩, ⟨"admin_secret", .text c.adminSecret⟩,
  ⟨"outbound_buffer", .integer c.outboundBuffer⟩, ⟨"send_timeout_secs", .integer c.sendTimeout⟩,
  ⟨"join_timeout_secs", .integer c.joinTimeout⟩, ⟨"protocol_file", .text c.protocolFile⟩]

/-- The text of the file. A number that the format cannot hold is refused. -/
def render (c : ServerConfig) : Except ConfigFault String :=
  if c.counts.all fun n => (n : Int) ≤ Toml.maxInteger then
    .ok (String.ofList (Toml.writeSections [⟨[], c.lines⟩]))
  else .error .render

/-- Writes the file at a path. -/
def save {m : Type → Type} [Monad m] (c : ServerConfig) (files : FileSystem m) (path : String) :
    m (Except ConfigFault Unit) := do
  match c.render with
  | .error e => return .error e
  | .ok text =>
    match ← files.write path text with
    | .ok () => return .ok ()
    | .error e => return .error (.io path e)

/-! ## What follows from the settings -/

def address (c : ServerConfig) (port : UInt16) : Except ConfigFault SocketAddress :=
  match HostAddress.parse? c.host with
  | some host => .ok ⟨host, port⟩
  | none => .error (.invalidAddress (c.host ++ s!":{port.toNat}"))

def gameAddress (c : ServerConfig) : Except ConfigFault SocketAddress := c.address c.port

def adminAddress (c : ServerConfig) : Except ConfigFault SocketAddress := c.address c.adminPort

def limits (c : ServerConfig) : Limits where
  maxRooms := c.maxRooms
  maxMembers := c.maxMembers
  grace := c.gracePeriod * 1000

/-- The timeouts in milliseconds. -/
def sendLimit (c : ServerConfig) : Nat := c.sendTimeout * 1000

def joinLimit (c : ServerConfig) : Nat := c.joinTimeout * 1000

/-- The settings that have to be positive. -/
def positives (c : ServerConfig) : List (String × Nat) :=
  [("max_rooms", c.maxRooms), ("max_conn_per_room", c.maxMembers),
    ("outbound_buffer", c.outboundBuffer), ("send_timeout_secs", c.sendTimeout),
    ("join_timeout_secs", c.joinTimeout)]

/-- Refuses settings that a server cannot be started with. -/
def validate (c : ServerConfig) : Except ConfigFault Unit :=
  match c.positives.find? (·.2 == 0) with
  | some (name, _) => .error (.notPositive name)
  | none =>
    if c.port = c.adminPort ∧ c.port ≠ 0 then .error (.portClash c.port)
    else if (Text.trim c.adminHeader).isEmpty then .error (.empty "admin_header")
    else if c.adminSecret.isEmpty then .error (.empty "admin_secret")
    else
      match c.gameAddress with
      | .ok _ => .ok ()
      | .error e => .error e

end ServerConfig

end Gamewire
