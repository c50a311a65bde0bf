import Gamewire.Admin.Key
import Gamewire.Cli.Arguments
import Gamewire.Client.Bundle
import Gamewire.Server.Config

/-! Commands with their options, as values of their own types. -/
namespace Gamewire.Cli
set_option autoImplicit false

/-- What every command knows. -/
structure Common where
  /-- Where relative paths start. -/
  root : String
  configFile : String
  logFolder : Option String
deriving Repr, DecidableEq

/-- Settings that the command line replaces. -/
structure Overrides where
  host : Option String := none
  port : Option UInt16 := none
  adminPort : Option UInt16 := none
  adminHeader : Option String := none
  adminSecret : Option String := none
  maxRooms : Option Nat := none
  maxMembers : Option Nat := none
  gracePeriod : Option Nat := none
  protocolFile : Option String := none
deriving Repr, DecidableEq

structure Generation where
  protocolFile : String
  folder : String
  page : Option String
  /-- Everything but the page. -/
  wishes : Client.Wishes
deriving Repr, DecidableEq

inductive Command where
  | version
  | createConfig (force : Bool)
  | validateConfig
  | validateProtocol (file : String)
  | generate (options : Generation)
  | run (overrides : Overrides)
  | administer (action : String) (room : Option RoomId) (url : String) (overrides : Overrides)
deriving Repr, DecidableEq

namespace Overrides

def apply (o : Overrides) (c : ServerConfig) : ServerConfig :=
  { c with
    host := o.host.getD c.host
    port := o.port.getD c.port
    adminPort := o.adminPort.getD c.adminPort
    adminHeader := o.adminHeader.getD c.adminHeader
    adminSecret := o.adminSecret.getD c.adminSecret
    maxRooms := o.maxRooms.getD c.maxRooms
    maxMembers := o.maxMembers.getD c.maxMembers
    gracePeriod := o.gracePeriod.getD c.gracePeriod
    protocolFile := o.protocolFile.getD c.protocolFile }

end Overrides

/-! ## From what was read -/

namespace Parsed

def text (p : Parsed) (name default : String) : String := (p.value? name).getD default

def flag (p : Parsed) (name : String) : Bool := p.value? name == some "true"

def number? (p : Parsed) (kind : ValueKind) (name : String) : Option Nat :=
  (p.value? name).bind kind.number?

def port? (p : Parsed) (name : String) : Option UInt16 :=
  (p.number? (.signed 65535) name).map UInt16.ofNat

def count? (p : Parsed) (name : String) : Option Nat := p.number? (.unsigned maxCount) name

def common (p : Parsed) : Common :=
  ⟨p.text "root" ".", p.text "config-file" "hnp.toml", p.value? "log-folder"⟩

def overrides (p : Parsed) : Overrides where
  host := p.value? "host"
  port := p.port? "port"
  adminPort := p.port? "admin-port"
  adminHeader := p.value? "admin-header"
  adminSecret := p.value? "admin-secret"
  maxRooms := p.count? "max-rooms"
  maxMembers := p.count? "max-conn-per-room"
  gracePeriod := p.count? "grace-period"
  protocolFile := p.value? "protocol-file"

def generation (p : Parsed) : Generation where
  protocolFile := p.text "proto-file" "protocol.toml"
  folder := p.text "out-folder" "."
  page := p.value? "html"
  wishes := {
    withDebugger := p.flag "with-debugger"
    embed := p.flag "embed"
    link := p.flag "import"
    remove := p.flag "remove"
    removeDebugger := p.flag "remove-debugger"
    assetPrefix := p.text "asset-prefix" "" }

/-- The command, if the path is one of a command. -/
def command? (p : Parsed) : Option Command :=
  match p.path with
  | ["version"] => some .version
  | ["config", "create"] => some (.createConfig (p.flag "force"))
  | ["config", "validate"] => some .validateConfig
  | ["proto", "validate"] => some (.validateProtocol (p.text "proto-file" "protocol.toml"))
  | ["proto", "gen"] => some (.generate p.generation)
  | ["server", "run"] => some (.run p.overrides)
  | ["server", "admin"] =>
    let room := (p.number? (.signed 4294967295) "room").map UInt32.ofNat
    some (.administer (p.text "action" "") room (p.text "host-url" "http://localhost") p.overrides)
  | _ => none

end Parsed

end Gamewire.Cli
