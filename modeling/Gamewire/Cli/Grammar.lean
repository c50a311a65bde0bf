import Gamewire.Text.Numeral

/-! The language of command lines: which options, values and commands there may be. -/
namespace Gamewire.Cli
set_option autoImplicit false

/-! ## Values -/

/-- What texts a value may be. -/
inductive ValueKind where
  | text
  /-- Anything but the empty text. -/
  | path
  /-- An integer from zero to `max`; a minus sign in front of zero does no harm. -/
  | signed (max : Nat)
  /-- An integer from zero to `max`, without a minus sign. -/
  | unsigned (max : Nat)
  | switch
deriving Repr, DecidableEq

/-- The greatest number of 64 bits. -/
def maxCount : Nat := 18446744073709551615

/-- The number that a text stands for. -/
def ValueKind.number? : ValueKind → String → Option Nat
  | .signed max, s =>
    match s.toList with
    | '-' :: cs => if Text.numeral? 10 cs = some 0 then some 0 else none
    | cs => Text.unsignedUpTo? max cs
  | .unsigned max, s => Text.unsignedUpTo? max s.toList
  | _, _ => none

def ValueKind.accepts : ValueKind → String → Bool
  | .text, _ => true
  | .path, s => !s.isEmpty
  | .switch, s => s == "true" || s == "false"
  | kind, s => (kind.number? s).isSome

/-! ## Options and commands -/

structure OptionSpec where
  name : String
  short : Option Char := none
  /-- A `switch` stands alone; every other option has a value. -/
  kind : ValueKind
  /-- The variable that is asked when the option is not given. -/
  environmentName : Option String := none
deriving Repr, DecidableEq

structure OperandSpec where
  name : String
  kind : ValueKind
  required : Bool := false
deriving Repr, DecidableEq

/-- A command with its own options, or a family of commands. -/
structure CommandSpec where
  names : List String
  options : List OptionSpec := []
  operands : List OperandSpec := []
  members : List CommandSpec := []
deriving Repr

namespace CommandSpec

def member? (c : CommandSpec) (name : String) : Option CommandSpec :=
  c.members.find? (·.names.contains name)

/-- The name that stands for the command in results. -/
def mainName (c : CommandSpec) : String := c.names.headD ""

/-- Whether names lead down to a command, or to the help that every family has. -/
def leadsTo (c : CommandSpec) : List String → Bool
  | [] => true
  | name :: names =>
    match c.member? name with
    | some c => leadsTo c names
    | none => !c.members.isEmpty && name == "help" && names.isEmpty

end CommandSpec

/-! ## This program -/

def switch (name : String) : OptionSpec := { name := name, kind := .switch }

/-- Options that every command has. -/
def commonOptions : List OptionSpec := [
  { name := "root", short := some 'r', kind := .path, environmentName := some "HOPNPOP16_ROOT" },
  { name := "config-file", short := some 'c', kind := .path,
    environmentName := some "HOPNPOP16_CONFIG_FILE" },
  { name := "log-level", kind := .text, environmentName := some "HOPNPOP16_LOG_LEVEL" },
  { name := "debug", short := some 'd', kind := .switch,
    environmentName := some "HOPNPOP16_DEBUG_MODE" },
  { name := "log-folder", kind := .path, environmentName := some "HOPNPOP16_LOG_FOLDER" }]

/-- Options that replace settings of a server. -/
def overrideOptions : List OptionSpec := [
  { name := "host", kind := .text, environmentName := some "HOPNPOP16_HOST" },
  { name := "port", kind := .signed 65535, environmentName := some "HOPNPOP16_PORT" },
  { name := "admin-port", kind := .signed 65535, environmentName := some "HOPNPOP16_ADMIN_PORT" },
  { name := "admin-header", kind := .text, environmentName := some "HOPNPOP16_ADMIN_HEADER" },
  { name := "admin-secret", kind := .text, environmentName := some "HOPNPOP16_ADMIN_SECRET" }]

def protocolOperand : OperandSpec := { name := "proto-file", kind := .path }

def configFamily : CommandSpec where
  names := ["config"]
  members := [
    { names := ["create"], options := [switch "force"] },
    { names := ["validate"] }]

def protocolFamily : CommandSpec where
  names := ["proto"]
  members := [
    { names := ["validate"], operands := [protocolOperand] },
    { names := ["gen"]
      operands := [protocolOperand]
      options := [
        { name := "out-folder", short := some 'o', kind := .path },
        switch "with-debugger", switch "embed", switch "import", switch "remove",
        switch "remove-debugger",
        { name := "html", kind := .path },
        { name := "asset-prefix", kind := .text }] }]

def serverFamily : CommandSpec where
  names := ["server"]
  members := [
    { names := ["run"]
      options := overrideOptions ++ [
        { name := "max-rooms", kind := .unsigned maxCount,
          environmentName := some "HOPNPOP16_MAX_ROOMS" },
        { name := "max-conn-per-room", kind := .unsigned maxCount,
          environmentName := some "HOPNPOP16_MAX_CONN_PER_ROOM" },
        { name := "grace-period", kind := .unsigned maxCount,
          environmentName := some "HOPNPOP16_GRACE_PERIOD" },
        { name := "protocol-file", kind := .path,
          environmentName := some "HOPNPOP16_PROTOCOL_FILE" }] },
    { names := ["admin"]
      operands := [
        { name := "action", kind := .text, required := true },
        { name := "room", kind := .signed 4294967295 }]
      options :=
        { name := "host-url", short := some 'u', kind := .text,
          environmentName := some "HOPNPOP16_HOST_URL" } :: overrideOptions }]

/-- All commands. -/
def grammar : CommandSpec where
  names := ["hnp"]
  members := [{ names := ["version", "ver"] }, configFamily, protocolFamily, serverFamily]

/-- The variables that some option asks. -/
def environmentNames : List String :=
  (commonOptions ++ serverFamily.members.flatMap (·.options)).filterMap (·.environmentName)

end Gamewire.Cli
