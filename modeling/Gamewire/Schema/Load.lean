import Gamewire.Files.System
import Gamewire.Schema.File
import Gamewire.Schema.Validation

/-! Protocols from files: what can go wrong on the way from a path to a checked protocol. -/
namespace Gamewire
set_option autoImplicit false

inductive SchemaFault where
  | io (path : String) (fault : FileFault)
  | parse
  | invalid (problems : List Problem)
deriving Repr

def SchemaFault.message : SchemaFault → String
  | io path fault => "failed to read protocol file " ++ path ++ ": " ++ fault.message
  | parse => "failed to parse protocol file: " ++ Toml.faultMessage
  | invalid problems => Problem.summary problems

/-- The faults behind the fault. -/
def SchemaFault.causes : SchemaFault → List String
  | io _ fault => [fault.message]
  | parse => [Toml.faultMessage]
  | invalid _ => []

variable {m : Type → Type} [Monad m]

/-- Reads the file at a path, without checking what it says. -/
def Schema.load (files : FileSystem m) (path : String) : m (Except SchemaFault Schema) := do
  match ← files.readText path with
  | .error e => return .error (.io path e)
  | .ok source =>
    match Schema.parse? source with
    | some s => return .ok s
    | none => return .error .parse

/-- Reads and checks the file at a path. -/
def Protocol.load (files : FileSystem m) (path : String) : m (Except SchemaFault Protocol) := do
  match ← Schema.load files path with
  | .error e => return .error e
  | .ok s =>
    match s.validate with
    | .ok p => return .ok p
    | .error problems => return .error (.invalid problems)

end Gamewire
