import Gamewire.Schema.Definition
import Gamewire.Toml.Document
import Gamewire.Toml.Printer

/-! Protocol files: a schema as a TOML document, read and written. Unknown keys are ignored. -/
namespace Gamewire.Schema
set_option autoImplicit false

open Toml (Value required withDefault)

/-! ## Reading -/

def readField (v : Value) : Option FieldDef := do
  let member ← v.members?
  let name ← required Value.asText? (member "name" 0)
  let typeName ← required Value.asText? (member "type" 1)
  let optional ← withDefault false Value.asBoolean? (member "optional" 2)
  let capacity ← withDefault none (fun v => (v.asNat? 65535).map (some ·.toUInt16))
    (member "max_len" 3)
  return ⟨name, typeName, optional, capacity⟩

def readDirection (v : Value) : Option Direction := v.asChoice?.bind Direction.ofName?

def readMessage (v : Value) : Option MessageDef := do
  let member ← v.members?
  let name ← required Value.asText? (member "name" 0)
  let direction ← required readDirection (member "direction" 1)
  let heartbeat ← withDefault false Value.asBoolean? (member "heartbeat" 2)
  let fields ← withDefault [] (fun v => v.asArray?.bind (List.mapM readField)) (member "field" 3)
  return ⟨name, direction, heartbeat, fields⟩

def ofValue? (v : Value) : Option Schema := do
  let member ← v.members?
  let messages ← withDefault [] (fun v => v.asArray?.bind (List.mapM readMessage))
    (member "message" 0)
  return ⟨messages⟩

/-- Reads the text of a protocol file. -/
def parse? (source : String) : Option Schema := (Toml.parse? source).bind ofValue?

/-! ## Writing -/

def fieldSection (f : FieldDef) : Toml.Section where
  header := ["message", "field"]
  lines :=
    [⟨"name", .text f.name⟩, ⟨"type", .text f.typeName⟩, ⟨"optional", .boolean f.optional⟩] ++
      match f.capacity with
      | some n => [⟨"max_len", .integer n.toNat⟩]
      | none => []

def messageSections (m : MessageDef) : List Toml.Section :=
  { header := ["message"]
    lines :=
      [⟨"name", .text m.name⟩, ⟨"direction", .text m.direction.name⟩,
        ⟨"heartbeat", .boolean m.heartbeat⟩] ++
        (if m.fields.isEmpty then [⟨"field", .emptyArray⟩] else []) } ::
    m.fields.map fieldSection

def sections (s : Schema) : List Toml.Section :=
  if s.messages.isEmpty then [⟨[], [⟨"message", .emptyArray⟩]⟩]
  else s.messages.flatMap messageSections

/-- The text of the protocol file. -/
def render (s : Schema) : String := String.ofList (Toml.writeSections s.sections)

end Gamewire.Schema
