import Gamewire.Schema.Name
import Gamewire.Schema.Problem

/-! From a schema as written to a protocol whose names, types and sizes are checked. Checking goes
through the messages in order and reports every problem it meets; a message whose own name is
refused is not looked into. -/
namespace Gamewire
set_option autoImplicit false

/-- Most bytes of a frame. -/
def frameLimit : Nat := 128

/-- Most messages of a protocol; the tags from 240 on are kept for control frames. -/
def maxMessages : Nat := 240

/-! ## Checked protocols -/

/-- A field whose type is understood. -/
structure FieldSpec where
  name : String
  type : FieldType
  optional : Bool
deriving Repr, DecidableEq, Inhabited

/-- Most bytes of the field, its presence byte included. -/
def FieldSpec.maxSize (f : FieldSpec) : Nat := f.type.maxSize + (if f.optional then 1 else 0)

/-- A message that passed the checks; `ident` is its name in generated code. -/
structure MessageSpec where
  tag : UInt8
  name : String
  ident : String
  direction : Direction
  heartbeat : Bool
  fields : List FieldSpec
deriving Repr, DecidableEq, Inhabited

namespace MessageSpec

/-- Most bytes of a frame of the message, its tag included. -/
def maxFrameSize (m : MessageSpec) : Nat := 1 + m.fields.foldr (fun f size => f.maxSize + size) 0

def fieldIndex? (m : MessageSpec) (name : String) : Option Nat :=
  m.fields.findIdx? (·.name == name)

end MessageSpec

/-- A protocol that passed the checks, in the order of the tags. -/
structure Protocol where
  messages : List MessageSpec
deriving Repr, DecidableEq, Inhabited

namespace Protocol

def find? (p : Protocol) (name : String) : Option MessageSpec :=
  p.messages.find? (·.name == name)

def ofTag? (p : Protocol) (tag : UInt8) : Option MessageSpec := p.messages[tag.toNat]?

/-- By way of the tag that the name stands for; of two messages of one name the later counts. -/
def byName? (p : Protocol) (name : String) : Option MessageSpec :=
  match p.messages.reverse.find? (·.name == name) with
  | some m => p.ofTag? m.tag
  | none => none

end Protocol

/-! ## Fields -/

/-- Checks the fields of message `message` from index `index` on; `seen` holds the names before
it. -/
def checkFields (message : Nat) :
    (seen : List String) → (index : Nat) → List FieldDef → List Problem × List FieldSpec
  | _, _, [] => ([], [])
  | seen, index, f :: fs =>
    let (problems, specs) := checkFields message (f.name :: seen) (index + 1) fs
    if f.name ∈ seen then
      (Problem.ofField message index (.duplicateField f.name) :: problems, specs)
    else if ¬ isIdentifier f.name then
      (Problem.ofField message index (.invalidIdentifier f.name) :: problems, specs)
    else
      match FieldType.resolve f.typeName f.capacity with
      | .ok type => (problems, ⟨f.name, type, f.optional⟩ :: specs)
      | .error fault => (Problem.ofField message index (.badType fault) :: problems, specs)

/-! ## Messages -/

/-- Problems of the heartbeat flag against the fields and the direction. -/
def checkHeartbeat (index : Nat) (m : MessageDef) : List Problem :=
  if m.heartbeat then
    (if m.fields.isEmpty then [] else [Problem.ofMessage index .heartbeatWithFields]) ++
      (if m.direction = .bidirectional then []
       else [Problem.ofMessage index (.heartbeatDirection m.direction)])
  else if m.fields.isEmpty then [Problem.ofMessage index .emptyMessage]
  else []

/-- The tag of the message at an index; indices that no tag can express are refused elsewhere. -/
def tagOfIndex (index : Nat) : UInt8 := if index < 256 then index.toUInt8 else 255

/-- Checks a message whose name is in order. Its size counts only when nothing else is wrong. -/
def checkBody (index : Nat) (ident : String) (m : MessageDef) : Except (List Problem) MessageSpec :=
  let (fieldProblems, fields) := checkFields index [] 0 m.fields
  let problems := checkHeartbeat index m ++ fieldProblems
  if problems.isEmpty then
    let spec : MessageSpec :=
      ⟨tagOfIndex index, m.name, ident, m.direction, m.heartbeat, fields⟩
    if spec.maxFrameSize ≤ frameLimit then .ok spec
    else .error [Problem.ofMessage index (.frameTooLarge spec.maxFrameSize frameLimit)]
  else .error problems

/-- The names met so far, and the generated names with the message that claimed each last. -/
structure NamesSeen where
  names : List String := []
  idents : List (String × String) := []

/-- Checks the messages from index `index` on. -/
def checkMessages : NamesSeen → (index : Nat) → List MessageDef → List Problem × List MessageSpec
  | _, _, [] => ([], [])
  | seen, index, m :: ms =>
    let named : NamesSeen := { seen with names := m.name :: seen.names }
    let refuse (seen : NamesSeen) (reason : Reason) :=
      let (problems, specs) := checkMessages seen (index + 1) ms
      (Problem.ofMessage index reason :: problems, specs)
    if m.name ∈ seen.names then refuse named (.duplicateMessage m.name)
    else
      let ident := pascalCase m.name
      if ¬ isIdentifier m.name ∨ ident = "" then refuse named (.invalidIdentifier m.name)
      else
        let claimed : NamesSeen := { named with idents := (ident, m.name) :: seen.idents }
        match seen.idents.lookup ident with
        | some other => refuse claimed (.generatedNameCollision ident other)
        | none =>
          let (problems, specs) := checkMessages claimed (index + 1) ms
          match checkBody index ident m with
          | .ok spec => (problems, spec :: specs)
          | .error own => (own ++ problems, specs)

/-! ## Schemas -/

/-- Problems of the number of messages. -/
def checkCount (s : Schema) : List Problem :=
  (if s.messages.isEmpty then [Problem.ofSchema .noMessages] else []) ++
    (if s.messages.length > maxMessages then
      [Problem.ofSchema (.tooManyMessages s.messages.length maxMessages)]
     else [])

/-- Checks a schema and reports every problem; the list of an `error` is never empty. -/
def Schema.validate (s : Schema) : Except (List Problem) Protocol :=
  let (problems, specs) := checkMessages {} 0 s.messages
  let all := checkCount s ++ problems
  if all.isEmpty then .ok ⟨specs⟩ else .error all

/-- Checks a schema and reports the problem that comes first. -/
def Schema.validateFirst (s : Schema) : Except (Option Problem) Protocol :=
  s.validate.mapError List.head?

end Gamewire
