import Gamewire.Client.Part
import Gamewire.Schema.Validation

/-! The encoder and the reader of a message as programs: lists of steps on a writer or a reader, one
for each field, and the text of these programs. -/
namespace Gamewire.Client
set_option autoImplicit false

/-! ## Encoders -/

/-- Writes one scalar. -/
inductive ScalarWrite where
  /-- An integer between two bounds in `size` bytes. -/
  | int (size : Nat) (min max : Int)
  | float
  | bool
deriving Repr, DecidableEq

def ScalarWrite.ofPrimitive (p : Primitive) : ScalarWrite :=
  match p.range? with
  | some (min, max) => .int p.size min max
  | none => if p = .float then .float else .bool

/-- Writes the value of a field. -/
inductive FieldWrite where
  | scalar (write : ScalarWrite)
  | text (max : Nat)
  | array (length : Nat) (write : ScalarWrite)
deriving Repr, DecidableEq

def FieldWrite.ofType : FieldType → FieldWrite
  | .scalar p => .scalar (.ofPrimitive p)
  | .text capacity => .text capacity.toNat
  | .array element count => .array count.toNat (.ofPrimitive element)

structure EncoderStep where
  field : String
  optional : Bool
  write : FieldWrite
deriving Repr, DecidableEq

structure Encoder where
  ident : String
  /-- The name of the message, for error texts. -/
  message : String
  tag : UInt8
  steps : List EncoderStep
deriving Repr, DecidableEq

def Encoder.ofMessage (m : MessageSpec) : Encoder :=
  ⟨m.ident, m.name, m.tag, m.fields.map fun f => ⟨f.name, f.optional, .ofType f.type⟩⟩

/-! ## Readers -/

/-- Reads one scalar. -/
inductive ScalarRead where
  | i8
  | u8
  | i16
  | u16
  | i32
  | u32
  | float
  | bool
deriving Repr, DecidableEq

def ScalarRead.ofPrimitive : Primitive → ScalarRead
  | .int8 => .i8
  | .uint8 => .u8
  | .int16 => .i16
  | .uint16 => .u16
  | .int32 => .i32
  | .uint32 => .u32
  | .float => .float
  | .bool => .bool

/-- Reads the value of a field. -/
inductive FieldRead where
  | scalar (read : ScalarRead)
  | text (max : Nat)
  | array (length : Nat) (read : ScalarRead)
deriving Repr, DecidableEq

def FieldRead.ofType : FieldType → FieldRead
  | .scalar p => .scalar (.ofPrimitive p)
  | .text capacity => .text capacity.toNat
  | .array element count => .array count.toNat (.ofPrimitive element)

structure ReaderStep where
  field : String
  optional : Bool
  read : FieldRead
deriving Repr, DecidableEq

structure Reader where
  ident : String
  steps : List ReaderStep
deriving Repr, DecidableEq

def Reader.ofMessage (m : MessageSpec) : Reader :=
  ⟨m.ident, m.fields.map fun f => ⟨f.name, f.optional, .ofType f.type⟩⟩

/-! ## Texts of encoders -/

/-- The call that writes the value of an expression; `path` is the field in error texts. -/
def ScalarWrite.text (value path : String) : ScalarWrite → String
  | .int size min max => s!"w.int({value}, {size}, {min}, {max}, \"" ++ path ++ "\");"
  | .float => s!"w.float({value});"
  | .bool => s!"w.bool({value});"

def FieldWrite.lines (value path : String) : FieldWrite → List String
  | .scalar write => [write.text value path]
  | .text max => [s!"w.str({value}, {max}, \"" ++ path ++ "\");"]
  | .array length write =>
    [s!"checkArray({value}, {length}, \"" ++ path ++ "\");",
      s!"for (let i = 0; i < {length}; i++) " ++ write.text (value ++ "[i]") path]

def EncoderStep.lines (message : String) (s : EncoderStep) : List String :=
  let value := "msg." ++ s.field
  let write := s.write.lines value (message ++ "." ++ s.field)
  if s.optional then
    s!"if ({value} === undefined || {value} === null) \x7b" :: indented ["w.u8(0);"] ++
      block "\x7d else \x7b" ("w.u8(1);" :: write) "\x7d"
  else write

/-- A program of a message without fields takes no argument. -/
def parameter (name : String) (isEmpty : Bool) : String := if isEmpty then "" else name

def Encoder.part (e : Encoder) : Part where
  names := ["encode" ++ e.ident]
  lines :=
    block ("function encode" ++ e.ident ++ "(" ++ parameter "msg" e.steps.isEmpty ++ ") \x7b")
      (["const w = new Writer();", s!"w.u8({e.tag.toNat});"] ++
        e.steps.flatMap (EncoderStep.lines e.message) ++ ["return w.finish();"])
      "\x7d"

/-! ## Texts of readers -/

def ScalarRead.text : ScalarRead → String
  | .i8 => "r.i8()"
  | .u8 => "r.u8()"
  | .i16 => "r.i16()"
  | .u16 => "r.u16()"
  | .i32 => "r.i32()"
  | .u32 => "r.u32()"
  | .float => "r.float()"
  | .bool => "r.bool()"

def FieldRead.expression : FieldRead → String
  | .scalar read => read.text
  | .text max => s!"r.str({max})"
  | .array length read => s!"r.array({length}, () => " ++ read.text ++ ")"

def ReaderStep.line (s : ReaderStep) : String :=
  "msg." ++ s.field ++ " = " ++
    (if s.optional then "r.present() ? " ++ s.read.expression ++ " : null"
     else s.read.expression) ++ ";"

def Reader.part (r : Reader) : Part where
  names := ["read" ++ r.ident]
  lines :=
    block ("function read" ++ r.ident ++ "(" ++ parameter "r" r.steps.isEmpty ++ ") \x7b")
      ("const msg = \x7b\x7d;" :: r.steps.map ReaderStep.line ++ ["return msg;"]) "\x7d"

/-! ## Texts of decoders -/

/-- A decoder takes a whole frame of its message. -/
def decoderPart (m : MessageSpec) : Part where
  names := ["decode" ++ m.ident]
  lines :=
    block ("function decode" ++ m.ident ++ "(input) \x7b")
      [s!"return decodeAs({m.tag.toNat}, read{m.ident}, input);"] "\x7d"

end Gamewire.Client
