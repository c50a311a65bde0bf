import Gamewire.Client.Source
import Gamewire.Wire.Cursor
import Gamewire.Wire.Value

/-! What the functions of a client module do when a page calls them. An encoder pushes bytes for what it
reads off an object. A reader moves along a frame and assigns to an object what it reads, and what an
assignment does is up to the object: the name `__proto__` belongs to a property of another kind. Names of
functions are looked up in the module when they are called. -/
namespace Gamewire.Client
set_option autoImplicit false

/-! ## Engines -/

/-- What differs from one engine to the other. -/
structure Engine where
  /-- The pattern of its one NaN. -/
  nan : UInt32
  /-- How many calls may be under way at once; no frame of a message needs more than eight. -/
  stack : Nat
  room : 8 ≤ stack

/-- What is thrown. -/
inductive Thrown where
  /-- A `DecodeError`. -/
  | decode (reason : String) (offset : Nat)
  /-- A `RangeError` with this text. -/
  | range (text : String)
  /-- A `RangeError` over a value that is no integer. Its text goes on with that value, if the value has
  one. -/
  | noInteger (path : String)
  | stackOverflow
  /-- Whatever comes of a value of another kind than the field, or of other arguments than these
  functions are called with. It hangs on conversions of the language, which are left open. -/
  | unknown
deriving Repr, DecidableEq

/-! ## Values in a script -/

def seenFloat (nan bits : UInt32) : UInt32 := if Value.isNaN bits then nan else bits

def seenScalar (nan : UInt32) : Value → Value
  | .float bits => .float (seenFloat nan bits)
  | v => v

/-- A value as a script has it; the elements of an array are scalars. -/
def seen (nan : UInt32) : Value → Value
  | .array elements => .array (elements.map (seenScalar nan))
  | v => seenScalar nan v

/-! ## Objects -/

/-- What an object is linked to: at first what all objects are linked to. -/
inductive Prototype where
  | root
  | null
  | array (elements : List Value)
deriving Repr

structure Object where
  /-- Own properties, the last assignment first; `none` is `null`. -/
  own : List (String × Option Value) := []
  prototype : Prototype := .root
deriving Repr

/-- What a property is found to be. -/
inductive Property where
  | value (v : Value)
  | null
  | undefined
  /-- Something that is no value of a field. -/
  | foreign
deriving Repr

def Property.ofField : Option Value → Property
  | some v => .value v
  | none => .null

/-- The name under which the link of an object is read and set. -/
def linkName : String := "__proto__"

namespace Prototype

/-- The properties to which all objects are linked. -/
def rootNames : List String :=
  [linkName, "constructor", "hasOwnProperty", "isPrototypeOf", "propertyIsEnumerable",
    "toLocaleString", "toString", "valueOf", "__defineGetter__", "__defineSetter__",
    "__lookupGetter__", "__lookupSetter__"]

/-- What every array offers besides. -/
def arrayNames : List String :=
  ["length", "at", "concat", "copyWithin", "entries", "every", "fill", "filter", "find", "findIndex",
    "findLast", "findLastIndex", "flat", "flatMap", "forEach", "includes", "indexOf", "join", "keys",
    "lastIndexOf", "map", "pop", "push", "reduce", "reduceRight", "reverse", "shift", "slice", "some",
    "sort", "splice", "toReversed", "toSorted", "toSpliced", "unshift", "values", "with"]

/-- A property that an object does not have itself. -/
def get (name : String) : Prototype → Property
  | .root => if name ∈ rootNames then .foreign else .undefined
  | .null => .undefined
  | .array elements =>
    if name = linkName then .value (.array elements)
    else if name ∈ rootNames ++ arrayNames then .foreign
    else .undefined

end Prototype

namespace Object

def get (o : Object) (name : String) : Property :=
  match o.own.lookup name with
  | some v => .ofField v
  | none => o.prototype.get name

/-- Assigns to a property. Under the name of the link an object without such a property of its own is
linked to what is assigned, if that is `null` or an array, and stays as it is otherwise. An object that
is linked to nothing knows no such name. -/
def set (o : Object) (name : String) (v : Option Value) : Object :=
  if name = linkName ∧ (o.own.lookup name).isNone then
    match o.prototype, v with
    | .null, v => { o with own := (name, v) :: o.own }
    | _, none => { o with prototype := .null }
    | _, some (.array elements) => { o with prototype := .array elements }
    | _, some _ => o
  else { o with own := (name, v) :: o.own }

end Object

/-! ## Encoders -/

/-- Pushes what each item gives, one behind the other. -/
def pushEach {α : Type} (push : α → Except Thrown (List UInt8)) :
    List α → Except Thrown (List UInt8)
  | [] => return []
  | x :: xs => return (← push x) ++ (← pushEach push xs)

/-- Pushes the lowest byte `size` times; in between, the number is divided by 256 and rounded down. -/
def intBytes : (size : Nat) → Int → List UInt8
  | 0, _ => []
  | size + 1, n => UInt8.ofNat (n % 256).toNat :: intBytes size (n / 256)

/-- The value at a place, in the given turn of a loop. -/
def Place.get (o : Object) (turn : Nat) (p : Place) : Property :=
  if p.isElement then
    match o.get p.field with
    | .value (.array elements) => (elements[turn]?).elim .undefined .value
    | _ => .foreign
  else o.get p.field

section

variable (e : Engine) (o : Object)

def Push.run (turn : Nat) : Push → Except Thrown (List UInt8)
  | .byte n => return [UInt8.ofNat n]
  | .int value size min max path =>
    match value.get o turn with
    | .value (.int n) =>
      if n < min ∨ n > max then throw (.range s!"{path} out of range: {n}")
      else return intBytes size n
    | .value (.float _) | .foreign => throw .unknown
    | _ => throw (.noInteger path)
  | .float value =>
    match value.get o turn with
    | .value (.float bits) => return toLittleEndian 4 (seenFloat e.nan bits).toNat
    | _ => throw .unknown
  | .bool value =>
    match value.get o turn with
    | .value (.bool b) => return [if b then 1 else 0]
    | _ => throw .unknown
  | .text value max path =>
    match value.get o turn with
    | .value (.text s) =>
      let encoded := Text.utf8Bytes s
      if encoded.length > max then throw (.range s!"{path} is longer than {max} bytes")
      else return UInt8.ofNat encoded.length :: encoded
    | _ => throw .unknown

/-- The check of an array is a function of the module. -/
def Statement.run (scope : Scope) : Statement → Except Thrown (List UInt8)
  | .push p => p.run e o 0
  | .check value length path =>
    if scope.function? "checkArray" = some (.shared .checkArray) then
      let fault := Thrown.range s!"{path} must be an array of {length} element(s)"
      match value.get o 0 with
      | .value (.array elements) => if elements.length = length then return [] else throw fault
      | .foreign => throw .unknown
      | _ => throw fault
    else throw .unknown
  | .each count p => pushEach (fun turn => p.run e o turn) (List.range count)

def Command.run (scope : Scope) : Command → Except Thrown (List UInt8)
  | .plain s => s.run e o scope
  | .ifAbsent field absent present =>
    match o.get field with
    | .undefined | .null => pushEach (Statement.run e o scope) absent
    | _ => pushEach (Statement.run e o scope) present

end

/-! ## Reading -/

/-- A part of a reader: it is given the frame and the position reached. -/
abbrev Script := ReaderT (List UInt8) (StateT Nat (Except Thrown))

namespace Script

def need (n : Nat) : Script Unit := do
  let pos ← get
  if pos + n > (← read).length then throw (.decode "truncated frame" pos)

/-- The next `n` bytes, if there are as many. -/
def take (n : Nat) : Script (List UInt8) := do
  need n
  let pos ← get
  set (pos + n)
  return ((← read).drop pos).take n

def unsigned (size : Nat) : Script Nat := return ofLittleEndian (← take size)

/-- Two's complement. -/
def signed (size : Nat) : Script Int := return Int.bmod (← unsigned size) (Nat.pow 256 size)

/-- A byte that says yes or no. -/
def flag (bad : String) : Script Bool := do
  let start ← get
  let v ← unsigned 1
  if v > 1 then throw (.decode bad start)
  return v == 1

def str (max : Nat) : Script String := do
  let start ← get
  let n ← unsigned 1
  if n > max then throw (.decode "string too long" start)
  let raw ← take n
  match Text.ofUtf8? raw with
  | some s => return s
  | none => throw (.decode "invalid utf-8" (start + 1))

def array {α : Type} : (n : Nat) → Script α → Script (List α)
  | 0, _ => return []
  | n + 1, element => return (← element) :: (← array n element)

def finish : Script Unit := do
  let pos ← get
  if pos ≠ (← read).length then throw (.decode "trailing bytes" pos)

/-- From the start of a frame. -/
def onFrame {α : Type} (script : Script α) (frame : List UInt8) : Except Thrown α :=
  return (← script frame 0).1

end Script

/-! ## Readers -/

def ScalarRead.run (nan : UInt32) : ScalarRead → Script Value
  | .i8 => return .int (← Script.signed 1)
  | .u8 => return .int (← Script.unsigned 1)
  | .i16 => return .int (← Script.signed 2)
  | .u16 => return .int (← Script.unsigned 2)
  | .i32 => return .int (← Script.signed 4)
  | .u32 => return .int (← Script.unsigned 4)
  | .float => return .float (seenFloat nan (UInt32.ofNat (← Script.unsigned 4)))
  | .bool => return .bool (← Script.flag "invalid bool")

def FieldRead.run (nan : UInt32) : FieldRead → Script Value
  | .scalar read => read.run nan
  | .text max => return .text (← Script.str max)
  | .array length read => return .array (← Script.array length (read.run nan))

def ReaderStep.run (nan : UInt32) (o : Object) (s : ReaderStep) : Script Object := do
  if s.optional then
    if ← Script.flag "invalid presence byte" then return o.set s.field (some (← s.read.run nan))
    else return o.set s.field none
  else return o.set s.field (some (← s.read.run nan))

/-- The statements of a reader, on an object that is new at first. -/
def runReader (nan : UInt32) (steps : List ReaderStep) : Script Object :=
  steps.foldlM (ReaderStep.run nan) {}

/-! ## Calls -/

/-- A control frame as a page sees it. -/
inductive ControlSeen where
  | joined (room connection : Nat)
  | rejected (code : Nat) (reason : String)
  | closing (reason : String)
deriving Repr

/-- What a page is told of a frame. -/
structure Received where
  tag : Nat
  name : String
  msg : Object
  length : Nat
deriving Repr

inductive Argument where
  | number (n : Nat)
  | function (f : Function)
  | frame (bytes : List UInt8)
  | object (o : Object)

inductive Answer where
  | frame (bytes : List UInt8)
  | message (o : Object)
  | received (r : Received)
  | control (c : ControlSeen)

def rejectReasons : List (Nat × String) :=
  [(1, "server full"), (2, "room full"), (3, "shutting down"), (4, "protocol fingerprint mismatch"),
    (5, "bad handshake")]

namespace Shared

variable (nan : UInt32)

def runDecodeAs (tag : Nat) (steps : List ReaderStep) : Script Object := do
  if (← Script.unsigned 1) ≠ tag then throw (.decode "tag mismatch" 0)
  let msg ← runReader nan steps
  Script.finish
  return msg

def runDecodeAt (scope : Scope) : Script Received := do
  let tag ← Script.unsigned 1
  match scope.messages[tag]? with
  | none => throw (.decode s!"unknown tag {tag}" 0)
  | some entry =>
    match scope.function? entry.read with
    | some (.reader steps) =>
      let msg ← runReader nan steps
      return ⟨tag, entry.name, msg, ← get⟩
    | _ => throw .unknown

/-- What follows the tag of a control frame. -/
def controlBody (tag : Nat) : Script ControlSeen :=
  if tag = 0xf1 then do
    let room ← Script.unsigned 4
    return .joined room (← Script.unsigned 4)
  else if tag = 0xf2 then do
    let code ← Script.unsigned 1
    return .rejected code ((rejectReasons.lookup code).getD "unknown")
  else if tag = 0xf3 then return .closing (← Script.str 255)
  else throw (.decode s!"unknown system tag {tag}" 0)

def runDecodeSystem : Script ControlSeen := do
  let seen ← controlBody (← Script.unsigned 1)
  Script.finish
  return seen

end Shared

namespace Scope

variable (e : Engine) (scope : Scope)

/-- A call of a function while `stack` more calls may be under way. -/
def call : (stack : Nat) → Function → List Argument → Except Thrown Answer
  | 0, _, _ => throw .stackOverflow
  | _ + 1, .encoder commands, [.object o] =>
    return .frame (← pushEach (Command.run e o scope) commands)
  | stack + 1, .decoder tag reader, input :: _ =>
    match scope.function? "decodeAs", scope.function? reader with
    | some f, some read => call stack f [.number tag, .function read, input]
    | _, _ => throw .unknown
  | _ + 1, .shared .decodeAs, [.number tag, .function (.reader steps), .frame bytes] =>
    return .message (← (Shared.runDecodeAs e.nan tag steps).onFrame bytes)
  | _ + 1, .shared .decodeAt, [.frame bytes] =>
    return .received (← (Shared.runDecodeAt e.nan scope).onFrame bytes)
  | stack + 1, .shared .decode, [.frame bytes] =>
    match scope.function? "decodeAt" with
    | some f => do
      match ← call stack f [.frame bytes] with
      | .received out =>
        if out.length ≠ bytes.length then throw (.decode "trailing bytes" out.length)
        else return .received out
      | _ => throw .unknown
    | none => throw .unknown
  | _ + 1, .shared .decodeSystem, [.frame bytes] =>
    return .control (← Shared.runDecodeSystem.onFrame bytes)
  -- an object is no number of a room
  | _ + 1, .shared .encodeJoin, [.object _] => throw (.noInteger "join.room")
  | _ + 1, _, _ => throw .unknown

/-- A page calls a function of the module. -/
def callByName (name : String) (arguments : List Argument) : Except Thrown Answer :=
  match scope.function? name with
  | some f => scope.call e e.stack f arguments
  | none => throw .unknown

end Scope

end Gamewire.Client
