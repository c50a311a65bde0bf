import Gamewire.Client.Program
import Gamewire.Client.Runtime
import Gamewire.Client.Session
import Gamewire.Text.Numeral

/-! What a client module declares, read off its text line by line: the functions at the top level with
the statements of those that were generated, and the table of messages. A name that is declared twice
stands for its last function. -/
namespace Gamewire.Client
set_option autoImplicit false

/-! ## Reading texts -/

/-- Reads the beginning of a text and leaves the rest. -/
abbrev Scan := StateT (List Char) Option

namespace Scan

/-- This text and no other. -/
def literal (text : String) : Scan Unit := fun cs =>
  if text.toList.isPrefixOf cs then some ((), cs.drop text.toList.length) else none

/-- Whether the text goes on like this; if so, it is read. -/
def has (text : String) : Scan Bool := fun cs =>
  if text.toList.isPrefixOf cs then some (true, cs.drop text.toList.length) else some (false, cs)

def name : Scan String := fun cs =>
  let word := String.ofList (cs.takeWhile isNameChar)
  if isIdentifier word then some (word, cs.dropWhile isNameChar) else none

def number : Scan Nat := fun cs =>
  (Text.numeral? 10 (cs.takeWhile Text.isDigit)).map fun n => (n, cs.dropWhile Text.isDigit)

def integer : Scan Int := do
  if ← has "-" then return -(← number) else return ← number

/-- A text between quotation marks. -/
def quoted : Scan String := do
  literal "\""
  let text ← fun cs => some (String.ofList (cs.takeWhile (· != '"')), cs.dropWhile (· != '"'))
  literal "\""
  return text

/-- What a whole text is. -/
def whole {α : Type} (scan : Scan α) (text : String) : Option α :=
  match scan text.toList with
  | some (a, []) => some a
  | _ => none

end Scan

/-! ## Statements of encoders -/

/-- A value that is written: a field of the message, or the element of it that a loop has come to. -/
structure Place where
  field : String
  isElement : Bool
deriving Repr, DecidableEq

/-- A call of the writer. -/
inductive Push where
  | byte (n : Nat)
  | int (value : Place) (size : Nat) (min max : Int) (path : String)
  | float (value : Place)
  | bool (value : Place)
  | text (value : Place) (max : Nat) (path : String)
deriving Repr, DecidableEq

inductive Statement where
  | push (p : Push)
  | check (value : Place) (length : Nat) (path : String)
  /-- A loop that makes one call each time. -/
  | each (count : Nat) (p : Push)
deriving Repr, DecidableEq

inductive Command where
  | plain (s : Statement)
  /-- What to do if a field is `undefined` or `null`, and otherwise. -/
  | ifAbsent (field : String) (absent present : List Statement)
deriving Repr, DecidableEq

namespace Scan

/-- A field of the parameter `object`; in a loop over `i` it may be an element. -/
def place (object : String) (inLoop : Bool) : Scan Place := do
  literal object
  literal "."
  let field ← name
  return ⟨field, ← if inLoop then has "[i]" else pure false⟩

def push (object : String) (inLoop : Bool) : Scan Push := do
  if ← has "w.u8(" then
    let n ← number
    literal ");"
    return .byte n
  else if ← has "w.int(" then
    let value ← place object inLoop
    literal ", "
    let size ← number
    literal ", "
    let min ← integer
    literal ", "
    let max ← integer
    literal ", "
    let path ← quoted
    literal ");"
    return .int value size min max path
  else if ← has "w.float(" then
    let value ← place object inLoop
    literal ");"
    return .float value
  else if ← has "w.bool(" then
    let value ← place object inLoop
    literal ");"
    return .bool value
  else
    literal "w.str("
    let value ← place object inLoop
    literal ", "
    let max ← number
    literal ", "
    let path ← quoted
    literal ");"
    return .text value max path

def statement (object : String) : Scan Statement := do
  if ← has "checkArray(" then
    let value ← place object false
    literal ", "
    let length ← number
    literal ", "
    let path ← quoted
    literal ");"
    return .check value length path
  else if ← has "for (let i = 0; i < " then
    let count ← number
    literal "; i++) "
    return .each count (← push object true)
  else return .push (← push object false)

/-- The test whether a field is there. -/
def absence (object : String) : Scan String := do
  literal "if ("
  let value ← place object false
  literal " === undefined || "
  let again ← place object false
  literal " === null) \x7b"
  if again = value then return value.field else failure

end Scan

/-! ## Blocks of lines -/

/-- A line that stands further to the right, or an empty one. -/
def isInner (line : String) : Bool := line.isEmpty || "  ".toList.isPrefixOf line.toList

/-- Moves a line one step to the left. -/
def outdent (line : String) : String := String.ofList (line.toList.drop 2)

/-- The lines inside the block that was just opened. -/
def inside (lines : List String) : List String := (lines.takeWhile isInner).map outdent

/-- The lines behind those. -/
def behind (lines : List String) : List String := lines.dropWhile isInner

theorem length_behind_le (lines : List String) : (behind lines).length ≤ lines.length :=
  (List.dropWhile_sublist isInner).length_le

/-- The two blocks behind a test, and the lines behind them. -/
def branches? (lines : List String) : Option (List String × List String × List String) :=
  match behind lines with
  | "\x7d else \x7b" :: rest =>
    match behind rest with
    | "\x7d" :: more => some (inside lines, inside rest, more)
    | _ => none
  | _ => none

theorem length_of_branches? {lines absent present more : List String}
    (h : branches? lines = some (absent, present, more)) : more.length ≤ lines.length := by
  unfold branches? at h
  split at h
  · rename_i rest hrest
    split at h
    · rename_i more' hmore
      cases h
      have hle := length_behind_le lines
      have hle' := length_behind_le rest
      rw [hrest, List.length_cons] at hle
      rw [hmore, List.length_cons] at hle'
      omega
    · cases h
  · cases h

/-- The commands in the body of an encoder. -/
def commands? (object : String) : List String → Option (List Command)
  | [] => some []
  | line :: rest =>
    match (Scan.statement object).whole line, (Scan.absence object).whole line with
    | some s, _ => (commands? object rest).map (.plain s :: ·)
    | none, some field =>
      match _ : branches? rest with
      | some (absent, present, more) => do
        let absent ← absent.mapM (Scan.statement object).whole
        let present ← present.mapM (Scan.statement object).whole
        (commands? object more).map (.ifAbsent field absent present :: ·)
      | none => none
    | none, none => none
termination_by lines => lines.length
decreasing_by
  · exact Nat.lt_succ_self rest.length
  · exact Nat.lt_succ_of_le (length_of_branches? ‹_›)

/-! ## Statements of readers -/

namespace Scan

/-- The call of a method of the reader. -/
def scalarRead (reader : String) : Scan ScalarRead := do
  literal reader
  literal "."
  let method ← name
  literal "()"
  fun cs => (methods.lookup method).map fun read => (read, cs)
where
  methods : List (String × ScalarRead) :=
    [("i8", .i8), ("u8", .u8), ("i16", .i16), ("u16", .u16), ("i32", .i32), ("u32", .u32),
      ("float", .float), ("bool", .bool)]

def fieldRead (reader : String) : Scan FieldRead := do
  if ← has (reader ++ ".str(") then
    let max ← number
    literal ")"
    return .text max
  else if ← has (reader ++ ".array(") then
    let length ← number
    literal ", () => "
    let read ← scalarRead reader
    literal ")"
    return .array length read
  else return .scalar (← scalarRead reader)

/-- The assignment of what is read to a field. -/
def readerStep (reader : String) : Scan ReaderStep := do
  literal "msg."
  let field ← name
  literal " = "
  let optional ← has (reader ++ ".present() ? ")
  let read ← fieldRead reader
  literal (if optional then " : null;" else ";")
  return ⟨field, optional, read⟩

end Scan

/-! ## Functions -/

structure Declaration where
  name : String
  parameters : String
  body : List String
deriving Repr, DecidableEq

/-- The functions declared in these lines, in order. Lines further to the right belong to a function
or a class above them. -/
def declarations : List String → List Declaration
  | [] => []
  | line :: rest =>
    match header.whole line with
    | some (name, parameters) => ⟨name, parameters, inside rest⟩ :: declarations rest
    | none => declarations rest
where
  header : Scan (String × String) := do
    Scan.literal "function "
    let name ← Scan.name
    Scan.literal "("
    let parameters ← fun cs => some (String.ofList (cs.takeWhile (· != ')')), cs.dropWhile (· != ')'))
    Scan.literal ") \x7b"
    return (name, parameters)

/-- The shared functions on which messages depend. -/
inductive Shared where
  | checkArray
  | decodeAs
  | decodeAt
  | decode
  | encodeJoin
  | decodeSystem
deriving Repr, DecidableEq

namespace Shared

def all : List Shared := [checkArray, decodeAs, decodeAt, decode, encodeJoin, decodeSystem]

def part : Shared → Part
  | checkArray => checkArrayPart
  | decodeAs => decodeAsPart
  | decodeAt => decodeAtPart
  | decode => decodePart
  | encodeJoin => encodeJoinPart
  | decodeSystem => decodeSystemPart

end Shared

inductive Function where
  | encoder (commands : List Command)
  | reader (steps : List ReaderStep)
  /-- Hands its argument on to `decodeAs`, with a tag and the name of a reader. -/
  | decoder (tag : Nat) (reader : String)
  | shared (f : Shared)
  /-- Another function, which is not looked into. -/
  | other
deriving Repr, DecidableEq

namespace Declaration

def encoder? (d : Declaration) : Option Function :=
  match d.body with
  | first :: rest =>
    if first = "const w = new Writer();" ∧ rest.getLast? = some "return w.finish();" then
      (commands? d.parameters rest.dropLast).map .encoder
    else none
  | [] => none

def reader? (d : Declaration) : Option Function :=
  match d.body with
  | first :: rest =>
    if first = "const msg = \x7b\x7d;" ∧ rest.getLast? = some "return msg;" then
      (rest.dropLast.mapM (Scan.readerStep d.parameters).whole).map .reader
    else none
  | [] => none

def decoder? (d : Declaration) : Option Function :=
  match d.body with
  | [line] => call.whole line
  | _ => none
where
  call : Scan Function := do
    Scan.literal "return decodeAs("
    let tag ← Scan.number
    Scan.literal ", "
    let reader ← Scan.name
    Scan.literal ", "
    Scan.literal d.parameters
    Scan.literal ");"
    return .decoder tag reader

/-- A shared function is known by all of its lines. -/
def shared? (d : Declaration) : Option Function :=
  (Shared.all.find? fun f => declarations f.part.lines == [d]).map .shared

def function (d : Declaration) : Function :=
  (d.encoder? <|> d.reader? <|> d.decoder? <|> d.shared?).getD .other

end Declaration

/-! ## The table of messages -/

/-- An entry of the table; its functions are given by name. -/
structure Row where
  name : String
  direction : String
  encode : String
  read : String
deriving Repr, DecidableEq

def Scan.row : Scan Row := do
  literal "\x7b name: "
  let message ← quoted
  literal ", direction: "
  let direction ← quoted
  literal ", encode: "
  let encode ← name
  literal ", read: "
  let read ← name
  literal " \x7d,"
  return ⟨message, direction, encode, read⟩

def rows? (lines : List String) : Option (List Row) :=
  (inside ((lines.dropWhile (· != "const MESSAGES = [")).drop 1)).mapM Scan.row.whole

/-! ## Modules -/

/-- The top level of a module. -/
structure Scope where
  /-- In the order of their declarations. -/
  functions : List (String × Function)
  messages : List Row
deriving Repr, DecidableEq

namespace Scope

/-- What a name stands for: of all functions that are declared under it, the last. -/
def function? (scope : Scope) (name : String) : Option Function :=
  scope.functions.reverse.lookup name

/-- The lines of a text, each without its newline. -/
def textLines (text : String) : List String := (text.toList.splitOn '\n').map String.ofList

/-- Reads the function around a module, and what it declares. -/
def ofText? (text : String) : Option Scope := do
  let lines := inside (((textLines text).dropWhile (· != "(function (global) \x7b")).drop 1)
  return ⟨(declarations lines).map fun d => (d.name, d.function), ← rows? lines⟩

end Scope

end Gamewire.Client
