import Gamewire.Client.Program
import Gamewire.Client.Runtime
import Gamewire.Client.Session
import Gamewire.Json.Value
import Gamewire.Schema.Fingerprint

/-! The client module of a protocol: constants, shared parts, the programs of each message, the
table of messages, the session, and the object that the page gets to see. -/
namespace Gamewire.Client
set_option autoImplicit false

/-! ## The description of a protocol -/

def describeField (f : FieldSpec) : Json.Value :=
  .object [("name", .text f.name), ("type", .text f.type.render), ("optional", .boolean f.optional)]

def describeMessage (m : MessageSpec) : Json.Value :=
  .object [("tag", .integer m.tag.toNat), ("name", .text m.name),
    ("direction", .text m.direction.name), ("fields", .array (m.fields.map describeField))]

def describe (p : Protocol) : Json.Value := .array (p.messages.map describeMessage)

/-! ## Parts -/

def fingerprintText (p : Protocol) : String := Text.hexLiteral 8 p.fingerprint.toNat

def strictPart : Part where
  lines := ["\"use strict\";"]

def constantsPart (p : Protocol) : Part where
  names := ["FINGERPRINT", "GPIO_SIZE", "SCHEMA"]
  lines := [s!"const FINGERPRINT = {fingerprintText p};", s!"const GPIO_SIZE = {frameLimit};",
    "const SCHEMA = " ++ (describe p).render ++ ";"]

def messageParts (m : MessageSpec) : List Part :=
  [(Encoder.ofMessage m).part, (Reader.ofMessage m).part, decoderPart m]

/-- A row of the table of messages. -/
def tableRow (m : MessageSpec) : String :=
  "\x7b name: \"" ++ m.name ++ "\", direction: \"" ++ m.direction.name ++ "\", encode: encode" ++
    m.ident ++ ", read: read" ++ m.ident ++ " \x7d,"

def tablePart (p : Protocol) : Part where
  names := ["MESSAGES"]
  lines := block "const MESSAGES = [" (p.messages.map tableRow) "];"

/-- Names that every module exports. -/
def sharedExports : List String :=
  ["FINGERPRINT", "GPIO_SIZE", "SCHEMA", "DecodeError", "decode", "decodeAt", "isSystemFrame",
    "encodeJoin", "decodeSystem", "connect"]

/-- The keys of the exported object. -/
def exports (p : Protocol) : List String :=
  sharedExports ++ p.messages.flatMap fun m => ["encode" ++ m.ident, "decode" ++ m.ident]

def exportPart (p : Protocol) : Part where
  lines :=
    block "global.HNP = Object.freeze(\x7b" ((exports p).map fun name => s!"{name}: {name},")
      "\x7d);"

def parts (p : Protocol) : List Part :=
  [strictPart, constantsPart p] ++ runtime ++ p.messages.flatMap messageParts ++ [tablePart p] ++
    session ++ [exportPart p]

/-- The names declared at the top level of the module, in order. -/
def declaredNames (p : Protocol) : List String := (parts p).flatMap Part.names

/-! ## The text -/

def moduleLines (p : Protocol) : List String :=
  ["// Generated by hnp. Do not edit.",
    s!"// Protocol fingerprint {fingerprintText p}, {p.messages.length} message(s)."] ++
    block "(function (global) \x7b" (partLines (parts p))
      "\x7d)(typeof window !== \"undefined\" ? window : globalThis);"

def moduleText (p : Protocol) : String := fileText (moduleLines p)

end Gamewire.Client
