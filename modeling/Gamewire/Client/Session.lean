import Gamewire.Client.Part

/-! The parts of a client module that hold a session with a server: telling messages apart, control
frames, and the socket. They rest on the shared parts and on the table of messages. -/
namespace Gamewire.Client
set_option autoImplicit false

def decodeAtPart : Part where
  names := ["decodeAt"]
  lines := [
    "function decodeAt(input) \x7b",
    "  const r = new Reader(toBytes(input));",
    "  const tag = r.u8();",
    "  const entry = MESSAGES[tag];",
    "  if (!entry) throw new DecodeError(\"unknown tag \" + tag, 0);",
    "  const msg = entry.read(r);",
    "  return \x7b tag: tag, name: entry.name, msg: msg, length: r.pos \x7d;",
    "\x7d"]

def decodePart : Part where
  names := ["decode"]
  lines := [
    "function decode(input) \x7b",
    "  const bytes = toBytes(input);",
    "  const out = decodeAt(bytes);",
    "  if (out.length !== bytes.length) throw new DecodeError(\"trailing bytes\", out.length);",
    "  return out;",
    "\x7d"]

def controlTagsPart : Part where
  names := ["SYSTEM", "REJECT_REASONS"]
  lines := [
    "const SYSTEM = \x7b JOIN: 0xf0, JOINED: 0xf1, REJECTED: 0xf2, CLOSING: 0xf3 \x7d;",
    "const REJECT_REASONS = \x7b",
    "  1: \"server full\",",
    "  2: \"room full\",",
    "  3: \"shutting down\",",
    "  4: \"protocol fingerprint mismatch\",",
    "  5: \"bad handshake\",",
    "\x7d;"]

def isSystemFramePart : Part where
  names := ["isSystemFrame"]
  lines := [
    "function isSystemFrame(input) \x7b",
    "  return input.length > 0 && input[0] >= 0xf0;",
    "\x7d"]

def encodeJoinPart : Part where
  names := ["encodeJoin"]
  lines := [
    "function encodeJoin(room) \x7b",
    "  const w = new Writer();",
    "  w.u8(SYSTEM.JOIN);",
    "  w.int(room || 0, 4, 0, 0xffffffff, \"join.room\");",
    "  w.int(FINGERPRINT, 4, 0, 0xffffffff, \"join.fingerprint\");",
    "  return w.finish();",
    "\x7d"]

def decodeSystemPart : Part where
  names := ["decodeSystem"]
  lines := [
    "function decodeSystem(input) \x7b",
    "  const r = new Reader(toBytes(input));",
    "  const tag = r.u8();",
    "  let frame;",
    "  switch (tag) \x7b",
    "    case SYSTEM.JOINED:",
    "      frame = \x7b type: \"joined\", room: r.u32(), connection: r.u32() \x7d;",
    "      break;",
    "    case SYSTEM.REJECTED: \x7b",
    "      const code = r.u8();",
    "      frame = \x7b type: \"rejected\", code: code, " ++
      "reason: REJECT_REASONS[code] || \"unknown\" \x7d;",
    "      break;",
    "    \x7d",
    "    case SYSTEM.CLOSING:",
    "      frame = \x7b type: \"closing\", reason: r.str(255) \x7d;",
    "      break;",
    "    default:",
    "      throw new DecodeError(\"unknown system tag \" + tag, 0);",
    "  \x7d",
    "  r.finish();",
    "  return frame;",
    "\x7d"]

def connectPart : Part where
  names := ["connect"]
  lines := [
    "function connect(url, handlers) \x7b",
    "  const h = handlers || \x7b\x7d;",
    "  const ws = new WebSocket(url);",
    "  ws.binaryType = \"arraybuffer\";",
    "  ws.onopen = function () \x7b",
    "    ws.send(encodeJoin(h.room));",
    "  \x7d;",
    "  ws.onmessage = function (event) \x7b",
    "    const bytes = new Uint8Array(event.data);",
    "    try \x7b",
    "      if (isSystemFrame(bytes)) \x7b",
    "        if (h.onSystem) h.onSystem(decodeSystem(bytes));",
    "        return;",
    "      \x7d",
    "      const out = decode(bytes);",
    "      if (h.onMessage) h.onMessage(out.name, out.msg);",
    "    \x7d catch (e) \x7b",
    "      if (h.onError) h.onError(e);",
    "    \x7d",
    "  \x7d;",
    "  ws.onclose = function () \x7b",
    "    if (h.onClose) h.onClose();",
    "  \x7d;",
    "  return \x7b",
    "    send: function (bytes) \x7b",
    "      ws.send(bytes);",
    "    \x7d,",
    "    close: function () \x7b",
    "      ws.close();",
    "    \x7d,",
    "  \x7d;",
    "\x7d"]

/-- The parts of a session, in the order of the module. -/
def session : List Part :=
  [decodeAtPart, decodePart, controlTagsPart, isSystemFramePart, encodeJoinPart, decodeSystemPart,
    connectPart]

end Gamewire.Client
