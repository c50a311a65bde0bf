import Gamewire.Client.Part

/-! The parts of a client module that every protocol shares: the writer and the reader of frames and
the checks around them. -/
namespace Gamewire.Client
set_option autoImplicit false

def decodeErrorPart : Part where
  names := ["DecodeError"]
  lines := [
    "class DecodeError extends Error \x7b",
    "  constructor(reason, offset) \x7b",
    "    super(reason + \" at byte \" + offset);",
    "    this.name = \"DecodeError\";",
    "    this.offset = offset;",
    "  \x7d",
    "\x7d"]

def toBytesPart : Part where
  names := ["toBytes"]
  lines := [
    "function toBytes(input) \x7b",
    "  return input instanceof Uint8Array ? input : Uint8Array.from(input);",
    "\x7d"]

def checkArrayPart : Part where
  names := ["checkArray"]
  lines := [
    "function checkArray(value, len, path) \x7b",
    "  if (!Array.isArray(value) || value.length !== len) \x7b",
    "    throw new RangeError(path + \" must be an array of \" + len + \" element(s)\");",
    "  \x7d",
    "\x7d"]

def writerPart : Part where
  names := ["Writer"]
  lines := [
    "class Writer \x7b",
    "  constructor() \x7b",
    "    this.bytes = [];",
    "  \x7d",
    "  u8(v) \x7b",
    "    this.bytes.push(v & 0xff);",
    "  \x7d",
    "  int(v, size, min, max, path) \x7b",
    "    if (!Number.isInteger(v) || v < min || v > max) \x7b",
    "      throw new RangeError(path + \" out of range: \" + v);",
    "    \x7d",
    "    for (let i = 0; i < size; i++) \x7b",
    "      this.bytes.push(v & 0xff);",
    "      v = Math.floor(v / 256);",
    "    \x7d",
    "  \x7d",
    "  float(v) \x7b",
    "    const view = new DataView(new ArrayBuffer(4));",
    "    view.setFloat32(0, v, true);",
    "    for (let i = 0; i < 4; i++) this.bytes.push(view.getUint8(i));",
    "  \x7d",
    "  bool(v) \x7b",
    "    this.bytes.push(v ? 1 : 0);",
    "  \x7d",
    "  str(v, max, path) \x7b",
    "    const encoded = new TextEncoder().encode(String(v));",
    "    if (encoded.length > max) \x7b",
    "      throw new RangeError(path + \" is longer than \" + max + \" bytes\");",
    "    \x7d",
    "    this.bytes.push(encoded.length);",
    "    for (const b of encoded) this.bytes.push(b);",
    "  \x7d",
    "  finish() \x7b",
    "    return Uint8Array.from(this.bytes);",
    "  \x7d",
    "\x7d"]

def readerPart : Part where
  names := ["Reader"]
  lines := [
    "class Reader \x7b",
    "  constructor(bytes) \x7b",
    "    this.view = new DataView(bytes.buffer, bytes.byteOffset, bytes.byteLength);",
    "    this.pos = 0;",
    "  \x7d",
    "  need(n) \x7b",
    "    if (this.pos + n > this.view.byteLength) \x7b",
    "      throw new DecodeError(\"truncated frame\", this.pos);",
    "    \x7d",
    "  \x7d",
    "  u8() \x7b",
    "    this.need(1);",
    "    return this.view.getUint8(this.pos++);",
    "  \x7d",
    "  i8() \x7b",
    "    this.need(1);",
    "    return this.view.getInt8(this.pos++);",
    "  \x7d",
    "  u16() \x7b",
    "    this.need(2);",
    "    const v = this.view.getUint16(this.pos, true);",
    "    this.pos += 2;",
    "    return v;",
    "  \x7d",
    "  i16() \x7b",
    "    this.need(2);",
    "    const v = this.view.getInt16(this.pos, true);",
    "    this.pos += 2;",
    "    return v;",
    "  \x7d",
    "  u32() \x7b",
    "    this.need(4);",
    "    const v = this.view.getUint32(this.pos, true);",
    "    this.pos += 4;",
    "    return v;",
    "  \x7d",
    "  i32() \x7b",
    "    this.need(4);",
    "    const v = this.view.getInt32(this.pos, true);",
    "    this.pos += 4;",
    "    return v;",
    "  \x7d",
    "  float() \x7b",
    "    this.need(4);",
    "    const v = this.view.getFloat32(this.pos, true);",
    "    this.pos += 4;",
    "    return v;",
    "  \x7d",
    "  bool() \x7b",
    "    const at = this.pos;",
    "    const v = this.u8();",
    "    if (v > 1) throw new DecodeError(\"invalid bool\", at);",
    "    return v === 1;",
    "  \x7d",
    "  present() \x7b",
    "    const at = this.pos;",
    "    const v = this.u8();",
    "    if (v > 1) throw new DecodeError(\"invalid presence byte\", at);",
    "    return v === 1;",
    "  \x7d",
    "  str(max) \x7b",
    "    const at = this.pos;",
    "    const n = this.u8();",
    "    if (n > max) throw new DecodeError(\"string too long\", at);",
    "    this.need(n);",
    "    const raw = new Uint8Array(this.view.buffer, this.view.byteOffset + this.pos, n);",
    "    this.pos += n;",
    "    try \x7b",
    "      return new TextDecoder(\"utf-8\", \x7b fatal: true \x7d).decode(raw);",
    "    \x7d catch (_) \x7b",
    "      throw new DecodeError(\"invalid utf-8\", at + 1);",
    "    \x7d",
    "  \x7d",
    "  array(n, read) \x7b",
    "    const out = [];",
    "    for (let i = 0; i < n; i++) out.push(read());",
    "    return out;",
    "  \x7d",
    "  finish() \x7b",
    "    if (this.pos !== this.view.byteLength) \x7b",
    "      throw new DecodeError(\"trailing bytes\", this.pos);",
    "    \x7d",
    "  \x7d",
    "\x7d"]

def decodeAsPart : Part where
  names := ["decodeAs"]
  lines := [
    "function decodeAs(tag, read, input) \x7b",
    "  const r = new Reader(toBytes(input));",
    "  if (r.u8() !== tag) throw new DecodeError(\"tag mismatch\", 0);",
    "  const msg = read(r);",
    "  r.finish();",
    "  return msg;",
    "\x7d"]

/-- The shared parts, in the order of the module. -/
def runtime : List Part :=
  [decodeErrorPart, toBytesPart, checkArrayPart, writerPart, readerPart, decodeAsPart]

end Gamewire.Client
