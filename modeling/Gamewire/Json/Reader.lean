import Gamewire.Json.Value
import Gamewire.Text.Binary64

/-! Reading JSON texts. -/
namespace Gamewire.Json
set_option autoImplicit false

/-- Arrays and objects nest less deep than this. -/
def nestingLimit : Nat := 128

def isBlank (c : Char) : Bool := c == ' ' || c == '\n' || c == '\t' || c == '\r'

def skipBlanks (cs : List Char) : List Char := cs.dropWhile isBlank

/-! ## Numbers -/

def splitDigits (cs : List Char) : List Char × List Char :=
  (cs.takeWhile Text.isDigit, cs.dropWhile Text.isDigit)

/-- The value of a number without fraction and exponent. Minus zero and what 64 bits cannot hold
are floats. -/
def integerOrFloat (negative : Bool) (digits : List Char) : Value :=
  let n := (Text.numeral? 10 digits).getD 0
  if negative then
    if n = 0 ∨ Nat.pow 2 63 < n then .float else .integer (-(n : Int))
  else if n < Nat.pow 2 64 then .integer n
  else .float

/-- The exponent of a number, if there is one. -/
def readExponent : List Char → Option (Option Int × List Char)
  | c :: r =>
    if c = 'e' ∨ c = 'E' then
      let (negative, r) :=
        match r with
        | '+' :: r => (false, r)
        | '-' :: r => (true, r)
        | r => (false, r)
      match splitDigits r with
      | ([], _) => none
      | (digits, rest) =>
        let n : Int := (Text.numeral? 10 digits).getD 0
        some (some (if negative then -n else n), rest)
    else some (none, c :: r)
  | [] => some (none, [])

/-- A number after its sign. -/
def readUnsigned (negative : Bool) (cs : List Char) : Option (Value × List Char) :=
  let split :=
    match cs with
    | '0' :: r => (['0'], r)
    | cs => splitDigits cs
  match split with
  | ([], _) => none
  | (whole, r) =>
    let fraction? : Option (List Char × List Char) :=
      match r with
      | '.' :: r' => if (splitDigits r').1.isEmpty then none else some (splitDigits r')
      | r => some ([], r)
    match fraction? with
    | none => none
    | some (fraction, r) =>
      match readExponent r with
      | none => none
      | some (exponent?, rest) =>
        if fraction.isEmpty ∧ exponent?.isNone then
          if Text.exceedsBinary64 whole 0 then none else some (integerOrFloat negative whole, rest)
        else if Text.exceedsBinary64 (whole ++ fraction) (exponent?.getD 0 - fraction.length) then
          none
        else some (.float, rest)

def readNumber : List Char → Option (Value × List Char)
  | '-' :: r => readUnsigned true r
  | cs => readUnsigned false cs

/-! ## Texts -/

def shortEscape? (c : Char) : Option Char :=
  if c = '"' then some '"'
  else if c = '\\' then some '\\'
  else if c = '/' then some '/'
  else if c = 'b' then some '\x08'
  else if c = 'f' then some '\x0c'
  else if c = 'n' then some '\n'
  else if c = 'r' then some '\r'
  else if c = 't' then some '\t'
  else none

/-- The character of a surrogate pair. -/
def pairChar? (high low : Nat) : Option Char :=
  if 0xd800 ≤ high ∧ high < 0xdc00 ∧ 0xdc00 ≤ low ∧ low < 0xe000 then
    some (Char.ofNat (0x10000 + (high - 0xd800) * 0x400 + (low - 0xdc00)))
  else none

/-- Reads the content of a text up to its closing quote. -/
def readContent : List Char → Option (List Char × List Char)
  | [] => none
  | c :: r =>
    if c = '"' then some ([], r)
    else if c = '\\' then
      match r with
      | [] => none
      | e :: r =>
        if e = 'u' then
          match r with
          | a :: b :: c :: d :: r =>
            match Text.numeral? 16 [a, b, c, d] with
            | none => none
            | some n =>
              if n.isValidChar then push (Char.ofNat n) (readContent r)
              else
                match r with
                | s :: u :: a :: b :: c :: d :: r =>
                  if s = '\\' ∧ u = 'u' then
                    match (Text.numeral? 16 [a, b, c, d]).bind (pairChar? n) with
                    | some c => push c (readContent r)
                    | none => none
                  else none
                | _ => none
          | _ => none
        else
          match shortEscape? e with
          | some c => push c (readContent r)
          | none => none
    else if c.toNat < 0x20 then none
    else push c (readContent r)
where
  push (c : Char) : Option (List Char × List Char) → Option (List Char × List Char)
    | some (cs, rest) => some (c :: cs, rest)
    | none => none

def readText : List Char → Option (String × List Char)
  | '"' :: r =>
    match readContent r with
    | some (cs, rest) => some (String.ofList cs, rest)
    | none => none
  | _ => none

/-! ## Values -/

mutual

/-- Reads a value after blanks; it may nest `depth` levels, and `fuel` bounds the calls. -/
def readValue : (fuel depth : Nat) → List Char → Option (Value × List Char)
  | 0, _, _ => none
  | fuel + 1, depth, cs =>
    match skipBlanks cs with
    | 'n' :: 'u' :: 'l' :: 'l' :: r => some (.null, r)
    | 't' :: 'r' :: 'u' :: 'e' :: r => some (.boolean true, r)
    | 'f' :: 'a' :: 'l' :: 's' :: 'e' :: r => some (.boolean false, r)
    | '"' :: r =>
      match readText ('"' :: r) with
      | some (s, rest) => some (.text s, rest)
      | none => none
    | '[' :: r =>
      match depth with
      | 0 => none
      | depth + 1 =>
        match skipBlanks r with
        | ']' :: rest => some (.array [], rest)
        | r =>
          match readElements fuel depth r with
          | some (xs, rest) => some (.array xs, rest)
          | none => none
    | '\x7b' :: r =>
      match depth with
      | 0 => none
      | depth + 1 =>
        match skipBlanks r with
        | '\x7d' :: rest => some (.object [], rest)
        | r =>
          match readEntries fuel depth r with
          | some (entries, rest) => some (.object entries, rest)
          | none => none
    | cs => readNumber cs

/-- Reads at least one element and the closing bracket. -/
def readElements : (fuel depth : Nat) → List Char → Option (List Value × List Char)
  | 0, _, _ => none
  | fuel + 1, depth, cs =>
    match readValue fuel depth cs with
    | none => none
    | some (v, rest) =>
      match skipBlanks rest with
      | ',' :: rest =>
        match readElements fuel depth rest with
        | some (vs, rest) => some (v :: vs, rest)
        | none => none
      | ']' :: rest => some ([v], rest)
      | _ => none

/-- Reads at least one entry and the closing brace. -/
def readEntries : (fuel depth : Nat) → List Char → Option (List (String × Value) × List Char)
  | 0, _, _ => none
  | fuel + 1, depth, cs =>
    match readText (skipBlanks cs) with
    | none => none
    | some (key, rest) =>
      match skipBlanks rest with
      | ':' :: r =>
        match readValue fuel depth r with
        | none => none
        | some (v, rest) =>
          match skipBlanks rest with
          | ',' :: rest =>
            match readEntries fuel depth rest with
            | some (entries, rest) => some ((key, v) :: entries, rest)
            | none => none
          | '\x7d' :: rest => some ([(key, v)], rest)
          | _ => none
      | _ => none

end

/-- The value that a text holds, with nothing but blanks around it. -/
def parse? (s : String) : Option Value :=
  let cs := s.toList
  match readValue (2 * cs.length + 2) (nestingLimit - 1) cs with
  | some (v, rest) => if (skipBlanks rest).isEmpty then some v else none
  | none => none

end Gamewire.Json
