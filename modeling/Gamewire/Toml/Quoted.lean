import Gamewire.Text.Numeral

/-! The four written forms of a text: basic and literal, each on one line or on several. Reading
takes the text after the opening quotes and gives the content and what follows the closing ones.
Writing picks the form that needs no escapes where there is one. -/
namespace Gamewire.Toml
set_option autoImplicit false

/-! ## Character classes -/

def isSpace (c : Char) : Bool := c == ' ' || c == '\t'

/-- What may stand in comments and, some characters apart, in quoted texts: no control but the
tab. -/
def isPlain (c : Char) : Bool :=
  c == '\t' || (' ' ≤ c && c ≤ '~') || 0x80 ≤ c.toNat

/-- What stands for itself between double quotes. -/
def isBasicChar (c : Char) : Bool := isPlain c && c != '"' && c != '\\'

/-- What stands for itself between single quotes. -/
def isLiteralChar (c : Char) : Bool := isPlain c && c != '\''

/-- What is left after one line break, if there is one in front. -/
def lineBreak? : List Char → Option (List Char)
  | '\n' :: r => some r
  | '\r' :: '\n' :: r => some r
  | _ => none

/-! ## Escapes -/

/-- The character that a letter stands for after a backslash. -/
def shortEscape? (c : Char) : Option Char :=
  if c = 'b' then some '\x08'
  else if c = 't' then some '\t'
  else if c = 'n' then some '\n'
  else if c = 'f' then some '\x0c'
  else if c = 'r' then some '\r'
  else if c = '"' then some '"'
  else if c = '\\' then some '\\'
  else none

/-- The character with the code that hexadecimal digits give; surrogates and codes above the last
are none. -/
def codeEscape? (digits : List Char) : Option Char :=
  match Text.numeral? 16 digits with
  | some n => if n.isValidChar then some (Char.ofNat n) else none
  | none => none

/-! ## Reading -/

/-- Puts a character in front of the content that was read. -/
def consRead (c : Char) : Option (List Char × List Char) → Option (List Char × List Char)
  | some (cs, rest) => some (c :: cs, rest)
  | none => none

/-- The rest of a basic text on one line. -/
def readBasic : List Char → Option (List Char × List Char)
  | [] => none
  | c :: r =>
    if c = '"' then some ([], r)
    else if c = '\\' then
      match r with
      | [] => none
      | e :: r =>
        if e = 'u' then
          match r with
          | d1 :: d2 :: d3 :: d4 :: r =>
            match codeEscape? [d1, d2, d3, d4] with
            | some c => consRead c (readBasic r)
            | none => none
          | _ => none
        else if e = 'U' then
          match r with
          | d1 :: d2 :: d3 :: d4 :: d5 :: d6 :: d7 :: d8 :: r =>
            match codeEscape? [d1, d2, d3, d4, d5, d6, d7, d8] with
            | some c => consRead c (readBasic r)
            | none => none
          | _ => none
        else
          match shortEscape? e with
          | some c => consRead c (readBasic r)
          | none => none
    else if isBasicChar c then consRead c (readBasic r)
    else none

/-- The quotes that belong to the content when a text on several lines closes: the closing three
are the last of up to five. -/
def closeLines (q : Char) : List Char → List Char × List Char
  | a :: b :: r =>
    if a = q then (if b = q then ([q, q], r) else ([q], b :: r)) else ([], a :: b :: r)
  | [a] => if a = q then ([q], []) else ([], [a])
  | [] => ([], [])

/-- The rest of a basic text on several lines. While `skipping`, blanks and line breaks are left
out, as after a backslash at the end of a line. -/
def readBasicLines : (skipping : Bool) → List Char → Option (List Char × List Char)
  | _, [] => none
  | skipping, c :: r =>
    if skipping && (isSpace c || c == '\n') then readBasicLines true r
    else if c = '\n' then consRead '\n' (readBasicLines false r)
    else if c = '\r' then
      match r with
      | d :: r =>
        if d = '\n' then
          if skipping then readBasicLines true r else consRead '\n' (readBasicLines false r)
        else none
      | [] => none
    else if c = '"' then
      match r with
      | d :: e :: r3 =>
        if d = '"' ∧ e = '"' then some (closeLines '"' r3)
        else consRead c (readBasicLines false (d :: e :: r3))
      | _ => none
    else if c = '\\' then
      if (lineBreak? (r.dropWhile isSpace)).isSome then readBasicLines true r
      else
        match r with
        | [] => none
        | e :: r =>
          if e = 'u' then
            match r with
            | d1 :: d2 :: d3 :: d4 :: r =>
              match codeEscape? [d1, d2, d3, d4] with
              | some c => consRead c (readBasicLines false r)
              | none => none
            | _ => none
          else if e = 'U' then
            match r with
            | d1 :: d2 :: d3 :: d4 :: d5 :: d6 :: d7 :: d8 :: r =>
              match codeEscape? [d1, d2, d3, d4, d5, d6, d7, d8] with
              | some c => consRead c (readBasicLines false r)
              | none => none
            | _ => none
          else
            match shortEscape? e with
            | some c => consRead c (readBasicLines false r)
            | none => none
    else if isBasicChar c then consRead c (readBasicLines false r)
    else none

/-- The rest of a literal text on one line. -/
def readLiteral : List Char → Option (List Char × List Char)
  | [] => none
  | c :: r =>
    if c = '\'' then some ([], r)
    else if isLiteralChar c then consRead c (readLiteral r)
    else none

/-- The rest of a literal text on several lines. -/
def readLiteralLines : List Char → Option (List Char × List Char)
  | [] => none
  | c :: r =>
    if c = '\n' then consRead '\n' (readLiteralLines r)
    else if c = '\r' then
      match r with
      | d :: r => if d = '\n' then consRead '\n' (readLiteralLines r) else none
      | [] => none
    else if c = '\'' then
      match r with
      | d :: e :: r3 =>
        if d = '\'' ∧ e = '\'' then some (closeLines '\'' r3)
        else consRead c (readLiteralLines (d :: e :: r3))
      | _ => none
    else if isLiteralChar c then consRead c (readLiteralLines r)
    else none

/-- A line break right after the three opening quotes is no content. -/
def skipFirstBreak (cs : List Char) : List Char := (lineBreak? cs).getD cs

/-- Reads a text in any of its forms. -/
def readText : List Char → Option (List Char × List Char)
  | '"' :: '"' :: '"' :: r => readBasicLines false (skipFirstBreak r)
  | '\'' :: '\'' :: '\'' :: r => readLiteralLines (skipFirstBreak r)
  | '"' :: r => readBasic r
  | '\'' :: r => readLiteral r
  | _ => none

/-! ## Writing -/

/-- Controls that only an escape can express; tabs and line breaks are not among them. -/
def isControl (c : Char) : Bool := (c.toNat ≤ 0x1f && c != '\t' && c != '\n') || c.toNat == 0x7f

/-- A content character of a basic text on one line. -/
def writeBasicChar (c : Char) : List Char :=
  if c = '\x08' then ['\\', 'b']
  else if c = '\t' then ['\\', 't']
  else if c = '\n' then ['\\', 'n']
  else if c = '\x0c' then ['\\', 'f']
  else if c = '\r' then ['\\', 'r']
  else if c = '"' then ['\\', '"']
  else if c = '\\' then ['\\', '\\']
  else if isControl c then
    '\\' :: 'u' :: Text.zeroPad 4 ((Text.hexDigits c.toNat).map Char.toUpper)
  else [c]

/-- The content of a basic text on several lines. Line breaks stand for themselves, and so do
double quotes, but for every third in a row; `run` of them stand right before. -/
def writeBasicLines : (run : Nat) → List Char → List Char
  | _, [] => []
  | run, c :: cs =>
    if c = '"' then
      if run < 2 then '"' :: writeBasicLines (run + 1) cs
      else '\\' :: '"' :: writeBasicLines 0 cs
    else if c = '\n' then '\n' :: writeBasicLines 0 cs
    else writeBasicChar c ++ writeBasicLines 0 cs

/-- The length of the longest run of `q`, where `run` of them stand right before. -/
def longestRun (q : Char) : (run : Nat) → List Char → Nat
  | run, [] => run
  | run, c :: cs =>
    if c = q then longestRun q (run + 1) cs else max run (longestRun q 0 cs)

/-- The written forms of a text. -/
inductive Form where
  | basic
  | literal
  | basicLines
  | literalLines
deriving Repr, DecidableEq

/-- The first form, in the order basic, literal, basic on lines, literal on lines, that writes a
text without escapes; if all need some, a basic form, on lines if the text has line breaks. -/
def formOf (cs : List Char) : Form :=
  let control := cs.any isControl
  let backslash := cs.contains '\\'
  let lines := cs.contains '\n'
  if !control && !backslash && !lines && !cs.contains '"' then .basic
  else if !control && !lines && !cs.contains '\'' then .literal
  else if !control && !backslash && longestRun '"' 0 cs ≤ 2 then .basicLines
  else if !control && longestRun '\'' 0 cs ≤ 2 then .literalLines
  else if lines then .basicLines
  else .basic

def threeDouble : List Char := ['"', '"', '"']
def threeSingle : List Char := ['\'', '\'', '\'']

/-- The line break after the opening quotes of a text that has line breaks itself; reading drops
it. -/
def firstBreak (cs : List Char) : List Char := if cs.contains '\n' then ['\n'] else []

def writeText (cs : List Char) : List Char :=
  match formOf cs with
  | .basic => '"' :: cs.flatMap writeBasicChar ++ ['"']
  | .literal => '\'' :: cs ++ ['\'']
  | .basicLines => threeDouble ++ firstBreak cs ++ writeBasicLines 0 cs ++ threeDouble
  | .literalLines => threeSingle ++ firstBreak cs ++ cs ++ threeSingle

end Gamewire.Toml
