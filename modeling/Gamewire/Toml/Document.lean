import Gamewire.Toml.Number
import Gamewire.Toml.Quoted
import Gamewire.Toml.Tree

/-! Reading a document: values, then statements line by line, then the tables that the statements
describe. Every mistake makes the whole document unreadable. -/
namespace Gamewire.Toml
set_option autoImplicit false

/-- Values nest, and keys are dotted, less deep than this. -/
def nestingLimit : Nat := 80

/-! ## Blanks, comments and ends of lines -/

def skipSpaces (cs : List Char) : List Char := cs.dropWhile isSpace

/-- What follows the end of a line, before which only blanks and a comment may stand. -/
def endLine (cs : List Char) : Option (List Char) :=
  let cs :=
    match skipSpaces cs with
    | '#' :: r => r.dropWhile isPlain
    | r => r
  if cs.isEmpty then some [] else lineBreak? cs

/-- Skips blanks, line breaks and comments inside an array; `fuel` bounds the number of lines. -/
def skipLines : Nat → List Char → List Char
  | 0, cs => cs
  | fuel + 1, cs =>
    match skipSpaces cs with
    | '#' :: r =>
      match lineBreak? (r.dropWhile isPlain) with
      | some rest => skipLines fuel rest
      | none => '#' :: r
    | r =>
      match lineBreak? r with
      | some rest => skipLines fuel rest
      | none => r

/-! ## Keys -/

def isBareKeyChar (c : Char) : Bool :=
  ('a' ≤ c && c ≤ 'z') || ('A' ≤ c && c ≤ 'Z') || Text.isDigit c || c == '_' || c == '-'

/-- One part of a key, bare or quoted on one line. -/
def readKeyPart : List Char → Option (String × List Char)
  | '"' :: r =>
    match readBasic r with
    | some (cs, rest) => some (String.ofList cs, rest)
    | none => none
  | '\'' :: r =>
    match readLiteral r with
    | some (cs, rest) => some (String.ofList cs, rest)
    | none => none
  | cs =>
    match cs.takeWhile isBareKeyChar with
    | [] => none
    | name => some (String.ofList name, cs.dropWhile isBareKeyChar)

/-- A key with fewer than `limit` parts more: the path before its last part, and that part. -/
def readKey : (limit : Nat) → List Char → Option ((List String × String) × List Char)
  | 0, _ => none
  | limit + 1, cs =>
    match readKeyPart (skipSpaces cs) with
    | none => none
    | some (part, rest) =>
      match skipSpaces rest with
      | '.' :: r =>
        match readKey limit r with
        | some ((path, key), rest) => some ((part :: path, key), rest)
        | none => none
      | rest => some (([], part), rest)

/-- A key that a document may hold. -/
def readWholeKey (cs : List Char) : Option ((List String × String) × List Char) :=
  readKey (nestingLimit - 1) cs

/-! ## Values -/

/-- The table between braces. -/
def inlineTable (body : List Assignment) : Option Value :=
  match Entries.fill body [] with
  | some entries => some (.table (Item.entriesToValues entries))
  | none => none

mutual

/-- Reads a value that may nest `depth` levels. The bound `fuel` is on calls and on the lines that
an array goes over, and it is never less than what is left of the text. -/
def readValue : (fuel depth : Nat) → List Char → Option (Value × List Char)
  | 0, _, _ => none
  | fuel + 1, depth, cs =>
    match cs with
    | '"' :: _ | '\'' :: _ =>
      match readText cs with
      | some (content, rest) => some (.text (String.ofList content), rest)
      | none => none
    | 't' :: 'r' :: 'u' :: 'e' :: r => some (.boolean true, r)
    | 'f' :: 'a' :: 'l' :: 's' :: 'e' :: r => some (.boolean false, r)
    | '[' :: r =>
      match depth with
      | 0 => none
      | depth + 1 =>
        match readElements fuel depth r with
        | some (xs, rest) => some (.array xs, rest)
        | none => none
    | '\x7b' :: r =>
      match depth with
      | 0 => none
      | depth + 1 =>
        match skipSpaces r with
        | '\x7d' :: rest => some (.table [], rest)
        | r =>
          match readAssignments fuel depth r with
          | some (body, rest) =>
            match inlineTable body with
            | some v => some (v, rest)
            | none => none
          | none => none
    | cs => readNumberOrMoment cs

/-- Reads elements up to the closing bracket; a comma may stand after the last. -/
def readElements : (fuel depth : Nat) → List Char → Option (List Value × List Char)
  | 0, _, _ => none
  | fuel + 1, depth, cs =>
    match skipLines fuel cs with
    | ']' :: rest => some ([], rest)
    | cs =>
      match readValue fuel depth cs with
      | none => none
      | some (v, rest) =>
        match skipLines fuel rest with
        | ',' :: rest =>
          match readElements fuel depth rest with
          | some (vs, rest) => some (v :: vs, rest)
          | none => none
        | ']' :: rest => some ([v], rest)
        | _ => none

/-- Reads assignments up to the closing brace. -/
def readAssignments : (fuel depth : Nat) → List Char → Option (List Assignment × List Char)
  | 0, _, _ => none
  | fuel + 1, depth, cs =>
    match readWholeKey cs with
    | some ((path, key), '=' :: r) =>
      match readValue fuel depth (skipSpaces r) with
      | none => none
      | some (v, rest) =>
        match skipSpaces rest with
        | ',' :: rest =>
          match readAssignments fuel depth rest with
          | some (as, rest) => some (⟨path, key, v⟩ :: as, rest)
          | none => none
        | '\x7d' :: rest => some ([⟨path, key, v⟩], rest)
        | _ => none
    | _ => none

end

/-- A value of a document. Of three calls one at least reads a character. -/
def readWholeValue (cs : List Char) : Option (Value × List Char) :=
  readValue (3 * cs.length + 3) (nestingLimit - 1) cs

/-! ## Statements -/

inductive Statement where
  | assign (a : Assignment)
  | header (path : List String) (key : String)
  | listHeader (path : List String) (key : String)

/-- Reads one statement up to its last character; the end of the line is left. -/
def readStatement : List Char → Option (Statement × List Char)
  | '[' :: '[' :: r =>
    match readWholeKey r with
    | some ((path, key), ']' :: ']' :: rest) => some (.listHeader path key, rest)
    | _ => none
  | '[' :: r =>
    match readWholeKey r with
    | some ((path, key), ']' :: rest) => some (.header path key, rest)
    | _ => none
  | cs =>
    match readWholeKey cs with
    | some ((path, key), '=' :: r) =>
      match readWholeValue (skipSpaces r) with
      | some (v, rest) => some (.assign ⟨path, key, v⟩, rest)
      | none => none
    | _ => none

/-- Reads the statements of a document; every line is shorter than what is left of the text, so
the length bounds their number. -/
def readStatements : (fuel : Nat) → List Char → Option (List Statement)
  | 0, cs => if cs.isEmpty then some [] else none
  | fuel + 1, cs =>
    match skipSpaces cs with
    | [] => some []
    | cs =>
      match endLine cs with
      | some rest => readStatements fuel rest
      | none =>
        match readStatement cs with
        | none => none
        | some (s, rest) =>
          match endLine rest with
          | none => none
          | some rest =>
            match readStatements fuel rest with
            | some ss => some (s :: ss)
            | none => none

/-! ## Documents -/

/-- Takes the assignments in front of the next header. -/
def leadingAssignments : List Statement → List Assignment
  | .assign a :: rest => a :: leadingAssignments rest
  | _ => []

/-- Adds the tables of all headers in order. Assignments are taken with the header before them. -/
def addHeaders : List Statement → Entries → Option Entries
  | [], entries => some entries
  | .assign _ :: rest, entries => addHeaders rest entries
  | .header path key :: rest, entries =>
    match Entries.atPath (Entries.addTable key (leadingAssignments rest)) path entries with
    | some entries => addHeaders rest entries
    | none => none
  | .listHeader path key :: rest, entries =>
    match Entries.atPath (Entries.addToList key (leadingAssignments rest)) path entries with
    | some entries => addHeaders rest entries
    | none => none

def tableOfStatements (ss : List Statement) : Option (List (String × Value)) :=
  match Entries.fill (leadingAssignments ss) [] with
  | none => none
  | some entries =>
    match addHeaders ss entries with
    | some entries => some (Item.entriesToValues entries)
    | none => none

/-- A byte order mark may stand in front of a document. -/
def skipMark : List Char → List Char
  | '\ufeff' :: r => r
  | r => r

/-- The table that a document describes. -/
def parse? (source : String) : Option Value :=
  let cs := skipMark source.toList
  match readStatements (cs.length + 1) cs with
  | some ss =>
    match tableOfStatements ss with
    | some entries => some (.table entries)
    | none => none
  | none => none

end Gamewire.Toml
