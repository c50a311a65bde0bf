import Gamewire.Toml.Value

/-! Tables while a document is being read. How a table came to be decides what may still be added
to it: a table with a header is closed to dotted keys and to a second header, a table that only
lies on the way of a header may get its own header later, and a table made by dotted keys takes
dotted keys only. -/
namespace Gamewire.Toml
set_option autoImplicit false

/-- How a table came to be. -/
inductive Origin where
  | header
  | onTheWay
  | dotted
deriving Repr, DecidableEq

inductive Item where
  | value (v : Value)
  | table (origin : Origin) (entries : List (String × Item))
  /-- A list of tables with headers of their own; `last` is the one that can still grow. -/
  | tables (earlier : List (List (String × Item))) (last : List (String × Item))

/-- The entries of a table in the order of their first mention. -/
abbrev Entries := List (String × Item)

namespace Entries

/-- Puts an item under a key that is present. -/
def replace (key : String) (item : Item) : Entries → Entries
  | [] => []
  | (k, i) :: rest => if k = key then (k, item) :: rest else (k, i) :: replace key item rest

def erase (key : String) (entries : Entries) : Entries := entries.filter (·.1 != key)

/-- Adds a value under a key that has to be new. -/
def addNew (key : String) (v : Value) (entries : Entries) : Option Entries :=
  match entries.lookup key with
  | none => some (entries ++ [(key, .value v)])
  | some _ => none

/-- Adds a value under a dotted key: `path` leads to the table that holds `key`. -/
def addDotted (key : String) (v : Value) : (path : List String) → Entries → Option Entries
  | [], entries => addNew key v entries
  | k :: path, entries =>
    match entries.lookup k with
    | none =>
      match addDotted key v path [] with
      | some sub => some (entries ++ [(k, .table .dotted sub)])
      | none => none
    | some (.table origin sub) =>
      if origin = .header ∨ (path.isEmpty ∧ origin ≠ .dotted) then none
      else
        match addDotted key v path sub with
        | some sub => some (replace k (.table origin sub) entries)
        | none => none
    | some (.tables earlier last) =>
      if path.isEmpty then none
      else
        match addDotted key v path last with
        | some last => some (replace k (.tables earlier last) entries)
        | none => none
    | some (.value _) => none

/-- Changes the table that a header's path leads to; tables that are missing on the way are
made, and of a list of tables the last one is meant. -/
def atPath (change : Entries → Option Entries) : (path : List String) → Entries → Option Entries
  | [], entries => change entries
  | k :: path, entries =>
    match entries.lookup k with
    | none =>
      match atPath change path [] with
      | some sub => some (entries ++ [(k, .table .onTheWay sub)])
      | none => none
    | some (.table origin sub) =>
      match atPath change path sub with
      | some sub => some (replace k (.table origin sub) entries)
      | none => none
    | some (.tables earlier last) =>
      match atPath change path last with
      | some last => some (replace k (.tables earlier last) entries)
      | none => none
    | some (.value _) => none

end Entries

/-! ## Assignments -/

/-- One line `path.key = value`. -/
structure Assignment where
  path : List String
  key : String
  value : Value

/-- Adds assignments in order. -/
def Entries.fill : List Assignment → Entries → Option Entries
  | [], entries => some entries
  | a :: rest, entries =>
    match Entries.addDotted a.key a.value a.path entries with
    | some entries => fill rest entries
    | none => none

/-- Adds the table under a header with its assignments. -/
def Entries.addTable (key : String) (body : List Assignment) (entries : Entries) :
    Option Entries :=
  match entries.lookup key with
  | none =>
    match Entries.fill body [] with
    | some filled => some (entries ++ [(key, .table .header filled)])
    | none => none
  | some (.table .onTheWay sub) =>
    match Entries.fill body sub with
    | some filled => some (Entries.erase key entries ++ [(key, .table .header filled)])
    | none => none
  | some _ => none

/-- Adds one more table to the list of tables under a header. -/
def Entries.addToList (key : String) (body : List Assignment) (entries : Entries) :
    Option Entries :=
  match entries.lookup key with
  | none =>
    match Entries.fill body [] with
    | some filled => some (entries ++ [(key, .tables [] filled)])
    | none => none
  | some (.tables earlier last) =>
    match Entries.fill body [] with
    | some filled => some (Entries.replace key (.tables (earlier ++ [last]) filled) entries)
    | none => none
  | some _ => none

/-! ## Finished tables -/

mutual

def Item.toValue : Item → Value
  | .value v => v
  | .table _ entries => .table (Item.entriesToValues entries)
  | .tables earlier last =>
    .array (Item.listToValues earlier ++ [.table (Item.entriesToValues last)])

def Item.entriesToValues : List (String × Item) → List (String × Value)
  | [] => []
  | (k, i) :: rest => (k, i.toValue) :: Item.entriesToValues rest

def Item.listToValues : List (List (String × Item)) → List Value
  | [] => []
  | entries :: rest => .table (Item.entriesToValues entries) :: Item.listToValues rest

end

end Gamewire.Toml
