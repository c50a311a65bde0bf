import Gamewire.Text.Utf8

/-! A tree of files and folders, and the operations of a program on it by path. Paths are texts with
slashes between names, relative to a working folder unless they start with a slash. -/
namespace Gamewire
set_option autoImplicit false

/-! ## Faults -/

/-- Why the system refuses an operation. -/
inductive FileFault where
  | notFound
  | permissionDenied
  | alreadyExists
  | notADirectory
  | isADirectory
  | nameTooLong
  | addressUnavailable
  | addressInUse
  | invalidText
  | zeroByte
  /-- Whatever else the system says. -/
  | other (text : String)
deriving Repr, DecidableEq

def FileFault.message : FileFault → String
  | notFound => "No such file or directory (os error 2)"
  | permissionDenied => "Permission denied (os error 13)"
  | alreadyExists => "File exists (os error 17)"
  | notADirectory => "Not a directory (os error 20)"
  | isADirectory => "Is a directory (os error 21)"
  | nameTooLong => "File name too long (os error 36)"
  | addressUnavailable => "Cannot assign requested address (os error 99)"
  | addressInUse => "Address already in use (os error 98)"
  | invalidText => "stream did not contain valid UTF-8"
  | zeroByte => "file name contained an unexpected NUL byte"
  | other text => text

/-! ## Paths -/

/-- Appends a path to another; one that starts with a slash replaces it. -/
def joinPath (base path : String) : String :=
  if path.startsWith "/" then path
  else if base.isEmpty || base.endsWith "/" then base ++ path
  else base ++ "/" ++ path

/-- The names of a path from left to right, without those that stand for the same place. -/
def pathNames (path : String) : List String :=
  (path.toList.splitOn '/').map String.ofList |>.filter fun name => name != "" && name != "."

/-- The last name of a path, unless it leads up. -/
def fileName? (path : String) : Option String :=
  match (pathNames path).getLast? with
  | some name => if name = ".." then none else some name
  | none => none

/-- Most bytes of a name. -/
def maxNameBytes : Nat := 255

/-! ## Trees -/

inductive FileNode where
  | file (content : List UInt8)
  | folder
deriving Repr, DecidableEq

structure FileTree where
  /-- Every file and folder under the names on the way to it from the top; the top is always
  there. -/
  nodes : List (List String × FileNode) := []
  /-- Where relative paths start. -/
  workingFolder : List String := []
deriving Repr, DecidableEq

namespace FileTree

def node? (t : FileTree) (place : List String) : Option FileNode :=
  if place.isEmpty then some .folder else t.nodes.lookup place

/-- Puts a node at a place, in place of what is there. -/
def setNode (t : FileTree) (place : List String) (n : FileNode) : FileTree :=
  if (t.nodes.lookup place).isSome then
    { t with nodes := t.nodes.map fun x => if x.1 = place then (place, n) else x }
  else { t with nodes := t.nodes ++ [(place, n)] }

def start (t : FileTree) (path : String) : List String :=
  if path.startsWith "/" then [] else t.workingFolder

/-- A path has to have a text, without a zero character. -/
def checkPath (path : String) : Except FileFault Unit :=
  if path.toList.contains '\x00' then .error .zeroByte
  else if path.isEmpty then .error .notFound
  else .ok ()

/-- The place that names lead to from a place; every name but the last has to lead to a folder. -/
def follow (t : FileTree) : (place : List String) → List String → Except FileFault (List String)
  | place, [] => .ok place
  | place, name :: names =>
    if t.node? place ≠ some .folder then .error .notADirectory
    else if name = ".." then follow t place.dropLast names
    else if maxNameBytes < name.utf8ByteSize then .error .nameTooLong
    else if (t.node? (place ++ [name])).isNone then .error .notFound
    else follow t (place ++ [name]) names

/-- Whether a path is written so that it can only mean a folder. -/
def meansFolder (path : String) : Bool := path.endsWith "/" || path.endsWith "/." || path == "."

/-- The place and the node of a path. -/
def find (t : FileTree) (path : String) : Except FileFault (List String × FileNode) := do
  checkPath path
  let place ← t.follow (t.start path) (pathNames path)
  match t.node? place with
  | none => .error .notFound
  | some .folder => .ok (place, .folder)
  | some n => if meansFolder path then .error .notADirectory else .ok (place, n)

def pathExists (t : FileTree) (path : String) : Bool :=
  match t.find path with
  | .ok _ => true
  | .error _ => false

def read (t : FileTree) (path : String) : Except FileFault (List UInt8) := do
  match ← t.find path with
  | (_, .file content) => .ok content
  | (_, .folder) => .error .isADirectory

def readText (t : FileTree) (path : String) : Except FileFault String := do
  match Text.ofUtf8? (← t.read path) with
  | some text => .ok text
  | none => .error .invalidText

/-- Splits names into those before the last and the last, if the last does not lead up. -/
def splitNames (names : List String) : Option (List String × String) :=
  match names.getLast? with
  | some name => if name = ".." then none else some (names.dropLast, name)
  | none => none

/-- The place where names lead, of which the last need not be there. -/
def target (t : FileTree) (start names : List String) (name : String) :
    Except FileFault (List String) := do
  let folder ← t.follow start names
  if t.node? folder ≠ some .folder then .error .notADirectory
  else if maxNameBytes < name.utf8ByteSize then .error .nameTooLong
  else .ok (folder ++ [name])

/-- Writes a file, made or emptied before. -/
def write (t : FileTree) (path : String) (content : List UInt8) : Except FileFault FileTree := do
  checkPath path
  match splitNames (pathNames path) with
  | none => let _ ← t.follow (t.start path) (pathNames path); .error .isADirectory
  | some (names, name) =>
    let place ← t.target (t.start path) names name
    if meansFolder path then .error .isADirectory
    else
      match t.node? place with
      | some .folder => .error .isADirectory
      | _ => .ok (t.setNode place (.file content))

/-- Opens a file for lines at its end, making it if it is not there. -/
def touch (t : FileTree) (path : String) : Except FileFault FileTree :=
  match t.read path with
  | .ok _ => .ok t
  | .error _ => t.write path []

/-- Makes one folder under names from a place. -/
def makeFolderAt (t : FileTree) (start names : List String) : Except FileFault FileTree := do
  match splitNames names with
  | none => let _ ← t.follow start names; .error .alreadyExists
  | some (names, name) =>
    let place ← t.target start names name
    if (t.node? place).isSome then .error .alreadyExists else .ok (t.setNode place .folder)

/-- Whether names lead to a folder. -/
def leadsToFolder (t : FileTree) (start names : List String) : Bool :=
  match t.follow start names with
  | .ok place => t.node? place == some .folder
  | .error _ => false

/-- Makes the folder at the end of names given in reverse, and before it those on the way. -/
def makeFoldersAt (start : List String) : (reversed : List String) → FileTree →
    Except FileFault FileTree
  | [], t => .ok t
  | name :: before, t =>
    match t.makeFolderAt start (name :: before).reverse with
    | .ok t => .ok t
    | .error .notFound =>
      match makeFoldersAt start before t with
      | .error e => .error e
      | .ok t =>
        match t.makeFolderAt start (name :: before).reverse with
        | .ok t => .ok t
        | .error e => if t.leadsToFolder start (name :: before).reverse then .ok t else .error e
    | .error e => if t.leadsToFolder start (name :: before).reverse then .ok t else .error e

/-- Makes a folder and those on the way to it, as far as they are not there. -/
def makeFolders (t : FileTree) (path : String) : Except FileFault FileTree :=
  if path.toList.contains '\x00' then .error .zeroByte
  else makeFoldersAt (t.start path) (pathNames path).reverse t

end FileTree

end Gamewire
