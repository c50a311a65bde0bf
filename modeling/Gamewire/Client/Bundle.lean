import Gamewire.Client.Debugger
import Gamewire.Client.Module
import Gamewire.Client.Shell
import Gamewire.Files.System

/-! Bundles: the files that are generated for a protocol, the page that loads them, and how a set of
wishes decides what is generated. -/
namespace Gamewire.Client
set_option autoImplicit false

/-! ## Wishes -/

/-- What becomes of the page. -/
inductive PageAction where
  /-- The generated files stand in the page. -/
  | embed
  /-- The page refers to the generated files. -/
  | link
  | remove
  | removeDebugger
deriving Repr, DecidableEq

/-- The option that asks for the action. -/
def PageAction.flag : PageAction → String
  | embed => "embed"
  | link => "import"
  | remove => "remove"
  | removeDebugger => "remove-debugger"

structure Page where
  name : String
  content : String
deriving Repr, DecidableEq

structure Wishes where
  withDebugger : Bool := false
  embed : Bool := false
  link : Bool := false
  remove : Bool := false
  removeDebugger : Bool := false
  page : Option Page := none
  /-- Stands before the names of files in the page. -/
  assetPrefix : String := ""
deriving Repr, DecidableEq

inductive GenerationFault where
  | conflictingOptions (flags : List String)
  | missingHtml (flag : String)
  | malformedHtml (block : BlockName)
  | io (path : String) (fault : FileFault)
deriving Repr, DecidableEq

def GenerationFault.message : GenerationFault → String
  | conflictingOptions flags => "conflicting options: " ++ ", ".intercalate flags
  | missingHtml flag => flag ++ " requires an HTML document"
  | malformedHtml block => "unterminated `" ++ block.text ++ "` block in HTML document"
  | io path fault => "failed to write " ++ path ++ ": " ++ fault.message

/-- The faults behind the fault. -/
def GenerationFault.causes : GenerationFault → List String
  | io _ fault => [fault.message]
  | conflictingOptions _ | missingHtml _ | malformedHtml _ => []

namespace Wishes

/-- The wishes for the page that exclude each other. -/
def exclusive (w : Wishes) : List PageAction :=
  (if w.embed then [.embed] else []) ++ (if w.link then [.link] else []) ++
    (if w.remove then [.remove] else [])

/-- The one action that is wished for, if any. It needs a page. -/
def action (w : Wishes) : Except GenerationFault (Option PageAction) :=
  if 1 < w.exclusive.length then .error (.conflictingOptions (w.exclusive.map PageAction.flag))
  else if w.withDebugger ∧ w.removeDebugger then
    .error (.conflictingOptions ["with-debugger", "remove-debugger"])
  else
    let action? := w.exclusive.head? <|> (if w.removeDebugger then some .removeDebugger else none)
    match action? with
    | some a => if w.page.isNone then .error (.missingHtml a.flag) else .ok (some a)
    | none => .ok none

end Wishes

/-! ## Pages -/

def moduleFile : String := "hnp-protocol.js"

def debuggerScriptFile : String := "hnp-debug.js"

def debuggerStyleFile : String := "hnp-debug.css"

def scriptElement (content : String) : String := "<script>\n" ++ content ++ "</script>"

def scriptLink (path : String) : String := "<script src=\"" ++ path ++ "\"></script>"

def styleElement (content : String) : String := "<style>\n" ++ content ++ "</style>"

def styleLink (path : String) : String := "<link rel=\"stylesheet\" href=\"" ++ path ++ "\">"

/-- What an action puts into the page, block by block. -/
def blocks (w : Wishes) (module : String) : PageAction → List (BlockName × String)
  | .embed =>
    (.protocol, scriptElement module) ::
      if w.withDebugger then
        [(.debugger, styleElement debuggerStyle ++ "\n" ++ scriptElement debuggerScript)]
      else []
  | .link =>
    (.protocol, scriptLink (w.assetPrefix ++ moduleFile)) ::
      if w.withDebugger then
        [(.debugger, styleLink (w.assetPrefix ++ debuggerStyleFile) ++ "\n" ++
          scriptLink (w.assetPrefix ++ debuggerScriptFile))]
      else []
  | .remove | .removeDebugger => []

/-- The blocks that an action takes out first. -/
def stripped : PageAction → List BlockName
  | .removeDebugger => [.debugger]
  | _ => [.protocol, .debugger]

/-- Takes blocks out one name after the other. -/
def stripAll : List BlockName → List Char → Except GenerationFault (List Char)
  | [], page => .ok page
  | b :: rest, page =>
    match strip b page with
    | some page => stripAll rest page
    | none => .error (.malformedHtml b)

/-- Puts blocks in one after the other. -/
def insertAll (page : List Char) (blocks : List (BlockName × String)) : List Char :=
  blocks.foldl (fun page b => insert b.1 b.2.toList page) page

/-- Carries out an action on the text of a page. -/
def applyAction (w : Wishes) (module : String) (a : PageAction) (content : String) :
    Except GenerationFault String :=
  match stripAll (stripped a) content.toList with
  | .ok page => .ok (String.ofList (insertAll page (blocks w module a)))
  | .error e => .error e

/-! ## Bundles -/

structure Bundle where
  /-- In the order of the names. -/
  files : List (String × String)
  page : Option Page := none
deriving Repr, DecidableEq

namespace Bundle

def filesOf (w : Wishes) (module : String) : List (String × String) :=
  (if w.withDebugger then
    [(debuggerStyleFile, debuggerStyle), (debuggerScriptFile, debuggerScript)]
   else []) ++ [(moduleFile, module)]

def generate (p : Protocol) (w : Wishes) : Except GenerationFault Bundle := do
  let module := moduleText p
  match ← w.action, w.page with
  | some a, some page =>
    let content ← applyAction w module a page.content
    return ⟨filesOf w module, some ⟨page.name, content⟩⟩
  | _, _ => return ⟨filesOf w module, none⟩

def file? (b : Bundle) (name : String) : Option String := b.files.lookup name

/-- Everything that is written, the page last. -/
def outputs (b : Bundle) : List (String × String) :=
  b.files ++ (b.page.map fun page => (page.name, page.content)).toList

variable {m : Type → Type} [Monad m]

/-- Writes files one after the other and stops at the first fault; what was written stays. -/
def writeFiles (files : FileSystem m) (folder : String) : List (String × String) →
    m (Except GenerationFault (List String))
  | [] => return .ok []
  | (name, content) :: rest => do
    let path := joinPath folder name
    match ← files.write path content with
    | .error e => return .error (.io path e)
    | .ok () =>
      match ← writeFiles files folder rest with
      | .ok paths => return .ok (path :: paths)
      | .error e => return .error e

/-- Writes the bundle into a folder, which is made first, and tells the paths. -/
def write (b : Bundle) (files : FileSystem m) (folder : String) :
    m (Except GenerationFault (List String)) := do
  match ← files.makeFolders folder with
  | .error e => return .error (.io folder e)
  | .ok () => writeFiles files folder b.outputs

end Bundle

end Gamewire.Client
