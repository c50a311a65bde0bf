import Gamewire.Admin.Remote
import Gamewire.Cli.Command
import Gamewire.Cli.Report
import Gamewire.Schema.Load
import Gamewire.Server.Machine

/-! Running commands. A command works on files and with a network that are given to it, prints, and
may fail. -/
namespace Gamewire.Cli
set_option autoImplicit false

/-- What commands need from outside. -/
structure Platform (m : Type → Type) where
  files : FileSystem m
  /-- Tries whether an address can be listened on. -/
  listen : SocketAddress → m (Except FileFault Unit)
  /-- Runs a server until it is told to stop. -/
  serve : ServerConfig → Protocol → m Unit
  /-- Sends a request whose path is a URL. -/
  request : HttpRequest → m (Except String HttpResponse)

abbrev CliM (m : Type → Type) := ExceptT Failure (StateT Console m)

variable {m : Type → Type} [Monad m]

/-! ## Printing and failing -/

def printLine (text : String) : CliM m Unit :=
  modify fun c => { c with out := c.out ++ text ++ "\n" }

def warnLine (text : String) : CliM m Unit :=
  modify fun c => { c with err := c.err ++ text ++ "\n" }

/-- Takes a result, or fails as `f` says. -/
def orFail {ε α : Type} (f : ε → Failure) : Except ε α → CliM m α
  | .ok a => pure a
  | .error e => throw (f e)

/-- Does something outside. -/
def outside {α : Type} (action : m α) : CliM m α := liftM action

/-! ## Paths -/

namespace Common

def path (c : Common) (file : String) : String := joinPath c.root file

def configPath (c : Common) : String := c.path c.configFile

def logFolderPath? (c : Common) : Option String := c.logFolder.map c.path

end Common

def logFile : String := "hnp.log"

/-- A path without the slashes and points at its end that do not change where it leads. -/
def tidyEnd (path : String) : String :=
  let places := (path.splitOn "/").reverse.dropWhile fun place => place == "" || place == "."
  match places with
  | [] => if path.isEmpty then "" else if path.toList.head? = some '/' then "/" else "."
  | places => "/".intercalate places.reverse

/-! ## Loading -/

/-- Makes the file for logs, if there is a folder for it. -/
def openLog (p : Platform m) (c : Common) : CliM m Unit :=
  match c.logFolderPath? with
  | none => pure ()
  | some folder => do
    orFail (fun e => .inContext ("creating " ++ tidyEnd folder) e.message [])
      (← outside (p.files.makeFolders folder))
    let path := joinPath folder logFile
    orFail (fun e => .inContext ("opening " ++ path) e.message []) (← outside (p.files.touch path))

/-- Settings from the file, or the defaults when there is none. -/
def loadConfig (p : Platform m) (c : Common) : CliM m ServerConfig := do
  let path := c.configPath
  if ← outside (p.files.pathExists path) then
    orFail (fun e => .inContext ("loading " ++ path) e.message e.causes)
      (← outside (ServerConfig.load p.files path))
  else return {}

def checkConfig (config : ServerConfig) : CliM m Unit :=
  orFail (fun e => .inContext "invalid configuration" e.message e.causes) config.validate

/-- Reads and checks a protocol, and reports every problem. -/
def loadProtocol (p : Platform m) (path : String) : CliM m Protocol := do
  let schema ← orFail (fun e => .inContext ("loading " ++ path) e.message e.causes)
    (← outside (Schema.load p.files path))
  match schema.validate with
  | .ok protocol => return protocol
  | .error problems =>
    for problem in problems do
      warnLine ("  " ++ problem.message)
    throw ⟨s!"{path} has {problems.length} validation error(s)", []⟩

/-! ## Commands -/

def versionText : String := "hnp 0.1.0"

def createConfig (p : Platform m) (c : Common) (force : Bool) : CliM m Unit := do
  let path := c.configPath
  if (← outside (p.files.pathExists path)) && !force then
    throw ⟨path ++ " already exists (use --force to overwrite)", []⟩
  orFail (fun e => .inContext ("writing " ++ path) e.message e.causes)
    (← outside (ServerConfig.save {} p.files path))
  printLine ("created " ++ path)

def fingerprintText (p : Protocol) : String := Text.hexLiteral 8 p.fingerprint.toNat

def validateConfig (p : Platform m) (c : Common) : CliM m Unit := do
  let config ← loadConfig p c
  checkConfig config
  let protocol ← loadProtocol p (c.path config.protocolFile)
  printLine (s!"configuration ok: {protocol.messages.length} messages, fingerprint " ++
    fingerprintText protocol)

/-- A row of the table of messages. -/
def tableRow (tag name direction bytes fields : String) : String :=
  Text.padRight 4 tag ++ " " ++ Text.padRight 24 name ++ " " ++ Text.padRight 16 direction ++ " " ++
    Text.padLeft 6 bytes ++ "  " ++ fields

def fieldText (f : FieldSpec) : String :=
  f.name ++ ":" ++ f.type.render ++ (if f.optional then "?" else "")

def messageRow (msg : MessageSpec) : String :=
  tableRow (toString msg.tag.toNat) msg.name msg.direction.name (toString msg.maxFrameSize)
    (" ".intercalate (msg.fields.map fieldText))

def validateProtocol (p : Platform m) (c : Common) (file : String) : CliM m Unit := do
  let protocol ← loadProtocol p (c.path file)
  printLine (tableRow "TAG" "NAME" "DIRECTION" "BYTES" "FIELDS")
  for msg in protocol.messages do
    printLine (messageRow msg)
  printLine ("fingerprint " ++ fingerprintText protocol)

def loadPage (p : Platform m) (path : String) : CliM m Client.Page := do
  let content ← orFail (fun e => .inContext ("reading " ++ path) (FileFault.message e) [])
    (← outside (p.files.readText path))
  match fileName? path with
  | some name => return ⟨name, content⟩
  | none => throw ⟨"HTML path has no file name", []⟩

def generate (p : Platform m) (c : Common) (o : Generation) : CliM m Unit := do
  let protocol ← loadProtocol p (c.path o.protocolFile)
  let page ← o.page.mapM fun file => loadPage p (c.path file)
  let fail (e : Client.GenerationFault) : Failure := ⟨e.message, e.causes⟩
  let bundle ← orFail fail (Client.Bundle.generate protocol { o.wishes with page := page })
  for path in ← orFail fail (← outside (bundle.write p.files (c.path o.folder))) do
    printLine ("wrote " ++ path)

/-- Tries an address of a server. -/
def tryListen (p : Platform m) (address : Except ConfigFault SocketAddress)
    (fault : SocketAddress → FileFault → ServerFault) : m (Except ServerFault Unit) := do
  match address with
  | .error e => return .error (.config e)
  | .ok a =>
    match ← p.listen a with
    | .ok () => return .ok ()
    | .error e => return .error (fault a e)

/-- Prepares a server: both addresses first, then the key and the limits. -/
def prepare (p : Platform m) (config : ServerConfig) : m (Except ServerFault Unit) := do
  match ← tryListen p config.gameAddress fun a e => .transport (.bind a.render e) with
  | .error e => return .error e
  | .ok () =>
    match ← tryListen p config.adminAddress fun _ e => .io e with
    | .error e => return .error e
    | .ok () =>
      let started : Except ServerFault (Server Unit × AdminKey) := Server.start config
      return started.map fun _ => ()

def run (p : Platform m) (c : Common) (o : Overrides) : CliM m Unit := do
  let config := o.apply (← loadConfig p c)
  checkConfig config
  let protocol ← loadProtocol p (c.path config.protocolFile)
  orFail (fun e => .inContext "starting server" (ServerFault.message e) e.causes)
    (← outside (prepare p config))
  outside (p.serve config protocol)

/-- The line of a room in a list. -/
def roomRow (s : RoomSnapshot) : String :=
  Text.padRight 8 (roomLabel s.id) ++ " " ++ Text.padLeft 3 (toString s.members) ++ "/" ++
    Text.padRight 3 (toString s.capacity) ++ " " ++ s.state.name

/-- What is printed of an answer. -/
def answerLines : AdminResponse → List String
  | .rooms [] => ["no rooms"]
  | .rooms rooms => rooms.map roomRow
  | .shutDown (some room) => [roomLabel room ++ " shut down"]
  | .shutDown none => ["server shutting down"]

def administer (p : Platform m) (c : Common) (action : String) (room : Option RoomId) (url : String)
    (o : Overrides) : CliM m Unit := do
  let config := o.apply (← loadConfig p c)
  let fail (e : AdminFault) : Failure := ⟨e.message, e.causes⟩
  let action ← orFail fail (AdminAction.parse action room)
  let server := String.ofList (Text.dropTrailing '/' url.toList) ++ s!":{config.adminPort.toNat}"
  let remote := AdminRemote.ofUrl server config.adminHeader config.adminSecret
  let request ← orFail (fun e => fail (.http e)) (remote.request action)
  let response ← orFail (fun e => fail (.http (.unsent e))) (← outside (p.request request))
  for line in answerLines (← orFail fail (AdminRemote.interpret response)) do
    printLine line

def perform (p : Platform m) (c : Common) : Command → CliM m Unit
  | .version => printLine versionText
  | .createConfig force => createConfig p c force
  | .validateConfig => validateConfig p c
  | .validateProtocol file => validateProtocol p c file
  | .generate options => generate p c options
  | .run overrides => run p c overrides
  | .administer action room url overrides => administer p c action room url overrides

/-! ## The program -/

/-- Runs the program on its arguments. It ends with 0, with 1 when a command failed, or with 2 when
the arguments make no sense. -/
def program (p : Platform m) (env : Environment) (args : List String) : m Outcome := do
  match parse env args with
  | .error .usage => return { exit := 2 }
  | .error .help => return { exit := 0 }
  | .error .version => return { exit := 0, console := { out := versionText ++ "\n" } }
  | .ok parsed =>
    match parsed.command? with
    | none => return { exit := 2 }
    | some command =>
      let common := parsed.common
      let action : CliM m Unit := do
        openLog p common
        perform p common command
      match ← action.run.run {} with
      | (.ok (), console) => return { exit := 0, console := console }
      | (.error failure, console) =>
        return { exit := 1, console := { console with err := console.err ++ failure.render } }

end Gamewire.Cli
