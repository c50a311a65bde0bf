import Gamewire.Cli.Run

/-! The program on this machine: its files and its environment. No network is at hand, so a server
can be prepared but not run. -/
namespace Gamewire.Cli
set_option autoImplicit false

/-- The number that the system gives to an error. -/
def systemCode : IO.Error → Option UInt32
  | .alreadyExists _ code _ | .noFileOrDirectory _ code _ | .permissionDenied _ code _
  | .inappropriateType _ code _ | .invalidArgument _ code _ | .resourceExhausted _ code _
  | .otherError code _ => some code
  | _ => none

def fileFault (e : IO.Error) : FileFault :=
  match systemCode e with
  | some 2 => .notFound
  | some 13 => .permissionDenied
  | some 17 => .alreadyExists
  | some 20 => .notADirectory
  | some 21 => .isADirectory
  | some 36 => .nameTooLong
  | _ => .other (toString e)

/-- Runs an action on files. -/
def onFiles {α : Type} (action : IO α) : IO (Except FileFault α) := do
  try return .ok (← action)
  catch e => return .error (fileFault e)

def localFiles : FileSystem IO where
  pathExists path := do return (← onFiles (IO.FS.Handle.mk path .read)).toOption.isSome
  readText path := do
    match ← onFiles (IO.FS.readBinFile path) with
    | .error e => return .error e
    | .ok bytes =>
      match Text.ofUtf8? bytes.data.toList with
      | some text => return .ok text
      | none => return .error .invalidText
  write path text := onFiles (IO.FS.writeFile path text)
  touch path := onFiles (do let _ ← IO.FS.Handle.mk path .append)
  makeFolders path := onFiles (IO.FS.createDirAll path)

def localPlatform : Platform IO where
  files := localFiles
  listen _ := return .error (.other "Operation not supported (os error 95)")
  serve _ _ := return ()
  request _ := return .error "no network"

def usageText : String :=
  "Usage: hnp [OPTIONS] version | config (create | validate) | proto (validate | gen) | " ++
    "server (run | admin)\n"

end Gamewire.Cli

open Gamewire.Cli in
def main (args : List String) : IO UInt32 := do
  let env ← environmentNames.filterMapM fun name => do
    return (← IO.getEnv name).map fun value => (name, value)
  let outcome ← program localPlatform env args
  IO.print outcome.console.out
  IO.eprint outcome.console.err
  if outcome.exit == 2 then IO.eprint usageText
  return outcome.exit.toUInt32
