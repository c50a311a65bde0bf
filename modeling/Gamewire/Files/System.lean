import Gamewire.Files.Tree

/-! What a program may do with files, and the tree in memory as one way to do it. -/
namespace Gamewire
set_option autoImplicit false

structure FileSystem (m : Type → Type) where
  pathExists : String → m Bool
  readText : String → m (Except FileFault String)
  /-- Writes a file, made or emptied before. -/
  write : String → String → m (Except FileFault Unit)
  /-- Makes an empty file, unless it is there. -/
  touch : String → m (Except FileFault Unit)
  /-- Makes a folder and those on the way to it, as far as they are not there. -/
  makeFolders : String → m (Except FileFault Unit)

namespace FileSystem

/-- The same files, worked on by actions that can do more. -/
def lift {m n : Type → Type} [MonadLiftT m n] (files : FileSystem m) : FileSystem n where
  pathExists path := liftM (files.pathExists path)
  readText path := liftM (files.readText path)
  write path text := liftM (files.write path text)
  touch path := liftM (files.touch path)
  makeFolders path := liftM (files.makeFolders path)

end FileSystem

namespace FileTree

/-- Runs a change of the tree; a fault changes nothing. -/
def change (f : FileTree → Except FileFault FileTree) : StateM FileTree (Except FileFault Unit) :=
  fun t =>
    match f t with
    | .ok t => (.ok (), t)
    | .error e => (.error e, t)

/-- A tree in memory. -/
def system : FileSystem (StateM FileTree) where
  pathExists path := do return (← get).pathExists path
  readText path := do return (← get).readText path
  write path text := change (·.write path (Text.utf8Bytes text))
  touch path := change (·.touch path)
  makeFolders path := change (·.makeFolders path)

end FileTree

end Gamewire
