import ClientLoom.FileSystem.Basic

/-!
# Access to files

The operations on files that a run needs, for any monad that offers them.  A file system as a state
is one such monad.
-/

namespace ClientLoom

/-- The operations on files that a run needs. -/
class FileStore (m : Type → Type) where
  /-- The text of a file. -/
  read : String → m (Except FileFault String)
  /-- A file stands at the path. -/
  isFile : String → m Bool
  /-- Makes a directory and all that are missing above it. -/
  makeDirectories : String → m (Except FileFault Unit)
  /-- Writes a file in place. -/
  overwrite : String → String → m (Except FileFault Unit)
  /-- Writes a file aside and puts it in the place of the old one. -/
  replace : String → String → m (Except FileFault Unit)

namespace FileSystem

/-- Keeps the file system that a change gives, or the old one if the change fails. -/
def commit (change : FileSystem → Except FileFault FileSystem) :
    StateM FileSystem (Except FileFault Unit) := fun fs =>
  match change fs with
  | .ok changed => (.ok (), changed)
  | .error fault => (.error fault, fs)

instance : FileStore (StateM FileSystem) where
  read path := fun fs => (fs.read path >>= FileContent.asText, fs)
  isFile path := fun fs => (fs.isFile path, fs)
  makeDirectories path := fun fs => fs.makeDirectories path
  overwrite path text := commit (·.overwrite path (.text text))
  replace path text := commit (·.replace path (.text text))

end FileSystem

end ClientLoom
