import ClientLoom.Error
import ClientLoom.Output.Path

/-!
# File systems

A file system is a value: the files and directories at their locations, and the directory from
which relative paths are seen.  A path is followed step by step; every step but the last must lead
through a directory that exists.
-/

namespace ClientLoom

/-- The content of a file. -/
inductive FileContent
  | text (value : String)
  /-- Bytes that are no text. -/
  | binary (bytes : List UInt8)
deriving DecidableEq

namespace FileContent

/-- The content of some bytes. -/
def ofBytes (bytes : List UInt8) : FileContent :=
  match String.fromUTF8? ⟨bytes.toArray⟩ with
  | some value => .text value
  | none => .binary bytes

/-- The number of bytes. -/
def size : FileContent → Nat
  | .text value => value.utf8ByteSize
  | .binary bytes => bytes.length

/-- The content as text. -/
def asText : FileContent → Except FileFault String
  | .text value => .ok value
  | .binary _ => .error .notUtf8

end FileContent

/-- The names on the way to a file or directory, the last one first.  The root has no names. -/
abbrev Location := List String

/-- What stands at a location. -/
inductive FileEntry
  | directory
  | file (content : FileContent)
deriving DecidableEq

/-- The files and directories, and the directory from which relative paths are seen. -/
structure FileSystem where
  entries : List (Location × FileEntry) := []
  directory : Location := []

namespace FileSystem

/-- What stands at a location.  The root is a directory. -/
def entry? (fs : FileSystem) (location : Location) : Option FileEntry :=
  if location = [] then some .directory
  else (fs.entries.find? fun item => item.1 == location).map Prod.snd

/-- Puts an entry at a location. -/
def put (fs : FileSystem) (location : Location) (entry : FileEntry) : FileSystem :=
  { fs with entries := (location, entry) :: fs.entries.filter fun item => item.1 != location }

/-- Removes a location and everything below it. -/
def erase (fs : FileSystem) (location : Location) : FileSystem :=
  { fs with entries := fs.entries.filter fun item => !location.isSuffixOf item.1 }

/-- A location must be that of a directory. -/
def requireDirectory (fs : FileSystem) (location : Location) : Except FileFault Unit :=
  match fs.entry? location with
  | some .directory => .ok ()
  | some (.file _) => .error .notADirectory
  | none => .error .notFound

/-- The greatest size of a name. -/
def nameLimit : Nat := 255

/-- The greatest size of a path. -/
def pathLimit : Nat := 4095

/-- Follows one segment of a path. -/
def step (fs : FileSystem) (location : Location) (segment : List Char) :
    Except FileFault Location :=
  if segment = [] then .ok location
  else do
    fs.requireDirectory location
    let name := String.ofList segment
    if segment = ['.'] then .ok location
    else if segment = ['.', '.'] then .ok location.tail
    else if nameLimit < name.utf8ByteSize then .error .nameTooLong
    else .ok (name :: location)

/-- Follows segments one after the other. -/
def walk (fs : FileSystem) (location : Location) : List (List Char) → Except FileFault Location
  | [] => .ok location
  | segment :: rest => do
    let next ← fs.step location segment
    fs.walk next rest

/-- The location of a path.  Nothing need stand there yet. -/
def locate (fs : FileSystem) (path : String) : Except FileFault Location :=
  if path.toList.contains '\x00' then .error .nulInName
  else if path.isEmpty then .error .notFound
  else if pathLimit < path.utf8ByteSize then .error .nameTooLong
  else
    fs.walk (if Path.isAbsolute path then [] else fs.directory) (Path.segments path.toList)

/-- The path ends with `/`, so that it can only mean a directory. -/
def endsWithSlash (path : String) : Bool :=
  path.toList.getLast? == some '/'

/-- The content of the file at a path. -/
def read (fs : FileSystem) (path : String) : Except FileFault FileContent := do
  let location ← fs.locate path
  match fs.entry? location with
  | none => .error .notFound
  | some .directory => .error .isADirectory
  | some (.file content) => if endsWithSlash path then .error .notADirectory else .ok content

/-- A file stands at the path. -/
def isFile (fs : FileSystem) (path : String) : Bool :=
  match fs.read path with
  | .ok _ => true
  | .error _ => false

/-- A directory stands at the path. -/
def isDirectory (fs : FileSystem) (path : String) : Bool :=
  match fs.locate path with
  | .ok location => fs.entry? location == some .directory
  | .error _ => false

/-- Makes one directory. -/
def makeDirectory (fs : FileSystem) (path : String) : Except FileFault FileSystem := do
  let location ← fs.locate path
  match fs.entry? location with
  | some _ => .error .alreadyExists
  | none => .ok (fs.put location .directory)

/-- Makes a directory unless it is there already. -/
def ensureDirectory (fs : FileSystem) (path : String) : Except FileFault Unit × FileSystem :=
  match fs.makeDirectory path with
  | .ok fs => (.ok (), fs)
  | .error fault => if fs.isDirectory path then (.ok (), fs) else (.error fault, fs)

/-- Makes a directory and, where they are missing, at most so many directories above it. -/
def ensureWithin : Nat → FileSystem → String → Except FileFault Unit × FileSystem
  | 0, fs, _ => (.error .notFound, fs)
  | count + 1, fs, path =>
    if path.isEmpty then (.ok (), fs)
    else
      match fs.makeDirectory path with
      | .ok fs => (.ok (), fs)
      | .error .notFound =>
        match Path.parent? path with
        | none => (.error .notFound, fs)
        | some parent =>
          match ensureWithin count fs parent with
          | (.ok (), fs) => fs.ensureDirectory path
          | failed => failed
      | .error fault => if fs.isDirectory path then (.ok (), fs) else (.error fault, fs)

/-- Makes a directory and all that are missing above it. -/
def makeDirectories (fs : FileSystem) (path : String) : Except FileFault Unit × FileSystem :=
  ensureWithin (path.length + 1) fs path

/-- Writes a file in place. -/
def overwrite (fs : FileSystem) (path : String) (content : FileContent) :
    Except FileFault FileSystem := do
  let location ← fs.locate path
  if endsWithSlash path then .error .isADirectory
  else
    match fs.entry? location with
    | some .directory => .error .isADirectory
    | _ => .ok (fs.put location (.file content))

/-- The last segment of the path leads to a directory whatever its name, as `.` and `..` do. -/
def endsWithDots (path : String) : Bool :=
  match ((Path.segments path.toList).filter (· ≠ [])).getLast? with
  | some segment => segment == ['.'] || segment == ['.', '.']
  | none => false

/-- Puts a finished file in the place of whatever file stood at the path. -/
def replace (fs : FileSystem) (path : String) (content : FileContent) :
    Except FileFault FileSystem := do
  let location ← fs.locate path
  if endsWithDots path then .error .busy
  else if endsWithSlash path then .error .notADirectory
  else
    match fs.entry? location with
    | some .directory => .error .isADirectory
    | _ => .ok (fs.put location (.file content))

/-- Removes what stands at a path. -/
def remove (fs : FileSystem) (path : String) : Except FileFault FileSystem := do
  let location ← fs.locate path
  match fs.entry? location with
  | none => .error .notFound
  | some _ => .ok (fs.erase location)

/-- The entries below a location, with their names from there on, in the order of the names. -/
def below (fs : FileSystem) (location : Location) : List (List String × FileEntry) :=
  let inside := fs.entries.filterMap fun item =>
    if location.isSuffixOf item.1 && item.1 != location then
      some ((item.1.take (item.1.length - location.length)).reverse, item.2)
    else none
  inside.mergeSort fun a b => !b.1.lex a.1 fun s t => s < t

end FileSystem

end ClientLoom
