import ClientLoom.Cli.Program

/-!
# The command line

The files of the machine as a store, and the entry point.
-/

namespace ClientLoom.Disk

/-- The fault of an error of the machine. -/
def faultOf (error : IO.Error) : FileFault :=
  match error with
  | .noFileOrDirectory .. => .notFound
  | .alreadyExists .. => .alreadyExists
  | .inappropriateType _ code _ => if code = 20 then .notADirectory else .isADirectory
  | other => .other (toString other)

/-- An action whose errors are faults. -/
def attempt {α : Type} (action : IO α) : IO (Except FileFault α) := do
  try
    let value ← action
    pure (.ok value)
  catch error => pure (.error (faultOf error))

/-- The bytes of a file as text. -/
def readText (path : String) : IO (Except FileFault String) := do
  match ← attempt (IO.FS.readBinFile path) with
  | .error fault => pure (.error fault)
  | .ok bytes =>
    match String.fromUTF8? bytes with
    | some text => pure (.ok text)
    | none => pure (.error .notUtf8)

/-- A file, not a directory, stands at the path. -/
def standsFile (path : String) : IO Bool := do
  let place := (← IO.currentDir) / path
  return (← place.pathExists) && !(← place.isDir)

/-- Writes a file beside its place and then moves it there. -/
def replaceFile (path text : String) : IO Unit := do
  let stamp ← IO.monoNanosNow
  let directory := (Path.parent? path).getD "."
  let aside := Path.join directory (".tmp" ++ toString stamp)
  IO.FS.writeFile aside text
  IO.FS.rename aside path

instance : FileStore IO where
  read path := readText path
  isFile path := standsFile path
  makeDirectories path :=
    if path.isEmpty then pure (.ok ()) else attempt (IO.FS.createDirAll path)
  overwrite path text := attempt (IO.FS.writeFile path text)
  replace path text := attempt (replaceFile path text)

end ClientLoom.Disk

open ClientLoom in
/-- Runs the program on the arguments of the command line. -/
def main (arguments : List String) : IO UInt32 := do
  let directory ← IO.currentDir
  let environment ← IO.getEnv "APIGEN_CONFIG"
  let output ← IO.getStdout
  let colored ← output.isTty
  let result ← Program.run directory.toString environment colored arguments
  output.putStr result.output
  unless result.complaint.isEmpty do
    IO.eprintln result.complaint
  return result.code.value.toNat.toUInt32
