import RelayDescriptor.Command.Program

/-!
# The command

Looks up what a command line may need, runs it, and writes out what it yields.
-/

open RelayDescriptor

/-- The error of the system behind a failure. -/
def systemError : IO.Error → SystemError
  | .noFileOrDirectory .. => .missing
  | .inappropriateType _ code details | .permissionDenied _ code details
  | .invalidArgument _ code details | .resourceExhausted _ code details =>
      ⟨code.toNat, details⟩
  | .otherError code details | .hardwareFault code details => ⟨code.toNat, details⟩
  | error => ⟨5, toString error⟩

/-- What stands under the name of a file. -/
def lookUp (name : Text) : IO FileEntry := do
  try
    return .file (← IO.FS.readBinFile (shown name)).toList
  catch failure =>
    let error := systemError failure
    if error = .directory then return .directory
    -- A file that is there but cannot be read has metadata.
    try
      let _ ← (System.mkFilePath [shown name]).metadata
      return .closed error
    catch failure => return .hidden (systemError failure)

/-- The value of a variable, if it is set. -/
def readVariable (name : String) : IO (Option (Text × Text)) := do
  return (← IO.getEnv name).map fun value => (name.toList, value.toList)

/-- Runs a command line. -/
def main (arguments : List String) : IO UInt32 := do
  let line := arguments.map String.toList
  let directory := (← IO.currentDir).toString.toList
  let names := Program.namesNeeded directory line
  let entries ← names.mapM fun name => return (name, ← lookUp name)
  let definitions ←
    [ColourMode.forceVariable, ColourMode.refuseVariable, Run.thresholdVariable].filterMapM
      readVariable
  let stdout ← IO.getStdout
  let environment : Environment :=
    {
      definitions
      entry := fun name => (OrderedMap.find? name entries).getD .missing
      directory
      input := []
      terminal := ← stdout.isTty
    }
  let input ←
    if Program.readsInput environment line then (← IO.getStdin).readBinToEnd
    else pure ByteArray.empty
  let response := Program.respond { environment with input := input.toList } line
  stdout.putStr (shown response.output)
  let stderr ← IO.getStderr
  stderr.putStr (shown response.errors)
  match response.escape with
  | some escape => stderr.putStrLn s!"{escape.className}: {escape.message}"
  | none => pure ()
  return UInt32.ofNat response.status.code
