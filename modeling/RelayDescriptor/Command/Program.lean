import RelayDescriptor.Command.Run
import RelayDescriptor.Tools.Standard

/-!
# The program

The runs of the program are those with its own tools.  What it needs of the world can be
told from the command line before it runs.
-/

namespace RelayDescriptor

namespace Program

/-- The response to a command line. -/
def respond (environment : Environment) (line : List Text) : Response :=
  Run.respond .standard environment line

/-- Whether a command line asks for standard input. -/
def readsInput (environment : Environment) (line : List Text) : Bool :=
  match Invocation.read environment line with
  | .ok (.task _ (.ok (.parse options))) =>
      options.paths.isEmpty || options.paths.contains Run.standardInput
  | _ => false

/-- The names of all files that a command line may need to look up. -/
def namesNeeded (directory : Text) (line : List Text) : List Text :=
  let values := line.filterMap fun argument => (Arguments.nameAndValue argument).2
  let given := line ++ values
  (Configuration.discoverable.map (FileName.within directory) ++ given ++
    given.map FileName.normal).eraseDups

end Program

end RelayDescriptor
