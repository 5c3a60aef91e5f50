import CenterOfMass.Command.Run

namespace CenterOfMass

/-- The cause of a failure by its number in the system. -/
def FileFault.ofCode (message : String) (code : UInt32) : FileFault :=
  if code = 2 then .missing
  else if code = 17 then .occupied
  else if code = 20 then .notDirectory
  else if code = 21 then .isDirectory
  else if code = 36 then .longName
  else .other message

def FileFault.ofError (e : IO.Error) : FileFault :=
  match e with
  | .noFileOrDirectory _ code _ | .alreadyExists _ code _ | .inappropriateType _ code _
  | .invalidArgument _ code _ => .ofCode e.toString code
  | e => .other e.toString

namespace Command

/-- Turns an error of the system into a value. -/
def settle {α : Type} (action : IO α) : IO (Except FileFault α) := do
  try return .ok (← action)
  catch e => return .error (FileFault.ofError e)

/-- The files of the machine. -/
def disk : FileSystem IO where
  read path := settle do return (← IO.FS.readBinFile path).toList
  isDirectory path := do
    match ← settle (do (← IO.FS.realPath path).isDir) with
    | .ok found => return found
    | .error _ => return false
  makeDirectory path := settle (IO.FS.createDir path)
  write path bytes := settle (IO.FS.writeBinFile path ⟨bytes.toArray⟩)

/-- The variables that a run looks at. -/
def variableNames : List String :=
  ["COM_OUTPUT_DIR", "COM_COLORMAP", "COM_LOG_SCALE", "COM_WHEEL_START", "COM_WHEEL_ROTATION",
    "COM_WHEEL_HUE", "COM_WHEEL_LIGHT"]

def usage : String := "Usage: center-of-mass [OPTIONS] <INPUT>"

def help : String :=
  "Center-of-mass vector field analysis of reduction maps\n\n" ++ usage ++ "\n\n" ++
  "Arguments:\n" ++
  "  <INPUT>  JSON file with dataset shape, parameters and reduction maps\n\n" ++
  "Options:\n" ++
  "  -o, --output-dir <DIR>   Directory for images, raw data and summary.json\n" ++
  "      --cx <CX>            ROI center column (overrides the input file)\n" ++
  "      --cy <CY>            ROI center row (overrides the input file)\n" ++
  "      --r <R>              ROI radius (overrides the input file)\n" ++
  "      --colormap <NAME>    Colormap for scalar maps\n" ++
  "      --log-scale          Log-scale scalar maps\n" ++
  "      --log-level <LEVEL>  Log level\n" ++
  "      --json-logs          Emit logs as JSON\n" ++
  "  -h, --help               Print help"

/-- A failure as it is shown, with what lies behind it. -/
def RunFault.report (fault : RunFault) : String :=
  let behind := fault.causes.map fun cause => "\n    " ++ cause
  "Error: " ++ fault.message ++
    (if behind.isEmpty then "" else "\n\nCaused by:" ++ String.join behind)

end Command

end CenterOfMass

open CenterOfMass.Command in
def main (words : List String) : IO UInt32 := do
  let found ← variableNames.filterMapM fun name => do
    return (← IO.getEnv name).map fun value => (name, value)
  let outcome ← run disk (fun name => found.lookup name) words
  match outcome with
  | .done _ => pure ()
  | .stopped .help => IO.println help
  | .stopped .usage => IO.eprintln usage
  | .failed fault => IO.eprintln fault.report
  return outcome.exitCode
