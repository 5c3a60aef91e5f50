import CenterOfMass.Command.Arguments
import CenterOfMass.Exchange.Input
import CenterOfMass.Export
import CenterOfMass.Files.Tree
import CenterOfMass.Json.Parser

namespace CenterOfMass.Command

/-- What keeps a run from its end, in the order in which it can happen. -/
inductive RunFault
  | settings (cause : SettingsFault)
  | read (path : String) (cause : FileFault)
  | parse (path : String) (cause : JsonFault)
  | setUp (cause : Failure)
  | analyze (cause : Failure)
  | write (cause : ExportFault)

namespace RunFault

def message : RunFault → String
  | .settings cause => "Invalid analysis configuration: " ++ cause.message
  | .read path _ => "Failed to read input file " ++ path
  | .parse path _ => "Failed to parse input file " ++ path
  | .setUp _ => "Failed to set up analysis"
  | .analyze cause => cause.message
  | .write cause => cause.message

/-- What lies behind the message. -/
def causes : RunFault → List String
  | .settings _ => []
  | .read _ cause => [cause.message]
  | .parse _ .malformed => ["malformed text"]
  | .parse _ .truncated => ["unexpected end of text"]
  | .parse _ .mismatch => ["unexpected content"]
  | .setUp cause => [cause.message]
  | .analyze _ => []
  | .write cause => [cause.cause]

end RunFault

inductive Outcome
  | done (summary : Summary Float)
  | failed (fault : RunFault)
  | stopped (stop : Stop)

def Outcome.exitCode : Outcome → UInt32
  | .done _ => 0
  | .failed _ => 1
  | .stopped .help => 0
  | .stopped .usage => 2

/-- The settings of the environment, except for those that the command line gives anew. -/
def Arguments.settings (a : Arguments) (environment : String → Option String) :
    Except RunFault (Settings Float) :=
  let given := Settings.ofEnvironment environment
  let settings := { given with
    colormap := (a.colormap.map Colormap.ofName).getD given.colormap
    logarithmic := given.logarithmic || a.logarithmic }
  (settings.validate.map fun _ => settings).mapError .settings

/-- The text of a file, which has to be in UTF-8. -/
def decodeText (path : String) (bytes : List UInt8) : Except RunFault String :=
  match String.fromUTF8? ⟨bytes.toArray⟩ with
  | some text => .ok text
  | none => .error (.read path (.other "stream did not contain valid UTF-8"))

def Arguments.read (a : Arguments) (bytes : List UInt8) : Except RunFault (Input Float) := do
  let text ← decodeText a.input bytes
  (Json.readDocument Input.ofDraft text).mapError (.parse a.input)

/-- All of a run between reading and writing. -/
def Arguments.analyze (a : Arguments) (settings : Settings Float) (input : Input Float) :
    Except RunFault (ResultSet Float × Parameters Float) := do
  let parameters := input.parametersWith a.parameters
  let analysis ← (Analysis.ofDataset input.shape parameters).mapError .setUp
  let results ← (input.analyze (analysis.withSettings settings)).mapError .analyze
  return (results, analysis.parameters)

variable {m : Type → Type} [Monad m]

/-- Reads, analyzes and writes. Nothing is written before all results are there. -/
def execute (fs : FileSystem m) (encoder : Png.Encoder) (environment : String → Option String)
    (a : Arguments) : ExceptT RunFault m (Summary Float) := do
  let settings ← a.settings environment
  let bytes ← ExceptT.mk do return (← fs.read a.input).mapError (.read a.input)
  let input ← a.read bytes
  let (results, parameters) ← a.analyze settings input
  (Export.results fs results parameters a.outputDirectory encoder).adapt .write

/-- The whole program. -/
def run (fs : FileSystem m) (environment : String → Option String) (words : List String)
    (encoder : Png.Encoder := .storing) : m Outcome := do
  match Arguments.parse environment words with
  | .error stop => return .stopped stop
  | .ok a =>
    match ← (execute fs encoder environment a).run with
    | .ok summary => return .done summary
    | .error fault => return .failed fault

end CenterOfMass.Command
