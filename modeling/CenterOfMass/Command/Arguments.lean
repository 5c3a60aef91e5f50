import CenterOfMass.Decimal.Literal
import CenterOfMass.Scan.Parameters

namespace CenterOfMass.Command

/-- What the command line asks for. -/
structure Arguments where
  input : String
  outputDirectory : String
  parameters : UserParameters Float
  colormap : Option String
  logarithmic : Bool

/-- Why a command line does not ask for a run. -/
inductive Stop
  | help
  | usage
  deriving DecidableEq

/-- The options that take a value. -/
inductive ValueOption
  | outputDirectory
  | cx
  | cy
  | r
  | colormap
  | logLevel
  deriving DecidableEq

inductive Switch
  | logScale
  | jsonLogs
  deriving DecidableEq

/-- What a word with two dashes means. -/
inductive LongOption
  | value (option : ValueOption)
  | switch (option : Switch)
  | help

def LongOption.ofName? (name : String) : Option LongOption :=
  if name = "output-dir" then some (.value .outputDirectory)
  else if name = "cx" then some (.value .cx)
  else if name = "cy" then some (.value .cy)
  else if name = "r" then some (.value .r)
  else if name = "colormap" then some (.value .colormap)
  else if name = "log-level" then some (.value .logLevel)
  else if name = "log-scale" then some (.switch .logScale)
  else if name = "json-logs" then some (.switch .jsonLogs)
  else if name = "help" then some .help
  else none

/-- The values and switches met so far. -/
structure Seen where
  input : Option String := none
  values : List (ValueOption × String) := []
  switches : List Switch := []

namespace Seen

/-- A path may not be empty, and a number has to be one. -/
def admits (option : ValueOption) (value : String) : Bool :=
  match option with
  | .outputDirectory => value ≠ ""
  | .cx | .cy | .r => (Decimal.float? value).isSome
  | .colormap | .logLevel => true

/-- No option is given twice. -/
def addValue (seen : Seen) (option : ValueOption) (value : String) : Except Stop Seen :=
  if (seen.values.lookup option).isSome || !admits option value then .error .usage
  else .ok { seen with values := (option, value) :: seen.values }

def addSwitch (seen : Seen) (option : Switch) : Except Stop Seen :=
  if option ∈ seen.switches then .error .usage
  else .ok { seen with switches := option :: seen.switches }

/-- There is one input, and its path is not empty. -/
def addInput (seen : Seen) (path : String) : Except Stop Seen :=
  if seen.input.isSome || path = "" then .error .usage else .ok { seen with input := some path }

def number (seen : Seen) (option : ValueOption) : Option Float :=
  (seen.values.lookup option).bind Decimal.float?

end Seen

/-- A word that begins with a dash is no value, unless it is the dash alone. -/
def isValue (word : String) : Bool := !word.startsWith "-" || word = "-"

/-- The name of an option and the value attached to it. -/
def splitAttached (cs : List Char) : String × Option String :=
  match cs.span (· ≠ '=') with
  | (name, '=' :: value) => (String.ofList name, some (String.ofList value))
  | (name, _) => (String.ofList name, none)

/-- Goes over the words in order. The first one that is wrong, or asks for help, decides. -/
def scan (seen : Seen) : List String → Except Stop Seen
  | [] => .ok seen
  | word :: words =>
    let separate (option : ValueOption) : Except Stop Seen :=
      match words with
      | value :: rest =>
        if isValue value then seen.addValue option value >>= fun seen => scan seen rest
        else .error .usage
      | [] => .error .usage
    match word.toList with
    | ['-', '-'] => words.foldlM Seen.addInput seen
    | '-' :: '-' :: long =>
      let (name, attached) := splitAttached long
      match LongOption.ofName? name, attached with
      | some (.value option), some value =>
        seen.addValue option value >>= fun seen => scan seen words
      | some (.value option), none => separate option
      | some (.switch option), none => seen.addSwitch option >>= fun seen => scan seen words
      | some .help, none => .error .help
      | _, _ => .error .usage
    | '-' :: 'o' :: '=' :: value =>
      seen.addValue .outputDirectory (String.ofList value) >>= fun seen => scan seen words
    | ['-', 'o'] => separate .outputDirectory
    | '-' :: 'o' :: value =>
      seen.addValue .outputDirectory (String.ofList value) >>= fun seen => scan seen words
    | '-' :: 'h' :: _ => .error .help
    | '-' :: _ :: _ => .error .usage
    | _ => seen.addInput word >>= fun seen => scan seen words

/-- The directory that results are written to unless another one is named. -/
def standardOutput : String := "com-results"

/-- Reads a command line. An output directory in the environment counts unless the command line
names one, and must then not be empty. -/
def Arguments.parse (environment : String → Option String) (words : List String) :
    Except Stop Arguments := do
  let seen ← scan {} words
  match seen.input with
  | none => throw .usage
  | some input =>
    let directory := ((seen.values.lookup .outputDirectory).or (environment "COM_OUTPUT_DIR")).getD
      standardOutput
    if directory = "" then throw .usage
    return {
      input
      outputDirectory := directory
      parameters := ⟨seen.number .cx, seen.number .cy, seen.number .r, none⟩
      colormap := seen.values.lookup .colormap
      logarithmic := seen.switches.contains .logScale }

end CenterOfMass.Command
